import RealtimeNotify.App.Frames

/-!
# Presence and routing

A connect and a heartbeat renew the presence key and the registry entry of a
user together, a presence update the former alone. The two end together as long
as the next heartbeat after an update comes while the registry entry is there;
else the user is shown online, and nothing is routed to it any more.
-/

namespace RealtimeNotify.App

open RealtimeNotify.Lib RealtimeNotify.Python

/-! ## Runs of one session -/

/-- The session has not connected, waits for its client, or is over. -/
def GatewayPc.waits : GatewayPc → Bool
  | receive _ => true
  | pc => pc.connected?.isNone

def RedisCmd.reads : RedisCmd → Bool
  | get _ | .exists _ => true
  | _ => false

def Op.writesEntries (u : String) : Op → Bool
  | .redis cmd => (cmd.key = registryKey u || cmd.key = presenceKey u) && !cmd.reads
  | _ => false

/-- Session `n` alone works on the entries of `u`, and its connect and the
handling of a message take no time. -/
def soleSession (env : Env) (u : String) (n : Nat) (w : World) : Action → Bool
  | .tick _ => (w.sessions n).all (·.pc.waits)
  | .task id _ => id = .session n || !(w.awaits env id).any (·.writesEntries u)
  | _ => true

/-! ## Heartbeats in pace -/

/-- The registry part of a connect or of a heartbeat. -/
def Event.renews (u : String) (e : Event) : Bool :=
  match e.what.effect with
  | some (.redis (.set k _ _)) | some (.redis (.expire k _)) => k = registryKey u
  | _ => false

/-- The presence key was set: by a connect or by a presence update. -/
def Event.updates (u : String) (e : Event) : Bool :=
  match e.what.effect with
  | some (.redis (.set k _ _)) => k = presenceKey u
  | _ => false

/-- A connect or heartbeat that an update comes after is followed by a heartbeat
less than `ttl` later, unless less than that has passed. -/
def InPace (ttl : Nat) (u : String) (log : List Event) (now : Nat) : Prop :=
  ∀ later e earlier, log = later ++ e :: earlier → e.renews u = true →
    (∃ e' ∈ later, e'.updates u = true ∧ e.time < e'.time) →
    now < e.time + ttl ∨ ∃ e' ∈ later, e'.renews u = true ∧ e'.time < e.time + ttl

/-! ## The invariant -/

/-- The registry entry ends at `R`, a TTL after the event `e` that renewed it
last; the presence key is to end at `P`, which is `R` or made later by an update
after `e`. -/
structure Renewal (env : Env) (u i : String) (w : World) (R P : Nat) : Prop where
  pos : 0 < env.presenceTtlSeconds
  registry : w.shared.redis (registryKey u) = some ⟨.text i, some R⟩
  renewed : ∃ later e earlier, w.log = later ++ e :: earlier ∧ e.renews u = true ∧
    e.time ≤ w.shared.now ∧ R = e.time + seconds env.presenceTtlSeconds ∧
    (∀ e' ∈ later, e'.renews u = true → R ≤ e'.time) ∧
    (P = R ∨ R < P ∧ ∃ e' ∈ later, e'.updates u = true ∧ e.time < e'.time)

/-- A status that is not `offline`. -/
def Shown (v : RedisValue) : Prop := v = .text "online" ∨ v = .text "away"

/-- Both keys are as the events say. -/
def Aligned (env : Env) (u i : String) (w : World) : Prop :=
  ∃ R P v, Renewal env u i w R P ∧ Shown v ∧
    w.shared.redis (presenceKey u) = some ⟨v, some P⟩

/-- A heartbeat has put off the end of the presence key, and is to do the same
with the registry entry. -/
def Beating (env : Env) (u i : String) (w : World) : Prop :=
  ∃ R P v, Renewal env u i w R P ∧ Shown v ∧
    w.shared.redis (presenceKey u) = some ⟨v, some
      (if w.shared.now < P then w.shared.now + seconds env.presenceTtlSeconds else P)⟩

/-- What holds of the entries of `u` at a point of its session. -/
def GatewayPc.Paced (env : Env) (u i : String) (w : World) : GatewayPc → Prop
  | markOnline v => v = u → Renewal env u i w
      (w.shared.now + seconds env.presenceTtlSeconds)
      (w.shared.now + seconds env.presenceTtlSeconds)
  | onlineSeen v | backlogQuery v _ | backlogSend v _ | receive v | allow v _ | heartbeat v
  | presence v _ | presenceSeen v | readReceipt v _ _ | respond v _ => v = u → Aligned env u i w
  | heartbeatSeen v | refresh v => v = u → Beating env u i w
  | _ => True

variable {env : Env} {w w' : World} {a : Action} {u i : String} {n R P : Nat}

/-! ## Steps that leave the entries alone -/

theorem RedisCmd.exec_reads {cmd : RedisCmd} {r r' : Redis} {now : Nat} {reply : cmd.Reply}
    (hread : cmd.reads = true) (h : cmd.exec r now = some (r', reply)) : r' = r := by
  cases cmd <;> simp [reads] at hread
  all_goals
    obtain ⟨rfl, -⟩ := by simpa [exec] using h
    rfl

theorem Event.not_renews {e : Event} {op : Op} (he : e.what.effect = some op)
    (hop : op.writesEntries u = false) : e.renews u = false := by
  rw [Event.renews, he]
  cases op with
  | redis cmd =>
    cases cmd with
    | set k v ex | expire k ttl =>
      simp only [Op.writesEntries, RedisCmd.reads, RedisCmd.key, Bool.not_false, Bool.and_true,
        Bool.or_eq_false_iff] at hop
      exact hop.1
    | _ => rfl
  | _ => rfl

/-- Nothing was done with the registry entry of `u`. -/
structure Unrenewed (u : String) (w w' : World) : Prop where
  registry : w'.shared.redis (registryKey u) = w.shared.redis (registryKey u)
  log : w'.log = w.log ∨ ∃ e, w'.log = e :: w.log ∧ e.renews u = false
  now : w.shared.now ≤ w'.shared.now

/-- Nor with the presence key. -/
structure Untouched (u : String) (w w' : World) : Prop extends Unrenewed u w w' where
  presence : w'.shared.redis (presenceKey u) = w.shared.redis (presenceKey u)

theorem Stepped.untouched (h : Stepped env w a w')
    (ha : ∀ id o op, a = .task id o → w.awaits env id = some op → op.writesEntries u = false) :
    Untouched u w w' := by
  have hkey : ∀ k, k = registryKey u ∨ k = presenceKey u →
      w'.shared.redis k = w.shared.redis k := by
    intro k hk
    cases h.key_cases k with
    | kept hkept => exact hkept
    | @evicted m _ he =>
      rcases hk with rfl | rfl <;> exact absurd he (ne_of_keyInitial (by simp))
    | @sent id o cmd r reply hid _ haw hck hx hsh =>
      have hno := ha id o _ hid haw
      have hread : cmd.reads = true := by
        rcases hk with rfl | rfl <;> simpa [Op.writesEntries, hck] using hno
      rw [hsh, RedisCmd.exec_reads hread hx]
  refine ⟨⟨hkey _ (.inl rfl), ?_, h.now_le⟩, hkey _ (.inr rfl)⟩
  obtain ⟨sh, log, -, hlog, ht⟩ := h.touched
  rw [hlog]
  cases ht with
  | tick | expireDedup | crash | started _ => exact .inl rfl
  | raised _ _ => exact .inr ⟨_, rfl, rfl⟩
  | returned haw _ => exact .inr ⟨_, rfl, Event.not_renews rfl (ha _ _ _ rfl haw)⟩
  | applied haw _ _ => exact .inr ⟨_, rfl, Event.not_renews rfl (ha _ _ _ rfl haw)⟩

theorem Renewal.kept (h : Renewal env u i w R P) (hw : Unrenewed u w w') :
    Renewal env u i w' R P := by
  obtain ⟨later, e, earlier, hlog, he, hpast, hR, hlater, hP⟩ := h.renewed
  refine ⟨h.pos, hw.registry.trans h.registry, ?_⟩
  have hnow := hw.now
  rcases hw.log with hlog' | ⟨e', hlog', hno⟩
  · exact ⟨later, e, earlier, hlog'.trans hlog, he, by omega, hR, hlater, hP⟩
  · refine ⟨e' :: later, e, earlier, by rw [hlog', hlog, List.cons_append], he, by omega, hR,
      ?_, ?_⟩
    · intro f hf hren
      rcases List.mem_cons.mp hf with rfl | hf
      · simp [hno] at hren
      · exact hlater f hf hren
    · refine hP.imp_right fun ⟨hlt, f, hf, hupd⟩ => ⟨hlt, f, List.mem_cons_of_mem _ hf, hupd⟩

theorem Aligned.kept (h : Aligned env u i w) (hw : Untouched u w w') : Aligned env u i w' := by
  obtain ⟨R, P, v, hl, hv, hp⟩ := h
  exact ⟨R, P, v, hl.kept hw.toUnrenewed, hv, hw.presence.trans hp⟩

theorem Beating.kept (h : Beating env u i w) (hw : Untouched u w w')
    (hnow : w'.shared.now = w.shared.now) : Beating env u i w' := by
  obtain ⟨R, P, v, hl, hv, hp⟩ := h
  exact ⟨R, P, v, hl.kept hw.toUnrenewed, hv, by rw [hw.presence, hp, hnow]⟩

/-! ## The steps of the session -/

section

variable {s : Session} {op : Op} {k : op.Reply → GatewayPc} {r : GatewayPc} {reply : op.Reply}
  {sh : Shared} {c : Choice}

theorem Renewal.le (h : Renewal env u i w R P) : R ≤ P := by
  obtain ⟨later, e, earlier, -, -, -, -, -, hP⟩ := h.renewed
  omega

/-- The step of a session between two commands on the entries. -/
theorem Stepped.untouched_own (h : Stepped env w a w') {o : Outcome Choice}
    (ha : a = .task (.session n) o) (hs : w.sessions n = some s)
    (hn : s.pc.next env n s.instanceId s.connectionId = .call op k r)
    (hop : op.writesEntries u = false) : Untouched u w w' := by
  refine h.untouched fun id o' op' ha' haw => ?_
  obtain ⟨rfl, -⟩ : TaskId.session n = id ∧ o = o' := by simpa using ha.symm.trans ha'
  rw [World.awaits_session hs, hn] at haw
  obtain rfl := Option.some.inj haw
  exact hop

/-- A connect starts a lease. -/
theorem Renewal.of_register {reply : Unit} {e : Event}
    (hx : w.shared.exec (.redis (InstanceRegistry.register u i env.presenceTtlSeconds)) c
      = some (sh, reply)) (hsh : w'.shared = sh) (hlog : w'.log = e :: w.log)
    (htime : e.time = w.shared.now)
    (heff : e.what.effect =
      some (.redis (InstanceRegistry.register u i env.presenceTtlSeconds))) :
    Renewal env u i w' (w.shared.now + seconds env.presenceTtlSeconds)
      (w.shared.now + seconds env.presenceTtlSeconds) := by
  obtain ⟨redis, hcmd, rfl⟩ := Shared.exec_redis hx
  constructor
  · exact RedisCmd.exec_set_pos hcmd
  · rw [hsh, RedisCmd.exec_set hcmd]
    exact Store.put_self
  · refine ⟨[], e, w.log, hlog, ?_, ?_, by rw [htime], by simp, .inl rfl⟩
    · rw [Event.renews, heff]
      simp [InstanceRegistry.register]
    · rw [htime, hsh]

/-- An update is to let the presence key end a TTL from now. -/
theorem Renewal.updated (h : Renewal env u i w R P) {e : Event} (hw : Unrenewed u w w')
    (hlog : w'.log = e :: w.log) (htime : e.time = w.shared.now) (hupd : e.updates u = true) :
    Renewal env u i w' R (w.shared.now + seconds env.presenceTtlSeconds) := by
  obtain ⟨later, f, earlier, hf, hren, hpast, hR, hlater, -⟩ := h.renewed
  have hno : e.renews u = false := by
    rcases hw.log with hsame | ⟨e', he', hno⟩
    · simp [hlog] at hsame
    · obtain ⟨rfl, -⟩ := by simpa using hlog.symm.trans he'
      exact hno
  refine ⟨h.pos, hw.registry.trans h.registry, e :: later, f, earlier,
    by rw [hlog, hf, List.cons_append], hren, hpast.trans hw.now, hR, ?_, ?_⟩
  · intro g hg hgren
    rcases List.mem_cons.mp hg with rfl | hg
    · simp [hno] at hgren
    · exact hlater g hg hgren
  · -- an update at the instant of the renewal ends with it
    by_cases hsame : f.time = w.shared.now
    · exact .inl (by rw [hR, hsame])
    · exact .inr ⟨by omega, e, List.mem_cons_self .., hupd, by omega⟩

theorem presence_set {text : String} {e : Event} {reply : Unit}
    (hx : w.shared.exec (.redis (.set (presenceKey u) text (some env.presenceTtlSeconds))) c
      = some (sh, reply)) (hsh : w'.shared = sh) (hlog : w'.log = e :: w.log)
    (heff : e.what.effect =
      some (.redis (.set (presenceKey u) text (some env.presenceTtlSeconds)))) :
    Unrenewed u w w' ∧ e.updates u = true ∧ w'.shared.redis (presenceKey u) =
      some ⟨.text text, some (w.shared.now + seconds env.presenceTtlSeconds)⟩ := by
  obtain ⟨redis, hcmd, rfl⟩ := Shared.exec_redis hx
  have hne : registryKey u ≠ presenceKey u := ne_of_keyInitial (by simp)
  have hredis : w'.shared.redis = redis := by rw [hsh]
  rw [RedisCmd.exec_set hcmd] at hredis
  refine ⟨⟨?_, .inr ⟨e, hlog, ?_⟩, ?_⟩, ?_, ?_⟩
  · rw [hredis, Store.put_ne hne]
  · simp [Event.renews, heff, Ne.symm hne]
  · rw [hsh]
  · simp [Event.updates, heff]
  · rw [hredis, Store.put_self]

/-- A presence update. -/
theorem Aligned.set {text : String} {reply : Unit} (h : Aligned env u i w)
    (htext : Shown (.text text))
    (hx : w.shared.exec (.redis (.set (presenceKey u) text (some env.presenceTtlSeconds))) c
      = some (sh, reply)) (hsh : w'.shared = sh)
    (hlog : w'.log = ⟨w.shared.now, .session n, .returned
      (.redis (.set (presenceKey u) text (some env.presenceTtlSeconds))) reply⟩ :: w.log) :
    Aligned env u i w' := by
  obtain ⟨R, P, value, hren, -, -⟩ := h
  obtain ⟨hw, hupd, hpres⟩ := presence_set hx hsh hlog rfl
  exact ⟨R, _, _, hren.updated hw hlog rfl hupd, htext, hpres⟩

/-- The registry part of a heartbeat follows the presence part: both ends are put
off, or neither the lease nor, if it has ended too, the presence key. -/
theorem Renewal.refreshed (h : Renewal env u i w R P) {reply : Unit} {e : Event}
    (hx : w.shared.exec (.redis (InstanceRegistry.refresh u env.presenceTtlSeconds)) c
      = some (sh, reply)) (hsh : w'.shared = sh) (hlog : w'.log = e :: w.log)
    (htime : e.time = w.shared.now)
    (heff : e.what.effect =
      some (.redis (InstanceRegistry.refresh u env.presenceTtlSeconds))) :
    ∃ R', Renewal env u i w' R'
      (if w.shared.now < P then w.shared.now + seconds env.presenceTtlSeconds else P) := by
  obtain ⟨redis, hcmd, rfl⟩ := Shared.exec_redis hx
  obtain ⟨later, f, earlier, hf, hren, hpast, hR, hlater, hP⟩ := h.renewed
  have hnow : w'.shared.now = w.shared.now := by rw [hsh]
  have hregistry : w'.shared.redis (registryKey u) = some ⟨.text i,
      some (if w.shared.now < R then w.shared.now + seconds env.presenceTtlSeconds else R)⟩ := by
    rw [hsh, RedisCmd.exec_expire hcmd]
    exact Store.extend_deadline h.registry
  have hrenews : e.renews u = true := by
    rw [Event.renews, heff]
    simp [InstanceRegistry.refresh]
  by_cases hlt : w.shared.now < R
  · -- the refresh is the renewal that counts from now on
    refine ⟨_, h.pos, hregistry, [], e, w.log, hlog, hrenews, by omega, ?_, by simp, .inl ?_⟩
    · rw [if_pos hlt, htime]
    · have hle := h.le
      rw [if_pos hlt, if_pos (by omega)]
  · -- too late: the entry has expired, and the refresh cannot bring it back
    have hpos : 0 < seconds env.presenceTtlSeconds := by
      have := h.pos
      unfold seconds
      omega
    refine ⟨_, h.pos, hregistry, e :: later, f, earlier, by rw [hlog, hf, List.cons_append], hren,
      by omega, by rw [if_neg hlt, hR], ?_, ?_⟩
    · rw [if_neg hlt]
      intro g hg hgren
      rcases List.mem_cons.mp hg with rfl | hg
      · omega
      · exact hlater g hg hgren
    · rw [if_neg hlt]
      rcases hP with rfl | ⟨hRP, g, hg, hupd, hgt⟩
      · exact .inl (if_neg hlt)
      · refine .inr ⟨?_, g, List.mem_cons_of_mem _ hg, hupd, hgt⟩
        split <;> omega

end

/-! ## The run of the session -/

theorem GatewayPc.paced_routed {fields : Dict PyStr Json} {v : String}
    (h : v = u → Aligned env u i w) : (routed env v fields).Paced env u i w := by
  unfold routed
  split
  · exact h
  · exact h
  · split
    · exact h
    · trivial
  · exact h

/-- Outside of a heartbeat and a connect the entries only have to be left alone. -/
theorem GatewayPc.Paced.kept {pc : GatewayPc} (h : pc.Paced env u i w) (hw : Untouched u w w')
    (hnow : pc.waits = false → w'.shared.now = w.shared.now) : pc.Paced env u i w' := by
  cases pc with
  | markOnline v =>
    intro hv
    rw [hnow rfl]
    exact (h hv).kept hw.toUnrenewed
  | heartbeatSeen v | refresh v => exact fun hv => (h hv).kept hw (hnow rfl)
  | onlineSeen _ | backlogQuery _ _ | backlogSend _ _ | receive _ | allow _ _ | heartbeat _
  | presence _ _ | presenceSeen _ | readReceipt _ _ _ | respond _ _ =>
    exact fun hv => (h hv).kept hw
  | _ => trivial

/-- The session has a reply. -/
theorem GatewayPc.Paced.resume {s : Session} {op : Op} {k : op.Reply → GatewayPc} {r : GatewayPc}
    {reply : op.Reply} {sh : Shared} {c : Choice} (hu : (UUID.ofString u).isSome = true)
    (h : s.pc.Paced env u s.instanceId w) (hstep : Stepped env w (.task (.session n) (.ok c)) w')
    (hs : w.sessions n = some s)
    (hn : s.pc.next env n s.instanceId s.connectionId = .call op k r)
    (hx : w.shared.exec op c = some (sh, reply)) (hsh : w'.shared = sh)
    (hlog : w'.log = ⟨w.shared.now, .session n, .returned op reply⟩ :: w.log) :
    (k reply).Paced env u s.instanceId w' := by
  have hnow : w'.shared.now = w.shared.now := by rw [hsh, Shared.exec_now hx]
  have hother : op.writesEntries u = false → Untouched u w w' := hstep.untouched_own rfl hs hn
  obtain ⟨i, cid, pc⟩ := s
  have hseen : ∀ v, (Op.redis (PresenceStore.touchLastSeen v)).writesEntries u = false := by
    intro v
    have hne := presenceKey_ne_lastSeenKey (v := v) hu
    have hne' : lastSeenKey v ≠ registryKey u := ne_of_keyInitial (by simp)
    simp [Op.writesEntries, hne', Ne.symm hne]
  cases pc with
  | redeem ticket =>
    cases hn
    cases reply <;> trivial
  | register v =>
    cases hn
    rintro rfl
    rw [hnow]
    exact .of_register hx hsh hlog rfl rfl
  | markOnline v =>
    cases hn
    rintro rfl
    obtain ⟨hw, -, hpres⟩ := presence_set hx hsh hlog rfl
    exact ⟨_, _, _, (h rfl).kept hw, .inl rfl, hpres⟩
  | onlineSeen v =>
    cases hn
    have hal : v = u → Aligned env u i w' := fun hv => (h hv).kept (hother (hseen v))
    simp only
    split
    · exact hal
    · trivial
  | backlogQuery v id | backlogSend v rows | readReceipt v id m | respond v frame =>
    cases hn
    exact fun hv => (h hv).kept (hother rfl)
  | receive v =>
    cases hn
    have hal : v = u → Aligned env u i w' := fun hv => (h hv).kept (hother rfl)
    cases reply <;> first | exact hal | trivial
  | allow v fields =>
    cases hn
    -- the counter of the limiter is neither of the two entries
    have hno : (Op.redis (RateLimiter.allow cid env.rateLimitMessages
        env.rateLimitWindowSeconds)).writesEntries u = false := by
      have hreg : rateLimitKey cid ≠ registryKey u := ne_of_keyInitial (by simp)
      have hpres : rateLimitKey cid ≠ presenceKey u := ne_of_keyInitial (by simp)
      simp [Op.writesEntries, hreg, hpres]
    have hal : v = u → Aligned env u i w' := fun hv => (h hv).kept (hother hno)
    simp only
    split
    · exact paced_routed hal
    · exact hal
  | heartbeat v =>
    cases hn
    rintro rfl
    -- the presence key is ahead of the registry entry until `refresh`
    obtain ⟨R, P, value, hren, hshown, hpres⟩ := h rfl
    obtain ⟨redis, hcmd, rfl⟩ := Shared.exec_redis hx
    have hredis : w'.shared.redis = _ :=
      (congrArg Shared.redis hsh).trans (RedisCmd.exec_expire hcmd)
    have hne : registryKey v ≠ presenceKey v := ne_of_keyInitial (by simp)
    refine ⟨R, P, value, hren.kept ⟨?_, .inr ⟨_, hlog, ?_⟩, hstep.now_le⟩, hshown, ?_⟩
    · rw [hredis]
      exact Store.extend_ne hne
    · simp [Event.renews, Happened.effect, PresenceStore.refresh, Ne.symm hne]
    · rw [hredis, hnow]
      exact Store.extend_deadline hpres
  | heartbeatSeen v =>
    cases hn
    exact fun hv => (h hv).kept (hother (hseen v)) hnow
  | refresh v =>
    cases hn
    rintro rfl
    obtain ⟨R, P, value, hren, hshown, hpres⟩ := h rfl
    obtain ⟨R', hren'⟩ := hren.refreshed hx hsh hlog rfl rfl
    refine ⟨R', _, value, hren', hshown, ?_⟩
    obtain ⟨redis, hcmd, rfl⟩ := Shared.exec_redis hx
    have hkept : redis (presenceKey v) = w.shared.redis (presenceKey v) :=
      RedisCmd.exec_frame hcmd (ne_of_keyInitial (by simp))
    rw [hsh]
    exact hkept.trans hpres
  | presence v online =>
    cases online with
    | true =>
      cases hn
      rintro rfl
      exact (h rfl).set (.inl rfl) hx hsh hlog
    | false =>
      cases hn
      rintro rfl
      exact (h rfl).set (.inr rfl) hx hsh hlog
  | presenceSeen v =>
    cases hn
    exact fun hv => (h hv).kept (hother (hseen v))
  | reject | accept v | add v | remove v | unregister v | markOffline v =>
    cases hn
    trivial
  | ended => cases hn

theorem GatewayPc.paced_leaving {pc : GatewayPc} (h : pc.leaving = true) :
    pc.Paced env u i w := by
  cases pc <;> trivial

/-- The session of the run is in pace with the entries. -/
def SessionPaced (env : Env) (u : String) (n : Nat) (w : World) : Prop :=
  ∀ s, w.sessions n = some s → s.pc.Paced env u s.instanceId w

theorem SessionPaced.step (hu : (UUID.ofString u).isSome = true) (h : SessionPaced env u n w)
    (hg : soleSession env u n w a = true) (hstep : Stepped env w a w') :
    SessionPaced env u n w' := by
  intro s' hs'
  cases hstep.session_cases hs' with
  | same hs hne _ =>
    refine (h s' hs).kept (hstep.untouched fun id o op ha haw => ?_) fun hwaits => ?_
    · subst ha
      have hid : id ≠ .session n := fun hid => hne o (by rw [hid])
      simpa [soleSession, haw, hid] using hg
    · -- time passes only where the session waits for its client
      rcases hstep.now_cases with hnow | ⟨d, rfl, -⟩
      · exact hnow
      · simp [soleSession, hs, hwaits] at hg
  | new _ _ _ _ => trivial
  | killed _ _ _ => trivial
  | @moved s o sh pc e hs ha hadv hsh hlog =>
    subst ha
    cases hadv with
    | returned hn hx => exact GatewayPc.Paced.resume (s := s) hu (h s hs) hstep hs hn hx hsh hlog
    | raised hn _ => exact GatewayPc.paced_leaving (GatewayPc.leaving_raised hn)
    | applied hn _ _ => exact GatewayPc.paced_leaving (GatewayPc.leaving_raised hn)

theorem SessionPaced.of_reach (hu : (UUID.ofString u).isSome = true)
    (h : Reach (platform env) (fun w a => soleSession env u n w a = true) w) :
    SessionPaced env u n w := by
  refine h.invariant ?_ fun _ hg ih hstep => ih.step hu hg (World.stepped hstep)
  intro s hs
  simp [platform, World.empty] at hs

/-- While the heartbeats are in pace the two keys are there together. -/
theorem Renewal.together (h : Renewal env u i w R P)
    (hpace : InPace (seconds env.presenceTtlSeconds) u w.log w.shared.now) :
    w.shared.now < P ↔ w.shared.now < R := by
  obtain ⟨later, e, earlier, hlog, hren, -, hR, hlater, hP⟩ := h.renewed
  rcases hP with rfl | ⟨hRP, e', he', hupd, hlt⟩
  · exact Iff.rfl
  · have hbefore : w.shared.now < R := by
      rcases hpace later e earlier hlog hren ⟨e', he', hupd, hlt⟩ with hnow | ⟨f, hf, hfren, hft⟩
      · omega
      · -- the registry entry was gone when that heartbeat came
        have := hlater f hf hfren
        omega
    constructor <;> omega

/-- Between two operations of a sole session whose heartbeats are in pace its
user is shown iff the registry has its instance. -/
theorem presence_agrees (hu : (UUID.ofString u).isSome = true)
    (h : Reach (platform env) (fun w a => soleSession env u n w a = true) w) {s : Session}
    (hs : w.sessions n = some s) (hpc : s.pc = .receive u)
    (hpace : InPace (seconds env.presenceTtlSeconds) u w.log w.shared.now) :
    (w.shared.redis.getStatus w.shared.now u = "online" ∨
        w.shared.redis.getStatus w.shared.now u = "away") ↔
      w.shared.redis.lookup w.shared.now u = some s.instanceId := by
  have hpaced := SessionPaced.of_reach hu h s hs
  rw [hpc] at hpaced
  obtain ⟨R, P, v, hren, hshown, hpres⟩ := hpaced rfl
  have htogether := hren.together hpace
  rw [Redis.getStatus, Redis.lookup, Store.get_deadline hpres, Store.get_deadline hren.registry]
  by_cases hlive : w.shared.now < R
  · rw [if_pos hlive, if_pos (htogether.mpr hlive)]
    rcases hshown with rfl | rfl <;> simp [PresenceStore.status, RedisValue.decode]
  · rw [if_neg hlive, if_neg (mt htogether.mp hlive)]
    simp [PresenceStore.status]

/-- The client goes away 20 seconds after it connected, and `wait` passes. -/
def awayRun (wait : Nat) : List Action :=
  soloRun ++ .tick (seconds 20) :: Action.say 0 awayMessage 2 ++ [.tick wait]

set_option maxRecDepth 4000 in
theorem presence_agrees_away : ∃ w, (platform plainEnv).run .empty (awayRun (seconds 5)) = some w ∧
    ((w.shared.redis.getStatus w.shared.now someUser = "online" ∨
        w.shared.redis.getStatus w.shared.now someUser = "away") ↔
      w.shared.redis.lookup w.shared.now someUser = some "a") := by
  have hmeets : (platform plainEnv).Meets (fun w a => soleSession plainEnv someUser 0 w a = true)
      .empty (awayRun (seconds 5)) := by decide
  obtain ⟨w, hrun, hs, hnow⟩ : ∃ w,
      (platform plainEnv).run .empty (awayRun (seconds 5)) = some w ∧
      w.sessions 0 = some ⟨"a", "c0", .receive someUser⟩ ∧ w.shared.now = seconds 25 :=
    ⟨_, rfl, rfl, rfl⟩
  refine ⟨w, hrun, presence_agrees (by decide) (.of_run .init hmeets hrun) hs rfl ?_⟩
  intro later e earlier hlog _ _
  left
  rw [hnow]
  have httl : seconds plainEnv.presenceTtlSeconds = seconds 30 := rfl
  unfold seconds at *
  omega

set_option maxRecDepth 4000 in
/-- Without a heartbeat the user is still away when the registry has forgotten it. -/
theorem presence_agrees_not : ∃ w s,
    Reach (platform plainEnv) (fun w a => soleSession plainEnv someUser 0 w a = true) w ∧
    w.sessions 0 = some s ∧ s.pc = .receive someUser ∧
    ¬ ((w.shared.redis.getStatus w.shared.now someUser = "online" ∨
        w.shared.redis.getStatus w.shared.now someUser = "away") ↔
      w.shared.redis.lookup w.shared.now someUser = some s.instanceId) := by
  have hmeets : (platform plainEnv).Meets (fun w a => soleSession plainEnv someUser 0 w a = true)
      .empty (awayRun (seconds 15)) := by decide
  obtain ⟨w, hrun, hs, hstatus, hlookup⟩ : ∃ w,
      (platform plainEnv).run .empty (awayRun (seconds 15)) = some w ∧
      w.sessions 0 = some ⟨"a", "c0", .receive someUser⟩ ∧
      w.shared.redis.getStatus w.shared.now someUser = "away" ∧
      w.shared.redis.lookup w.shared.now someUser = none := ⟨_, rfl, rfl, rfl, rfl⟩
  refine ⟨w, _, .of_run .init hmeets hrun, hs, rfl, fun hagrees => ?_⟩
  have hfound := hagrees.mp (.inr hstatus)
  simp [hlookup] at hfound

end RealtimeNotify.App
