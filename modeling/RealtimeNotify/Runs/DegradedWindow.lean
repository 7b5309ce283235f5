import RealtimeNotify.Runs.Creation
import RealtimeNotify.Runs.Expiry

/-!
# After a crash

The entries of the users of a crashed instance stay until they expire, and its
liveness key goes first. From then on nothing is published for such a user, as
long as no instance that its entry names says that it is alive again: a restart
under the same id does, and the old entries point at it.
-/

namespace RealtimeNotify.App

open RealtimeNotify.Lib RealtimeNotify.Python

/-! ## What follows the crash -/

def Op.adds (u : String) : Op → Bool
  | .add _ v _ => v = u
  | _ => false

/-- The user does not connect. -/
def staysAway (env : Env) (u : String) (w : World) : Action → Bool
  | .task id _ => !(w.awaits env id).any (·.adds u)
  | _ => true

def Op.marksAlive (j : String) : Op → Bool
  | .redis (.set k _ _) => k = livenessKey j
  | _ => false

/-- Instance `j` says that it is alive. -/
def marksAlive (env : Env) (j : String) (w : World) : Action → Bool
  | .task id _ => (w.awaits env id).any (·.marksAlive j)
  | _ => false

/-- A lookup of the user took effect. -/
def Event.looksUp (u : UUID) (e : Event) : Bool :=
  match e.what.effect with
  | some (.redis (.get k)) => k = registryKey u.str
  | _ => false

namespace World

/-- Request `n` looked the user up later than `limit`. -/
def lookedUpAfter (w : World) (limit : Nat) (u : UUID) (n : Nat) : Prop :=
  ∃ e ∈ w.log, e.task = .request n ∧ e.looksUp u = true ∧ limit < e.time

/-- A lookup of the user later than `limit` has found `j`, and its request is
still to ask whether `j` is alive, or may find `j` yet. -/
def findsAfter (w : World) (limit : Nat) (u : UUID) (j : String) : Prop :=
  w.shared.redis.lookup (max w.shared.now (limit + 1)) u.str = some j ∨
    ∃ n r row, w.requests n = some r ∧ r.body.userId = u ∧ r.pc = .isAlive row j ∧
      w.lookedUpAfter limit u n

/-- The requests for the user that look it up later than `limit` publish nothing
and are answered with `delivered_live = false`. -/
def closedAfter (w : World) (limit : Nat) (u : UUID) : Prop :=
  ∀ n r, w.requests n = some r → r.body.userId = u → w.lookedUpAfter limit u n →
    (∀ e ∈ w.log, e.task = .request n → e.publication? = none) ∧
      ∀ response, r.pc = .returned response → response.deliveredLive = false

end World

variable {env : Env} {w w' : World} {a : Action} {u : UUID} {limit : Nat}

/-! ## Publications of one request -/

/-- Not past the publication. -/
def CreatePc.early : CreatePc → Bool
  | allow | hasSeen | create | markSeen _ | lookup _ | isAlive _ _ | publish _ _ => true
  | _ => false

/-- Past the lookup with nothing published, and not about to. -/
def CreatePc.quiet : CreatePc → Bool
  | isAlive _ _ | rejected _ | raised | killed => true
  | returned response => !response.deliveredLive
  | _ => false

section

variable {client : Option String} {body : NotificationCreate} {pc r : CreatePc} {op : Op}
  {k : op.Reply → CreatePc}

theorem CreatePc.early_next (h : pc.next env client body = .call op k r) {reply : op.Reply}
    (he : (k reply).early = true) : pc.early = true ∧ ∀ i v x, op ≠ .publish i v x := by
  cases pc with
  | markDelivered _ =>
    cases h
    cases he
  | publish _ _ =>
    cases h
    cases he
  | returned _ | rejected _ | raised | killed => cases h
  | _ =>
    cases h
    exact ⟨rfl, by simp⟩

theorem CreatePc.quiet_kill (h : pc.quiet = true) : pc.kill.quiet = true := by
  cases pc <;> simp_all [kill, quiet]

theorem CreatePc.early_kill (h : pc.kill.early = true) : pc.early = true := by
  cases pc <;> simp_all [kill, early]

/-- Only `is_alive` is still asked. -/
theorem CreatePc.quiet_next (h : pc.next env client body = .call op k r) (hq : pc.quiet = true) :
    ∃ row j, pc = isAlive row j := by
  cases pc with
  | isAlive row j => exact ⟨row, j, rfl⟩
  | returned _ | rejected _ | raised | killed => cases h
  | allow | hasSeen | create | markSeen _ | lookup _ | publish _ _ | markDelivered _ => cases hq

theorem CreatePc.lookup_of_isAlive (h : pc.next env client body = .call op k r)
    {reply : op.Reply} {row : Notification} {owner : String}
    (hk : k reply = isAlive row owner) : pc = lookup row := by
  cases pc with
  | lookup row' =>
    cases h
    cases reply with
    | none => cases hk
    | some v =>
      obtain ⟨rfl, -⟩ := CreatePc.isAlive.inj hk
      rfl
  | markSeen row' =>
    cases h
    cases row' <;> cases hk
  | allow | hasSeen | isAlive _ _ =>
    cases h
    simp only at hk
    split at hk <;> cases hk
  | create | publish _ _ | markDelivered _ =>
    cases h
    cases hk
  | returned _ | rejected _ | raised | killed => cases h

end

theorem Event.publication_none {e : Event} {op : Op} (he : e.what.effect = some op)
    (hop : ∀ i v x, op ≠ .publish i v x) : e.publication? = none := by
  rw [publication?, he]
  cases op with
  | publish i v x => exact absurd rfl (hop i v x)
  | _ => rfl

/-- What the log says of requests on the way. -/
structure Traced (w : World) : Prop where
  past : ∀ e ∈ w.log, e.time ≤ w.shared.now
  started : ∀ e ∈ w.log, ∀ n, e.task = .request n → w.requests n ≠ none
  early : ∀ n r, w.requests n = some r → r.pc.early = true →
    ∀ e ∈ w.log, e.task = .request n → e.publication? = none

theorem Traced.past_step (h : Traced w) (hstep : Stepped env w a w') :
    ∀ e ∈ w'.log, e.time ≤ w'.shared.now := by
  intro e he
  have hnow := hstep.now_le
  have hold : ∀ e ∈ w.log, e.time ≤ w'.shared.now := fun e he => (h.past e he).trans hnow
  obtain ⟨sh, log, hsh, hlog, ht⟩ := hstep.touched
  rw [hlog] at he
  cases ht with
  | tick | expireDedup | crash | started _ => exact hold e he
  | returned _ _ | raised _ _ | applied _ _ _ =>
    rcases List.mem_cons.mp he with rfl | he
    · exact hnow
    · exact hold e he

theorem Traced.step (h : Traced w) (hstep : Stepped env w a w') : Traced w' := by
  refine ⟨h.past_step hstep, fun e he n htask => ?_, fun n r' hr' hearly e he htask => ?_⟩
  · by_cases ha : ∃ o, a = .task (.request n) o
    · obtain ⟨o, rfl⟩ := ha
      cases hstep with
      | request hr _ => simp [World.setRequest]
    · have hold := hstep.mem_of_task (not_exists.mp ha) he htask
      obtain ⟨r, hr⟩ := Option.ne_none_iff_exists'.mp (h.started e hold n htask)
      obtain ⟨r', hr', -⟩ := hstep.request_next hr
      simp [hr']
  · cases hstep.request_cases hr' with
    | same hr hne => exact h.early n r' hr hearly e (hstep.mem_of_task hne he htask) htask
    | new hnone hlog _ => exact absurd hnone (h.started e (hlog ▸ he) n htask)
    | @killed r hr hlog =>
      exact h.early n r hr (CreatePc.early_kill hearly) e (hlog ▸ he) htask
    | @moved r _ _ _ _ hr _ hadv _ hlog =>
      rw [hlog] at he
      cases hadv with
      | returned hn _ =>
        obtain ⟨hpc, hop⟩ := CreatePc.early_next hn hearly
        rcases List.mem_cons.mp he with rfl | he
        · exact Event.publication_none rfl hop
        · exact h.early n r hr hpc e he htask
      | raised hn _ | applied hn _ _ =>
        obtain rfl := CreatePc.raised_eq hn
        cases hearly

theorem Traced.of_reachable (h : Reachable env w) : Traced w := by
  refine h.invariant ?_ fun _ _ ih hstep => ih.step (World.stepped hstep)
  constructor <;> simp [platform, World.empty]

/-! ## The window closes -/

/-- What holds from the crash on: no session of the user is open, who it may be
found at is not alive past `limit`, and its later requests keep quiet. -/
structure Closing (limit : Nat) (u : UUID) (w : World) : Prop where
  traced : Traced w
  away : ∀ n s, w.sessions n = some s → s.pc.connected? ≠ some u.str
  liveness : ∀ j, w.findsAfter limit u j → w.shared.redis.Bounded (livenessKey j) limit
  quiet : ∀ n r, w.requests n = some r → r.body.userId = u → w.lookedUpAfter limit u n →
    r.pc.quiet = true ∧ ∀ e ∈ w.log, e.task = .request n → e.publication? = none

theorem GatewayPc.not_connected_of_leaving {pc : GatewayPc} {v : String}
    (h : pc.leaving = true) : pc.connected? ≠ some v := by
  cases pc <;> simp_all [leaving, connected?]

theorem Closing.away_step (h : Closing limit u w) (hstep : Stepped env w a w')
    (hg : staysAway env u.str w a = true) {n : Nat} {s' : Session}
    (hs' : w'.sessions n = some s') : s'.pc.connected? ≠ some u.str := by
  intro hu
  cases hstep.session_cases hs' with
  | same hs _ _ => exact h.away n s' hs hu
  | new _ _ _ _ => cases hu
  | killed _ _ _ => cases hu
  | @moved s o _ _ _ hs ha hadv _ _ =>
    cases hadv with
    | returned hn _ =>
      rcases GatewayPc.connected_resume hn hu with hc | hadd
      · exact h.away n s hs hc
      · subst ha
        have haw : w.awaits env (.session n)
          = (s.pc.next env n s.instanceId s.connectionId).op? := World.awaits_session hs
        rw [hadd] at haw
        simp [staysAway, haw, GatewayPc.next, Next.op?, Op.adds] at hg
    | raised hn _ => exact GatewayPc.not_connected_of_leaving (GatewayPc.leaving_raised hn) hu
    | applied hn _ _ => exact GatewayPc.not_connected_of_leaving (GatewayPc.leaving_raised hn) hu

/-- Nobody writes the entry any more. -/
theorem Closing.lookup_back (h : Closing limit u w) (hstep : Stepped env w a w') {j : String}
    (hj : w'.shared.redis.lookup (max w'.shared.now (limit + 1)) u.str = some j) :
    w.shared.redis.lookup (max w.shared.now (limit + 1)) u.str = some j := by
  have hle : max w.shared.now (limit + 1) ≤ max w'.shared.now (limit + 1) :=
    max_le_max hstep.now_le le_rfl
  have hback : w'.shared.redis (registryKey u.str) = w.shared.redis (registryKey u.str) →
      w.shared.redis.lookup (max w.shared.now (limit + 1)) u.str = some j := by
    intro hk
    rw [Redis.lookup, Store.get_congr hk, Option.map_eq_some_iff] at hj
    obtain ⟨v, hv, hvj⟩ := hj
    rw [Redis.lookup, Store.get_mono hle hv, Option.map_some, hvj]
  cases hstep.key_cases (registryKey u.str) with
  | kept hk => exact hback hk
  | evicted _ hk => exact absurd hk (ne_of_keyInitial (by simp))
  | sent _ _ haw hk hx hsh =>
    cases World.registryCaller haw hk with
    | register hs hpc | refresh hs hpc =>
      exact absurd (by rw [hpc]; rfl) (h.away _ _ hs)
    | unregister _ _ | shutdown _ _ =>
      obtain ⟨rfl, -⟩ := by simpa [RedisCmd.exec, InstanceRegistry.unregister] using hx
      rw [hsh, Redis.lookup, Store.get_of_none Store.erase_self] at hj
      cases hj
    | lookup _ _ _ =>
      obtain ⟨rfl, -⟩ := by simpa [RedisCmd.exec, InstanceRegistry.lookup] using hx
      exact hback (by rw [hsh])

/-- The lookup of a request, when it is the step. -/
theorem World.lookup_pc {n : Nat} {r : PostRequest} (hr : w.requests n = some r) {op : Op}
    {k : op.Reply → CreatePc} {pc : CreatePc}
    (hn : r.pc.next env r.client r.body = .call op k pc) {e : Event}
    (heff : e.what.effect = some op) (he : e.looksUp u = true) : ∃ row, r.pc = .lookup row := by
  rw [Event.looksUp, heff] at he
  have haw : w.awaits env (.request n) = some op := by rw [World.awaits_request hr, hn]; rfl
  cases op with
  | redis cmd =>
    cases cmd with
    | get key =>
      have hkey : key = registryKey u.str := by simpa using he
      cases World.registryCaller haw hkey with
      | @lookup _ r' row hr' hpc _ =>
        obtain rfl := Option.some.inj (hr.symm.trans hr')
        exact ⟨row, hpc⟩
    | _ => simp at he
  | _ => simp at he

/-- What can be found after a step could be found before it. -/
theorem Closing.finds_back (h : Closing limit u w) (hstep : Stepped env w a w') {j : String}
    (hj : w'.findsAfter limit u j) : w.findsAfter limit u j := by
  rcases hj with hj | ⟨n, r', row, hr', hu, hpc, e, he, htask, hlook, hlate⟩
  · exact .inl (h.lookup_back hstep hj)
  · cases hstep.request_cases hr' with
    | same hr hne =>
      exact .inr ⟨n, r', row, hr, hu, hpc, e, hstep.mem_of_task hne he htask, htask, hlook, hlate⟩
    | new _ _ _ => cases hpc
    | @killed r _ _ =>
      have hkill : r.pc.kill ≠ .isAlive row j := by cases r.pc <;> simp [CreatePc.kill]
      exact absurd hpc hkill
    | @moved r o sh pc ev hr ha hadv _ hlog =>
      cases hadv with
      | @returned op k x c _ reply hn hx =>
        rw [hlog] at he
        obtain hfrom := CreatePc.lookup_of_isAlive hn hpc
        rcases List.mem_cons.mp he with rfl | he
        · -- it is this lookup, later than the limit, that has found `j`
          left
          rw [hfrom] at hn
          cases hn
          have hexec : w.shared.exec (.redis (InstanceRegistry.lookup r.body.userId.str)) c
              = some (sh, reply) := hx
          obtain ⟨redis, hcmd, -⟩ := Shared.exec_redis hexec
          have hreply : reply = w.shared.redis.get w.shared.now (registryKey u.str) := by
            obtain ⟨-, rfl⟩ := by simpa [RedisCmd.exec, InstanceRegistry.lookup] using hcmd
            rw [hu]
          have hmax : max w.shared.now (limit + 1) = w.shared.now := max_eq_left hlate
          rw [hmax, Redis.lookup, ← hreply]
          cases reply with
          | none => cases hpc
          | some v =>
            have hpc : CreatePc.isAlive row v.decode = .isAlive row j := hpc
            rw [Option.map_some, (CreatePc.isAlive.inj hpc).2]
        · have hquiet := (h.quiet n r hr hu ⟨e, he, htask, hlook, hlate⟩).1
          rw [hfrom] at hquiet
          cases hquiet
      | raised hn _ | applied hn _ _ =>
        obtain rfl := CreatePc.raised_eq hn
        cases hpc

theorem Closing.liveness_step (h : Closing limit u w) (hstep : Stepped env w a w')
    (hg : ∀ j, w.findsAfter limit u j → marksAlive env j w a = false) {j : String}
    (hj : w'.findsAfter limit u j) : w'.shared.redis.Bounded (livenessKey j) limit := by
  have hfinds := h.finds_back hstep hj
  have hb := h.liveness j hfinds
  cases hstep.key_cases (livenessKey j) with
  | kept hk => exact hb.congr hk
  | evicted _ hk => exact absurd hk (ne_of_keyInitial (by simp))
  | sent ha _ haw hk hx hsh =>
    cases World.livenessCaller haw hk with
    | start _ _ | beat _ _ =>
      have hsilent := hg j hfinds
      rw [ha] at hsilent
      simp [marksAlive, haw, Op.marksAlive, InstanceRegistry.markAlive] at hsilent
    | isAlive _ _ =>
      obtain ⟨rfl, -⟩ := by simpa [RedisCmd.exec, InstanceRegistry.isAlive] using hx
      exact hb.congr (by rw [hsh])

/-- The answer to `is_alive` after the limit. -/
theorem Closing.not_alive (h : Closing limit u w) {n : Nat} {r : PostRequest} {row : Notification}
    {owner : String} {c : Choice} {sh : Shared} {alive : Bool} (hr : w.requests n = some r)
    (hu : r.body.userId = u) (hpc : r.pc = .isAlive row owner) (hlate : w.lookedUpAfter limit u n)
    (hx : w.shared.exec (.redis (InstanceRegistry.isAlive owner)) c = some (sh, alive)) :
    alive = false := by
  have hb := h.liveness owner (.inr ⟨n, r, row, hr, hu, hpc, hlate⟩)
  obtain ⟨e, he, -, -, hlt⟩ := hlate
  have hnow : limit ≤ w.shared.now := hlt.le.trans (h.traced.past e he)
  obtain ⟨redis, hcmd, -⟩ := Shared.exec_redis hx
  obtain ⟨-, rfl⟩ := by simpa [RedisCmd.exec, InstanceRegistry.isAlive] using hcmd
  simp [hb.get_eq_none hnow]

/-- A request that asks Redis publishes nothing in that step. -/
theorem Event.publication_of_advances {Pc : Type} {id : TaskId} {next : Step Pc}
    {o : Outcome Choice} {sh : Shared} {pc : Pc} {e : Happened Op Op.Reply} {cmd : RedisCmd}
    (h : Advances semantics w.shared next o sh pc e) (hop : next.op? = some (.redis cmd)) :
    Event.publication? ⟨w.shared.now, id, e⟩ = none := by
  cases h with
  | raised _ _ => rfl
  | returned hn _ | applied hn _ _ =>
    rw [hn] at hop
    obtain rfl := Option.some.inj hop
    rfl

theorem Closing.quiet_step (h : Closing limit u w) (hstep : Stepped env w a w') {n : Nat}
    {r' : PostRequest} (hr' : w'.requests n = some r') (hu : r'.body.userId = u)
    (hlate : w'.lookedUpAfter limit u n) :
    r'.pc.quiet = true ∧ ∀ e ∈ w'.log, e.task = .request n → e.publication? = none := by
  obtain ⟨e, he, htask, hlook, hlt⟩ := hlate
  cases hstep.request_cases hr' with
  | same hr hne =>
    obtain ⟨hquiet, hpub⟩ :=
      h.quiet n r' hr hu ⟨e, hstep.mem_of_task hne he htask, htask, hlook, hlt⟩
    exact ⟨hquiet, fun f hf hft => hpub f (hstep.mem_of_task hne hf hft) hft⟩
  | new hnone hlog _ => exact absurd hnone (h.traced.started e (hlog ▸ he) n htask)
  | @killed r hr hlog =>
    obtain ⟨hquiet, hpub⟩ := h.quiet n r hr hu ⟨e, hlog ▸ he, htask, hlook, hlt⟩
    exact ⟨CreatePc.quiet_kill hquiet, fun f hf hft => hpub f (hlog ▸ hf) hft⟩
  | @moved r o sh pc ev hr ha hadv _ hlog =>
    rw [hlog] at he ⊢
    by_cases hold : w.lookedUpAfter limit u n
    · -- the lookup is behind it: it asks whether the owner is alive
      obtain ⟨hquiet, hpub⟩ := h.quiet n r hr hu hold
      have hfrom : ∃ row owner, r.pc = .isAlive row owner := by
        cases hadv with
        | returned hn _ | raised hn _ | applied hn _ _ => exact CreatePc.quiet_next hn hquiet
      obtain ⟨row, owner, hfrom⟩ := hfrom
      refine ⟨?_, fun f hf hft => ?_⟩
      · cases hadv with
        | @returned op k x c _ reply hn hx =>
          rw [hfrom] at hn
          cases hn
          have halive : reply = false := h.not_alive (c := c) hr hu hfrom hold hx
          subst halive
          rfl
        | raised hn _ | applied hn _ _ =>
          obtain rfl := CreatePc.raised_eq hn
          rfl
      · rcases List.mem_cons.mp hf with rfl | hf
        · exact Event.publication_of_advances hadv (by rw [hfrom]; rfl)
        · exact hpub f hf hft
    · -- this step is the lookup
      have hnew : e = ⟨w.shared.now, .request n, ev⟩ := by
        rcases List.mem_cons.mp he with heq | he
        · exact heq
        · exact absurd ⟨e, he, htask, hlook, hlt⟩ hold
      subst hnew
      have hfrom : ∃ row, r.pc = .lookup row := by
        cases hadv with
        | returned hn _ | applied hn _ _ => exact World.lookup_pc hr hn rfl hlook
        | raised _ _ => cases hlook
      obtain ⟨row, hfrom⟩ := hfrom
      refine ⟨?_, fun f hf hft => ?_⟩
      · cases hadv with
        | @returned op k x c _ reply hn hx =>
          rw [hfrom] at hn
          cases hn
          cases reply <;> rfl
        | raised hn _ | applied hn _ _ =>
          obtain rfl := CreatePc.raised_eq hn
          rfl
      · rcases List.mem_cons.mp hf with rfl | hf
        · exact Event.publication_of_advances hadv (by rw [hfrom]; rfl)
        · exact h.traced.early n r hr (by rw [hfrom]; rfl) f hf hft

theorem Closing.step (h : Closing limit u w) (hstep : Stepped env w a w')
    (haway : staysAway env u.str w a = true)
    (hg : ∀ j, w.findsAfter limit u j → marksAlive env j w a = false) : Closing limit u w' where
  traced := h.traced.step hstep
  away _ _ := h.away_step hstep haway
  liveness _ := h.liveness_step hstep hg
  quiet _ _ := h.quiet_step hstep

/-- At the crash itself. -/
theorem Closing.of_crash {i : String} (h : Reachable env w)
    (honly : ∀ n s, w.sessions n = some s → s.pc.connected? = some u.str → s.instanceId = i)
    (hcrash : w.step env (.crash i) = some w') :
    Closing (w'.shared.now + seconds env.instanceLivenessTtlSeconds) u w' := by
  have h' : Reachable env w' := Reach.step (a := .crash i) h trivial hcrash
  have htraced := Traced.of_reachable h'
  refine ⟨htraced, fun n s' hs' hu => ?_, fun j _ => (Deadlines.of_reachable h').liveness j, ?_⟩
  · cases (World.stepped hcrash).session_cases hs' with
    | same hs _ hne => exact hne (by rw [honly n s' hs hu])
    | killed _ _ _ => cases hu
    | new _ _ ha _ | moved _ ha _ _ _ => cases ha
  · rintro n r - - ⟨e, he, -, -, hlate⟩
    have := htraced.past e he
    omega

/-- An instance crashes with the only session of a user, the user stays away, and
nobody its entry leads to says that it is alive: a liveness TTL later nothing is
published for it. -/
theorem degraded_window_closes {i : String} {w₀ w₁ : World} (h : Reachable env w₀)
    (honly : ∀ n s, w₀.sessions n = some s → s.pc.connected? = some u.str → s.instanceId = i)
    (hcrash : w₀.step env (.crash i) = some w₁)
    (hrun : Reach ((platform env).startAt w₁) (fun w a => staysAway env u.str w a = true ∧
      ∀ j, w.findsAfter (w₁.shared.now + seconds env.instanceLivenessTtlSeconds) u j →
        marksAlive env j w a = false) w) :
    w.closedAfter (w₁.shared.now + seconds env.instanceLivenessTtlSeconds) u := by
  have hclosing : Closing (w₁.shared.now + seconds env.instanceLivenessTtlSeconds) u w := by
    refine hrun.invariant (.of_crash h honly hcrash) fun _ hg ih hstep => ?_
    exact ih.step (World.stepped hstep) hg.1 hg.2
  intro n r hr hu hlate
  obtain ⟨hquiet, hpub⟩ := hclosing.quiet n r hr hu hlate
  refine ⟨hpub, fun response hpc => ?_⟩
  rw [hpc] at hquiet
  simpa [CreatePc.quiet] using hquiet

/-! ## With and without a restart -/

/-- Time and requests. -/
def Action.ofPosts : Action → Bool
  | tick _ | post _ _ _ _ | task (.request _) _ => true
  | _ => false

/-- A request connects nobody and says of no instance that it is alive. -/
theorem Action.ofPosts_harmless (h : a.ofPosts = true) (v j : String) :
    staysAway env v w a = true ∧ marksAlive env j w a = false := by
  have hop : ∀ n op, w.awaits env (.request n) = some op →
      op.adds v = false ∧ op.marksAlive j = false := by
    intro n op haw
    cases World.awaiting haw with
    | @request _ r _ _ hop =>
      obtain ⟨i, client, body, pc⟩ := r
      cases pc with
      | markSeen row =>
        cases hop
        -- the one key that a request sets is the guard's
        have hne : dedupKey body.notificationId ≠ livenessKey j := ne_of_keyInitial (by simp)
        exact ⟨rfl, by simpa [Op.marksAlive, IdempotencyGuard.markSeen] using hne⟩
      | returned _ | rejected _ | raised | killed => cases hop
      | _ =>
        cases hop
        exact ⟨rfl, rfl⟩
  cases a with
  | task id o =>
    cases id with
    | request n =>
      cases haw : w.awaits env (.request n) with
      | none => simp [staysAway, marksAlive, haw]
      | some op =>
        obtain ⟨hadds, halive⟩ := hop n op haw
        simp [staysAway, marksAlive, haw, hadds, halive]
    | _ => cases h
  | tick _ | post _ _ _ _ => exact ⟨rfl, rfl⟩
  | _ => cases h

/-- Sixteen seconds later a notification for the user of the crashed instance is
posted to `i`, as far as `is_alive`. -/
def latePost (i : String) : List Action :=
  Action.submit 0 i someBody ++ .insert 0 newYear :: List.replicate 3 (.ok (.request 0))

def twoInstances : List Action :=
  Action.startup "a" ++ Action.startup "b" ++ Action.grant 0 "a" someUser "t0" ++
    Action.openSession 0 "a" "c0" "t0"

theorem degraded_window_closes_posted : ∃ w₀ w₁ w,
    (platform plainEnv).run .empty twoInstances = some w₀ ∧
    w₀.step plainEnv (.crash "a") = some w₁ ∧
    (platform plainEnv).run w₁ (.tick (seconds 16) :: latePost "b") = some w ∧
    w.shared.redis.lookup w.shared.now someUser = some "a" ∧
    w.closedAfter (w₁.shared.now + seconds plainEnv.instanceLivenessTtlSeconds)
      someBody.userId := by
  obtain ⟨w₀, w₁, w, hrun, hcrash, hlater, hlookup, hfirst, hrest⟩ : ∃ w₀ w₁ w,
      (platform plainEnv).run .empty twoInstances = some w₀ ∧
      w₀.step plainEnv (.crash "a") = some w₁ ∧
      (platform plainEnv).run w₁ (.tick (seconds 16) :: latePost "b") = some w ∧
      w.shared.redis.lookup w.shared.now someUser = some "a" ∧
      w₀.sessions 0 = some ⟨"a", "c0", .receive someUser⟩ ∧
      ∀ n, w₀.sessions (n + 1) = none :=
    ⟨_, _, _, rfl, rfl, rfl, rfl, rfl, fun _ => rfl⟩
  have hposts : ∀ a ∈ Action.tick (seconds 16) :: latePost "b", a.ofPosts = true := by decide
  have hmeets : ((platform plainEnv).startAt w₁).Meets
      (fun w a => staysAway plainEnv someBody.userId.str w a = true ∧ ∀ j,
        w.findsAfter (w₁.shared.now + seconds plainEnv.instanceLivenessTtlSeconds)
          someBody.userId j → marksAlive plainEnv j w a = false)
      w₁ (.tick (seconds 16) :: latePost "b") :=
    .of_actions fun v a ha => ⟨(Action.ofPosts_harmless (hposts a ha) _ "").1, fun j _ =>
      (Action.ofPosts_harmless (hposts a ha) "" j).2⟩
  refine ⟨w₀, w₁, w, hrun, hcrash, hlater, hlookup, degraded_window_closes (.of_run hrun)
    (fun n s hs _ => ?_) hcrash (.of_run .init hmeets hlater)⟩
  cases n with
  | zero =>
    obtain rfl := Option.some.inj (hfirst.symm.trans hs)
    rfl
  | succ n => simp [hrest] at hs

/-- Back under its id before the entry has expired, the instance gets the message
and the answer is `delivered_live = true`. -/
def restartRun : List Action :=
  .tick (seconds 16) :: Action.startup "a" ++ latePost "a" ++
    List.replicate 2 (.ok (.request 0))

theorem degraded_window_reopens : ∃ w₀ w₁ w, Reachable plainEnv w₀ ∧
    (∀ n s, w₀.sessions n = some s → s.pc.connected? = some someBody.userId.str →
      s.instanceId = "a") ∧ w₀.step plainEnv (.crash "a") = some w₁ ∧
    Reach ((platform plainEnv).startAt w₁)
      (fun w a => staysAway plainEnv someBody.userId.str w a = true) w ∧
    plainEnv.instanceLivenessTtlSeconds < plainEnv.presenceTtlSeconds ∧
    ¬ w.closedAfter (w₁.shared.now + seconds plainEnv.instanceLivenessTtlSeconds)
      someBody.userId := by
  obtain ⟨w₀, w₁, w, hrun, hcrash, hlater, hmeets, hfirst, hrest, hr, hlog⟩ :
      ∃ w₀ w₁ w, (platform plainEnv).run .empty soloRun = some w₀ ∧
      w₀.step plainEnv (.crash "a") = some w₁ ∧
      (platform plainEnv).run w₁ restartRun = some w ∧
      ((platform plainEnv).startAt w₁).Meets
        (fun w a => staysAway plainEnv someBody.userId.str w a = true) w₁ restartRun ∧
      w₀.sessions 0 = some ⟨"a", "c0", .receive someUser⟩ ∧
      (∀ n, w₀.sessions (n + 1) = none) ∧
      w.requests 0 = some ⟨"a", none, someBody,
        .returned ⟨someBody.notificationId, true, true⟩⟩ ∧
      (w.log.any fun e => e.task = .request 0 && e.looksUp someBody.userId &&
        decide (w₁.shared.now + seconds plainEnv.instanceLivenessTtlSeconds < e.time)) = true := by
    refine ⟨_, _, _, rfl, rfl, rfl, ?_, rfl, fun _ => rfl, rfl, rfl⟩
    decide
  refine ⟨w₀, w₁, w, .of_run hrun, fun n s hs _ => ?_, hcrash, .of_run .init hmeets hlater,
    by decide, fun hclosed => ?_⟩
  · cases n with
    | zero =>
      obtain rfl := Option.some.inj (hfirst.symm.trans hs)
      rfl
    | succ n => simp [hrest] at hs
  · obtain ⟨e, he, hlook⟩ := List.any_eq_true.mp hlog
    simp only [Bool.and_eq_true, decide_eq_true_eq] at hlook
    have hlate : w.lookedUpAfter _ someBody.userId 0 := ⟨e, he, hlook.1.1, hlook.1.2, hlook.2⟩
    exact absurd ((hclosed 0 _ hr rfl hlate).2 _ rfl) (by simp)

end RealtimeNotify.App
