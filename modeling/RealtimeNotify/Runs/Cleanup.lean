import RealtimeNotify.Runs.RoutedSocket

/-!
# What a handler leaves behind

`websocket_endpoint` enters the socket in the map, registers the user and marks it
online before its `try` block. An exception in between leaves the handler with
no `finally`; from every later point the entries are taken back. What an entry
says about the point its session is at is an invariant, one for the map and one
for each key.
-/

namespace RealtimeNotify.App

open RealtimeNotify.Lib RealtimeNotify.Python

variable {env : Env} {w w' : World} {a : Action} {i u v : String} {n : Nat} {s s' : Session}

namespace GatewayPc

/-- Past `add` and before the `try` block. -/
def beforeTry : GatewayPc → Bool
  | register _ | markOnline _ | onlineSeen _ => true
  | _ => false

/-- The map may have the socket. -/
def mayBeMapped : GatewayPc → Bool
  | redeem _ | reject | accept _ | add _ | unregister _ | markOffline _ | ended => false
  | _ => true

/-- The registry may have an entry. -/
def mayBeRegistered : GatewayPc → Bool
  | redeem _ | reject | accept _ | add _ | register _ | markOffline _ | ended => false
  | _ => true

/-- The presence key may be set. -/
def mayBePresent : GatewayPc → Bool
  | redeem _ | reject | accept _ | add _ | register _ | markOnline _ | ended => false
  | _ => true

variable {c : String} {pc r : GatewayPc} {op : Op} {k : op.Reply → GatewayPc} {reply : op.Reply}

theorem routed_may {fields : Dict PyStr Json} : (routed env u fields).mayBeMapped = true ∧
    (routed env u fields).mayBeRegistered = true ∧
    (routed env u fields).mayBePresent = true := by
  unfold routed
  split
  · exact ⟨rfl, rfl, rfl⟩
  · exact ⟨rfl, rfl, rfl⟩
  · split <;> exact ⟨rfl, rfl, rfl⟩
  · exact ⟨rfl, rfl, rfl⟩

/-- From which points a reply leads to one where an entry can no longer be. -/
theorem may_next (h : pc.next env n i c = .call op k r) :
    (pc.mayBeMapped = true → (k reply).mayBeMapped = true ∨ ∃ u, pc = remove u) ∧
      (pc.mayBeRegistered = true → (k reply).mayBeRegistered = true ∨ ∃ u, pc = unregister u) ∧
      (pc.mayBePresent = true → (k reply).mayBePresent = true ∨ ∃ u, pc = markOffline u) := by
  cases pc with
  | onlineSeen u =>
    cases h
    cases hu : UUID.ofString u <;> simp [mayBeMapped, mayBeRegistered, mayBePresent]
  | receive u =>
    cases h
    cases reply <;> simp [mayBeMapped, mayBeRegistered, mayBePresent]
  | allow u fields =>
    cases h
    obtain ⟨hm, hr, hp⟩ : (routed env u fields).mayBeMapped = true ∧
        (routed env u fields).mayBeRegistered = true ∧
        (routed env u fields).mayBePresent = true := routed_may
    cases reply
    · exact ⟨fun _ => .inl rfl, fun _ => .inl rfl, fun _ => .inl rfl⟩
    · exact ⟨fun _ => .inl hm, fun _ => .inl hr, fun _ => .inl hp⟩
  | ended => cases h
  | _ =>
    cases h
    simp [mayBeMapped, mayBeRegistered, mayBePresent]

/-- An exception that is not raised before the `try` block leads to `finally`, or
out of it. -/
theorem may_raised (h : pc.next env n i c = .call op k r) (htry : pc.beforeTry = false)
    (hop : op.fallible = true) :
    (pc.mayBeMapped = true → r.mayBeMapped = true) ∧
      (pc.mayBeRegistered = true → r.mayBeRegistered = true ∨ ∃ u, pc = unregister u) ∧
      (pc.mayBePresent = true →
        r.mayBePresent = true ∨ ∃ u, pc = unregister u ∨ pc = markOffline u) := by
  cases pc <;> cases h <;>
    simp_all [mayBeMapped, mayBeRegistered, mayBePresent, beforeTry, Op.fallible]

/-- A handler has its user until it ends. -/
theorem user_next (h : pc.next env n i c = .call op k r) (hu : pc.user? = some u) :
    (k reply).user? = some u ∨ k reply = ended := by
  cases pc with
  | redeem _ | reject | ended => cases hu
  | onlineSeen v =>
    cases h
    cases hv : UUID.ofString v <;> simp_all [user?]
  | receive v =>
    cases h
    cases reply <;> simp_all [user?]
  | allow v fields =>
    cases h
    obtain rfl : v = u := Option.some.inj hu
    cases reply
    · exact .inl rfl
    · exact .inl user_routed
  | _ =>
    cases h
    simp_all [user?]

theorem user_next_raised (h : pc.next env n i c = .call op k r) (hu : pc.user? = some u) :
    r.user? = some u ∨ r = ended := by
  cases pc <;> cases h <;> simp_all [user?]

end GatewayPc

/-! ## One session -/

/-- Session `n` is the only one of `u`. -/
def SoleSession (n : Nat) (u : String) (w : World) : Prop :=
  ∀ m t, w.sessions m = some t → t.pc.user? = some u → m = n

theorem SoleSession.of_opensOnly
    (h : Reach (platform env) (fun _ a => opensOnly n a = true) w) : SoleSession n u w :=
  fun m t ht _ => opensOnly_sessions h m t ht

/-- No call of session `n` raises between `add` and the `try` block, and its
instance does not die. -/
def raisesInTry (n : Nat) (w : World) : Action → Bool
  | .crash i => (w.sessions n).all fun s => s.instanceId ≠ i
  | .task (.session m) .fail | .task (.session m) (.failApplied _) =>
      m ≠ n || (w.sessions n).all fun s => !s.pc.beforeTry
  | _ => true

/-- Session `n` is one of `u`, at a point of the kind `may`. -/
def SessionMay (may : GatewayPc → Bool) (n : Nat) (u : String) (w : World) : Prop :=
  ∃ s, w.sessions n = some s ∧ s.pc.user? = some u ∧ may s.pc = true

/-- It goes on to be at such a point, unless a call of it leads away from there. -/
theorem SessionMay.step {may : GatewayPc → Bool} (h : SessionMay may n u w)
    (hstep : Stepped env w a w') (hg : raisesInTry n w a = true) (hend : may .ended = false)
    (hnext : ∀ {s : Session} {c : Choice} {op : Op} {k : op.Reply → GatewayPc} {r : GatewayPc}
      {reply : op.Reply}, w.sessions n = some s → s.pc.user? = some u →
      a = .task (.session n) (.ok c) →
      s.pc.next env n s.instanceId s.connectionId = .call op k r →
      w.shared.exec op c = some (w'.shared, reply) → may s.pc = true → may (k reply) = true)
    (hraised : ∀ {s : Session} {op : Op} {k : op.Reply → GatewayPc} {r : GatewayPc}
      {applied : Bool}, s.pc.user? = some u → s.pc.beforeTry = false →
      s.pc.next env n s.instanceId s.connectionId = .call op k r → op.fallible = true →
      ⟨w.shared.now, .session n, .raised op applied⟩ ∈ w'.log →
      may s.pc = true → may r = true) :
    SessionMay may n u w' := by
  obtain ⟨s, hs, hu, hmay⟩ := h
  obtain ⟨s', hs', hmove⟩ := hstep.session_move hs
  refine ⟨s', hs', ?_⟩
  cases hmove with
  | same _ _ => exact ⟨hu, hmay⟩
  | killed hcrash _ => simp [hcrash, raisesInTry, hs] at hg
  | moved ha hadv hsh hlog =>
    have huser : ∀ {pc : GatewayPc}, pc.user? = some u ∨ pc = .ended → may pc = true →
        pc.user? = some u ∧ may pc = true := by
      rintro pc (hpc | rfl) hm
      · exact ⟨hpc, hm⟩
      · simp [hend] at hm
    cases hadv with
    | returned hn hx =>
      exact huser (GatewayPc.user_next hn hu) (hnext hs hu ha hn (hsh ▸ hx) hmay)
    | raised hn hf | applied hn hf _ =>
      have htry : s.pc.beforeTry = false := by simpa [ha, raisesInTry, hs] using hg
      exact huser (GatewayPc.user_next_raised hn hu)
        (hraised hu htry hn hf (hlog ▸ List.mem_cons_self) hmay)

/-- The session comes to such a point by a step of its own. -/
theorem SessionMay.of_moved {may : GatewayPc → Bool} {o : Outcome Choice} {op : Op}
    {k : op.Reply → GatewayPc} {r : GatewayPc} (hstep : Stepped env w a w')
    (hg : raisesInTry n w a = true) (hs : w.sessions n = some s) (ha : a = .task (.session n) o)
    (hn : s.pc.next env n s.instanceId s.connectionId = .call op k r)
    (hnext : ∀ reply, (k reply).user? = some u ∧ may (k reply) = true)
    (hraised : s.pc.beforeTry = false → op.fallible = true →
      r.user? = some u ∧ may r = true) : SessionMay may n u w' := by
  obtain ⟨sh, pc, e, hs', hadv⟩ := hstep.session_own ha hs
  refine ⟨{ s with pc }, hs', ?_⟩
  cases hadv with
  | returned hn' _ =>
    rw [hn] at hn'
    cases hn'
    exact hnext _
  | raised hn' hf | applied hn' hf _ =>
    have htry : s.pc.beforeTry = false := by simpa [ha, raisesInTry, hs] using hg
    rw [hn] at hn'
    cases hn'
    exact hraised htry hf

/-! ## The map -/

/-- Session `n` is one of `u` on `i`, where the map may have its socket. -/
def MappedBy (n : Nat) (i u : String) (w : World) : Prop :=
  SessionMay GatewayPc.mayBeMapped n u w ∧ ∀ s, w.sessions n = some s → s.instanceId = i

/-- The socket of session `n` is in a map for its user, on its instance, before
`remove`. -/
def MapOrigin (n : Nat) (w : World) : Prop :=
  ∀ i u, (w.shared.connections i).get u = some n → MappedBy n i u w

theorem Shared.exec_takesOut {sh sh' : Shared} {op : Op} {c : Choice} {reply : op.Reply}
    (hx : sh.exec op c = some (sh', reply)) (hout : op.takesOut i u = true) :
    (sh'.connections i).get u = none := by
  cases op with
  | remove j v | popSocket j v =>
    obtain ⟨rfl, rfl⟩ : j = i ∧ v = u := by simpa [Op.takesOut] using hout
    obtain ⟨rfl, -⟩ := by simpa [Shared.exec] using hx
    rw [Shared.get_pop]
    simp
  | _ => cases hout

theorem Stepped.takesOut_get (h : Stepped env w a w') {id : TaskId} {c : Choice} {op : Op}
    (ha : a = .task id (.ok c)) (haw : w.awaits env id = some op)
    (hout : op.takesOut i u = true) : (w'.shared.connections i).get u = none := by
  obtain ⟨sh, log, hsh, -, ht⟩ := h.touched
  subst ha
  cases ht with
  | returned haw' hx =>
    obtain rfl := Option.some.inj (haw.symm.trans haw')
    rw [hsh]
    exact Shared.exec_takesOut hx hout
  | started hne => exact absurd rfl (hne _ _)

/-- A socket in a map was there, and not taken out, or its session has entered it. -/
theorem Stepped.mapped_cases (h : Stepped env w a w')
    (hget : (w'.shared.connections i).get u = some n) :
    (w.shared.connections i).get u = some n ∧ (∀ id c op, a = .task id (.ok c) →
      w.awaits env id = some op → op.takesOut i u = false) ∨
    ∃ s o, w.sessions n = some s ∧ s.instanceId = i ∧ s.pc = .add u ∧
      a = .task (.session n) o := by
  cases h.map_cases i u with
  | kept hsame =>
    refine .inl ⟨hsame.symm.trans hget, fun id c op ha haw => ?_⟩
    by_contra hout
    rw [h.takesOut_get ha haw (by simpa using hout)] at hget
    cases hget
  | added ha hs hi hpc hnew =>
    obtain rfl := Option.some.inj (hnew.symm.trans hget)
    exact .inr ⟨_, _, hs, hi, hpc, ha⟩
  | removed _ _ _ hnone | crashed _ hnone =>
    rw [hnone] at hget
    cases hget

theorem MapOrigin.step (h : MapOrigin n w) (hg : raisesInTry n w a = true)
    (hstep : Stepped env w a w') : MapOrigin n w' := by
  intro i u hget
  rcases hstep.mapped_cases hget with ⟨hold, hout⟩ | ⟨s, o, hs, hi, hpc, ha⟩
  · obtain ⟨hmay, hinst⟩ := h i u hold
    refine ⟨hmay.step hstep hg rfl ?_ ?_, fun s' hs' => ?_⟩
    · intro s c op k r reply hs hu ha hn _ hmapped
      refine ((GatewayPc.may_next hn).1 hmapped).resolve_right ?_
      rintro ⟨v, hpc⟩
      -- `remove` takes its own entry out
      have hkept := hout _ _ _ ha (by rw [World.awaits_session hs, hn]; rfl)
      obtain rfl : v = u := by simpa [hpc, GatewayPc.user?] using hu
      rw [hpc] at hn
      cases hn
      simp [Op.takesOut, hinst s hs] at hkept
    · intro s op k r _ _ htry hn hf _ hmapped
      exact (GatewayPc.may_raised hn htry hf).1 hmapped
    · obtain ⟨s, hs, -⟩ := hmay
      obtain ⟨t, ht, hsame, -⟩ := hstep.session_course hs
      obtain rfl := Option.some.inj (hs'.symm.trans ht)
      rw [hsame, hinst s hs]
  · have hn : s.pc.next env n s.instanceId s.connectionId
        = .call (.add s.instanceId u n) (fun _ => .register u) .ended := by rw [hpc]; rfl
    -- `add` does not raise
    have hfallible : (Op.add s.instanceId u n).fallible ≠ true := Bool.false_ne_true
    refine ⟨.of_moved hstep hg hs ha hn (fun _ => ⟨rfl, rfl⟩) fun _ hf => absurd hf hfallible,
      fun s' hs' => ?_⟩
    obtain ⟨t, ht, hinst, -⟩ := hstep.session_course hs
    obtain rfl := Option.some.inj (hs'.symm.trans ht)
    rw [hinst, hi]

/-! ## The keys -/

/-- `unregister` or `mark_offline` of session `n` raised. -/
def Event.failsCleanup (n : Nat) (u : String) (e : Event) : Prop :=
  e.task = .session n ∧ ∃ applied,
    e.what = .raised (.redis (InstanceRegistry.unregister u)) applied ∨
      e.what = .raised (.redis (PresenceStore.clear u)) applied

/-- Neither of the two has raised. -/
def CleanupRuns (n : Nat) (u : String) (w : World) : Prop :=
  ∀ e ∈ w.log, ¬ e.failsCleanup n u

theorem CleanupRuns.before (h : CleanupRuns n u w') (hstep : Stepped env w a w') :
    CleanupRuns n u w :=
  fun e he => h e (hstep.log_subset he)

/-- A session that is at either of the two calls does not go on by an exception. -/
theorem CleanupRuns.not_raised (h : CleanupRuns n u w') {op : Op} {t : Nat} {applied : Bool}
    {k : op.Reply → GatewayPc} {r : GatewayPc} (hu : s.pc.user? = some u)
    (hn : s.pc.next env n s.instanceId s.connectionId = .call op k r)
    (he : ⟨t, .session n, .raised op applied⟩ ∈ w'.log) :
    ¬ ∃ v, s.pc = .unregister v ∨ s.pc = .markOffline v := by
  rintro ⟨v, hpc | hpc⟩
  · obtain rfl : v = u := by simpa [hpc, GatewayPc.user?] using hu
    rw [hpc] at hn
    cases hn
    exact h _ he ⟨rfl, applied, .inl rfl⟩
  · obtain rfl : v = u := by simpa [hpc, GatewayPc.user?] using hu
    rw [hpc] at hn
    cases hn
    exact h _ he ⟨rfl, applied, .inr rfl⟩

/-- A registry entry of `u` says that session `n` has registered and not unregistered. -/
def RegistryOrigin (n : Nat) (u : String) (w : World) : Prop :=
  CleanupRuns n u w → w.shared.redis.get w.shared.now (registryKey u) ≠ none →
    SessionMay GatewayPc.mayBeRegistered n u w

/-- A presence key of `u` says that session `n` has marked it and not cleared it. -/
def PresenceOrigin (n : Nat) (u : String) (w : World) : Prop :=
  CleanupRuns n u w → w.shared.redis.get w.shared.now (presenceKey u) ≠ none →
    SessionMay GatewayPc.mayBePresent n u w

/-- A key that can be read could be read before, or a command on it made it so. -/
theorem Stepped.get_cases (h : Stepped env w a w') {k : String}
    (hget : w'.shared.redis.get w'.shared.now k ≠ none) :
    w.shared.redis.get w.shared.now k ≠ none ∨
    ∃ id o cmd r, ∃ reply : cmd.Reply, a = .task id o ∧ o ≠ .fail ∧
      w.awaits env id = some (.redis cmd) ∧ cmd.key = k ∧
      cmd.exec w.shared.redis w.shared.now = some (r, reply) ∧
      r.get w.shared.now k ≠ none := by
  cases h.key_cases k with
  | kept hk =>
    left
    obtain ⟨v, hv⟩ := Option.ne_none_iff_exists'.mp hget
    rw [Store.get_congr hk] at hv
    simp [Store.get_mono h.now_le hv]
  | evicted ha hk =>
    subst ha
    cases h with
    | expireDedup => simp [hk, Store.get, Shared.evict] at hget
  | sent ha ho haw hk hx hsh =>
    right
    rw [hsh] at hget
    exact ⟨_, _, _, _, _, ha, ho, haw, hk, hx, hget⟩

theorem RegistryOrigin.step (h : RegistryOrigin n u w) (hsole : SoleSession n u w)
    (hg : raisesInTry n w a = true) (hstep : Stepped env w a w') : RegistryOrigin n u w' := by
  intro hruns hget
  by_cases hold : w.shared.redis.get w.shared.now (registryKey u) = none
  · rcases hstep.get_cases hget with hget | ⟨id, o, cmd, r, reply, ha, -, haw, hk, hx, hr⟩
    · exact absurd hold hget
    · cases World.registryCaller haw hk with
      | @register m s hs hpc =>
        obtain rfl := hsole m s hs (by rw [hpc]; rfl)
        have hn : s.pc.next env m s.instanceId s.connectionId
            = .call (.redis (InstanceRegistry.register u s.instanceId env.presenceTtlSeconds))
              (fun _ => .markOnline u) .ended := by rw [hpc]; rfl
        refine .of_moved hstep hg hs ha hn (fun _ => ⟨rfl, rfl⟩) fun htry _ => ?_
        simp [hpc, GatewayPc.beforeTry] at htry
      | refresh _ _ =>
        obtain ⟨v, hv⟩ := Option.ne_none_iff_exists'.mp hr
        rw [RedisCmd.exec_expire hx] at hv
        simp [Store.get_of_extend hv] at hold
      | unregister _ _ | shutdown _ _ =>
        obtain ⟨rfl, -⟩ := by simpa [RedisCmd.exec, InstanceRegistry.unregister] using hx
        simp [Store.get] at hr
      | lookup _ _ _ =>
        obtain ⟨rfl, -⟩ := by simpa [RedisCmd.exec, InstanceRegistry.lookup] using hx
        exact absurd hold hr
  · refine (h (hruns.before hstep) hold).step hstep hg rfl ?_ ?_
    · intro s c op k r reply _ hu _ hn hx hmay
      refine ((GatewayPc.may_next hn).2.1 hmay).resolve_right ?_
      rintro ⟨v, hpc⟩
      obtain rfl : v = u := by simpa [hpc, GatewayPc.user?] using hu
      rw [hpc] at hn
      cases hn
      obtain ⟨redis, hcmd, hsh⟩ := Shared.exec_redis hx
      obtain ⟨rfl, -⟩ := by simpa [RedisCmd.exec, InstanceRegistry.unregister] using hcmd
      simp [hsh, Store.get] at hget
    · intro s op k r applied hu htry hn hf he hmay
      refine ((GatewayPc.may_raised hn htry hf).2.1 hmay).resolve_right ?_
      rintro ⟨v, hpc⟩
      exact hruns.not_raised hu hn he ⟨v, .inl hpc⟩

theorem PresenceOrigin.step (h : PresenceOrigin n u w) (hu : ∀ v, presenceKey u ≠ lastSeenKey v)
    (hsole : SoleSession n u w) (hg : raisesInTry n w a = true) (hstep : Stepped env w a w') :
    PresenceOrigin n u w' := by
  intro hruns hget
  by_cases hold : w.shared.redis.get w.shared.now (presenceKey u) = none
  · rcases hstep.get_cases hget with hget | ⟨id, o, cmd, r, reply, ha, -, haw, hk, hx, hr⟩
    · exact absurd hold hget
    · cases World.presenceCaller haw hk hu with
      | @online m s hs hpc =>
        obtain rfl := hsole m s hs (by rw [hpc]; rfl)
        have hn : s.pc.next env m s.instanceId s.connectionId
            = .call (.redis (PresenceStore.setOnline u env.presenceTtlSeconds))
              (fun _ => .onlineSeen u) .ended := by rw [hpc]; rfl
        refine .of_moved hstep hg hs ha hn (fun _ => ⟨rfl, rfl⟩) fun htry _ => ?_
        simp [hpc, GatewayPc.beforeTry] at htry
      | @update m s online hs hpc =>
        obtain rfl := hsole m s hs (by rw [hpc]; rfl)
        have hn : s.pc.next env m s.instanceId s.connectionId
            = .call (.redis (if online then PresenceStore.setOnline u env.presenceTtlSeconds
                else PresenceStore.setAway u env.presenceTtlSeconds))
              (fun _ => .presenceSeen u) (.remove u) := by rw [hpc]; rfl
        exact .of_moved hstep hg hs ha hn (fun _ => ⟨rfl, rfl⟩) fun _ _ => ⟨rfl, rfl⟩
      | heartbeat _ _ =>
        obtain ⟨v, hv⟩ := Option.ne_none_iff_exists'.mp hr
        rw [RedisCmd.exec_expire hx] at hv
        simp [Store.get_of_extend hv] at hold
      | seen _ _ => exact absurd hk.symm (hu u)
      | leave _ _ | shutdown _ _ =>
        obtain ⟨rfl, -⟩ := by simpa [RedisCmd.exec, PresenceStore.clear] using hx
        simp [Store.get] at hr
  · refine (h (hruns.before hstep) hold).step hstep hg rfl ?_ ?_
    · intro s c op k r reply _ hv _ hn hx hmay
      refine ((GatewayPc.may_next hn).2.2 hmay).resolve_right ?_
      rintro ⟨v, hpc⟩
      obtain rfl : v = u := by simpa [hpc, GatewayPc.user?] using hv
      rw [hpc] at hn
      cases hn
      obtain ⟨redis, hcmd, hsh⟩ := Shared.exec_redis hx
      obtain ⟨rfl, -⟩ := by simpa [RedisCmd.exec, PresenceStore.clear] using hcmd
      simp [hsh, Store.get] at hget
    · intro s op k r applied hv htry hn hf he hmay
      exact ((GatewayPc.may_raised hn htry hf).2.2 hmay).resolve_right (hruns.not_raised hv hn he)

/-! ## After the handler -/

/-- Nothing of session `n` of `u` is left: no map has its socket, and the keys are
gone where `unregister` and `mark_offline` did not raise. -/
structure CleanedUp (n : Nat) (u : String) (w : World) : Prop where
  socket : ∀ i v, (w.shared.connections i).get v ≠ some n
  keys : CleanupRuns n u w → w.shared.redis.get w.shared.now (registryKey u) = none ∧
    w.shared.redis.get w.shared.now (presenceKey u) = none

/-- What the entries of the only session of `u` say. -/
structure Origins (n : Nat) (u : String) (w : World) : Prop where
  map : MapOrigin n w
  registry : RegistryOrigin n u w
  presence : PresenceOrigin n u w

theorem Origins.of_reach (hu : ∀ v, u ≠ "last_seen:" ++ v)
    (h : Reach (platform env) (fun w a => SoleSession n u w ∧ raisesInTry n w a = true) w) :
    Origins n u w := by
  have hkey : ∀ v, presenceKey u ≠ lastSeenKey v := by
    intro v hv
    rw [lastSeenKey_eq, presenceKey_inj] at hv
    exact hu v hv
  refine h.invariant (I := Origins n u) ?_ ?_
  · constructor
    · intro i v hget
      simp [platform, World.empty] at hget
    · intro _ hget
      exact absurd rfl hget
    · intro _ hget
      exact absurd rfl hget
  · intro w w' a _ hg ih hstep
    have hstep := World.stepped hstep
    exact ⟨ih.map.step hg.2 hstep, ih.registry.step hg.1 hg.2 hstep,
      ih.presence.step hkey hg.1 hg.2 hstep⟩

/-- In a run in which session `n` is the only one of `u`, and no call of it raises
between `add` and its `try` block, nothing of it is left once its handler has exited. -/
theorem handler_cleans_up (hu : ∀ v, u ≠ "last_seen:" ++ v)
    (h : Reach (platform env) (fun w a => SoleSession n u w ∧ raisesInTry n w a = true) w)
    (hs : w.sessions n = some s) (hended : s.pc = .ended) : CleanedUp n u w := by
  have horigins := Origins.of_reach hu h
  have hnever : ∀ {may v}, SessionMay may n v w → False := by
    rintro may v ⟨t, ht, huser, -⟩
    obtain rfl := Option.some.inj (hs.symm.trans ht)
    rw [hended] at huser
    cases huser
  refine ⟨fun i v hget => hnever (horigins.map i v hget).1, fun hruns => ⟨?_, ?_⟩⟩
  · by_contra hget
    exact hnever (horigins.registry hruns hget)
  · by_contra hget
    exact hnever (horigins.presence hruns hget)

/-- The client goes away while its session waits for a message. -/
def disconnectRun : List Action := soloRun ++ Action.teardown 0

theorem handler_cleans_up_disconnect : ∃ w s,
    (platform plainEnv).run .empty disconnectRun = some w ∧ w.sessions 0 = some s ∧
    s.pc = .ended ∧ CleanedUp 0 someUser w := by
  obtain ⟨w, s, hrun, hs, hended⟩ : ∃ w s,
      (platform plainEnv).run .empty disconnectRun = some w ∧ w.sessions 0 = some s ∧
      s.pc = .ended := ⟨_, _, rfl, rfl, rfl⟩
  have hmeets : (platform plainEnv).Meets
      (fun w a => opensOnly 0 a = true ∧ raisesInTry 0 w a = true) .empty disconnectRun := by
    decide
  have hreach : Reach (platform plainEnv)
      (fun w a => SoleSession 0 someUser w ∧ raisesInTry 0 w a = true) w := by
    refine (Reach.of_run .init hmeets hrun).mono_of_reach fun v a hv hg => ⟨?_, hg.2⟩
    exact .of_opensOnly (hv.mono fun _ _ hg => hg.1)
  have huser : ∀ v, someUser ≠ "last_seen:" ++ v := by
    intro v hv
    have hkey : presenceKey someUser = lastSeenKey v := by rw [lastSeenKey_eq, ← hv]
    exact presenceKey_ne_lastSeenKey (by decide) hkey
  exact ⟨w, s, hrun, hs, hended, handler_cleans_up huser hreach hs hended⟩

/-- An exception before the `try` block ends the handler with its socket in the map. -/
theorem Stepped.socket_leaks {o : Outcome Choice} (hstep : Stepped env w (.task (.session n) o) w')
    (ho : ∀ c, o ≠ .ok c) (hs : w.sessions n = some s) (hpc : s.pc.beforeTry = true)
    (hget : (w.shared.connections i).get v = some n) :
    w'.sessions n = some { s with pc := .ended } ∧ ¬ CleanedUp n u w' := by
  obtain ⟨cmd, k, hn⟩ : ∃ (cmd : RedisCmd) (k : cmd.Reply → GatewayPc),
      s.pc.next env n s.instanceId s.connectionId = .call (.redis cmd) k .ended := by
    cases hs : s.pc <;> simp [hs, GatewayPc.beforeTry] at hpc <;> exact ⟨_, _, rfl⟩
  cases hstep with
  | session hs' hadv =>
    obtain rfl := Option.some.inj (hs.symm.trans hs')
    rw [hn] at hadv
    cases hadv with
    | returned _ _ => exact absurd rfl (ho _)
    | raised hcall _ =>
      cases hcall
      exact ⟨by simp [World.setSession], fun hclean => hclean.socket i v hget⟩
    | @applied _ _ _ c _ _ hcall _ hx =>
      cases hcall
      obtain ⟨redis, -, rfl⟩ := Shared.exec_redis (c := c) hx
      exact ⟨by simp [World.setSession], fun hclean => hclean.socket i v hget⟩

/-- The session has entered its socket in the map and registers: the call raises. -/
def registerFailsRun : List Action :=
  Action.startup "a" ++ Action.grant 0 "a" someUser "t0" ++
    .connect 0 "a" "c0" "t0" :: List.replicate 3 (.ok (.session 0)) ++ [.fail (.session 0)]

/-- The handler has exited, its user has no other session, and the map has the socket. -/
theorem handler_leaves_socket : ∃ w s, Reach (platform plainEnv)
    (fun w a => SoleSession 0 someUser w ∧ a.calm = true) w ∧ w.sessions 0 = some s ∧
    s.pc = .ended ∧ ¬ CleanedUp 0 someUser w := by
  obtain ⟨w, s, hrun, hs, hended, hget⟩ : ∃ w s,
      (platform plainEnv).run .empty registerFailsRun = some w ∧ w.sessions 0 = some s ∧
      s.pc = .ended ∧ (w.shared.connections "a").get someUser = some 0 :=
    ⟨_, _, rfl, rfl, rfl, rfl⟩
  have hactions : ∀ a ∈ registerFailsRun, opensOnly 0 a = true ∧ a.calm = true := by decide
  have hreach : Reach (platform plainEnv)
      (fun _ a => opensOnly 0 a = true ∧ a.calm = true) w :=
    .of_actions (fun _ a ha => hactions a ha) hrun
  refine ⟨w, s, ?_, hs, hended, fun hclean => hclean.socket "a" someUser hget⟩
  refine hreach.mono_of_reach fun v a hv hg => ⟨?_, hg.2⟩
  exact .of_opensOnly (hv.mono fun _ _ hg => hg.1)

end RealtimeNotify.App
