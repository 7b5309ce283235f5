import RealtimeNotify.App.Frames

/-!
# Registry ownership

The lease of a user is what the log says of the registrations: who executed
`register` last, and until when that entry stands. While the holder of the lease
is connected the registry entry is that of the lease, as long as no one else
deletes it: `unregister` does not look whose entry it takes.
-/

namespace RealtimeNotify.App

open RealtimeNotify.Lib RealtimeNotify.Python

/-! ## Leases -/

/-- The last registration of a user: by which session, naming which instance,
and its deadline since it was set or refreshed. -/
structure Lease where
  session : Nat
  instanceId : String
  deadline : Nat
  deriving DecidableEq

/-- `EXPIRE` counts while the entry stands. -/
def Lease.renew (l : Lease) (now ttl : Nat) : Lease :=
  if now < l.deadline then { l with deadline := now + seconds ttl } else l

section

variable {l : Lease} {now ttl : Nat}

@[simp] theorem Lease.renew_session : (l.renew now ttl).session = l.session := by
  unfold renew
  split <;> rfl

@[simp] theorem Lease.renew_instanceId : (l.renew now ttl).instanceId = l.instanceId := by
  unfold renew
  split <;> rfl

theorem Lease.renew_deadline (h : now < l.deadline) :
    (l.renew now ttl).deadline = now + seconds ttl := by
  rw [renew, if_pos h]

/-- An entry that has timed out is not revived. -/
theorem Lease.live_of_renew (h : now < (l.renew now ttl).deadline) : now < l.deadline := by
  by_cases hl : now < l.deadline
  · exact hl
  · rwa [renew, if_neg hl] at h

end

/-- The lease of `u` after one more event. -/
def leaseStep (u : String) (e : Event) (held : Option Lease) : Option Lease :=
  match e.task, e.what.effect with
  | .session n, some (.redis (.set k i (some ttl))) =>
      if k = registryKey u then some ⟨n, i, e.time + seconds ttl⟩ else held
  | _, some (.redis (.expire k ttl)) =>
      if k = registryKey u then held.map (·.renew e.time ttl) else held
  | _, _ => held

def lease (u : String) (log : List Event) : Option Lease := log.foldr (leaseStep u) none

/-- What `lookup(user_id)` returns. -/
def World.lookup (w : World) (u : String) : Option String :=
  (w.shared.redis.get w.shared.now (registryKey u)).map (·.decode)

/-- The holder of the lease has not left for `finally`, and its entry stands. -/
def holds (w : World) (u : String) : Bool :=
  match lease u w.log with
  | some l => (w.sessions l.session).any (·.pc.registered? = some u) && w.shared.now < l.deadline
  | none => false

def Op.unregisters (u : String) : Op → Bool
  | .redis (.delete k) => k = registryKey u
  | _ => false

/-- No teardown and no shutdown deletes the entry of `u` while the session that
registered last still holds it. -/
def sparesHolder (env : Env) (u : String) (w : World) : Action → Bool
  | .task _ .fail => true
  | .task id _ => !((w.awaits env id).any (·.unregisters u) && holds w u)
  | _ => true

/-! ## What a step does to a lease and its entry -/

variable {env : Env} {w w' : World} {a : Action} {u : String}

@[simp] theorem leaseStep_raised {t : Nat} {id : TaskId} {op : Op} {held : Option Lease} :
    leaseStep u ⟨t, id, .raised op false⟩ held = held := by
  cases id <;> rfl

/-- An event that is no command on the entry leaves the lease alone. -/
theorem leaseStep_ne {e : Event} {op : Op} {held : Option Lease}
    (he : e.what.effect = some op) (h : ∀ cmd, op = .redis cmd → cmd.key ≠ registryKey u) :
    leaseStep u e held = held := by
  unfold leaseStep
  split
  · rename_i heff
    obtain rfl := Option.some.inj (he.symm.trans heff)
    exact if_neg (h _ rfl)
  · rename_i heff
    obtain rfl := Option.some.inj (he.symm.trans heff)
    exact if_neg (h _ rfl)
  · rfl

/-- The entry of `u` and its lease after a step. -/
inductive LeaseCase (env : Env) (u : String) (w : World) (a : Action) (w' : World) : Prop where
  | kept : lease u w'.log = lease u w.log →
      w'.shared.redis (registryKey u) = w.shared.redis (registryKey u) →
      w.shared.now ≤ w'.shared.now → LeaseCase env u w a w'
  | registered {m s o d} : w.sessions m = some s → s.pc = .register u →
      a = .task (.session m) o → lease u w'.log = some ⟨m, s.instanceId, d⟩ →
      w'.shared.redis (registryKey u) = some ⟨.text s.instanceId, some d⟩ →
      LeaseCase env u w a w'
  | renewed {t} : lease u w'.log = (lease u w.log).map (·.renew w.shared.now t) →
      w'.shared.redis = w.shared.redis.extend w.shared.now (registryKey u)
        (w.shared.now + seconds t) →
      w'.shared.now = w.shared.now → LeaseCase env u w a w'
  | deleted : (∀ l, lease u w'.log = some l → holds w u = false ∧ lease u w.log = some l) →
      w'.shared.now = w.shared.now → LeaseCase env u w a w'

/-- The effect of an awaited operation on the entry. -/
theorem leaseCase_effect {id : TaskId} {op : Op} {o : Outcome Choice} {c : Choice} {sh : Shared}
    {reply : op.Reply} {what : Happened Op Op.Reply} (ha : w.awaits env id = some op)
    (hx : w.shared.exec op c = some (sh, reply)) (he : what.effect = some op)
    (hw : w'.shared = sh) (hlog : w'.log = ⟨w.shared.now, id, what⟩ :: w.log)
    (hspare : op.unregisters u = true → holds w u = false) :
    LeaseCase env u w (.task id o) w' := by
  have hnow : w'.shared.now = w.shared.now := by rw [hw, Shared.exec_now hx]
  have hl : lease u w'.log = leaseStep u ⟨w.shared.now, id, what⟩ (lease u w.log) := by
    rw [hlog]
    rfl
  cases Shared.exec_key hx (registryKey u) with
  | other hop hkept =>
    refine .kept ?_ ?_ (Nat.le_of_eq hnow.symm)
    · rw [hl, leaseStep_ne he hop]
    · rw [hw, hkept]
  | @sent cmd r _ hkey hcmd hsh =>
    subst hsh
    have hr : w'.shared.redis = r := by rw [hw]
    cases World.registryCaller ha hkey with
    | @register m s hs hpc =>
      refine .registered (d := w.shared.now + seconds env.presenceTtlSeconds) hs hpc rfl ?_ ?_
      · rw [hl, leaseStep, he]
        simp [InstanceRegistry.register]
      · rw [hr, RedisCmd.exec_set hcmd, Store.put_self]
    | refresh hs hpc =>
      obtain ⟨rfl, -⟩ := by simpa [RedisCmd.exec, InstanceRegistry.refresh] using hcmd
      refine .renewed (t := env.presenceTtlSeconds) ?_ hr hnow
      rw [hl, leaseStep, he]
      simp [InstanceRegistry.refresh]
    | unregister hs hpc =>
      have hspare := hspare (by simp [Op.unregisters, InstanceRegistry.unregister])
      refine .deleted (fun l h => ⟨hspare, ?_⟩) hnow
      simpa [hl, leaseStep, he, InstanceRegistry.unregister] using h
    | shutdown hp hpc =>
      have hspare := hspare (by simp [Op.unregisters, InstanceRegistry.unregister])
      refine .deleted (fun l h => ⟨hspare, ?_⟩) hnow
      simpa [hl, leaseStep, he, InstanceRegistry.unregister] using h
    | lookup hr hpc hu =>
      obtain ⟨rfl, -⟩ := by simpa [RedisCmd.exec, InstanceRegistry.lookup] using hcmd
      refine .kept ?_ (by rw [hr]) (Nat.le_of_eq hnow.symm)
      rw [hl, leaseStep, he]
      rfl

theorem Stepped.leaseCase (h : Stepped env w a w') (hg : sparesHolder env u w a = true) :
    LeaseCase env u w a w' := by
  obtain ⟨sh, log, hsh, hlog, ht⟩ := h.touched
  cases ht with
  | tick =>
    exact .kept (by rw [hlog]) (by rw [hsh, Shared.elapse_redis]) (by simp [hsh])
  | @expireDedup n =>
    have hne : registryKey u ≠ dedupKey n := ne_of_keyInitial (by simp)
    refine .kept (by rw [hlog]) ?_ (by simp [hsh])
    rw [hsh, Shared.evict_redis, Store.erase_ne hne]
  | crash => exact .kept (by rw [hlog]) (by rw [hsh]; rfl) (by rw [hsh]; exact Nat.le_refl _)
  | started _ => exact .kept (by rw [hlog]) (by rw [hsh]) (by rw [hsh])
  | raised _ _ =>
    refine .kept ?_ (by rw [hsh]) (by rw [hsh])
    rw [hlog]
    exact leaseStep_raised
  | returned ha hx =>
    refine leaseCase_effect ha hx rfl hsh hlog fun hun => ?_
    simpa [sparesHolder, ha, hun] using hg
  | applied ha _ hx =>
    refine leaseCase_effect ha hx rfl hsh hlog fun hun => ?_
    simpa [sparesHolder, ha, hun] using hg

/-! ## The invariant -/

/-- The holder of a lease is leaving, or is registered for `u` on the instance
of the lease; and then the entry is that of the lease until its deadline. -/
def Held (u : String) (w : World) (l : Lease) : Prop :=
  ∃ s, w.sessions l.session = some s ∧ (s.pc.leaving = true ∨
    s.pc.registered? = some u ∧ s.instanceId = l.instanceId ∧
      (w.shared.now < l.deadline →
        w.shared.redis (registryKey u) = some ⟨.text l.instanceId, some l.deadline⟩))

theorem Held.step {l : Lease} (h : Stepped env w a w') (hg : sparesHolder env u w a = true)
    (ih : ∀ l, lease u w.log = some l → Held u w l) (hl : lease u w'.log = some l) :
    Held u w' l := by
  cases h.leaseCase hg with
  | kept hlease hcell hnow =>
    obtain ⟨s, hs, hheld⟩ := ih l (hlease ▸ hl)
    obtain ⟨s', hs', hi, hleave, hcourse⟩ := h.session_course hs
    refine ⟨s', hs', ?_⟩
    rcases hheld with hleaving | ⟨hreg, hinst, hentry⟩
    · exact .inl (hleave hleaving)
    · rcases (hcourse u).2 hreg with hreg' | hleaving
      · refine .inr ⟨hreg', hi.trans hinst, fun ht => ?_⟩
        rw [hcell]
        exact hentry (by omega)
      · exact .inl hleaving
  | @registered m s o d hs hpc ha hlease hcell =>
    obtain rfl := Option.some.inj (hl.symm.trans hlease)
    obtain ⟨sh, pc, e, hs', hadv⟩ := h.session_own ha hs
    refine ⟨{ s with pc }, hs', ?_⟩
    cases hadv with
    | returned hn _ =>
      rw [hpc] at hn
      cases hn
      exact .inr ⟨rfl, rfl, fun _ => hcell⟩
    | raised hn _ => exact .inl (GatewayPc.leaving_raised hn)
    | applied hn _ _ => exact .inl (GatewayPc.leaving_raised hn)
  | @renewed t hlease hredis hnow =>
    obtain ⟨l₀, hl₀, rfl⟩ := Option.map_eq_some_iff.mp (hlease.symm.trans hl)
    obtain ⟨s, hs, hheld⟩ := ih l₀ hl₀
    obtain ⟨s', hs', hi, hleave, hcourse⟩ := h.session_course hs
    refine ⟨s', by rwa [Lease.renew_session], ?_⟩
    rcases hheld with hleaving | ⟨hreg, hinst, hentry⟩
    · exact .inl (hleave hleaving)
    · rcases (hcourse u).2 hreg with hreg' | hleaving
      · refine .inr ⟨hreg', by rw [hi, hinst, Lease.renew_instanceId], fun ht => ?_⟩
        rw [hnow] at ht
        have hlive := Lease.live_of_renew ht
        rw [hredis, Store.extend_deadline (hentry hlive), Lease.renew_instanceId, if_pos hlive,
          Lease.renew_deadline hlive]
      · exact .inl hleaving
  | deleted hlease hnow =>
    -- the entry is gone: the holder had left, or the deadline had passed
    obtain ⟨hfree, hl₀⟩ := hlease l hl
    obtain ⟨s, hs, hheld⟩ := ih l hl₀
    obtain ⟨s', hs', hi, hleave, hcourse⟩ := h.session_course hs
    refine ⟨s', hs', ?_⟩
    rcases hheld with hleaving | ⟨hreg, hinst, hentry⟩
    · exact .inl (hleave hleaving)
    · have hlate : l.deadline ≤ w.shared.now := by simpa [holds, hl₀, hs, hreg] using hfree
      rcases (hcourse u).2 hreg with hreg' | hleaving
      · refine .inr ⟨hreg', hi.trans hinst, fun ht => ?_⟩
        rw [hnow] at ht
        omega
      · exact .inl hleaving

/-- In a run in which no `unregister` takes the entry of `u` from its holder,
`lookup` names the instance of the session that registered last, for as long as
that session is in its receive loop and the entry has not timed out. -/
theorem lookup_of_lease (h : Reach (platform env) (fun w a => sparesHolder env u w a) w)
    {l : Lease} (hl : lease u w.log = some l) {s : Session}
    (hs : w.sessions l.session = some s) (hpc : s.pc.inLoop = true)
    (ht : w.shared.now < l.deadline) : w.lookup u = some s.instanceId := by
  have hheld : ∀ l, lease u w.log = some l → Held u w l := by
    refine h.invariant (I := fun w => ∀ l, lease u w.log = some l → Held u w l) ?_ ?_
    · intro l hl
      simp [platform, World.empty, lease] at hl
    · intro w w' a _ hg ih hstep l hl
      exact Held.step (World.stepped hstep) hg ih hl
  obtain ⟨s₀, hs₀, hheld⟩ := hheld l hl
  obtain rfl := Option.some.inj (hs.symm.trans hs₀)
  rcases hheld with hleaving | ⟨-, hinst, hentry⟩
  · exact absurd hleaving (by rw [GatewayPc.not_leaving_of_inLoop hpc]; simp)
  · rw [World.lookup, Store.get_of_deadline (hentry ht) ht, hinst]
    rfl

/-- A client goes away from one instance and comes back on another. -/
def returnRun : List Action :=
  Action.startup "b" ++ soloRun ++ Action.teardown 0 ++ Action.grant 1 "b" someUser "t1" ++
    Action.openSession 1 "b" "c1" "t1"

set_option maxRecDepth 4000 in
theorem lookup_of_lease_return : ∃ w, (platform plainEnv).run .empty returnRun = some w ∧
    (w.sessions 0).map (·.pc) = some .ended ∧ w.lookup someUser = some "b" := by
  have hmeets : (platform plainEnv).Meets (fun w a => sparesHolder plainEnv someUser w a) .empty
      returnRun := by decide
  obtain ⟨w, hrun, hended, hl, hs, hnow⟩ : ∃ w,
      (platform plainEnv).run .empty returnRun = some w ∧
      (w.sessions 0).map (·.pc) = some .ended ∧
      lease someUser w.log = some ⟨1, "b", 30000000⟩ ∧
      w.sessions 1 = some ⟨"b", "c1", .receive someUser⟩ ∧ w.shared.now = 0 :=
    ⟨_, rfl, rfl, rfl, rfl, rfl⟩
  have hlease : w.shared.now < 30000000 := by omega
  exact ⟨w, hrun, hended, lookup_of_lease (.of_run .init hmeets hrun) hl hs rfl hlease⟩

/-- A client reconnects to another instance before its old session is torn
down. -/
def reconnectRun : List Action :=
  Action.startup "a" ++ Action.startup "b" ++ Action.grant 0 "a" someUser "t0" ++
    Action.openSession 0 "a" "c0" "t0" ++ Action.grant 1 "b" someUser "t1" ++
    Action.openSession 1 "b" "c1" "t1" ++ Action.teardown 0

/-- The `finally` block of the old session deletes the new entry. -/
theorem lookup_of_lease_reconnect : ∃ w l s, Reachable plainEnv w ∧
    lease someUser w.log = some l ∧ w.sessions l.session = some s ∧ s.pc.inLoop = true ∧
    w.shared.now < l.deadline ∧ s.instanceId = "b" ∧ w.lookup someUser = none := by
  have hrun : ∃ w, (platform plainEnv).run .empty reconnectRun = some w ∧
      lease someUser w.log = some ⟨1, "b", 30000000⟩ ∧
      w.sessions 1 = some ⟨"b", "c1", .receive someUser⟩ ∧ w.shared.now = 0 ∧
      w.lookup someUser = none := ⟨_, rfl, rfl, rfl, rfl, rfl⟩
  obtain ⟨w, hw, hl, hs, hnow, hlookup⟩ := hrun
  have hlease : w.shared.now < 30000000 := by omega
  exact ⟨w, _, _, .of_run hw, hl, hs, rfl, hlease, rfl, hlookup⟩

end RealtimeNotify.App
