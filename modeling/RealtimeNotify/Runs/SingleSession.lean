import RealtimeNotify.Runs.Reachability
import RealtimeNotify.Runs.SelfHealing
import RealtimeNotify.Runs.Uptime

/-!
# A user with one session at a time

In steady runs in which a user has no second session, no one else deletes or
overwrites what its session wrote: the registry entry names the instance of the
session, and the connection map of that instance has its socket.
-/

namespace RealtimeNotify.App

open RealtimeNotify.Lib RealtimeNotify.Python

/-- At most one session of `u`, from its redeemed ticket to the end of its
`finally` block. -/
def OneSession (u : String) (w : World) : Prop :=
  ∀ n m s t, w.sessions n = some s → w.sessions m = some t → s.pc.user? = some u →
    t.pc.user? = some u → n = m

/-- The steps of a steady run in which `u` has one session at a time. -/
def steadyFor (u : String) (w : World) (a : Action) : Prop := OneSession u w ∧ steady w a

structure Single (u : String) (w : World) : Prop where
  entry : ∀ n s, w.sessions n = some s → s.pc.registered? = some u →
    w.shared.redis.get w.shared.now (registryKey u) = some (.text s.instanceId)
  socket : ∀ n s, w.sessions n = some s → s.pc.connected? = some u →
    (w.shared.connections s.instanceId).get u = some n

theorem Single.init {u : String} : Single u .empty where
  entry := by simp [World.empty]
  socket := by simp [World.empty]

variable {env : Env} {w w' : World} {a : Action} {u : String} {n : Nat} {s s' : Session}

/-! ## The registry entry -/

/-- No step takes or changes the entry of a registered session. -/
theorem Single.entry_kept (h : Single u w) (hup : Up w) (hd : Deadlines env w)
    (hone : OneSession u w) (hg : steady w a) (hstep : Stepped env w a w')
    (hs : w.sessions n = some s) (hreg : s.pc.registered? = some u) :
    w'.shared.redis.get w'.shared.now (registryKey u) = some (.text s.instanceId) := by
  have hentry := h.entry n s hs hreg
  -- another session of `u` would be session `n`, which is registered
  have hother : ∀ {m t}, w.sessions m = some t → t.pc.user? = some u →
      t.pc.registered? = some u := by
    intro m t ht hu
    obtain rfl := hone n m s t hs ht (GatewayPc.user_of_connected
      (GatewayPc.connected_of_registered hreg)) hu
    obtain rfl := Option.some.inj (hs.symm.trans ht)
    exact hreg
  rcases hstep.now_cases with hnow | ⟨d, rfl, hnow⟩
  · rw [hnow]
    cases hstep.key_cases (registryKey u) with
    | kept hk => rwa [Store.get_congr hk]
    | evicted _ hk => exact absurd hk (ne_of_keyInitial (by simp))
    | sent _ _ haw hk hx hsh =>
      rw [hsh]
      cases World.registryCaller haw hk with
      | register ht hpc =>
        have hreg' := hother ht (by rw [hpc]; rfl)
        rw [hpc] at hreg'
        cases hreg'
      | unregister ht hpc =>
        have hreg' := hother ht (by rw [hpc]; rfl)
        rw [hpc] at hreg'
        cases hreg'
      | refresh _ _ =>
        have hpos : 0 < env.presenceTtlSeconds := by
          apply hd.ttl_pos (u := u)
          rw [Redis.lookup, hentry]
          simp
        exact RedisCmd.get_exec_expire hpos hentry hx
      | shutdown hp hpc =>
        have hlife := hup.lifespan _ _ hp
        rw [hpc] at hlife
        cases hlife
      | lookup _ _ _ =>
        obtain ⟨rfl, -⟩ := by simpa [RedisCmd.exec, InstanceRegistry.lookup] using hx
        exact hentry
  · cases hstep with
    | tick =>
      have hkept := hg (registryKey u) (.inl (by simp)) (by rw [hentry]; rfl)
      exact Store.get_of_kept hentry (Nat.le_add_right _ _) hkept

theorem Single.entry_step (h : Single u w) (hup : Up w) (hd : Deadlines env w)
    (hone : OneSession u w) (hg : steady w a) (hstep : Stepped env w a w')
    (hs' : w'.sessions n = some s') (hreg : s'.pc.registered? = some u) :
    w'.shared.redis.get w'.shared.now (registryKey u) = some (.text s'.instanceId) := by
  cases hstep.session_cases hs' with
  | same hs _ _ => exact h.entry_kept hup hd hone hg hstep hs hreg
  | new _ _ _ _ => cases hreg
  | killed _ _ _ => cases hreg
  | @moved s _ sh _ _ hs _ hadv hsh _ =>
    cases hadv with
    | raised hn _ | applied hn _ _ =>
      have hleave := GatewayPc.leaving_raised hn
      simp only at hreg
      rw [GatewayPc.not_leaving_of_connected (GatewayPc.connected_of_registered hreg)] at hleave
      cases hleave
    | @returned _ _ _ c _ reply hn hx =>
      rcases GatewayPc.registered_resume hn hreg with hold | hpc
      · exact h.entry_kept (s := s) hup hd hone hg hstep hs hold
      · rw [hpc] at hn
        cases hn
        obtain ⟨redis, hcmd, rfl⟩ := Shared.exec_redis (c := c) hx
        rw [hsh]
        exact RedisCmd.get_exec_set hcmd

/-! ## The socket -/

/-- A step that does not take the entry of a user's only session out keeps it,
but for a crash of its instance. -/
theorem OneSession.socket_kept (hone : OneSession u w) (hstep : Stepped env w a w')
    (hs : w.sessions n = some s) (hu : s.pc.connected? = some u)
    (hsocket : (w.shared.connections s.instanceId).get u = some n)
    (hspare : ∀ id o op, a = .task id o → w.awaits env id = some op →
      op.takesOut s.instanceId u = false) :
    a = .crash s.instanceId ∨ (w'.shared.connections s.instanceId).get u = some n := by
  cases hstep.map_cases s.instanceId u with
  | kept hsame => exact .inr (hsame.trans hsocket)
  | @added m t _ _ ht _ hpc hnew =>
    -- a session at `add` for the same user can only be session `n`
    obtain rfl := hone n m s t hs ht (GatewayPc.user_of_connected hu) (by rw [hpc]; rfl)
    exact .inr hnew
  | removed ha haw hop _ =>
    have hout := hspare _ _ _ ha haw
    rcases hop with rfl | rfl <;> simp [Op.takesOut] at hout
  | crashed ha _ => exact .inl ha

/-- With the socket of every connected session of `u` in the map before a step
that keeps it there, it is there afterwards. -/
theorem Stepped.socket_step (hstep : Stepped env w a w')
    (hkept : ∀ s, w.sessions n = some s → s.pc.connected? = some u →
      a = .crash s.instanceId ∨ (w'.shared.connections s.instanceId).get u = some n)
    (hs' : w'.sessions n = some s') (hu : s'.pc.connected? = some u) :
    (w'.shared.connections s'.instanceId).get u = some n := by
  cases hstep.session_cases hs' with
  | same hs _ hcrash => exact (hkept s' hs hu).resolve_left hcrash
  | new _ _ _ _ => cases hu
  | killed _ _ _ => cases hu
  | @moved s _ sh _ _ hs ha hadv hsh _ =>
    cases hadv with
    | raised hn _ | applied hn _ _ =>
      have hleave := GatewayPc.leaving_raised hn
      simp only at hu
      rw [GatewayPc.not_leaving_of_connected hu] at hleave
      cases hleave
    | @returned _ _ _ c _ reply hn hx =>
      rcases GatewayPc.connected_resume hn hu with hold | hpc
      · exact (hkept s hs hold).resolve_left (by simp [ha])
      · rw [hpc] at hn
        cases hn
        obtain rfl := by simpa [Shared.exec, semantics] using hx
        rw [hsh, Shared.get_set]
        simp

/-- In a steady run nobody takes the entry of a connected session out. -/
theorem OneSession.spares (hone : OneSession u w) (hup : Up w) (hs : w.sessions n = some s)
    (hu : s.pc.connected? = some u) {id : TaskId} {op : Op} (ha : w.awaits env id = some op) :
    op.takesOut s.instanceId u = false := by
  cases op with
  | remove j v =>
    cases World.localCaller ha rfl with
    | @leave m t _ ht hpc =>
      by_contra hout
      obtain ⟨-, rfl⟩ : t.instanceId = s.instanceId ∧ v = u := by
        simpa [Op.takesOut] using hout
      obtain rfl := hone n m s t hs ht (GatewayPc.user_of_connected hu) (by rw [hpc]; rfl)
      obtain rfl := Option.some.inj (hs.symm.trans ht)
      rw [hpc] at hu
      cases hu
    | drop hp hpc =>
      have hsub := hup.subscriber _ _ hp
      rw [hpc] at hsub
      cases hsub
  | popSocket j v =>
    cases World.localCaller ha rfl with
    | pop hp hpc =>
      have hlife := hup.lifespan _ _ hp
      rw [hpc] at hlife
      cases hlife
  | _ => rfl

theorem Single.socket_step (h : Single u w) (hup : Up w) (hone : OneSession u w)
    (hstep : Stepped env w a w') (hs' : w'.sessions n = some s')
    (hu : s'.pc.connected? = some u) :
    (w'.shared.connections s'.instanceId).get u = some n := by
  refine hstep.socket_step (fun s hs hconn => ?_) hs' hu
  exact hone.socket_kept hstep hs hconn (h.socket n s hs hconn)
    fun _ _ _ _ ha => hone.spares hup hs hconn ha

/-! ## Every run -/

theorem Single.step (h : Single u w) (hup : Up w) (hd : Deadlines env w)
    (hg : steadyFor u w a) (hstep : Stepped env w a w') : Single u w' where
  entry _ _ := h.entry_step hup hd hg.1 hg.2 hstep
  socket _ _ := h.socket_step hup hg.1 hstep

theorem Up.of_reach_for (h : Reach (platform env) (steadyFor u) w) : Up w :=
  .of_reach (h.mono fun _ _ hg => hg.2)

theorem Single.of_reach (h : Reach (platform env) (steadyFor u) w) : Single u w :=
  h.invariant .init fun hreach hg ih hstep =>
    ih.step (.of_reach_for hreach) (.of_reachable (hreach.mono fun _ _ _ => trivial)) hg
      (World.stepped hstep)

/-! ## Runs of one session -/

/-- No other session than `n` is opened. -/
def opensOnly (n : Nat) : Action → Bool
  | .connect m _ _ _ => m = n
  | _ => true

theorem opensOnly_sessions (h : Reach (platform env) (fun _ a => opensOnly n a = true) w) :
    ∀ m s, w.sessions m = some s → m = n := by
  refine h.invariant (I := fun w => ∀ m s, w.sessions m = some s → m = n) ?_ ?_
  · simp [platform, World.empty]
  · intro w w' a _ hg ih hstep m s' hs'
    cases (World.stepped hstep).session_cases hs' with
    | same hs _ _ | killed hs _ _ | moved hs _ _ _ _ => exact ih m _ hs
    | new _ _ ha _ => simpa [ha, opensOnly] using hg

theorem OneSession.of_opensOnly (h : Reach (platform env) (fun _ a => opensOnly n a = true) w) :
    OneSession u w := by
  intro m m' s t hs ht _ _
  rw [opensOnly_sessions h m s hs, opensOnly_sessions h m' t ht]

/-- No other session than `n` is opened, no time passes, and nothing raises or
shuts down that a steady run does not let. -/
def solo (n : Nat) (w : World) : Action → Bool
  | .tick _ => false
  | .connect m _ _ _ => m = n
  | .task id o => smooth id o && staysUp w id
  | _ => true

theorem solo_steady (h : solo n w a = true) : steady w a := by
  cases a with
  | tick _ => cases h
  | task id o => exact Bool.and_eq_true_iff.mp h
  | _ => trivial

theorem OneSession.of_solo (h : Reach (platform env) (fun w a => solo n w a = true) w) :
    OneSession u w := by
  refine .of_opensOnly (n := n) (h.mono fun w a hg => ?_)
  cases a with
  | connect m _ _ _ => exact hg
  | _ => rfl

/-- Such a run is a steady one with one session of every user. -/
theorem steadyFor_of_solo (h : Reach (platform env) (fun w a => solo n w a = true) w)
    (hg : solo n w a = true) : steadyFor u w a :=
  ⟨.of_solo h, solo_steady hg⟩

end RealtimeNotify.App
