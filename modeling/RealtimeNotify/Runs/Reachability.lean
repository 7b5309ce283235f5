import RealtimeNotify.App.Frames

/-!
# Local reachability

The connection map of an instance has one entry a user. While the session that
entered itself last is connected the entry is its own, as long as nobody else
takes it out: `remove` looks at the user id only, in `finally` and after a failed
delivery alike.
-/

namespace RealtimeNotify.App

open RealtimeNotify.Lib RealtimeNotify.Python

variable {env : Env} {w w' : World} {a : Action} {i u : String}

/-! ## The latest session -/

def addStep (i u : String) (e : Event) (last : Option Nat) : Option Nat :=
  match e.what.effect with
  | some (.add j v n) => if j = i ∧ v = u then some n else last
  | _ => last

/-- The session that executed `add` for `u` on `i` last. -/
def lastAdded (i u : String) (log : List Event) : Option Nat := log.foldr (addStep i u) none

/-- A send on the socket of session `n` raised. -/
def Event.failsSend (n : Nat) (e : Event) : Bool :=
  match e.what with
  | .raised (.send m _) _ => m = n
  | _ => false

/-- The session that executed `add` last has not left for `finally`, and no send
on its socket has failed. -/
def reaches (w : World) (i u : String) : Bool :=
  match lastAdded i u w.log with
  | some n => (w.sessions n).any (·.pc.connected? = some u) && !w.log.any (·.failsSend n)
  | none => false

def Op.takesOut (i u : String) : Op → Bool
  | .remove j v | .popSocket j v => j = i && v = u
  | _ => false

/-- No `remove` (nor the loop of `close_all`) takes the entry of `u` out while it
is that of the latest session. -/
def sparesLatest (env : Env) (i u : String) (w : World) : Action → Bool
  | .task id _ => !((w.awaits env id).any (·.takesOut i u) && reaches w i u)
  | _ => true

/-! ## What a step does to an entry -/

@[simp] theorem addStep_raised {t : Nat} {id : TaskId} {op : Op} {last : Option Nat} :
    addStep i u ⟨t, id, .raised op false⟩ last = last := rfl

theorem addStep_ne {e : Event} {op : Op} {last : Option Nat} (he : e.what.effect = some op)
    (h : ∀ j v n, op ≠ .add j v n) : addStep i u e last = last := by
  unfold addStep
  split
  · rename_i heff
    exact absurd (Option.some.inj (he.symm.trans heff)) (h _ _ _)
  · rfl

/-- The entry of `u` and its latest session after a step. -/
inductive EntryCase (env : Env) (i u : String) (w : World) (a : Action) (w' : World) : Prop where
  | kept : lastAdded i u w'.log = lastAdded i u w.log →
      (w'.shared.connections i).get u = (w.shared.connections i).get u → EntryCase env i u w a w'
  | added {n s o} : w.sessions n = some s → s.pc = .add u → s.instanceId = i →
      a = .task (.session n) o → lastAdded i u w'.log = some n →
      (w'.shared.connections i).get u = some n → EntryCase env i u w a w'
  | removed : lastAdded i u w'.log = lastAdded i u w.log → reaches w i u = false →
      EntryCase env i u w a w'
  | crashed : a = .crash i → lastAdded i u w'.log = lastAdded i u w.log → EntryCase env i u w a w'

theorem entryCase_effect {id : TaskId} {op : Op} {o : Outcome Choice} {c : Choice} {sh : Shared}
    {reply : op.Reply} {what : Happened Op Op.Reply} (ha : w.awaits env id = some op)
    (hx : w.shared.exec op c = some (sh, reply)) (he : what.effect = some op)
    (hw : w'.shared = sh) (hlog : w'.log = ⟨w.shared.now, id, what⟩ :: w.log)
    (hspare : op.takesOut i u = true → reaches w i u = false) :
    EntryCase env i u w (.task id o) w' := by
  have hlast : lastAdded i u w'.log
      = addStep i u ⟨w.shared.now, id, what⟩ (lastAdded i u w.log) := by
    rw [hlog]
    rfl
  cases Shared.exec_connections hx with
  | kept hadd hsame =>
    refine .kept ?_ (by rw [hw, hsame])
    rw [hlast, addStep_ne he hadd]
  | @added j v n hadd =>
    obtain ⟨s, rfl, hs, hi, hpc⟩ := World.addCaller ha
    by_cases hiu : j = i ∧ v = u
    · obtain ⟨rfl, rfl⟩ := hiu
      refine .added hs hpc hi rfl ?_ ?_
      · rw [hlast, addStep, he]
        simp
      · rw [hw, hadd, if_pos ⟨rfl, rfl⟩]
    · refine .kept ?_ ?_
      · rw [hlast, addStep, he]
        exact if_neg hiu
      · rw [hw, hadd, if_neg fun h => hiu ⟨h.1.symm, h.2.symm⟩]
  | @removed _ j v hop hrem =>
    have hkeep : lastAdded i u w'.log = lastAdded i u w.log := by
      rw [hlast, addStep, he]
      rcases hop with rfl | rfl <;> rfl
    by_cases hiu : j = i ∧ v = u
    · obtain ⟨rfl, rfl⟩ := hiu
      refine .removed hkeep (hspare ?_)
      rcases hop with rfl | rfl <;> simp [Op.takesOut]
    · refine .kept hkeep ?_
      rw [hw, hrem, if_neg fun h => hiu ⟨h.1.symm, h.2.symm⟩]

theorem Stepped.entryCase (h : Stepped env w a w') (hg : sparesLatest env i u w a = true) :
    EntryCase env i u w a w' := by
  obtain ⟨sh, log, hsh, hlog, ht⟩ := h.touched
  cases ht with
  | tick => exact .kept (by rw [hlog]) (by rw [hsh]; rfl)
  | expireDedup => exact .kept (by rw [hlog]) (by rw [hsh]; rfl)
  | started _ => exact .kept (by rw [hlog]) (by rw [hsh])
  | raised _ _ =>
    refine .kept ?_ (by rw [hsh])
    rw [hlog, lastAdded, List.foldr_cons, addStep_raised, lastAdded]
  | @crash j =>
    by_cases hj : j = i
    · exact .crashed (by rw [hj]) (by rw [hlog])
    · refine .kept (by rw [hlog]) ?_
      rw [hsh]
      simp [Shared.setConnections, Shared.setChannel, Ne.symm hj]
  | returned ha hx =>
    refine entryCase_effect ha hx rfl hsh hlog fun hout => ?_
    simpa [sparesLatest, ha, hout] using hg
  | applied ha _ hx =>
    refine entryCase_effect ha hx rfl hsh hlog fun hout => ?_
    simpa [sparesLatest, ha, hout] using hg

/-! ## The invariant -/

/-- The session that executed `add` for `u` last is leaving, or is connected to
`i` for `u`; and then, unless a send on its socket has failed, the entry is its
own. -/
def Mapped (i u : String) (w : World) (n : Nat) : Prop :=
  ∃ s, w.sessions n = some s ∧ (s.pc.leaving = true ∨
    s.pc.connected? = some u ∧ s.instanceId = i ∧
      (w.log.any (·.failsSend n) = false → (w.shared.connections i).get u = some n))

/-- A failed send stays in the log. -/
theorem Stepped.failsSend (h : Stepped env w a w') {n : Nat}
    (hn : w'.log.any (·.failsSend n) = false) : w.log.any (·.failsSend n) = false := by
  rcases h.log_cases with hlog | ⟨e, hlog⟩
  · rwa [hlog] at hn
  · rw [hlog, List.any_cons, Bool.or_eq_false_iff] at hn
    exact hn.2

theorem Mapped.step {n : Nat} (h : Stepped env w a w') (hg : sparesLatest env i u w a = true)
    (ih : ∀ n, lastAdded i u w.log = some n → Mapped i u w n)
    (hn : lastAdded i u w'.log = some n) : Mapped i u w' n := by
  cases h.entryCase hg with
  | kept hlast hentry =>
    obtain ⟨s, hs, hmapped⟩ := ih n (hlast ▸ hn)
    obtain ⟨s', hs', hi, hleave, hcourse⟩ := h.session_course hs
    refine ⟨s', hs', ?_⟩
    rcases hmapped with hleaving | ⟨hconn, hinst, hget⟩
    · exact .inl (hleave hleaving)
    · rcases (hcourse u).1 hconn with hconn' | hleaving
      · refine .inr ⟨hconn', hi.trans hinst, fun hfail => ?_⟩
        rw [hentry]
        exact hget (h.failsSend hfail)
      · exact .inl hleaving
  | @added m s o hs hpc hinst ha hlast hget =>
    obtain rfl := Option.some.inj (hn.symm.trans hlast)
    obtain ⟨sh, pc, e, hs', hadv⟩ := h.session_own ha hs
    refine ⟨{ s with pc }, hs', ?_⟩
    cases hadv with
    | returned hnext _ =>
      rw [hpc] at hnext
      cases hnext
      exact .inr ⟨rfl, hinst, fun _ => hget⟩
    | raised hnext _ => exact .inl (GatewayPc.leaving_raised hnext)
    | applied hnext _ _ => exact .inl (GatewayPc.leaving_raised hnext)
  | removed hlast hfree =>
    -- the entry is gone: the session had left, or a send on its socket had failed
    have hold : lastAdded i u w.log = some n := hlast ▸ hn
    obtain ⟨s, hs, hmapped⟩ := ih n hold
    obtain ⟨s', hs', hi, hleave, hcourse⟩ := h.session_course hs
    refine ⟨s', hs', ?_⟩
    rcases hmapped with hleaving | ⟨hconn, hinst, -⟩
    · exact .inl (hleave hleaving)
    · have hfail : w.log.any (·.failsSend n) = true := by
        simpa [reaches, hold, hs, hconn] using hfree
      rcases (hcourse u).1 hconn with hconn' | hleaving
      · refine .inr ⟨hconn', hi.trans hinst, fun hnone => ?_⟩
        rw [h.failsSend hnone] at hfail
        cases hfail
      · exact .inl hleaving
  | crashed ha hlast =>
    obtain ⟨s, hs, hmapped⟩ := ih n (hlast ▸ hn)
    subst ha
    cases h with
    | crash _ =>
      rcases hmapped with hleaving | ⟨-, hinst, -⟩
      · refine ⟨_, by simp only [World.crash, World.killAll, hs, Option.map_some]; rfl, ?_⟩
        left
        split
        · rfl
        · exact hleaving
      · refine ⟨{ s with pc := .ended }, ?_, .inl rfl⟩
        simp [World.crash, World.killAll, hs, hinst]

/-- In a run in which nothing takes the entry of `u` from its latest session, the
connection map has the socket of the session that executed `add` last, for as
long as that session is in its receive loop and no send on its socket has
failed. -/
theorem connection_of_latest (h : Reach (platform env) (fun w a => sparesLatest env i u w a) w)
    {n : Nat} (hn : lastAdded i u w.log = some n) {s : Session} (hs : w.sessions n = some s)
    (hpc : s.pc.inLoop = true) (hfail : w.log.any (·.failsSend n) = false) :
    (w.shared.connections i).get u = some n := by
  have hmapped : ∀ n, lastAdded i u w.log = some n → Mapped i u w n := by
    refine h.invariant (I := fun w => ∀ n, lastAdded i u w.log = some n → Mapped i u w n) ?_ ?_
    · intro n hn
      simp [platform, World.empty, lastAdded] at hn
    · intro w w' a _ hg ih hstep n hn
      exact Mapped.step (World.stepped hstep) hg ih hn
  obtain ⟨s₀, hs₀, hleaving | ⟨-, -, hget⟩⟩ := hmapped n hn
  · obtain rfl := Option.some.inj (hs.symm.trans hs₀)
    rw [GatewayPc.not_leaving_of_inLoop hpc] at hleaving
    cases hleaving
  · exact hget hfail

/-- A client closes its connection and opens another one to the same instance. -/
def successionRun : List Action :=
  soloRun ++ Action.teardown 0 ++ Action.grant 1 "a" someUser "t1" ++
    Action.openSession 1 "a" "c1" "t1"

set_option maxRecDepth 4000 in
theorem connection_of_latest_succession : ∃ w,
    (platform plainEnv).run .empty successionRun = some w ∧
    (w.sessions 0).map (·.pc) = some .ended ∧
    (w.shared.connections "a").get someUser = some 1 := by
  have hmeets : (platform plainEnv).Meets (fun w a => sparesLatest plainEnv "a" someUser w a)
      .empty successionRun := by decide
  refine ⟨_, rfl, rfl, ?_⟩
  exact connection_of_latest (.of_run .init hmeets rfl) (n := 1) rfl rfl rfl rfl

/-- A client opens a second connection to its instance and closes the first. -/
def overlapRun : List Action :=
  soloRun ++ Action.grant 1 "a" someUser "t1" ++ Action.openSession 1 "a" "c1" "t1" ++
    Action.teardown 0

/-- The `finally` block of the old session removes the new socket. -/
theorem connection_of_latest_overlap : ∃ w s, Reachable plainEnv w ∧
    lastAdded "a" someUser w.log = some 1 ∧ w.sessions 1 = some s ∧ s.pc.inLoop = true ∧
    w.log.any (·.failsSend 1) = false ∧ (w.shared.connections "a").get someUser = none := by
  have hrun : ∃ w, (platform plainEnv).run .empty overlapRun = some w ∧
      lastAdded "a" someUser w.log = some 1 ∧
      w.sessions 1 = some ⟨"a", "c1", .receive someUser⟩ ∧
      w.log.any (·.failsSend 1) = false ∧
      (w.shared.connections "a").get someUser = none := ⟨_, rfl, rfl, rfl, rfl, rfl⟩
  obtain ⟨w, hw, hlast, hs, hfail, hget⟩ := hrun
  exact ⟨w, _, .of_run hw, hlast, hs, rfl, hfail, hget⟩

end RealtimeNotify.App
