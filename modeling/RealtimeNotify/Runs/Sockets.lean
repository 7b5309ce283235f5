import RealtimeNotify.Runs.Delivery

/-!
# The frames on one socket

The session writes its backlog frame once and then what the router answers; the
subscriber writes live notifications on any socket the map has. The map has the
socket from `add` on, three awaits and a query before the backlog is written.
-/

namespace RealtimeNotify.App

open RealtimeNotify.Lib RealtimeNotify.Python

/-- The frame an event put on socket `n`. -/
def Event.frameOn? (n : Nat) (e : Event) : Option Frame :=
  match e.what.effect with
  | some (.send m frame) => if m = n then some frame else none
  | _ => none

def Frame.isBacklog : Frame → Bool
  | .backlog _ => true
  | _ => false

/-- The backlog of session `n` was sent. -/
def Event.introduces (n : Nat) (e : Event) : Bool := (e.frameOn? n).any (·.isBacklog)

/-- A frame on socket `n` is a backlog, or a backlog was sent there before it. -/
def BacklogFirst (n : Nat) (log : List Event) : Prop :=
  Each (fun e before => ∀ frame, e.frameOn? n = some frame →
    frame.isBacklog = true ∨ before.any (·.introduces n) = true) log

/-- No message is given to a socket whose backlog was not sent. -/
def awaitsBacklog (env : Env) (w : World) : Action → Bool
  | .task id _ =>
      match w.awaits env id with
      | some (.getSocket i u) =>
          ((w.shared.connections i).get u).all fun n => w.log.any (·.introduces n)
      | _ => true
  | _ => true

variable {env : Env} {w w' : World} {a : Action} {n : Nat}

theorem Event.frameOn_eq_some {e : Event} {frame : Frame} :
    e.frameOn? n = some frame ↔ e.what.effect = some (.send n frame) := by
  unfold frameOn?
  split
  · rename_i m frame' heff
    rw [heff]
    by_cases hm : m = n <;> simp [hm]
  · rename_i hne
    constructor
    · intro h
      cases h
    · intro h
      exact absurd h (hne n frame)

/-! ## Backlog first -/

structure Introduced (w : World) : Prop where
  session : ∀ n s, w.sessions n = some s → s.pc.inLoop = true →
    w.log.any (·.introduces n) = true
  subscriber : ∀ i p u n frame, w.processes i = some p → p.subscriber = .sending u n frame →
    w.log.any (·.introduces n) = true
  first : ∀ n, BacklogFirst n w.log

theorem Introduced.init : Introduced .empty where
  session := by simp [World.empty]
  subscriber := by simp [World.empty]
  first := by simp [World.empty, BacklogFirst]

theorem Stepped.introduced (h : Stepped env w a w') (hn : w.log.any (·.introduces n) = true) :
    w'.log.any (·.introduces n) = true := by
  obtain ⟨e, he, hi⟩ := List.any_eq_true.mp hn
  exact List.any_eq_true.mpr ⟨e, h.log_subset he, hi⟩

/-- The loop is entered with the backlog sent. -/
theorem GatewayPc.inLoop_resume {i c : String} {pc r : GatewayPc} {op : Op}
    {k : op.Reply → GatewayPc} {reply : op.Reply} (h : pc.next env n i c = .call op k r)
    (hl : (k reply).inLoop = true) :
    pc.inLoop = true ∨ ∃ rows, op = .send n (.backlog rows) := by
  cases pc with
  | redeem ticket =>
    cases h
    cases reply <;> cases hl
  | onlineSeen u =>
    cases h
    cases hu : UUID.ofString u <;> simp [hu, inLoop] at hl
  | backlogSend u rows =>
    cases h
    exact .inr ⟨_, rfl⟩
  | receive _ | allow _ _ | heartbeat _ | heartbeatSeen _ | refresh _ | presence _ _
  | presenceSeen _ | readReceipt _ _ _ | respond _ _ => exact .inl rfl
  | ended => cases h
  | _ =>
    cases h
    cases hl

theorem Introduced.session_step (h : Introduced w) (hstep : Stepped env w a w') {s' : Session}
    (hs' : w'.sessions n = some s') (hl : s'.pc.inLoop = true) :
    w'.log.any (·.introduces n) = true := by
  cases hstep.session_cases hs' with
  | same hs _ _ => exact hstep.introduced (h.session n s' hs hl)
  | new _ _ _ _ => cases hl
  | killed _ _ _ => cases hl
  | @moved s _ _ _ _ hs _ hadv _ hlog =>
    cases hadv with
    | returned hn _ =>
      rcases GatewayPc.inLoop_resume hn hl with hold | ⟨rows, rfl⟩
      · exact hstep.introduced (h.session n s hs hold)
      · rw [hlog]
        simp [Event.introduces, Event.frameOn?, Happened.effect, Frame.isBacklog]
    | raised hn _ | applied hn _ _ =>
      have hleave := GatewayPc.leaving_raised hn
      rw [GatewayPc.not_leaving_of_inLoop hl] at hleave
      cases hleave

theorem Introduced.subscriber_step (h : Introduced w) (hstep : Stepped env w a w')
    (hg : awaitsBacklog env w a = true) {i u : String} {p' : Process} {frame : Frame}
    (hp' : w'.processes i = some p') (hpc : p'.subscriber = .sending u n frame) :
    w'.log.any (·.introduces n) = true := by
  refine hstep.introduced ?_
  rcases hstep.sending_cases hp' hpc with
    ⟨p, hp, hsending⟩ | ⟨message, c, ha, haw, hsocket, -⟩
  · exact h.subscriber i p u n frame hp hsending
  · rw [ha] at hg
    simpa [awaitsBacklog, haw, hsocket] using hg

theorem Introduced.first_step (h : Introduced w) (hstep : Stepped env w a w') :
    BacklogFirst n w'.log := by
  have hsent : ∀ {id frame}, w.awaits env id = some (.send n frame) →
      frame.isBacklog = true ∨ w.log.any (·.introduces n) = true := by
    intro id frame ha
    cases World.sendCaller ha with
    | backlog _ _ => exact .inl rfl
    | respond hs hpc => exact .inr (h.session _ _ hs (by rw [hpc]; rfl))
    | live hp hpc => exact .inr (h.subscriber _ _ _ _ _ hp hpc)
  obtain ⟨sh, log, -, hlog, ht⟩ := hstep.touched
  rw [hlog]
  cases ht with
  | tick | expireDedup | crash | started _ => exact h.first n
  | raised _ _ =>
    refine Each.cons_iff.mpr ⟨fun frame hframe => ?_, h.first n⟩
    cases Event.frameOn_eq_some.mp hframe
  | returned ha _ | applied ha _ _ =>
    refine Each.cons_iff.mpr ⟨fun frame hframe => ?_, h.first n⟩
    obtain rfl := Option.some.inj (Event.frameOn_eq_some.mp hframe)
    exact hsent ha

theorem Introduced.step (h : Introduced w) (hstep : Stepped env w a w')
    (hg : awaitsBacklog env w a = true) : Introduced w' where
  session _ _ := h.session_step hstep
  subscriber _ _ _ _ _ := h.subscriber_step hstep hg
  first _ := h.first_step hstep

/-- The first frame on every socket is its backlog. -/
theorem backlog_first (h : Reach (platform env) (fun w a => awaitsBacklog env w a = true) w)
    (n : Nat) : BacklogFirst n w.log := by
  have hintro : Introduced w :=
    h.invariant .init fun _ hg ih hstep => ih.step (World.stepped hstep) hg
  exact hintro.first n

theorem backlog_first_delivery : ∃ w, (platform plainEnv).run .empty deliveryRun = some w ∧
    w.log.any (fun e => (e.frameOn? 0).any fun frame => !frame.isBacklog) = true ∧
    BacklogFirst 0 w.log := by
  have hmeets : (platform plainEnv).Meets (fun w a => awaitsBacklog plainEnv w a = true) .empty
      deliveryRun := by decide
  obtain ⟨w, hrun, hlive⟩ : ∃ w, (platform plainEnv).run .empty deliveryRun = some w ∧
      w.log.any (fun e => (e.frameOn? 0).any fun frame => !frame.isBacklog) = true :=
    ⟨_, rfl, rfl⟩
  exact ⟨w, hrun, hlive, backlog_first (.of_run .init hmeets hrun) 0⟩

/-- The session is registered when a notification is created and delivered, and
has not yet asked for its backlog. -/
def earlyRun : List Action :=
  Action.startup "a" ++ Action.grant 0 "a" someUser "t0" ++
    .connect 0 "a" "c0" "t0" :: List.replicate 4 (.ok (.session 0)) ++
    Action.submit 0 "a" someBody ++ .insert 0 newYear :: List.replicate 4 (.ok (.request 0)) ++
    List.replicate 3 (.ok (.subscriber "a"))

theorem backlog_first_not : ∃ w, Reachable plainEnv w ∧ ¬ BacklogFirst 0 w.log := by
  obtain ⟨w, e, before, hrun, hlog, hlive, hnone⟩ : ∃ w e before,
      (platform plainEnv).run .empty earlyRun = some w ∧ w.log = e :: before ∧
      e.frameOn? 0 = some (.notification someLive) ∧ before.any (·.introduces 0) = false :=
    ⟨_, _, _, rfl, rfl, rfl, rfl⟩
  refine ⟨w, .of_run hrun, fun hfirst => ?_⟩
  rw [hlog] at hfirst
  rcases (Each.cons_iff.mp hfirst).1 _ hlive with hback | hback
  · cases hback
  · simp [hnone] at hback

end RealtimeNotify.App
