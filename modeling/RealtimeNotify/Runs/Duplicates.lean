import RealtimeNotify.Runs.Acknowledgement
import RealtimeNotify.Runs.Sockets

/-!
# How often a notification is sent

A message waits on a channel, is in the hand of the subscriber, or was written
to a socket, once. A session is sent its backlog once. Nothing compares the two:
a notification that is in the backlog and in a message goes out twice.
-/

namespace RealtimeNotify.App

open RealtimeNotify.Lib RealtimeNotify.Python

variable {env : Env} {w w' : World} {a : Action} {i : String} {k : UUID} {n : Nat}

/-! ## Messages on their way -/

def LiveNotification.isFor (k : UUID) (x : LiveNotification) : Bool := x.notificationId = k.str

/-- The messages for `k` on the channel of `i`. -/
def Shared.queued (s : Shared) (i : String) (k : UUID) : Nat :=
  ((s.channels (instanceChannel i)).getD []).countP (·.notification.isFor k)

/-- The messages for `k` in the hand of a subscriber. -/
def SubscriberPc.held (k : UUID) : SubscriberPc → Nat
  | delivering message => (message.notification.isFor k).toNat
  | sending _ _ (.notification live) => (live.isFor k).toNat
  | _ => 0

def World.held (w : World) (i : String) (k : UUID) : Nat :=
  match w.processes i with
  | some p => p.subscriber.held k
  | none => 0

def Op.publishesTo (i : String) (k : UUID) : Op → Bool
  | .publish j _ x => j = i && x.isFor k
  | _ => false

def Op.sendsLive (k : UUID) : Op → Bool
  | .send _ (.notification live) => live.isFor k
  | _ => false

def Event.publishesTo (i : String) (k : UUID) (e : Event) : Bool :=
  e.what.effect.any (·.publishesTo i k)

/-- The subscriber of `i` wrote a live notification for `k` to a socket. -/
def Event.deliveredBy (i : String) (k : UUID) (e : Event) : Bool :=
  e.task = .subscriber i && e.what.effect.any (·.sendsLive k)

/-- No message comes from nowhere, and none is kept when it goes on. -/
def Conserved (i : String) (k : UUID) (w : World) : Prop :=
  w.shared.queued i k + w.held i k + w.log.countP (·.deliveredBy i k)
    ≤ w.log.countP (·.publishesTo i k)

theorem countP_cons_toNat {α : Type} {p : α → Bool} {x : α} {xs : List α} :
    (x :: xs).countP p = xs.countP p + (p x).toNat := by
  cases hx : p x <;> simp [hx]

theorem Shared.queued_setChannel {s : Shared} {j : String} {queue : Option (List PubSubMessage)} :
    (s.setChannel j queue).queued i k =
      if i = j then (queue.getD []).countP (·.notification.isFor k) else s.queued i k := by
  by_cases hij : i = j
  · simp [queued, setChannel, hij]
  · simp [queued, setChannel, hij]

/-- A channel gets longer by a publication only. -/
theorem Shared.exec_queued {s sh : Shared} {op : Op} {c : Choice} {reply : op.Reply}
    (h : s.exec op c = some (sh, reply)) :
    sh.queued i k ≤ s.queued i k + (op.publishesTo i k).toNat := by
  cases exec_channels h with
  | kept hsame =>
    have hq : sh.queued i k = s.queued i k := by rw [queued, queued, hsame]
    omega
  | @published j u x hpub =>
    rw [hpub, publish]
    split
    · rename_i queue hqueue
      rw [queued_setChannel]
      by_cases hij : i = j
      · subst hij
        simp [queued, hqueue, Op.publishesTo, List.countP_append, countP_cons_toNat]
      · simp [hij]
    · exact Nat.le_add_right _ _
  | subscribed hsub =>
    rw [hsub, queued_setChannel]
    split
    · simp
    · exact Nat.le_add_right _ _
  | @taken j message queue hq htake =>
    rw [htake, queued_setChannel]
    split
    · rename_i hij
      subst hij
      have htail : queue.countP (·.notification.isFor k)
          ≤ (message :: queue).countP (·.notification.isFor k) :=
        (List.sublist_cons_self message queue).countP_le
      simp only [queued, hq, Option.getD_some]
      omega
    · exact Nat.le_add_right _ _
  | unsubscribed hun =>
    rw [hun, queued_setChannel]
    split
    · simp
    · exact Nat.le_add_right _ _

/-- What a subscriber does with a message: it takes it, looks for the socket,
writes to it or lets it go. -/
theorem SubscriberPc.flow {s sh : Shared} {pc pc' : SubscriberPc} {o : Outcome Choice}
    {e : Happened Op Op.Reply} (h : Advances semantics s (pc.next i) o sh pc' e) :
    sh.queued i k + pc'.held k + (e.effect.any (·.sendsLive k)).toNat
        ≤ s.queued i k + pc.held k ∧ e.effect.any (·.publishesTo i k) = false := by
  cases pc with
  | listening =>
    have htaken : ∀ {c message}, s.exec (.nextMessage i) c = some (sh, message) →
        sh.queued i k + (delivering message).held k = s.queued i k := by
      intro c message hx
      obtain ⟨queue, hq, rfl⟩ := Shared.exec_nextMessage hx
      rw [Shared.queued_setChannel, if_pos rfl]
      simp [Shared.queued, hq, held, countP_cons_toNat]
    cases h with
    | @returned _ _ _ c _ message hn hx =>
      cases hn
      have := htaken (c := c) hx
      refine ⟨?_, rfl⟩
      show _ + (delivering message).held k + 0 ≤ _ + 0
      omega
    | raised hn _ =>
      cases hn
      exact ⟨by simp [Happened.effect, held], rfl⟩
    | @applied _ _ _ c _ message hn _ hx =>
      -- the message is off the channel and in nobody's hands
      cases hn
      have := htaken (c := c) hx
      refine ⟨?_, rfl⟩
      show _ + 0 + 0 ≤ _ + 0
      omega
  | delivering message =>
    cases h with
    | @returned _ _ _ c _ socket hn hx =>
      cases hn
      obtain ⟨rfl, -⟩ := Shared.exec_getSocket (c := c) hx
      refine ⟨?_, rfl⟩
      cases socket <;> simp [Happened.effect, Op.sendsLive, held]
    | raised hn hf | applied hn hf _ =>
      cases hn
      cases hf
  | sending u m frame =>
    cases h with
    | returned hn hx | applied hn _ hx =>
      -- the one step that sends, and with it the message is let go
      cases hn
      obtain ⟨rfl, -⟩ := by simpa [semantics, Shared.exec] using hx
      refine ⟨?_, rfl⟩
      cases frame <;> simp [Happened.effect, Op.sendsLive, held]
    | raised hn _ =>
      cases hn
      exact ⟨by simp [Happened.effect, held], rfl⟩
  | dropping u m =>
    cases h with
    | returned hn hx =>
      cases hn
      obtain ⟨rfl, -⟩ := by simpa [semantics, Shared.exec] using hx
      refine ⟨?_, rfl⟩
      simp [Happened.effect, Op.sendsLive, held, Shared.queued, Shared.setConnections]
    | raised hn hf | applied hn hf _ =>
      cases hn
      cases hf
  | dead =>
    cases h with
    | returned hn _ | raised hn _ | applied hn _ _ => cases hn

theorem Stepped.held_le (h : Stepped env w a w') (ha : ∀ o, a ≠ .task (.subscriber i) o) :
    w'.held i k ≤ w.held i k := by
  unfold World.held
  cases hp' : w'.processes i with
  | none => exact Nat.zero_le _
  | some p' =>
    cases h.process_cases hp' with
    | same hp => rw [hp]
    | new _ _ _ => exact Nat.zero_le _
    | lifespan hp _ _ _ _ | liveness hp _ _ _ _ => rw [hp]
    | subscriber _ hown _ _ _ _ => exact absurd hown (ha _)

theorem Conserved.step (h : Conserved i k w) (hstep : Stepped env w a w') :
    Conserved i k w' := by
  unfold Conserved at *
  by_cases ha : ∃ o, a = .task (.subscriber i) o
  · obtain ⟨o, rfl⟩ := ha
    cases hstep with
    | @subscriber _ p _ sh pc e hp _ hadv =>
      obtain ⟨hflow, hpub⟩ := SubscriberPc.flow (k := k) hadv
      have hheld : w.held i k = p.subscriber.held k := by simp [World.held, hp]
      have hdone : Event.deliveredBy i k ⟨w.shared.now, .subscriber i, e⟩
          = e.effect.any (·.sendsLive k) := by simp [Event.deliveredBy]
      have hnone : Event.publishesTo i k ⟨w.shared.now, .subscriber i, e⟩ = false := hpub
      simp only [World.held, World.setProcess, Function.update_self, countP_cons_toNat, hdone,
        hnone]
      rw [hheld] at h
      show _ ≤ _ + 0
      omega
  · -- no other task delivers from this channel, and what it publishes counts on both sides
    have hheld := hstep.held_le (k := k) (not_exists.mp ha)
    have hother : ∀ {j}, (∃ o, a = .task j o) → j ≠ .subscriber i := by
      rintro j ⟨o, rfl⟩ rfl
      exact ha ⟨o, rfl⟩
    have heffect : ∀ {j op c sh} {reply : op.Reply} {what : Happened Op Op.Reply},
        j ≠ .subscriber i → w.shared.exec op c = some (sh, reply) → what.effect = some op →
        sh.queued i k + w'.held i k +
          List.countP (·.deliveredBy i k) (⟨w.shared.now, j, what⟩ :: w.log) ≤
            List.countP (·.publishesTo i k) (⟨w.shared.now, j, what⟩ :: w.log) := by
      intro j op c sh reply what hj hx heff
      have hdone : Event.deliveredBy i k ⟨w.shared.now, j, what⟩ = false := by
        simp [Event.deliveredBy, hj]
      have hpub : Event.publishesTo i k ⟨w.shared.now, j, what⟩ = op.publishesTo i k := by
        simp [Event.publishesTo, heff]
      have hqueued := Shared.exec_queued hx (i := i) (k := k)
      rw [countP_cons_toNat, countP_cons_toNat, hdone, hpub]
      show _ + _ + (_ + 0) ≤ _
      omega
    obtain ⟨sh, log, hsh, hlog, ht⟩ := hstep.touched
    rw [hsh, hlog]
    cases ht with
    | tick | expireDedup | started _ =>
      show w.shared.queued i k + _ + _ ≤ _
      omega
    | @crash j =>
      have hle : ((w.shared.setChannel j none).setConnections j []).queued i k
          ≤ w.shared.queued i k := by
        show (w.shared.setChannel j none).queued i k ≤ _
        rw [Shared.queued_setChannel]
        split <;> simp
      omega
    | @raised j op _ _ =>
      have hdone : Event.deliveredBy i k ⟨w.shared.now, j, .raised op false⟩ = false := by
        simp [Event.deliveredBy, hother ⟨_, rfl⟩]
      have hnone : Event.publishesTo i k ⟨w.shared.now, j, .raised op false⟩ = false := rfl
      rw [countP_cons_toNat, countP_cons_toNat, hdone, hnone]
      show _ + _ + (_ + 0) ≤ _ + 0
      omega
    | returned _ hx => exact heffect (hother ⟨_, rfl⟩) hx rfl
    | applied _ _ hx => exact heffect (hother ⟨_, rfl⟩) hx rfl

/-- In every run. -/
theorem Conserved.of_reachable (h : Reachable env w) (i : String) (k : UUID) :
    Conserved i k w :=
  h.invariant (Nat.le_refl 0) fun _ _ ih hstep => ih.step (World.stepped hstep)

/-! ## Sockets and their instances -/

/-- Session `n` is one of `i`. -/
def World.homeOf (w : World) (n : Nat) (i : String) : Prop :=
  ∃ s, w.sessions n = some s ∧ s.instanceId = i

/-- A socket is written to by its session and by the subscriber of its instance,
by the latter with live notifications only, and no one else writes those. -/
structure Homes (w : World) : Prop where
  connection : ∀ i u n, (w.shared.connections i).get u = some n → w.homeOf n i
  subscriber : ∀ i p u n frame, w.processes i = some p → p.subscriber = .sending u n frame →
    w.homeOf n i ∧ ∃ live, frame = .notification live
  sent : ∀ e ∈ w.log, ∀ n live, e.frameOn? n = some (.notification live) →
    ∃ i, w.homeOf n i ∧ e.task = .subscriber i

theorem Stepped.homeOf (h : Stepped env w a w') (hn : w.homeOf n i) : w'.homeOf n i := by
  obtain ⟨s, hs, rfl⟩ := hn
  obtain ⟨s', hs', hi, -⟩ := h.session_course hs
  exact ⟨s', hs', hi⟩

theorem Homes.connection_step (h : Homes w) (hstep : Stepped env w a w') {u : String}
    (hget : (w'.shared.connections i).get u = some n) : w'.homeOf n i := by
  apply hstep.homeOf
  cases hstep.map_cases i u with
  | kept hsame => exact h.connection i u n (hsame ▸ hget)
  | added _ hs hi _ hnew =>
    obtain rfl := Option.some.inj (hnew.symm.trans hget)
    exact ⟨_, hs, hi⟩
  | removed _ _ _ hnone | crashed _ hnone =>
    rw [hnone] at hget
    cases hget

theorem Homes.subscriber_step (h : Homes w) (hstep : Stepped env w a w') {p' : Process}
    {u : String} {frame : Frame} (hp' : w'.processes i = some p')
    (hpc : p'.subscriber = .sending u n frame) :
    w'.homeOf n i ∧ ∃ live, frame = .notification live := by
  rcases hstep.sending_cases hp' hpc with
    ⟨p, hp, hsending⟩ | ⟨message, -, -, -, hsocket, rfl⟩
  · obtain ⟨hhome, hlive⟩ := h.subscriber i p u n frame hp hsending
    exact ⟨hstep.homeOf hhome, hlive⟩
  · exact ⟨hstep.homeOf (h.connection i _ _ hsocket), _, rfl⟩

theorem Homes.sent_step (h : Homes w) (hr : Routed w) (hstep : Stepped env w a w') {e : Event}
    (he : e ∈ w'.log) {live : LiveNotification}
    (hlive : e.frameOn? n = some (.notification live)) :
    ∃ i, w'.homeOf n i ∧ e.task = .subscriber i := by
  have heff := Event.frameOn_eq_some.mp hlive
  rcases hstep.effect_cases he heff with he | haw
  · obtain ⟨i, hi, htask⟩ := h.sent e he n live hlive
    exact ⟨i, hstep.homeOf hi, htask⟩
  · generalize e.task = id at haw
    cases World.sendCaller haw with
    | respond hs hpc =>
      -- the router answers with no notification in the frame
      have hplain := hr.session _ _ hs
      rw [hpc] at hplain
      cases hplain
    | live hp hpc => exact ⟨_, hstep.homeOf (h.subscriber _ _ _ _ _ hp hpc).1, rfl⟩

theorem Homes.of_reachable (h : Reachable env w) : Homes w := by
  refine h.invariant ?_ fun hreach _ ih hstep => ?_
  · constructor <;> simp [platform, World.empty]
  · have hstepped := World.stepped hstep
    exact ⟨fun _ _ _ => ih.connection_step hstepped,
      fun _ _ _ _ _ => ih.subscriber_step hstepped,
      fun _ he _ _ => ih.sent_step (Routed.of_reachable hreach) hstepped he⟩

/-- A live notification for `k` was written to socket `n`. -/
def Event.delivers (n : Nat) (k : UUID) (e : Event) : Bool :=
  match e.frameOn? n with
  | some (.notification live) => live.isFor k
  | _ => false

theorem Event.publishes_of_publishesTo {e : Event} (h : e.publishesTo i k = true) :
    e.publishes k = true := by
  unfold publishesTo at h
  unfold publishes publication?
  cases heff : e.what.effect with
  | none => simp [heff] at h
  | some op =>
    rw [heff] at h
    cases op with
    | publish j u x =>
      simp only [Option.any_some, Op.publishesTo, Bool.and_eq_true] at h
      simp only [Option.any_some]
      exact h.2
    | _ => cases h

/-- One message for an id, and one frame for a message. -/
theorem delivers_at_most_once (h : Reachable env w) (n : Nat) (k : UUID) :
    w.log.countP (·.delivers n k) ≤ 1 := by
  have hhomes := Homes.of_reachable h
  have hlive : ∀ e ∈ w.log, e.delivers n k = true → ∃ live,
      e.frameOn? n = some (.notification live) ∧ live.isFor k = true := by
    intro e _ hd
    unfold Event.delivers at hd
    split at hd
    · rename_i live hframe
      exact ⟨live, hframe, hd⟩
    · cases hd
  by_cases hhome : ∃ i, w.homeOf n i
  · obtain ⟨i, s, hs, hi⟩ := hhome
    have hby : w.log.countP (·.delivers n k) ≤ w.log.countP (·.deliveredBy i k) := by
      refine List.countP_mono_left fun e he hd => ?_
      obtain ⟨live, hframe, hfor⟩ := hlive e he hd
      obtain ⟨j, ⟨s', hs', hj⟩, htask⟩ := hhomes.sent e he n live hframe
      obtain rfl := Option.some.inj (hs.symm.trans hs')
      simp [Event.deliveredBy, htask, ← hi, ← hj, Event.frameOn_eq_some.mp hframe, Op.sendsLive,
        hfor]
    have hpub : w.log.countP (·.publishesTo i k) ≤ publications k w.log := by
      exact List.countP_mono_left fun e _ hp => Event.publishes_of_publishesTo hp
    have hconserved := Conserved.of_reachable h i k
    have honce := (Books.of_reachable h).once k
    unfold Conserved at hconserved
    omega
  · have hnone : w.log.countP (·.delivers n k) = 0 := by
      rw [List.countP_eq_zero]
      intro e he hd
      obtain ⟨live, hframe, -⟩ := hlive e he hd
      obtain ⟨i, hi, -⟩ := hhomes.sent e he n live hframe
      exact hhome ⟨i, hi⟩
    omega

/-! ## One backlog a session -/

theorem Event.introduces_iff {e : Event} :
    e.introduces n = true ↔ ∃ rows, e.what.effect = some (.send n (.backlog rows)) := by
  constructor
  · intro h
    unfold introduces at h
    cases hframe : e.frameOn? n with
    | none => simp [hframe] at h
    | some frame =>
      rw [hframe] at h
      cases frame with
      | backlog rows => exact ⟨rows, Event.frameOn_eq_some.mp hframe⟩
      | _ => cases h
  · intro ⟨rows, heff⟩
    rw [introduces, Event.frameOn_eq_some.mpr heff]
    rfl

/-- Only the session itself sends a backlog, once its query was answered. -/
theorem World.backlogCaller (hr : Routed w) (hh : Homes w) {id : TaskId}
    {rows : List NotificationEnvelope} (h : w.awaits env id = some (.send n (.backlog rows))) :
    id = .session n ∧ ∃ s u ns, w.sessions n = some s ∧ s.pc = .backlogSend u ns ∧
      rows = ns.map (·.envelope) := by
  generalize hop : Frame.backlog rows = frame at h
  cases World.sendCaller h with
  | @backlog _ s u ns hs hpc =>
    obtain rfl := Frame.backlog.inj hop
    exact ⟨rfl, s, u, ns, hs, hpc, rfl⟩
  | respond hs hpc =>
    have hplain := hr.session _ _ hs
    rw [hpc, ← hop] at hplain
    cases hplain
  | live hp hpc =>
    obtain ⟨-, live, hlive⟩ := hh.subscriber _ _ _ _ _ hp hpc
    cases hop.trans hlive

/-- The backlog is still to be sent. -/
def GatewayPc.beforeBacklog : GatewayPc → Bool
  | redeem _ | accept _ | add _ | register _ | markOnline _ | onlineSeen _ | backlogQuery _ _
  | backlogSend _ _ => true
  | _ => false

theorem GatewayPc.not_before_of_leaving {pc : GatewayPc} (h : pc.leaving = true) :
    pc.beforeBacklog = false := by
  cases pc <;> simp_all [leaving, beforeBacklog]

theorem GatewayPc.before_resume {i c : String} {pc r : GatewayPc} {op : Op}
    {f : op.Reply → GatewayPc} {reply : op.Reply} (h : pc.next env n i c = .call op f r)
    (hb : (f reply).beforeBacklog = true) :
    pc.beforeBacklog = true ∧ ∀ m rows, op ≠ .send m (.backlog rows) := by
  cases pc with
  | backlogSend _ _ =>
    cases h
    cases hb
  | receive _ =>
    cases h
    cases reply <;> cases hb
  | allow u fields =>
    cases h
    have hloop : (routed env u fields).beforeBacklog = false := by
      unfold routed
      split <;> try rfl
      split <;> rfl
    cases reply with
    | false => cases hb
    | true =>
      simp only [if_true, hloop] at hb
      cases hb
  | redeem _ | accept _ | add _ | register _ | markOnline _ | onlineSeen _ | backlogQuery _ _ =>
    cases h
    exact ⟨rfl, by simp⟩
  | ended => cases h
  | _ =>
    cases h
    cases hb

structure BacklogOnce (w : World) : Prop where
  task : ∀ e ∈ w.log, ∀ n, e.introduces n = true → e.task = .session n
  fresh : ∀ n, (∀ s, w.sessions n = some s → s.pc.beforeBacklog = true) →
    ∀ e ∈ w.log, e.introduces n = false
  once : ∀ n, Each (fun e before => e.introduces n = true →
    ∀ e' ∈ before, e'.introduces n = false) w.log

theorem BacklogOnce.task_step (h : BacklogOnce w) (hr : Routed w) (hh : Homes w)
    (hstep : Stepped env w a w') {e : Event} (he : e ∈ w'.log) (hi : e.introduces n = true) :
    e.task = .session n := by
  obtain ⟨rows, heff⟩ := Event.introduces_iff.mp hi
  rcases hstep.effect_cases he heff with he | haw
  · exact h.task e he n hi
  · exact (World.backlogCaller hr hh haw).1

theorem BacklogOnce.fresh_step (h : BacklogOnce w) (hr : Routed w) (hh : Homes w)
    (hstep : Stepped env w a w')
    (hbefore : ∀ s, w'.sessions n = some s → s.pc.beforeBacklog = true) {e : Event}
    (he : e ∈ w'.log) : e.introduces n = false := by
  by_contra hi
  have hi : e.introduces n = true := by simpa using hi
  have htask := h.task_step hr hh hstep he hi
  by_cases ha : ∃ o, a = .task (.session n) o
  · obtain ⟨o, rfl⟩ := ha
    cases hstep with
    | @session _ s _ sh pc ev hs hadv =>
      have hpc : pc.beforeBacklog = true := hbefore { s with pc } (by simp [World.setSession])
      have hold : s.pc.beforeBacklog = true → e ∈ w.log → False := by
        intro hb hmem
        have hnone := h.fresh n (fun s' hs' => Option.some.inj (hs.symm.trans hs') ▸ hb) e hmem
        simp [hi] at hnone
      cases hadv with
      | returned hn _ =>
        obtain ⟨hb, hop⟩ := GatewayPc.before_resume hn hpc
        rcases List.mem_cons.mp he with rfl | he
        · obtain ⟨rows, heff⟩ := Event.introduces_iff.mp hi
          exact hop n rows (Option.some.inj heff)
        · exact hold hb he
      | raised hn _ | applied hn _ _ =>
        rw [GatewayPc.not_before_of_leaving (GatewayPc.leaving_raised hn)] at hpc
        cases hpc
  · have hmem := hstep.mem_of_task (not_exists.mp ha) he htask
    have hnone := h.fresh n (fun s hs => ?_) e hmem
    · simp [hi] at hnone
    · obtain ⟨s', hs', hmove⟩ := hstep.session_move hs
      have hb := hbefore s' hs'
      cases hmove with
      | same _ _ => exact hb
      | killed _ _ => cases hb
      | moved hown _ _ _ => exact absurd ⟨_, hown⟩ ha

theorem BacklogOnce.once_step (h : BacklogOnce w) (hr : Routed w) (hh : Homes w)
    (hstep : Stepped env w a w') : Each (fun e before => e.introduces n = true →
      ∀ e' ∈ before, e'.introduces n = false) w'.log := by
  have hnew : ∀ {e : Event}, w'.log = e :: w.log → e.introduces n = true →
      ∀ e' ∈ w.log, e'.introduces n = false := by
    intro e hlog hi
    obtain ⟨rows, heff⟩ := Event.introduces_iff.mp hi
    obtain ⟨-, s, u, ns, hs, hpc, -⟩ := World.backlogCaller hr hh (hstep.head_effect hlog heff)
    refine h.fresh n fun s' hs' => ?_
    obtain rfl := Option.some.inj (hs.symm.trans hs')
    rw [hpc]
    rfl
  rcases hstep.log_cases with hlog | ⟨e, hlog⟩
  · rw [hlog]
    exact h.once n
  · rw [hlog]
    exact Each.cons_iff.mpr ⟨hnew hlog, h.once n⟩

theorem BacklogOnce.of_reachable (h : Reachable env w) : BacklogOnce w := by
  refine h.invariant ?_ fun hreach _ ih hstep => ?_
  · constructor <;> simp [platform, World.empty]
  · have hstepped := World.stepped hstep
    have hr := Routed.of_reachable hreach
    have hh := Homes.of_reachable hreach
    exact ⟨fun _ he _ => ih.task_step hr hh hstepped he,
      fun _ hb _ he => ih.fresh_step hr hh hstepped hb he,
      fun _ => ih.once_step hr hh hstepped⟩

/-! ## What the backlog has -/

/-- Session `n` was answered these rows. -/
def Event.answers (n : Nat) (rows : List Notification) (q : Event) : Prop :=
  q.task = .session n ∧ ∃ u limit, q.what = .returned (.getUnreadBacklog u limit) rows

/-- A backlog frame has what the query was answered: distinct rows, each inserted
before it. -/
structure Queried (w : World) : Prop where
  inHand : ∀ n s u rows, w.sessions n = some s → s.pc = .backlogSend u rows →
    ∃ q ∈ w.log, q.answers n rows
  sent : ∀ e ∈ w.log, ∀ n rows, e.what.effect = some (.send n (.backlog rows)) →
    ∃ q ∈ w.log, ∃ ns, q.answers n ns ∧ rows = ns.map (·.envelope)
  answers : Each (fun q before => ∀ n rows, q.answers n rows →
    (rows.map (·.notificationId)).Nodup ∧
      ∀ row ∈ rows, before.any (·.creates row.notificationId) = true) w.log

theorem GatewayPc.query_of_send {i c u : String} {pc r : GatewayPc} {op : Op}
    {f : op.Reply → GatewayPc} {reply : op.Reply} {rows : List Notification}
    (h : pc.next env n i c = .call op f r) (hr : f reply = backlogSend u rows) :
    ∃ v limit, (Happened.returned op reply : Happened Op Op.Reply)
      = .returned (.getUnreadBacklog v limit) rows := by
  cases pc with
  | redeem _ | receive _ =>
    cases h
    cases reply <;> cases hr
  | onlineSeen v =>
    cases h
    cases hv : UUID.ofString v <;> simp [hv] at hr
  | backlogQuery v id =>
    cases h
    obtain ⟨-, rfl⟩ := GatewayPc.backlogSend.inj hr
    exact ⟨_, _, rfl⟩
  | allow v fields =>
    cases h
    have hb : (routed env v fields).beforeBacklog = false := by
      unfold routed
      split <;> try rfl
      split <;> rfl
    cases reply with
    | false => cases hr
    | true =>
      simp only [if_true] at hr
      rw [hr] at hb
      cases hb
  | ended => cases h
  | _ =>
    cases h
    cases hr

theorem Queried.inHand_step (h : Queried w) (hstep : Stepped env w a w') {s' : Session} {u : String}
    {rows : List Notification} (hs' : w'.sessions n = some s') (hpc : s'.pc = .backlogSend u rows) :
    ∃ q ∈ w'.log, q.answers n rows := by
  cases hstep.session_cases hs' with
  | same hs _ _ =>
    obtain ⟨q, hq, hans⟩ := h.inHand n s' u rows hs hpc
    exact ⟨q, hstep.log_subset hq, hans⟩
  | new _ _ _ _ => cases hpc
  | killed _ _ _ => cases hpc
  | @moved _ _ _ pc _ _ _ hadv _ hlog =>
    cases hadv with
    | returned hn _ =>
      obtain ⟨v, limit, hwhat⟩ := GatewayPc.query_of_send hn hpc
      exact ⟨_, by rw [hlog]; exact List.mem_cons_self .., rfl, v, limit, hwhat⟩
    | raised hn _ | applied hn _ _ =>
      obtain rfl : pc = .backlogSend u rows := hpc
      have hl := GatewayPc.leaving_raised hn
      cases hl

theorem Queried.sent_step (h : Queried w) (hr : Routed w) (hh : Homes w)
    (hstep : Stepped env w a w') {e : Event} (he : e ∈ w'.log) {rows : List NotificationEnvelope}
    (heff : e.what.effect = some (.send n (.backlog rows))) :
    ∃ q ∈ w'.log, ∃ ns, q.answers n ns ∧ rows = ns.map (·.envelope) := by
  rcases hstep.effect_cases he heff with he | haw
  · obtain ⟨q, hq, hans⟩ := h.sent e he n rows heff
    exact ⟨q, hstep.log_subset hq, hans⟩
  · obtain ⟨-, s, u, ns, hs, hpc, hrows⟩ := World.backlogCaller hr hh haw
    obtain ⟨q, hq, hans⟩ := h.inHand n s u ns hs hpc
    exact ⟨q, hstep.log_subset hq, ns, hans, hrows⟩

theorem Shared.exec_backlog_nodup {s sh : Shared} {u : UUID} {limit : Nat} {c : Choice}
    {rows : List Notification} (h : s.exec (.getUnreadBacklog u limit) c = some (sh, rows))
    (hdb : s.db.ids.Nodup) : (rows.map (·.notificationId)).Nodup := by
  cases c with
  | tie tie =>
    simp only [exec, Option.some.injEq, Prod.mk.injEq] at h
    obtain ⟨-, rfl⟩ := h
    have hsub : ((NotificationRepository.unread s.db u).map (·.notificationId)).Nodup :=
      hdb.sublist (List.filter_sublist.map _)
    have hperm : (orderBy (·.createdAt.instant) (fun row : Notification => tie row.notificationId)
        (NotificationRepository.unread s.db u)).Perm (NotificationRepository.unread s.db u) :=
      orderBy_perm
    exact ((hperm.map _).nodup_iff.mpr hsub).sublist ((List.take_sublist _ _).map _)
  | _ => simp [exec] at h

theorem Queried.answers_step (h : Queried w) (hb : Books w) (ha : Answered w)
    (hstep : Stepped env w a w') : Each (fun q before => ∀ n rows, q.answers n rows →
      (rows.map (·.notificationId)).Nodup ∧
        ∀ row ∈ rows, before.any (·.creates row.notificationId) = true) w'.log := by
  obtain ⟨sh, log, -, hlog, ht⟩ := hstep.touched
  rw [hlog]
  cases ht with
  | tick | expireDedup | crash | started _ => exact h.answers
  | raised _ _ | applied _ _ _ =>
    refine Each.cons_iff.mpr ⟨fun n rows hans => ?_, h.answers⟩
    obtain ⟨-, u, limit, hwhat⟩ := hans
    cases hwhat
  | @returned _ _ c _ _ _ hx =>
    refine Each.cons_iff.mpr ⟨fun n rows hans => ?_, h.answers⟩
    obtain ⟨-, u, limit, hwhat⟩ := hans
    cases hwhat
    refine ⟨Shared.exec_backlog_nodup (c := c) hx hb.ids, fun row hrow => ?_⟩
    obtain ⟨-, hrows⟩ := Shared.exec_backlog (c := c) hx
    have hmem : row.notificationId ∈ w.shared.db.ids := by
      rw [← Notification.envelope_notificationId]
      exact Database.mem_ids_of_mem_envelopes (hrows row hrow).1
    obtain ⟨m, e, before, hsuf, -, hcreates, -⟩ := ha.persisted _ hmem
    exact List.any_eq_true.mpr ⟨e, hsuf.subset (List.mem_cons_self ..), hcreates⟩

theorem Queried.of_reachable (h : Reachable env w) : Queried w := by
  refine h.invariant ?_ fun hreach _ ih hstep => ?_
  · constructor <;> simp [platform, World.empty]
  · have hstepped := World.stepped hstep
    exact ⟨fun _ _ _ _ => ih.inHand_step hstepped,
      fun _ he _ _ => ih.sent_step (Routed.of_reachable hreach) (Homes.of_reachable hreach)
        hstepped he,
      ih.answers_step (Books.of_reachable hreach) (Answered.of_reachable hreach) hstepped⟩

/-! ## Twice at most -/

/-- How often the backlog frame an event put on socket `n` has `k`. -/
def Event.listed (n : Nat) (k : UUID) (e : Event) : Nat :=
  match e.frameOn? n with
  | some (.backlog rows) => rows.countP (·.notificationId = k)
  | _ => 0

/-- How often `k` was sent on socket `n`, in backlog frames and live. -/
def sendings (n : Nat) (k : UUID) (log : List Event) : Nat :=
  (log.map (·.listed n k)).sum + log.countP (·.delivers n k)

/-- The first insertion with the id `k` comes after the query of session `n`. -/
def InsertedLate (n : Nat) (k : UUID) (log : List Event) : Prop :=
  Each (fun q before => ∀ rows, q.answers n rows → before.any (·.creates k) = false) log

/-- What is sent on socket `n` of one notification. -/
structure SentTwiceAtMost (n : Nat) (k : UUID) (log : List Event) : Prop where
  backlog : (log.map (·.listed n k)).sum ≤ 1
  live : log.countP (·.delivers n k) ≤ 1
  late : InsertedLate n k log → sendings n k log ≤ 1

theorem sum_le_countP {α : Type} {f : α → Nat} {p : α → Bool} {xs : List α}
    (h : ∀ x ∈ xs, f x ≤ (p x).toNat) : (xs.map f).sum ≤ xs.countP p := by
  induction xs with
  | nil => simp
  | cons x xs ih =>
    have hx := h x (List.mem_cons_self ..)
    have hxs := ih fun y hy => h y (List.mem_cons_of_mem _ hy)
    rw [List.map_cons, List.sum_cons, countP_cons_toNat]
    omega

theorem Event.listed_eq {e : Event} {rows : List NotificationEnvelope}
    (h : e.what.effect = some (.send n (.backlog rows))) :
    e.listed n k = rows.countP (·.notificationId = k) := by
  rw [listed, Event.frameOn_eq_some.mpr h]

theorem Event.listed_eq_zero {e : Event} (h : e.introduces n = false) : e.listed n k = 0 := by
  unfold listed
  split
  · rename_i rows hframe
    have hi : e.introduces n = true :=
      Event.introduces_iff.mpr ⟨rows, Event.frameOn_eq_some.mp hframe⟩
    simp [hi] at h
  · rfl

/-- The rows of one backlog frame. -/
theorem Queried.frame (h : Queried w) {e : Event} (he : e ∈ w.log)
    (hi : e.introduces n = true) : ∃ q before ns, q :: before <:+ w.log ∧ q.answers n ns ∧
      e.listed n k = (ns.map (·.notificationId)).count k := by
  obtain ⟨rows, heff⟩ := Event.introduces_iff.mp hi
  obtain ⟨q, hq, ns, hans, rfl⟩ := h.sent e he n rows heff
  obtain ⟨later, before, hlog⟩ := List.append_of_mem hq
  refine ⟨q, before, ns, ⟨later, hlog.symm⟩, hans, ?_⟩
  rw [Event.listed_eq heff, List.count, List.countP_map, List.countP_map]
  exact List.countP_congr fun row _ => by
    rw [Function.comp_apply, Function.comp_apply, Notification.envelope_notificationId,
      beq_eq_decide]

/-- On the socket of a session a notification is sent once in the backlog and
once live, at most, and once in all if it was inserted after the query. -/
theorem sent_twice_at_most (h : Reachable env w) (n : Nat) (k : UUID) :
    SentTwiceAtMost n k w.log := by
  have hq := Queried.of_reachable h
  have honce := ((BacklogOnce.of_reachable h).once n).countP_le_one
  have hlisted : ∀ e ∈ w.log, e.listed n k ≤ (e.introduces n).toNat := by
    intro e he
    cases hi : e.introduces n with
    | false => rw [Event.listed_eq_zero hi]; exact Nat.zero_le _
    | true =>
      obtain ⟨q, before, ns, hsuf, hans, hcount⟩ := hq.frame (k := k) he hi
      rw [hcount]
      exact List.nodup_iff_count_le_one.mp (hq.answers q before hsuf n ns hans).1 k
  have hbacklog : (w.log.map (·.listed n k)).sum ≤ 1 := (sum_le_countP hlisted).trans honce
  have hlive := delivers_at_most_once h n k
  refine ⟨hbacklog, hlive, fun hlate => ?_⟩
  have hnone : (w.log.map (·.listed n k)).sum = 0 := by
    rw [List.sum_eq_zero_iff_forall_eq_nat]
    intro x hx
    obtain ⟨e, he, rfl⟩ := List.mem_map.mp hx
    cases hi : e.introduces n with
    | false => exact Event.listed_eq_zero hi
    | true =>
      obtain ⟨q, before, ns, hsuf, hans, hcount⟩ := hq.frame (k := k) he hi
      rw [hcount, List.count_eq_zero]
      intro hk
      obtain ⟨row, hrow, rfl⟩ := List.mem_map.mp hk
      have hinserted := (hq.answers q before hsuf n ns hans).2 row hrow
      simp [hlate q before hsuf ns hans] at hinserted
  unfold sendings
  omega

theorem sent_twice_at_most_delivery : ∃ w, (platform plainEnv).run .empty deliveryRun = some w ∧
    sendings 0 someBody.notificationId w.log = 1 ∧
    SentTwiceAtMost 0 someBody.notificationId w.log := by
  obtain ⟨w, hrun, hsent⟩ : ∃ w, (platform plainEnv).run .empty deliveryRun = some w ∧
      sendings 0 someBody.notificationId w.log = 1 := ⟨_, rfl, rfl⟩
  exact ⟨w, hrun, hsent, sent_twice_at_most (.of_run hrun) 0 _⟩

/-- The row is committed before the query of the session, and its registration
was before the lookup. -/
def overlappingRun : List Action :=
  Action.startup "a" ++ Action.grant 0 "a" someUser "t0" ++
    .connect 0 "a" "c0" "t0" :: List.replicate 4 (.ok (.session 0)) ++
    Action.submit 0 "a" someBody ++ .insert 0 newYear :: List.replicate 2 (.ok (.session 0)) ++
    .task (.session 0) (.ok (.tie fun _ => 0)) :: .ok (.session 0) ::
    List.replicate 4 (.ok (.request 0)) ++ List.replicate 3 (.ok (.subscriber "a"))

theorem sent_twice : ∃ w, Reachable plainEnv w ∧
    ¬ sendings 0 someBody.notificationId w.log ≤ 1 := by
  obtain ⟨w, hrun, hsent⟩ : ∃ w, (platform plainEnv).run .empty overlappingRun = some w ∧
      sendings 0 someBody.notificationId w.log = 2 := ⟨_, rfl, rfl⟩
  exact ⟨w, .of_run hrun, by omega⟩

end RealtimeNotify.App
