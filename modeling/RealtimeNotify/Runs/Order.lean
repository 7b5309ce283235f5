import RealtimeNotify.Runs.Duplicates

/-!
# In which order notifications arrive

The channel of an instance is a queue and its subscriber one task that takes a message at a
time. Messages may be lost, where the channel goes or a socket fails; none overtakes
another one.
-/

namespace RealtimeNotify.App

open RealtimeNotify.Lib RealtimeNotify.Python

variable {env : Env} {w w' : World} {a : Action} {i : String} {n : Nat}

/-! ## On their way -/

/-- The messages on the channel of `i`, the oldest first. -/
def Shared.queue (s : Shared) (i : String) : List LiveNotification :=
  ((s.channels (instanceChannel i)).getD []).map (·.notification)

/-- The message in the hand of a subscriber. -/
def SubscriberPc.inHand : SubscriberPc → List LiveNotification
  | delivering message => [message.notification]
  | sending _ _ (.notification live) => [live]
  | _ => []

def World.inHand (w : World) (i : String) : List LiveNotification :=
  match w.processes i with
  | some p => p.subscriber.inHand
  | none => []

def Op.toChannel? (i : String) : Op → Option LiveNotification
  | .publish j _ x => if j = i then some x else none
  | _ => none

def Op.live? : Op → Option LiveNotification
  | .send _ (.notification live) => some live
  | _ => none

/-- What an event put on the channel of `i`, or tried to. -/
def Event.toChannel? (i : String) (e : Event) : Option LiveNotification :=
  e.what.effect.bind (·.toChannel? i)

/-- What an event of the subscriber of `i` wrote to a socket. -/
def Event.fromChannel? (i : String) (e : Event) : Option LiveNotification :=
  if e.task = .subscriber i then e.what.effect.bind Op.live? else none

/-- What was published to `i`, the latest first, as the log is. -/
def publishedTo (i : String) (log : List Event) : List LiveNotification :=
  log.filterMap (·.toChannel? i)

/-- What the subscriber of `i` wrote to sockets, the latest first. -/
def writtenBy (i : String) (log : List Event) : List LiveNotification :=
  log.filterMap (·.fromChannel? i)

/-- What waits, what is in hand and what is written come one behind the other in what was
published. -/
def InOrder (i : String) (w : World) : Prop :=
  ((w.shared.queue i).reverse ++ w.inHand i ++ writtenBy i w.log).Sublist (publishedTo i w.log)

/-! ## One step -/

theorem Shared.queue_setChannel {s : Shared} {j : String} {queue : Option (List PubSubMessage)} :
    (s.setChannel j queue).queue i =
      if i = j then (queue.getD []).map (·.notification) else s.queue i := by
  by_cases hij : i = j
  · simp [Shared.queue, setChannel, hij]
  · simp [Shared.queue, setChannel, hij]

/-- An operation of another task adds at the end, or takes all. -/
theorem Shared.exec_queue {s sh : Shared} {op : Op} {c : Choice} {reply : op.Reply}
    (h : s.exec op c = some (sh, reply)) :
    (sh.queue i).reverse.Sublist ((op.toChannel? i).toList ++ (s.queue i).reverse) := by
  cases exec_channels h with
  | kept hsame =>
    have hq : sh.queue i = s.queue i := by rw [Shared.queue, Shared.queue, hsame]
    rw [hq]
    exact List.sublist_append_right ..
  | @published j u x hpub =>
    rw [hpub, publish]
    split
    · rename_i queue hqueue
      rw [queue_setChannel]
      by_cases hij : i = j
      · subst hij
        simp [Shared.queue, hqueue, Op.toChannel?]
      · simp [hij, Op.toChannel?, Ne.symm hij]
    · exact List.sublist_append_right ..
  | subscribed hsub =>
    rw [hsub, queue_setChannel]
    split
    · exact List.nil_sublist _
    · exact List.sublist_append_right ..
  | @taken j message queue hq htake =>
    rw [htake, queue_setChannel]
    split
    · rename_i hij
      subst hij
      simp only [Shared.queue, hq, Option.getD_some, List.map_cons, List.reverse_cons]
      exact (List.sublist_append_left ..).trans (List.sublist_append_right ..)
    · exact List.sublist_append_right ..
  | unsubscribed hun =>
    rw [hun, queue_setChannel]
    split
    · exact List.nil_sublist _
    · exact List.sublist_append_right ..

/-- The subscriber takes the oldest message, and writes what it has in hand or lets it go. -/
theorem SubscriberPc.inHand_flow {s sh : Shared} {pc pc' : SubscriberPc} {o : Outcome Choice}
    {e : Happened Op Op.Reply} (h : Advances semantics s (pc.next i) o sh pc' e) :
    ((sh.queue i).reverse ++ pc'.inHand ++ (e.effect.bind Op.live?).toList).Sublist
        ((s.queue i).reverse ++ pc.inHand) ∧ e.effect.bind (·.toChannel? i) = none := by
  cases pc with
  | listening =>
    -- the head of the queue passes into the hand, or is lost on the way
    have htaken : ∀ {c message}, s.exec (.nextMessage i) c = some (sh, message) →
        s.queue i = message.notification :: sh.queue i := by
      intro c message hx
      obtain ⟨queue, hq, rfl⟩ := Shared.exec_nextMessage hx
      rw [Shared.queue_setChannel, if_pos rfl]
      simp [Shared.queue, hq]
    cases h with
    | @returned _ _ _ c _ message hn hx =>
      cases hn
      refine ⟨?_, rfl⟩
      simp [htaken (c := c) hx, Happened.effect, Op.live?, inHand]
    | raised hn _ =>
      cases hn
      exact ⟨by simp [Happened.effect, inHand], rfl⟩
    | @applied _ _ _ c _ message hn _ hx =>
      cases hn
      refine ⟨?_, rfl⟩
      simp [htaken (c := c) hx, Happened.effect, Op.live?, inHand]
  | delivering message =>
    cases h with
    | @returned _ _ _ c _ socket hn hx =>
      cases hn
      obtain ⟨rfl, -⟩ := Shared.exec_getSocket (c := c) hx
      refine ⟨?_, rfl⟩
      cases socket <;> simp [Happened.effect, Op.live?, inHand]
    | raised hn hf | applied hn hf _ =>
      cases hn
      cases hf
  | sending u m frame =>
    -- written, even where the send then raises; where nothing was written it is lost
    cases h with
    | returned hn hx | applied hn _ hx =>
      cases hn
      obtain ⟨rfl, -⟩ := by simpa [semantics, Shared.exec] using hx
      refine ⟨?_, rfl⟩
      cases frame <;> simp [Happened.effect, Op.live?, inHand]
    | raised hn _ =>
      cases hn
      exact ⟨by simp [Happened.effect, inHand], rfl⟩
  | dropping u m =>
    cases h with
    | returned hn hx =>
      cases hn
      obtain ⟨rfl, -⟩ := by simpa [semantics, Shared.exec] using hx
      refine ⟨?_, rfl⟩
      simp [Happened.effect, Op.live?, inHand, Shared.queue, Shared.setConnections]
    | raised hn hf | applied hn hf _ =>
      cases hn
      cases hf
  | dead =>
    cases h with
    | returned hn _ | raised hn _ | applied hn _ _ => cases hn

theorem Stepped.inHand_sublist (h : Stepped env w a w') (ha : ∀ o, a ≠ .task (.subscriber i) o) :
    (w'.inHand i).Sublist (w.inHand i) := by
  unfold World.inHand
  cases hp' : w'.processes i with
  | none => exact List.nil_sublist _
  | some p' =>
    cases h.process_cases hp' with
    | same hp => rw [hp]
    | new _ _ _ => exact List.nil_sublist _
    | lifespan hp _ _ _ _ | liveness hp _ _ _ _ => rw [hp]
    | subscriber _ hown _ _ _ _ => exact absurd hown (ha _)

theorem publishedTo_cons {e : Event} {log : List Event} :
    publishedTo i (e :: log) = (e.toChannel? i).toList ++ publishedTo i log := by
  cases h : e.toChannel? i <;> simp [publishedTo, h]

theorem writtenBy_cons {e : Event} {log : List Event} :
    writtenBy i (e :: log) = (e.fromChannel? i).toList ++ writtenBy i log := by
  cases h : e.fromChannel? i <;> simp [writtenBy, h]

/-- An event of another task: what it publishes comes last on both sides. -/
theorem InOrder.other_event (h : InOrder i w) {e : Event} {queue hand : List LiveNotification}
    (hother : e.task ≠ .subscriber i)
    (hqueue : queue.Sublist ((e.toChannel? i).toList ++ (w.shared.queue i).reverse))
    (hhand : hand.Sublist (w.inHand i)) :
    (queue ++ hand ++ writtenBy i (e :: w.log)).Sublist (publishedTo i (e :: w.log)) := by
  have hdone : e.fromChannel? i = none := if_neg hother
  rw [publishedTo_cons, writtenBy_cons, hdone, Option.toList_none, List.nil_append]
  refine ((hqueue.append hhand).append_right _).trans ?_
  rw [List.append_assoc, List.append_assoc, ← List.append_assoc (w.shared.queue i).reverse]
  exact h.append_left _

/-- An event of the subscriber itself, which publishes nothing. -/
theorem InOrder.own_event (h : InOrder i w) {p : Process} {o : Outcome Choice} {sh : Shared}
    {pc : SubscriberPc} {e : Happened Op Op.Reply} (hp : w.processes i = some p)
    (hadv : Advances semantics w.shared (p.subscriber.next i) o sh pc e) :
    ((sh.queue i).reverse ++ pc.inHand ++
      writtenBy i (⟨w.shared.now, .subscriber i, e⟩ :: w.log)).Sublist
        (publishedTo i (⟨w.shared.now, .subscriber i, e⟩ :: w.log)) := by
  obtain ⟨hflow, hpub⟩ := SubscriberPc.inHand_flow hadv
  have hhand : w.inHand i = p.subscriber.inHand := by simp [World.inHand, hp]
  have hdone : Event.fromChannel? i ⟨w.shared.now, .subscriber i, e⟩ = e.effect.bind Op.live? :=
    if_pos rfl
  have hnone : Event.toChannel? i ⟨w.shared.now, .subscriber i, e⟩ = none := hpub
  rw [publishedTo_cons, writtenBy_cons, hdone, hnone, Option.toList_none, List.nil_append,
    ← List.append_assoc]
  rw [InOrder, hhand] at h
  exact (hflow.append_right _).trans h

theorem InOrder.step (h : InOrder i w) (hstep : Stepped env w a w') : InOrder i w' := by
  by_cases ha : ∃ o, a = .task (.subscriber i) o
  · obtain ⟨o, rfl⟩ := ha
    cases hstep with
    | @subscriber _ p _ sh pc e hp _ hadv =>
      have hown := h.own_event hp hadv
      rw [InOrder, World.inHand, World.setProcess]
      simpa only [Function.update_self] using hown
  · have hhand := hstep.inHand_sublist (not_exists.mp ha)
    have hother : ∀ {j}, (∃ o, a = .task j o) → j ≠ .subscriber i := by
      rintro j ⟨o, rfl⟩ rfl
      exact ha ⟨o, rfl⟩
    have hsame : ∀ {queue : List LiveNotification}, queue.Sublist (w.shared.queue i).reverse →
        (queue ++ w'.inHand i ++ writtenBy i w.log).Sublist (publishedTo i w.log) :=
      fun hqueue => ((hqueue.append hhand).append_right _).trans h
    obtain ⟨sh, log, hsh, hlog, ht⟩ := hstep.touched
    rw [InOrder, hsh, hlog]
    cases ht with
    | tick | expireDedup | started _ => exact hsame (List.Sublist.refl _)
    | @crash j =>
      -- the channel of `i` goes with the process, or it is another one
      refine hsame ?_
      show ((w.shared.setChannel j none).queue i).reverse.Sublist _
      rw [Shared.queue_setChannel]
      split <;> simp
    | raised _ _ => exact h.other_event (hother ⟨_, rfl⟩) (List.Sublist.refl _) hhand
    | returned _ hx | applied _ _ hx =>
      exact h.other_event (hother ⟨_, rfl⟩) (Shared.exec_queue hx) hhand

theorem InOrder.of_reachable (h : Reachable env w) (i : String) : InOrder i w :=
  h.invariant (show InOrder i .empty from List.nil_sublist _) fun _ _ ih hstep =>
    ih.step (World.stepped hstep)

/-! ## On one socket -/

/-- The live notification that an event wrote to socket `n`. -/
def Event.liveOn? (n : Nat) (e : Event) : Option LiveNotification :=
  match e.frameOn? n with
  | some (.notification live) => some live
  | _ => none

/-- The live notifications on socket `n`, the latest first. -/
def liveOn (n : Nat) (log : List Event) : List LiveNotification := log.filterMap (·.liveOn? n)

/-- Where one of two partial maps is that of the other one wherever it is defined, its row
is a part of the other one's. -/
theorem filterMap_sublist_filterMap {α β : Type} {f g : α → Option β} {xs : List α}
    (h : ∀ x ∈ xs, ∀ y, f x = some y → g x = some y) :
    (xs.filterMap f).Sublist (xs.filterMap g) := by
  induction xs with
  | nil => exact List.Sublist.refl _
  | cons x xs ih =>
    have hxs := ih fun y hy => h y (List.mem_cons_of_mem _ hy)
    cases hf : f x with
    | some y =>
      rw [List.filterMap_cons_some hf, List.filterMap_cons_some (h x List.mem_cons_self y hf)]
      exact hxs.cons_cons _
    | none =>
      rw [List.filterMap_cons_none hf]
      cases hg : g x with
      | some y =>
        rw [List.filterMap_cons_some hg]
        exact hxs.cons _
      | none => rwa [List.filterMap_cons_none hg]

theorem Event.liveOn_eq_some {e : Event} {live : LiveNotification} :
    e.liveOn? n = some live ↔ e.frameOn? n = some (.notification live) := by
  unfold liveOn?
  split
  · rename_i x hframe
    rw [hframe, Option.some.injEq, Option.some.injEq, Frame.notification.injEq]
  · rename_i hnot
    exact ⟨nofun, fun hframe => absurd hframe (hnot live)⟩

theorem Event.delivers_of_liveOn {e : Event} {live : LiveNotification} {k : UUID}
    (h : e.liveOn? n = some live) (hk : live.notificationId = k.str) :
    e.delivers n k = true := by
  rw [delivers, Event.liveOn_eq_some.mp h]
  exact decide_eq_true hk

theorem liveOn_sublist (h : Reachable env w) {s : Session} (hs : w.sessions n = some s) :
    (liveOn n w.log).Sublist (writtenBy s.instanceId w.log) := by
  refine filterMap_sublist_filterMap fun e he live hlive => ?_
  have hframe := Event.liveOn_eq_some.mp hlive
  obtain ⟨i, ⟨s', hs', rfl⟩, htask⟩ := (Homes.of_reachable h).sent e he n live hframe
  obtain rfl := Option.some.inj (hs.symm.trans hs')
  rw [Event.fromChannel?, if_pos htask, Event.frameOn_eq_some.mp hframe]
  rfl

/-- A live notification on a socket carries the id of a stored row. -/
theorem liveOn_isFor (h : Reachable env w) {live : LiveNotification} (hl : live ∈ liveOn n w.log) :
    ∃ k : UUID, live.isFor k = true := by
  obtain ⟨e, he, hlive⟩ := List.mem_filterMap.mp hl
  have heff := Event.frameOn_eq_some.mp (Event.liveOn_eq_some.mp hlive)
  obtain ⟨row, -, rfl, -⟩ := (Routed.of_reachable h).sent e he n _ heff
  exact ⟨row.notificationId, decide_eq_true rfl⟩

/-- No two of them have the same id. -/
theorem liveOn_nodup (h : Reachable env w) :
    ((liveOn n w.log).map (·.notificationId)).Nodup := by
  rw [List.nodup_iff_count_le_one]
  intro id
  by_cases hid : id ∈ (liveOn n w.log).map (·.notificationId)
  · obtain ⟨live, hl, rfl⟩ := List.mem_map.mp hid
    obtain ⟨k, hk⟩ := liveOn_isFor h hl
    have hk : live.notificationId = k.str := of_decide_eq_true hk
    refine le_trans ?_ (delivers_at_most_once h n k)
    rw [List.count_eq_countP, List.countP_map, liveOn, List.countP_filterMap]
    refine List.countP_mono_left fun e _ he => ?_
    cases hlive : e.liveOn? n with
    | none =>
      rw [hlive] at he
      cases he
    | some x =>
      rw [hlive] at he
      have hid : x.notificationId = live.notificationId := eq_of_beq he
      exact Event.delivers_of_liveOn hlive (hid.trans hk)
  · rw [List.count_eq_zero_of_not_mem hid]
    exact Nat.zero_le 1

/-- The live notifications of a client, the latest first: they come in the order in which they
were published to its instance, each at most once, and behind them what is in hand and what
is on the channel. -/
structure ArrivesInOrder (w : World) (n : Nat) (i : String) : Prop where
  inOrder : ((w.shared.queue i).reverse ++ w.inHand i ++ liveOn n w.log).Sublist
    (publishedTo i w.log)
  once : ((liveOn n w.log).map (·.notificationId)).Nodup

theorem arrives_in_order (h : Reachable env w) {s : Session} (hs : w.sessions n = some s) :
    ArrivesInOrder w n s.instanceId where
  inOrder := ((liveOn_sublist h hs).append_left _).trans (InOrder.of_reachable h s.instanceId)
  once := liveOn_nodup h

theorem arrives_in_order_delivery : ∃ w s, (platform plainEnv).run .empty deliveryRun = some w ∧
    w.sessions 0 = some s ∧ (liveOn 0 w.log).length = 1 ∧ ArrivesInOrder w 0 s.instanceId := by
  obtain ⟨w, s, hrun, hs, hlive⟩ : ∃ w s, (platform plainEnv).run .empty deliveryRun = some w ∧
      w.sessions 0 = some s ∧ (liveOn 0 w.log).length = 1 := ⟨_, _, rfl, rfl, rfl⟩
  exact ⟨w, s, hrun, hs, hlive, arrives_in_order (.of_run hrun) hs⟩

end RealtimeNotify.App
