import RealtimeNotify.Runs.Creation
import RealtimeNotify.Runs.Tickets

/-!
# Who is sent what

A session is entered in the connection map under the text its ticket redeemed
to, a message names the user of its row, and a backlog is queried for the user
of the session. Each of these is kept by every step, and a frame is sent from
nowhere else.
-/

namespace RealtimeNotify.App

open RealtimeNotify.Lib RealtimeNotify.Python

variable {env : Env} {w w' : World} {a : Action}

/-! ## Recipients and contents -/

/-- Session `n` redeemed its ticket to the text `u`. -/
def RedeemedAs (log : List Event) (n : Nat) (u : String) : Prop :=
  ∃ e ∈ log, ∃ t, e.task = .session n ∧ e.redeemed? t = some (some u)

/-- Session `n` redeemed its ticket to a text that denotes `id`. -/
def RedeemedFor (log : List Event) (n : Nat) (id : UUID) : Prop :=
  ∃ u, RedeemedAs log n u ∧ UUID.ofString u = some id

/-- The message is that of a stored row, to its user. -/
def PubSubMessage.Stored (db : Database) (message : PubSubMessage) : Prop :=
  ∃ row ∈ db.envelopes, message.notification = row.live ∧ message.userId = row.userId.str

/-- Every notification in the frame is a stored row of the user of session `n`. -/
def Frame.Stored (db : Database) (log : List Event) (n : Nat) : Frame → Prop
  | .backlog rows => ∀ row ∈ rows, row ∈ db.envelopes ∧ RedeemedFor log n row.userId
  | .notification live => ∃ row ∈ db.envelopes, live = row.live ∧ RedeemedFor log n row.userId
  | .rateLimited _ | .error _ => True

/-- What a session has in hand at a point. -/
def GatewayPc.Stored (db : Database) : GatewayPc → Prop
  | backlogQuery u id => UUID.ofString u = some id
  | backlogSend u rows => ∀ row ∈ rows, row.envelope ∈ db.envelopes ∧
      UUID.ofString u = some row.userId
  | respond _ frame => frame.plain = true
  | _ => True

def SubscriberPc.Stored (db : Database) (log : List Event) : SubscriberPc → Prop
  | delivering message => message.Stored db
  | sending _ n frame => frame.Stored db log n
  | listening | dropping _ _ | dead => True

/-! ## One event more -/

section

variable {db db' : Database} {log log' : List Event} {n : Nat}

theorem RedeemedAs.mono {u : String} (h : RedeemedAs log n u) (hlog : log ⊆ log') :
    RedeemedAs log' n u := by
  obtain ⟨e, he, h⟩ := h
  exact ⟨e, hlog he, h⟩

theorem RedeemedFor.mono {id : UUID} (h : RedeemedFor log n id) (hlog : log ⊆ log') :
    RedeemedFor log' n id := by
  obtain ⟨u, hu, hid⟩ := h
  exact ⟨u, hu.mono hlog, hid⟩

theorem PubSubMessage.Stored.mono {message : PubSubMessage} (h : message.Stored db)
    (hdb : db.envelopes ⊆ db'.envelopes) : message.Stored db' := by
  obtain ⟨row, hrow, h⟩ := h
  exact ⟨row, hdb hrow, h⟩

theorem Frame.Stored.mono {frame : Frame} (h : frame.Stored db log n)
    (hdb : db.envelopes ⊆ db'.envelopes) (hlog : log ⊆ log') : frame.Stored db' log' n := by
  cases frame with
  | backlog rows => exact fun row hrow => ⟨hdb (h row hrow).1, (h row hrow).2.mono hlog⟩
  | notification live =>
    obtain ⟨row, hrow, hn, hfor⟩ := h
    exact ⟨row, hdb hrow, hn, hfor.mono hlog⟩
  | rateLimited _ | error _ => trivial

theorem GatewayPc.Stored.mono {pc : GatewayPc} (h : pc.Stored db)
    (hdb : db.envelopes ⊆ db'.envelopes) : pc.Stored db' := by
  cases pc with
  | backlogSend u rows => exact fun row hrow => ⟨hdb (h row hrow).1, (h row hrow).2⟩
  | _ => exact h

theorem SubscriberPc.Stored.mono {pc : SubscriberPc} (h : pc.Stored db log)
    (hdb : db.envelopes ⊆ db'.envelopes) (hlog : log ⊆ log') : pc.Stored db' log' := by
  cases pc with
  | delivering message => exact PubSubMessage.Stored.mono h hdb
  | sending u n frame => exact Frame.Stored.mono h hdb hlog
  | listening | dropping _ _ | dead => trivial

theorem Frame.stored_of_plain {frame : Frame} (h : frame.plain = true) :
    frame.Stored db log n := by
  cases frame <;> simp_all [plain, Stored]

end

theorem Stepped.envelopes_subset (h : Stepped env w a w') :
    w.shared.db.envelopes ⊆ w'.shared.db.envelopes := by
  cases h.creationCase with
  | quiet hrec _ _ | published _ _ hrec _ _ _ _ =>
    rw [Database.envelopes_eq_records, Database.envelopes_eq_records, hrec]
    exact List.Subset.refl _
  | inserted _ _ _ _ _ hrec _ _ _ _ _ =>
    rw [Database.envelopes_eq_records, Database.envelopes_eq_records, hrec, List.map_append]
    exact List.subset_append_left _ _
  | delivered _ _ hrec _ _ _ _ =>
    rw [NotificationRepository.envelopes_of_marked hrec]
    exact List.Subset.refl _

/-! ## The invariant -/

/-- Along the whole way from a ticket and a row to a frame. -/
structure Routed (w : World) : Prop where
  user : ∀ n s u, w.sessions n = some s → s.pc.user? = some u → RedeemedAs w.log n u
  session : ∀ n s, w.sessions n = some s → s.pc.Stored w.shared.db
  connection : ∀ i u n, (w.shared.connections i).get u = some n → RedeemedAs w.log n u
  channel : ∀ c queue, w.shared.channels c = some queue →
    ∀ message ∈ queue, message.Stored w.shared.db
  subscriber : ∀ i p, w.processes i = some p → p.subscriber.Stored w.shared.db w.log
  sent : ∀ e ∈ w.log, ∀ n frame, e.what.effect = some (.send n frame) →
    frame.Stored w.shared.db w.log n

theorem Routed.init : Routed .empty where
  user := by simp [World.empty]
  session := by simp [World.empty]
  connection := by simp [World.empty]
  channel := by simp [World.empty]
  subscriber := by simp [World.empty]
  sent := by simp [World.empty]

theorem Routed.user_step (h : Routed w) (hstep : Stepped env w a w') {n : Nat} {s' : Session}
    {u : String} (hs' : w'.sessions n = some s') (hu : s'.pc.user? = some u) :
    RedeemedAs w'.log n u := by
  have hlog := hstep.log_subset
  cases hstep.session_cases hs' with
  | same hs _ => exact (h.user n s' u hs hu).mono hlog
  | new _ _ _ _ => simp [GatewayPc.user?] at hu
  | killed _ _ _ => simp [GatewayPc.user?] at hu
  | @moved s _ _ _ _ hs _ hadv _ hlog' =>
    cases hadv with
    | raised hn _ => exact (h.user n s u hs (GatewayPc.user_raised hn hu)).mono hlog
    | applied hn _ _ => exact (h.user n s u hs (GatewayPc.user_raised hn hu)).mono hlog
    | @returned _ _ _ _ _ reply hn _ =>
      rcases GatewayPc.user_resume hn hu with hold | ⟨ticket, hpc⟩
      · exact (h.user n s u hs hold).mono hlog
      · rw [hpc] at hn
        cases hn
        refine ⟨_, by rw [hlog']; exact List.mem_cons_self .., ticket, rfl, ?_⟩
        cases hreply : reply with
        | none => simp [hreply, GatewayPc.user?] at hu
        | some v =>
          obtain rfl := by simpa [hreply, GatewayPc.user?] using hu
          simp [Event.redeemed?, WSTicketAuth.redeemTicket]

theorem GatewayPc.stored_routed {db : Database} {u : String} {fields : Dict PyStr Json} :
    (routed env u fields).Stored db := by
  unfold routed
  split
  · trivial
  · trivial
  · split <;> trivial
  · rename_i frame hd
    exact MessageRouter.dispatch_plain hd

/-- A query for the backlog of `id` answers with stored rows of `id`. -/
theorem Shared.exec_backlog {s sh : Shared} {id : UUID} {limit : Nat} {c : Choice}
    {rows : List Notification} (h : s.exec (.getUnreadBacklog id limit) c = some (sh, rows)) :
    sh = s ∧ ∀ row ∈ rows, row.envelope ∈ s.db.envelopes ∧ row.userId = id := by
  cases c with
  | tie tie =>
    simp only [exec, Option.some.injEq, Prod.mk.injEq] at h
    obtain ⟨rfl, rfl⟩ := h
    refine ⟨rfl, fun row hrow => ?_⟩
    obtain ⟨hmem, hid⟩ := NotificationRepository.mem_getUnreadBacklog hrow
    exact ⟨List.mem_map_of_mem hmem, hid⟩
  | _ => simp [exec] at h

theorem GatewayPc.stored_resume {n : Nat} {i cid : String} {pc r : GatewayPc} {op : Op}
    {k : op.Reply → GatewayPc} {s sh : Shared} {c : Choice} {reply : op.Reply}
    (hn : pc.next env n i cid = .call op k r) (hx : s.exec op c = some (sh, reply))
    (hpc : pc.Stored s.db) : (k reply).Stored sh.db := by
  cases pc with
  | redeem ticket =>
    cases hn
    cases reply <;> trivial
  | onlineSeen u =>
    cases hn
    cases hu : UUID.ofString u with
    | none => simp [Stored]
    | some id => exact hu
  | backlogQuery u id =>
    cases hn
    obtain ⟨rfl, hrows⟩ := Shared.exec_backlog hx
    intro row hrow
    obtain ⟨hmem, hid⟩ := hrows row hrow
    exact ⟨hmem, by rw [hid]; exact hpc⟩
  | receive u =>
    cases hn
    cases reply <;> trivial
  | allow u fields =>
    cases hn
    simp only
    split
    · exact stored_routed
    · rfl
  | ended => cases hn
  | _ =>
    cases hn
    trivial

theorem GatewayPc.stored_raised {n : Nat} {i cid : String} {pc r : GatewayPc} {op : Op}
    {k : op.Reply → GatewayPc} {db : Database} (hn : pc.next env n i cid = .call op k r) :
    r.Stored db := by
  cases pc <;> cases hn <;> trivial

theorem Routed.session_step (h : Routed w) (hstep : Stepped env w a w') {n : Nat} {s' : Session}
    (hs' : w'.sessions n = some s') : s'.pc.Stored w'.shared.db := by
  cases hstep.session_cases hs' with
  | same hs _ => exact (h.session n s' hs).mono hstep.envelopes_subset
  | new _ _ _ _ => trivial
  | killed _ _ _ => trivial
  | moved hs _ hadv hsh _ =>
    cases hadv with
    | raised hn _ => exact GatewayPc.stored_raised hn
    | applied hn _ _ => exact GatewayPc.stored_raised hn
    | returned hn hx =>
      rw [hsh]
      exact GatewayPc.stored_resume hn hx (h.session n _ hs)

theorem Routed.connection_step (h : Routed w) (hstep : Stepped env w a w') {i u : String} {n : Nat}
    (hget : (w'.shared.connections i).get u = some n) : RedeemedAs w'.log n u := by
  refine RedeemedAs.mono ?_ hstep.log_subset
  cases hstep.map_cases i u with
  | kept hsame => exact h.connection i u n (hsame ▸ hget)
  | added _ hs _ hpc hnew =>
    obtain rfl := Option.some.inj (hnew.symm.trans hget)
    exact h.user _ _ u hs (by rw [hpc]; rfl)
  | removed _ _ _ hnone | crashed _ hnone =>
    rw [hnone] at hget
    cases hget

theorem Routed.channel_step (h : Routed w) (hb : Books w) (hstep : Stepped env w a w')
    {ch : String} {queue : List PubSubMessage} (hq : w'.shared.channels ch = some queue) :
    ∀ message ∈ queue, message.Stored w'.shared.db := by
  have hset : ∀ {i q}, (∀ message ∈ q, PubSubMessage.Stored w.shared.db message) →
      (w.shared.setChannel i (some q)).channels ch = some queue →
      ∀ message ∈ queue, message.Stored w.shared.db := by
    intro i q hall hqueue
    by_cases hc : ch = instanceChannel i
    · obtain rfl := by simpa [Shared.setChannel, hc] using hqueue
      exact hall
    · exact h.channel ch queue (by simpa [Shared.setChannel, hc] using hqueue)
  have hnone : ∀ {i}, (w.shared.setChannel i none).channels ch = some queue →
      ∀ message ∈ queue, message.Stored w.shared.db := by
    intro i hqueue
    by_cases hc : ch = instanceChannel i
    · simp [Shared.setChannel, hc] at hqueue
    · exact h.channel ch queue (by simpa [Shared.setChannel, hc] using hqueue)
  have heffect : ∀ {id op c sh} {reply : op.Reply}, w.awaits env id = some op →
      w.shared.exec op c = some (sh, reply) → sh.channels ch = some queue →
      ∀ message ∈ queue, message.Stored w.shared.db := by
    intro id op c sh reply ha hx hqueue
    cases Shared.exec_channels hx with
    | kept hsame => exact h.channel ch queue (hsame ▸ hqueue)
    | @published i u notification hpub =>
      rw [hpub, Shared.publish] at hqueue
      split at hqueue
      · rename_i q hq
        refine hset (fun message hm => ?_) hqueue
        rcases List.mem_append.mp hm with hold | hnew
        · exact h.channel _ q hq message hold
        · obtain rfl := by simpa using hnew
          cases World.creationCaller ha rfl with
          | publish hr hpc =>
            obtain ⟨hmem, -, huser, -⟩ := hb.row _ _ _ hr (by rw [hpc]; rfl)
            exact ⟨_, hmem, rfl, by rw [Notification.envelope_userId, huser]⟩
      · exact h.channel ch queue hqueue
    | subscribed hsub => exact hset (by simp) (hsub ▸ hqueue)
    | @taken i message q hq htake =>
      refine hset (fun m hm => ?_) (htake ▸ hqueue)
      exact h.channel _ _ hq m (List.mem_cons_of_mem _ hm)
    | unsubscribed hun => exact hnone (hun ▸ hqueue)
  have hold : ∀ message ∈ queue, message.Stored w.shared.db := by
    obtain ⟨sh, log, hsh, -, ht⟩ := hstep.touched
    rw [hsh] at hq
    cases ht with
    | tick | expireDedup | started _ | raised _ _ => exact h.channel ch queue hq
    | crash => exact hnone hq
    | returned ha hx => exact heffect ha hx hq
    | applied ha _ hx => exact heffect ha hx hq
  exact fun message hm => (hold message hm).mono hstep.envelopes_subset

theorem Routed.subscriber_step (h : Routed w) (hstep : Stepped env w a w') {i : String}
    {p' : Process} (hp' : w'.processes i = some p') :
    p'.subscriber.Stored w'.shared.db w'.log := by
  have hdb := hstep.envelopes_subset
  have hlog := hstep.log_subset
  cases hstep.process_cases hp' with
  | same hp => exact (h.subscriber i p' hp).mono hdb hlog
  | new _ _ _ => trivial
  | lifespan hp _ _ _ _ => exact (h.subscriber i _ hp).mono hdb hlog
  | liveness hp _ _ _ _ => exact (h.subscriber i _ hp).mono hdb hlog
  | @subscriber p _ _ _ _ hp _ _ hadv hsh _ =>
    refine SubscriberPc.Stored.mono ?_ hdb hlog
    have hold := h.subscriber i p hp
    cases hpc : p.subscriber with
    | listening =>
      rw [hpc] at hadv
      cases hadv with
      | @returned _ _ _ c _ _ hn hx =>
        cases hn
        obtain ⟨queue, hq, -⟩ := Shared.exec_nextMessage (c := c) hx
        exact h.channel _ _ hq _ (List.mem_cons_self ..)
      | raised hn _ | applied hn _ _ =>
        cases hn
        trivial
    | delivering message =>
      rw [hpc] at hadv hold
      cases hadv with
      | @returned _ _ _ c _ socket hn hx =>
        cases hn
        obtain ⟨-, hsocket⟩ := Shared.exec_getSocket (c := c) hx
        obtain ⟨row, hrow, hlive, huser⟩ := hold
        cases socket with
        | some n =>
          have hconn := h.connection i _ n hsocket.symm
          exact ⟨row, hrow, hlive, _, hconn, by rw [huser, UUID.ofString_str]⟩
        | none => trivial
      | raised hn _ | applied hn _ _ =>
        cases hn
        trivial
    | sending u n frame =>
      rw [hpc] at hadv
      cases hadv with
      | returned hn _ | raised hn _ | applied hn _ _ =>
        cases hn
        trivial
    | dropping u n =>
      rw [hpc] at hadv
      cases hadv with
      | returned hn _ | raised hn _ | applied hn _ _ =>
        cases hn
        trivial
    | dead =>
      rw [hpc] at hadv
      cases hadv with
      | returned hn _ | raised hn _ | applied hn _ _ => cases hn

theorem Routed.sent_step (h : Routed w) (hstep : Stepped env w a w') {e : Event}
    (he : e ∈ w'.log) {n : Nat} {frame : Frame} (heff : e.what.effect = some (.send n frame)) :
    frame.Stored w'.shared.db w'.log n := by
  refine Frame.Stored.mono ?_ hstep.envelopes_subset hstep.log_subset
  have hcaller : ∀ {id}, w.awaits env id = some (.send n frame) →
      frame.Stored w.shared.db w.log n := by
    intro id ha
    cases World.sendCaller ha with
    | @backlog _ s u rows hs hpc =>
      intro row hrow
      obtain ⟨r, hr, rfl⟩ := List.mem_map.mp hrow
      have hstored := h.session n s hs
      rw [hpc] at hstored
      obtain ⟨hmem, hid⟩ := hstored r hr
      exact ⟨hmem, u, h.user n s u hs (by rw [hpc]; rfl), hid⟩
    | @respond _ s u _ hs hpc =>
      have hstored := h.session n s hs
      rw [hpc] at hstored
      exact Frame.stored_of_plain hstored
    | live hp hpc =>
      have hstored := h.subscriber _ _ hp
      rw [hpc] at hstored
      exact hstored
  rcases hstep.effect_cases he heff with he | ha
  · exact h.sent e he n frame heff
  · exact hcaller ha

theorem Routed.step (h : Routed w) (hb : Books w) (hstep : Stepped env w a w') : Routed w' where
  user _ _ _ := h.user_step hstep
  session _ _ := h.session_step hstep
  connection _ _ _ := h.connection_step hstep
  channel _ _ := h.channel_step hb hstep
  subscriber _ _ := h.subscriber_step hstep
  sent _ he _ _ := h.sent_step hstep he

theorem Routed.of_reachable (h : Reachable env w) : Routed w :=
  h.invariant .init fun hreach _ ih hstep =>
    ih.step (Books.of_reachable hreach) (World.stepped hstep)

/-! ## One ticket a session -/

/-- A session that has not redeemed has no redeem in the log, and one that has,
has one. -/
structure OneTicket (w : World) : Prop where
  fresh : ∀ n u, RedeemedAs w.log n u → ∃ s, w.sessions n = some s ∧ ∀ t, s.pc ≠ .redeem t
  unique : ∀ n u v, RedeemedAs w.log n u → RedeemedAs w.log n v → u = v

theorem OneTicket.step (h : OneTicket w) (hstep : Stepped env w a w') : OneTicket w' := by
  -- the session of a new redeem was at its start, and has left it
  have hnew : ∀ {e n t u}, w'.log = e :: w.log → e.task = .session n →
      e.redeemed? t = some (some u) → (∀ v, ¬ RedeemedAs w.log n v) ∧
        ∃ s', w'.sessions n = some s' ∧ ∀ t, s'.pc ≠ .redeem t := by
    intro e n t u hlog htask hred
    obtain ⟨m, s, o, hs, hpc, ha, hm⟩ := hstep.redeemed_cases hlog hred
    obtain rfl : m = n := by simpa [hm] using htask
    refine ⟨fun v hv => ?_, ?_⟩
    · obtain ⟨s₀, hs₀, hne⟩ := h.fresh m v hv
      obtain rfl := Option.some.inj (hs.symm.trans hs₀)
      exact hne t hpc
    · obtain ⟨sh, pc, e', hs', hadv⟩ := hstep.session_own ha hs
      refine ⟨{ s with pc }, hs', fun t' => ?_⟩
      cases hadv with
      | returned hn _ => exact (GatewayPc.not_redeem hn).1 _
      | raised hn _ | applied hn _ _ => exact (GatewayPc.not_redeem hn).2
  have hcases : ∀ {n u}, RedeemedAs w'.log n u → RedeemedAs w.log n u ∨
      ∃ e t, w'.log = e :: w.log ∧ e.task = .session n ∧ e.redeemed? t = some (some u) := by
    rintro n u ⟨e, he, t, htask, hred⟩
    rcases hstep.log_cases with hlog | ⟨e', hlog⟩
    · exact .inl ⟨e, hlog ▸ he, t, htask, hred⟩
    · rw [hlog] at he
      rcases List.mem_cons.mp he with rfl | he
      · exact .inr ⟨e, t, hlog, htask, hred⟩
      · exact .inl ⟨e, he, t, htask, hred⟩
  constructor
  · intro n u hu
    rcases hcases hu with hold | ⟨e, t, hlog, htask, hred⟩
    · obtain ⟨s, hs, hne⟩ := h.fresh n u hold
      obtain ⟨s', hs', hmove⟩ := hstep.session_move hs
      refine ⟨s', hs', fun t => ?_⟩
      cases hmove with
      | same _ _ => exact hne t
      | killed _ _ => simp
      | moved _ hadv _ _ =>
        cases hadv with
        | returned hn _ => exact (GatewayPc.not_redeem hn).1 _
        | raised hn _ | applied hn _ _ => exact (GatewayPc.not_redeem hn).2
    · exact (hnew hlog htask hred).2
  · intro n u v hu hv
    rcases hcases hu with hu | ⟨e, t, hlog, htask, hred⟩
    · rcases hcases hv with hv | ⟨e, t, hlog, htask, hred⟩
      · exact h.unique n u v hu hv
      · exact absurd hu ((hnew hlog htask hred).1 u)
    · rcases hcases hv with hv | ⟨e', t', hlog', htask', hred'⟩
      · exact absurd hv ((hnew hlog htask hred).1 v)
      · obtain ⟨rfl, -⟩ := by simpa using hlog.symm.trans hlog'
        obtain ⟨n₁, s₁, o₁, hs₁, hpc₁, -, hn₁⟩ := hstep.redeemed_cases hlog hred
        obtain ⟨n₂, s₂, o₂, hs₂, hpc₂, -, hn₂⟩ := hstep.redeemed_cases hlog hred'
        obtain rfl : n₁ = n₂ := by simpa [hn₁] using hn₂
        obtain rfl := Option.some.inj (hs₁.symm.trans hs₂)
        obtain rfl : t = t' := by simpa [hpc₁] using hpc₂
        simpa using hred.symm.trans hred'

theorem OneTicket.of_reachable (h : Reachable env w) : OneTicket w := by
  refine h.invariant ?_ fun _ _ ih hstep => ih.step (World.stepped hstep)
  constructor <;> simp [platform, World.empty, RedeemedAs]

/-! ## No misdelivery -/

/-- Session `n` redeemed a ticket that was issued to the subject `u`. -/
def SubjectOf (w : World) (n : Nat) (u : String) : Prop :=
  ∃ e ∈ w.log, ∃ t reply, e.task = .session n ∧ e.redeemed? t = some (some reply) ∧
    ∃ k r, w.ticketRequests k = some r ∧ r.token = t ∧ r.claims = some (some u)

/-- The notification is for the subject of session `n`, and for no one else. -/
def ForSubject (w : World) (n : Nat) (id : UUID) : Prop :=
  (∃ u, SubjectOf w n u) ∧ ∀ u, SubjectOf w n u → UUID.ofString u = some id

theorem RedeemedAs.eq_subject (ht : TicketBooks env w) (ho : OneTicket w) {n : Nat} {u v : String}
    (h : RedeemedAs w.log n u) (hv : SubjectOf w n v) : v = u := by
  obtain ⟨e, he, t, reply, htask, hred, k, r, hr, htok, hclaims⟩ := hv
  obtain ⟨k', r', hr', htok', hd⟩ := ht.subject he hred
  obtain rfl := ht.mint.distinct k' r' k r hr' hr (htok'.trans htok.symm)
  obtain rfl := Option.some.inj (hr.symm.trans hr')
  obtain rfl : v = reply := by simpa [hclaims] using (decodeUserId_ok hd).1
  exact ho.unique n v u ⟨e, he, t, htask, hred⟩ h

theorem RedeemedFor.forSubject (ht : TicketBooks env w) (ho : OneTicket w) {n : Nat} {id : UUID}
    (h : RedeemedFor w.log n id) : ForSubject w n id := by
  obtain ⟨u, hu, hid⟩ := h
  constructor
  · obtain ⟨e, he, t, htask, hred⟩ := hu
    obtain ⟨k, r, hr, htok, hd⟩ := ht.subject he hred
    exact ⟨u, e, he, t, u, htask, hred, k, r, hr, htok, (decodeUserId_ok hd).1⟩
  · intro v hv
    rwa [hu.eq_subject ht ho hv]

/-- Every notification sent on the socket of session `n` agrees with a stored
row, and its user is the subject of the session. -/
theorem no_misdelivery (h : Reach (platform env) (fun w a => freshToken w a) w) {e : Event}
    (he : e ∈ w.log) {n : Nat} {frame : Frame} (heff : e.what.effect = some (.send n frame)) :
    match frame with
    | .backlog rows => ∀ row ∈ rows, row ∈ w.shared.db.envelopes ∧ ForSubject w n row.userId
    | .notification live => ∃ row ∈ w.shared.db.envelopes, live.Shows row ∧
        ForSubject w n row.userId
    | .rateLimited _ | .error _ => True := by
  have hreach : Reachable env w := h.mono fun _ _ _ => trivial
  have hsubject : ∀ {id}, RedeemedFor w.log n id → ForSubject w n id :=
    RedeemedFor.forSubject (TicketBooks.of_reach h) (OneTicket.of_reachable hreach)
  have hstored := (Routed.of_reachable hreach).sent e he n frame heff
  cases frame with
  | backlog rows => exact fun row hrow => ⟨(hstored row hrow).1, hsubject (hstored row hrow).2⟩
  | notification live =>
    obtain ⟨row, hmem, rfl, hfor⟩ := hstored
    exact ⟨row, hmem, row.live_shows, hsubject hfor⟩
  | rateLimited _ | error _ => trivial

/-- The notification of `deliveryRun` as it goes over the socket. -/
def someLive : LiveNotification :=
  ⟨someBody.notificationId.str, someUser, someBody.type, someBody.payload,
    "2026-01-01T00:00:00+00:00"⟩

theorem no_misdelivery_live : ∃ w, (platform plainEnv).run .empty deliveryRun = some w ∧
    ∃ row ∈ w.shared.db.envelopes, someLive.Shows row ∧ ForSubject w 0 row.userId := by
  have hmeets : (platform plainEnv).Meets (fun w a => freshToken w a) .empty deliveryRun := by
    decide
  obtain ⟨w, hrun, e, he, heff⟩ : ∃ w, (platform plainEnv).run .empty deliveryRun = some w ∧
      ∃ e ∈ w.log, e.what.effect = some (.send 0 (.notification someLive)) :=
    ⟨_, rfl, _, List.mem_cons_self .., rfl⟩
  exact ⟨w, hrun, no_misdelivery (.of_run .init hmeets hrun) he heff⟩

end RealtimeNotify.App
