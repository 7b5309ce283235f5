import RealtimeNotify.Runs.Metrics
import RealtimeNotify.Runs.ReadState

/-!
# The counters

None is ahead of what it counts: of the rows, the receipts, the messages received and the
notifications published.
-/

namespace RealtimeNotify.App

open RealtimeNotify.Lib RealtimeNotify.Python

variable {env : Env} {w w' : World} {a : Action} {m : String → Metrics} {i : String}

/-! ## The counters of others -/

/-- The counters that the sessions keep. -/
structure Metrics.SameMessages (m m' : Metrics) : Prop where
  received : m'.wsMessagesReceivedTotal = m.wsMessagesReceivedTotal
  limited : m'.rateLimitedTotal = m.rateLimitedTotal
  recorded : m'.readReceiptsRecordedTotal = m.readReceiptsRecordedTotal

/-- The counters that the requests keep. -/
structure Metrics.SameNotifications (m m' : Metrics) : Prop where
  persisted : m'.notificationsPersistedTotal = m.notificationsPersistedTotal
  delivered : m'.notificationsDeliveredLiveTotal = m.notificationsDeliveredLiveTotal

/-- The observations that a subscriber makes. -/
def Metrics.SameDeliveries (m m' : Metrics) : Prop :=
  m'.deliveryLatencyCount = m.deliveryLatencyCount

theorem GatewayPc.meter_others (active : Nat) (pc : GatewayPc) (e : Happened Op Op.Reply)
    (m : Metrics) : m.SameNotifications (pc.meter active e m) ∧
      m.SameDeliveries (pc.meter active e m) := by
  unfold GatewayPc.meter
  split <;> exact ⟨⟨rfl, rfl⟩, rfl⟩

theorem CreatePc.meter_others (pc : CreatePc) (e : Happened Op Op.Reply) (m : Metrics) :
    m.SameMessages (pc.meter e m) ∧ m.SameDeliveries (pc.meter e m) := by
  unfold CreatePc.meter
  split <;> exact ⟨⟨rfl, rfl, rfl⟩, rfl⟩

theorem SubscriberPc.meter_others (active : Nat) (pc : SubscriberPc) (e : Happened Op Op.Reply)
    (m : Metrics) : m.SameMessages (pc.meter active e m) ∧
      m.SameNotifications (pc.meter active e m) := by
  unfold SubscriberPc.meter
  split <;> exact ⟨⟨rfl, rfl, rfl⟩, ⟨rfl, rfl⟩⟩

/-- The lifespan has no counter. -/
theorem LifespanPc.meter_others (active : Nat) (pc pc' : LifespanPc) (m : Metrics) :
    m.SameMessages (pc.meter active pc' m) ∧ m.SameNotifications (pc.meter active pc' m) ∧
      m.SameDeliveries (pc.meter active pc' m) := by
  unfold LifespanPc.meter
  split <;> exact ⟨⟨rfl, rfl, rfl⟩, ⟨rfl, rfl⟩, rfl⟩

/-! ## Messages of clients -/

/-- What was answered by the limiter with a refusal or recorded as a read receipt. -/
def Metrics.answered (m : Metrics) : Nat := m.rateLimitedTotal + m.readReceiptsRecordedTotal

theorem Metrics.SameMessages.answered {m m' : Metrics} (h : m.SameMessages m') :
    m'.answered = m.answered := by
  rw [Metrics.answered, Metrics.answered, h.limited, h.recorded]

/-- A message that is received and may still be counted as one of these. -/
def GatewayPc.charged : GatewayPc → Bool
  | allow _ _ | readReceipt _ _ _ => true
  | _ => false

def World.charged (w : World) (i : String) (n : Nat) : Prop :=
  ∃ s, w.sessions n = some s ∧ s.instanceId = i ∧ s.pc.charged = true

theorem GatewayPc.charged_raised {n : Nat} {c : String} {pc r : GatewayPc} {op : Op}
    {k : op.Reply → GatewayPc} (h : pc.next env n i c = .call op k r) : r.charged = false := by
  cases pc <;> cases h <;> rfl

theorem GatewayPc.meter_messages {n active : Nat} {c : String} {pc pc' : GatewayPc} {s sh : Shared}
    {o : Outcome Choice} {e : Happened Op Op.Reply} {m : Metrics}
    (h : Advances semantics s (pc.next env n i c) o sh pc' e) :
    Tally.Passage (pc.charged = true) (pc'.charged = true) m.wsMessagesReceivedTotal.length
      m.answered (pc.meter active e m).wsMessagesReceivedTotal.length
      (pc.meter active e m).answered := by
  cases h with
  | raised hn _ | applied hn _ _ =>
    refine .stay (fun hc => ?_) ?_ ?_
    · cases (charged_raised hn).symm.trans hc
    · cases pc <;> rfl
    · cases pc <;> rfl
  | @returned op k r c' _ reply hn hx =>
    cases pc with
    | redeem t =>
      cases hn
      refine .stay (fun hc => ?_) rfl rfl
      cases reply <;> cases hc
    | onlineSeen u =>
      cases hn
      refine .stay (fun hc => ?_) rfl rfl
      cases hu : UUID.ofString u <;> simp [hu, charged] at hc
    | receive u =>
      cases hn
      cases reply with
      | obj fields => exact .enter rfl rfl
      | _ => exact .stay nofun rfl rfl
    | allow u fields =>
      cases hn
      cases reply with
      | false => exact .leave rfl nofun rfl (Nat.add_right_comm ..)
      -- the message is dispatched, and may still be recorded as a receipt
      | true => exact .stay (fun _ => rfl) rfl rfl
    | readReceipt u id k =>
      cases hn
      cases reply with
      | false => exact .stay nofun rfl rfl
      | true => exact .leave rfl nofun rfl rfl
    | ended => cases hn
    | _ =>
      cases hn
      exact .stay nofun rfl rfl

/-- Without a step of its session no message becomes charged. -/
theorem Stepped.charged_of_other (h : Stepped env w a w') {n : Nat}
    (ha : ∀ s o, w.sessions n = some s → s.instanceId = i → a ≠ .task (.session n) o)
    (hn : w'.charged i n) : w.charged i n := by
  obtain ⟨s', hs', hi, hpc⟩ := hn
  cases h.session_cases hs' with
  | same hs _ _ => exact ⟨s', hs, hi, hpc⟩
  | new _ _ _ _ => cases hpc
  | killed _ _ _ => cases hpc
  | moved hs ha' _ _ _ => exact absurd ha' (ha _ _ hs hi)

/-- The messages that the sessions of `i` answered with a refusal or recorded. -/
def MessagesKept (p : World × (String → Metrics)) : Prop :=
  ∀ i, Tally (p.1.charged i) (p.2 i).wsMessagesReceivedTotal.length (p.2 i).answered

theorem MessagesKept.step {m' : String → Metrics} (h : MessagesKept (w, m))
    (hstep : Stepped env w a w') (hm : m' = w.meter a w' m) : MessagesKept (w', m') := by
  intro i
  have ht : Tally (w.charged i) (m i).wsMessagesReceivedTotal.length (m i).answered := h i
  have hcase := hstep.meter_cases m i
  simp only [hm]
  generalize w.meter a w' m i = mi at hcase
  have hother : (∀ n s o, w.sessions n = some s → s.instanceId = i → a ≠ .task (.session n) o) →
      (m i).SameMessages mi → Tally (w'.charged i) mi.wsMessagesReceivedTotal.length
        mi.answered := by
    intro hne hsame
    rw [hsame.received, hsame.answered]
    exact ht.mono (fun n => hstep.charged_of_other (hne n)) le_rfl le_rfl
  cases hcase with
  | aside haside => exact hother haside.session ⟨rfl, rfl, rfl⟩
  | crashed ha =>
    -- the counters begin again at zero, and the sessions of `i` have ended
    refine .init fun n hn => ?_
    obtain ⟨s', hs', hi, hpc⟩ := hn
    cases hstep.session_cases hs' with
    | same _ _ hcrash => exact hcrash (hi ▸ ha)
    | new _ _ _ _ => cases hpc
    | killed _ _ _ => cases hpc
    | moved _ ha' _ _ _ => cases ha.symm.trans ha'
  | request _ _ ha _ _ _ => exact hother (by simp [ha]) (CreatePc.meter_others ..).1
  | subscriber _ ha _ _ _ => exact hother (by simp [ha]) (SubscriberPc.meter_others ..).1
  | lifespan _ ha _ _ _ => exact hother (by simp [ha]) (LifespanPc.meter_others ..).1
  | @session n s o sh pc e hs hi ha hadv hsh hs' =>
    have hwas : w.charged i n ↔ s.pc.charged = true := by simp [World.charged, hs, hi]
    have his : w'.charged i n ↔ pc.charged = true := by simp [World.charged, hs', hi]
    refine ht.passage (n := n) (by rw [hwas, his]; exact GatewayPc.meter_messages hadv) ?_
    refine fun k hk => hstep.charged_of_other fun s' o' _ _ ha' => ?_
    cases ha.symm.trans ha'
    exact hk rfl

/-! ## Notifications -/

/-- An insertion of its own is committed and not yet counted. -/
def CreatePc.uncounted : CreatePc → Bool
  | markSeen row => row.isSome
  | _ => false

/-- Counted as persisted, and it may still be counted as delivered. -/
def CreatePc.undelivered : CreatePc → Bool
  | lookup _ | isAlive _ _ | publish _ _ | markDelivered _ => true
  | _ => false

def World.undelivered (w : World) (i : String) (n : Nat) : Prop :=
  ∃ r, w.requests n = some r ∧ r.instanceId = i ∧ r.pc.undelivered = true

theorem CreatePc.meter_notifications {client : Option String} {body : NotificationCreate}
    {pc pc' : CreatePc} {s sh : Shared} {o : Outcome Choice} {e : Happened Op Op.Reply}
    {m : Metrics} (h : Advances semantics s (pc.next env client body) o sh pc' e) :
    Tally.Passage (pc.undelivered = true) (pc'.undelivered = true) m.notificationsPersistedTotal
      m.notificationsDeliveredLiveTotal (pc.meter e m).notificationsPersistedTotal
      (pc.meter e m).notificationsDeliveredLiveTotal := by
  cases h with
  | raised hn _ | applied hn _ _ =>
    cases pc with
    | markSeen row => cases row <;> (cases hn; exact .stay nofun rfl rfl)
    | _ => cases hn <;> exact .stay nofun rfl rfl
  | @returned op k r c _ reply hn hx =>
    cases pc with
    | allow | hasSeen =>
      cases hn
      refine .stay (fun hp => ?_) rfl rfl
      cases reply <;> cases hp
    | create =>
      cases hn
      exact .stay nofun rfl rfl
    | markSeen row =>
      cases row with
      | none =>
        cases hn
        exact .stay nofun rfl rfl
      | some row => exact .enter rfl rfl
    | lookup _ | isAlive _ _ | publish _ _ => exact .stay (fun _ => rfl) rfl rfl
    | markDelivered row =>
      cases hn
      exact .leave rfl nofun rfl rfl
    | returned _ | rejected _ | raised | killed => cases hn

theorem CreatePc.kill_undelivered {pc : CreatePc} : pc.kill.undelivered = false := by
  cases pc <;> rfl

/-- Without a step of its own no request becomes one to be delivered. -/
theorem Stepped.undelivered_of_other (h : Stepped env w a w') {n : Nat}
    (ha : ∀ r o, w.requests n = some r → r.instanceId = i → a ≠ .task (.request n) o)
    (hn : w'.undelivered i n) : w.undelivered i n := by
  obtain ⟨r', hr', hi, hpc⟩ := hn
  cases h.request_cases hr' with
  | same hr _ => exact ⟨r', hr, hi, hpc⟩
  | new _ _ _ => cases hpc
  | killed _ _ => cases CreatePc.kill_undelivered.symm.trans hpc
  | moved hr ha' _ _ _ => exact absurd ha' (ha _ _ hr hi)

/-- The notifications that an instance counted as delivered live. -/
def DeliveredKept (p : World × (String → Metrics)) : Prop :=
  ∀ i, Tally (p.1.undelivered i) (p.2 i).notificationsPersistedTotal
    (p.2 i).notificationsDeliveredLiveTotal

theorem DeliveredKept.step {m' : String → Metrics} (h : DeliveredKept (w, m))
    (hstep : Stepped env w a w') (hm : m' = w.meter a w' m) : DeliveredKept (w', m') := by
  intro i
  have ht : Tally (w.undelivered i) (m i).notificationsPersistedTotal
    (m i).notificationsDeliveredLiveTotal := h i
  have hcase := hstep.meter_cases m i
  simp only [hm]
  generalize w.meter a w' m i = mi at hcase
  have hother : (∀ n r o, w.requests n = some r → r.instanceId = i → a ≠ .task (.request n) o) →
      (m i).SameNotifications mi → Tally (w'.undelivered i) mi.notificationsPersistedTotal
        mi.notificationsDeliveredLiveTotal := by
    intro hne hsame
    rw [hsame.persisted, hsame.delivered]
    exact ht.mono (fun n => hstep.undelivered_of_other (hne n)) le_rfl le_rfl
  cases hcase with
  | aside haside => exact hother haside.request ⟨rfl, rfl⟩
  | crashed ha =>
    subst ha
    cases hstep
    refine .init fun n hn => ?_
    obtain ⟨r', hr', hi, hpc⟩ := hn
    simp only [World.crash, World.killAll, Option.map_eq_some_iff] at hr'
    obtain ⟨r, -, rfl⟩ := hr'
    split at hi
    · rename_i hri
      rw [if_pos hri] at hpc
      cases CreatePc.kill_undelivered.symm.trans hpc
    · rename_i hri
      exact hri hi
  | session _ _ ha _ _ _ => exact hother (by simp [ha]) (GatewayPc.meter_others ..).1
  | subscriber _ ha _ _ _ => exact hother (by simp [ha]) (SubscriberPc.meter_others ..).2
  | lifespan _ ha _ _ _ => exact hother (by simp [ha]) (LifespanPc.meter_others ..).2.1
  | @request n r o sh pc e hr hi ha hadv hsh hr' =>
    have hwas : w.undelivered i n ↔ r.pc.undelivered = true := by
      simp [World.undelivered, hr, hi]
    have his : w'.undelivered i n ↔ pc.undelivered = true := by
      simp [World.undelivered, hr', hi]
    refine ht.passage (n := n) (by rw [hwas, his]; exact CreatePc.meter_notifications hadv) ?_
    refine fun k hk => hstep.undelivered_of_other fun r' o' _ _ ha' => ?_
    cases ha.symm.trans ha'
    exact hk rfl

/-! ## Rows and receipts -/

/-- Rows and receipts stay. -/
theorem Stepped.tables_le (h : Stepped env w a w') :
    w.shared.db.notifications.length ≤ w'.shared.db.notifications.length ∧
      w.shared.db.readReceipts.length ≤ w'.shared.db.readReceipts.length := by
  rcases h.database_cases with heq | ⟨_, _, _, -, -, -, hdb⟩
  · rw [heq]
    exact ⟨le_rfl, le_rfl⟩
  · cases hdb with
    | kept heq =>
      rw [heq]
      exact ⟨le_rfl, le_rfl⟩
    | @created body t heq =>
      rw [heq, NotificationRepository.create]
      split
      · exact ⟨le_rfl, le_rfl⟩
      · simp
    | @delivered k heq =>
      rw [heq, NotificationRepository.markDeliveredLive]
      simp
    | @read k u heq =>
      rw [heq]
      rcases markRead_cases w.shared.db k u w.shared.now with
        hsame | ⟨-, hrows, hreceipts⟩
      · rw [hsame]
        exact ⟨le_rfl, le_rfl⟩
      · rw [hrows, hreceipts]
        simp

def World.uncounted (w : World) (n : Nat) : Prop :=
  ∃ r, w.requests n = some r ∧ r.pc.uncounted = true

theorem CreatePc.meter_persisted {pc : CreatePc} {e : Happened Op Op.Reply} {m : Metrics} :
    (pc.meter e m).notificationsPersistedTotal
      ≤ m.notificationsPersistedTotal + if pc.uncounted = true then 1 else 0 := by
  unfold CreatePc.meter
  split
  · exact le_rfl
  · exact Nat.le_add_right _ _
  · exact Nat.le_add_right _ _

/-- Only a request whose insertion is not counted yet moves the counter. -/
theorem Stepped.persisted_le (h : Stepped env w a w') (m : String → Metrics) (i : String) :
    (w.meter a w' m i).notificationsPersistedTotal ≤ (m i).notificationsPersistedTotal ∨
      ∃ n r o, w.requests n = some r ∧ r.instanceId = i ∧ r.pc.uncounted = true ∧
        a = .task (.request n) o ∧ (w.meter a w' m i).notificationsPersistedTotal
          ≤ (m i).notificationsPersistedTotal + 1 := by
  have hcase := h.meter_cases m i
  generalize w.meter a w' m i = mi at hcase ⊢
  cases hcase with
  | aside _ => exact .inl le_rfl
  | crashed _ => exact .inl (Nat.zero_le _)
  | session _ _ _ _ _ _ => exact .inl (GatewayPc.meter_others ..).1.persisted.le
  | subscriber _ _ _ _ _ => exact .inl (SubscriberPc.meter_others ..).2.persisted.le
  | lifespan _ _ _ _ _ => exact .inl (LifespanPc.meter_others ..).2.1.persisted.le
  | @request n r o _ _ e hr hi ha _ _ _ =>
    have hle := r.pc.meter_persisted (e := e) (m := m i)
    by_cases hpc : r.pc.uncounted = true
    · rw [if_pos hpc] at hle
      exact .inr ⟨n, r, o, hr, hi, hpc, ha, hle⟩
    · rw [if_neg hpc] at hle
      exact .inl hle

/-- The insertions that the instances counted. -/
def RowsKept (p : World × (String → Metrics)) : Prop :=
  ∀ is : Finset String, Tally p.1.uncounted p.1.shared.db.notifications.length
    (∑ i ∈ is, (p.2 i).notificationsPersistedTotal)

theorem CreatePc.kill_uncounted {pc : CreatePc} : pc.kill.uncounted = false := by
  cases pc <;> rfl

/-- An insertion that is not counted yet is just committed or is an old one. -/
theorem CreatePc.next_uncounted {client : Option String} {body : NotificationCreate}
    {pc pc' : CreatePc} {s sh : Shared} {o : Outcome Choice} {e : Happened Op Op.Reply}
    (h : Advances semantics s (pc.next env client body) o sh pc' e)
    (hpc' : pc'.uncounted = true) :
    pc.uncounted = false ∧ sh.db.notifications.length = s.db.notifications.length + 1 := by
  cases h with
  | raised hn _ | applied hn _ _ => cases pc <;> cases hn <;> cases hpc'
  | @returned op k r c _ reply hn hx =>
    cases pc with
    | create =>
      cases hn
      refine ⟨rfl, ?_⟩
      cases reply with
      | none => cases hpc'
      | some row =>
        obtain ⟨t, ht⟩ := Shared.exec_create (c := c) hx
        obtain ⟨-, hrows, -⟩ := NotificationRepository.create_some ht
        rw [hrows, List.length_append, List.length_singleton]
    | allow | hasSeen | lookup _ | isAlive _ _ =>
      cases hn
      cases reply <;> cases hpc'
    | markSeen row =>
      cases hn
      cases row <;> cases hpc'
    | publish _ _ | markDelivered _ =>
      cases hn
      cases hpc'
    | returned _ | rejected _ | raised | killed => cases hn

/-- A request that has an insertion to be counted, has it now or had it before. -/
theorem Stepped.uncounted_cases (h : Stepped env w a w') {n : Nat} (hn : w'.uncounted n) :
    (w.uncounted n ∧ ∀ o, a ≠ .task (.request n) o) ∨
      (¬ w.uncounted n ∧ (∃ o, a = .task (.request n) o) ∧
        w'.shared.db.notifications.length = w.shared.db.notifications.length + 1) := by
  obtain ⟨r', hr', hpc⟩ := hn
  cases h.request_cases hr' with
  | same hr hne => exact .inl ⟨⟨r', hr, hpc⟩, hne⟩
  | new _ _ _ => cases hpc
  | killed _ _ => cases CreatePc.kill_uncounted.symm.trans hpc
  | @moved r _ _ _ _ hr ha hadv hsh _ =>
    obtain ⟨hold, hrows⟩ := CreatePc.next_uncounted hadv hpc
    refine .inr ⟨?_, ⟨_, ha⟩, by rw [hsh, hrows]⟩
    rintro ⟨r₀, hr₀, hpc₀⟩
    obtain rfl := Option.some.inj (hr.symm.trans hr₀)
    cases hold.symm.trans hpc₀

theorem RowsKept.step {m' : String → Metrics} (h : RowsKept (w, m))
    (hstep : Stepped env w a w') (hm : m' = w.meter a w' m) : RowsKept (w', m') := by
  intro is
  have ht : Tally w.uncounted w.shared.db.notifications.length
    (∑ i ∈ is, (m i).notificationsPersistedTotal) := h is
  have hrows := hstep.tables_le.1
  simp only [hm]
  by_cases hcount : ∃ n r o, w.requests n = some r ∧ r.pc.uncounted = true ∧
      a = .task (.request n) o
  · -- the request leaves, counted by its instance or not
    obtain ⟨n, r, o, hr, hpc, ha⟩ := hcount
    have hsum := sum_le_succ (j := r.instanceId) is fun i => by
      rcases hstep.persisted_le m i with hle | ⟨n', r', o', hr', hi, -, ha', hle⟩
      · exact hle.trans (Nat.le_add_right _ _)
      · cases ha.symm.trans ha'
        obtain rfl := Option.some.inj (hr.symm.trans hr')
        rw [if_pos hi.symm]
        exact hle
    refine (ht.leave (Q := fun k => w.uncounted k ∧ k ≠ n) ⟨r, hr, hpc⟩ fun _ => id).mono ?_
      hrows hsum
    intro k hk
    rcases hstep.uncounted_cases hk with ⟨hold, hne⟩ | ⟨hnot, ⟨o', ha'⟩, -⟩
    · refine ⟨hold, ?_⟩
      rintro rfl
      exact hne o ha
    · cases ha.symm.trans ha'
      exact absurd ⟨r, hr, hpc⟩ hnot
  · -- no counter moves, and there may be one insertion more
    have hsum : ∑ i ∈ is, (w.meter a w' m i).notificationsPersistedTotal
        ≤ ∑ i ∈ is, (m i).notificationsPersistedTotal := by
      refine Finset.sum_le_sum fun i _ => ?_
      rcases hstep.persisted_le m i with hle | ⟨n, r, o, hr, -, hpc, ha, -⟩
      · exact hle
      · exact absurd ⟨n, r, o, hr, hpc, ha⟩ hcount
    by_cases hnew : ∃ n, w'.uncounted n ∧ ¬ w.uncounted n
    · obtain ⟨n, hn, hnot⟩ := hnew
      rcases hstep.uncounted_cases hn with ⟨hold, -⟩ | ⟨-, ⟨o, ha⟩, hlength⟩
      · exact absurd hold hnot
      · refine (ht.enter (Q := w'.uncounted) (n := n) fun k hk => ?_).mono (fun _ => id)
          hlength.ge hsum
        rcases hstep.uncounted_cases hk with ⟨hold, -⟩ | ⟨-, ⟨o', ha'⟩, -⟩
        · exact .inl hold
        · cases ha.symm.trans ha'
          exact .inr rfl
    · refine ht.mono (fun k hk => ?_) hrows hsum
      by_contra hnot
      exact hnew ⟨k, hk, hnot⟩

/-- The receipts that the instances counted. -/
def ReceiptsKept (p : World × (String → Metrics)) : Prop :=
  ∀ is : Finset String, ∑ i ∈ is, (p.2 i).readReceiptsRecordedTotal
    ≤ p.1.shared.db.readReceipts.length

theorem markRead_receipts {db : Database} {k u : UUID} {t : Nat}
    (h : (NotificationRepository.markRead db k u t).2 = true) :
    (NotificationRepository.markRead db k u t).1.readReceipts.length
      = db.readReceipts.length + 1 := by
  unfold NotificationRepository.markRead at h ⊢
  split
  · simp
  · rename_i hany
    rw [if_neg hany] at h
    cases h

/-- A receipt is counted where it has just been written. -/
theorem GatewayPc.meter_receipts (active : Nat) {n : Nat} {c : String} {pc pc' : GatewayPc}
    {s sh : Shared} {o : Outcome Choice} {e : Happened Op Op.Reply} {m : Metrics}
    (h : Advances semantics s (pc.next env n i c) o sh pc' e) :
    (pc.meter active e m).readReceiptsRecordedTotal = m.readReceiptsRecordedTotal ∨
      (pc.meter active e m).readReceiptsRecordedTotal = m.readReceiptsRecordedTotal + 1 ∧
        sh.db.readReceipts.length = s.db.readReceipts.length + 1 := by
  cases h with
  | raised _ _ | applied _ _ _ => cases pc <;> exact .inl rfl
  | @returned op k r c' _ reply hn hx =>
    cases pc with
    | receive u =>
      cases hn
      cases reply <;> exact .inl rfl
    | allow u fields =>
      cases hn
      cases reply <;> exact .inl rfl
    | readReceipt u id k =>
      cases hn
      obtain ⟨rfl, hreply⟩ : _ = sh ∧ (NotificationRepository.markRead s.db k id s.now).2 = reply :=
        Prod.mk.inj (Option.some.inj hx)
      cases reply with
      | false => exact .inl rfl
      | true => exact .inr ⟨rfl, markRead_receipts hreply⟩
    | _ => exact .inl rfl

/-- Only a session that has just written a receipt moves the counter. -/
theorem Stepped.receipts_le (h : Stepped env w a w') (m : String → Metrics) (i : String) :
    (w.meter a w' m i).readReceiptsRecordedTotal ≤ (m i).readReceiptsRecordedTotal ∨
      ∃ n s o, w.sessions n = some s ∧ s.instanceId = i ∧ a = .task (.session n) o ∧
        (w.meter a w' m i).readReceiptsRecordedTotal = (m i).readReceiptsRecordedTotal + 1 ∧
        w'.shared.db.readReceipts.length = w.shared.db.readReceipts.length + 1 := by
  have hcase := h.meter_cases m i
  generalize w.meter a w' m i = mi at hcase ⊢
  cases hcase with
  | aside _ => exact .inl le_rfl
  | crashed _ => exact .inl (Nat.zero_le _)
  | request _ _ _ _ _ _ => exact .inl (CreatePc.meter_others ..).1.recorded.le
  | subscriber _ _ _ _ _ => exact .inl (SubscriberPc.meter_others ..).1.recorded.le
  | lifespan _ _ _ _ _ => exact .inl (LifespanPc.meter_others ..).1.recorded.le
  | @session n s o _ _ _ hs hi ha hadv hsh _ =>
    rcases GatewayPc.meter_receipts (w'.activeConnections i) (m := m i) hadv with
      hsame | ⟨hcount, hwritten⟩
    · exact .inl hsame.le
    · exact .inr ⟨n, s, o, hs, hi, ha, hcount, by rw [hsh, hwritten]⟩

theorem ReceiptsKept.step {m' : String → Metrics} (h : ReceiptsKept (w, m))
    (hstep : Stepped env w a w') (hm : m' = w.meter a w' m) : ReceiptsKept (w', m') := by
  intro is
  have hle : ∑ i ∈ is, (m i).readReceiptsRecordedTotal ≤ w.shared.db.readReceipts.length := h is
  simp only [hm]
  by_cases hcount : ∃ n s o, w.sessions n = some s ∧ a = .task (.session n) o ∧
      w'.shared.db.readReceipts.length = w.shared.db.readReceipts.length + 1
  · -- one counter moves by one, and so does the table
    obtain ⟨n, s, o, hs, ha, hwritten⟩ := hcount
    have hsum := sum_le_succ (j := s.instanceId) is fun i => by
      rcases hstep.receipts_le m i with hsame | ⟨n', s', o', hs', hi, ha', hone, -⟩
      · exact hsame.trans (Nat.le_add_right _ _)
      · cases ha.symm.trans ha'
        obtain rfl := Option.some.inj (hs.symm.trans hs')
        rw [if_pos hi.symm]
        exact hone.le
    rw [hwritten]
    exact hsum.trans (Nat.add_le_add_right hle 1)
  · refine le_trans (Finset.sum_le_sum fun i _ => ?_) (hle.trans hstep.tables_le.2)
    rcases hstep.receipts_le m i with hsame | ⟨n, s, o, hs, -, ha, -, hwritten⟩
    · exact hsame
    · exact absurd ⟨n, s, o, hs, ha, hwritten⟩ hcount

/-! ## Deliveries -/

/-- The live notifications that a subscriber was timed for. -/
def LatencyKept (p : World × (String → Metrics)) : Prop :=
  ∀ i, (p.2 i).deliveryLatencyCount ≤ (writtenBy i p.1.log).length

theorem writtenBy_le (h : Stepped env w a w') :
    (writtenBy i w.log).length ≤ (writtenBy i w'.log).length := by
  rcases h.log_cases with hlog | ⟨e, hlog⟩
  · rw [hlog]
  · rw [hlog, writtenBy_cons, List.length_append]
    exact Nat.le_add_left _ _

theorem SubscriberPc.meter_latency (active : Nat) {pc pc' : SubscriberPc} {s sh : Shared}
    {o : Outcome Choice} {e : Happened Op Op.Reply} {m : Metrics}
    (h : Advances semantics s (pc.next i) o sh pc' e) :
    (pc.meter active e m).deliveryLatencyCount = m.deliveryLatencyCount ∨
      (pc.meter active e m).deliveryLatencyCount = m.deliveryLatencyCount + 1 ∧
        ∃ u n frame, pc = .sending u n frame ∧ e = .returned (.send n frame) () := by
  cases h with
  | raised _ _ | applied _ _ _ => cases pc <;> exact .inl rfl
  | returned hn _ =>
    cases pc with
    | sending u n frame =>
      cases hn
      exact .inr ⟨rfl, u, n, frame, rfl, rfl⟩
    | _ => exact .inl rfl

theorem LatencyKept.step {m' : String → Metrics} (h : LatencyKept (w, m)) (hh : Homes w)
    (hstep : Stepped env w a w') (hm : m' = w.meter a w' m) : LatencyKept (w', m') := by
  intro i
  have hle : (m i).deliveryLatencyCount ≤ (writtenBy i w.log).length := h i
  have hlog := writtenBy_le (i := i) hstep
  have hcase := hstep.meter_cases m i
  simp only [hm]
  generalize w.meter a w' m i = mi at hcase
  cases hcase with
  | aside _ => exact hle.trans hlog
  | crashed _ => exact Nat.zero_le _
  | session _ _ _ _ _ _ => exact (GatewayPc.meter_others ..).2.le.trans (hle.trans hlog)
  | request _ _ _ _ _ _ => exact (CreatePc.meter_others ..).2.le.trans (hle.trans hlog)
  | lifespan _ _ _ _ _ => exact (LifespanPc.meter_others ..).2.2.le.trans (hle.trans hlog)
  | @subscriber p o sh pc e hp ha hadv hsh hcons =>
    rcases SubscriberPc.meter_latency (w'.activeConnections i) (m := m i) hadv with
      hsame | ⟨hone, u, n, frame, hpc, rfl⟩
    · exact hsame.le.trans (hle.trans hlog)
    · obtain ⟨-, live, rfl⟩ := hh.subscriber i p u n frame hp hpc
      have hwritten : (writtenBy i w'.log).length = (writtenBy i w.log).length + 1 := by
        rw [hcons, writtenBy_cons, Event.fromChannel?, if_pos rfl, List.length_append,
          Nat.add_comm]
        rfl
      rw [hone, hwritten]
      exact Nat.add_le_add_right hle 1

/-! ## All counters -/

/-- What the counters are never ahead of. `is` are any of the instances. -/
structure NeverAhead (w : World) (m : String → Metrics) : Prop where
  persisted : ∀ is : Finset String, ∑ i ∈ is, (m i).notificationsPersistedTotal
    ≤ w.shared.db.notifications.length
  delivered : ∀ i, (m i).notificationsDeliveredLiveTotal ≤ (m i).notificationsPersistedTotal
  messages : ∀ i, (m i).rateLimitedTotal + (m i).readReceiptsRecordedTotal
    ≤ (m i).wsMessagesReceivedTotal.length
  receipts : ∀ is : Finset String, ∑ i ∈ is, (m i).readReceiptsRecordedTotal
    ≤ w.shared.db.readReceipts.length
  latency : ∀ i, (m i).deliveryLatencyCount ≤ (publishedTo i w.log).length

/-- The counters and what they count, along a run. -/
structure Counted (p : World × (String → Metrics)) : Prop where
  messages : MessagesKept p
  delivered : DeliveredKept p
  rows : RowsKept p
  receipts : ReceiptsKept p
  latency : LatencyKept p

theorem Counted.init : Counted (World.empty, fun _ => {}) where
  messages i := .init fun n hn => by
    obtain ⟨s, hs, -⟩ := hn
    cases hs
  delivered i := .init fun n hn => by
    obtain ⟨r, hr, -⟩ := hn
    cases hr
  rows is := by
    simp only [Finset.sum_const_zero]
    refine .init fun n hn => ?_
    obtain ⟨r, hr, -⟩ := hn
    cases hr
  receipts is := by simp
  latency i := Nat.zero_le _

theorem metered_world {p : World × (String → Metrics)}
    (h : Reach (metered env) (fun _ _ => True) p) : Reachable env p.1 :=
  Reach.of_noting h

theorem Counted.of_reach {p : World × (String → Metrics)}
    (h : Reach (metered env) (fun _ _ => True) p) : Counted p := by
  refine h.invariant .init fun {p p' a} hreach _ ih hstep => ?_
  obtain ⟨hworld, hnote⟩ := Machine.noting_step.mp hstep
  have hstepped := World.stepped hworld
  exact ⟨ih.messages.step hstepped hnote, ih.delivered.step hstepped hnote,
    ih.rows.step hstepped hnote, ih.receipts.step hstepped hnote,
    ih.latency.step (Homes.of_reachable (metered_world hreach)) hstepped hnote⟩

/-- Whatever fails and whatever crashes, no counter overstates. -/
theorem counters_never_ahead {p : World × (String → Metrics)}
    (h : Reach (metered env) (fun _ _ => True) p) : NeverAhead p.1 p.2 := by
  have hcounted := Counted.of_reach h
  refine ⟨fun is => (hcounted.rows is).le, fun i => (hcounted.delivered i).le,
    fun i => (hcounted.messages i).le, hcounted.receipts, fun i => ?_⟩
  have horder := (InOrder.of_reachable (metered_world h) i).length_le
  rw [List.length_append] at horder
  exact (hcounted.latency i).trans ((Nat.le_add_left _ _).trans horder)

/-- Two racing requests with one id: one row, one delivery, counted once each. -/
theorem counters_never_ahead_delivery : ∃ p,
    (metered plainEnv).run (metered plainEnv).init deliveryRun = some p ∧
    (p.2 "a").notificationsPersistedTotal = 1 ∧
    (p.2 "a").notificationsDeliveredLiveTotal = 1 ∧ (p.2 "a").deliveryLatencyCount = 1 ∧
    NeverAhead p.1 p.2 := by
  obtain ⟨p, hp, hpersisted, hdelivered, hlatency⟩ : ∃ p,
      (metered plainEnv).run (metered plainEnv).init deliveryRun = some p ∧
      (p.2 "a").notificationsPersistedTotal = 1 ∧
      (p.2 "a").notificationsDeliveredLiveTotal = 1 ∧ (p.2 "a").deliveryLatencyCount = 1 :=
    ⟨_, rfl, rfl, rfl, rfl⟩
  exact ⟨p, hp, hpersisted, hdelivered, hlatency,
    counters_never_ahead (.of_actions (fun _ _ _ => trivial) hp)⟩

end RealtimeNotify.App
