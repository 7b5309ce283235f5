import RealtimeNotify.App.WsMessages
import RealtimeNotify.Runs.Duplicates
import RealtimeNotify.Runs.ReadState

/-!
# What was read stays read

A receipt that was recorded stays in its table, marks the row for good, and the query of a
session takes unread rows only: on no instance does a backlog bring back what had a receipt
when it was queried, whether or not the client that sent the receipt learned of it.
-/

namespace RealtimeNotify.App

open RealtimeNotify.Lib RealtimeNotify.Python

variable {env : Env} {w w' : World} {a : Action} {n : Nat} {k : UUID}

/-! ## The rows that have been read -/

/-- The notifications that have been read. -/
def Database.readIds (db : Database) : Set UUID :=
  {k | ∃ row ∈ db.notifications, row.notificationId = k ∧ row.readAt ≠ none}

section

variable {db : Database} {body : NotificationCreate} {t : Datetime} {k u : UUID}

open NotificationRepository

theorem readIds_create : (create db body t).1.readIds = db.readIds := by
  unfold create
  split
  · rfl
  · ext k
    simp [Database.readIds]

theorem readIds_markDeliveredLive : (markDeliveredLive db k).readIds = db.readIds := by
  ext k'
  simp only [Database.readIds, markDeliveredLive, List.mem_map, Set.mem_ofPred_eq]
  constructor
  · rintro ⟨-, ⟨row, hrow, rfl⟩, hk, hread⟩
    refine ⟨row, hrow, ?_⟩
    split at hk <;> simp_all
  · rintro ⟨row, hrow, hk, hread⟩
    refine ⟨_, ⟨row, hrow, rfl⟩, ?_⟩
    split <;> exact ⟨hk, hread⟩

/-- A receipt of the owner marks the row; any other one changes nothing. -/
theorem readIds_markRead (db : Database) (k u : UUID) (at_ : Nat) :
    (markRead db k u at_).1 = db ∨
    (∃ e ∈ db.envelopes, e.notificationId = k ∧ e.userId = u) ∧
      (markRead db k u at_).1.readIds = insert k db.readIds := by
  rcases markRead_cases db k u at_ with heq | ⟨⟨row, hrow, howned⟩, hrows, -⟩
  · exact .inl heq
  obtain ⟨hid, huser⟩ := owned_iff.mp howned
  refine .inr ⟨⟨row.envelope, List.mem_map_of_mem hrow, hid, huser⟩, ?_⟩
  ext k'
  simp only [Database.readIds, hrows, List.mem_map, Set.mem_ofPred_eq, Set.mem_insert_iff]
  constructor
  · rintro ⟨-, ⟨old, hold, rfl⟩, hk, hread⟩
    by_cases ho : owned k u old = true
    · rw [if_pos ho] at hk
      exact .inl (hk.symm.trans (owned_iff.mp ho).1)
    · rw [if_neg ho] at hk hread
      exact .inr ⟨old, hold, hk, hread⟩
  · -- a marked row is read, whether or not it was before
    rintro (rfl | ⟨old, hold, hk, hread⟩)
    · refine ⟨_, ⟨row, hrow, rfl⟩, ?_⟩
      rw [if_pos howned]
      exact ⟨hid, Option.some_ne_none _⟩
    · refine ⟨_, ⟨old, hold, rfl⟩, ?_⟩
      split
      · exact ⟨hk, Option.some_ne_none _⟩
      · exact ⟨hk, hread⟩

end

/-! ## Recorded receipts -/

/-- A receipt for `k` was recorded, and the session learned so. -/
def Event.acknowledges (k : UUID) (e : Event) : Bool :=
  match e.what with
  | .returned (.markRead k' _) (marked : Bool) => k' = k && marked
  | _ => false

theorem Event.acknowledges_iff {e : Event} : e.acknowledges k = true ↔
    ∃ u, e.what = .returned (.markRead k u) true := by
  unfold acknowledges
  split
  · rename_i k' u marked hwhat
    rw [hwhat]
    simp only [Bool.and_eq_true, decide_eq_true_eq]
    constructor
    · rintro ⟨rfl, rfl⟩
      exact ⟨u, rfl⟩
    · rintro ⟨u', hu'⟩
      cases hu'
      exact ⟨rfl, rfl⟩
  · rename_i hnot
    exact ⟨nofun, fun ⟨u, hu⟩ => absurd hu (hnot k u true)⟩

/-- What was read stays so. -/
theorem Stepped.readIds_subset (h : Stepped env w a w') :
    w.shared.db.readIds ⊆ w'.shared.db.readIds := by
  rcases h.database_cases with heq | ⟨_, _, _, -, -, -, hdb⟩
  · rw [heq]
  · cases hdb with
    | kept heq => rw [heq]
    | created heq => rw [heq, readIds_create]
    | delivered heq => rw [heq, readIds_markDeliveredLive]
    | @read k u heq =>
      rw [heq]
      rcases readIds_markRead w.shared.db k u w.shared.now with hsame | ⟨-, hread⟩
      · rw [hsame]
      · rw [hread]
        exact Set.subset_insert _ _

/-- What was acknowledged has been read. -/
def Read (w : World) : Prop :=
  ∀ e ∈ w.log, ∀ k, e.acknowledges k = true → k ∈ w.shared.db.readIds

theorem markRead_marks {db : Database} {u : UUID} {t : Nat}
    (h : (NotificationRepository.markRead db k u t).2 = true) :
    k ∈ (NotificationRepository.markRead db k u t).1.readIds := by
  unfold NotificationRepository.markRead at h ⊢
  split
  · rename_i hany
    obtain ⟨row, hrow, howned⟩ := List.any_eq_true.mp hany
    refine ⟨_, List.mem_map_of_mem hrow, ?_⟩
    rw [if_pos howned]
    exact ⟨(owned_iff.mp howned).1, Option.some_ne_none _⟩
  · rename_i hany
    rw [if_neg hany] at h
    cases h

theorem Read.step (h : Read w) (hstep : Stepped env w a w') : Read w' := by
  intro e he k hack
  have hold : e ∈ w.log → k ∈ w'.shared.db.readIds := fun he =>
    hstep.readIds_subset (h e he k hack)
  obtain ⟨sh, log, hsh, hlog, ht⟩ := hstep.touched
  rw [hlog] at he
  cases ht with
  | tick | expireDedup | crash | started _ => exact hold he
  | raised _ _ | applied _ _ _ =>
    rcases List.mem_cons.mp he with rfl | he
    · obtain ⟨u, hu⟩ := Event.acknowledges_iff.mp hack
      cases hu
    · exact hold he
  | @returned id op c _ reply ha hx =>
    rcases List.mem_cons.mp he with rfl | he
    · obtain ⟨u, hu⟩ := Event.acknowledges_iff.mp hack
      cases hu
      obtain ⟨rfl, hreply⟩ : _ = sh ∧
          (NotificationRepository.markRead w.shared.db k u w.shared.now).2 = true :=
        Prod.mk.inj (Option.some.inj hx)
      rw [hsh]
      exact markRead_marks hreply
    · exact hold he

theorem Read.of_reachable (h : Reachable env w) : Read w := by
  refine h.invariant ?_ fun _ _ ih hstep => ih.step (World.stepped hstep)
  intro e he
  cases he

/-- Receipts stay in their table. -/
theorem Stepped.readReceipts_subset (h : Stepped env w a w') :
    w.shared.db.readReceipts ⊆ w'.shared.db.readReceipts := by
  rcases h.database_cases with heq | ⟨_, _, _, -, -, -, hdb⟩
  · rw [heq]
    exact List.Subset.refl _
  · cases hdb with
    | kept heq =>
      rw [heq]
      exact List.Subset.refl _
    | created heq =>
      rw [heq, create_readReceipts]
      exact List.Subset.refl _
    | delivered heq =>
      rw [heq]
      exact List.Subset.refl _
    | @read k u heq =>
      rw [heq]
      rcases markRead_cases w.shared.db k u w.shared.now with hsame | ⟨-, -, hreceipts⟩
      · rw [hsame]
        exact List.Subset.refl _
      · rw [hreceipts]
        exact List.subset_append_left _ _

/-! ## The worlds of a run -/

/-- A run goes through `v` and comes to `w`. -/
def Leads (env : Env) (v w : World) : Prop :=
  Reach ((platform env).startAt v) (fun _ _ => True) w

theorem Leads.readReceipts_subset {v : World} (h : Leads env v w) :
    v.shared.db.readReceipts ⊆ w.shared.db.readReceipts :=
  h.invariant (I := fun w => v.shared.db.readReceipts ⊆ w.shared.db.readReceipts)
    (List.Subset.refl _) fun _ _ ih hstep =>
      List.Subset.trans ih (World.stepped hstep).readReceipts_subset

/-- The step that an event of a run was logged by. -/
structure LoggedBy (env : Env) (w : World) (q : Event) (w₀ : World) (a : Action) (w₁ : World) :
    Prop where
  before : Reachable env w₀
  step : w₀.step env a = some w₁
  logged : w₁.log = q :: w₀.log
  after : Leads env w₁ w

/-- A run is cut at any event of its log. -/
theorem Reachable.logged_by (h : Reachable env w) {q : Event} {before : List Event}
    (hsuf : q :: before <:+ w.log) :
    ∃ w₀ a w₁, LoggedBy env w q w₀ a w₁ ∧ w₀.log = before := by
  induction h with
  | init => simp [platform, World.empty] at hsuf
  | @step w w' a hreach _ hstep ih =>
    have hold : q :: before <:+ w.log → ∃ w₀ a w₁, LoggedBy env w' q w₀ a w₁ ∧
        w₀.log = before := fun hsuf => by
      obtain ⟨w₀, b, w₁, hby, hlog⟩ := ih hsuf
      exact ⟨w₀, b, w₁, { hby with after := hby.after.step trivial hstep }, hlog⟩
    rcases (World.stepped hstep).log_cases with hlog | ⟨e, hlog⟩
    · exact hold (hlog ▸ hsuf)
    · rw [hlog] at hsuf
      rcases List.suffix_cons_iff.mp hsuf with heq | hsuf
      · obtain ⟨rfl, rfl⟩ := List.cons.inj heq
        exact ⟨w, a, w', ⟨hreach, hstep, hlog, .init⟩, rfl⟩
      · exact hold hsuf

/-! ## The query -/

/-- The query answers with rows of the table that are unread. -/
theorem Shared.exec_backlog_unread {s sh : Shared} {u : UUID} {limit : Nat} {c : Choice}
    {rows : List Notification} (h : s.exec (.getUnreadBacklog u limit) c = some (sh, rows))
    {row : Notification} (hrow : row ∈ rows) :
    row ∈ s.db.notifications ∧ row.readAt = none := by
  cases c with
  | tie tie =>
    obtain ⟨-, rfl⟩ := Prod.mk.inj (Option.some.inj h)
    have hunread := mem_orderBy.mp (List.mem_of_mem_take hrow)
    obtain ⟨hmem, hnone⟩ := List.mem_filter.mp hunread
    simp only [Bool.and_eq_true, Option.isNone_iff_eq_none] at hnone
    exact ⟨hmem, hnone.2⟩
  | _ => simp [exec] at h

/-- So does the step that an answer to it was logged by. -/
theorem LoggedBy.unread {w₀ w₁ : World} {q : Event} (h : LoggedBy env w q w₀ a w₁)
    {ns : List Notification} (hans : q.answers n ns) {row : Notification} (hrow : row ∈ ns) :
    row ∈ w₀.shared.db.notifications ∧ row.readAt = none := by
  obtain ⟨-, u, limit, hwhat⟩ := hans
  obtain ⟨sh, log, -, hlog, ht⟩ := (World.stepped h.step).touched
  have hlogged := h.logged.symm.trans hlog
  cases ht with
  | tick | expireDedup | crash | started _ => simp at hlogged
  | raised _ _ | applied _ _ _ =>
    obtain ⟨rfl, -⟩ := List.cons.inj hlogged
    cases hwhat
  | @returned _ _ c _ _ _ hx =>
    obtain ⟨rfl, -⟩ := List.cons.inj hlogged
    cases hwhat
    exact Shared.exec_backlog_unread (c := c) hx hrow

/-- An unread row has no receipt. -/
theorem ReadState.no_receipt {db : Database} (h : ReadState db) {row : Notification}
    (hrow : row ∈ db.notifications) (hunread : row.readAt = none) {r : ReadReceipt}
    (hr : r ∈ db.readReceipts) : r.notificationId ≠ row.notificationId := by
  intro hid
  have hlast := h.last row hrow
  rw [hunread] at hlast
  have hnil : NotificationRepository.receiptsOf db row.notificationId = [] := by
    simpa using hlast.symm
  have hmem : r ∈ NotificationRepository.receiptsOf db row.notificationId :=
    List.mem_filter.mpr ⟨hr, by simpa using hid⟩
  rw [hnil] at hmem
  cases hmem

/-- No receipt for `k` was recorded before `w`, whether or not its sender learned of it, and
no session was told so. -/
structure Unacknowledged (env : Env) (w : World) (k : UUID) : Prop where
  recorded : ∀ v, Leads env v w → ∀ r ∈ v.shared.db.readReceipts, r.notificationId ≠ k
  told : w.log.any (·.acknowledges k) = false

theorem Unacknowledged.of_unread (h : Reachable env w) {row : Notification}
    (hrow : row ∈ w.shared.db.notifications) (hunread : row.readAt = none) :
    Unacknowledged env w row.notificationId where
  recorded _ hleads _ hr :=
    (Reachable.readState h).no_receipt hrow hunread (hleads.readReceipts_subset hr)
  told := by
    rw [List.any_eq_false]
    intro e he hack
    obtain ⟨row', hrow', hid, hread⟩ := Read.of_reachable h e he _ hack
    obtain rfl := (Reachable.readState h).row_inj hrow' hrow hid
    exact hread hunread

/-- A backlog frame comes after the answer that it was made of. -/
theorem Reachable.frame_queried (h : Reachable env w) : Each (fun e sent => ∀ n rows,
    e.what.effect = some (.send n (.backlog rows)) →
    ∃ q ∈ sent, ∃ ns, q.answers n ns ∧ rows = ns.map (·.envelope)) w.log := by
  refine h.invariant (I := fun w => Each _ w.log) Each.nil fun {w w' a} hreach _ ih hstep => ?_
  have hstepped := World.stepped hstep
  rcases hstepped.log_cases with hlog | ⟨e, hlog⟩
  · rw [hlog]
    exact ih
  · rw [hlog]
    refine Each.cons_iff.mpr ⟨fun n rows heff => ?_, ih⟩
    have haw := hstepped.head_effect hlog heff
    obtain ⟨-, s, u, ns, hs, hpc, hrows⟩ := World.backlogCaller (Routed.of_reachable hreach)
      (Homes.of_reachable hreach) haw
    obtain ⟨q, hq, hans⟩ := (Queried.of_reachable hreach).inHand n s u ns hs hpc
    exact ⟨q, hq, ns, hans, hrows⟩

/-- The backlog frame of a session has what an earlier query of its own was answered, and
nothing for which a receipt had been recorded, by any session on any instance, when the query
was answered. -/
theorem backlog_unacknowledged (h : Reachable env w) {e : Event} {sent : List Event}
    (hsent : e :: sent <:+ w.log) {rows : List NotificationEnvelope}
    (heff : e.what.effect = some (.send n (.backlog rows))) :
    ∃ q w₀ a w₁, LoggedBy env w q w₀ a w₁ ∧ q :: w₀.log <:+ sent ∧
      (∃ ns, q.answers n ns ∧ rows = ns.map (·.envelope)) ∧
      ∀ x ∈ rows, Unacknowledged env w₀ x.notificationId := by
  obtain ⟨q, hq, ns, hans, rfl⟩ := h.frame_queried e sent hsent n rows heff
  obtain ⟨later, before, hlog⟩ := List.append_of_mem hq
  have hsuf : q :: before <:+ sent := ⟨later, hlog.symm⟩
  obtain ⟨w₀, a, w₁, hby, rfl⟩ :=
    h.logged_by (hsuf.trans ((List.suffix_cons e sent).trans hsent))
  refine ⟨q, w₀, a, w₁, hby, hsuf, ⟨ns, hans, rfl⟩, fun x hx => ?_⟩
  obtain ⟨row, hrow, rfl⟩ := List.mem_map.mp hx
  obtain ⟨hmem, hunread⟩ := hby.unread hans hrow
  rw [Notification.envelope_notificationId]
  exact .of_unread hby.before hmem hunread

/-- The user reads a notification that came live, does not learn that the receipt was
recorded, and comes back. -/
def comebackRun : List Action :=
  deliveryRun ++
    [.task (.session 0) (.ok (.received readReceiptMessage)), .ok (.session 0),
      .task (.session 0) (.failApplied .none)] ++
    List.replicate 3 (.ok (.session 0)) ++ Action.grant 1 "a" someUser "t1" ++
    Action.openSession 1 "a" "c1" "t1"

set_option maxRecDepth 8000 in
theorem backlog_unacknowledged_comeback : ∃ w e sent rows,
    (platform receiptEnv).run .empty comebackRun = some w ∧
    w.shared.db.readReceipts.map (·.notificationId) = [someBody.notificationId] ∧
    e :: sent <:+ w.log ∧ e.what.effect = some (.send 1 (.backlog rows)) ∧
    ∃ q w₀ a w₁, LoggedBy receiptEnv w q w₀ a w₁ ∧ q :: w₀.log <:+ sent ∧
      (∃ ns, q.answers 1 ns ∧ rows = ns.map (·.envelope)) ∧
      ∀ x ∈ rows, Unacknowledged receiptEnv w₀ x.notificationId := by
  obtain ⟨w, e, sent, rows, hw, hreceipts, hsent, heff⟩ : ∃ w e sent rows,
      (platform receiptEnv).run .empty comebackRun = some w ∧
      w.shared.db.readReceipts.map (·.notificationId) = [someBody.notificationId] ∧
      e :: sent <:+ w.log ∧ e.what.effect = some (.send 1 (.backlog rows)) :=
    ⟨_, _, _, _, rfl, rfl, List.suffix_rfl, rfl⟩
  exact ⟨w, e, sent, rows, hw, hreceipts, hsent, heff,
    backlog_unacknowledged (.of_run hw) hsent heff⟩

end RealtimeNotify.App
