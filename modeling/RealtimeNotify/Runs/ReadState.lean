import RealtimeNotify.App.Frames
import RealtimeNotify.App.Transactions

/-!
# Read state and receipts

`read_at` and the receipts are written by two statements of one transaction, so
the one is always that of the last of the others. Nothing keeps a notification
from being acknowledged twice: then a second receipt is written and `read_at` is
overwritten, unless no receipt names a notification that is read already.
-/

namespace RealtimeNotify.App

open RealtimeNotify.Lib RealtimeNotify.Python
open NotificationRepository

/-! ## The invariant -/

/-- Receipts are for rows of their user, and a row was read when its last receipt
says. -/
structure ReadState (db : Database) : Prop where
  ids : db.ids.Nodup
  owner : ∀ r ∈ db.readReceipts, ∃ row ∈ db.notifications,
    row.notificationId = r.notificationId ∧ row.userId = r.userId
  last : ∀ row ∈ db.notifications,
    row.readAt = (receiptsOf db row.notificationId).getLast?.map (·.readAt)

variable {db : Database} {n u : UUID} {t : Nat}

theorem owned_iff {row : Notification} :
    owned n u row = true ↔ row.notificationId = n ∧ row.userId = u := by
  simp [owned]

theorem ReadState.init : ReadState ⟨[], []⟩ where
  ids := List.nodup_nil
  owner := by simp
  last := by simp

theorem ReadState.row_inj (h : ReadState db) {row row' : Notification}
    (hrow : row ∈ db.notifications) (hrow' : row' ∈ db.notifications)
    (hid : row.notificationId = row'.notificationId) : row = row' :=
  List.inj_on_of_nodup_map h.ids hrow hrow' hid

/-- A notification nobody stored has no receipt. -/
theorem ReadState.receiptsOf_eq_nil (h : ReadState db) (hn : n ∉ db.ids) :
    receiptsOf db n = [] := by
  rw [receiptsOf, List.filter_eq_nil_iff]
  intro r hr hid
  obtain ⟨row, hrow, hrid, -⟩ := h.owner r hr
  have hmem : row.notificationId ∈ db.ids := List.mem_map_of_mem hrow
  rw [hrid, of_decide_eq_true hid] at hmem
  exact hn hmem

/-! ## The three methods -/

theorem create_readReceipts (db : Database) (body : NotificationCreate) (createdAt : Datetime) :
    (create db body createdAt).1.readReceipts = db.readReceipts := by
  unfold create
  split <;> rfl

theorem ReadState.create (h : ReadState db) {body : NotificationCreate} {createdAt : Datetime} :
    ReadState (NotificationRepository.create db body createdAt).1 := by
  have hreceipts := create_readReceipts db body createdAt
  cases hrow : NotificationRepository.create db body createdAt with
  | mk db' row? =>
    rw [hrow] at hreceipts
    simp only at hreceipts ⊢
    cases row? with
    | none => exact (create_none hrow).1 ▸ h
    | some new =>
      obtain ⟨hfresh, hrows, hid, -, -, -, -, hunread⟩ := create_some hrow
      constructor
      · rw [Database.ids, hrows, List.map_append, List.nodup_append]
        refine ⟨h.ids, List.nodup_singleton _, ?_⟩
        rintro m hm _ hnew rfl
        obtain rfl := by simpa using hnew
        exact hfresh (hid ▸ hm)
      · intro r hr
        rw [hreceipts] at hr
        obtain ⟨row, hmem, hrow⟩ := h.owner r hr
        exact ⟨row, hrows ▸ List.mem_append_left _ hmem, hrow⟩
      · intro row hmem
        rw [hrows, List.mem_append, List.mem_singleton] at hmem
        rw [receiptsOf, hreceipts]
        rcases hmem with hold | rfl
        · exact h.last row hold
        · have hnil := h.receiptsOf_eq_nil hfresh
          rw [receiptsOf] at hnil
          rw [hunread, hid, hnil]
          rfl

theorem ReadState.markDeliveredLive (h : ReadState db) :
    ReadState (NotificationRepository.markDeliveredLive db n) := by
  have hrow : ∀ row ∈ (NotificationRepository.markDeliveredLive db n).notifications,
      ∃ old ∈ db.notifications, row.notificationId = old.notificationId ∧
        row.readAt = old.readAt := by
    intro row hmem
    obtain ⟨old, hold, rfl⟩ := List.mem_map.mp hmem
    refine ⟨old, hold, ?_⟩
    split <;> exact ⟨rfl, rfl⟩
  constructor
  · rw [Database.ids_eq_records, records_markDeliveredLive, List.map_map]
    have hids := h.ids
    rw [Database.ids_eq_records] at hids
    convert hids using 2
    funext p
    simp only [Function.comp_apply]
    split <;> rfl
  · intro r hr
    obtain ⟨row, hmem, hid, huser⟩ := h.owner r hr
    refine ⟨_, List.mem_map_of_mem hmem, ?_⟩
    split <;> exact ⟨hid, huser⟩
  · intro row hmem
    obtain ⟨old, hold, hid, hread⟩ := hrow row hmem
    rw [hread, hid]
    exact h.last old hold

/-- What `mark_read` leaves is what was, or both writes. -/
theorem markRead_cases (db : Database) (n u : UUID) (t : Nat) : (markRead db n u t).1 = db ∨
    (∃ row ∈ db.notifications, owned n u row = true) ∧
      (markRead db n u t).1.notifications = db.notifications.map (fun row =>
        if owned n u row then { row with readAt := some t } else row) ∧
      (markRead db n u t).1.readReceipts = db.readReceipts ++ [⟨n, u, t⟩] := by
  unfold markRead
  split
  · rename_i hany
    exact .inr ⟨List.any_eq_true.mp hany, rfl, rfl⟩
  · exact .inl rfl

theorem ReadState.markRead (h : ReadState db) :
    ReadState (NotificationRepository.markRead db n u t).1 := by
  rcases markRead_cases db n u t with
    heq | ⟨⟨mine, hmine, howned⟩, hrows, hreceipts⟩
  · exact heq.symm ▸ h
  obtain ⟨hid, huser⟩ := owned_iff.mp howned
  constructor
  · have hrecords : (NotificationRepository.markRead db n u t).1.records = db.records :=
      records_markRead
    rw [Database.ids_eq_records, hrecords, ← Database.ids_eq_records]
    exact h.ids
  · intro r hr
    rw [hreceipts, List.mem_append, List.mem_singleton] at hr
    have hkept : ∀ row ∈ db.notifications, ∃ row' ∈
        (NotificationRepository.markRead db n u t).1.notifications,
        row'.notificationId = row.notificationId ∧ row'.userId = row.userId := by
      intro row hmem
      refine ⟨_, hrows ▸ List.mem_map_of_mem hmem, ?_⟩
      split <;> exact ⟨rfl, rfl⟩
    rcases hr with hr | rfl
    · obtain ⟨row, hmem, hrid, hruser⟩ := h.owner r hr
      obtain ⟨row', hmem', hid', huser'⟩ := hkept row hmem
      exact ⟨row', hmem', hid'.trans hrid, huser'.trans hruser⟩
    · obtain ⟨row', hmem', hid', huser'⟩ := hkept mine hmine
      exact ⟨row', hmem', hid'.trans hid, huser'.trans huser⟩
  · intro row hmem
    rw [hrows] at hmem
    obtain ⟨old, hold, rfl⟩ := List.mem_map.mp hmem
    rw [receiptsOf, hreceipts, List.filter_append]
    by_cases ho : owned n u old = true
    · simp [ho, (owned_iff.mp ho).1]
    · have hne : old.notificationId ≠ n := by
        intro heq
        -- one row has the id, and it is the owner's
        rw [h.row_inj hold hmine (heq.trans hid.symm)] at ho
        exact ho howned
      simp only [ho, Bool.false_eq_true, if_false]
      rw [show ([⟨n, u, t⟩] : List ReadReceipt).filter
          (fun r => decide (r.notificationId = old.notificationId)) = [] by simp [Ne.symm hne],
        List.append_nil]
      exact h.last old hold

/-! ## Runs of the repository -/

theorem ReadState.run (h : ReadState db) (call : RepositoryCall) : ReadState (call.run db) := by
  cases call with
  | create body createdAt => exact h.create
  | markDeliveredLive n => exact h.markDeliveredLive
  | markRead n u readAt raises =>
    simp only [RepositoryCall.run]
    rcases markRead_call db n u readAt raises with heq | heq
    · rwa [heq]
    · rw [heq]
      exact h.markRead

theorem ReadState.of_reach {G : Database → RepositoryCall → Prop} (h : Reach repository G db) :
    ReadState db := by
  refine h.invariant .init fun _ _ ih hstep => ?_
  obtain rfl := Option.some.inj hstep
  exact ih.run _

variable {env : Env} {w w' : World} {a : Action}

/-- The tables of the platform are those of a run of the repository. -/
theorem Reachable.repository (h : Reachable env w) :
    Reach repository (fun _ _ => True) w.shared.db := by
  refine h.simulated (N := App.repository) (·.shared.db) rfl fun {s _ _} _ _ hstep => ?_
  rcases (World.stepped hstep).database_cases with hkept | ⟨_, _, _, rfl, _, _, hcase⟩
  · exact .inl hkept
  · cases hcase with
    | kept hdb => exact .inl hdb
    | created hdb => exact .inr ⟨.create _ _, trivial, congrArg some hdb.symm⟩
    | delivered hdb => exact .inr ⟨.markDeliveredLive _, trivial, congrArg some hdb.symm⟩
    | @read n u hdb =>
      refine .inr ⟨.markRead n u s.shared.now fun _ => false, trivial, congrArg some ?_⟩
      rw [RepositoryCall.run, getSession_markRead, hdb]

theorem Reachable.readState (h : Reachable env w) : ReadState w.shared.db :=
  .of_reach h.repository

/-! ## Rows and receipts agree -/

structure ReadsAgree (db : Database) : Prop where
  owner : ∀ r ∈ db.readReceipts, ∃ row ∈ db.notifications,
    row.notificationId = r.notificationId ∧ row.userId = r.userId
  read_iff : ∀ row ∈ db.notifications, row.readAt ≠ none ↔
    ∃ r ∈ db.readReceipts, r.notificationId = row.notificationId
  last : ∀ row ∈ db.notifications, ∀ r,
    (receiptsOf db row.notificationId).getLast? = some r → row.readAt = some r.readAt

theorem ReadState.agree (h : ReadState db) : ReadsAgree db where
  owner := h.owner
  read_iff row hrow := by
    rw [h.last row hrow, ne_eq, Option.map_eq_none_iff, List.getLast?_eq_none_iff, receiptsOf,
      List.filter_eq_nil_iff]
    simp
  last row hrow r hr := by rw [h.last row hrow, hr, Option.map_some]

/-- `mark_read` changes the tables by both writes or not at all, and answers
which. -/
structure MarkReadAtomic (db : Database) : Prop where
  raised : ∀ n u t raises, (getSession (markReadBody raises n u t) db).2 = none →
    (getSession (markReadBody raises n u t) db).1 = db
  foreign : ∀ n u t raises,
    (∀ row ∈ db.notifications, row.notificationId = n → row.userId ≠ u) →
    (getSession (markReadBody raises n u t) db).1 = db
  returned_true : ∀ n u t raises, (getSession (markReadBody raises n u t) db).2 = some true ↔
    Written db n u t (getSession (markReadBody raises n u t) db).1

theorem not_written : ¬ Written db n u t db := by
  rintro ⟨-, hdb⟩
  have hlen := congrArg (fun d : Database => d.readReceipts.length) hdb
  simp [insertReceipt, updateReadAt] at hlen

theorem markRead_atomic (db : Database) : MarkReadAtomic db where
  raised n u t raises := by
    rw [getSession_markReadBody]
    split_ifs <;> simp
  foreign n u t raises h := by
    have hany : db.notifications.any (owned n u) = false := by
      rw [List.any_eq_false]
      intro row hrow ho
      exact h row hrow (owned_iff.mp ho).1 (owned_iff.mp ho).2
    rcases markRead_call db n u t raises with heq | heq
    · exact heq
    · rw [heq, markRead, hany]
      rfl
  returned_true n u t raises := by
    rw [getSession_markReadBody]
    split
    · simp [not_written]
    · split
      · rename_i hcount
        have hself := updateReadAt_eq_self (t := t) (rowcount_eq_zero.mp hcount)
        split <;> simp [hself, not_written]
      · rename_i hcount
        split
        · simp [not_written]
        · exact ⟨fun _ => ⟨hcount, rfl⟩, fun _ => rfl⟩

/-- After any calls of the writing methods, whatever raised in them. -/
theorem read_state_consistent (h : Reach repository (fun _ _ => True) db) :
    ReadsAgree db ∧ MarkReadAtomic db :=
  ⟨(ReadState.of_reach h).agree, markRead_atomic db⟩

/-- A notification is created and read, another acknowledgement raises. -/
def readCalls : List RepositoryCall :=
  [.create someBody newYear,
    .markRead someBody.notificationId someBody.userId 5 (fun _ => false),
    .markRead someBody.notificationId someBody.userId 6 (· = .insert)]

theorem read_state_consistent_read : ∃ db, repository.run ⟨[], []⟩ readCalls = some db ∧
    db.readReceipts.length = 1 ∧ ReadsAgree db ∧ MarkReadAtomic db := by
  obtain ⟨db, hrun, hlen⟩ : ∃ db, repository.run repository.init readCalls = some db ∧
      db.readReceipts.length = 1 := ⟨_, rfl, rfl⟩
  exact ⟨db, hrun, hlen,
    read_state_consistent (.of_actions (fun _ _ _ => trivial) hrun)⟩

/-! ## Receipts that are sent once -/

/-- The owner `u` has acknowledged the notification. -/
def acknowledged (db : Database) (n u : UUID) : Bool :=
  db.notifications.any fun row => owned n u row && row.readAt.isSome

def Op.repeatsReceipt (db : Database) : Op → Bool
  | .markRead n u => acknowledged db n u
  | _ => false

/-- No receipt of an owner takes effect for a notification it has acknowledged. -/
def sendsOneReceipt (env : Env) (w : World) : Action → Bool
  | .task _ .fail => true
  | .task id _ => !(w.awaits env id).any (·.repeatsReceipt w.shared.db)
  | _ => true

/-- No notification has two receipts. -/
structure AuditTrail (db : Database) : Prop where
  state : ReadState db
  single : ∀ n, (receiptsOf db n).length ≤ 1

/-- A row that is read is still in the tables, read at the same time. -/
def StaysRead (db db' : Database) : Prop :=
  ∀ row ∈ db.notifications, ∀ t, row.readAt = some t →
    ∃ row' ∈ db'.notifications, row'.notificationId = row.notificationId ∧ row'.readAt = some t

theorem StaysRead.refl (db : Database) : StaysRead db db := fun row hrow _ ht =>
  ⟨row, hrow, rfl, ht⟩

theorem StaysRead.trans {db₁ db₂ db₃ : Database} (h : StaysRead db₁ db₂)
    (h' : StaysRead db₂ db₃) : StaysRead db₁ db₃ := by
  intro row hrow t ht
  obtain ⟨row₂, hrow₂, hid₂, ht₂⟩ := h row hrow t ht
  obtain ⟨row₃, hrow₃, hid₃, ht₃⟩ := h' row₂ hrow₂ t ht₂
  exact ⟨row₃, hrow₃, hid₃.trans hid₂, ht₃⟩

/-- What a step of the platform does to the tables, receipts being sent once. -/
inductive ReceiptsCase (db db' : Database) : Prop where
  | kept : db' = db → ReceiptsCase db db'
  | created {body : NotificationCreate} {t : Datetime} :
      db' = (NotificationRepository.create db body t).1 → ReceiptsCase db db'
  | delivered {n : UUID} : db' = NotificationRepository.markDeliveredLive db n → ReceiptsCase db db'
  | read {n u : UUID} {t : Nat} : db' = (NotificationRepository.markRead db n u t).1 →
      acknowledged db n u = false → ReceiptsCase db db'

theorem Stepped.receiptsCase (h : Stepped env w a w') (hg : sendsOneReceipt env w a = true) :
    ReceiptsCase w.shared.db w'.shared.db := by
  rcases h.database_cases with hkept | ⟨id, o, op, rfl, ho, ha, hcase⟩
  · exact .kept hkept
  cases hcase with
  | kept hdb => exact .kept hdb
  | created hdb => exact .created hdb
  | delivered hdb => exact .delivered hdb
  | read hdb =>
    refine .read hdb ?_
    cases o with
    | fail => exact absurd rfl ho
    | ok _ | failApplied _ => simpa [sendsOneReceipt, ha, Op.repeatsReceipt] using hg

theorem AuditTrail.step (h : AuditTrail db) {db' : Database} (hcase : ReceiptsCase db db') :
    AuditTrail db' := by
  cases hcase with
  | kept hdb => exact hdb ▸ h
  | @created body t hdb =>
    subst hdb
    refine ⟨h.state.create, fun n => ?_⟩
    rw [receiptsOf, create_readReceipts]
    exact h.single n
  | delivered hdb =>
    subst hdb
    exact ⟨h.state.markDeliveredLive, h.single⟩
  | @read n u t hdb hack =>
    subst hdb
    refine ⟨h.state.markRead, fun m => ?_⟩
    rcases markRead_cases db n u t with
      heq | ⟨⟨row, hrow, ho⟩, -, hreceipts⟩
    · rw [heq]
      exact h.single m
    rw [receiptsOf, hreceipts, List.filter_append, List.length_append]
    by_cases hm : m = n
    · -- the row was unread, so it had no receipt
      subst hm
      have hunread : row.readAt = none := by
        simp only [acknowledged, List.any_eq_false, Bool.and_eq_true, not_and] at hack
        simpa using hack row hrow ho
      have hlast := h.state.last row hrow
      rw [hunread, (owned_iff.mp ho).1] at hlast
      have hnil : receiptsOf db m = [] := by simpa using hlast.symm
      rw [receiptsOf] at hnil
      simp [hnil]
    · have hold := h.single m
      rw [receiptsOf] at hold
      simpa [Ne.symm hm] using hold

theorem StaysRead.of_case {db' : Database} (hcase : ReceiptsCase db db') :
    StaysRead db db' := by
  intro row hrow t ht
  cases hcase with
  | kept hdb => exact ⟨row, hdb ▸ hrow, rfl, ht⟩
  | @created body createdAt hdb =>
    subst hdb
    refine ⟨row, ?_, rfl, ht⟩
    unfold create
    split
    · exact hrow
    · exact List.mem_append_left _ hrow
  | delivered hdb =>
    subst hdb
    refine ⟨_, List.mem_map_of_mem hrow, ?_⟩
    split <;> exact ⟨rfl, ht⟩
  | @read n u at_ hdb hack =>
    subst hdb
    rcases markRead_cases db n u at_ with heq | ⟨-, hrows, -⟩
    · exact ⟨row, heq.symm ▸ hrow, rfl, ht⟩
    · refine ⟨_, hrows ▸ List.mem_map_of_mem hrow, ?_⟩
      have hnot : owned n u row = false := by
        simp only [acknowledged, List.any_eq_false, Bool.and_eq_true, not_and] at hack
        by_contra ho
        exact hack row hrow (by simpa using ho) (by simp [ht])
      rw [hnot]
      exact ⟨rfl, ht⟩

/-! ## Receipts are idempotent -/

/-- At most one entry a user, and `read_at` final from here on. -/
structure Idempotent (env : Env) (w : World) : Prop where
  trail : ∀ n tie, ((getReadReceipts w.shared.db n tie).map (·.userId)).Nodup
  settled : ∀ w', Reach ((platform env).startAt w) (fun w a => sendsOneReceipt env w a) w' →
    StaysRead w.shared.db w'.shared.db

theorem AuditTrail.of_reach (h : Reach (platform env) (fun w a => sendsOneReceipt env w a) w) :
    AuditTrail w.shared.db := by
  refine h.invariant (I := fun w => AuditTrail w.shared.db)
    ⟨.init, by simp [platform, World.empty, receiptsOf]⟩ fun _ hg ih hstep => ?_
  exact ih.step ((World.stepped hstep).receiptsCase hg)

/-- In runs in which no receipt repeats one that took effect. -/
theorem receipts_idempotent (h : Reach (platform env) (fun w a => sendsOneReceipt env w a) w) :
    Idempotent env w where
  trail n tie := by
    have hlen : (getReadReceipts w.shared.db n tie).length ≤ 1 := by
      rw [getReadReceipts, orderBy_length]
      exact (AuditTrail.of_reach h).single n
    match getReadReceipts w.shared.db n tie, hlen with
    | [], _ => exact List.nodup_nil
    | [r], _ => exact List.nodup_singleton _
  settled w' hw' := by
    refine hw'.invariant (I := fun v => StaysRead w.shared.db v.shared.db) (.refl _)
      fun _ hg ih hstep => ?_
    exact ih.trans (.of_case ((World.stepped hstep).receiptsCase hg))

/-! ## A receipt that is repeated -/

def someId : String := "00000000-0000-0000-0000-000000000007"

/-- The defaults, with pydantic's reading of `someId`. -/
def receiptEnv : Env where
  validateUuid
    | .str s => if s = PyStr.ofString someId then some someBody.notificationId else none
    | _ => none

def readReceiptMessage : Json :=
  .obj [(PyStr.ofString "type", .str (PyStr.ofString "read_receipt")),
    (PyStr.ofString "notification_id", .str (PyStr.ofString someId))]

/-- The notification of `deliveryRun` is acknowledged. -/
def readRun : List Action := deliveryRun ++ Action.say 0 readReceiptMessage 1

/-- A microsecond later the client acknowledges again. -/
def rereadRun : List Action := .tick 1 :: Action.say 0 readReceiptMessage 1

set_option maxRecDepth 4000 in
theorem receipts_idempotent_read : ∃ w, (platform receiptEnv).run .empty readRun = some w ∧
    w.shared.db.readReceipts.length = 1 ∧ Idempotent receiptEnv w := by
  have hmeets : (platform receiptEnv).Meets (fun w a => sendsOneReceipt receiptEnv w a) .empty
      readRun := by decide
  obtain ⟨w, hrun, hlen⟩ : ∃ w, (platform receiptEnv).run .empty readRun = some w ∧
      w.shared.db.readReceipts.length = 1 := ⟨_, rfl, rfl⟩
  exact ⟨w, hrun, hlen, receipts_idempotent (.of_run .init hmeets hrun)⟩

/-- The second receipt is a second entry of one user, and moves `read_at`. -/
theorem receipts_not_idempotent : ∃ w w', (platform receiptEnv).run .empty readRun = some w ∧
    (platform receiptEnv).run w rereadRun = some w' ∧
    ¬ ((getReadReceipts w'.shared.db someBody.notificationId fun _ => 0).map (·.userId)).Nodup ∧
    ¬ StaysRead w.shared.db w'.shared.db := by
  obtain ⟨w, w', hrun, hrun', htrail, hread, hread'⟩ : ∃ w w',
      (platform receiptEnv).run .empty readRun = some w ∧
      (platform receiptEnv).run w rereadRun = some w' ∧
      (getReadReceipts w'.shared.db someBody.notificationId fun _ => 0).map (·.userId)
        = [someBody.userId, someBody.userId] ∧
      w.shared.db.notifications.map (·.readAt) = [some 0] ∧
      w'.shared.db.notifications.map (·.readAt) = [some 1] :=
    ⟨_, _, rfl, rfl, rfl, rfl, rfl⟩
  refine ⟨w, w', hrun, hrun', by simp [htrail], fun hstays => ?_⟩
  obtain ⟨row, hrow, ht⟩ := List.mem_map.mp (hread ▸ List.mem_singleton_self (some 0))
  obtain ⟨row', hrow', -, ht'⟩ := hstays row hrow 0 ht
  have hmem := List.mem_map_of_mem (f := (·.readAt)) hrow'
  simp [hread', ht'] at hmem

end RealtimeNotify.App
