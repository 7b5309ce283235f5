import RealtimeNotify.Lib.Keyset
import RealtimeNotify.Python.Datetime
import RealtimeNotify.Python.Json
import RealtimeNotify.Python.Uuid

/-!
# The tables and `NotificationRepository`

A repository method is one transaction, taken as one step. Rows are never
deleted. `created_at` is the server default `now()`, which the environment
supplies; the `id` columns are left out, as no query reads them.
-/

namespace RealtimeNotify.App

open RealtimeNotify.Lib RealtimeNotify.Python

/-- The validated body of `POST /notifications`. -/
structure NotificationCreate where
  notificationId : UUID
  userId : UUID
  type : String
  payload : Json

/-- The five fields of a notification that are sent to clients. -/
structure NotificationEnvelope where
  notificationId : UUID
  userId : UUID
  type : String
  payload : Json
  createdAt : Datetime

/-- A row of `notifications`. -/
structure Notification where
  notificationId : UUID
  userId : UUID
  type : String
  payload : Json
  createdAt : Datetime
  deliveredLive : Bool
  readAt : Option Nat

def Notification.envelope (row : Notification) : NotificationEnvelope :=
  ⟨row.notificationId, row.userId, row.type, row.payload, row.createdAt⟩

/-- A row without when it was read. -/
def Notification.record (row : Notification) : NotificationEnvelope × Bool :=
  (row.envelope, row.deliveredLive)

@[simp] theorem Notification.envelope_notificationId (row : Notification) :
    row.envelope.notificationId = row.notificationId := rfl

@[simp] theorem Notification.envelope_userId (row : Notification) :
    row.envelope.userId = row.userId := rfl

/-- A row of `read_receipts`. -/
structure ReadReceipt where
  notificationId : UUID
  userId : UUID
  readAt : Nat

structure Database where
  notifications : List Notification
  readReceipts : List ReadReceipt

namespace Database

def ids (db : Database) : List UUID := db.notifications.map (·.notificationId)

def envelopes (db : Database) : List NotificationEnvelope := db.notifications.map (·.envelope)

/-- The rows without when they were read. -/
def records (db : Database) : List (NotificationEnvelope × Bool) :=
  db.notifications.map (·.record)

variable {db db' : Database}

theorem envelopes_eq_records : db.envelopes = db.records.map Prod.fst := by
  simp [envelopes, records, Notification.record]

theorem ids_eq_records : db.ids = db.records.map (·.1.notificationId) := by
  simp [ids, records, Notification.record]

theorem ids_eq_envelopes : db.ids = db.envelopes.map (·.notificationId) := by
  simp [ids, envelopes]

theorem mem_ids_of_mem_envelopes {e : NotificationEnvelope} (h : e ∈ db.envelopes) :
    e.notificationId ∈ db.ids := by
  obtain ⟨row, hrow, rfl⟩ := List.mem_map.mp h
  exact List.mem_map_of_mem hrow

end Database

namespace NotificationRepository

/-- `INSERT ... ON CONFLICT (notification_id) DO NOTHING RETURNING`, committed. -/
def create (db : Database) (body : NotificationCreate) (createdAt : Datetime) :
    Database × Option Notification :=
  if db.notifications.any (·.notificationId = body.notificationId) then (db, none)
  else
    let row : Notification :=
      { notificationId := body.notificationId, userId := body.userId, type := body.type,
        payload := body.payload, createdAt, deliveredLive := false, readAt := none }
    ({ db with notifications := db.notifications ++ [row] }, some row)

def markDeliveredLive (db : Database) (notificationId : UUID) : Database :=
  { db with notifications := db.notifications.map fun row =>
      if row.notificationId = notificationId then { row with deliveredLive := true } else row }

/-- `WHERE notification_id = :n AND user_id = :u`. -/
def owned (notificationId userId : UUID) (row : Notification) : Bool :=
  row.notificationId = notificationId && row.userId = userId

/-- The update, and the receipt unless the update matched no row. -/
def markRead (db : Database) (notificationId userId : UUID) (readAt : Nat) : Database × Bool :=
  if db.notifications.any (owned notificationId userId) then
    ({ notifications := db.notifications.map fun row =>
         if owned notificationId userId row then { row with readAt := some readAt } else row,
       readReceipts := db.readReceipts ++ [⟨notificationId, userId, readAt⟩] }, true)
  else (db, false)

/-- The unread rows of a user. -/
def unread (db : Database) (userId : UUID) : List Notification :=
  db.notifications.filter fun row => row.userId = userId && row.readAt.isNone

def getUnreadBacklog (db : Database) (userId : UUID) (limit : Nat) (tie : UUID → Nat) :
    List Notification :=
  (orderBy (·.createdAt.instant) (fun row => tie row.notificationId) (unread db userId)).take limit

/-- Latest first: the order is that of `Int` turned around. -/
def getHistory (db : Database) (userId : UUID) (limit : Nat) (before : Option Datetime)
    (tie : UUID → Nat) : List Notification :=
  let rows := db.notifications.filter (·.userId = userId)
  let rows := match before with
    | some before => rows.filter (·.createdAt.instant < before.instant)
    | none => rows
  (orderBy (fun row => OrderDual.toDual row.createdAt.instant)
    (fun row => tie row.notificationId) rows).take limit

/-- The receipts of a notification, in the order they were written. -/
def receiptsOf (db : Database) (notificationId : UUID) : List ReadReceipt :=
  db.readReceipts.filter (·.notificationId = notificationId)

def getReadReceipts (db : Database) (notificationId : UUID) (tie : ReadReceipt → Nat) :
    List ReadReceipt :=
  orderBy (·.readAt) tie (receiptsOf db notificationId)

/-! ## What each method does to the rows -/

variable {db db' : Database} {body : NotificationCreate} {t : Datetime} {n : UUID}

theorem create_none (h : create db body t = (db', none)) :
    db' = db ∧ body.notificationId ∈ db.ids := by
  unfold create at h
  split at h
  · rename_i hany
    obtain ⟨rfl, -⟩ := by simpa using h
    simpa [Database.ids] using hany
  · simp at h

theorem create_some {row : Notification} (h : create db body t = (db', some row)) :
    body.notificationId ∉ db.ids ∧ db'.notifications = db.notifications ++ [row] ∧
      row.notificationId = body.notificationId ∧ row.userId = body.userId ∧
      row.type = body.type ∧ row.payload = body.payload ∧ row.deliveredLive = false ∧
      row.readAt = none := by
  unfold create at h
  split at h
  · simp at h
  · rename_i hany
    obtain ⟨rfl, rfl⟩ := by simpa using h
    exact ⟨by simpa [Database.ids] using hany, rfl, rfl, rfl, rfl, rfl, rfl, rfl⟩

theorem records_markRead {u : UUID} {at_ : Nat} :
    (markRead db n u at_).1.records = db.records := by
  by_cases hany : db.notifications.any (owned n u)
  · rw [markRead, if_pos hany, Database.records, List.map_map]
    refine List.map_congr_left fun row _ => ?_
    by_cases h : owned n u row <;> simp [h, Notification.record, Notification.envelope]
  · rw [markRead, if_neg hany]

theorem records_markDeliveredLive : (markDeliveredLive db n).records
    = db.records.map fun p => if p.1.notificationId = n then (p.1, true) else p := by
  rw [markDeliveredLive, Database.records, Database.records, List.map_map, List.map_map]
  refine List.map_congr_left fun row _ => ?_
  by_cases h : row.notificationId = n <;> simp [h, Notification.record, Notification.envelope]

theorem envelopes_markRead {u : UUID} {at_ : Nat} :
    (markRead db n u at_).1.envelopes = db.envelopes := by
  rw [Database.envelopes_eq_records, records_markRead, Database.envelopes_eq_records]

/-- The flag is not part of what is sent to clients. -/
theorem envelopes_of_marked (h : db'.records
    = db.records.map fun p => if p.1.notificationId = n then (p.1, true) else p) :
    db'.envelopes = db.envelopes := by
  rw [Database.envelopes_eq_records, Database.envelopes_eq_records, h, List.map_map]
  refine List.map_congr_left fun p _ => ?_
  simp only [Function.comp_apply]
  split <;> rfl

theorem envelopes_markDeliveredLive : (markDeliveredLive db n).envelopes = db.envelopes :=
  envelopes_of_marked records_markDeliveredLive

theorem mem_getUnreadBacklog {u : UUID} {limit : Nat} {tie : UUID → Nat} {row : Notification}
    (h : row ∈ getUnreadBacklog db u limit tie) : row ∈ db.notifications ∧ row.userId = u := by
  have hmem := List.mem_of_mem_take h
  simp only [mem_orderBy, unread, List.mem_filter, Bool.and_eq_true, decide_eq_true_eq] at hmem
  exact ⟨hmem.1, hmem.2.1⟩

/-- Within the limit the backlog has every unread row. -/
theorem getUnreadBacklog_complete {u : UUID} {limit : Nat} {tie : UUID → Nat}
    (hlimit : (unread db u).length ≤ limit) {row : Notification} (h : row ∈ unread db u) :
    row ∈ getUnreadBacklog db u limit tie := by
  rw [getUnreadBacklog, List.take_of_length_le (by simpa using hlimit)]
  exact mem_orderBy.mpr h

end NotificationRepository

end RealtimeNotify.App
