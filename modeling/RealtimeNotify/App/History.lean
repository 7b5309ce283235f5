import RealtimeNotify.App.Database
import RealtimeNotify.Lib.Paging

/-!
# `GET /notifications/history`

The route, and the walk of a client that follows `next_cursor`. The cursor is
compared as an instant, so it is taken as it stands in the page; what the walk
sees is settled by the library on paging.
-/

namespace RealtimeNotify.App

open RealtimeNotify.Lib RealtimeNotify.Python

/-! ## The route -/

structure NotificationRead where
  notificationId : UUID
  userId : UUID
  type : String
  payload : Json
  createdAt : Datetime
  deliveredLive : Bool
  readAt : Option Nat

/-- `NotificationRead.model_validate(row)`. -/
def Notification.read (row : Notification) : NotificationRead :=
  { notificationId := row.notificationId, userId := row.userId, type := row.type,
    payload := row.payload, createdAt := row.createdAt, deliveredLive := row.deliveredLive,
    readAt := row.readAt }

theorem Notification.read_inj {row row' : Notification} (h : row.read = row'.read) :
    row = row' := by
  cases row
  cases row'
  simp_all [read]

structure NotificationHistoryPage where
  notifications : List NotificationRead
  nextCursor : Option Datetime

/-- `limit: int = Query(default=50, ge=1, le=200)`. -/
structure HistoryLimit where
  val : Nat := 50
  ge : 1 ≤ val := by decide
  le : val ≤ 200 := by decide

/-- `get_history(user_id, limit, before)`. -/
def getHistory (db : Database) (userId : UUID) (limit : HistoryLimit) (before : Option Datetime)
    (tie : UUID → Nat) : NotificationHistoryPage :=
  let rows := NotificationRepository.getHistory db userId limit.val before tie
  let notifications := rows.map (·.read)
  { notifications
    nextCursor :=
      if notifications.length = limit.val then notifications.getLast?.map (·.createdAt)
      else none }

/-! ## Following the cursor -/

/-- At most `fuel` requests over tables that do not change, from `before` on until
`next_cursor` is null. Rows of one timestamp may come in another order each time. -/
def followCursor (db : Database) (userId : UUID) (limit : HistoryLimit)
    (ties : Nat → UUID → Nat) : (fuel : Nat) → Option Datetime →
      Option (List NotificationHistoryPage)
  | 0, _ => none
  | fuel + 1, before =>
      let page := getHistory db userId limit before (ties fuel)
      match page.nextCursor with
      | none => some [page]
      | some cursor => (followCursor db userId limit ties fuel (some cursor)).map (page :: ·)

/-- The walk of a client, with more requests than there are rows. -/
def walkHistory (db : Database) (userId : UUID) (limit : HistoryLimit)
    (ties : Nat → UUID → Nat) : Option (List NotificationHistoryPage) :=
  followCursor db userId limit ties (db.notifications.length + 1) none

/-- The timestamps of a user's rows, latest first. -/
def historyInstants (db : Database) (userId : UUID) : List Int :=
  ((db.notifications.filter (·.userId = userId)).map (·.createdAt.instant)).insertionSort (· ≥ ·)

/-! ## The walk as a keyset walk -/

variable {db : Database} {u : UUID} {limit : HistoryLimit} {ties : Nat → UUID → Nat}

/-- Latest first is ascending in the dual order. -/
def Notification.recency (row : Notification) : Intᵒᵈ := OrderDual.toDual row.createdAt.instant

def recencyOf (before : Datetime) : Intᵒᵈ := OrderDual.toDual before.instant

def rowsOf (db : Database) (u : UUID) : List Notification :=
  db.notifications.filter (·.userId = u)

/-- The page of the route for a page of rows. -/
def historyPage (limit : HistoryLimit) (rows : List Notification) : NotificationHistoryPage :=
  ⟨rows.map (·.read), Lib.nextCursor (·.createdAt) limit.val rows⟩

theorem getHistory_eq_page {n : Nat} {before : Option Datetime} {tie : UUID → Nat} :
    NotificationRepository.getHistory db u n before tie
      = page Notification.recency (fun row => tie row.notificationId) n (before.map recencyOf)
          (rowsOf db u) := by
  cases before with
  | none =>
    have hall : beyond Notification.recency none (rowsOf db u) = rowsOf db u :=
      List.filter_eq_self.mpr fun _ _ => rfl
    rw [Option.map_none, page, hall]
    rfl
  | some before => rfl

theorem getHistory_eq {before : Option Datetime} {tie : UUID → Nat} :
    getHistory db u limit before tie = historyPage limit
      (page Notification.recency (fun row => tie row.notificationId) limit.val
        (before.map recencyOf) (rowsOf db u)) := by
  rw [getHistory, getHistory_eq_page, historyPage, nextCursor]
  simp [Function.comp_def, Notification.read]

theorem nextCursor_recency {rows : List Notification} :
    nextCursor Notification.recency limit.val rows
      = (historyPage limit rows).nextCursor.map recencyOf := by
  rw [historyPage, nextCursor, nextCursor]
  split
  · rw [Option.map_map]
    rfl
  · rfl

theorem followCursor_eq {fuel : Nat} {before : Option Datetime} :
    followCursor db u limit ties fuel before
      = (pages Notification.recency (fun n row => ties n row.notificationId) limit.val
          (rowsOf db u) fuel (before.map recencyOf)).map (·.map (historyPage limit)) := by
  induction fuel generalizing before with
  | zero => rfl
  | succ fuel ih =>
    rw [followCursor, pages, getHistory_eq, nextCursor_recency]
    cases hnext : (historyPage limit (page Notification.recency
        (fun row => ties fuel row.notificationId) limit.val (before.map recencyOf)
        (rowsOf db u))).nextCursor with
    | none => rfl
    | some cursor =>
      simp only [Option.map_some, ih, Option.map_map]
      rfl

theorem keys_recency :
    keys Notification.recency (rowsOf db u) = (historyInstants db u).map OrderDual.toDual := by
  have hsort := List.map_insertionSort (· ≥ ·) (· ≤ ·) OrderDual.toDual
    ((rowsOf db u).map (·.createdAt.instant)) fun a _ b _ => OrderDual.toDual_le_toDual.symm
  rw [List.map_map] at hsort
  exact hsort.symm

theorem mem_pages {ps : List (List Notification)} {row : Notification} :
    row.read ∈ (ps.map (historyPage limit)).flatMap (·.notifications) ↔ row ∈ ps.flatten := by
  have hread : Function.Injective Notification.read := fun _ _ => Notification.read_inj
  rw [List.flatMap_map]
  simp only [historyPage, List.mem_flatMap, List.mem_flatten, List.mem_map_of_injective hread]

/-- Whatever the order of rows with one timestamp, the walk comes to an end, and
it has returned every notification of the user iff no page break falls between
two rows of one timestamp. -/
theorem walkHistory_complete_iff (db : Database) (hdb : db.ids.Nodup) (u : UUID)
    (limit : HistoryLimit) (ties : Nat → UUID → Nat) :
    ∃ pages, walkHistory db u limit ties = some pages ∧
      ((∀ row ∈ db.notifications, row.userId = u →
          row.read ∈ pages.flatMap (·.notifications)) ↔
        CleanBreaks limit.val (historyInstants db u)) := by
  have hnodup : (rowsOf db u).Nodup := (List.Nodup.of_map _ hdb).filter _
  have hfuel : (beyond Notification.recency none (rowsOf db u)).length
      < db.notifications.length + 1 :=
    Nat.lt_succ_of_le ((List.length_filter_le _ _).trans (List.length_filter_le _ _))
  obtain ⟨ps, hps⟩ : ∃ ps, pages Notification.recency (fun n row => ties n row.notificationId)
      limit.val (rowsOf db u) (db.notifications.length + 1) none = some ps :=
    pages_isSome limit.ge hfuel
  refine ⟨ps.map (historyPage limit), by rw [walkHistory, followCursor_eq]; simp [hps], ?_⟩
  rw [← cleanBreaks_map OrderDual.toDual.injective, ← keys_recency,
    ← pages_complete_iff limit.ge hnodup hps]
  simp only [mem_pages, rowsOf, List.mem_filter, decide_eq_true_eq, and_imp]

def historyUser : UUID := ⟨2, by decide⟩

theorem newYear_valid : 1 ≤ 2026 ∧ 2026 ≤ 9999 ∧ 1 ≤ 1 ∧ 1 ≤ 12 ∧ 1 ≤ 1 ∧
    1 ≤ daysInMonth 2026 1 := by
  decide

theorem utc_valid : (0 : Int).natAbs < 86400 := by decide

def rowAt (n second : Nat) (hn : n < 2 ^ 128 := by decide) (hs : second < 60 := by decide) :
    Notification where
  notificationId := ⟨n, hn⟩
  userId := historyUser
  type := "message.received"
  payload := .obj []
  createdAt :=
    { year := 2026, month := 1, day := 1, hour := 0, minute := 0, second, microsecond := 0,
      utcoffset := 0, date_valid := newYear_valid, time_valid := by omega,
      offset_valid := utc_valid }
  deliveredLive := false
  readAt := none

/-- Rows of two seconds on pages of one row. -/
theorem walkHistory_complete_iff_two : ∃ pages,
    walkHistory ⟨[rowAt 0 0, rowAt 1 1], []⟩ historyUser { val := 1 } (fun _ _ => 0) = some pages ∧
    ∀ row ∈ [rowAt 0 0, rowAt 1 1], row.userId = historyUser →
      row.read ∈ pages.flatMap (·.notifications) := by
  obtain ⟨pages, hpages, hiff⟩ := walkHistory_complete_iff ⟨[rowAt 0 0, rowAt 1 1], []⟩
    (by decide) historyUser { val := 1 } fun _ _ => 0
  refine ⟨pages, hpages, hiff.mpr fun k hk hlt => ?_⟩
  obtain rfl : k = 1 := by
    have hbreaks : k * 1 < 2 := hlt
    omega
  decide

/-- Two rows of one second: the second one is on no page. -/
theorem walkHistory_complete_iff_tie : ∃ pages,
    walkHistory ⟨[rowAt 0 0, rowAt 1 0], []⟩ historyUser { val := 1 } (fun _ _ => 0)
      = some pages ∧
    rowAt 1 0 ∈ [rowAt 0 0, rowAt 1 0] ∧ (rowAt 1 0).userId = historyUser ∧
    (rowAt 1 0).read ∉ pages.flatMap (·.notifications) := by
  have hwalk : walkHistory ⟨[rowAt 0 0, rowAt 1 0], []⟩ historyUser { val := 1 } (fun _ _ => 0)
      = some [⟨[(rowAt 0 0).read], some (rowAt 0 0).createdAt⟩, ⟨[], none⟩] := rfl
  refine ⟨_, hwalk, by simp, rfl, fun hmem => ?_⟩
  have hrow : (rowAt 1 0).read = (rowAt 0 0).read := by simpa using hmem
  exact absurd (congrArg (·.notificationId) hrow) (by decide)

end RealtimeNotify.App
