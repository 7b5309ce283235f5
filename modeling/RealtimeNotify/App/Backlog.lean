import RealtimeNotify.App.History
import RealtimeNotify.App.Transactions
import RealtimeNotify.Lib.Draining

/-!
# Draining the backlog

A client that reconnects gets at most `limit` unread notifications, and gets the
next ones only once those are read. Here `get_unread_backlog` and `mark_read`
take turns until the query is empty. What comes out is settled by the library on
draining; the model's part is that `mark_read` of a batch takes just its rows out
of the query.
-/

namespace RealtimeNotify.App

open RealtimeNotify.Lib RealtimeNotify.Python
open NotificationRepository

/-- `mark_read` by the user of each row of a batch, in turn. -/
def readAll (db : Database) (userId : UUID) (readAt : UUID → Nat) (rows : List Notification) :
    Database :=
  rows.foldl (fun db row =>
    (markRead db row.notificationId userId (readAt row.notificationId)).1) db

/-- The batches until the backlog is empty, and the tables then, `none` if `fuel`
queries do not get there. Ties and clock are those of each round. -/
def drainBacklog (userId : UUID) (limit : Nat) (ties readAts : Nat → UUID → Nat) :
    (fuel : Nat) → Database → Option (List (List Notification) × Database)
  | 0, _ => none
  | fuel + 1, db =>
      match getUnreadBacklog db userId limit (ties fuel) with
      | [] => some ([], db)
      | row :: rows =>
          (drainBacklog userId limit ties readAts fuel
              (readAll db userId (readAts fuel) (row :: rows))).map
            fun (batches, db') => ((row :: rows) :: batches, db')

/-! ## What `mark_read` takes out of the backlog -/

section

variable {α : Type*} {l : List α} {f : α → α} {p q : α → Bool}

/-- A write that leaves alone what a query selects afterwards. -/
theorem filter_map_eq_filter (hp : ∀ a, p (f a) = q a) (hf : ∀ a, q a = true → f a = a) :
    (l.map f).filter p = l.filter q := by
  rw [List.filter_map, Function.comp_def]
  simp only [hp]
  conv_rhs => rw [← List.map_id (l.filter q)]
  exact List.map_congr_left fun a ha => hf a (List.mem_filter.mp ha).2

end

variable {db db' : Database} {u n : UUID} {t limit : Nat} {readAt : UUID → Nat}
  {ties readAts : Nat → UUID → Nat} {rows : List Notification}

theorem markRead_notifications : (markRead db n u t).1.notifications
    = db.notifications.map fun row =>
        if owned n u row then { row with readAt := some t } else row := by
  cases hany : db.notifications.any (owned n u) with
  | true => rw [markRead, hany, if_pos rfl]
  | false =>
    have hsame := congrArg (·.notifications) (updateReadAt_eq_self (t := t) hany)
    rw [markRead, hany, if_neg Bool.false_ne_true]
    exact hsame.symm

/-- The rows that `mark_read` writes leave the backlog, and no others do. -/
theorem unread_markRead :
    unread (markRead db n u t).1 u = retire (·.notificationId) [n] (unread db u) := by
  rw [retire, unread, unread, List.filter_filter, markRead_notifications]
  refine filter_map_eq_filter (fun row => ?_) fun row hrow => ?_
  · by_cases hn : row.notificationId = n <;> by_cases hu : row.userId = u <;>
      simp [owned, hn, hu]
  · have hne : row.notificationId ≠ n := by
      simpa using (Bool.and_eq_true_iff.mp hrow).1
    simp [owned, hne]

/-- The rows and receipts of the other users, as they stand in the tables. -/
def othersOf (db : Database) (u : UUID) : List Notification × List ReadReceipt :=
  (db.notifications.filter (·.userId ≠ u), db.readReceipts.filter (·.userId ≠ u))

theorem othersOf_markRead : othersOf (markRead db n u t).1 u = othersOf db u := by
  refine Prod.ext ?_ ?_
  · simp only [othersOf, markRead_notifications]
    refine filter_map_eq_filter (fun row => ?_) fun row hrow => ?_
    · split <;> rfl
    · have hne : row.userId ≠ u := of_decide_eq_true hrow
      simp [owned, hne]
  · simp only [othersOf, markRead]
    split
    · simp
    · rfl

/-! ## Draining it -/

theorem unread_readAll (readAt : UUID → Nat) : unread (readAll db u readAt rows) u
    = retire (·.notificationId) (rows.map (·.notificationId)) (unread db u) := by
  induction rows generalizing db with
  | nil => simp [readAll, retire]
  | cons row rows ih =>
    rw [readAll, List.foldl_cons, ← readAll, ih, unread_markRead, retire_retire,
      List.singleton_append, List.map_cons]

theorem othersOf_readAll : othersOf (readAll db u readAt rows) u = othersOf db u := by
  induction rows generalizing db with
  | nil => rfl
  | cons row rows ih => rw [readAll, List.foldl_cons, ← readAll, ih, othersOf_markRead]

/-- A row's age in the order of the backlog. -/
def Notification.age (row : Notification) : Int := row.createdAt.instant

theorem getUnreadBacklog_eq {tie : UUID → Nat} : getUnreadBacklog db u limit tie
    = batch Notification.age (fun row => tie row.notificationId) limit (unread db u) := rfl

/-- The rounds on the tables are rounds of the library on the unread rows. -/
theorem drainBacklog_eq (readAts : Nat → UUID → Nat) {fuel : Nat} :
    (drainBacklog u limit ties readAts fuel db).map Prod.fst
      = drained (·.notificationId) Notification.age (fun k row => ties k row.notificationId) limit
          fuel (unread db u) := by
  induction fuel generalizing db with
  | zero => rfl
  | succ fuel ih =>
    rw [drainBacklog, drained, getUnreadBacklog_eq]
    cases hbatch : batch Notification.age (fun row => ties fuel row.notificationId) limit
        (unread db u) with
    | nil => rfl
    | cons row rows =>
      simp only [← unread_readAll (readAts fuel), ← ih, Option.map_map]
      rfl

/-- The drain ends with an empty backlog and leaves the other users alone. -/
theorem drainBacklog_end (hpos : 0 < limit) {fuel : Nat} {batches : List (List Notification)}
    (h : drainBacklog u limit ties readAts fuel db = some (batches, db')) :
    unread db' u = [] ∧ othersOf db' u = othersOf db u := by
  induction fuel generalizing db batches with
  | zero => cases h
  | succ fuel ih =>
    rw [drainBacklog, getUnreadBacklog_eq] at h
    split at h
    · rename_i hnil
      cases h
      exact ⟨(batch_eq_nil hpos).mp hnil, rfl⟩
    · obtain ⟨⟨rest, db''⟩, hrest, heq⟩ := Option.map_eq_some_iff.mp h
      cases heq
      obtain ⟨hempty, hothers⟩ := ih hrest
      exact ⟨hempty, hothers.trans othersOf_readAll⟩

theorem unread_eq_filter : unread db u
    = db.notifications.filter fun row => row.userId = u ∧ row.readAt = none := by
  refine List.filter_congr fun row _ => ?_
  cases hread : row.readAt <;> simp

/-- What came out of the backlog, and the tables before and after. -/
structure BacklogDrained (db db' : Database) (u : UUID) (limit : Nat)
    (batches : List (List Notification)) : Prop where
  all : batches.flatten.Perm
    (db.notifications.filter fun row => row.userId = u ∧ row.readAt = none)
  once : (batches.flatten.map (·.notificationId)).Nodup
  ordered : batches.flatten.Pairwise fun row row' =>
    row.createdAt.instant ≤ row'.createdAt.instant
  nonempty : ∀ b ∈ batches, b ≠ []
  rounds : batches.length = batches.flatten.length ⌈/⌉ limit
  empty : ∀ tie, getUnreadBacklog db' u limit tie = []
  others : othersOf db' u = othersOf db u

/-- However rows of one timestamp are ordered in each round, reading the backlog
batch by batch gets every unread row once, oldest first, in as few batches as
hold them, and then nothing. -/
theorem backlog_drains (db : Database) (hdb : db.ids.Nodup) (u : UUID) {limit : Nat}
    (hlimit : 1 ≤ limit) (ties readAts : Nat → UUID → Nat) {fuel : Nat}
    (hfuel : db.notifications.countP (fun row => row.userId = u ∧ row.readAt = none) ⌈/⌉ limit
      < fuel) :
    ∃ batches db', drainBacklog u limit ties readAts fuel db = some (batches, db') ∧
      BacklogDrained db db' u limit batches := by
  rw [List.countP_eq_length_filter, ← unread_eq_filter] at hfuel
  have hids : ((unread db u).map (·.notificationId)).Nodup :=
    hdb.sublist (List.filter_sublist.map _)
  obtain ⟨batches, hbatches, hdrains⟩ := drained_drains Notification.age
    (fun k row => ties k row.notificationId) hlimit hids hfuel
  rw [← drainBacklog_eq readAts, Option.map_eq_some_iff] at hbatches
  obtain ⟨⟨_, db'⟩, hdrain, rfl⟩ := hbatches
  obtain ⟨hempty, hothers⟩ := drainBacklog_end hlimit hdrain
  refine ⟨_, db', hdrain, ?_⟩
  exact {
    all := unread_eq_filter ▸ hdrains.perm
    once := (hdrains.perm.map _).nodup_iff.mpr hids
    ordered := hdrains.sorted
    nonempty := hdrains.nonempty
    rounds := by rw [hdrains.rounds, hdrains.perm.length_eq]
    empty := fun tie => by rw [getUnreadBacklog_eq, batch_eq_nil hlimit, hempty]
    others := hothers }

/-- The batch of two cuts between two rows of one second. -/
def backlogTables : Database :=
  ⟨[rowAt 0 5, rowAt 1 3, rowAt 4 5, { rowAt 3 4 with userId := ⟨3, by decide⟩ }], []⟩

theorem backlog_drains_two : 1 ≤ 2 ∧ ∃ batches db',
    drainBacklog historyUser 2 (fun _ _ => 0) (fun k _ => k) 3 backlogTables
      = some (batches, db') ∧
    BacklogDrained backlogTables db' historyUser 2 batches :=
  ⟨by decide, backlog_drains backlogTables (by decide) historyUser (by decide) (fun _ _ => 0)
    (fun k _ => k) (by decide)⟩

end RealtimeNotify.App
