import RealtimeNotify.App.Database
import RealtimeNotify.Lib.Machine

/-!
# The repository, statement by statement

`get_session` around `mark_read`: a statement works on the copy of the database
that its session has, `commit` makes that copy the database, and an exception
leaves the block, which rolls back. Below, the three writing methods as the
steps of one machine.
-/

namespace RealtimeNotify.App

open RealtimeNotify.Lib RealtimeNotify.Python

/-! ## A session -/

/-- The awaited statements of `mark_read`. -/
inductive Statement where
  | update
  | insert
  | commit
  deriving DecidableEq

/-- What every session sees, and what this one has written. -/
structure Transaction where
  committed : Database
  working : Database

/-- The body of `async with get_session()`: an exception or a value. -/
abbrev SessionM (α : Type) := Transaction → Transaction × Option α

namespace SessionM

instance : Monad SessionM where
  pure a := fun t => (t, some a)
  bind x f := fun t =>
    match x t with
    | (t, some a) => f a t
    | (t, none) => (t, none)

/-- `await self._session.execute(stmt)`; `raises` says which statements raise. -/
def execute {α : Type} (raises : Statement → Bool) (s : Statement)
    (write : Database → Database × α) : SessionM α := fun t =>
  if raises s then (t, none)
  else ({ t with working := (write t.working).1 }, some (write t.working).2)

/-- `await self._session.commit()`; one that raises took no effect. -/
def commit (raises : Statement → Bool) : SessionM Unit := fun t =>
  if raises .commit then (t, none) else ({ t with committed := t.working }, some ())

end SessionM

/-- `async with session_factory() as session`: what was not committed is rolled
back when the block is left. -/
def getSession {α : Type} (body : SessionM α) (db : Database) : Database × Option α :=
  ((body ⟨db, db⟩).1.committed, (body ⟨db, db⟩).2)

/-! ## `mark_read` -/

namespace NotificationRepository

/-- The update, with its `rowcount`. -/
def updateReadAt (notificationId userId : UUID) (readAt : Nat) (db : Database) :
    Database × Nat :=
  ({ db with notifications := db.notifications.map fun row =>
      if owned notificationId userId row then { row with readAt := some readAt } else row },
    db.notifications.countP (owned notificationId userId))

def insertReceipt (notificationId userId : UUID) (readAt : Nat) (db : Database) :
    Database × Unit :=
  ({ db with readReceipts := db.readReceipts ++ [⟨notificationId, userId, readAt⟩] }, ())

/-- `mark_read` as it is written; the value is its return value. -/
def markReadBody (raises : Statement → Bool) (notificationId userId : UUID) (readAt : Nat) :
    SessionM Bool := do
  let rowcount ← SessionM.execute raises .update (updateReadAt notificationId userId readAt)
  if rowcount = 0 then
    SessionM.commit raises
    return false
  SessionM.execute raises .insert (insertReceipt notificationId userId readAt)
  SessionM.commit raises
  return true

variable {db : Database} {n u : UUID} {t : Nat} {raises : Statement → Bool}

theorem rowcount_eq_zero : (updateReadAt n u t db).2 = 0 ↔
    db.notifications.any (owned n u) = false := by
  simp [updateReadAt, List.countP_eq_zero]

/-- An update that matches no row writes nothing. -/
theorem updateReadAt_eq_self (h : db.notifications.any (owned n u) = false) :
    (updateReadAt n u t db).1 = db := by
  have hrow : ∀ row ∈ db.notifications, owned n u row = false := by simpa using h
  have hmap : db.notifications.map (fun row =>
      if owned n u row then { row with readAt := some t } else row) = db.notifications := by
    conv_rhs => rw [← List.map_id db.notifications]
    refine List.map_congr_left fun row hmem => ?_
    rw [hrow row hmem]
    rfl
  simp only [updateReadAt, hmap]

/-- Both writes of `mark_read`, the update matching a row. -/
def Written (db : Database) (n u : UUID) (t : Nat) (db' : Database) : Prop :=
  (updateReadAt n u t db).2 ≠ 0 ∧ db' = (insertReceipt n u t (updateReadAt n u t db).1).1

/-- The paths through `mark_read`. -/
theorem getSession_markReadBody : getSession (markReadBody raises n u t) db =
    if raises .update then (db, none)
    else if (updateReadAt n u t db).2 = 0 then
      if raises .commit then (db, none) else ((updateReadAt n u t db).1, some false)
    else if raises .insert || raises .commit then (db, none)
    else ((insertReceipt n u t (updateReadAt n u t db).1).1, some true) := by
  by_cases h0 : (updateReadAt n u t db).2 = 0 <;> cases hu : raises .update <;>
    cases hi : raises .insert <;> cases hc : raises .commit <;>
    simp [getSession, markReadBody, SessionM.execute, SessionM.commit, bind, pure, h0, hu, hi, hc]

/-- `markRead` is `mark_read` with nothing raised. -/
theorem getSession_markRead (db : Database) (n u : UUID) (t : Nat) :
    getSession (markReadBody (fun _ => false) n u t) db
    = ((markRead db n u t).1, some (markRead db n u t).2) := by
  rw [getSession_markReadBody, if_neg Bool.false_ne_true]
  cases hany : db.notifications.any (owned n u) with
  | false =>
    rw [if_pos (rowcount_eq_zero.mpr hany), if_neg Bool.false_ne_true, updateReadAt_eq_self hany,
      markRead, hany]
    rfl
  | true =>
    have hcount : (updateReadAt n u t db).2 ≠ 0 := by
      rw [ne_eq, rowcount_eq_zero, hany]
      exact Bool.false_ne_true.symm
    rw [if_neg hcount, markRead, hany]
    rfl

/-- Whatever is raised, `mark_read` is done as a whole or not at all. -/
theorem markRead_call (db : Database) (n u : UUID) (t : Nat) (raises : Statement → Bool) :
    (getSession (markReadBody raises n u t) db).1 = db ∨
      (getSession (markReadBody raises n u t) db).1 = (markRead db n u t).1 := by
  have hall := getSession_markRead db n u t
  rw [getSession_markReadBody, if_neg Bool.false_ne_true] at hall
  rw [getSession_markReadBody]
  split
  · exact .inl rfl
  · split
    · rename_i hcount
      split
      · exact .inl rfl
      · exact .inl (updateReadAt_eq_self (rowcount_eq_zero.mp hcount))
    · rename_i hcount
      split
      · exact .inl rfl
      · rw [if_neg hcount] at hall
        exact .inr (congrArg Prod.fst hall)

end NotificationRepository

/-! ## The writing methods as one machine -/

inductive RepositoryCall where
  | create (body : NotificationCreate) (createdAt : Datetime)
  | markDeliveredLive (notificationId : UUID)
  | markRead (notificationId userId : UUID) (readAt : Nat) (raises : Statement → Bool)

open NotificationRepository in
def RepositoryCall.run (db : Database) : RepositoryCall → Database
  | .create body createdAt => (NotificationRepository.create db body createdAt).1
  | .markDeliveredLive n => NotificationRepository.markDeliveredLive db n
  | .markRead n u readAt raises => (getSession (markReadBody raises n u readAt) db).1

/-- Any run of `create`, `mark_delivered_live` and `mark_read`. -/
def repository : Machine Database RepositoryCall := ⟨⟨[], []⟩, fun db c => some (c.run db)⟩

end RealtimeNotify.App
