import RealtimeNotify.App.Operations

/-! # `POST /notifications` -/

namespace RealtimeNotify.App

open RealtimeNotify.Lib RealtimeNotify.Python

structure NotificationCreateResponse where
  notificationId : UUID
  persisted : Bool
  deliveredLive : Bool

/-- The points of `create_notification`. `row` is the inserted row and `owner`
the local variable `owning_instance`. -/
inductive CreatePc where
  | allow
  | hasSeen
  | create
  | markSeen (row : Option Notification)
  | lookup (row : Notification)
  | isAlive (row : Notification) (owner : String)
  | publish (row : Notification) (owner : String)
  | markDelivered (row : Notification)
  | returned (response : NotificationCreateResponse)
  | rejected (error : HTTPException)
  | raised
  | killed

namespace CreatePc

/-- The inserted row, from the insertion on. -/
def row? : CreatePc → Option Notification
  | markSeen row => row
  | lookup row | isAlive row _ | publish row _ | markDelivered row => some row
  | _ => none

/-- Past an insertion of its own. -/
def inserted : CreatePc → Bool
  | markSeen row => row.isSome
  | lookup _ | isAlive _ _ | publish _ _ | markDelivered _ => true
  | returned response => response.persisted
  | _ => false

/-- Past an insertion of its own and before the publication. -/
def unpublished : CreatePc → Bool
  | markSeen row => row.isSome
  | lookup _ | isAlive _ _ | publish _ _ => true
  | _ => false

/-- Answered by the database or by the guard. -/
def settled : CreatePc → Bool
  | markSeen _ | lookup _ | isAlive _ _ | publish _ _ | markDelivered _ | returned _ => true
  | _ => false

/-- What becomes of a request whose process dies. -/
def kill : CreatePc → CreatePc
  | returned response => returned response
  | rejected error => rejected error
  | raised => raised
  | _ => killed

/-- `create_notification(body)` for a request from the host `client`. -/
def next (env : Env) (client : Option String) (body : NotificationCreate) :
    CreatePc → Step CreatePc
  | allow => .call
      (.redis (RateLimiter.allow (client.getD "unknown") env.apiRateLimitRequests
        env.apiRateLimitWindowSeconds))
      (fun (ok : Bool) => if ok then hasSeen else rejected
        ⟨429, "Rate limit exceeded for notification triggers from this caller"⟩) raised
  | hasSeen => .call (.redis (IdempotencyGuard.hasSeen body.notificationId))
      (fun (seen : Option RedisValue) =>
        if seen.isSome then returned ⟨body.notificationId, false, false⟩ else create) raised
  | create => .call (.create body) (fun row => markSeen row) raised
  | markSeen row => .call
      (.redis (IdempotencyGuard.markSeen body.notificationId env.idempotencyTtlSeconds))
      (fun _ => match row with
        | none => returned ⟨body.notificationId, false, false⟩
        | some row => lookup row) raised
  | lookup row => .call (.redis (InstanceRegistry.lookup body.userId.str))
      (fun (owner : Option RedisValue) => match owner with
        | none => returned ⟨body.notificationId, true, false⟩
        | some owner => isAlive row owner.decode) raised
  | isAlive row owner => .call (.redis (InstanceRegistry.isAlive owner))
      (fun (alive : Bool) => if alive then publish row owner
        else returned ⟨body.notificationId, true, false⟩) raised
  | publish row owner => .call (.publish owner body.userId.str row.envelope.live)
      (fun _ => markDelivered row) raised
  | markDelivered row => .call (.markDeliveredLive row.notificationId)
      (fun _ => returned ⟨body.notificationId, true, true⟩) raised
  | returned _ | rejected _ | raised | killed => .done

/-! ## The course of a request -/

theorem inserted_of_unpublished {pc : CreatePc} (h : pc.unpublished = true) :
    pc.inserted = true := by
  cases pc <;> simp_all [unpublished, inserted]

/-- What `pc'` has behind it, `pc` has behind it too. -/
structure Weaker (pc' pc : CreatePc) : Prop where
  inserted : pc'.inserted = true → pc.inserted = true
  unpublished : pc'.unpublished = true → pc.unpublished = true
  row : ∀ row, pc'.row? = some row → pc.row? = some row
  delivering : ∀ row, pc' = markDelivered row → pc = markDelivered row

theorem Weaker.refl (pc : CreatePc) : Weaker pc pc :=
  ⟨id, id, fun _ => id, fun _ => id⟩

/-- A point with nothing behind it. -/
theorem Weaker.of_blank {pc' pc : CreatePc} (hi : pc'.inserted = false) (hr : pc'.row? = none) :
    Weaker pc' pc := by
  cases pc' <;> constructor <;> simp_all [CreatePc.inserted, CreatePc.unpublished, row?]

theorem weaker_kill (pc : CreatePc) : Weaker pc.kill pc := by
  cases pc <;> first | exact .refl _ | exact .of_blank rfl rfl

variable {env : Env} {client : Option String} {body : NotificationCreate} {pc r : CreatePc}
  {op : Op} {k : op.Reply → CreatePc}

/-- A request is settled by the insertion or by the guard. -/
theorem settled_next (h : pc.next env client body = .call op k r) {reply : op.Reply}
    (hs : (k reply).settled = true) : pc.settled = true ∨ pc = create ∨
      pc = hasSeen ∧ k reply ≠ create := by
  cases pc with
  | allow =>
    cases h
    cases reply <;> simp [settled] at hs
  | hasSeen =>
    cases h
    exact .inr (.inr ⟨rfl, fun hk => by simp [hk, settled] at hs⟩)
  | create => exact .inr (.inl rfl)
  | markSeen _ | lookup _ | isAlive _ _ | publish _ _ | markDelivered _ => exact .inl rfl
  | returned _ | rejected _ | raised | killed => cases h

theorem settled_of_kill {pc : CreatePc} (h : pc.kill.settled = true) : pc.settled = true := by
  cases pc <;> simp_all [kill, settled]

/-- A response carries the id that was asked for. -/
theorem returned_id (h : pc.next env client body = .call op k r) {reply : op.Reply}
    {response : NotificationCreateResponse} (hk : k reply = returned response) :
    response.notificationId = body.notificationId := by
  cases pc with
  | allow | hasSeen | isAlive row owner =>
    cases h
    cases reply <;> simp at hk <;> simp [← hk]
  | markSeen row =>
    cases h
    cases row <;> simp at hk
    simp [← hk]
  | lookup row =>
    cases h
    cases reply <;> simp at hk
    simp [← hk]
  | markDelivered row =>
    cases h
    simp at hk
    simp [← hk]
  | create | publish _ _ =>
    cases h
    simp at hk
  | returned _ | rejected _ | raised | killed => cases h

theorem raised_eq (h : pc.next env client body = .call op k r) : r = raised := by
  cases pc <;> cases h <;> rfl

/-- The steps that write the row or publish it. -/
theorem weaker_next (h : pc.next env client body = .call op k r) (hop : op.ofCreation = false)
    {reply : op.Reply} : Weaker (k reply) pc := by
  cases pc with
  | allow =>
    cases h
    cases reply <;> exact .of_blank rfl rfl
  | hasSeen =>
    cases h
    cases reply <;> exact .of_blank rfl rfl
  | markSeen row =>
    cases h
    cases row with
    | none => exact .of_blank rfl rfl
    | some row => constructor <;> simp [CreatePc.inserted, CreatePc.unpublished, row?]
  | lookup row =>
    cases h
    cases reply <;> constructor <;> simp [CreatePc.inserted, CreatePc.unpublished, row?]
  | isAlive row owner =>
    cases h
    cases reply <;> constructor <;> simp [CreatePc.inserted, CreatePc.unpublished, row?]
  | create | publish _ _ | markDelivered _ =>
    cases h
    simp [Op.ofCreation] at hop
  | returned _ | rejected _ | raised | killed => cases h

end CreatePc

end RealtimeNotify.App
