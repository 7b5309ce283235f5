import RealtimeNotify.App.Operations

/-! # `MessageRouter.route`: validation and dispatch -/

namespace RealtimeNotify.App

open RealtimeNotify.Lib RealtimeNotify.Python

/-- Where `route` goes with a message the rate limiter let through. -/
inductive Route where
  | heartbeat
  | presenceUpdate (online : Bool)
  | readReceipt (notificationId : UUID)
  | reply (frame : Frame)

/-- `PresenceUpdateMessage.model_validate`: `true` for `"online"`. -/
def validatePresenceUpdate (fields : Dict PyStr Json) : Option Bool :=
  match fields.get (PyStr.ofString "status") with
  | some (.str s) =>
      if s = PyStr.ofString "online" then some true
      else if s = PyStr.ofString "away" then some false
      else none
  | _ => none

/-- `ReadReceiptMessage.model_validate`. -/
def validateReadReceipt (env : Env) (fields : Dict PyStr Json) : Option UUID :=
  (fields.get (PyStr.ofString "notification_id")).bind env.validateUuid

def malformed : Frame := .error .malformedPayload

/-- The body of `route` below the rate limiter. The type compares equal to a
name only as a string, so the `Literal` of each schema adds nothing. -/
def MessageRouter.dispatch (env : Env) (fields : Dict PyStr Json) : Route :=
  match (fields.get (PyStr.ofString "type")).getD (.str (PyStr.ofString "unknown")) with
  | .str t =>
      if t = PyStr.ofString "heartbeat" then .heartbeat
      else if t = PyStr.ofString "presence_update" then
        match validatePresenceUpdate fields with
        | some online => .presenceUpdate online
        | none => .reply malformed
      else if t = PyStr.ofString "read_receipt" then
        match validateReadReceipt env fields with
        | some n => .readReceipt n
        | none => .reply malformed
      else .reply (.error (.unknownMessageType (.str t)))
  | messageType => .reply (.error (.unknownMessageType messageType))

/-- What the router answers carries no notification. -/
theorem MessageRouter.dispatch_plain {env : Env} {fields : Dict PyStr Json} {frame : Frame}
    (h : dispatch env fields = .reply frame) : frame.plain = true := by
  unfold dispatch at h
  split at h
  · split at h
    · simp at h
    · split at h
      · split at h
        · simp at h
        · obtain rfl := by simpa using h
          rfl
      · split at h
        · split at h
          · simp at h
          · obtain rfl := by simpa using h
            rfl
        · obtain rfl := by simpa using h
          rfl
  · obtain rfl := by simpa using h
    rfl

end RealtimeNotify.App
