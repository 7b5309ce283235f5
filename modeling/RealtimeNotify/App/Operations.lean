import RealtimeNotify.App.Database
import RealtimeNotify.App.Redis
import RealtimeNotify.Lib.Coroutine

/-!
# What the handlers await

`Op` lists the calls at which a coroutine of the application can be suspended,
together with the few synchronous ones that touch the connection map. A handler
is a set of program points with a `Step` for each: the call it awaits, where it
goes with the reply, and where an exception takes it.
-/

namespace RealtimeNotify.App

open RealtimeNotify.Lib RealtimeNotify.Python

/-- The settings the handlers read, with their defaults. -/
structure Settings where
  wsTicketTtlSeconds : Nat := 10
  presenceTtlSeconds : Nat := 30
  instanceLivenessTtlSeconds : Nat := 15
  backlogLimit : Nat := 100
  rateLimitMessages : Nat := 50
  rateLimitWindowSeconds : Nat := 10
  apiRateLimitRequests : Nat := 100
  apiRateLimitWindowSeconds : Nat := 10
  idempotencyTtlSeconds : Nat := 300

/-- The settings, and pydantic's validation of a decoded value as a `UUID`. -/
structure Env extends Settings where
  validateUuid : Json → Option UUID

structure HTTPException where
  statusCode : Nat
  detail : String

/-! ## Messages and frames -/

/-- The `notification` object of a published message. -/
structure LiveNotification where
  notificationId : String
  userId : String
  type : String
  payload : Json
  createdAt : String

/-- The object `create_notification` builds from the row. -/
def NotificationEnvelope.live (n : NotificationEnvelope) : LiveNotification :=
  { notificationId := n.notificationId.str, userId := n.userId.str, type := n.type,
    payload := n.payload, createdAt := n.createdAt.isoformat }

/-- A message on an instance channel. -/
structure PubSubMessage where
  userId : String
  publishedAt : Nat
  notification : LiveNotification

inductive ErrorDetail where
  /-- `f"Unknown message type: {message_type}"` -/
  | unknownMessageType (messageType : Json)
  /-- `"Malformed message payload"` -/
  | malformedPayload

/-- What the gateway sends on a socket. -/
inductive Frame where
  | backlog (notifications : List NotificationEnvelope)
  | notification (notification : LiveNotification)
  | rateLimited (detail : String)
  | error (detail : ErrorDetail)

def RateLimitedMessage : Frame := .rateLimited "Message rate limit exceeded, message dropped"

/-- A frame with no notification in it. -/
def Frame.plain : Frame → Bool
  | .backlog _ | .notification _ => false
  | .rateLimited _ | .error _ => true

/-- `instance_channel(instance_id)`. -/
def instanceChannel (instanceId : String) : String := "channel:instance-" ++ instanceId

@[simp] theorem instanceChannel_inj {i j : String} :
    instanceChannel i = instanceChannel j ↔ i = j := by
  unfold instanceChannel
  exact String.append_right_inj _

/-! ## Operations -/

/-- A socket is known by the number of its session. -/
inductive Op where
  | redis (cmd : RedisCmd)
  | publish (instanceId userId : String) (notification : LiveNotification)
  | create (body : NotificationCreate)
  | markDeliveredLive (notificationId : UUID)
  | markRead (notificationId userId : UUID)
  | getUnreadBacklog (userId : UUID) (limit : Nat)
  | accept (socket : Nat)
  | close (socket code : Nat) (reason : String)
  | send (socket : Nat) (frame : Frame)
  | receive (socket : Nat)
  | add (instanceId userId : String) (socket : Nat)
  | remove (instanceId userId : String)
  | getSocket (instanceId userId : String)
  | connectedUserIds (instanceId : String)
  | popSocket (instanceId userId : String)
  | subscribe (instanceId : String)
  | nextMessage (instanceId : String)
  | unsubscribe (instanceId : String)
  | sleep

@[reducible] def Op.Reply : Op → Type
  | redis cmd => cmd.Reply
  | create _ => Option Notification
  | markRead .. => Bool
  | getUnreadBacklog .. => List Notification
  | receive _ => Json
  | getSocket .. | popSocket .. => Option Nat
  | connectedUserIds _ => List String
  | nextMessage _ => PubSubMessage
  | _ => Unit

/-- The synchronous operations do not raise. -/
def Op.fallible : Op → Bool
  | add .. | remove .. | getSocket .. | connectedUserIds _ | popSocket .. | sleep => false
  | _ => true

/-- The operations that write a new row, publish it or mark it. -/
def Op.ofCreation : Op → Bool
  | create _ | publish .. | markDeliveredLive _ => true
  | _ => false

/-- The operations on what an instance keeps: its map and its subscription. -/
def Op.ofInstance : Op → Bool
  | add .. | remove .. | getSocket .. | connectedUserIds _ | popSocket .. | subscribe _
  | nextMessage _ | unsubscribe _ => true
  | _ => false

/-- What the environment decides about an operation. -/
inductive Choice where
  | none
  | createdAt (t : Datetime)
  | tie (tie : UUID → Nat)
  | received (raw : Json)

abbrev Step (Pc : Type) := Next Op Op.Reply Pc

end RealtimeNotify.App
