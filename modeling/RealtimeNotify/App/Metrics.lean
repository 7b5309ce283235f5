import RealtimeNotify.App.Routing
import RealtimeNotify.Lib.Counting

/-!
# The Prometheus metrics

Every process has its own. They are set and incremented between two awaits, with what the
operation that has just returned said, and lost with the process.
-/

namespace RealtimeNotify.App

open RealtimeNotify.Lib RealtimeNotify.Python

/-- The objects of `core/metrics.py`. Of `ws_messages_received_total` the labels, the latest
first, and of `delivery_latency_seconds` the number of observations. -/
structure Metrics where
  activeConnections : Nat := 0
  notificationsPersistedTotal : Nat := 0
  notificationsDeliveredLiveTotal : Nat := 0
  wsMessagesReceivedTotal : List Json := []
  rateLimitedTotal : Nat := 0
  readReceiptsRecordedTotal : Nat := 0
  deliveryLatencyCount : Nat := 0

/-- `ConnectionManager.add` and `remove`, `MessageRouter.route` and `_mark_read`; `active` is
`len(self._connections)` after the operation. -/
def GatewayPc.meter (active : Nat) (pc : GatewayPc) (what : Happened Op Op.Reply) (m : Metrics) :
    Metrics :=
  match pc, what with
  | .add _, .returned _ _ | .remove _, .returned _ _ => { m with activeConnections := active }
  | .receive _, .returned (.receive _) (.obj fields) =>
      { m with wsMessagesReceivedTotal := messageType fields :: m.wsMessagesReceivedTotal }
  | .allow _ _, .returned (.redis (.tokenBucket _ _ _)) false =>
      { m with rateLimitedTotal := m.rateLimitedTotal + 1 }
  | .readReceipt _ _ _, .returned (.markRead _ _) true =>
      { m with readReceiptsRecordedTotal := m.readReceiptsRecordedTotal + 1 }
  | _, _ => m

/-- `create_notification`. -/
def CreatePc.meter (pc : CreatePc) (what : Happened Op Op.Reply) (m : Metrics) : Metrics :=
  match pc, what with
  | .markSeen (some _), .returned _ _ =>
      { m with notificationsPersistedTotal := m.notificationsPersistedTotal + 1 }
  | .markDelivered _, .returned _ _ =>
      { m with notificationsDeliveredLiveTotal := m.notificationsDeliveredLiveTotal + 1 }
  | _, _ => m

/-- `deliver`, and `remove` where `send_json` gives a socket up. -/
def SubscriberPc.meter (active : Nat) (pc : SubscriberPc) (what : Happened Op Op.Reply)
    (m : Metrics) : Metrics :=
  match pc, what with
  | .sending _ _ _, .returned _ _ => { m with deliveryLatencyCount := m.deliveryLatencyCount + 1 }
  | .dropping _ _, .returned _ _ => { m with activeConnections := active }
  | _, _ => m

/-- Between the copy of the user ids in `close_all` and its end. -/
def LifespanPc.inCloseAll : LifespanPc → Bool
  | collecting | popping _ _ _ | closing _ _ _ => true
  | _ => false

/-- `close_all` sets the gauge once, when its loop is over. -/
def LifespanPc.meter (active : Nat) (pc pc' : LifespanPc) (m : Metrics) : Metrics :=
  if pc.inCloseAll && !pc'.inCloseAll then { m with activeConnections := active } else m

namespace World

def activeConnections (w : World) (i : String) : Nat := (w.shared.connections i).keys.length

/-- What the step from `w` to `w'` does to the metrics of every instance. -/
def meter (w : World) (a : Action) (w' : World) (m : String → Metrics) : String → Metrics :=
  match a, w'.log with
  | .crash i, _ => Function.update m i {}
  | .task (.session n) _, e :: _ =>
      match w.sessions n with
      | some s => Function.update m s.instanceId
          (s.pc.meter (w'.activeConnections s.instanceId) e.what (m s.instanceId))
      | none => m
  | .task (.request n) _, e :: _ =>
      match w.requests n with
      | some r => Function.update m r.instanceId (r.pc.meter e.what (m r.instanceId))
      | none => m
  | .task (.subscriber i) _, e :: _ =>
      match w.processes i with
      | some p => Function.update m i (p.subscriber.meter (w'.activeConnections i) e.what (m i))
      | none => m
  | .task (.lifespan i) _, _ =>
      match w.processes i, w'.processes i with
      | some p, some p' => Function.update m i
          (p.lifespan.meter (w'.activeConnections i) p'.lifespan (m i))
      | _, _ => m
  | _, _ => m

end World

/-- The platform with the metrics of its instances. -/
def metered (env : Env) : Machine (World × (String → Metrics)) Action :=
  (platform env).noting (fun _ => {}) World.meter

end RealtimeNotify.App
