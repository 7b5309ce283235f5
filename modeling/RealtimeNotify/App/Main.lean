import RealtimeNotify.App.Operations

/-!
# The tasks of one instance

The subscriber loop with the local delivery handler and `send_json` in it, the
lifespan, and the liveness loop. The reconciliation loop only logs and has a
module of its own. A message on an instance channel was put there by `Publisher`,
so it decodes.
-/

namespace RealtimeNotify.App

open RealtimeNotify.Lib RealtimeNotify.Python

/-! ## `Subscriber._listen` -/

/-- `websocket` of `send_json` stays in scope while the send is awaited. -/
inductive SubscriberPc where
  | listening
  | delivering (message : PubSubMessage)
  | sending (userId : String) (websocket : Nat) (frame : Frame)
  | dropping (userId : String) (websocket : Nat)
  | dead

def SubscriberPc.next (i : String) : SubscriberPc → Step SubscriberPc
  | listening => .call (.nextMessage i) (fun message => delivering message) dead
  | delivering message => .call (.getSocket i message.userId)
      (fun websocket => match websocket with
        | some n => sending message.userId n (.notification message.notification)
        | none => listening) listening
  | sending userId websocket frame => .call (.send websocket frame) (fun _ => listening)
      (dropping userId websocket)
  | dropping userId _ => .call (.remove i userId) (fun _ => listening) listening
  | dead => .done

/-! ## `lifespan` -/

/-- `all` is `user_ids` of `close_all`, `todo` what its loop or the loop after
it has left. -/
inductive LifespanPc where
  | subscribing
  | markingAlive
  | serving
  | collecting
  | popping (all : List String) (userId : String) (todo : List String)
  | closing (all : List String) (websocket : Nat) (todo : List String)
  | unregistering (userId : String) (todo : List String)
  | clearing (userId : String) (todo : List String)
  | stoppingLiveness
  | unsubscribing
  | stopped
  | failed

namespace LifespanPc

/-- The head of `for user_id in disconnected_user_ids`. -/
def unregisterLoop : List String → LifespanPc
  | [] => stoppingLiveness
  | u :: todo => unregistering u todo

/-- The head of the loop of `close_all`. -/
def closeLoop (all : List String) : List String → LifespanPc
  | [] => unregisterLoop all
  | u :: todo => popping all u todo

/-- The subscriber task runs. -/
def listens : LifespanPc → Bool
  | subscribing | unsubscribing | stopped => false
  | _ => true

/-- The liveness task runs. -/
def beats : LifespanPc → Bool
  | subscribing | markingAlive | stoppingLiveness | unsubscribing | stopped => false
  | _ => true

/-- The awaits before `yield`, the `yield`, and the `finally` block. -/
def next (env : Env) (i : String) : LifespanPc → Step LifespanPc
  | subscribing => .call (.subscribe i) (fun _ => markingAlive) failed
  | markingAlive => .call
      (.redis (InstanceRegistry.markAlive i env.instanceLivenessTtlSeconds))
      (fun _ => serving) failed
  | serving => .call .sleep (fun _ => collecting) collecting
  | collecting => .call (.connectedUserIds i) (fun all => closeLoop all all) failed
  | popping all u todo => .call (.popSocket i u)
      (fun websocket => match websocket with
        | some n => closing all n todo
        | none => closeLoop all todo) failed
  | closing all n todo => .call (.close n 1001 "Server shutting down")
      (fun _ => closeLoop all todo) (closeLoop all todo)
  | unregistering u todo => .call (.redis (InstanceRegistry.unregister u))
      (fun _ => clearing u todo) failed
  | clearing u todo => .call (.redis (PresenceStore.clear u))
      (fun _ => unregisterLoop todo) failed
  | stoppingLiveness => .call .sleep (fun _ => unsubscribing) failed
  | unsubscribing => .call (.unsubscribe i) (fun _ => stopped) failed
  | stopped | failed => .done

end LifespanPc

/-! ## `InstanceLivenessLoop._run` -/

inductive LivenessPc where
  | sleeping
  | markingAlive

def LivenessPc.next (env : Env) (i : String) : LivenessPc → Step LivenessPc
  | sleeping => .call .sleep (fun _ => markingAlive) sleeping
  | markingAlive => .call
      (.redis (InstanceRegistry.markAlive i env.instanceLivenessTtlSeconds))
      (fun _ => sleeping) sleeping

end RealtimeNotify.App
