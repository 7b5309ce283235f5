import RealtimeNotify.App.Auth
import RealtimeNotify.App.Gateway
import RealtimeNotify.App.Main
import RealtimeNotify.App.Notifications
import RealtimeNotify.Lib.Machine

/-!
# The platform

Any number of instances over one Redis and one database. An action starts a
handler, lets one task take the step it awaits, or is the environment's: time
passes, an instance boots or dies, a dedup key goes early. Numbers of sessions
and requests are never used twice. Two fields are ghosts: `log`, what every
awaited operation was and did, latest first, and `tokens`, the ticket texts
generated so far.
-/

namespace RealtimeNotify.App

open RealtimeNotify.Lib RealtimeNotify.Python

/-! ## The shared state -/

/-- What operations act on. `connections i` is the map of the connection
manager of instance `i`; `channels` has the subscribed channels, each with the
messages that wait there. -/
structure Shared where
  now : Nat
  redis : Redis
  db : Database
  channels : String → Option (List PubSubMessage)
  connections : String → Dict String Nat

namespace Shared

/-- Time passes. -/
def elapse (s : Shared) (d : Nat) : Shared := { s with now := s.now + d }

/-- A key goes before its time. -/
def evict (s : Shared) (key : String) : Shared := { s with redis := s.redis.erase key }

def setChannel (s : Shared) (i : String) (queue : Option (List PubSubMessage)) : Shared :=
  { s with channels := Function.update s.channels (instanceChannel i) queue }

def setConnections (s : Shared) (i : String) (connections : Dict String Nat) : Shared :=
  { s with connections := Function.update s.connections i connections }

section

variable {s : Shared} {d : Nat} {k i : String}

@[simp] theorem elapse_now : (s.elapse d).now = s.now + d := rfl
@[simp] theorem elapse_redis : (s.elapse d).redis = s.redis := rfl
@[simp] theorem evict_now : (s.evict k).now = s.now := rfl
@[simp] theorem evict_redis : (s.evict k).redis = s.redis.erase k := rfl

end

/-- A message to a channel nobody listens on is lost. -/
def publish (s : Shared) (i : String) (message : PubSubMessage) : Shared :=
  match s.channels (instanceChannel i) with
  | some queue => s.setChannel i (some (queue ++ [message]))
  | none => s

/-- An operation as it takes effect; `none` where it does not return, for want
of a message or of a choice of the environment that fits it. -/
def exec (s : Shared) : (op : Op) → Choice → Option (Shared × op.Reply)
  | .redis cmd, _ => (cmd.exec s.redis s.now).map fun p => ({ s with redis := p.1 }, p.2)
  | .publish i u notification, _ => some (s.publish i ⟨u, s.now, notification⟩, ())
  | .create body, .createdAt t =>
      some ({ s with db := (NotificationRepository.create s.db body t).1 },
        (NotificationRepository.create s.db body t).2)
  | .markDeliveredLive n, _ =>
      some ({ s with db := NotificationRepository.markDeliveredLive s.db n }, ())
  | .markRead n u, _ =>
      some ({ s with db := (NotificationRepository.markRead s.db n u s.now).1 },
        (NotificationRepository.markRead s.db n u s.now).2)
  | .getUnreadBacklog u limit, .tie tie =>
      some (s, NotificationRepository.getUnreadBacklog s.db u limit tie)
  | .receive _, .received raw => some (s, raw)
  | .add i u n, _ => some (s.setConnections i ((s.connections i).set u n), ())
  | .remove i u, _ => some (s.setConnections i ((s.connections i).pop u), ())
  | .getSocket i u, _ => some (s, (s.connections i).get u)
  | .connectedUserIds i, _ => some (s, (s.connections i).keys)
  | .popSocket i u, _ =>
      some (s.setConnections i ((s.connections i).pop u), (s.connections i).get u)
  | .subscribe i, _ => some (s.setChannel i (some []), ())
  | .nextMessage i, _ =>
      match s.channels (instanceChannel i) with
      | some (message :: queue) => some (s.setChannel i (some queue), message)
      | _ => none
  | .unsubscribe i, _ => some (s.setChannel i none, ())
  | .accept _, _ | .close .., _ | .send .., _ | .sleep, _ => some (s, ())
  | .create _, _ | .getUnreadBacklog .., _ | .receive _, _ => none

end Shared

/-- What an awaited operation may do. -/
def semantics : Semantics Shared Op Op.Reply Choice := ⟨Shared.exec, Op.fallible⟩

/-! ## Tasks -/

inductive TaskId where
  | session (n : Nat)
  | request (n : Nat)
  | ticketRequest (n : Nat)
  | subscriber (i : String)
  | lifespan (i : String)
  | liveness (i : String)
  deriving DecidableEq

/-- One awaited operation: when, by whom, what. -/
structure Event where
  time : Nat
  task : TaskId
  what : Happened Op Op.Reply

structure Session where
  instanceId : String
  connectionId : String
  pc : GatewayPc

structure PostRequest where
  instanceId : String
  client : Option String
  body : NotificationCreate
  pc : CreatePc

structure TicketRequest where
  instanceId : String
  claims : Option (Option String)
  token : String
  pc : IssuePc

structure Process where
  lifespan : LifespanPc
  subscriber : SubscriberPc
  liveness : LivenessPc

def Process.start : Process := ⟨.subscribing, .listening, .sleeping⟩

structure World where
  shared : Shared
  processes : String → Option Process
  sessions : Nat → Option Session
  requests : Nat → Option PostRequest
  ticketRequests : Nat → Option TicketRequest
  log : List Event
  tokens : List String

/-- Nothing has started yet. -/
def World.empty : World where
  shared := ⟨0, fun _ => none, ⟨[], []⟩, fun _ => none, fun _ => []⟩
  processes _ := none
  sessions _ := none
  requests _ := none
  ticketRequests _ := none
  log := []
  tokens := []

inductive Action where
  | tick (microseconds : Nat)
  | expireDedup (notificationId : UUID)
  | boot (i : String)
  | crash (i : String)
  | connect (n : Nat) (i connectionId ticket : String)
  | post (n : Nat) (i : String) (client : Option String) (body : NotificationCreate)
  | issue (n : Nat) (i : String) (claims : Option (Option String)) (token : String)
  | task (id : TaskId) (outcome : Outcome Choice)

namespace World

/-- `i` accepts connections and requests. -/
def serves (w : World) (i : String) : Bool :=
  match w.processes i with
  | some ⟨.serving, _, _⟩ => true
  | _ => false

/-- The sessions and requests of a dead process go no further. -/
def killAll (w : World) (i : String) : World :=
  { w with
    sessions := fun n => (w.sessions n).map fun s =>
      if s.instanceId = i then { s with pc := .ended } else s
    requests := fun n => (w.requests n).map fun r =>
      if r.instanceId = i then { r with pc := r.pc.kill } else r
    ticketRequests := fun n => (w.ticketRequests n).map fun r =>
      if r.instanceId = i then { r with pc := r.pc.kill } else r }

def crash (w : World) (i : String) : World :=
  { w.killAll i with
    shared := (w.shared.setChannel i none).setConnections i []
    processes := Function.update w.processes i none }

/-- One step of a task: the shared state and the log take what happened, and
`put` the point the task is at now. -/
def advance {Pc : Type} (w : World) (id : TaskId) (next : Step Pc) (o : Outcome Choice)
    (put : Pc → World) : Option World :=
  (semantics.advance w.shared next o).map fun p =>
    { put p.2.1 with shared := p.1, log := ⟨w.shared.now, id, p.2.2⟩ :: w.log }

def setSession (w : World) (n : Nat) (s : Session) : World :=
  { w with sessions := Function.update w.sessions n (some s) }

def setRequest (w : World) (n : Nat) (r : PostRequest) : World :=
  { w with requests := Function.update w.requests n (some r) }

def setTicketRequest (w : World) (n : Nat) (r : TicketRequest) : World :=
  { w with ticketRequests := Function.update w.ticketRequests n (some r) }

def addTicketRequest (w : World) (n : Nat) (r : TicketRequest) : World :=
  { w.setTicketRequest n r with tokens := r.token :: w.tokens }

def setProcess (w : World) (i : String) (p : Process) : World :=
  { w with processes := Function.update w.processes i (some p) }

def stepTask (env : Env) (w : World) (o : Outcome Choice) : TaskId → Option World
  | .session n => (w.sessions n).bind fun s =>
      w.advance (.session n) (s.pc.next env n s.instanceId s.connectionId) o fun pc =>
        w.setSession n { s with pc }
  | .request n => (w.requests n).bind fun r =>
      w.advance (.request n) (r.pc.next env r.client r.body) o fun pc =>
        w.setRequest n { r with pc }
  | .ticketRequest n => (w.ticketRequests n).bind fun r =>
      w.advance (.ticketRequest n) (r.pc.next env) o fun pc =>
        w.setTicketRequest n { r with pc }
  | .subscriber i => (w.processes i).bind fun p =>
      if p.lifespan.listens then
        w.advance (.subscriber i) (p.subscriber.next i) o fun pc =>
          w.setProcess i { p with subscriber := pc }
      else none
  | .lifespan i => (w.processes i).bind fun p =>
      w.advance (.lifespan i) (p.lifespan.next env i) o fun pc =>
        w.setProcess i { p with lifespan := pc }
  | .liveness i => (w.processes i).bind fun p =>
      if p.lifespan.beats then
        w.advance (.liveness i) (p.liveness.next env i) o fun pc =>
          w.setProcess i { p with liveness := pc }
      else none

/-- The operation a task awaits. -/
def awaits (env : Env) (w : World) : TaskId → Option Op
  | .session n => (w.sessions n).bind fun s =>
      (s.pc.next env n s.instanceId s.connectionId).op?
  | .request n => (w.requests n).bind fun r => (r.pc.next env r.client r.body).op?
  | .ticketRequest n => (w.ticketRequests n).bind fun r => (r.pc.next env).op?
  | .subscriber i => (w.processes i).bind fun p => (p.subscriber.next i).op?
  | .lifespan i => (w.processes i).bind fun p => (p.lifespan.next env i).op?
  | .liveness i => (w.processes i).bind fun p => (p.liveness.next env i).op?

def step (env : Env) (w : World) : Action → Option World
  | .tick d => some { w with shared := w.shared.elapse d }
  | .expireDedup n => some { w with shared := w.shared.evict (dedupKey n) }
  | .boot i => if w.processes i = none then some (w.setProcess i .start) else none
  | .crash i => if w.processes i = none then none else some (w.crash i)
  | .connect n i c ticket =>
      if w.serves i && (w.sessions n).isNone then some (w.setSession n ⟨i, c, .redeem ticket⟩)
      else none
  | .post n i client body =>
      if w.serves i && (w.requests n).isNone then some (w.setRequest n ⟨i, client, body, .allow⟩)
      else none
  | .issue n i claims token =>
      if w.serves i && (w.ticketRequests n).isNone then
        some (w.addTicketRequest n ⟨i, claims, token, .start claims token⟩)
      else none
  | .task id o => w.stepTask env o id

end World

/-- The platform under the settings `env`. -/
def platform (env : Env) : Machine World Action := ⟨.empty, World.step env⟩

/-- Every run, whatever fails in it. -/
def Reachable (env : Env) (w : World) : Prop := Reach (platform env) (fun _ _ => True) w

theorem Reachable.of_run {env : Env} {w : World} {as : List Action}
    (h : (platform env).run .empty as = some w) : Reachable env w :=
  Reach.of_actions (fun _ _ _ => trivial) h

/-! ## Usual courses -/

namespace Action

def ok (id : TaskId) : Action := .task id (.ok .none)

def fail (id : TaskId) : Action := .task id .fail

/-- An instance boots and is ready. -/
def startup (i : String) : List Action := .boot i :: List.replicate 2 (.ok (.lifespan i))

/-- A ticket is issued. -/
def grant (n : Nat) (i subject token : String) : List Action :=
  [.issue n i (some (some subject)) token, .ok (.ticketRequest n)]

/-- A session goes from the redeemed ticket to its receive loop. -/
def openSession (n : Nat) (i connectionId ticket : String) : List Action :=
  .connect n i connectionId ticket :: List.replicate 6 (.ok (.session n)) ++
    [.task (.session n) (.ok (.tie fun _ => 0)), .ok (.session n)]

/-- A message of the client passes the limiter and is handled in `awaits` steps. -/
def say (n : Nat) (message : Json) (awaits : Nat) : List Action :=
  .task (.session n) (.ok (.received message)) :: List.replicate (awaits + 1) (.ok (.session n))

/-- The client disconnects and `finally` runs. -/
def teardown (n : Nat) : List Action :=
  .fail (.session n) :: List.replicate 3 (.ok (.session n))

/-- A request is posted and passes the limiter and the guard. -/
def submit (n : Nat) (i : String) (body : NotificationCreate) : List Action :=
  .post n i none body :: List.replicate 2 (.ok (.request n))

/-- The insertion of a request, with the time of the database. -/
def insert (n : Nat) (t : Datetime) : Action := .task (.request n) (.ok (.createdAt t))

end Action

def heartbeatMessage : Json := .obj [(PyStr.ofString "type", .str (PyStr.ofString "heartbeat"))]

def awayMessage : Json :=
  .obj [(PyStr.ofString "type", .str (PyStr.ofString "presence_update")),
    (PyStr.ofString "status", .str (PyStr.ofString "away"))]

/-- The defaults, in runs in which no client sends a read receipt. -/
def plainEnv : Env := { validateUuid := fun _ => none }

def someUser : String := "12345678-1234-5678-1234-567812345678"

def someBody : NotificationCreate where
  notificationId := ⟨7, by decide⟩
  userId := ⟨0x12345678123456781234567812345678, by decide⟩
  type := "message.received"
  payload := .obj []

def newYear : Datetime where
  year := 2026
  month := 1
  day := 1
  hour := 0
  minute := 0
  second := 0
  microsecond := 0
  utcoffset := 0
  date_valid := by decide
  time_valid := by decide
  offset_valid := by decide

/-- One session of one user. -/
def soloRun : List Action :=
  Action.startup "a" ++ Action.grant 0 "a" someUser "t0" ++ Action.openSession 0 "a" "c0" "t0"

/-- Two racing requests with one id for a connected user. -/
def raceRun : List Action :=
  soloRun ++ Action.submit 0 "a" someBody ++ Action.submit 1 "a" someBody ++
    [.insert 0 newYear, .insert 1 newYear] ++ List.replicate 5 (.ok (.request 0)) ++
    [.ok (.request 1)]

/-- The message of the race goes to the client. -/
def deliveryRun : List Action := raceRun ++ List.replicate 3 (.ok (.subscriber "a"))

end RealtimeNotify.App
