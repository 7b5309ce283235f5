import RealtimeNotify.Lib.Progress
import RealtimeNotify.Runs.Keyspace

/-!
# No handler is ever stuck

A handler waits for nothing but its own operations: it holds no lock, and none of its
commands is refused. From every reachable state it gets to its end, or to the next message
of the client, by a bounded number of its own steps, whatever point the others are at.
-/

namespace RealtimeNotify.App

open RealtimeNotify.Lib RealtimeNotify.Python

variable {env : Env} {w w' : World} {n : Nat} {i : String}

/-- The awaited operation returns. -/
def Action.returns (id : TaskId) (a : Action) : Prop := ∃ c, a = .task id (.ok c)

/-- The task `id` alone gets from `w` to a world with `Q` in at most `bound` steps. -/
def CompletesAlone (env : Env) (id : TaskId) (bound : Nat) (Q : World → Prop) (w : World) : Prop :=
  (platform env).Completes (Action.returns id) bound Q w

/-! ## Every awaited operation can return -/

/-- Only the wait for a message of a channel depends on another task. -/
theorem Keyspace.returns (h : Keyspace env w) (hpos : env.PositiveTtls) {id : TaskId} {op : Op}
    (ha : w.awaits env id = some op) (hop : ∀ i, op ≠ .nextMessage i) :
    ∃ c sh reply, w.shared.exec op c = some (sh, reply) := by
  cases op with
  | redis cmd =>
    obtain ⟨⟨r, reply⟩, hx⟩ := Option.isSome_iff_exists.mp (h.accepts hpos ha)
    exact ⟨.none, { w.shared with redis := r }, reply, by rw [Shared.exec, hx]; rfl⟩
  | create body => exact ⟨.createdAt newYear, _, _, rfl⟩
  | getUnreadBacklog u limit => exact ⟨.tie fun _ => 0, _, _, rfl⟩
  | receive m => exact ⟨.received .null, _, _, rfl⟩
  | nextMessage i => exact absurd rfl (hop i)
  | _ => exact ⟨.none, _, _, rfl⟩

theorem Reachable.step {a : Action} (h : Reachable env w) (hstep : w.step env a = some w') :
    Reachable env w' := Reach.step h trivial hstep

/-- A step of a task whose operation returns. -/
theorem World.advance_returns {Pc : Type} {id : TaskId} {next : Step Pc} {op : Op}
    {k : op.Reply → Pc} {r : Pc} {c : Choice} {sh : Shared} {reply : op.Reply} {put : Pc → World}
    (hn : next = .call op k r) (hx : w.shared.exec op c = some (sh, reply)) :
    w.advance id next (.ok c) put = some { put (k reply) with
      shared := sh, log := ⟨w.shared.now, id, .returned op reply⟩ :: w.log } := by
  have hexec : semantics.exec w.shared op c = some (sh, reply) := hx
  rw [World.advance, hn, Semantics.advance, hexec]
  rfl

/-! ## Requests -/

namespace CreatePc

/-- The request has its answer. -/
def answered : CreatePc → Bool
  | returned _ | rejected _ => true
  | _ => false

/-- An exception or the end of the process took the request. -/
def lost : CreatePc → Bool
  | raised | killed => true
  | _ => false

/-- The awaits that are left at most. -/
def stepsLeft : CreatePc → Nat
  | allow => 8
  | hasSeen => 7
  | create => 6
  | markSeen _ => 5
  | lookup _ => 4
  | isAlive _ _ => 3
  | publish _ _ => 2
  | markDelivered _ => 1
  | returned _ | rejected _ | raised | killed => 0

variable {client : Option String} {body : NotificationCreate} {pc r : CreatePc} {op : Op}
  {k : op.Reply → CreatePc}

theorem answered_of_stepsLeft (h : pc.stepsLeft = 0) (hf : pc.lost = false) :
    pc.answered = true := by
  cases pc <;> simp_all [stepsLeft, lost, answered]

theorem next_of_stepsLeft (env : Env) (client : Option String) (body : NotificationCreate)
    (h : pc.stepsLeft ≠ 0) :
    ∃ op k r, pc.next env client body = .call op k r ∧ ∀ i, op ≠ .nextMessage i := by
  cases pc with
  | returned _ | rejected _ | raised | killed => exact absurd rfl h
  | _ => exact ⟨_, _, _, rfl, by simp⟩

theorem stepsLeft_next (h : pc.next env client body = .call op k r) (reply : op.Reply) :
    (k reply).stepsLeft < pc.stepsLeft ∧ (k reply).lost = false := by
  cases pc with
  | allow | hasSeen | markSeen _ | lookup _ | isAlive _ _ =>
    cases h
    simp only
    split <;> exact ⟨by simp [stepsLeft], rfl⟩
  | create | publish _ _ | markDelivered _ =>
    cases h
    exact ⟨by simp [stepsLeft], rfl⟩
  | returned _ | rejected _ | raised | killed => cases h

end CreatePc

/-- A step of a request whose operation returns. -/
theorem World.step_request {r : PostRequest} {op : Op} {k : op.Reply → CreatePc}
    {failure : CreatePc} {c : Choice} {sh : Shared} {reply : op.Reply}
    (hr : w.requests n = some r)
    (hn : r.pc.next env r.client r.body = .call op k failure)
    (hx : w.shared.exec op c = some (sh, reply)) :
    w.step env (.task (.request n) (.ok c)) = some
      { w.setRequest n { r with pc := k reply } with
        shared := sh, log := ⟨w.shared.now, .request n, .returned op reply⟩ :: w.log } := by
  rw [World.step, World.stepTask, hr, Option.bind_some]
  exact World.advance_returns hn hx

/-- A request that has not failed is answered after at most eight awaits of its own. -/
theorem request_completes (hpos : env.PositiveTtls) (h : Reachable env w) {r : PostRequest}
    (hr : w.requests n = some r) (hf : r.pc.lost = false) :
    CompletesAlone env (.request n) r.pc.stepsLeft
      (fun w' => ∃ r', w'.requests n = some r' ∧ r'.body = r.body ∧ r'.pc.answered = true) w := by
  -- every world on the way is reachable, which is why Redis takes the command that is next
  refine (Machine.completes_of_rank (β := CreatePc) (P := fun v pc => Reachable env v ∧
    v.requests n = some { r with pc } ∧ pc.lost = false) CreatePc.stepsLeft ?_
    ⟨h, hr, hf⟩).imp ?_
  · rintro v pc ⟨hv, hrv, -⟩ hleft
    obtain ⟨op, k, failure, hn, hop⟩ := CreatePc.next_of_stepsLeft env r.client r.body hleft
    have hawaits : v.awaits env (.request n) = some op := by
      rw [World.awaits_request hrv, hn]
      rfl
    obtain ⟨c, sh, reply, hx⟩ := (Keyspace.of_reachable hv).returns hpos hawaits hop
    obtain ⟨hlt, hfailed⟩ := CreatePc.stepsLeft_next hn reply
    have hstep := World.step_request hrv hn hx
    exact ⟨_, _, k reply, ⟨c, rfl⟩, hstep, ⟨hv.step hstep, by simp [World.setRequest],
      hfailed⟩, hlt⟩
  · rintro v ⟨pc, ⟨-, hrv, hfailed⟩, hzero⟩
    exact ⟨_, hrv, rfl, CreatePc.answered_of_stepsLeft hzero hfailed⟩

/-! ## Sessions -/

namespace GatewayPc

/-- The awaits at most until the client is waited for or the session has ended. -/
def stepsLeft : GatewayPc → Nat
  | redeem _ => 9
  | accept _ => 8
  | add _ => 7
  | register _ => 6
  | markOnline _ => 5
  | onlineSeen _ | allow _ _ => 4
  | heartbeat _ | remove _ => 3
  | backlogQuery _ _ | heartbeatSeen _ | presence _ _ | unregister _ => 2
  | reject | backlogSend _ _ | refresh _ | presenceSeen _ | readReceipt _ _ _ | respond _ _
  | markOffline _ => 1
  | receive _ | ended => 0

/-- The client is waited for, or the session has ended. -/
def rests : GatewayPc → Bool
  | receive _ | ended => true
  | _ => false

variable {i c u : String} {pc r : GatewayPc} {op : Op} {k : op.Reply → GatewayPc}

theorem rests_of_stepsLeft (h : pc.stepsLeft = 0) : pc.rests = true := by
  cases pc <;> simp_all [stepsLeft, rests]

theorem next_of_stepsLeft (env : Env) (n : Nat) (i c : String) (h : pc.stepsLeft ≠ 0) :
    ∃ op k r, pc.next env n i c = .call op k r ∧ ∀ i, op ≠ .nextMessage i := by
  cases pc with
  | receive _ | ended => exact absurd rfl h
  | _ => exact ⟨_, _, _, rfl, by simp⟩

theorem stepsLeft_routed {fields : Dict PyStr Json} : (routed env u fields).stepsLeft < 4 := by
  unfold routed
  split
  · simp [stepsLeft]
  · simp [stepsLeft]
  · split <;> simp [stepsLeft]
  · simp [stepsLeft]

theorem stepsLeft_next (h : pc.next env n i c = .call op k r) (hpc : pc.stepsLeft ≠ 0)
    (reply : op.Reply) : (k reply).stepsLeft < pc.stepsLeft := by
  cases pc with
  | redeem ticket =>
    cases h
    cases reply <;> simp [stepsLeft]
  | onlineSeen u =>
    cases h
    cases hu : UUID.ofString u <;> simp [stepsLeft]
  | allow u fields =>
    cases h
    cases reply with
    | true => exact stepsLeft_routed
    | false => simp [stepsLeft]
  | receive _ | ended => exact absurd rfl hpc
  | _ =>
    cases h
    simp [stepsLeft]

end GatewayPc

/-- A session gets back to its client, or to its end, after at most nine awaits of its
own: cleanup included. -/
theorem session_completes (hpos : env.PositiveTtls) (h : Reachable env w) {s : Session}
    (hs : w.sessions n = some s) :
    CompletesAlone env (.session n) s.pc.stepsLeft
      (fun w' => ∃ s', w'.sessions n = some s' ∧ s'.pc.rests = true) w := by
  refine (Machine.completes_of_rank (β := GatewayPc) (P := fun v pc => Reachable env v ∧
    v.sessions n = some { s with pc }) GatewayPc.stepsLeft ?_ ⟨h, hs⟩).imp ?_
  · rintro v pc ⟨hv, hsv⟩ hleft
    obtain ⟨op, k, failure, hn, hop⟩ := GatewayPc.next_of_stepsLeft env n s.instanceId
      s.connectionId hleft
    have hawaits : v.awaits env (.session n) = some op := by
      rw [World.awaits_session hsv, hn]
      rfl
    obtain ⟨c, sh, reply, hx⟩ := (Keyspace.of_reachable hv).returns hpos hawaits hop
    have hstep : v.step env (.task (.session n) (.ok c)) = some
        { v.setSession n { s with pc := k reply } with
          shared := sh, log := ⟨v.shared.now, .session n, .returned op reply⟩ :: v.log } := by
      rw [World.step, World.stepTask, hsv, Option.bind_some]
      exact World.advance_returns hn hx
    exact ⟨_, _, k reply, ⟨c, rfl⟩, hstep, ⟨hv.step hstep, by simp [World.setSession]⟩,
      GatewayPc.stepsLeft_next hn hleft reply⟩
  · rintro v ⟨pc, ⟨-, hsv⟩, hzero⟩
    exact ⟨_, hsv, GatewayPc.rests_of_stepsLeft hzero⟩

/-! ## Startup and shutdown -/

namespace LifespanPc

/-- The awaits at most until the instance serves, or has stopped; `m` users are in the map
when they are collected. -/
def stepsLeft (m : Nat) : LifespanPc → Nat
  | subscribing => 2
  | markingAlive => 1
  | serving => 0
  | collecting => 3 + 4 * m
  | popping all _ todo => 4 + 2 * all.length + 2 * todo.length
  | closing all _ todo => 3 + 2 * all.length + 2 * todo.length
  | unregistering _ todo => 4 + 2 * todo.length
  | clearing _ todo => 3 + 2 * todo.length
  | stoppingLiveness => 2
  | unsubscribing => 1
  | stopped | failed => 0

/-- Past the `yield`. -/
def stopping : LifespanPc → Bool
  | subscribing | markingAlive | serving | failed => false
  | _ => true

variable {pc r : LifespanPc} {op : Op} {k : op.Reply → LifespanPc} {m : Nat}

theorem next_of_stepsLeft (env : Env) (i : String) (h : pc.stepsLeft m ≠ 0) :
    ∃ op k r, pc.next env i = .call op k r ∧ ∀ i, op ≠ .nextMessage i := by
  cases pc with
  | serving | stopped | failed => exact absurd rfl h
  | _ => exact ⟨_, _, _, rfl, by simp⟩

theorem stepsLeft_unregisterLoop (all : List String) :
    (unregisterLoop all).stepsLeft m = 2 + 2 * all.length := by
  cases all with
  | nil => rfl
  | cons u todo =>
    rw [unregisterLoop, stepsLeft, List.length_cons]
    omega

theorem stepsLeft_closeLoop (all todo : List String) :
    (closeLoop all todo).stepsLeft m = 2 + 2 * all.length + 2 * todo.length := by
  cases todo with
  | nil => exact stepsLeft_unregisterLoop all
  | cons u todo =>
    rw [closeLoop, stepsLeft, List.length_cons]
    omega

theorem stopping_unregisterLoop (all : List String) : (unregisterLoop all).stopping = true := by
  cases all <;> rfl

theorem stopping_closeLoop (all todo : List String) : (closeLoop all todo).stopping = true := by
  cases todo with
  | nil => exact stopping_unregisterLoop all
  | cons u todo => rfl

/-- What a step of the lifespan keeps while it has steps left. -/
structure Nearer (m : Nat) (pc pc' : LifespanPc) : Prop where
  left : pc'.stepsLeft m < pc.stepsLeft m
  stopping : pc'.stopping = pc.stopping
  failed : pc' ≠ failed
  collecting : pc' ≠ collecting

theorem nearer_unregisterLoop {all : List String}
    (hleft : 2 + 2 * all.length < pc.stepsLeft m) (hpc : pc.stopping = true) :
    Nearer m pc (unregisterLoop all) where
  left := by rwa [stepsLeft_unregisterLoop]
  stopping := by rw [stopping_unregisterLoop, hpc]
  failed := by cases all <;> simp [unregisterLoop]
  collecting := by cases all <;> simp [unregisterLoop]

theorem nearer_closeLoop {all todo : List String}
    (hleft : 2 + 2 * all.length + 2 * todo.length < pc.stepsLeft m) (hpc : pc.stopping = true) :
    Nearer m pc (closeLoop all todo) := by
  cases todo with
  | nil => exact nearer_unregisterLoop hleft hpc
  | cons u todo =>
    refine ⟨by rwa [stepsLeft_closeLoop], by rw [stopping_closeLoop, hpc], ?_, ?_⟩ <;>
      simp [closeLoop]

theorem nearer_next (h : pc.next env i = .call op k r) (hpc : pc.stepsLeft m ≠ 0) {s sh : Shared}
    {c : Choice} {reply : op.Reply} (hx : s.exec op c = some (sh, reply))
    (hm : pc = collecting → (s.connections i).keys.length ≤ m) : Nearer m pc (k reply) := by
  cases pc with
  | subscribing | markingAlive | stoppingLiveness | unsubscribing =>
    cases h
    constructor <;> simp [stepsLeft, stopping]
  | clearing u todo =>
    cases h
    exact nearer_unregisterLoop (by rw [stepsLeft]; omega) rfl
  | collecting =>
    cases h
    obtain ⟨-, rfl⟩ : _ ∧ (s.connections i).keys = reply := by simpa [Shared.exec] using hx
    have hlength := hm rfl
    exact nearer_closeLoop (by rw [stepsLeft]; omega) rfl
  | popping all u todo =>
    cases h
    cases reply with
    | none => exact nearer_closeLoop (by rw [stepsLeft]; omega) rfl
    | some n => exact ⟨by simp only [stepsLeft]; omega, rfl, by simp, by simp⟩
  | closing all n todo =>
    cases h
    exact nearer_closeLoop (by rw [stepsLeft]; omega) rfl
  | unregistering u todo =>
    cases h
    exact ⟨by simp only [stepsLeft]; omega, rfl, by simp, by simp⟩
  | serving | stopped | failed => exact absurd rfl hpc

end LifespanPc

/-- An instance that starts gets to serve, and one that shuts down stops, after a number of
its own awaits that the size of its map bounds. -/
theorem lifespan_completes (hpos : env.PositiveTtls) (h : Reachable env w) {p : Process}
    (hp : w.processes i = some p) (hf : p.lifespan ≠ .failed) :
    CompletesAlone env (.lifespan i) (p.lifespan.stepsLeft (w.shared.connections i).keys.length)
      (fun w' => ∃ p', w'.processes i = some p' ∧
        p'.lifespan = if p.lifespan.stopping then .stopped else .serving) w := by
  -- until the users are collected the rank counts those in the map, and no other task adds one
  generalize hm : (w.shared.connections i).keys.length = m
  refine (Machine.completes_of_rank (β := LifespanPc) (P := fun v pc => Reachable env v ∧
    v.processes i = some { p with lifespan := pc } ∧ pc ≠ .failed ∧
    pc.stopping = p.lifespan.stopping ∧
    (pc = .collecting → (v.shared.connections i).keys.length ≤ m)) (LifespanPc.stepsLeft m) ?_
    ⟨h, hp, hf, rfl, fun _ => hm.le⟩).imp ?_
  · rintro v pc ⟨hv, hpv, -, hstopping, hcollecting⟩ hleft
    obtain ⟨op, k, failure, hn, hop⟩ := LifespanPc.next_of_stepsLeft env i hleft
    have hawaits : v.awaits env (.lifespan i) = some op := by
      rw [World.awaits_lifespan hpv, hn]
      rfl
    obtain ⟨c, sh, reply, hx⟩ := (Keyspace.of_reachable hv).returns hpos hawaits hop
    have hnearer := LifespanPc.nearer_next hn hleft hx hcollecting
    have hstep : v.step env (.task (.lifespan i) (.ok c)) = some
        { v.setProcess i { p with lifespan := k reply } with
          shared := sh, log := ⟨v.shared.now, .lifespan i, .returned op reply⟩ :: v.log } := by
      rw [World.step, World.stepTask, hpv, Option.bind_some]
      exact World.advance_returns hn hx
    exact ⟨_, _, k reply, ⟨c, rfl⟩, hstep, ⟨hv.step hstep, by simp [World.setProcess],
      hnearer.failed, hnearer.stopping.trans hstopping, fun hc => absurd hc hnearer.collecting⟩,
      hnearer.left⟩
  · rintro v ⟨pc, ⟨-, hpv, hfailed, hstopping, -⟩, hzero⟩
    refine ⟨_, hpv, ?_⟩
    rw [← hstopping]
    cases pc <;> simp_all [LifespanPc.stepsLeft, LifespanPc.stopping]

/-! ## All of them -/

/-- What every task that has not failed can do alone from here. -/
structure Unblocked (env : Env) (w : World) : Prop where
  request : ∀ n r, w.requests n = some r → r.pc.lost = false →
    CompletesAlone env (.request n) 8
      (fun w' => ∃ r', w'.requests n = some r' ∧ r'.body = r.body ∧ r'.pc.answered = true) w
  session : ∀ n s, w.sessions n = some s → CompletesAlone env (.session n) 9
    (fun w' => ∃ s', w'.sessions n = some s' ∧ s'.pc.rests = true) w
  lifespan : ∀ i p, w.processes i = some p → p.lifespan ≠ .failed →
    CompletesAlone env (.lifespan i) (p.lifespan.stepsLeft (w.shared.connections i).keys.length)
      (fun w' => ∃ p', w'.processes i = some p' ∧
        p'.lifespan = if p.lifespan.stopping then .stopped else .serving) w

theorem CreatePc.stepsLeft_le (pc : CreatePc) : pc.stepsLeft ≤ 8 := by
  cases pc <;> simp [stepsLeft]

theorem GatewayPc.stepsLeft_le (pc : GatewayPc) : pc.stepsLeft ≤ 9 := by
  cases pc <;> simp [stepsLeft]

/-- In no reachable state does a handler wait for another one. -/
theorem handlers_unblocked (hpos : env.PositiveTtls) (h : Reachable env w) : Unblocked env w where
  request _ r hr hf := (request_completes hpos h hr hf).mono r.pc.stepsLeft_le
  session _ s hs := (session_completes hpos h hs).mono s.pc.stepsLeft_le
  lifespan _ _ hp hf := lifespan_completes hpos h hp hf

/-- Two racing requests, one in the middle of its course. -/
theorem handlers_unblocked_race : ∃ w, (platform plainEnv).run .empty (raceRun.take 26) = some w ∧
    Unblocked plainEnv w := by
  obtain ⟨w, hw⟩ : ∃ w, (platform plainEnv).run .empty (raceRun.take 26) = some w := ⟨_, rfl⟩
  exact ⟨w, hw, handlers_unblocked plainEnv_positiveTtls (.of_run hw)⟩

end RealtimeNotify.App
