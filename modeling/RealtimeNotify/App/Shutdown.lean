import RealtimeNotify.App.Subscriber
import RealtimeNotify.App.World

/-!
# The `finally` block of `lifespan`

What an instance does from the end of `yield` to the end of its process. Every
call of `close`, `unregister` and `mark_offline` may raise, before it took effect
or after. `close_all` catches what a socket raises; an exception of the loop over
the disconnected users leaves the block.
-/

namespace RealtimeNotify.App

open RealtimeNotify.Lib RealtimeNotify.Python

/-! ## The process -/

/-- The connection map: one socket for each user, each socket of one user. -/
structure ConnectionMap where
  items : Dict String Nat
  keys_nodup : items.keys.Nodup
  sockets_nodup : (items.map Prod.snd).Nodup

/-- `Subscriber._task`; an exception in it stays there until it is awaited. -/
inductive SubscriberTask where
  | listening
  | died (e : LoadsError)
  | stopped

structure CloseCall where
  websocket : Nat
  code : Nat
  reason : String
  deriving DecidableEq

/-- What the block acts on. -/
structure GatewayProcess where
  shared : Shared
  closeCalls : List CloseCall
  livenessRuns : Bool
  reconciliationRuns : Bool
  subscriber : SubscriberTask
  redisOpen : Bool
  engineOpen : Bool

/-- A serving instance; `died` is what its subscriber task died of, if it did. -/
def GatewayProcess.serving (shared : Shared) (died : Option LoadsError) : GatewayProcess where
  shared := shared
  closeCalls := []
  livenessRuns := true
  reconciliationRuns := true
  subscriber := died.elim .listening .died
  redisOpen := true
  engineOpen := true

/-- Where an exception comes from. -/
inductive ShutdownError where
  | close (websocket : Nat)
  | unregister (userId : String)
  | markOffline (userId : String)
  | subscriberTask (e : LoadsError)

/-- How the calls end. -/
structure ShutdownOutcomes where
  close : Nat → Outcome Choice
  unregister : String → Outcome Choice
  markOffline : String → Outcome Choice

/-- The calls for a user raise nothing. -/
def ShutdownOutcomes.clears (outcomes : ShutdownOutcomes) (userId : String) : Prop :=
  (outcomes.unregister userId).raises = false ∧ (outcomes.markOffline userId).raises = false

abbrev Shutdown := EStateM ShutdownError GatewayProcess

namespace Shutdown

def update (effect : Shared → Shared) : Shutdown Unit :=
  modify fun p => { p with shared := effect p.shared }

/-- An awaited call. -/
def await (outcome : Outcome Choice) (effect : Shared → Shared) (e : ShutdownError) :
    Shutdown Unit :=
  match outcome with
  | .ok _ => update effect
  | .fail => throw e
  | .failApplied _ => do
      update effect
      throw e

end Shutdown

/-! ## The block -/

open Shutdown

variable (outcomes : ShutdownOutcomes) (i : String)

/-- `websocket.close`. -/
def WebSocket.close (n code : Nat) (reason : String) : Shutdown Unit := do
  modify fun p => { p with closeCalls := p.closeCalls ++ [⟨n, code, reason⟩] }
  await (outcomes.close n) id (.close n)

namespace ConnectionManager

/-- `self._connections.pop(user_id, None)`. -/
def popSocket (userId : String) : Shutdown (Option Nat) := do
  let connections := (← get).shared.connections i
  update fun s => s.setConnections i (connections.pop userId)
  pure (connections.get userId)

/-- The loop of `close_all`. -/
def closeLoop (code : Nat) (reason : String) : List String → Shutdown Unit
  | [] => pure ()
  | userId :: todo => do
      match ← popSocket i userId with
      | none => closeLoop code reason todo
      | some websocket =>
          tryCatch (WebSocket.close outcomes websocket code reason) fun _ => pure ()
          closeLoop code reason todo

def closeAll (code : Nat) (reason : String) : Shutdown (List String) := do
  let userIds := ((← get).shared.connections i).keys
  closeLoop outcomes i code reason userIds
  pure userIds

end ConnectionManager

/-- `await instance_registry.unregister(user_id)`. -/
def unregisterUser (userId : String) : Shutdown Unit :=
  await (outcomes.unregister userId) (·.evict (registryKey userId)) (.unregister userId)

/-- `await presence_manager.mark_offline(user_id)`. -/
def markOfflineUser (userId : String) : Shutdown Unit :=
  await (outcomes.markOffline userId) (·.evict (presenceKey userId)) (.markOffline userId)

/-- The loop over `disconnected_user_ids`. -/
def clearUsers : List String → Shutdown Unit
  | [] => pure ()
  | userId :: todo => do
      unregisterUser outcomes userId
      markOfflineUser outcomes userId
      clearUsers todo

def InstanceLivenessLoop.stop : Shutdown Unit := modify fun p => { p with livenessRuns := false }

def ReconciliationLoop.stop : Shutdown Unit :=
  modify fun p => { p with reconciliationRuns := false }

/-- `await self._task` raises what the task died of. -/
def Subscriber.stop : Shutdown Unit := do
  match (← get).subscriber with
  | .died e => throw (.subscriberTask e)
  | .listening | .stopped =>
      modify fun p => { p with subscriber := .stopped, shared := p.shared.setChannel i none }

def lifespanFinally : Shutdown Unit := do
  let disconnectedUserIds ← ConnectionManager.closeAll outcomes i 1001 "Server shutting down"
  clearUsers outcomes disconnectedUserIds
  InstanceLivenessLoop.stop
  ReconciliationLoop.stop
  Subscriber.stop i
  modify fun p => { p with redisOpen := false }
  modify fun p => { p with engineOpen := false }

/-- The process after a call, whether or not it raised. -/
def Shutdown.after {α : Type} : EStateM.Result ShutdownError GatewayProcess α → GatewayProcess
  | .ok _ p | .error _ p => p

/-! ## Calls -/

namespace Shutdown

variable {outcomes : ShutdownOutcomes} {i : String} {p p' : GatewayProcess} {α β : Type}
  {x : Shutdown α} {f : α → Shutdown β} {e : ShutdownError}

theorem bind_ok {a : α} (h : x p = .ok a p') : (x >>= f) p = f a p' := by
  simp [bind, EStateM.bind, h]

theorem bind_error (h : x p = .error e p') : (x >>= f) p = .error e p' := by
  simp [bind, EStateM.bind, h]

theorem await_ok {o : Outcome Choice} {effect : Shared → Shared} (h : o.raises = false) :
    await o effect e p = .ok () { p with shared := effect p.shared } := by
  cases o with
  | ok _ => rfl
  | fail | failApplied _ => cases h

/-- What only keys go from. -/
def LosesKeys (p p' : GatewayProcess) : Prop :=
  ∃ redis : Redis, p' = { p with shared := { p.shared with redis } } ∧
    ∀ k, p.shared.redis k = none → redis k = none

theorem LosesKeys.refl (p : GatewayProcess) : LosesKeys p p := ⟨p.shared.redis, rfl, fun _ => id⟩

theorem LosesKeys.trans {p₁ p₂ p₃ : GatewayProcess} (h : LosesKeys p₁ p₂) (h' : LosesKeys p₂ p₃) :
    LosesKeys p₁ p₃ := by
  obtain ⟨r, rfl, hr⟩ := h
  obtain ⟨r', rfl, hr'⟩ := h'
  exact ⟨r', rfl, fun k hk => hr' k (hr k hk)⟩

theorem LosesKeys.evict (p : GatewayProcess) (k : String) :
    LosesKeys p { p with shared := p.shared.evict k } := by
  refine ⟨p.shared.redis.erase k, rfl, fun k' hk' => ?_⟩
  by_cases hk : k' = k
  · rw [hk, Store.erase_self]
  · rw [Store.erase_ne hk, hk']

theorem await_evict_error {o : Outcome Choice} {k : String} (h : o.raises = true) :
    ∃ p', await o (·.evict k) e p = .error e p' ∧ LosesKeys p p' := by
  cases o with
  | ok _ => cases h
  | fail => exact ⟨p, rfl, .refl p⟩
  | failApplied _ => exact ⟨_, rfl, .evict p k⟩

end Shutdown

variable {outcomes : ShutdownOutcomes} {i : String} {p : GatewayProcess}

/-! ## `close_all` -/

/-- The exception of a close is caught. -/
theorem WebSocket.close_caught (n code : Nat) (reason : String) :
    tryCatch (WebSocket.close outcomes n code reason) (fun _ => pure ()) p
      = .ok () { p with closeCalls := p.closeCalls ++ [⟨n, code, reason⟩] } := by
  cases h : outcomes.close n <;> simp [WebSocket.close, await, h] <;> rfl

theorem Shared.setConnections_self {s : Shared} {connections : Dict String Nat}
    (h : s.connections i = connections) : s.setConnections i connections = s := by
  simp [Shared.setConnections, ← h]

theorem Shared.setConnections_setConnections {s : Shared} {c d : Dict String Nat} :
    (s.setConnections i c).setConnections i d = s.setConnections i d := by
  simp [Shared.setConnections]

theorem ConnectionManager.popSocket_head {items : Dict String Nat} {u : String} {n : Nat}
    (hu : u ∉ items.keys) (hp : p.shared.connections i = (u, n) :: items) :
    popSocket i u p = .ok (some n) { p with shared := p.shared.setConnections i items } := by
  have hget : Dict.get ((u, n) :: items) u = some n := by simp [Dict.get]
  have hpop : Dict.pop ((u, n) :: items) u = items := Dict.pop_head hu
  show EStateM.Result.ok ((p.shared.connections i).get u)
      { p with shared := p.shared.setConnections i ((p.shared.connections i).pop u) } = _
  rw [hp, hget, hpop]

/-- Every entry is popped, and its socket gets one call. -/
theorem ConnectionManager.closeLoop_run {items : Dict String Nat} {code : Nat} {reason : String}
    (hnodup : items.keys.Nodup) (hp : p.shared.connections i = items) :
    closeLoop outcomes i code reason items.keys p = .ok ()
      { p with
        shared := p.shared.setConnections i []
        closeCalls := p.closeCalls ++ items.map fun e => ⟨e.2, code, reason⟩ } := by
  induction items generalizing p with
  | nil =>
    show EStateM.Result.ok () p = _
    simp [Shared.setConnections_self hp]
  | cons e items ih =>
    obtain ⟨u, n⟩ := e
    obtain ⟨hu, hnodup⟩ := List.nodup_cons.mp hnodup
    have hconnections : (p.shared.setConnections i items).connections i = items := by
      simp [Shared.setConnections]
    show closeLoop outcomes i code reason (u :: Dict.keys items) p = _
    rw [closeLoop, bind_ok (popSocket_head hu hp)]
    dsimp only
    rw [bind_ok (WebSocket.close_caught n code reason), ih hnodup hconnections]
    simp [Shared.setConnections_setConnections, List.append_assoc]

theorem ConnectionManager.closeAll_run {code : Nat} {reason : String}
    (hnodup : (p.shared.connections i).keys.Nodup) :
    closeAll outcomes i code reason p = .ok (p.shared.connections i).keys
      { p with
        shared := p.shared.setConnections i []
        closeCalls := p.closeCalls ++
          (p.shared.connections i).map fun e => ⟨e.2, code, reason⟩ } := by
  show ((closeLoop outcomes i code reason (p.shared.connections i).keys >>= fun _ =>
    pure (p.shared.connections i).keys) : Shutdown (List String)) p = _
  rw [bind_ok (closeLoop_run hnodup rfl)]
  rfl

/-! ## The loop over the disconnected users -/

theorem unregisterUser_ok {u : String} (h : (outcomes.unregister u).raises = false) :
    unregisterUser outcomes u p
      = .ok () { p with shared := p.shared.evict (registryKey u) } :=
  await_ok h

theorem markOfflineUser_ok {u : String} (h : (outcomes.markOffline u).raises = false) :
    markOfflineUser outcomes u p
      = .ok () { p with shared := p.shared.evict (presenceKey u) } :=
  await_ok h

theorem unregisterUser_error {u : String} (h : (outcomes.unregister u).raises = true) :
    ∃ p', unregisterUser outcomes u p = .error (.unregister u) p' ∧ LosesKeys p p' :=
  await_evict_error h

theorem markOfflineUser_error {u : String} (h : (outcomes.markOffline u).raises = true) :
    ∃ p', markOfflineUser outcomes u p = .error (.markOffline u) p' ∧ LosesKeys p p' :=
  await_evict_error h

theorem clearUsers_ok {users : List String} (h : ∀ u ∈ users, outcomes.clears u) :
    ∃ p', clearUsers outcomes users p = .ok () p' ∧ LosesKeys p p' ∧
      ∀ u ∈ users, p'.shared.redis (registryKey u) = none ∧
        p'.shared.redis (presenceKey u) = none := by
  induction users generalizing p with
  | nil => exact ⟨p, rfl, .refl p, by simp⟩
  | cons u users ih =>
    obtain ⟨hunregister, hoffline⟩ := h u (by simp)
    rw [clearUsers, bind_ok (unregisterUser_ok hunregister), bind_ok (markOfflineUser_ok hoffline)]
    obtain ⟨p', hrun, hloses, hgone⟩ := ih (fun v hv => h v (by simp [hv]))
    refine ⟨p', hrun, ?_, fun v hv => ?_⟩
    · exact (LosesKeys.evict p _).trans ((LosesKeys.evict _ _).trans hloses)
    · rcases List.mem_cons.mp hv with rfl | hv
      · obtain ⟨redis, rfl, hkeeps⟩ := hloses
        refine ⟨hkeeps _ ?_, hkeeps _ ?_⟩
        · by_cases hk : registryKey v = presenceKey v <;>
            simp [Shared.evict, Store.erase_ne, hk]
        · simp
      · exact hgone v hv

/-- A call that raises ends the loop. -/
theorem clearUsers_error {users : List String} (h : ¬ ∀ u ∈ users, outcomes.clears u) :
    ∃ e p', clearUsers outcomes users p = .error e p' ∧ LosesKeys p p' := by
  induction users generalizing p with
  | nil => simp at h
  | cons u users ih =>
    rw [clearUsers]
    cases hunregister : (outcomes.unregister u).raises with
    | true =>
      obtain ⟨p', hcall, hloses⟩ := unregisterUser_error (p := p) hunregister
      exact ⟨_, p', bind_error hcall, hloses⟩
    | false =>
      have hstep := LosesKeys.evict p (registryKey u)
      rw [bind_ok (unregisterUser_ok hunregister)]
      cases hoffline : (outcomes.markOffline u).raises with
      | true =>
        obtain ⟨p', hcall, hloses⟩ := markOfflineUser_error hoffline
        exact ⟨_, p', bind_error hcall, hstep.trans hloses⟩
      | false =>
        rw [bind_ok (markOfflineUser_ok hoffline)]
        have hrest : ¬ ∀ v ∈ users, outcomes.clears v := by
          intro hall
          refine h fun v hv => ?_
          rcases List.mem_cons.mp hv with rfl | hv
          · exact ⟨hunregister, hoffline⟩
          · exact hall v hv
        obtain ⟨e, p', hrun, hloses⟩ := ih hrest
        exact ⟨e, p', hrun, hstep.trans ((LosesKeys.evict _ _).trans hloses)⟩

/-! ## The whole block -/

/-- The process once the loops have run their course. -/
def GatewayProcess.closed (p : GatewayProcess) (i : String) : GatewayProcess :=
  { p with
    shared := p.shared.setConnections i []
    closeCalls := p.closeCalls ++
      (p.shared.connections i).map fun e => ⟨e.2, 1001, "Server shutting down"⟩ }

/-- What stops once the loops have run their course. -/
def stops (i : String) : Shutdown Unit := do
  InstanceLivenessLoop.stop
  ReconciliationLoop.stop
  Subscriber.stop i
  modify fun p => { p with redisOpen := false }
  modify fun p => { p with engineOpen := false }

theorem lifespanFinally_eq (hnodup : (p.shared.connections i).keys.Nodup) :
    lifespanFinally outcomes i p
      = (clearUsers outcomes (p.shared.connections i).keys >>= fun _ => stops i : Shutdown Unit)
          (p.closed i) := by
  rw [lifespanFinally, bind_ok (ConnectionManager.closeAll_run hnodup)]
  rfl

theorem stops_ok (h : ∀ e, p.subscriber ≠ .died e) :
    stops i p = .ok ()
      { p with
        livenessRuns := false
        reconciliationRuns := false
        subscriber := .stopped
        shared := p.shared.setChannel i none
        redisOpen := false
        engineOpen := false } := by
  obtain ⟨shared, closeCalls, liveness, reconciliation, subscriber, redis, engine⟩ := p
  cases subscriber with
  | died e => exact absurd rfl (h e)
  | listening | stopped => rfl

theorem stops_died {e : LoadsError} (h : p.subscriber = .died e) :
    stops i p = .error (.subscriberTask e)
      { p with livenessRuns := false, reconciliationRuns := false } := by
  obtain ⟨shared, closeCalls, liveness, reconciliation, subscriber, redis, engine⟩ := p
  obtain rfl : subscriber = .died e := h
  rfl

/-- What a shutdown that disconnects the users of `m` is to leave. -/
structure ShutsDown (outcomes : ShutdownOutcomes) (i : String) (m : ConnectionMap)
    (p : GatewayProcess) : Prop where
  closed_once : ∀ u n, m.items.get u = some n → p.closeCalls.countP (·.websocket = n) = 1
  map_empty : p.shared.connections i = []
  keys_gone : ∀ u ∈ m.items.keys, outcomes.clears u →
    p.shared.redis.get p.shared.now (registryKey u) = none ∧
      p.shared.redis.get p.shared.now (presenceKey u) = none
  loops_stopped : p.livenessRuns = false ∧ p.reconciliationRuns = false
  subscriber_stopped : p.subscriber = .stopped
  redis_closed : p.redisOpen = false

theorem ConnectionMap.closed_once (m : ConnectionMap) {u : String} {n code : Nat}
    {reason : String} (h : m.items.get u = some n) :
    (m.items.map fun e => (⟨e.2, code, reason⟩ : CloseCall)).countP (·.websocket = n) = 1 := by
  have hmem : n ∈ m.items.map Prod.snd := List.mem_map.mpr ⟨(u, n), Dict.mem_of_get h, rfl⟩
  calc (m.items.map fun e => (⟨e.2, code, reason⟩ : CloseCall)).countP (·.websocket = n)
      = (m.items.map Prod.snd).count n := by
        rw [List.count, List.countP_map, List.countP_map]
        rfl
    _ = 1 := List.count_eq_one_of_mem m.sockets_nodup hmem

/-- The three ways the block can end. -/
inductive ShutdownCase (outcomes : ShutdownOutcomes) (i : String) (p : GatewayProcess) :
    EStateM.Result ShutdownError GatewayProcess Unit → Prop where
  | completed {p'} : (∀ u ∈ (p.shared.connections i).keys, outcomes.clears u) →
      (∀ e, p.subscriber ≠ .died e) → LosesKeys (p.closed i) p' →
      (∀ u ∈ (p.shared.connections i).keys, p'.shared.redis (registryKey u) = none ∧
        p'.shared.redis (presenceKey u) = none) →
      ShutdownCase outcomes i p (.ok ()
        { p' with
          livenessRuns := false
          reconciliationRuns := false
          subscriber := .stopped
          shared := p'.shared.setChannel i none
          redisOpen := false
          engineOpen := false })
  | subscriberDied {e p'} : p.subscriber = .died e → LosesKeys (p.closed i) p' →
      ShutdownCase outcomes i p (.error (.subscriberTask e)
        { p' with livenessRuns := false, reconciliationRuns := false })
  | callRaised {e p'} : (¬ ∀ u ∈ (p.shared.connections i).keys, outcomes.clears u) →
      LosesKeys (p.closed i) p' → ShutdownCase outcomes i p (.error e p')

theorem lifespanFinally_cases (hnodup : (p.shared.connections i).keys.Nodup) :
    ShutdownCase outcomes i p (lifespanFinally outcomes i p) := by
  rw [lifespanFinally_eq hnodup]
  by_cases hall : ∀ u ∈ (p.shared.connections i).keys, outcomes.clears u
  · obtain ⟨p', hrun, hloses, hgone⟩ := clearUsers_ok (p := p.closed i) hall
    have hsame : p'.subscriber = p.subscriber := by
      obtain ⟨redis, rfl, -⟩ := hloses
      rfl
    rw [bind_ok hrun]
    by_cases hdied : ∃ e, p.subscriber = .died e
    · obtain ⟨e, he⟩ := hdied
      rw [stops_died (hsame.trans he)]
      exact .subscriberDied he hloses
    · have halive : ∀ e, p.subscriber ≠ .died e := fun e he => hdied ⟨e, he⟩
      rw [stops_ok (hsame ▸ halive)]
      exact .completed hall halive hloses hgone
  · obtain ⟨e, p', hrun, hloses⟩ := clearUsers_error (p := p.closed i) hall
    rw [bind_error hrun]
    exact .callRaised hall hloses

/-- Whatever raises, `close_all` has had its way with the sockets. -/
theorem ShutdownCase.closes {r : EStateM.Result ShutdownError GatewayProcess Unit}
    (h : ShutdownCase outcomes i p r) :
    (Shutdown.after r).closeCalls = (p.closed i).closeCalls ∧
      (Shutdown.after r).shared.connections i = [] := by
  have hempty : (p.closed i).shared.connections i = [] := by
    simp [GatewayProcess.closed, Shared.setConnections]
  cases h with
  | completed _ _ hloses _ | subscriberDied _ hloses | callRaised _ hloses =>
    obtain ⟨redis, rfl, -⟩ := hloses
    exact ⟨rfl, hempty⟩

/-- A shutdown leaves what it is to leave iff no call of its second loop raises and
the subscriber task has not died of an exception before. -/
theorem shutsDown_iff (outcomes : ShutdownOutcomes) (i : String) (m : ConnectionMap)
    (shared : Shared) (died : Option LoadsError) :
    ShutsDown outcomes i m (Shutdown.after (lifespanFinally outcomes i
      (.serving (shared.setConnections i m.items) died))) ↔
    (∀ u ∈ m.items.keys, outcomes.clears u) ∧ died = none := by
  have hitems : (shared.setConnections i m.items).connections i = m.items := by
    simp [Shared.setConnections]
  have hcases : ShutdownCase outcomes i (.serving (shared.setConnections i m.items) died)
      (lifespanFinally outcomes i (.serving (shared.setConnections i m.items) died)) := by
    apply lifespanFinally_cases
    show ((shared.setConnections i m.items).connections i).keys.Nodup
    rw [hitems]
    exact m.keys_nodup
  obtain ⟨hcalls, hempty⟩ := hcases.closes
  generalize lifespanFinally outcomes i (.serving (shared.setConnections i m.items) died) = r
    at hcases hcalls hempty
  constructor
  · intro h
    cases hcases with
    | completed hall halive _ _ =>
      refine ⟨hitems ▸ hall, ?_⟩
      cases died with
      | none => rfl
      | some e => exact absurd rfl (halive e)
    | subscriberDied _ hloses =>
      obtain ⟨redis, rfl, -⟩ := hloses
      cases h.redis_closed
    | callRaised _ hloses =>
      obtain ⟨redis, rfl, -⟩ := hloses
      cases h.redis_closed
  · rintro ⟨hall, rfl⟩
    cases hcases with
    | completed _ _ hloses hgone =>
      refine ⟨fun u n hget => ?_, hempty, fun u hu _ => ?_, ⟨rfl, rfl⟩, rfl, rfl⟩
      · rw [hcalls]
        show (((shared.setConnections i m.items).connections i).map
          fun e => (⟨e.2, 1001, "Server shutting down"⟩ : CloseCall)).countP _ = 1
        rw [hitems]
        exact m.closed_once hget
      · obtain ⟨hregistry, hpresence⟩ := hgone u (hitems.symm ▸ hu)
        exact ⟨Store.get_of_none hregistry, Store.get_of_none hpresence⟩
    | subscriberDied he _ => cases he
    | callRaised hnot _ => exact absurd (hitems.symm ▸ hall) hnot

/-- Two users of an instance. -/
def twoUsers : ConnectionMap where
  items := [("u", 0), ("v", 1)]
  keys_nodup := by decide
  sockets_nodup := by decide

/-- The registry entries of both. -/
def twoUsersState : Shared :=
  { World.empty.shared with
    redis := (Store.put World.empty.shared.redis (registryKey "u") (.text "a")
      (some (seconds 30))).put (registryKey "v") (.text "a") (some (seconds 30)) }

/-- `unregister` raises for the first of them. -/
def unregisterFails : ShutdownOutcomes where
  close _ := .ok .none
  unregister u := if u = "u" then .fail else .ok .none
  markOffline _ := .ok .none

/-- No call for the second user raises, and its entry stays; the loops and the
subscriber go on, and the client of Redis stays open. -/
theorem shutdown_stops_early : ∃ p, p = Shutdown.after (lifespanFinally unregisterFails "a"
      (.serving (twoUsersState.setConnections "a" twoUsers.items) none)) ∧
    unregisterFails.clears "v" ∧
    p.shared.redis.get p.shared.now (registryKey "v") = some (.text "a") ∧
    p.livenessRuns = true ∧ p.reconciliationRuns = true ∧ p.subscriber = .listening ∧
    p.redisOpen = true ∧ ¬ ShutsDown unregisterFails "a" twoUsers p :=
  ⟨_, rfl, ⟨rfl, rfl⟩, rfl, rfl, rfl, rfl, rfl, fun h => by cases h.redis_closed⟩

/-! ## The coroutine of the platform

The platform has the same block as the points of `LifespanPc` from `collecting` on,
where other tasks can come in between. With none in between, it is this one. -/

namespace Shutdown

/-- The point after a call. -/
def endPoint {α : Type} (returned raised : LifespanPc) :
    EStateM.Result ShutdownError GatewayProcess α → LifespanPc
  | .ok _ _ => returned
  | .error _ _ => raised

theorem await_advances {next : Step LifespanPc} {op : Op} {k : op.Reply → LifespanPc}
    {r : LifespanPc} {o : Outcome Choice} {effect : Shared → Shared} {e : ShutdownError}
    {reply : op.Reply} (hn : next = .call op k r) (hf : op.fallible = true)
    (hx : ∀ c, p.shared.exec op c = some (effect p.shared, reply)) :
    ∃ event, Advances semantics p.shared next o (after (await o effect e p)).shared
      (endPoint (k reply) r (await o effect e p)) event := by
  cases o with
  | ok c => exact ⟨_, .returned hn (hx c)⟩
  | fail => exact ⟨_, .raised hn hf⟩
  | failApplied c => exact ⟨_, .applied hn hf (hx c)⟩

end Shutdown

variable {env : Env} {all : List String}

/-- However a close ends, the loop goes on. -/
theorem WebSocket.close_advances (s : Shared) (n : Nat) (todo : List String)
    (o : Outcome Choice) :
    ∃ event, Advances semantics s (LifespanPc.next env i (.closing all n todo)) o s
      (.closeLoop all todo) event := by
  cases o with
  | ok c => exact ⟨_, .returned rfl rfl⟩
  | fail => exact ⟨_, .raised rfl rfl⟩
  | failApplied c => exact ⟨_, .applied rfl rfl (by rfl)⟩

theorem ConnectionManager.closeLoop_alone (close : Nat → Outcome Choice)
    {items : Dict String Nat} {s : Shared} (hnodup : items.keys.Nodup)
    (hs : s.connections i = items) :
    semantics.Alone (LifespanPc.next env i) s (LifespanPc.closeLoop all items.keys)
      (s.setConnections i []) (LifespanPc.unregisterLoop all) := by
  induction items generalizing s with
  | nil =>
    rw [Shared.setConnections_self hs]
    exact .refl
  | cons e items ih =>
    obtain ⟨u, n⟩ := e
    obtain ⟨hu, hnodup⟩ := List.nodup_cons.mp hnodup
    have hpopped : semantics.exec s (.popSocket i u) .none
        = some (s.setConnections i items, some n) := by
      simp [semantics, Shared.exec, hs, Dict.pop_head hu, Dict.get]
    obtain ⟨_, hclosed⟩ : ∃ event, Advances semantics (s.setConnections i items)
        (LifespanPc.next env i (.closing all n (Dict.keys items))) (close n)
        (s.setConnections i items) (.closeLoop all (Dict.keys items)) event :=
      WebSocket.close_advances _ n _ _
    have hrest := ih (s := s.setConnections i items) hnodup (by simp [Shared.setConnections])
    rw [Shared.setConnections_setConnections] at hrest
    exact .step (.returned rfl hpopped) (.step hclosed hrest)

theorem clearUsers_alone (users : List String) (p : GatewayProcess) :
    semantics.Alone (LifespanPc.next env i) p.shared (LifespanPc.unregisterLoop users)
      (after (clearUsers outcomes users p)).shared
      (endPoint .stoppingLiveness .failed (clearUsers outcomes users p)) := by
  induction users generalizing p with
  | nil => exact .refl
  | cons u users ih =>
    obtain ⟨_, hunregister⟩ : ∃ event, Advances semantics p.shared
        (LifespanPc.next env i (.unregistering u users)) (outcomes.unregister u)
        (after (unregisterUser outcomes u p)).shared
        (endPoint (.clearing u users) .failed (unregisterUser outcomes u p)) event :=
      await_advances rfl rfl fun _ => rfl
    rw [clearUsers]
    cases hcall : unregisterUser outcomes u p with
    | error e p₁ =>
      rw [bind_error hcall]
      rw [hcall] at hunregister
      exact .step hunregister .refl
    | ok _ p₁ =>
      rw [bind_ok hcall]
      rw [hcall] at hunregister
      refine .step hunregister ?_
      obtain ⟨_, hoffline⟩ : ∃ event, Advances semantics p₁.shared
          (LifespanPc.next env i (.clearing u users)) (outcomes.markOffline u)
          (after (markOfflineUser outcomes u p₁)).shared
          (endPoint (.unregisterLoop users) .failed (markOfflineUser outcomes u p₁)) event :=
        await_advances rfl rfl fun _ => rfl
      cases hcall : markOfflineUser outcomes u p₁ with
      | error e p₂ =>
        rw [bind_error hcall]
        rw [hcall] at hoffline
        exact .step hoffline .refl
      | ok _ p₂ =>
        rw [bind_ok hcall]
        rw [hcall] at hoffline
        exact .step hoffline (ih p₂)

theorem stops_alone (p : GatewayProcess) :
    semantics.Alone (LifespanPc.next env i) p.shared .stoppingLiveness
      (after (stops i p)).shared (endPoint .stopped .failed (stops i p)) := by
  have hliveness : Advances semantics p.shared (LifespanPc.next env i .stoppingLiveness)
      (.ok .none) p.shared .unsubscribing (.returned .sleep ()) := .returned rfl rfl
  by_cases hdied : ∃ e, p.subscriber = .died e
  · obtain ⟨e, he⟩ := hdied
    rw [stops_died he]
    exact .step hliveness (.step (.raised rfl rfl) .refl)
  · rw [stops_ok fun e he => hdied ⟨e, he⟩]
    have hstopped : semantics.exec p.shared (.unsubscribe i) .none
        = some (p.shared.setChannel i none, ()) := rfl
    exact .step hliveness (.step (.returned rfl hstopped) .refl)

/-- The block is what the lifespan coroutine does when it runs alone. -/
theorem lifespanFinally_alone (hnodup : (p.shared.connections i).keys.Nodup) :
    semantics.Alone (LifespanPc.next env i) p.shared .collecting
      (after (lifespanFinally outcomes i p)).shared
      (endPoint .stopped .failed (lifespanFinally outcomes i p)) := by
  have hcollect : semantics.exec p.shared (.connectedUserIds i) .none
      = some (p.shared, (p.shared.connections i).keys) := rfl
  refine .step (.returned rfl hcollect) ?_
  refine (ConnectionManager.closeLoop_alone outcomes.close hnodup rfl).trans ?_
  have hclear : semantics.Alone (LifespanPc.next env i) (p.closed i).shared
      (LifespanPc.unregisterLoop (p.shared.connections i).keys) _
      (endPoint .stoppingLiveness .failed
        (clearUsers outcomes (p.shared.connections i).keys (p.closed i))) :=
    clearUsers_alone _ _
  rw [lifespanFinally_eq hnodup]
  cases hrun : clearUsers outcomes (p.shared.connections i).keys (p.closed i) with
  | error e p' =>
    rw [bind_error hrun]
    rw [hrun] at hclear
    exact hclear
  | ok _ p' =>
    rw [bind_ok hrun]
    rw [hrun] at hclear
    exact hclear.trans (stops_alone p')

end RealtimeNotify.App
