import RealtimeNotify.Lib.Unwinding
import RealtimeNotify.Runs.UserPart

/-!
# What of the tasks is one user's

A task acts for others at the points where it works for another user: a session
or a ticket exchange of theirs all along, a request for them once its row is
settled, the subscriber with a message in hand, the shutdown at their entries.
There it leaves the part of `A`; elsewhere what it does is about that part.
-/

namespace RealtimeNotify.App

open RealtimeNotify.Lib RealtimeNotify.Python

variable {A : UUID} {others : String → Bool} {env : Env} {s : Shared} {op : Op} {n : Nat}
  {i c : String}

/-! ## Sessions -/

/-- The UUID a session has taken its user for, where it passes it on. -/
def GatewayPc.id? : GatewayPc → Option UUID
  | backlogQuery _ id | readReceipt _ id _ => some id
  | _ => none

theorem GatewayPc.apart {pc : GatewayPc} (hop : (pc.next env n i c).op? = some op)
    (hc : others c = true) (huser : ∀ u, pc.user? = some u → foreign A u = true)
    (hid : ∀ id, pc.id? = some id → id ≠ A)
    (hticket : ∀ t, pc = redeem t → s.redis.part A others s.now (ticketKey t) = none) :
    op.Apart A others s := by
  cases pc with
  | redeem t =>
    obtain rfl := Option.some.inj hop
    exact hticket t rfl
  | add u | remove u =>
    obtain rfl := Option.some.inj hop
    simp [Op.Apart, own, huser u rfl]
  | register u | refresh u | unregister u =>
    obtain rfl := Option.some.inj hop
    exact Op.apart_of_foreign (.registry (huser u rfl))
  | markOnline u | heartbeat u | markOffline u =>
    obtain rfl := Option.some.inj hop
    exact Op.apart_of_foreign (.presence (huser u rfl))
  | presence u online =>
    obtain rfl := Option.some.inj hop
    cases online <;> exact Op.apart_of_foreign (.presence (huser u rfl))
  | onlineSeen u | heartbeatSeen u | presenceSeen u =>
    obtain rfl := Option.some.inj hop
    exact Op.apart_of_foreign (.lastSeen (huser u rfl))
  | allow u fields =>
    obtain rfl := Option.some.inj hop
    exact Op.apart_of_foreign (.rateLimit hc)
  | readReceipt u id m =>
    obtain rfl := Option.some.inj hop
    exact hid id rfl
  | reject | accept _ | backlogQuery _ _ | backlogSend _ _ | receive _ | respond _ _ =>
    obtain rfl := Option.some.inj hop
    trivial
  | ended => cases hop

theorem GatewayPc.within {pc : GatewayPc} (hop : (pc.next env n i c).op? = some op)
    (hc : others c = false) (hid : ∀ id, pc.id? = some id → id = A)
    (hticket : ∀ t, pc = redeem t → ∀ cell, s.redis.cell s.now (ticketKey t) = some cell →
      Within A others (ticketKey t) cell.value) :
    op.Within A others s ∧ ∀ x y, op.Same A x y → x = y := by
  cases pc with
  | redeem t =>
    obtain rfl := Option.some.inj hop
    exact ⟨hticket t rfl, fun _ _ => id⟩
  | allow u fields =>
    obtain rfl := Option.some.inj hop
    exact ⟨fun _ _ => within_of_key (by simp [foreign_rateLimitKey, hc]) (by simp) _, fun _ _ => id⟩
  | presence u online =>
    obtain rfl := Option.some.inj hop
    cases online <;> exact ⟨trivial, fun _ _ => id⟩
  | backlogQuery u id | readReceipt u id m =>
    obtain rfl := Option.some.inj hop
    exact ⟨hid id rfl, fun _ _ => fun h => h⟩
  | ended => cases hop
  | _ =>
    obtain rfl := Option.some.inj hop
    exact ⟨trivial, fun _ _ => id⟩

/-! ## Requests -/

namespace CreatePc

/-- Past `mark_seen` with a row of its own. -/
def late : CreatePc → Bool
  | lookup _ | isAlive _ _ | publish _ _ | markDelivered _ => true
  | _ => false

/-- The point, while it is before that. -/
def untilSeen : CreatePc → CreatePc
  | allow => allow
  | hasSeen => hasSeen
  | create => create
  | markSeen row => markSeen row
  | _ => killed

variable {client : Option String} {body : NotificationCreate} {pc r : CreatePc}
  {k : op.Reply → CreatePc}

theorem untilSeen_late (h : pc.next env client body = .call op k r) (hl : pc.late = true) :
    pc.untilSeen = killed ∧ (∀ x, (k x).untilSeen = killed) ∧ r.untilSeen = killed := by
  cases pc with
  | lookup row =>
    cases h
    exact ⟨rfl, fun x => by cases x <;> rfl, rfl⟩
  | isAlive row owner =>
    cases h
    exact ⟨rfl, fun x => by cases x <;> rfl, rfl⟩
  | publish row owner | markDelivered row =>
    cases h
    exact ⟨rfl, fun _ => rfl, rfl⟩
  | allow | hasSeen | create | markSeen _ | returned _ | rejected _ | raised | killed =>
    cases hl

theorem untilSeen_of_not_late (h : pc.next env client body = .call op k r)
    (hl : pc.late = false) : pc.untilSeen = pc := by
  cases pc with
  | allow | hasSeen | create | markSeen _ => rfl
  | lookup _ | isAlive _ _ | publish _ _ | markDelivered _ => cases hl
  | returned _ | rejected _ | raised | killed => cases h

theorem untilSeen_kill : pc.kill.untilSeen = killed := by
  cases pc <;> rfl

theorem apart (hop : (pc.next env client body).op? = some op) (hl : pc.late = true)
    (hrow : ∀ row, pc.row? = some row → ∀ row' ∈ s.db.notifications,
      row'.notificationId = row.notificationId → row'.userId ≠ A) :
    op.Apart A others s := by
  cases pc with
  | lookup row | isAlive row owner | publish row owner =>
    obtain rfl := Option.some.inj hop
    trivial
  | markDelivered row =>
    obtain rfl := Option.some.inj hop
    exact hrow row rfl
  | allow | hasSeen | create | markSeen _ | returned _ | rejected _ | raised | killed =>
    cases hl

theorem within (hop : (pc.next env client body).op? = some op)
    (hl : body.userId = A ∨ pc.late = false) (hc : others (client.getD "unknown") = false) :
    op.Within A others s ∧ ∀ x y, op.Same A x y → x = y := by
  cases pc with
  | allow =>
    obtain rfl := Option.some.inj hop
    exact ⟨fun _ _ => within_of_key (by simp [foreign_rateLimitKey, hc]) (by simp) _, fun _ _ => id⟩
  | hasSeen =>
    obtain rfl := Option.some.inj hop
    exact ⟨fun _ _ => within_of_key (not_foreignKey (by simp)) (by simp) _, fun _ _ => id⟩
  | lookup row =>
    obtain rfl := Option.some.inj hop
    obtain rfl : body.userId = A := hl.resolve_right (by simp [late])
    have hown : foreign body.userId body.userId.str = false := by
      simp [foreign_of_ofString (UUID.ofString_str _)]
    exact ⟨fun _ _ => within_of_key (by simp [foreign_registryKey, hown]) (by simp) _,
      fun _ _ => id⟩
  | isAlive row owner =>
    obtain rfl := Option.some.inj hop
    exact ⟨fun _ _ => within_of_key (not_foreignKey (by simp)) (by simp) _, fun _ _ => id⟩
  | create | markSeen _ | publish _ _ | markDelivered _ =>
    obtain rfl := Option.some.inj hop
    exact ⟨trivial, fun _ _ => id⟩
  | returned _ | rejected _ | raised | killed => cases hop

end CreatePc

/-! ## Ticket requests -/

/-- A token of another user. -/
def foreignClaims (A : UUID) : Option (Option String) → Bool
  | some (some subject) => foreign A subject
  | _ => false

theorem foreignClaims_of_ok {claims : Option (Option String)} {u : String}
    (h : decodeUserId claims = .ok u) : foreignClaims A claims = foreign A u := by
  rw [(decodeUserId_ok h).1]
  rfl

theorem IssuePc.within {pc : IssuePc} (hop : (pc.next env).op? = some op) :
    op.Within A others s ∧ ∀ x y, op.Same A x y → x = y := by
  cases pc with
  | issue u token =>
    obtain rfl := Option.some.inj hop
    exact ⟨trivial, fun _ _ => id⟩
  | returned _ | rejected _ | raised | killed => cases hop

/-! ## The tasks of an instance -/

theorem LivenessPc.within {pc : LivenessPc} (hop : (pc.next env i).op? = some op) :
    op.Within A others s ∧ ∀ x y, op.Same A x y → x = y := by
  cases pc <;>
  · obtain rfl := Option.some.inj hop
    exact ⟨trivial, fun _ _ => id⟩

/-- The user whose connection `send_json` is about to remove. -/
def SubscriberPc.drops? : SubscriberPc → Option String
  | dropping u _ => some u
  | _ => none

theorem SubscriberPc.drops_eq_some {pc : SubscriberPc} {u : String} (h : pc.drops? = some u) :
    ∃ ws, pc = dropping u ws := by
  cases pc <;> simp_all [drops?]

theorem SubscriberPc.apart {pc : SubscriberPc} (hop : (pc.next i).op? = some op)
    (hu : ∀ u, pc.drops? = some u → own A u = false) : op.Apart A others s := by
  cases pc with
  | dropping u ws =>
    obtain rfl := Option.some.inj hop
    exact hu u rfl
  | listening | delivering _ | sending _ _ _ =>
    obtain rfl := Option.some.inj hop
    trivial
  | dead => cases hop

namespace LifespanPc

/-- At the entries of another user, or closing a socket. -/
def forOthers (A : UUID) : LifespanPc → Bool
  | popping _ u _ | unregistering u _ | clearing u _ => !own A u
  | closing _ _ _ => true
  | _ => false

/-- At an entry of Redis that the shutdown clears. -/
def clears : LifespanPc → Bool
  | unregistering _ _ | clearing _ _ => true
  | _ => false

/-- Where the shutdown would be without the others. -/
def part (A : UUID) : LifespanPc → LifespanPc
  | popping all u todo => closeLoop (all.filter (own A)) ((u :: todo).filter (own A))
  | closing all _ todo => closeLoop (all.filter (own A)) (todo.filter (own A))
  | unregistering u todo => unregisterLoop ((u :: todo).filter (own A))
  | clearing u todo =>
      if own A u then clearing u (todo.filter (own A)) else unregisterLoop (todo.filter (own A))
  | pc => pc

variable {pc r : LifespanPc} {all todo : List String} {u : String}

@[simp] theorem part_popping : (popping all u todo).part A =
    closeLoop (all.filter (own A)) ((u :: todo).filter (own A)) := rfl

@[simp] theorem part_closing {ws : Nat} : (closing all ws todo).part A =
    closeLoop (all.filter (own A)) (todo.filter (own A)) := rfl

@[simp] theorem part_unregistering :
    (unregistering u todo).part A = unregisterLoop ((u :: todo).filter (own A)) := rfl

@[simp] theorem part_clearing : (clearing u todo).part A =
    if own A u then clearing u (todo.filter (own A))
    else unregisterLoop (todo.filter (own A)) := rfl

@[simp] theorem part_unregisterLoop :
    (unregisterLoop todo).part A = unregisterLoop (todo.filter (own A)) := by
  cases todo <;> rfl

@[simp] theorem part_closeLoop : (closeLoop all todo).part A
    = closeLoop (all.filter (own A)) (todo.filter (own A)) := by
  cases todo with
  | nil => simp [closeLoop]
  | cons u todo => rfl

theorem apart (hop : (pc.next env i).op? = some op) (h : pc.forOthers A = true) :
    op.Apart A others s := by
  cases pc with
  | popping all u todo =>
    obtain rfl := Option.some.inj hop
    have hu : own A u = false := by simpa [forOthers] using h
    exact hu
  | closing all ws todo =>
    obtain rfl := Option.some.inj hop
    trivial
  | unregistering u todo =>
    obtain rfl := Option.some.inj hop
    exact Op.apart_of_foreign (.registry (by simpa [forOthers, own] using h))
  | clearing u todo =>
    obtain rfl := Option.some.inj hop
    exact Op.apart_of_foreign (.presence (by simpa [forOthers, own] using h))
  | subscribing | markingAlive | serving | collecting | stoppingLiveness | unsubscribing
  | stopped | failed => cases h

theorem within (hop : (pc.next env i).op? = some op) (h : pc.forOthers A = false) :
    op.Within A others s := by
  cases pc with
  | popping all u todo =>
    obtain rfl := Option.some.inj hop
    have hu : own A u = true := by simpa [forOthers] using h
    exact hu
  | closing all ws todo => cases h
  | stopped | failed => cases hop
  | _ =>
    obtain rfl := Option.some.inj hop
    trivial

/-- At the others' entries the shutdown stays where it is without them, -/
theorem part_next {k : op.Reply → LifespanPc} (h : pc.next env i = .call op k r)
    (ho : pc.forOthers A = true) : ∀ x, (k x).part A = pc.part A := by
  cases pc with
  | popping all u todo =>
    cases h
    have hu : own A u = false := by simpa [forOthers] using ho
    intro x
    cases x <;> simp [hu]
  | closing all ws todo =>
    cases h
    intro x
    simp
  | unregistering u todo =>
    cases h
    have hu : own A u = false := by simpa [forOthers] using ho
    intro x
    simp [hu]
  | clearing u todo =>
    cases h
    have hu : own A u = false := by simpa [forOthers] using ho
    intro x
    simp [hu]
  | subscribing | markingAlive | serving | collecting | stoppingLiveness | unsubscribing
  | stopped | failed => cases ho

/-- an exception as it closes their sockets included, -/
theorem part_raised {k : op.Reply → LifespanPc} (h : pc.next env i = .call op k r)
    (ho : pc.forOthers A = true) (hf : op.fallible = true) (hc : pc.clears = false) :
    r.part A = pc.part A := by
  cases pc with
  | popping all u todo =>
    cases h
    cases hf
  | closing all ws todo =>
    cases h
    simp
  | unregistering u todo | clearing u todo => cases hc
  | subscribing | markingAlive | serving | collecting | stoppingLiveness | unsubscribing
  | stopped | failed => cases ho

/-- and elsewhere it goes as it does without them. -/
theorem alike_part (hop : (pc.next env i).op? = some op) (h : pc.forOthers A = false) :
    (pc.next env i).Alike (Op.Same A) (part A) ((pc.part A).next env i) := by
  cases pc with
  | collecting =>
    refine .call (fun x y hxy => ?_) rfl
    simpa [Op.Same] using congrArg₂ closeLoop hxy hxy
  | popping all u todo =>
    have hu : own A u = true := by simpa [forOthers] using h
    have hpart : (popping all u todo).part A
        = popping (all.filter (own A)) u (todo.filter (own A)) := by simp [hu, closeLoop]
    rw [hpart]
    refine .call (fun x y hxy => ?_) rfl
    obtain rfl : x = y := hxy
    cases x <;> simp
  | unregistering u todo =>
    have hu : own A u = true := by simpa [forOthers] using h
    have hpart : (unregistering u todo).part A = unregistering u (todo.filter (own A)) := by
      simp [hu, unregisterLoop]
    rw [hpart]
    exact .call (fun x y _ => by simp [hu]) rfl
  | clearing u todo =>
    have hu : own A u = true := by simpa [forOthers] using h
    have hpart : (clearing u todo).part A = clearing u (todo.filter (own A)) := by
      simp [hu]
    rw [hpart]
    exact .call (fun x y _ => by simp) rfl
  | closing all ws todo => cases h
  | stopped | failed => cases hop
  | subscribing | markingAlive | serving | stoppingLiveness | unsubscribing =>
    exact .call (fun x y _ => rfl) rfl

end LifespanPc

/-! ## The platform -/

/-- A request for another user, while its outcome is not about the user's part. -/
def PostRequest.part (A : UUID) (r : PostRequest) : PostRequest :=
  if r.body.userId = A then r else { r with pc := r.pc.untilSeen }

def Process.part (A : UUID) (p : Process) : LifespanPc × LivenessPc :=
  (p.lifespan.part A, p.liveness)

structure WorldPart where
  shared : Part
  processes : String → Option (LifespanPc × LivenessPc)
  sessions : Nat → Option Session
  requests : Nat → Option PostRequest
  ticketRequests : Nat → Option TicketRequest

namespace World

section

variable (A : UUID) (others : String → Bool)

noncomputable def part (w : World) : WorldPart where
  shared := w.shared.part A others
  processes i := (w.processes i).map (·.part A)
  sessions n := (w.sessions n).filter fun s => !others s.connectionId
  requests n := (w.requests n).map (·.part A)
  ticketRequests n := (w.ticketRequests n).filter fun r => !foreignClaims A r.claims

end

variable {w : World} {sh : Shared} {log : List Event} {tokens : List String}

theorem part_shared (w : World) (sh : Shared) :
    ({ w with shared := sh } : World).part A others =
      { w.part A others with shared := sh.part A others } := rfl

theorem part_session {s : Session} :
    ({ w.setSession n s with shared := sh, log := log } : World).part A others =
      { w.part A others with
        shared := sh.part A others
        sessions := Function.update (w.part A others).sessions n
          ((some s).filter fun s => !others s.connectionId) } := by
  simp only [part, setSession, WorldPart.mk.injEq, true_and, and_true]
  exact Function.comp_update (Option.filter fun s : Session => !others s.connectionId) ..

theorem part_request {r : PostRequest} :
    ({ w.setRequest n r with shared := sh, log := log } : World).part A others =
      { w.part A others with
        shared := sh.part A others
        requests := Function.update (w.part A others).requests n (some (r.part A)) } := by
  simp only [part, setRequest, WorldPart.mk.injEq, true_and, and_true]
  exact Function.comp_update (Option.map fun r : PostRequest => r.part A) ..

theorem part_ticketRequest {r : TicketRequest} :
    ({ w.setTicketRequest n r with shared := sh, log := log, tokens := tokens } : World).part A
      others = { w.part A others with
        shared := sh.part A others
        ticketRequests := Function.update (w.part A others).ticketRequests n
          ((some r).filter fun r => !foreignClaims A r.claims) } := by
  simp only [part, setTicketRequest, WorldPart.mk.injEq, true_and]
  exact Function.comp_update (Option.filter fun r : TicketRequest => !foreignClaims A r.claims) ..

theorem part_process {p : Process} :
    ({ w.setProcess i p with shared := sh, log := log } : World).part A others =
      { w.part A others with
        shared := sh.part A others
        processes := Function.update (w.part A others).processes i (some (p.part A)) } := by
  simp only [part, setProcess, WorldPart.mk.injEq, true_and, and_true]
  exact Function.comp_update (Option.map fun p : Process => p.part A) ..

/-! The same with the shared state as it was. -/

theorem part_setSession {s : Session} : (w.setSession n s).part A others =
    { w.part A others with
      sessions := Function.update (w.part A others).sessions n
        ((some s).filter fun s => !others s.connectionId) } :=
  part_session

theorem part_setRequest {r : PostRequest} : (w.setRequest n r).part A others =
    { w.part A others with
      requests := Function.update (w.part A others).requests n (some (r.part A)) } :=
  part_request

theorem part_addTicketRequest {r : TicketRequest} : (w.addTicketRequest n r).part A others =
    { w.part A others with
      ticketRequests := Function.update (w.part A others).ticketRequests n
        ((some r).filter fun r => !foreignClaims A r.claims) } :=
  part_ticketRequest

theorem part_setProcess {p : Process} : (w.setProcess i p).part A others =
    { w.part A others with
      processes := Function.update (w.part A others).processes i (some (p.part A)) } :=
  part_process

theorem processes_of_part {v : World} (h : w.part A others = v.part A others) {p p' : Process}
    (hp : w.processes i = some p) (hp' : v.processes i = some p') : p.part A = p'.part A := by
  have hsame := congrFun (congrArg WorldPart.processes h) i
  simpa [part, hp, hp'] using hsame

/-! What the part does not show may change. -/

theorem part_session_unseen {s : Session} (hsh : sh.part A others = w.shared.part A others)
    (hs : (some s).filter (fun s => !others s.connectionId)
      = (w.sessions n).filter fun s => !others s.connectionId) :
    ({ w.setSession n s with shared := sh, log := log } : World).part A others
      = w.part A others := by
  rw [part_session, hsh, Function.update_eq_self_iff.mpr hs]
  rfl

theorem part_request_unseen {r : PostRequest} (hsh : sh.part A others = w.shared.part A others)
    (hr : some (r.part A) = (w.requests n).map (·.part A)) :
    ({ w.setRequest n r with shared := sh, log := log } : World).part A others
      = w.part A others := by
  rw [part_request, hsh, Function.update_eq_self_iff.mpr hr]
  rfl

theorem part_ticketRequest_unseen {r : TicketRequest}
    (hsh : sh.part A others = w.shared.part A others)
    (hr : (some r).filter (fun r => !foreignClaims A r.claims)
      = (w.ticketRequests n).filter fun r => !foreignClaims A r.claims) :
    ({ w.setTicketRequest n r with shared := sh, log := log, tokens := tokens } : World).part A
      others = w.part A others := by
  rw [part_ticketRequest, hsh, Function.update_eq_self_iff.mpr hr]
  rfl

theorem part_process_unseen {p : Process} (hsh : sh.part A others = w.shared.part A others)
    (hp : some (p.part A) = (w.processes i).map (·.part A)) :
    ({ w.setProcess i p with shared := sh, log := log } : World).part A others
      = w.part A others := by
  rw [part_process, hsh, Function.update_eq_self_iff.mpr hp]
  rfl

end World

theorem PostRequest.part_instanceId {r : PostRequest} :
    (r.part A).instanceId = r.instanceId := by
  unfold PostRequest.part
  split <;> rfl

theorem PostRequest.part_part {r : PostRequest} : (r.part A).part A = r.part A := by
  by_cases hu : r.body.userId = A
  · simp [PostRequest.part, hu]
  · simp only [PostRequest.part, hu, if_false]
    cases r.pc <;> rfl

/-- The death of a process does to the part what it does by the part. -/
theorem PostRequest.part_kill {r : PostRequest} :
    ({ r with pc := r.pc.kill } : PostRequest).part A
      = ({ r.part A with pc := (r.part A).pc.kill } : PostRequest).part A := by
  by_cases hu : r.body.userId = A
  · simp [PostRequest.part, hu]
  · simp [PostRequest.part, hu, CreatePc.untilSeen_kill]

theorem World.part_crash {w v : World} (h : w.part A others = v.part A others) :
    (w.crash i).part A others = (v.crash i).part A others := by
  simp only [World.part, WorldPart.mk.injEq] at h
  obtain ⟨hshared, hprocesses, hsessions, hrequests, htickets⟩ := h
  simp only [World.part, World.crash, World.killAll, WorldPart.mk.injEq]
  refine ⟨?_, funext fun j => ?_, funext fun n => ?_, funext fun n => ?_, funext fun n => ?_⟩
  · rw [Shared.part_setConnections, Shared.part_setConnections, Shared.part_setChannel,
      Shared.part_setChannel, hshared]
  · by_cases hj : j = i
    · simp [hj]
    · simpa [hj] using congrFun hprocesses j
  · have hown : ((fun s : Session => !others s.connectionId) ∘ fun s : Session =>
        if s.instanceId = i then { s with pc := .ended } else s)
          = fun s => !others s.connectionId := by
      funext s
      by_cases hs : s.instanceId = i <;> simp [hs]
    rw [Option.filter_map, Option.filter_map, hown, congrFun hsessions n]
  · have hkill : ∀ r : PostRequest,
        (if r.instanceId = i then { r with pc := r.pc.kill } else r).part A = (if
          (r.part A).instanceId = i then { r.part A with pc := (r.part A).pc.kill } else
            r.part A).part A := by
      intro r
      rw [PostRequest.part_instanceId]
      by_cases hr : r.instanceId = i
      · rw [if_pos hr, if_pos hr]
        exact PostRequest.part_kill
      · rw [if_neg hr, if_neg hr, PostRequest.part_part]
    have hmap : ∀ x : Option PostRequest, (x.map fun r =>
        if r.instanceId = i then { r with pc := r.pc.kill } else r).map (·.part A) =
          (x.map (·.part A)).map fun r =>
            (if r.instanceId = i then { r with pc := r.pc.kill } else r).part A := by
      intro x
      cases x with
      | none => rfl
      | some r => exact congrArg some (hkill r)
    rw [hmap, hmap, congrFun hrequests n]
  · have hown : ((fun r : TicketRequest => !foreignClaims A r.claims) ∘ fun r : TicketRequest =>
        if r.instanceId = i then { r with pc := r.pc.kill } else r)
          = fun r => !foreignClaims A r.claims := by
      funext r
      by_cases hr : r.instanceId = i <;> simp [hr]
    rw [Option.filter_map, Option.filter_map, hown, congrFun htickets n]

end RealtimeNotify.App
