import RealtimeNotify.App.RateLimiter
import RealtimeNotify.App.Routing
import RealtimeNotify.Lib.Gate

/-!
# Messages that are turned away

The limiter charges a connection for every message, and what is rejected does
nothing else. So `route` is a gate, hidden from an observer who does not look at
the rate counters: a sequence of messages leaves the state that the operations of
the admitted ones leave.
-/

namespace RealtimeNotify.App

open RealtimeNotify.Lib RealtimeNotify.Python

variable {env : Env} {rt : Runtime} {r r' q : Redis} {now : Nat} {c u : String}
  {s s' t : Shared} {fields : Dict PyStr Json} {op : Route} {allowed : Bool}

/-! ## One key of the store -/

/-- What a command does to its key and replies is decided by that key. -/
theorem RedisCmd.exec_local {cmd : RedisCmd} {reply : cmd.Reply} (hkey : r cmd.key = q cmd.key)
    (h : cmd.exec r now = some (r', reply)) :
    ∃ q', cmd.exec q now = some (q', reply) ∧ r' cmd.key = q' cmd.key := by
  cases cmd with
  | set k v ex =>
    rcases ex with _ | _ | ttl
    · obtain ⟨rfl, -⟩ := Prod.mk.inj (Option.some.inj h)
      exact ⟨_, rfl, Store.put_self.trans Store.put_self.symm⟩
    · cases h
    · obtain ⟨rfl, -⟩ := Prod.mk.inj (Option.some.inj h)
      exact ⟨_, rfl, Store.put_self.trans Store.put_self.symm⟩
  | setNow k =>
    obtain ⟨rfl, -⟩ := Prod.mk.inj (Option.some.inj h)
    exact ⟨_, rfl, Store.put_self.trans Store.put_self.symm⟩
  | expire k ttl =>
    obtain ⟨rfl, -⟩ := Prod.mk.inj (Option.some.inj h)
    refine ⟨_, rfl, ?_⟩
    have hkey : r k = q k := hkey
    have hcell : r.cell now k = q.cell now k := Store.cell_congr hkey
    show r.extend now k _ k = q.extend now k _ k
    unfold Store.extend
    rw [hcell]
    cases q.cell now k with
    | none => exact hkey
    | some v => exact Store.put_self.trans Store.put_self.symm
  | delete k =>
    obtain ⟨rfl, -⟩ := Prod.mk.inj (Option.some.inj h)
    exact ⟨_, rfl, Store.erase_self.trans Store.erase_self.symm⟩
  | get k =>
    obtain ⟨rfl, rfl⟩ := Prod.mk.inj (Option.some.inj h)
    have hget : r.get now k = q.get now k := Store.get_congr hkey
    exact ⟨q, by rw [hget]; rfl, hkey⟩
  | getdel k =>
    obtain ⟨rfl, rfl⟩ := Prod.mk.inj (Option.some.inj h)
    have hget : r.get now k = q.get now k := Store.get_congr hkey
    exact ⟨q.erase k, by rw [hget]; rfl, Store.erase_self.trans Store.erase_self.symm⟩
  | «exists» k =>
    obtain ⟨rfl, rfl⟩ := Prod.mk.inj (Option.some.inj h)
    have hget : r.get now k = q.get now k := Store.get_congr hkey
    exact ⟨q, by rw [hget]; rfl, hkey⟩
  | tokenBucket k limit window =>
    have hcell : r.cell now k = q.cell now k := Store.cell_congr hkey
    simp only [exec, runTokenBucket] at h ⊢
    rw [hcell] at h
    split at h
    · obtain ⟨rfl, rfl⟩ := Prod.mk.inj (Option.some.inj h)
      exact ⟨_, rfl, Store.put_self.trans Store.put_self.symm⟩
    · obtain ⟨rfl, rfl⟩ := Prod.mk.inj (Option.some.inj h)
      exact ⟨_, rfl, Store.put_self.trans Store.put_self.symm⟩
    · cases h

/-- Stores that agree on some keys still do after a command on one of them. -/
theorem RedisCmd.exec_agree {cmd : RedisCmd} {reply : cmd.Reply} {P : String → Prop}
    (hP : P cmd.key) (hagree : ∀ k, P k → r k = q k) (h : cmd.exec r now = some (r', reply)) :
    ∃ q', cmd.exec q now = some (q', reply) ∧ ∀ k, P k → r' k = q' k := by
  obtain ⟨q', hq, hown⟩ := exec_local (hagree _ hP) h
  refine ⟨q', hq, fun k hk => ?_⟩
  by_cases hne : k = cmd.key
  · exact hne ▸ hown
  · calc r' k = r k := exec_frame h hne
      _ = q k := hagree k hk
      _ = q' k := (exec_frame hq hne).symm

theorem RedisCmd.execAll_agree {cs : List RedisCmd} {P : String → Prop}
    (hP : ∀ cmd ∈ cs, P cmd.key) (hagree : ∀ k, P k → r k = q k)
    (h : RedisCmd.execAll now cs r = some r') :
    ∃ q', RedisCmd.execAll now cs q = some q' ∧ ∀ k, P k → r' k = q' k := by
  induction cs generalizing r q with
  | nil =>
    obtain rfl := Option.some.inj h
    exact ⟨q, rfl, hagree⟩
  | cons cmd cs ih =>
    obtain ⟨⟨r₁, reply⟩, hcmd, hrest⟩ := Option.bind_eq_some_iff.mp h
    obtain ⟨q₁, hq₁, hagree₁⟩ := exec_agree (hP cmd List.mem_cons_self) hagree hcmd
    obtain ⟨q', hq', hagree'⟩ := ih (fun c hc => hP c (List.mem_cons_of_mem _ hc)) hagree₁ hrest
    refine ⟨q', ?_, hagree'⟩
    rw [execAll, hq₁]
    exact hq'

/-! ## The charge -/

/-- What the limiter has counted on a connection. -/
def Shared.counted (s : Shared) (connectionId : String) : Nat :=
  match s.redis.get s.now (rateLimitKey connectionId) with
  | some (.count n) => n
  | _ => 0

/-- The connection has one message more, and nothing else is different. -/
def Shared.charge (s : Shared) (connectionId : String) (deadline : Option Nat) : Shared :=
  let count := s.counted connectionId + 1
  { s with redis := s.redis.put (rateLimitKey connectionId) (.count count) deadline }

theorem allow_charges (h : (messageRouter env).allow c s = some (s', allowed)) :
    ∃ deadline, s' = s.charge c deadline ∧
      allowed = decide (s.counted c + 1 ≤ env.rateLimitMessages) := by
  obtain ⟨⟨redis, verdict⟩, hcmd, heq⟩ := Option.map_eq_some_iff.mp h
  obtain ⟨rfl, rfl⟩ := Prod.mk.inj heq
  change RedisCmd.runTokenBucket _ _ _ _ _ = _ at hcmd
  unfold RedisCmd.runTokenBucket at hcmd
  split at hcmd
  · rename_i hcell
    have hcount : s.counted c = 0 := by simp [Shared.counted, Store.get, hcell]
    obtain ⟨rfl, rfl⟩ := Prod.mk.inj (Option.some.inj hcmd)
    exact ⟨_, by rw [Shared.charge, hcount], by rw [hcount]⟩
  · rename_i n deadline hcell
    have hcount : s.counted c = n := by simp [Shared.counted, Store.get, hcell]
    obtain ⟨rfl, rfl⟩ := Prod.mk.inj (Option.some.inj hcmd)
    exact ⟨_, by rw [Shared.charge, hcount], by rw [hcount]⟩
  · cases hcmd

/-! ## What an observer sees who does not look at the counters -/

/-- No rate counter. -/
def NoRate (k : String) : Prop := ∀ c, k ≠ rateLimitKey c

/-- Presence, registry, rows, receipts and all else are the same. -/
structure SameButRates (s t : Shared) : Prop where
  now : s.now = t.now
  redis : ∀ k, NoRate k → s.redis k = t.redis k
  db : s.db = t.db
  channels : s.channels = t.channels
  connections : s.connections = t.connections

theorem sameButRates_equivalence : Equivalence SameButRates where
  refl _ := ⟨rfl, fun _ _ => rfl, rfl, rfl, rfl⟩
  symm h := ⟨h.now.symm, fun k hk => (h.redis k hk).symm, h.db.symm, h.channels.symm,
    h.connections.symm⟩
  trans h h' := ⟨h.now.trans h'.now, fun k hk => (h.redis k hk).trans (h'.redis k hk),
    h.db.trans h'.db, h.channels.trans h'.channels, h.connections.trans h'.connections⟩

theorem sameButRates_charge (deadline : Option Nat) : SameButRates (s.charge c deadline) s where
  now := rfl
  redis _ hk := Store.put_ne (hk c)
  db := rfl
  channels := rfl
  connections := rfl

theorem noRate_of_keyInitial {k : String} {a : Char} (h : keyInitial k = some a) (ha : a ≠ 'r') :
    NoRate k := by
  intro c
  refine ne_of_keyInitial ?_
  rw [h, keyInitial_rateLimitKey]
  simpa using ha

theorem PresenceManager.commands_noRate {ttl : Nat} {call : PresenceCall} {cmd : RedisCmd}
    (h : cmd ∈ commands ttl u call) : NoRate cmd.key := by
  rcases commands_key h with hk | ⟨hk, -⟩
  · exact hk ▸ noRate_of_keyInitial (keyInitial_presenceKey u) (by decide)
  · exact hk ▸ noRate_of_keyInitial (keyInitial_lastSeenKey u) (by decide)

theorem HeartbeatHandler.commands_noRate {ttl : Nat} {cmd : RedisCmd}
    (h : cmd ∈ commands ttl u) : NoRate cmd.key := by
  rcases List.mem_append.mp h with h | h
  · exact PresenceManager.commands_noRate h
  · obtain rfl := List.mem_singleton.mp h
    exact noRate_of_keyInitial (keyInitial_registryKey u) (by decide)

/-! ## The operations -/

/-- What a valid message does for its user: the commands of the handler, or the read
of the notification. -/
inductive Does (env : Env) (u : String) (s : Shared) : Route → Shared → Prop where
  | heartbeat {s' : Shared} :
      s.execAll (HeartbeatHandler.commands env.presenceTtlSeconds u) = some s' →
      Does env u s .heartbeat s'
  | presenceUpdate {online : Bool} {s' : Shared} :
      s.execAll (PresenceManager.commands env.presenceTtlSeconds u
        (if online then .markOnline else .markAway)) = some s' →
      Does env u s (.presenceUpdate online) s'
  | readReceipt {n v : UUID} : UUID.ofString u = some v →
      Does env u s (.readReceipt n)
        { s with db := (NotificationRepository.markRead s.db n v s.now).1 }

theorem perform_iff_does (h : Asks env fields op) :
    (messageRouter env).perform u s op = some s' ↔ Does env u s op s' := by
  constructor
  · intro hperform
    cases h with
    | heartbeat => exact .heartbeat hperform
    | @presenceUpdate online => cases online <;> exact .presenceUpdate hperform
    | readReceipt =>
      rw [perform_readReceipt] at hperform
      obtain ⟨v, hv, rfl⟩ := Option.map_eq_some_iff.mp hperform
      exact .readReceipt hv
  · intro hdoes
    cases hdoes with
    | heartbeat hexec => exact hexec
    | @presenceUpdate online _ hexec => cases online <;> exact hexec
    | readReceipt hv => rw [perform_readReceipt, hv, Option.map_some]

/-- What an operation does to the state with the counters it does to the state
without, and it does nothing to the counters. -/
structure SparesRates (act : Shared → Option Shared) : Prop where
  same : ∀ {s t s'}, SameButRates s t → act s = some s' → ∃ t', act t = some t' ∧ SameButRates s' t'
  rates : ∀ {s s'}, act s = some s' → ∀ c, s'.redis (rateLimitKey c) = s.redis (rateLimitKey c)

theorem sparesRates_execAll {cs : List RedisCmd} (hcs : ∀ cmd ∈ cs, NoRate cmd.key) :
    SparesRates (·.execAll cs) where
  same {s t s'} hsame h := by
    obtain ⟨redis, hall, rfl⟩ := Option.map_eq_some_iff.mp h
    rw [hsame.now] at hall
    obtain ⟨redis', hall', hagree⟩ := RedisCmd.execAll_agree hcs hsame.redis hall
    refine ⟨{ t with redis := redis' }, ?_, ?_⟩
    · rw [Shared.execAll, hall']
      rfl
    · exact ⟨hsame.now, hagree, hsame.db, hsame.channels, hsame.connections⟩
  rates {s s'} h c := by
    obtain ⟨redis, hall, rfl⟩ := Option.map_eq_some_iff.mp h
    exact RedisCmd.execAll_frame hall fun cmd hcmd => (hcs cmd hcmd c).symm

theorem sparesRates_perform (u : String) (op : Route) :
    SparesRates fun s => (messageRouter env).perform u s op := by
  cases op with
  | heartbeat => exact sparesRates_execAll fun _ => HeartbeatHandler.commands_noRate
  | presenceUpdate online =>
    cases online with
    | true => exact sparesRates_execAll fun _ => PresenceManager.commands_noRate
    | false => exact sparesRates_execAll fun _ => PresenceManager.commands_noRate
  | readReceipt n =>
    simp only [perform_readReceipt]
    constructor
    · intro s t s' hsame h
      obtain ⟨id, hid, rfl⟩ := Option.map_eq_some_iff.mp h
      refine ⟨{ t with db := (NotificationRepository.markRead t.db n id t.now).1 }, ?_, ?_⟩
      · rw [hid]
        rfl
      · refine ⟨hsame.now, hsame.redis, ?_, hsame.channels, hsame.connections⟩
        show (NotificationRepository.markRead s.db n id s.now).1 = _
        rw [hsame.db, hsame.now]
    · intro s s' h c
      obtain ⟨id, -, rfl⟩ := Option.map_eq_some_iff.mp h
      rfl
  | reply frame =>
    constructor
    · intro s t s' hsame h
      obtain rfl := Option.some.inj h
      exact ⟨t, rfl, hsame⟩
    · intro s s' h c
      obtain rfl := Option.some.inj h
      rfl

/-! ## Sequences of messages -/

/-- A message, and the microseconds before it. -/
structure Sent where
  delay : Nat
  userId : String
  connectionId : String
  fields : Dict PyStr Json

/-- `route` as a gate. No frame says that the message was admitted. -/
def routing (env : Env) (rt : Runtime) : Gate Shared Sent (Option Frame) where
  wait m s := s.elapse m.delay
  serve m s := (messageRouter env).route env rt m.userId m.connectionId (.obj m.fields) s
  admitted := Option.isNone
  perform m s := (messageRouter env).perform m.userId s (MessageRouter.dispatch env m.fields)

variable {response : Option Frame}

/-- A message is answered with a frame after the charge, or performed after it. -/
theorem route_charges
    (h : (messageRouter env).route env rt u c (.obj fields) s = some (s', response)) :
    ∃ deadline, (s.counted c + 1 ≤ env.rateLimitMessages ∧
        (messageRouter env).perform u (s.charge c deadline) (MessageRouter.dispatch env fields)
          = some s' ∧ response = MessageRouter.response (MessageRouter.dispatch env fields)) ∨
      (¬ s.counted c + 1 ≤ env.rateLimitMessages ∧
        s' = s.charge c deadline ∧ response = some RateLimitedMessage) := by
  obtain ⟨s₁, allowed, hallow, hexit⟩ := route_cases h
  obtain ⟨deadline, rfl, rfl⟩ := allow_charges hallow
  refine ⟨deadline, ?_⟩
  rcases hexit with ⟨hdenied, rfl, rfl⟩ | ⟨hallowed, hperform, rfl⟩
  · exact .inr ⟨of_decide_eq_false hdenied, rfl, rfl⟩
  · exact .inl ⟨of_decide_eq_true hallowed, hperform, rfl⟩

/-- A frame is the whole effect of its message, the charge excepted. -/
theorem route_rejected {frame : Frame}
    (h : (messageRouter env).route env rt u c (.obj fields) s = some (s', some frame)) :
    frame.plain = true ∧ ∃ deadline, s' = s.charge c deadline := by
  obtain ⟨deadline, ⟨-, hperform, hresponse⟩ | ⟨-, rfl, hresponse⟩⟩ := route_charges h
  · cases hreply : MessageRouter.dispatch env fields with
    | reply frame' =>
      rw [hreply] at hperform hresponse
      obtain rfl := Option.some.inj hperform
      obtain rfl := Option.some.inj hresponse
      exact ⟨MessageRouter.dispatch_plain hreply, deadline, rfl⟩
    | _ =>
      rw [hreply] at hresponse
      cases hresponse
  · obtain rfl := Option.some.inj hresponse
    exact ⟨rfl, deadline, rfl⟩

/-- With no frame the message was valid, and its operation is the whole effect, the
charge excepted. -/
theorem route_performed
    (h : (messageRouter env).route env rt u c (.obj fields) s = some (s', none)) :
    ∃ deadline op, Asks env fields op ∧ Does env u (s.charge c deadline) op s' ∧
      (∀ c', s'.redis (rateLimitKey c') = (s.charge c deadline).redis (rateLimitKey c')) ∧
      ∃ t, Does env u s op t ∧ SameButRates s' t := by
  obtain ⟨deadline, ⟨-, hperform, hresponse⟩ | ⟨-, -, hresponse⟩⟩ := route_charges h
  · obtain ⟨op, hasks⟩ := response_dispatch.mp hresponse.symm
    rw [hasks.dispatch] at hperform
    have hspares : SparesRates fun s => (messageRouter env).perform u s op :=
      sparesRates_perform u op
    obtain ⟨t, ht, hsame⟩ := hspares.same (sameButRates_charge deadline) hperform
    exact ⟨deadline, op, hasks, (perform_iff_does hasks).mp hperform, hspares.rates hperform,
      t, (perform_iff_does hasks).mp ht, hsame⟩
  · cases hresponse

/-- The messages that get no frame are the valid ones within the limit. -/
theorem route_admits
    (h : (messageRouter env).route env rt u c (.obj fields) s = some (s', response)) :
    response = none ↔
      s.counted c + 1 ≤ env.rateLimitMessages ∧ ∃ op, Asks env fields op := by
  obtain ⟨deadline, ⟨hle, -, rfl⟩ | ⟨hlt, -, rfl⟩⟩ := route_charges h
  · rw [response_dispatch]
    exact (and_iff_right hle).symm
  · constructor
    · intro hnone
      cases hnone
    · rintro ⟨hle, -⟩
      exact absurd hle hlt

theorem routing_hidden (env : Env) (rt : Runtime) : (routing env rt).Hidden SameButRates where
  equivalence := sameButRates_equivalence
  wait {m s t} h := ⟨congrArg (· + m.delay) h.now, h.redis, h.db, h.channels, h.connections⟩
  turnedAway {m s s' a} h ha := by
    cases a with
    | none => cases ha
    | some frame =>
      obtain ⟨-, deadline, rfl⟩ := route_rejected h
      exact sameButRates_charge deadline
  served {m s s' a} h ha := by
    obtain rfl := Option.isNone_iff_eq_none.mp ha
    obtain ⟨deadline, op, hasks, -, -, t, ht, hsame⟩ := route_performed h
    refine ⟨t, ?_, hsame⟩
    show (messageRouter env).perform m.userId s (MessageRouter.dispatch env m.fields) = _
    rw [hasks.dispatch]
    exact (perform_iff_does hasks).mpr ht
  perform h hperform := (sparesRates_perform _ _).same h hperform

/-- Of a message that is answered with a frame only the charge remains; one that is
not was valid, within the limit, and is performed once. A sequence of messages, of
any users at any times, leaves what the operations of the latter leave, the rate
counters excepted. -/
structure RejectsCleanly (env : Env) (rt : Runtime) : Prop where
  rejected : ∀ {u c fields s s' frame},
    (messageRouter env).route env rt u c (.obj fields) s = some (s', some frame) →
    frame.plain = true ∧ ∃ deadline, s' = s.charge c deadline
  performed : ∀ {u c fields s s'},
    (messageRouter env).route env rt u c (.obj fields) s = some (s', none) →
    ∃ deadline op, Asks env fields op ∧ Does env u (s.charge c deadline) op s' ∧
      (∀ c', s'.redis (rateLimitKey c') = (s.charge c deadline).redis (rateLimitKey c')) ∧
      ∃ t, Does env u s op t ∧ SameButRates s' t
  admitted : ∀ {u c fields s s' response},
    (messageRouter env).route env rt u c (.obj fields) s = some (s', response) →
    (response = none ↔ s.counted c + 1 ≤ env.rateLimitMessages ∧ ∃ op, Asks env fields op)
  operation : ∀ {m s s' op}, Asks env m.fields op →
    ((routing env rt).perform m s = some s' ↔ Does env m.userId s op s')
  sequence : ∀ {messages responses s s'},
    (routing env rt).serveAll messages s = some (s', responses) →
    responses.length = messages.length ∧
      ∃ t, (routing env rt).performAll (messages.zip responses) s = some t ∧ SameButRates s' t

theorem rejects_cleanly (env : Env) (rt : Runtime) : RejectsCleanly env rt where
  rejected h := route_rejected h
  performed h := route_performed h
  admitted h := route_admits h
  operation {m s s' op} hasks := by
    rw [← perform_iff_does hasks, ← hasks.dispatch]
    rfl
  sequence h := ⟨Gate.serveAll_length h,
    (routing_hidden env rt).performAll_of_serveAll (sameButRates_equivalence.refl _) h⟩

/-- A heartbeat, an unknown type, and an update beyond the limit of two. -/
def threeMessages : List Sent :=
  [⟨0, someUser, "c", [(PyStr.ofString "type", .str (PyStr.ofString "heartbeat"))]⟩,
    ⟨1, someUser, "c", []⟩,
    ⟨1, someUser, "c", [(PyStr.ofString "type", .str (PyStr.ofString "presence_update")),
      (PyStr.ofString "status", .str (PyStr.ofString "away"))]⟩]

def threeResponses : List (Option Frame) :=
  [none, some (.error (.unknownMessageType (.str (PyStr.ofString "unknown")))),
    some RateLimitedMessage]

theorem rejects_cleanly_three :
    ∃ s' t, (routing { plainEnv with rateLimitMessages := 2 } shallow).serveAll threeMessages
        World.empty.shared = some (s', threeResponses) ∧
      (routing { plainEnv with rateLimitMessages := 2 } shallow).performAll
        (threeMessages.zip threeResponses) World.empty.shared = some t ∧ SameButRates s' t := by
  obtain ⟨s', hrun⟩ : ∃ s', (routing { plainEnv with rateLimitMessages := 2 } shallow).serveAll
      threeMessages World.empty.shared = some (s', threeResponses) := ⟨_, rfl⟩
  obtain ⟨-, t, ht, hsame⟩ := (rejects_cleanly _ _).sequence hrun
  exact ⟨s', t, hrun, ht, hsame⟩

end RealtimeNotify.App
