import RealtimeNotify.Lib.Expiring
import RealtimeNotify.Python.Datetime
import RealtimeNotify.Python.Uuid

/-!
# Redis and the classes over it

The keyspace is an expiring store under the server's clock, in microseconds.
`RedisCmd` is what the application sends; each method of the registry, the
presence store, the ticket exchange, the idempotency guard and the rate limiter
is one command, under the method's name. The key families are kept as the
strings they are, so that their disjointness is a fact and not a convention.
-/

namespace RealtimeNotify.App

open RealtimeNotify.Lib RealtimeNotify.Python

/-- A number of seconds on the clock. -/
def seconds (n : Nat) : Nat := 1000000 * n

/-- A stored value: text, a counter, or the `isoformat` text of an instant
(kept as the instant). -/
inductive RedisValue where
  | text (s : String)
  | count (n : Nat)
  | stamp (t : Nat)
  deriving DecidableEq

/-- `value.decode()`. -/
def RedisValue.decode : RedisValue → String
  | .text s => s
  | .count n => toString n
  | .stamp t => isoformatUtc t

abbrev Redis := Store String RedisValue

/-! ## Commands -/

inductive RedisCmd where
  | set (key value : String) (ex : Option Nat)
  /-- `SET key datetime.now(timezone.utc).isoformat()`, taken as one instant: the clock is
  read where the command executes -/
  | setNow (key : String)
  | expire (key : String) (ttl : Nat)
  | delete (key : String)
  | get (key : String)
  | getdel (key : String)
  | exists (key : String)
  /-- the script `_TOKEN_BUCKET_SCRIPT` -/
  | tokenBucket (key : String) (limit window : Nat)

namespace RedisCmd

def key : RedisCmd → String
  | set k _ _ | setNow k | expire k _ | delete k | get k | getdel k | .exists k
  | tokenBucket k _ _ => k

@[reducible] def Reply : RedisCmd → Type
  | get _ | getdel _ => Option RedisValue
  | .exists _ | tokenBucket .. => Bool
  | _ => Unit

/-- `INCR`, `EXPIRE` on the first increment, and the comparison with the limit.
A value that is not a counter makes `INCR` fail. -/
def runTokenBucket (r : Redis) (now : Nat) (k : String) (limit window : Nat) :
    Option (Redis × Bool) :=
  match r.cell now k with
  | none => some (r.put k (.count 1) (some (now + seconds window)), decide (1 ≤ limit))
  | some ⟨.count n, deadline⟩ =>
      some (r.put k (.count (n + 1))
        (if n + 1 = 1 then some (now + seconds window) else deadline), decide (n + 1 ≤ limit))
  | some _ => none

/-- One command; `none` is an error reply (the client raises). -/
def exec (r : Redis) (now : Nat) : (c : RedisCmd) → Option (Redis × c.Reply)
  | set _ _ (some 0) => none
  | set k v ex => some (r.put k (.text v) (ex.map fun ttl => now + seconds ttl), ())
  | setNow k => some (r.put k (.stamp now) none, ())
  | expire k ttl => some (r.extend now k (now + seconds ttl), ())
  | delete k => some (r.erase k, ())
  | get k => some (r, r.get now k)
  | getdel k => some (r.erase k, r.get now k)
  | .exists k => some (r, (r.get now k).isSome)
  | tokenBucket k limit window => runTokenBucket r now k limit window

variable {r r' : Redis} {now : Nat} {k : String}

/-- `SET key value EX ttl`. -/
theorem exec_set {v : String} {ttl : Nat} {reply : Unit}
    (h : exec r now (set k v (some ttl)) = some (r', reply)) :
    r' = r.put k (.text v) (some (now + seconds ttl)) := by
  cases ttl with
  | zero => simp [exec] at h
  | succ ttl =>
    simp only [exec, Option.map_some, Option.some.injEq, Prod.mk.injEq] at h
    exact h.1.symm

/-- `EX 0` is an error. -/
theorem exec_set_pos {v : String} {ttl : Nat} {reply : Unit}
    (h : exec r now (set k v (some ttl)) = some (r', reply)) : 0 < ttl := by
  cases ttl with
  | zero => simp [exec] at h
  | succ ttl => omega

/-- A key that was just set can be read. -/
theorem get_exec_set {v : String} {ttl : Nat} {reply : Unit}
    (h : exec r now (set k v (some ttl)) = some (r', reply)) : r'.get now k = some (.text v) := by
  cases ttl with
  | zero => simp [exec] at h
  | succ ttl =>
    rw [exec_set h]
    exact Store.get_of_deadline Store.put_self (by unfold seconds; omega)

/-- `EXPIRE key ttl`. -/
theorem exec_expire {ttl : Nat} {reply : Unit}
    (h : exec r now (expire k ttl) = some (r', reply)) :
    r' = r.extend now k (now + seconds ttl) := by
  simp only [exec, Option.some.injEq, Prod.mk.injEq] at h
  exact h.1.symm

/-- An expiry put off keeps the value. -/
theorem get_exec_expire {v : RedisValue} {ttl : Nat} {reply : Unit} (hpos : 0 < ttl)
    (hv : r.get now k = some v) (h : exec r now (expire k ttl) = some (r', reply)) :
    r'.get now k = some v := by
  rw [exec_expire h]
  exact Store.get_extend (by unfold seconds; omega) hv

/-- A command changes no key but its own. -/
theorem exec_frame {c : RedisCmd} {reply : c.Reply} (h : c.exec r now = some (r', reply))
    (hk : k ≠ c.key) : r' k = r k := by
  cases c with
  | set k' v ex =>
    rcases ex with _ | _ | ttl
    · obtain ⟨rfl, -⟩ := by simpa [exec] using h
      exact Store.put_ne hk
    · simp [exec] at h
    · obtain ⟨rfl, -⟩ := by simpa [exec] using h
      exact Store.put_ne hk
  | setNow k' =>
    obtain ⟨rfl, -⟩ := by simpa [exec] using h
    exact Store.put_ne hk
  | expire k' ttl =>
    obtain ⟨rfl, -⟩ := by simpa [exec] using h
    exact Store.extend_ne hk
  | delete k' =>
    obtain ⟨rfl, -⟩ := by simpa [exec] using h
    exact Store.erase_ne hk
  | get k' =>
    obtain ⟨rfl, -⟩ := by simpa [exec] using h
    rfl
  | getdel k' =>
    obtain ⟨rfl, -⟩ := by simpa [exec] using h
    exact Store.erase_ne hk
  | «exists» k' =>
    obtain ⟨rfl, -⟩ := by simpa [exec] using h
    rfl
  | tokenBucket k' limit window =>
    simp only [exec, runTokenBucket] at h
    split at h
    · obtain ⟨rfl, -⟩ := by simpa using h
      exact Store.put_ne hk
    · obtain ⟨rfl, -⟩ := by simpa using h
      exact Store.put_ne hk
    · simp at h

end RedisCmd

/-! ## Keys -/

def registryKey (userId : String) : String := "user:" ++ userId
def livenessKey (instanceId : String) : String := "instance:" ++ instanceId ++ ":alive"
def ticketKey (ticket : String) : String := "ws_ticket:" ++ ticket
def dedupKey (notificationId : UUID) : String := "notification_dedup:" ++ notificationId.str
def rateLimitKey (connectionId : String) : String := "rate_limit:" ++ connectionId
def presenceKey (userId : String) : String := "presence:" ++ userId
def lastSeenKey (userId : String) : String := "presence:last_seen:" ++ userId

/-- The first character tells the families apart, the two of presence excepted. -/
def keyInitial (k : String) : Option Char := k.toList.head?

theorem keyInitial_append {lit : String} {c : Char} (h : lit.toList.head? = some c)
    (s : String) : keyInitial (lit ++ s) = some c := by
  simp [keyInitial, String.toList_append, List.head?_append, h]

@[simp] theorem keyInitial_registryKey (u : String) : keyInitial (registryKey u) = some 'u' :=
  keyInitial_append (by decide) u

@[simp] theorem keyInitial_livenessKey (i : String) :
    keyInitial (livenessKey i) = some 'i' := by
  rw [livenessKey, String.append_assoc]
  exact keyInitial_append (by decide) _

@[simp] theorem keyInitial_ticketKey (t : String) : keyInitial (ticketKey t) = some 'w' :=
  keyInitial_append (by decide) t

@[simp] theorem keyInitial_dedupKey (n : UUID) : keyInitial (dedupKey n) = some 'n' :=
  keyInitial_append (by decide) n.str

@[simp] theorem keyInitial_rateLimitKey (c : String) :
    keyInitial (rateLimitKey c) = some 'r' :=
  keyInitial_append (by decide) c

@[simp] theorem keyInitial_presenceKey (u : String) :
    keyInitial (presenceKey u) = some 'p' :=
  keyInitial_append (by decide) u

@[simp] theorem keyInitial_lastSeenKey (u : String) :
    keyInitial (lastSeenKey u) = some 'p' :=
  keyInitial_append (by decide) u

theorem ne_of_keyInitial {k k' : String} (h : keyInitial k ≠ keyInitial k') : k ≠ k' :=
  fun he => h (he ▸ rfl)

@[simp] theorem registryKey_inj {u v : String} : registryKey u = registryKey v ↔ u = v := by
  simp [registryKey]

@[simp] theorem livenessKey_inj {i j : String} : livenessKey i = livenessKey j ↔ i = j := by
  rw [livenessKey, livenessKey, String.append_left_inj, String.append_right_inj]

@[simp] theorem ticketKey_inj {s t : String} : ticketKey s = ticketKey t ↔ s = t := by
  simp [ticketKey]

@[simp] theorem dedupKey_inj {m n : UUID} : dedupKey m = dedupKey n ↔ m = n := by
  unfold dedupKey
  exact (String.append_right_inj _).trans UUID.str_inj

@[simp] theorem presenceKey_inj {u v : String} : presenceKey u = presenceKey v ↔ u = v := by
  simp [presenceKey]

@[simp] theorem lastSeenKey_inj {u v : String} : lastSeenKey u = lastSeenKey v ↔ u = v := by
  unfold lastSeenKey
  exact String.append_right_inj _

theorem lastSeenKey_eq (v : String) : lastSeenKey v = presenceKey ("last_seen:" ++ v) := by
  have hfamily : "presence:last_seen:" = "presence:" ++ "last_seen:" := by decide
  unfold lastSeenKey presenceKey
  rw [hfamily]
  exact String.append_assoc ..

/-- The presence key of a user is no `last_seen` key. -/
theorem presenceKey_ne_lastSeenKey {u v : String} (hu : (UUID.ofString u).isSome = true) :
    presenceKey u ≠ lastSeenKey v := by
  have hlit : "last_seen:".toList = 'l' :: "ast_seen:".toList := by decide
  intro h
  rw [lastSeenKey_eq] at h
  have hlist : u.toList = 'l' :: ("ast_seen:".toList ++ v.toList) := by
    rw [presenceKey_inj.mp h, String.toList_append, hlit, List.cons_append]
  simp [UUID.ofString_eq_none hlist] at hu

/-! ## `WSTicketAuth` -/

namespace WSTicketAuth

def issueTicket (ticket userId : String) (ttl : Nat) : RedisCmd :=
  .set (ticketKey ticket) userId (some ttl)

def redeemTicket (ticket : String) : RedisCmd := .getdel (ticketKey ticket)

variable {ticket userId : String} {ttl : Nat}

@[simp] theorem issueTicket_key : (issueTicket ticket userId ttl).key = ticketKey ticket := rfl

@[simp] theorem redeemTicket_key : (redeemTicket ticket).key = ticketKey ticket := rfl

end WSTicketAuth

/-! ## `InstanceRegistry` -/

namespace InstanceRegistry

def register (userId instanceId : String) (ttl : Nat) : RedisCmd :=
  .set (registryKey userId) instanceId (some ttl)

def refresh (userId : String) (ttl : Nat) : RedisCmd := .expire (registryKey userId) ttl

def unregister (userId : String) : RedisCmd := .delete (registryKey userId)

def lookup (userId : String) : RedisCmd := .get (registryKey userId)

def markAlive (instanceId : String) (ttl : Nat) : RedisCmd :=
  .set (livenessKey instanceId) "1" (some ttl)

def isAlive (instanceId : String) : RedisCmd := .exists (livenessKey instanceId)

variable {userId instanceId : String} {ttl : Nat}

@[simp] theorem register_key : (register userId instanceId ttl).key = registryKey userId := rfl

@[simp] theorem refresh_key : (refresh userId ttl).key = registryKey userId := rfl

@[simp] theorem unregister_key : (unregister userId).key = registryKey userId := rfl

@[simp] theorem lookup_key : (lookup userId).key = registryKey userId := rfl

@[simp] theorem markAlive_key : (markAlive instanceId ttl).key = livenessKey instanceId := rfl

@[simp] theorem isAlive_key : (isAlive instanceId).key = livenessKey instanceId := rfl

end InstanceRegistry

/-! ## `PresenceStore`

`set_online`, `set_away` and `refresh` are the command below followed by
`touchLastSeen`. -/

namespace PresenceStore

def setOnline (userId : String) (ttl : Nat) : RedisCmd :=
  .set (presenceKey userId) "online" (some ttl)

def setAway (userId : String) (ttl : Nat) : RedisCmd :=
  .set (presenceKey userId) "away" (some ttl)

def refresh (userId : String) (ttl : Nat) : RedisCmd := .expire (presenceKey userId) ttl

def touchLastSeen (userId : String) : RedisCmd := .setNow (lastSeenKey userId)

def clear (userId : String) : RedisCmd := .delete (presenceKey userId)

def getStatus (userId : String) : RedisCmd := .get (presenceKey userId)

def getLastSeen (userId : String) : RedisCmd := .get (lastSeenKey userId)

/-- What `get_status` makes of the reply. -/
def status : Option RedisValue → String
  | none => "offline"
  | some value => value.decode

variable {userId : String} {ttl : Nat}

@[simp] theorem setOnline_key : (setOnline userId ttl).key = presenceKey userId := rfl

@[simp] theorem setAway_key : (setAway userId ttl).key = presenceKey userId := rfl

@[simp] theorem refresh_key : (refresh userId ttl).key = presenceKey userId := rfl

@[simp] theorem touchLastSeen_key : (touchLastSeen userId).key = lastSeenKey userId := rfl

@[simp] theorem clear_key : (clear userId).key = presenceKey userId := rfl

end PresenceStore

/-! ## `IdempotencyGuard` and `RateLimiter` -/

namespace IdempotencyGuard

def hasSeen (notificationId : UUID) : RedisCmd := .get (dedupKey notificationId)

def markSeen (notificationId : UUID) (ttl : Nat) : RedisCmd :=
  .set (dedupKey notificationId) "1" (some ttl)

variable {notificationId : UUID} {ttl : Nat}

@[simp] theorem hasSeen_key : (hasSeen notificationId).key = dedupKey notificationId := rfl

@[simp] theorem markSeen_key : (markSeen notificationId ttl).key = dedupKey notificationId := rfl

end IdempotencyGuard

def RateLimiter.allow (connectionId : String) (limit window : Nat) : RedisCmd :=
  .tokenBucket (rateLimitKey connectionId) limit window

@[simp] theorem RateLimiter.allow_key {connectionId : String} {limit window : Nat} :
    (allow connectionId limit window).key = rateLimitKey connectionId := rfl

/-! ## What a client of the API reads -/

namespace Redis

/-- `await presence_store.get_status(user_id)`. -/
def getStatus (r : Redis) (now : Nat) (userId : String) : String :=
  PresenceStore.status (r.get now (presenceKey userId))

/-- `await presence_store.get_last_seen(user_id)`, as the instant. -/
def getLastSeen (r : Redis) (now : Nat) (userId : String) : Option RedisValue :=
  r.get now (lastSeenKey userId)

/-- `await instance_registry.lookup(user_id)`. -/
def lookup (r : Redis) (now : Nat) (userId : String) : Option String :=
  (r.get now (registryKey userId)).map (·.decode)

end Redis

end RealtimeNotify.App
