import RealtimeNotify.Runs.Acknowledgement
import RealtimeNotify.Runs.Completion

/-!
# The guard and the database

`has_seen` spares the database a duplicate. It is a short cut: where the guard answers, the
unique constraint would have answered the same, and left the same behind.
-/

namespace RealtimeNotify.App

open RealtimeNotify.Lib RealtimeNotify.Python

variable {env : Env} {w w' : World} {n : Nat}

/-- The two worlds differ at most in when the dedup key of `k` expires, and in the log. -/
structure SameButDedup (k : UUID) (w w' : World) : Prop where
  now : w'.shared.now = w.shared.now
  db : w'.shared.db = w.shared.db
  channels : w'.shared.channels = w.shared.channels
  connections : w'.shared.connections = w.shared.connections
  redis : ∀ key, key ≠ dedupKey k → w'.shared.redis key = w.shared.redis key
  seen : (w.shared.redis.get w.shared.now (dedupKey k)).isSome = true ∧
    (w'.shared.redis.get w.shared.now (dedupKey k)).isSome = true
  processes : w'.processes = w.processes
  sessions : w'.sessions = w.sessions
  requests : w'.requests = w.requests
  ticketRequests : w'.ticketRequests = w.ticketRequests
  tokens : w'.tokens = w.tokens

/-- A conflict leaves the tables as they are. -/
theorem create_of_mem {db : Database} {body : NotificationCreate} (h : body.notificationId ∈ db.ids)
    (t : Datetime) : NotificationRepository.create db body t = (db, none) := by
  have hany : db.notifications.any (·.notificationId = body.notificationId) = true := by
    simpa [Database.ids] using h
  rw [NotificationRepository.create, if_pos hany]

theorem RedisCmd.exec_set_of_pos {r : Redis} {now ttl : Nat} {k v : String} (h : 0 < ttl) :
    (set k v (some ttl)).exec r now = some (r.put k (.text v) (some (now + seconds ttl)), ()) := by
  cases ttl with
  | zero => cases h
  | succ ttl => rfl

theorem platform_run_cons {a : Action} {as : List Action} (h : w.step env a = some w') :
    (platform env).run w (a :: as) = (platform env).run w' as := by
  have hstep : (platform env).step w a = some w' := h
  rw [Machine.run, hstep, Option.bind_some]

/-- All that a step of request `n` changes. -/
structure RequestAdvanced (w : World) (n : Nat) (r : PostRequest) (sh : Shared) (w' : World) :
    Prop where
  shared : w'.shared = sh
  requests : w'.requests = Function.update w.requests n (some r)
  processes : w'.processes = w.processes
  sessions : w'.sessions = w.sessions
  ticketRequests : w'.ticketRequests = w.ticketRequests
  tokens : w'.tokens = w.tokens

theorem RequestAdvanced.request {r : PostRequest} {sh : Shared}
    (h : RequestAdvanced w n r sh w') : w'.requests n = some r := by
  rw [h.requests, Function.update_self]

theorem World.request_advances (env : Env) {r : PostRequest} {op : Op} {k : op.Reply → CreatePc}
    {failure : CreatePc} {c : Choice} {sh : Shared} {reply : op.Reply}
    (hr : w.requests n = some r) (hn : r.pc.next env r.client r.body = .call op k failure)
    (hx : w.shared.exec op c = some (sh, reply)) :
    ∃ w', w.step env (.task (.request n) (.ok c)) = some w' ∧
      RequestAdvanced w n { r with pc := k reply } sh w' :=
  ⟨_, World.step_request hr hn hx, rfl, rfl, rfl, rfl, rfl, rfl⟩

theorem RequestAdvanced.trans {r r' : PostRequest} {sh sh' : Shared} {w'' : World}
    (h : RequestAdvanced w n r sh w') (h' : RequestAdvanced w' n r' sh' w'') :
    RequestAdvanced w n r' sh' w'' where
  shared := h'.shared
  requests := by rw [h'.requests, h.requests, Function.update_idem]
  processes := h'.processes.trans h.processes
  sessions := h'.sessions.trans h.sessions
  ticketRequests := h'.ticketRequests.trans h.ticketRequests
  tokens := h'.tokens.trans h.tokens

/-- `has_seen` finds the key. -/
theorem World.guard_answers (env : Env) {i : String} {client : Option String}
    {body : NotificationCreate} (hr : w.requests n = some ⟨i, client, body, .hasSeen⟩)
    (hseen : (w.shared.redis.get w.shared.now (dedupKey body.notificationId)).isSome = true) :
    ∃ w', (platform env).run w [.ok (.request n)] = some w' ∧
      RequestAdvanced w n ⟨i, client, body, .returned ⟨body.notificationId, false, false⟩⟩
        w.shared w' := by
  obtain ⟨v, hv⟩ := Option.isSome_iff_exists.mp hseen
  have hanswer : w.shared.exec (.redis (IdempotencyGuard.hasSeen body.notificationId)) .none
      = some (w.shared, some v) := by
    simp [Shared.exec, RedisCmd.exec, IdempotencyGuard.hasSeen, hv]
  obtain ⟨w', hstep, ha⟩ := World.request_advances env hr rfl hanswer
  exact ⟨w', by rw [Action.ok, platform_run_cons hstep, Machine.run], ha⟩

/-- The dedup key of `k` is there until the deadline. -/
def Shared.marked (s : Shared) (k : UUID) (deadline : Nat) : Shared :=
  { s with redis := s.redis.put (dedupKey k) (.text "1") (some deadline) }

/-- `has_seen` finds nothing, the insertion meets the row, and the key is set. -/
theorem World.database_answers (hpos : 0 < env.idempotencyTtlSeconds) {i : String}
    {client : Option String} {body : NotificationCreate}
    (hr : w.requests n = some ⟨i, client, body, .hasSeen⟩)
    (hnone : w.shared.redis (dedupKey body.notificationId) = none)
    (hmem : body.notificationId ∈ w.shared.db.ids) (t : Datetime) :
    ∃ w', (platform env).run w [.ok (.request n), .insert n t, .ok (.request n)] = some w' ∧
      RequestAdvanced w n ⟨i, client, body, .returned ⟨body.notificationId, false, false⟩⟩
        (w.shared.marked body.notificationId
          (w.shared.now + seconds env.idempotencyTtlSeconds)) w' := by
  have hmiss : w.shared.exec (.redis (IdempotencyGuard.hasSeen body.notificationId)) .none
      = some (w.shared, none) := by
    simp [Shared.exec, RedisCmd.exec, IdempotencyGuard.hasSeen, Store.get_of_none hnone]
  obtain ⟨missed, hlate, hm⟩ := World.request_advances env hr rfl hmiss
  have hconflict : missed.shared.exec (.create body) (.createdAt t) = some (w.shared, none) := by
    rw [hm.shared, Shared.exec, create_of_mem hmem]
  obtain ⟨refused, hinsert, hf⟩ := World.request_advances env hm.request rfl hconflict
  have hmark : refused.shared.exec
      (.redis (IdempotencyGuard.markSeen body.notificationId env.idempotencyTtlSeconds)) .none
      = some (w.shared.marked body.notificationId
          (w.shared.now + seconds env.idempotencyTtlSeconds), ()) := by
    rw [hf.shared]
    show (RedisCmd.exec _ _ (.set _ "1" (some env.idempotencyTtlSeconds))).map _ = _
    rw [RedisCmd.exec_set_of_pos hpos]
    rfl
  obtain ⟨w', hset, hs⟩ := World.request_advances env hf.request rfl hmark
  refine ⟨w', ?_, (hm.trans hf).trans hs⟩
  rw [Action.ok, Action.insert, platform_run_cons hlate, platform_run_cons hinsert,
    platform_run_cons hset, Machine.run]

/-- A key that is there has some time left. -/
theorem Keyspace.idempotency_pos {k : UUID} (h : Keyspace env w)
    (hseen : (w.shared.redis.get w.shared.now (dedupKey k)).isSome = true) :
    0 < env.idempotencyTtlSeconds := by
  obtain ⟨v, hv⟩ := Option.isSome_iff_exists.mp hseen
  obtain ⟨c, hc, hlive, -⟩ := Store.get_eq_some.mp hv
  obtain ⟨deadline, hdeadline, hle⟩ := (h.entry _ c hc).dedup_deadline
  have hlt : w.shared.now < deadline := by simpa [Cell.live, hdeadline] using hlive
  refine Nat.pos_of_ne_zero fun hzero => ?_
  rw [hzero, seconds] at hle
  omega

/-- What the two paths leave behind differs in the deadline of the key. -/
theorem RequestAdvanced.same_but_dedup {k : UUID} {r : PostRequest} {deadline : Nat}
    {answered stored : World} (hlater : w.shared.now < deadline)
    (hseen : (w.shared.redis.get w.shared.now (dedupKey k)).isSome = true)
    (ha : RequestAdvanced w n r w.shared answered)
    (hs : RequestAdvanced { w with shared := w.shared.evict (dedupKey k) } n r
      ((w.shared.evict (dedupKey k)).marked k deadline) stored) :
    SameButDedup k answered stored where
  now := by
    rw [hs.shared, ha.shared]
    rfl
  db := by
    rw [hs.shared, ha.shared]
    rfl
  channels := by
    rw [hs.shared, ha.shared]
    rfl
  connections := by
    rw [hs.shared, ha.shared]
    rfl
  redis key hkey := by
    rw [hs.shared, ha.shared]
    exact (Store.put_ne hkey).trans (Store.erase_ne hkey)
  seen := by
    rw [hs.shared, ha.shared]
    refine ⟨hseen, ?_⟩
    show (Store.get ((w.shared.redis.erase (dedupKey k)).put _ _ _) w.shared.now _).isSome = true
    rw [Store.get_of_deadline Store.put_self hlater]
    rfl
  processes := hs.processes.trans ha.processes.symm
  sessions := hs.sessions.trans ha.sessions.symm
  requests := hs.requests.trans ha.requests.symm
  ticketRequests := hs.ticketRequests.trans ha.ticketRequests.symm
  tokens := hs.tokens.trans ha.tokens.symm

/-- Where the guard answers a request, the request that finds the key gone instead and goes to
the database gets the same answer, and the worlds are the same then. -/
theorem guard_agrees_with_database (h : Reachable env w) {r : PostRequest}
    (hr : w.requests n = some r) (hpc : r.pc = .hasSeen)
    (hseen : (w.shared.redis.get w.shared.now (dedupKey r.body.notificationId)).isSome = true)
    (t : Datetime) : ∃ answered stored,
      (platform env).run w [.ok (.request n)] = some answered ∧
      (platform env).run w [.expireDedup r.body.notificationId, .ok (.request n), .insert n t,
        .ok (.request n)] = some stored ∧
      answered.requests n = some { r with pc := .returned ⟨r.body.notificationId, false, false⟩ } ∧
      SameButDedup r.body.notificationId answered stored := by
  obtain ⟨i, client, body, pc⟩ := r
  obtain rfl : pc = .hasSeen := hpc
  -- a key that is set says that the row is there
  have hmem : body.notificationId ∈ w.shared.db.ids :=
    (Answered.of_reachable h).dedup _ fun hnone => by simp [Store.get_of_none hnone] at hseen
  have hpos : 0 < env.idempotencyTtlSeconds := (Keyspace.of_reachable h).idempotency_pos hseen
  obtain ⟨answered, hfast, ha⟩ := World.guard_answers env hr hseen
  have hgone : w.step env (.expireDedup body.notificationId)
      = some { w with shared := w.shared.evict (dedupKey body.notificationId) } := rfl
  have hnone : (w.shared.evict (dedupKey body.notificationId)).redis
      (dedupKey body.notificationId) = none := by rw [Shared.evict_redis, Store.erase_self]
  obtain ⟨stored, hslow, hs⟩ := World.database_answers
    (w := { w with shared := w.shared.evict (dedupKey body.notificationId) }) hpos hr hnone hmem t
  have hlater : w.shared.now < w.shared.now + seconds env.idempotencyTtlSeconds := by
    unfold seconds
    omega
  exact ⟨answered, stored, hfast, (platform_run_cons hgone).trans hslow, ha.request,
    RequestAdvanced.same_but_dedup hlater hseen ha hs⟩

/-- A third request with the id of the race. -/
def repeatRun : List Action := raceRun ++ [.post 2 "a" none someBody, .ok (.request 2)]

theorem guard_agrees_with_database_race : ∃ w answered stored,
    (platform plainEnv).run .empty repeatRun = some w ∧
    (platform plainEnv).run w [.ok (.request 2)] = some answered ∧
    (platform plainEnv).run w [.expireDedup someBody.notificationId, .ok (.request 2),
      .insert 2 newYear, .ok (.request 2)] = some stored ∧
    SameButDedup someBody.notificationId answered stored := by
  obtain ⟨w, r, hrun, hr, hpc, hseen⟩ : ∃ w r, (platform plainEnv).run .empty repeatRun = some w ∧
      w.requests 2 = some r ∧ r = ⟨"a", none, someBody, .hasSeen⟩ ∧
      (w.shared.redis.get w.shared.now (dedupKey someBody.notificationId)).isSome = true :=
    ⟨_, _, rfl, rfl, rfl, rfl⟩
  subst hpc
  obtain ⟨answered, stored, hfast, hslow, -, hsame⟩ :=
    guard_agrees_with_database (.of_run hrun) hr rfl hseen newYear
  exact ⟨w, answered, stored, hrun, hfast, hslow, hsame⟩

end RealtimeNotify.App
