import RealtimeNotify.App.Frames

/-!
# What the keyspace holds

Seven families of keys share one Redis. In every reachable state what is stored under a
key is of the kind its family has, with an expiry no further away than its TTL: so no
command that the platform sends is refused for the type of what it finds.
-/

namespace RealtimeNotify.App

open RealtimeNotify.Lib RealtimeNotify.Python

variable {env : Env} {w w' : World} {a : Action}

/-! ## The families -/

/-- A window of one of the two rate limiters. -/
def Env.windowed (env : Env) (window : Nat) : Prop :=
  window = env.rateLimitWindowSeconds ∨ window = env.apiRateLimitWindowSeconds

/-- The entries that the keyspace may hold at the time `now`. Only `last_seen` has no
expiry. -/
inductive KeyspaceEntry (env : Env) (now : Nat) : String → Cell RedisValue → Prop where
  | registry {u i deadline} : (UUID.ofString u).isSome = true →
      deadline ≤ now + seconds env.presenceTtlSeconds →
      KeyspaceEntry env now (registryKey u) ⟨.text i, some deadline⟩
  | liveness {i deadline} : deadline ≤ now + seconds env.instanceLivenessTtlSeconds →
      KeyspaceEntry env now (livenessKey i) ⟨.text "1", some deadline⟩
  | ticket {t u deadline} : (UUID.ofString u).isSome = true →
      deadline ≤ now + seconds env.wsTicketTtlSeconds →
      KeyspaceEntry env now (ticketKey t) ⟨.text u, some deadline⟩
  | dedup {n deadline} : deadline ≤ now + seconds env.idempotencyTtlSeconds →
      KeyspaceEntry env now (dedupKey n) ⟨.text "1", some deadline⟩
  | rateLimit {c m window deadline} : env.windowed window → deadline ≤ now + seconds window →
      KeyspaceEntry env now (rateLimitKey c) ⟨.count (m + 1), some deadline⟩
  | presence {u status deadline} : (UUID.ofString u).isSome = true →
      status = "online" ∨ status = "away" → deadline ≤ now + seconds env.presenceTtlSeconds →
      KeyspaceEntry env now (presenceKey u) ⟨.text status, some deadline⟩
  | lastSeen {u t} : (UUID.ofString u).isSome = true → t ≤ now →
      KeyspaceEntry env now (lastSeenKey u) ⟨.stamp t, none⟩

/-- Time that passes only brings the ends nearer. -/
theorem KeyspaceEntry.mono {now now' : Nat} {k : String} {c : Cell RedisValue}
    (h : KeyspaceEntry env now k c) (hle : now ≤ now') : KeyspaceEntry env now' k c := by
  cases h with
  | registry hu hd => exact .registry hu (by omega)
  | liveness hd => exact .liveness (by omega)
  | ticket hu hd => exact .ticket hu (by omega)
  | dedup hd => exact .dedup (by omega)
  | rateLimit hwindow hd => exact .rateLimit hwindow (by omega)
  | presence hu hstatus hd => exact .presence hu hstatus (by omega)
  | lastSeen hu ht => exact .lastSeen hu (by omega)

/-- What stands under a ticket is the subject of a user. -/
theorem KeyspaceEntry.ticket_value {now : Nat} {t : String} {c : Cell RedisValue}
    (h : KeyspaceEntry env now (ticketKey t) c) :
    ∃ u, c.value = .text u ∧ (UUID.ofString u).isSome = true := by
  generalize hk : ticketKey t = k at h
  have hinit : keyInitial k = some 'w' := by rw [← hk, keyInitial_ticketKey]
  cases h with
  | ticket hu _ => exact ⟨_, rfl, hu⟩
  | _ => simp at hinit

/-- What stands in the registry is the text of an instance id. -/
theorem KeyspaceEntry.registry_value {now : Nat} {u : String} {c : Cell RedisValue}
    (h : KeyspaceEntry env now (registryKey u) c) : ∃ i, c.value = .text i := by
  generalize hk : registryKey u = k at h
  have hinit : keyInitial k = some 'u' := by rw [← hk, keyInitial_registryKey]
  cases h with
  | registry _ _ => exact ⟨_, rfl⟩
  | _ => simp at hinit

/-- The presence key of a user holds a status. -/
theorem KeyspaceEntry.presence_value {now : Nat} {u : String} {c : Cell RedisValue}
    (hu : (UUID.ofString u).isSome = true) (h : KeyspaceEntry env now (presenceKey u) c) :
    ∃ status, c.value = .text status ∧ (status = "online" ∨ status = "away") := by
  generalize hk : presenceKey u = k at h
  have hinit : keyInitial k = some 'p' := by rw [← hk, keyInitial_presenceKey]
  cases h with
  | presence _ hstatus _ => exact ⟨_, rfl, hstatus⟩
  | lastSeen _ _ => exact absurd hk (presenceKey_ne_lastSeenKey hu)
  | _ => simp at hinit

/-- Under a key of the limiters stands a counter. -/
theorem KeyspaceEntry.rateLimit_value {now : Nat} {k : String} {c : Cell RedisValue}
    (hk : keyInitial k = some 'r') (h : KeyspaceEntry env now k c) :
    ∃ m window deadline, c = ⟨.count (m + 1), some deadline⟩ ∧ env.windowed window ∧
      deadline ≤ now + seconds window := by
  cases h with
  | rateLimit hwindow hd => exact ⟨_, _, _, rfl, hwindow, hd⟩
  | _ => simp at hk

/-- A dedup key expires. -/
theorem KeyspaceEntry.dedup_deadline {now : Nat} {n : UUID} {c : Cell RedisValue}
    (h : KeyspaceEntry env now (dedupKey n) c) :
    ∃ deadline, c.deadline = some deadline ∧
      deadline ≤ now + seconds env.idempotencyTtlSeconds := by
  generalize hk : dedupKey n = k at h
  have hinit : keyInitial k = some 'n' := by rw [← hk, keyInitial_dedupKey]
  cases h with
  | dedup hd => exact ⟨_, rfl, hd⟩
  | _ => simp at hinit

/-! ## What a command leaves under its key -/

/-- What is stored under the key of a command once it is executed. -/
inductive RedisCmd.Leaves (r : Redis) (now : Nat) : RedisCmd → Cell RedisValue → Prop where
  | kept {cmd c} : r cmd.key = some c → Leaves r now cmd c
  | set {k v ttl} : Leaves r now (.set k v (some ttl)) ⟨.text v, some (now + seconds ttl)⟩
  | setForever {k v} : Leaves r now (.set k v none) ⟨.text v, none⟩
  | setNow {k} : Leaves r now (.setNow k) ⟨.stamp now, none⟩
  | extended {k ttl c} : r k = some c →
      Leaves r now (.expire k ttl) ⟨c.value, some (now + seconds ttl)⟩
  | opened {k limit window m} :
      Leaves r now (.tokenBucket k limit window) ⟨.count (m + 1), some (now + seconds window)⟩
  | counted {k limit window m deadline} : r k = some ⟨.count m, deadline⟩ →
      Leaves r now (.tokenBucket k limit window) ⟨.count (m + 1), deadline⟩

theorem RedisCmd.leaves {r r' : Redis} {now : Nat} {cmd : RedisCmd} {reply : cmd.Reply}
    {c : Cell RedisValue} (h : cmd.exec r now = some (r', reply)) (hc : r' cmd.key = some c) :
    cmd.Leaves r now c := by
  cases cmd with
  | set k v ex =>
    rcases ex with _ | _ | ttl
    · obtain ⟨rfl, -⟩ := by simpa [exec] using h
      obtain rfl := by simpa [key] using hc
      exact .setForever
    · -- an expiry of zero seconds is refused
      simp [exec] at h
    · obtain ⟨rfl, -⟩ := by simpa [exec] using h
      obtain rfl := by simpa [key] using hc
      exact .set
  | setNow k =>
    obtain ⟨rfl, -⟩ := by simpa [exec] using h
    obtain rfl := by simpa [key] using hc
    exact .setNow
  | expire k ttl =>
    obtain ⟨rfl, -⟩ := by simpa [exec] using h
    cases hcell : r.cell now k with
    | none =>
      rw [Store.extend, hcell] at hc
      exact .kept hc
    | some c' =>
      obtain rfl : (⟨c'.value, some (now + seconds ttl)⟩ : Cell RedisValue) = c := by
        simpa [Store.extend, hcell, key] using hc
      exact .extended (Option.filter_eq_some_iff.mp hcell).1
  | delete k =>
    obtain ⟨rfl, -⟩ := by simpa [exec] using h
    simp [key] at hc
  | get k =>
    obtain ⟨rfl, -⟩ := by simpa [exec] using h
    exact .kept hc
  | getdel k =>
    obtain ⟨rfl, -⟩ := by simpa [exec] using h
    simp [key] at hc
  | «exists» k =>
    obtain ⟨rfl, -⟩ := by simpa [exec] using h
    exact .kept hc
  | tokenBucket k limit window =>
    simp only [exec, runTokenBucket] at h
    split at h
    · obtain ⟨rfl, -⟩ := by simpa using h
      obtain rfl := by simpa [key] using hc
      exact .opened (m := 0)
    · rename_i m deadline hcell
      obtain ⟨rfl, -⟩ := by simpa using h
      obtain rfl := by simpa [key] using hc
      by_cases hfirst : m = 0
      · rw [if_pos hfirst]
        exact .opened
      · rw [if_neg hfirst]
        exact .counted (Option.filter_eq_some_iff.mp hcell).1
    · simp at h

/-! ## Who speaks of which user -/

/-- Who sends a command of the rate limiters, and which. -/
theorem World.allowCaller {id : TaskId} {cmd : RedisCmd}
    (h : w.awaits env id = some (.redis cmd)) (hk : keyInitial cmd.key = some 'r') :
    ∃ c limit window, cmd = RateLimiter.allow c limit window ∧ env.windowed window := by
  cases World.awaiting h with
  | @session n s _ hs h =>
    obtain ⟨i, c, pc⟩ := s
    cases pc with
    | allow u fields =>
      cases h
      exact ⟨_, _, _, rfl, .inl rfl⟩
    | presence u online =>
      cases h
      cases online <;> simp at hk
    | redeem _ | register _ | refresh _ | unregister _ | markOnline _ | heartbeat _
    | markOffline _ | onlineSeen _ | heartbeatSeen _ | presenceSeen _ =>
      cases h
      simp at hk
    | _ => cases h
  | @request n r _ hr h =>
    obtain ⟨i, client, body, pc⟩ := r
    cases pc with
    | allow =>
      cases h
      exact ⟨_, _, _, rfl, .inr rfl⟩
    | hasSeen | markSeen _ | lookup _ | isAlive _ _ =>
      cases h
      simp at hk
    | _ => cases h
  | @ticketRequest n r _ hr h =>
    obtain ⟨i, claims, token, pc⟩ := r
    cases pc with
    | issue _ _ =>
      cases h
      simp at hk
    | _ => cases h
  | @subscriber i p _ hp h =>
    obtain ⟨_, pc, _⟩ := p
    cases pc <;> cases h
  | @lifespan i p _ hp h =>
    obtain ⟨pc, _, _⟩ := p
    cases pc with
    | markingAlive | unregistering _ _ | clearing _ _ =>
      cases h
      simp at hk
    | _ => cases h
  | @liveness i p _ hp h =>
    obtain ⟨_, _, pc⟩ := p
    cases pc with
    | markingAlive =>
      cases h
      simp at hk
    | sleeping => cases h

/-- The keyspace, and the users that the tasks will write to it. -/
structure Keyspace (env : Env) (w : World) : Prop where
  entry : ∀ k c, w.shared.redis k = some c → KeyspaceEntry env w.shared.now k c
  session : ∀ n s u, w.sessions n = some s → s.pc.user? = some u → (UUID.ofString u).isSome = true
  issue : ∀ n r u t, w.ticketRequests n = some r → r.pc = .issue u t →
    (UUID.ofString u).isSome = true

/-- What a presence command leaves is an entry. -/
theorem Keyspace.leaves_presence (h : Keyspace env w) {id : TaskId} {u : String} {cmd : RedisCmd}
    {c : Cell RedisValue} (hp : PresenceCaller env w u id cmd)
    (hc : cmd.Leaves w.shared.redis w.shared.now c) :
    KeyspaceEntry env w.shared.now cmd.key c := by
  have huser : ∀ {n s}, w.sessions n = some s → s.pc.user? = some u →
      (UUID.ofString u).isSome = true := fun hs hpc => h.session _ _ _ hs hpc
  cases hp with
  | online hs hpc =>
    cases hc with
    | kept hkept => exact h.entry _ _ hkept
    | set => exact .presence (huser hs (by rw [hpc]; rfl)) (.inl rfl) le_rfl
  | heartbeat hs hpc =>
    cases hc with
    | kept hkept => exact h.entry _ _ hkept
    | extended hkept =>
      -- only the expiry is new: the status is the one that was there
      have hu := huser hs (by rw [hpc]; rfl)
      obtain ⟨status, hvalue, hstatus⟩ := (h.entry _ _ hkept).presence_value hu
      rw [hvalue]
      exact .presence hu hstatus le_rfl
  | @update _ _ online hs hpc =>
    have hu := huser hs (by rw [hpc]; rfl)
    cases online with
    | true =>
      cases hc with
      | kept hkept => exact h.entry _ _ hkept
      | set => exact .presence hu (.inl rfl) le_rfl
    | false =>
      cases hc with
      | kept hkept => exact h.entry _ _ hkept
      | set => exact .presence hu (.inr rfl) le_rfl
  | seen hs hpc =>
    cases hc with
    | kept hkept => exact h.entry _ _ hkept
    | setNow =>
      refine .lastSeen (huser hs ?_) le_rfl
      rcases hpc with hpc | hpc | hpc <;> rw [hpc] <;> rfl
  | leave _ _ | shutdown _ _ =>
    cases hc with
    | kept hkept => exact h.entry _ _ hkept

/-- What a command of the platform leaves is an entry. -/
theorem Keyspace.leaves (h : Keyspace env w) {id : TaskId} {cmd : RedisCmd} {c : Cell RedisValue}
    (ha : w.awaits env id = some (.redis cmd))
    (hc : cmd.Leaves w.shared.redis w.shared.now c) :
    KeyspaceEntry env w.shared.now cmd.key c := by
  cases World.commandCaller ha with
  | redeem _ _ | unregister _ _ | shutdown _ _ | lookup _ _ | isAlive _ _ | hasSeen _ _ =>
    cases hc with
    | kept hkept => exact h.entry _ _ hkept
  | issue hr hpc =>
    cases hc with
    | kept hkept => exact h.entry _ _ hkept
    | set => exact .ticket (h.issue _ _ _ _ hr hpc) le_rfl
  | register hs hpc =>
    cases hc with
    | kept hkept => exact h.entry _ _ hkept
    | set => exact .registry (h.session _ _ _ hs (by rw [hpc]; rfl)) le_rfl
  | refresh hs hpc =>
    cases hc with
    | kept hkept => exact h.entry _ _ hkept
    | extended hkept =>
      obtain ⟨i, hvalue⟩ := (h.entry _ _ hkept).registry_value
      rw [hvalue]
      exact .registry (h.session _ _ _ hs (by rw [hpc]; rfl)) le_rfl
  | start _ _ | beat _ _ =>
    cases hc with
    | kept hkept => exact h.entry _ _ hkept
    | set => exact .liveness le_rfl
  | markSeen hr hpc =>
    cases hc with
    | kept hkept => exact h.entry _ _ hkept
    | set => exact .dedup le_rfl
  | presence hp => exact h.leaves_presence hp hc
  | allow hk =>
    obtain ⟨c, limit, window, rfl, hwindow⟩ := World.allowCaller ha hk
    cases hc with
    | kept hkept => exact h.entry _ _ hkept
    | opened => exact .rateLimit hwindow le_rfl
    | counted hkept =>
      -- a window that is open keeps its expiry, and may be of the other limiter
      obtain ⟨m, window', deadline, heq, hwindow', hd⟩ := (h.entry _ _ hkept).rateLimit_value hk
      cases heq
      exact .rateLimit hwindow' hd

/-! ## The invariant -/

theorem Keyspace.init : Keyspace env .empty where
  entry k c hc := by simp [World.empty] at hc
  session n s u hs := by simp [World.empty] at hs
  issue n r u t hr := by simp [World.empty] at hr

/-- What a session redeems is the subject of a user. -/
theorem Keyspace.redeemed (h : Keyspace env w) {ticket : String} {v : RedisValue} {c : Choice}
    {sh : Shared}
    (hx : w.shared.exec (.redis (WSTicketAuth.redeemTicket ticket)) c = some (sh, some v)) :
    (UUID.ofString v.decode).isSome = true := by
  obtain ⟨r, hcmd, -⟩ := Shared.exec_redis hx
  obtain ⟨-, hget⟩ : _ ∧ w.shared.redis.get w.shared.now (ticketKey ticket) = some v := by
    simpa [RedisCmd.exec, WSTicketAuth.redeemTicket] using hcmd
  obtain ⟨c, hc, -, rfl⟩ := Store.get_eq_some.mp hget
  obtain ⟨u, hvalue, hu⟩ := (h.entry _ _ hc).ticket_value
  rwa [hvalue]

theorem Keyspace.step (h : Keyspace env w) (hstep : Stepped env w a w') : Keyspace env w' where
  entry k c hc := by
    refine KeyspaceEntry.mono ?_ hstep.now_le
    cases hstep.key_cases k with
    | kept hk => exact h.entry k c (hk ▸ hc)
    | evicted ha hk =>
      subst ha
      cases hstep
      simp [hk] at hc
    | sent _ _ ha hk hx hsh =>
      subst hk
      rw [hsh] at hc
      exact h.leaves ha (RedisCmd.leaves hx hc)
  session n s' u hs' hu := by
    cases hstep.session_cases hs' with
    | same hs _ _ => exact h.session n s' u hs hu
    | new _ _ _ _ => cases hu
    | killed _ _ _ => cases hu
    | @moved s o _ _ _ hs _ hadv _ _ =>
      cases hadv with
      | @returned _ _ _ c _ reply hn hx =>
        rcases GatewayPc.user_resume hn hu with hold | ⟨ticket, hpc⟩
        · exact h.session n s u hs hold
        · -- a user enters a session with the ticket, whose value is the subject of one
          rw [hpc] at hn
          cases hn
          cases reply with
          | none => cases hu
          | some v =>
            obtain rfl := by simpa [GatewayPc.user?] using hu
            exact h.redeemed (c := c) hx
      | raised hn _ | applied hn _ _ => exact h.session n s u hs (GatewayPc.user_raised hn hu)
  issue n r' u t hr' hpc := by
    rcases hstep.ticket_origin hr' with ⟨r, hr, -, -, hsame⟩ | ⟨i, -, -, hstart, -, -⟩
    · exact h.issue n r u t hr (hsame u t hpc).1
    · rw [hpc, IssuePc.start] at hstart
      cases hd : decodeUserId r'.claims with
      | error e =>
        rw [hd] at hstart
        cases hstart
      | ok v =>
        rw [hd] at hstart
        cases hstart
        obtain ⟨-, id, hid⟩ := decodeUserId_ok hd
        simp [hid]

theorem Keyspace.of_reachable (h : Reachable env w) : Keyspace env w :=
  h.invariant Keyspace.init fun _ _ ih hstep => ih.step (World.stepped hstep)

/-- Whatever the tasks did and whatever failed, the keyspace holds entries of the seven
families only. -/
theorem keyspace_entries (h : Reachable env w) {k : String} {c : Cell RedisValue}
    (hc : w.shared.redis k = some c) : KeyspaceEntry env w.shared.now k c :=
  (Keyspace.of_reachable h).entry k c hc

/-- The registration of a connected user. -/
theorem keyspace_entries_solo : ∃ w c, (platform plainEnv).run .empty soloRun = some w ∧
    w.shared.redis (registryKey someUser) = some c ∧
    KeyspaceEntry plainEnv w.shared.now (registryKey someUser) c := by
  obtain ⟨w, c, hw, hc⟩ : ∃ w c, (platform plainEnv).run .empty soloRun = some w ∧
      w.shared.redis (registryKey someUser) = some c := ⟨_, _, rfl, rfl⟩
  exact ⟨w, c, hw, hc, keyspace_entries (.of_run hw) hc⟩

/-! ## No command is refused -/

/-- Redis takes no expiry of zero seconds. -/
structure Env.PositiveTtls (env : Env) : Prop where
  wsTicket : 0 < env.wsTicketTtlSeconds
  presence : 0 < env.presenceTtlSeconds
  instanceLiveness : 0 < env.instanceLivenessTtlSeconds
  idempotency : 0 < env.idempotencyTtlSeconds

theorem plainEnv_positiveTtls : plainEnv.PositiveTtls := by constructor <;> decide

/-- A command that Redis executes whatever it finds. -/
def RedisCmd.plain : RedisCmd → Bool
  | set _ _ (some ttl) => 0 < ttl
  | tokenBucket .. => false
  | _ => true

theorem RedisCmd.exec_of_plain {r : Redis} {now : Nat} {cmd : RedisCmd} (h : cmd.plain = true) :
    (cmd.exec r now).isSome = true := by
  cases cmd with
  | set k v ex =>
    rcases ex with _ | _ | ttl
    · rfl
    · simp [plain] at h
    · rfl
  | tokenBucket k limit window => cases h
  | _ => rfl

/-- The script counts where there is nothing or a counter. -/
theorem RedisCmd.exec_tokenBucket {r : Redis} {now limit window : Nat} {k : String}
    (h : ∀ c, r k = some c → ∃ m, c.value = .count m) :
    ((tokenBucket k limit window).exec r now).isSome = true := by
  rw [exec, runTokenBucket]
  split
  · rfl
  · rfl
  · rename_i c hnot hcell
    obtain ⟨m, hm⟩ := h c (Option.filter_eq_some_iff.mp hcell).1
    exact (hnot m c.deadline (by rw [← hm])).elim

/-- With positive TTLs the server executes every command that a task awaits. -/
theorem Keyspace.accepts (h : Keyspace env w) (hpos : env.PositiveTtls) {id : TaskId}
    {cmd : RedisCmd} (ha : w.awaits env id = some (.redis cmd)) :
    (cmd.exec w.shared.redis w.shared.now).isSome = true := by
  cases World.commandCaller ha with
  | issue _ _ => exact RedisCmd.exec_of_plain (decide_eq_true hpos.wsTicket)
  | register _ _ => exact RedisCmd.exec_of_plain (decide_eq_true hpos.presence)
  | start _ _ | beat _ _ =>
    exact RedisCmd.exec_of_plain (decide_eq_true hpos.instanceLiveness)
  | markSeen _ _ => exact RedisCmd.exec_of_plain (decide_eq_true hpos.idempotency)
  | redeem _ _ | refresh _ _ | unregister _ _ | shutdown _ _ | lookup _ _ | isAlive _ _
  | hasSeen _ _ => exact RedisCmd.exec_of_plain rfl
  | presence hp =>
    cases hp with
    | online _ _ => exact RedisCmd.exec_of_plain (decide_eq_true hpos.presence)
    | @update _ _ online _ _ =>
      cases online <;> exact RedisCmd.exec_of_plain (decide_eq_true hpos.presence)
    | heartbeat _ _ | seen _ _ | leave _ _ | shutdown _ _ => exact RedisCmd.exec_of_plain rfl
  | allow hk =>
    obtain ⟨c, limit, window, rfl, -⟩ := World.allowCaller ha hk
    refine RedisCmd.exec_tokenBucket fun cell hcell => ?_
    obtain ⟨m, _, _, rfl, -⟩ := (h.entry _ _ hcell).rateLimit_value hk
    exact ⟨m + 1, rfl⟩

/-- From any reachable state: whichever command a task is about to send, the server
executes it, and a step of the task can take its reply. -/
theorem command_accepted (hpos : env.PositiveTtls) (h : Reachable env w) {id : TaskId}
    {cmd : RedisCmd} (ha : w.awaits env id = some (.redis cmd)) :
    ∃ r reply, cmd.exec w.shared.redis w.shared.now = some (r, reply) := by
  obtain ⟨⟨r, reply⟩, hx⟩ :=
    Option.isSome_iff_exists.mp ((Keyspace.of_reachable h).accepts hpos ha)
  exact ⟨r, reply, hx⟩

/-- The first check of the limiter for a request. -/
theorem command_accepted_post : ∃ w id cmd,
    (platform plainEnv).run .empty (soloRun ++ [.post 0 "a" none someBody]) = some w ∧
    w.awaits plainEnv id = some (.redis cmd) ∧
    ∃ r reply, cmd.exec w.shared.redis w.shared.now = some (r, reply) := by
  obtain ⟨w, cmd, hw, ha⟩ : ∃ w cmd,
      (platform plainEnv).run .empty (soloRun ++ [.post 0 "a" none someBody]) = some w ∧
      w.awaits plainEnv (.request 0) = some (.redis cmd) := ⟨_, _, rfl, rfl⟩
  exact ⟨w, _, cmd, hw, ha, command_accepted plainEnv_positiveTtls (.of_run hw) ha⟩

end RealtimeNotify.App
