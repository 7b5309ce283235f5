import RealtimeNotify.App.Reconciliation
import RealtimeNotify.Runs.Expiry

/-!
# Drifted registry entries

A heartbeat puts off the end of the registry entry of its user, whoever it
names, and writes none; a reconciliation pass only reads. Together they find the
instance in the registry exactly when it was still there.
-/

namespace RealtimeNotify.App

open RealtimeNotify.Lib RealtimeNotify.Python

variable {env : Env} {w w' : World} {n : Nat} {s : Session} {u : String} {op : Op}
  {k : op.Reply → GatewayPc} {r : GatewayPc}

/-- A step of a session that does not raise. -/
theorem Stepped.session_ok {c : Choice} (h : Stepped env w (.task (.session n) (.ok c)) w')
    (hs : w.sessions n = some s)
    (hn : s.pc.next env n s.instanceId s.connectionId = .call op k r) :
    ∃ reply, w.shared.exec op c = some (w'.shared, reply) ∧
      w'.sessions n = some { s with pc := k reply } := by
  cases h with
  | @session _ s' _ _ _ _ hs' hadv =>
    obtain rfl := Option.some.inj (hs.symm.trans hs')
    cases hadv with
    | returned hn' hx =>
      rw [hn] at hn'
      cases hn'
      exact ⟨_, hx, by simp [World.setSession]⟩

theorem run_session {c : Choice} {as : List Action}
    (hrun : (platform env).run w (.task (.session n) (.ok c) :: as) = some w')
    (hs : w.sessions n = some s)
    (hn : s.pc.next env n s.instanceId s.connectionId = .call op k r) :
    ∃ w₁ reply, w.shared.exec op c = some (w₁.shared, reply) ∧
      w₁.sessions n = some { s with pc := k reply } ∧ (platform env).run w₁ as = some w' := by
  obtain ⟨w₁, hstep, hrest⟩ := Option.bind_eq_some_iff.mp hrun
  have hstepped : Stepped env w (.task (.session n) (.ok c)) w₁ := World.stepped hstep
  obtain ⟨reply, hx, hs₁⟩ := hstepped.session_ok hs hn
  exact ⟨w₁, reply, hx, hs₁, hrest⟩

/-- The lookup of a user does not change where nothing is done to its entry. -/
theorem Shared.exec_lookup {s sh : Shared} {c : Choice} {reply : op.Reply}
    (h : s.exec op c = some (sh, reply)) (hop : ∀ cmd, op = .redis cmd → cmd.key ≠ registryKey u) :
    sh.redis.lookup sh.now u = s.redis.lookup s.now u := by
  rw [Redis.lookup, Redis.lookup, exec_now h, Store.get_congr (exec_redis_frame h hop)]

/-- The refreshing of an entry that can be read has a TTL to set. -/
theorem Deadlines.ttl_pos (h : Deadlines env w)
    (hu : w.shared.redis.lookup w.shared.now u ≠ none) : 0 < env.presenceTtlSeconds := by
  by_contra hzero
  have hle : w.shared.now + seconds env.presenceTtlSeconds ≤ w.shared.now := by
    unfold seconds
    omega
  apply hu
  rw [Redis.lookup, (h.registry u).get_eq_none hle, Option.map_none]

theorem lookup_refreshed {sh sh' : Shared} {c : Choice} {reply : Unit} {i : String}
    (h : sh.exec (.redis (InstanceRegistry.refresh u env.presenceTtlSeconds)) c
      = some (sh', reply)) (hpos : sh.redis.lookup sh.now u ≠ none → 0 < env.presenceTtlSeconds) :
    sh'.redis.lookup sh'.now u = some i ↔ sh.redis.lookup sh.now u = some i := by
  obtain ⟨redis, hcmd, rfl⟩ := Shared.exec_redis h
  show redis.lookup sh.now u = some i ↔ _
  rw [RedisCmd.exec_expire hcmd, Redis.lookup, Redis.lookup, Option.map_eq_some_iff,
    Option.map_eq_some_iff]
  constructor
  · rintro ⟨v, hv, hi⟩
    exact ⟨v, Store.get_of_extend hv, hi⟩
  · rintro ⟨v, hv, hi⟩
    have hlater : sh.now < sh.now + seconds env.presenceTtlSeconds := by
      have := hpos (by simp [Redis.lookup, hv])
      unfold seconds
      omega
    exact ⟨v, Store.get_extend hlater hv, hi⟩

/-- The handling of a heartbeat, from its frame on the socket to the next receive. -/
theorem lookup_heartbeat {fields : Dict PyStr Json} {i : String} (h : Deadlines env w)
    (hs : w.sessions n = some s) (hpc : s.pc = .receive u)
    (hbeat : MessageRouter.dispatch env fields = .heartbeat)
    (hrun : (platform env).run w (Action.say n (.obj fields) 3) = some w') :
    w'.shared.redis.lookup w'.shared.now u = some i ↔
      w.shared.redis.lookup w.shared.now u = some i := by
  have hpos := h.ttl_pos (u := u)
  obtain ⟨j, c, pc⟩ := s
  obtain rfl : pc = .receive u := hpc
  obtain ⟨w₁, raw, hx₁, hs₁, hrun⟩ := run_session hrun hs rfl
  obtain ⟨hsame₁, rfl⟩ : w.shared = w₁.shared ∧ Json.obj fields = raw := by
    simpa [Shared.exec] using hx₁
  obtain ⟨w₂, ok, hx₂, hs₂, hrun⟩ := run_session hrun hs₁ rfl
  have hallow : w₂.shared.redis.lookup w₂.shared.now u = w.shared.redis.lookup w.shared.now u := by
    rw [hsame₁]
    refine Shared.exec_lookup hx₂ fun cmd hcmd => ?_
    obtain rfl := Op.redis.inj hcmd
    exact ne_of_keyInitial (by simp)
  cases ok with
  | false =>
    -- the limiter dropped the frame: the session answers, and the run is at its end too early
    obtain ⟨w₃, _, -, hs₃, hrun⟩ := run_session hrun hs₂ rfl
    obtain ⟨w₄, _, hx₄, -, -⟩ := run_session hrun hs₃ rfl
    simp [Shared.exec] at hx₄
  | true =>
    have hnext : GatewayPc.routed env u fields = .heartbeat u := by
      simp only [GatewayPc.routed, hbeat]
    simp only [if_true, hnext] at hs₂
    obtain ⟨w₃, _, hx₃, hs₃, hrun⟩ := run_session hrun hs₂ rfl
    obtain ⟨w₄, _, hx₄, hs₄, hrun⟩ := run_session hrun hs₃ rfl
    obtain ⟨w₅, _, hx₅, -, hrun⟩ := run_session hrun hs₄ rfl
    obtain rfl : w₅ = w' := Option.some.inj hrun
    have hbeat : w₃.shared.redis.lookup w₃.shared.now u
        = w₂.shared.redis.lookup w₂.shared.now u := by
      refine Shared.exec_lookup hx₃ fun cmd hcmd => ?_
      obtain rfl := Op.redis.inj hcmd
      exact ne_of_keyInitial (by simp)
    have hseen : w₄.shared.redis.lookup w₄.shared.now u
        = w₃.shared.redis.lookup w₃.shared.now u := by
      refine Shared.exec_lookup hx₄ fun cmd hcmd => ?_
      obtain rfl := Op.redis.inj hcmd
      exact ne_of_keyInitial (by simp)
    have hsame : w₄.shared.redis.lookup w₄.shared.now u
        = w.shared.redis.lookup w.shared.now u := hseen.trans (hbeat.trans hallow)
    rw [lookup_refreshed hx₅ (fun hne => hpos (hsame ▸ hne)), hsame]

/-- After the heartbeat of a session and a pass of its instance the registry has
the instance for its user iff it had it before. -/
theorem registry_heals_iff {fields : Dict PyStr Json} {sh : Shared} {logged : List String}
    (h : Reachable env w) (hs : w.sessions n = some s) (hpc : s.pc = .receive u)
    (hbeat : MessageRouter.dispatch env fields = .heartbeat)
    (hrun : (platform env).run w (Action.say n (.obj fields) 3) = some w')
    (hpass : semantics.Alone (ReconcilePc.next s.instanceId) w'.shared .collecting sh
      (.finished logged)) :
    sh.redis.lookup sh.now u = some s.instanceId ↔
      w.shared.redis.lookup w.shared.now u = some s.instanceId := by
  obtain rfl := reconcile_reads hpass
  exact lookup_heartbeat (Deadlines.of_reachable h) hs hpc hbeat hrun

/-- The entry is there. -/
theorem registry_heals_iff_fresh : ∃ w w' sh logged,
    (platform plainEnv).run .empty soloRun = some w ∧
    (platform plainEnv).run w (Action.say 0 heartbeatMessage 3) = some w' ∧
    semantics.Alone (ReconcilePc.next "a") w'.shared .collecting sh (.finished logged) ∧
    sh.redis.lookup sh.now someUser = some "a" := by
  obtain ⟨w, w', hrun, hbeat, hs, hlookup⟩ : ∃ w w',
      (platform plainEnv).run .empty soloRun = some w ∧
      (platform plainEnv).run w (Action.say 0 heartbeatMessage 3) = some w' ∧
      w.sessions 0 = some ⟨"a", "c0", .receive someUser⟩ ∧
      w.shared.redis.lookup w.shared.now someUser = some "a" := ⟨_, _, rfl, rfl, rfl, rfl⟩
  have hpass := reconcile_detects w'.shared "a"
  exact ⟨w, w', _, _, hrun, hbeat, hpass,
    (registry_heals_iff (.of_run hrun) hs rfl rfl hbeat hpass).mpr hlookup⟩

/-- A quiet period has let the entry of the only session expire: the pass warns
that there is none, and there is none after it. -/
theorem registry_heals_not : ∃ w w' sh logged,
    Reachable plainEnv w ∧ w.sessions 0 = some ⟨"a", "c0", .receive someUser⟩ ∧
    (∀ n, w.sessions (n + 1) = none) ∧ (w.shared.connections "a").get someUser = some 0 ∧
    (platform plainEnv).run w (Action.say 0 heartbeatMessage 3) = some w' ∧
    semantics.Alone (ReconcilePc.next "a") w'.shared .collecting sh (.finished logged) ∧
    logged = [driftWarning someUser "a" none] ∧
    ¬ sh.redis.lookup sh.now someUser = some "a" := by
  obtain ⟨w, w', hrun, hbeat, hs, hrest, hheld, hlogs, hlookup⟩ : ∃ w w',
      (platform plainEnv).run .empty (soloRun ++ [.tick (seconds 31)]) = some w ∧
      (platform plainEnv).run w (Action.say 0 heartbeatMessage 3) = some w' ∧
      w.sessions 0 = some ⟨"a", "c0", .receive someUser⟩ ∧
      (∀ n, w.sessions (n + 1) = none) ∧ (w.shared.connections "a").get someUser = some 0 ∧
      driftLogs w'.shared "a" (w'.shared.connections "a").keys
        = [driftWarning someUser "a" none] ∧
      w'.shared.redis.lookup w'.shared.now someUser = none :=
    ⟨_, _, rfl, rfl, rfl, fun _ => rfl, rfl, rfl, rfl⟩
  exact ⟨w, w', _, _, .of_run hrun, hs, hrest, hheld, hbeat, reconcile_detects w'.shared "a",
    hlogs, by simp [hlookup]⟩

end RealtimeNotify.App
