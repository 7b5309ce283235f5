import RealtimeNotify.App.Frames

/-!
# Entries expire

Every command that writes a registry, presence or liveness key sets an expiry,
so what is stored there has a deadline at most a TTL away. Only the steps of an
open session put a deadline off: once the last session of a user has closed, its
entries die out, whatever the cleanup did.
-/

namespace RealtimeNotify.App

open RealtimeNotify.Lib RealtimeNotify.Python

variable {env : Env} {w w' : World} {a : Action} {u i : String} {limit : Nat}

/-- A session of `u` is open on a running instance: it is in its map and has not
left for `finally`. -/
def World.openFor (w : World) (u : String) : Prop :=
  ∃ n s, w.sessions n = some s ∧ s.pc.connected? = some u ∧ w.processes s.instanceId ≠ none

/-- A session that has not ended is on an instance that runs. -/
def Running (w : World) : Prop :=
  ∀ n s, w.sessions n = some s → s.pc ≠ .ended → w.processes s.instanceId ≠ none

theorem Running.step (h : Running w) (hstep : Stepped env w a w') : Running w' := by
  intro n s' hs' hpc
  have hkept : ∀ {j}, a ≠ .crash j → w.processes j ≠ none → w'.processes j ≠ none := by
    intro j ha hj
    obtain ⟨p, hp⟩ := Option.ne_none_iff_exists'.mp hj
    rcases hstep.process_next hp with hcrash | ⟨p', hp', -⟩
    · exact absurd hcrash ha
    · simp [hp']
  cases hstep.session_cases hs' with
  | same hs _ hcrash => exact hkept hcrash (h n s' hs hpc)
  | new _ hi ha _ =>
    refine hkept (by simp [ha]) fun hnone => ?_
    simp [World.serves, hnone] at hi
  | killed _ _ _ => exact absurd rfl hpc
  | @moved s _ _ _ _ hs ha hadv _ _ =>
    refine hkept (by simp [ha]) (h n s hs fun hended => ?_)
    rw [hended] at hadv
    cases hadv with
    | returned hn _ | raised hn _ | applied hn _ _ => cases hn

theorem Running.of_reachable (h : Reachable env w) : Running w := by
  refine h.invariant ?_ fun _ _ ih hstep => ih.step (World.stepped hstep)
  intro n s hs
  simp [platform, World.empty] at hs

/-- A connected session is open. -/
theorem Running.openFor (h : Running w) {n : Nat} {s : Session} (hs : w.sessions n = some s)
    (hu : s.pc.connected? = some u) : w.openFor u := by
  refine ⟨n, s, hs, hu, h n s hs fun hended => ?_⟩
  simp [hended, GatewayPc.connected?] at hu

/-! ## Deadlines -/

section

variable {r r' : Redis} {now ttl : Nat} {k v : String} {reply : Unit}

theorem RedisCmd.bounded_set (hx : exec r now (set k v (some ttl)) = some (r', reply))
    (hle : now + seconds ttl ≤ limit) : r'.Bounded k limit := by
  rw [exec_set hx]
  exact Store.bounded_put hle

theorem RedisCmd.bounded_expire (hb : r.Bounded k limit)
    (hx : exec r now (expire k ttl) = some (r', reply)) (hle : now + seconds ttl ≤ limit) :
    r'.Bounded k limit := by
  obtain ⟨rfl, -⟩ := by simpa [exec] using hx
  exact hb.extend hle

theorem RedisCmd.bounded_delete (hx : exec r now (delete k) = some (r', reply)) :
    r'.Bounded k limit := by
  obtain ⟨rfl, -⟩ := by simpa [exec] using hx
  exact Store.bounded_erase

end

/-- While a session of the user is open the bound has to be a TTL away; else any
bound on the registry entry stays one. -/
theorem Stepped.registry_bounded (h : Stepped env w a w') (hrun : Running w)
    (hb : w.shared.redis.Bounded (registryKey u) limit)
    (hopen : w.openFor u → w.shared.now + seconds env.presenceTtlSeconds ≤ limit) :
    w'.shared.redis.Bounded (registryKey u) limit := by
  cases h.key_cases (registryKey u) with
  | kept hk => exact hb.congr hk
  | evicted _ hk => exact absurd hk (ne_of_keyInitial (by simp))
  | sent _ _ ha hk hx hsh =>
    rw [hsh]
    cases World.registryCaller ha hk with
    | register hs hpc =>
      exact RedisCmd.bounded_set hx (hopen (hrun.openFor hs (by rw [hpc]; rfl)))
    | refresh hs hpc =>
      exact RedisCmd.bounded_expire hb hx (hopen (hrun.openFor hs (by rw [hpc]; rfl)))
    | unregister _ _ | shutdown _ _ => exact RedisCmd.bounded_delete hx
    | lookup _ _ _ =>
      obtain ⟨rfl, -⟩ := by simpa [RedisCmd.exec, InstanceRegistry.lookup] using hx
      exact hb

theorem Stepped.presence_bounded (h : Stepped env w a w') (hrun : Running w)
    (hu : (UUID.ofString u).isSome = true) (hb : w.shared.redis.Bounded (presenceKey u) limit)
    (hopen : w.openFor u → w.shared.now + seconds env.presenceTtlSeconds ≤ limit) :
    w'.shared.redis.Bounded (presenceKey u) limit := by
  cases h.key_cases (presenceKey u) with
  | kept hk => exact hb.congr hk
  | evicted _ hk => exact absurd hk (ne_of_keyInitial (by simp))
  | sent _ _ ha hk hx hsh =>
    rw [hsh]
    cases World.presenceCaller ha hk (fun _ => presenceKey_ne_lastSeenKey hu) with
    | online hs hpc =>
      exact RedisCmd.bounded_set hx (hopen (hrun.openFor hs (by rw [hpc]; rfl)))
    | heartbeat hs hpc =>
      exact RedisCmd.bounded_expire hb hx (hopen (hrun.openFor hs (by rw [hpc]; rfl)))
    | @update _ _ online hs hpc =>
      have hle := hopen (hrun.openFor hs (by rw [hpc]; rfl))
      cases online <;> exact RedisCmd.bounded_set hx hle
    | seen _ _ => exact absurd hk.symm (presenceKey_ne_lastSeenKey hu)
    | leave _ _ | shutdown _ _ => exact RedisCmd.bounded_delete hx

theorem Stepped.liveness_bounded (h : Stepped env w a w')
    (hb : w.shared.redis.Bounded (livenessKey i) limit)
    (hle : w.shared.now + seconds env.instanceLivenessTtlSeconds ≤ limit) :
    w'.shared.redis.Bounded (livenessKey i) limit := by
  cases h.key_cases (livenessKey i) with
  | kept hk => exact hb.congr hk
  | evicted _ hk => exact absurd hk (ne_of_keyInitial (by simp))
  | sent _ _ ha hk hx hsh =>
    rw [hsh]
    cases World.livenessCaller ha hk with
    | start _ _ | beat _ _ => exact RedisCmd.bounded_set hx hle
    | isAlive _ _ =>
      obtain ⟨rfl, -⟩ := by simpa [RedisCmd.exec, InstanceRegistry.isAlive] using hx
      exact hb

/-- Every entry is at most its TTL away from its end. -/
structure Deadlines (env : Env) (w : World) : Prop where
  running : Running w
  registry : ∀ u, w.shared.redis.Bounded (registryKey u)
    (w.shared.now + seconds env.presenceTtlSeconds)
  presence : ∀ u, (UUID.ofString u).isSome = true → w.shared.redis.Bounded (presenceKey u)
    (w.shared.now + seconds env.presenceTtlSeconds)
  liveness : ∀ i, w.shared.redis.Bounded (livenessKey i)
    (w.shared.now + seconds env.instanceLivenessTtlSeconds)

theorem Deadlines.step (h : Deadlines env w) (hstep : Stepped env w a w') : Deadlines env w' := by
  have hnow := hstep.now_le
  constructor
  · exact h.running.step hstep
  · intro u
    refine hstep.registry_bounded h.running ((h.registry u).mono ?_) fun _ => ?_ <;> omega
  · intro u hu
    refine hstep.presence_bounded h.running hu ((h.presence u hu).mono ?_) fun _ => ?_ <;> omega
  · intro i
    refine hstep.liveness_bounded ((h.liveness i).mono ?_) ?_ <;> omega

theorem Deadlines.of_reachable (h : Reachable env w) : Deadlines env w := by
  refine h.invariant ?_ fun _ _ ih hstep => ih.step (World.stepped hstep)
  constructor
  · intro n s hs
    simp [platform, World.empty] at hs
  · intro u c hc
    simp [platform, World.empty] at hc
  · intro u _ c hc
    simp [platform, World.empty] at hc
  · intro i c hc
    simp [platform, World.empty] at hc

/-! ## Stale entries -/

/-- The entries of `u` have an expiry, and they can no longer be read once no
session of `u` was open for as long as a presence TTL. -/
structure EntriesExpire (env : Env) (w : World) (u : String) : Prop where
  registry_expiry : ∀ c, w.shared.redis (registryKey u) = some c → c.deadline ≠ none
  presence_expiry : ∀ c, w.shared.redis (presenceKey u) = some c → c.deadline ≠ none
  stale : ∀ w', Reach ((platform env).startAt w) (fun w _ => ¬ w.openFor u) w' →
    w.shared.now + seconds env.presenceTtlSeconds ≤ w'.shared.now →
    w'.shared.redis.getStatus w'.shared.now u = "offline" ∧
      w'.shared.redis.lookup w'.shared.now u = none

/-- From any reachable state on, and for every user: its entries expire. -/
theorem entries_expire (h : Reachable env w) (hu : (UUID.ofString u).isSome = true) :
    EntriesExpire env w u := by
  have hd := Deadlines.of_reachable h
  refine ⟨fun _ => (hd.registry u).deadline_ne, fun _ => (hd.presence u hu).deadline_ne, ?_⟩
  intro w' hw' hlong
  -- the bound at the start stays a bound while no session is open
  have hbound : Running w' ∧
      w'.shared.redis.Bounded (registryKey u) (w.shared.now + seconds env.presenceTtlSeconds) ∧
      w'.shared.redis.Bounded (presenceKey u) (w.shared.now + seconds env.presenceTtlSeconds) := by
    refine hw'.invariant (I := fun v => Running v ∧ v.shared.redis.Bounded _ _ ∧
      v.shared.redis.Bounded _ _) ⟨hd.running, hd.registry u, hd.presence u hu⟩ ?_
    rintro v v' b - hclosed ⟨hrun, hreg, hpres⟩ hstep
    have hstep := World.stepped hstep
    exact ⟨hrun.step hstep, hstep.registry_bounded hrun hreg (absurd · hclosed),
      hstep.presence_bounded hrun hu hpres (absurd · hclosed)⟩
  obtain ⟨-, hreg, hpres⟩ := hbound
  constructor
  · rw [Redis.getStatus, hpres.get_eq_none hlong, PresenceStore.status]
  · rw [Redis.lookup, hreg.get_eq_none hlong, Option.map_none]

/-- The client is gone and the registry does not answer the cleanup. -/
def droppedRun : List Action :=
  soloRun ++ [.fail (.session 0), .ok (.session 0), .fail (.session 0)]

theorem entries_expire_dropped : ∃ w, (platform plainEnv).run .empty droppedRun = some w ∧
    w.shared.redis.lookup w.shared.now someUser = some "a" ∧
    EntriesExpire plainEnv w someUser := by
  obtain ⟨w, hrun, hlookup⟩ : ∃ w, (platform plainEnv).run .empty droppedRun = some w ∧
      w.shared.redis.lookup w.shared.now someUser = some "a" := ⟨_, rfl, rfl⟩
  exact ⟨w, hrun, hlookup, entries_expire (.of_run hrun) (by decide)⟩

end RealtimeNotify.App
