import RealtimeNotify.App.Frames
import RealtimeNotify.Lib.Counting
import RealtimeNotify.Lib.Lease

/-!
# The liveness key of a running instance

The loop refreshes the key of its instance three times within its TTL, and logs a
refresh that raises. A cycle goes from one sleep of the loop to the next: the first
begins where `start()` returns. While two cycles fit into the TTL and no two refreshes
in a row raise, the key is there, since a refresh leads back to the sleep whether it
raised or not.
-/

namespace RealtimeNotify.App

open RealtimeNotify.Lib RealtimeNotify.Python

/-! ## The loop -/

/-- `max(1, ttl_seconds // 3)`. -/
def livenessInterval (ttlSeconds : Nat) : Nat := max 1 (ttlSeconds / 3)

/-- Two intervals fit into the TTL. -/
theorem two_intervals_lt {ttl : Nat} (h : 3 ≤ ttl) : 2 * livenessInterval ttl < ttl := by
  unfold livenessInterval
  omega

/-- From the end of `start()` to the call of `stop()`. A shutdown that raises ends
the process. -/
def LifespanPc.refreshing : LifespanPc → Bool
  | serving | collecting | popping _ _ _ | closing _ _ _ | unregistering _ _
  | clearing _ _ => true
  | subscribing | markingAlive | stoppingLiveness | unsubscribing | stopped | failed => false

/-- The loop is in its `asyncio.sleep`. -/
def LivenessPc.asleep : LivenessPc → Bool
  | sleeping => true
  | markingAlive => false

/-- `i` has started its loop, and has not stopped it. -/
def World.refreshes (w : World) (i : String) : Bool :=
  (w.processes i).any (·.lifespan.refreshing)

/-- The loop of `i` sleeps. -/
def World.loopAsleep (w : World) (i : String) : Bool :=
  (w.processes i).any (·.liveness.asleep)

/-- `InstanceRegistry.is_alive`. -/
def World.isAlive (w : World) (i : String) : Bool :=
  (w.shared.redis.get w.shared.now (livenessKey i)).isSome

/-- The cycle that the loop of `i` is in after a step: when it began, and whether the
refresh before it raised. One begins where `start()` returns, and where a step of the
loop leaves it asleep. -/
def noteCycle (i : String) (w : World) (a : Action) (w' : World) (cycle : Option Beat) :
    Option Beat :=
  match a with
  | .task (.lifespan j) _ =>
      if j = i ∧ w.refreshes i = false ∧ w'.refreshes i = true then some ⟨w.shared.now, false⟩
      else cycle
  | .task (.liveness j) o =>
      if j = i ∧ w'.loopAsleep i = true then some ⟨w.shared.now, o.raises⟩ else cycle
  | _ => cycle

/-- The platform with the cycles of the loop of `i`. -/
def cycling (env : Env) (i : String) : Machine (World × Option Beat) Action :=
  (platform env).noting none (noteCycle i)

/-- A cycle, `d` microseconds longer than the interval. -/
def livenessCycle (env : Env) (d : Nat) : Nat :=
  seconds (livenessInterval env.instanceLivenessTtlSeconds) + d

/-- While the loop of `i` awaits something, its cycle takes no longer, and the cycle after
a refresh that raised does not end in another. How much of a cycle is sleep is left open:
`asyncio.sleep` takes the interval at least. -/
def keepsCycles (env : Env) (d : Nat) (i : String) (p : World × Option Beat) : Action → Prop
  | .tick t => p.1.refreshes i = true → (p.1.awaits env (.liveness i)).isSome = true →
      ∀ b ∈ p.2, p.1.shared.now + t ≤ b.time + livenessCycle env d
  | .task (.liveness j) o => j = i → ∀ b ∈ p.2, b.failed = true → o.raises = false
  | _ => True

instance keepsCycles.decidable (env : Env) (d : Nat) (i : String) (p : World × Option Beat) :
    ∀ a, Decidable (keepsCycles env d i p a)
  | .tick _ => inferInstanceAs (Decidable (_ → _ → ∀ b ∈ p.2, _))
  | .task (.liveness _) _ => inferInstanceAs (Decidable (_ → ∀ b ∈ p.2, _))
  | .task (.session _) _ | .task (.request _) _ | .task (.ticketRequest _) _
  | .task (.subscriber _) _ | .task (.lifespan _) _ | .expireDedup _ | .boot _ | .crash _
  | .connect _ _ _ _ | .post _ _ _ _ | .issue _ _ _ _ => .isTrue trivial

variable {env : Env} {w w' : World} {a : Action} {i : String} {d : Nat}

/-! ## What a step does to the key -/

theorem World.refreshes_iff : w.refreshes i = true ↔
    ∃ p, w.processes i = some p ∧ p.lifespan.refreshing = true := by
  rw [refreshes, Option.any_eq_true]

/-- Only a `start()` that returns brings the loop about. -/
theorem LifespanPc.refreshing_next {pc : LifespanPc} {op : Op} {k : op.Reply → LifespanPc}
    {r : LifespanPc} (hn : pc.next env i = .call op k r) (hpc : pc.refreshing = false) :
    r.refreshing = false ∧ ∀ reply, (k reply).refreshing = true → pc = .markingAlive := by
  cases pc with
  | subscribing | stoppingLiveness | unsubscribing =>
    cases hn
    exact ⟨rfl, nofun⟩
  | markingAlive =>
    cases hn
    exact ⟨rfl, fun _ _ => rfl⟩
  | stopped | failed => cases hn
  | serving | collecting | popping _ _ _ | closing _ _ _ | unregistering _ _ | clearing _ _ =>
    cases hpc

/-- The loop of an instance runs on, or its `start()` has just returned. -/
theorem Stepped.refreshes_cases (h : Stepped env w a w') (hi : w'.refreshes i = true) :
    w.refreshes i = true ∨ ∃ c, a = .task (.lifespan i) (.ok c) ∧
      w.awaits env (.lifespan i)
        = some (.redis (InstanceRegistry.markAlive i env.instanceLivenessTtlSeconds)) := by
  obtain ⟨p', hp', hrefreshing⟩ := World.refreshes_iff.mp hi
  cases h.process_cases hp' with
  | same hp => exact .inl (World.refreshes_iff.mpr ⟨_, hp, hrefreshing⟩)
  | new _ _ _ => cases hrefreshing
  | subscriber hp _ _ _ _ _ => exact .inl (World.refreshes_iff.mpr ⟨_, hp, hrefreshing⟩)
  | liveness hp _ _ _ _ => exact .inl (World.refreshes_iff.mpr ⟨_, hp, hrefreshing⟩)
  | @lifespan p o sh pc e hp ha hadv _ _ =>
    cases hfrom : p.lifespan.refreshing with
    | true => exact .inl (World.refreshes_iff.mpr ⟨p, hp, hfrom⟩)
    | false =>
      cases hadv with
      | returned hn _ =>
        have hpc := (LifespanPc.refreshing_next hn hfrom).2 _ hrefreshing
        refine .inr ⟨_, ha, ?_⟩
        rw [World.awaits_lifespan hp, hpc]
        rfl
      | raised hn _ | applied hn _ _ =>
        rw [(LifespanPc.refreshing_next hn hfrom).1] at hrefreshing
        cases hrefreshing

/-- The loop never comes to an end by itself. -/
theorem World.loop_awaits (h : w.refreshes i = true) :
    (w.awaits env (.liveness i)).isSome = true := by
  obtain ⟨p, hp, -⟩ := refreshes_iff.mp h
  rw [World.awaits_liveness hp]
  cases p.liveness <;> rfl

/-- What a step of the loop does: it wakes up, or its refresh was answered, lost or with an
effect, and it sleeps again. -/
inductive LoopMove (env : Env) (i : String) (s : Shared) :
    Outcome Choice → Shared → LivenessPc → Prop where
  | woken {c} : LoopMove env i s (.ok c) s .markingAlive
  | missed : LoopMove env i s .fail s .sleeping
  | refreshed {o sh} : sh.now = s.now → sh.redis (livenessKey i) = some ⟨.text "1",
      some (s.now + seconds env.instanceLivenessTtlSeconds)⟩ → LoopMove env i s o sh .sleeping

/-- A `mark_alive` that takes effect grants the key for the TTL. -/
theorem exec_markAlive {s sh : Shared} {c : Choice}
    {reply : (InstanceRegistry.markAlive i env.instanceLivenessTtlSeconds).Reply}
    (hx : s.exec (.redis (InstanceRegistry.markAlive i env.instanceLivenessTtlSeconds)) c
      = some (sh, reply)) :
    sh.now = s.now ∧ sh.redis (livenessKey i) = some ⟨.text "1",
      some (s.now + seconds env.instanceLivenessTtlSeconds)⟩ := by
  obtain ⟨r, hcmd, rfl⟩ := Shared.exec_redis hx
  exact ⟨rfl, by rw [RedisCmd.exec_set hcmd]; exact Store.put_self⟩

theorem LivenessPc.move {pc pc' : LivenessPc} {s sh : Shared} {o : Outcome Choice}
    {e : Happened Op Op.Reply} (h : Advances semantics s (pc.next env i) o sh pc' e) :
    LoopMove env i s o sh pc' := by
  cases pc with
  | sleeping =>
    cases h with
    | returned hn hx =>
      cases hn
      cases hx
      exact .woken
    | raised hn hf | applied hn hf _ =>
      -- a sleep does not raise
      cases hn
      cases hf
  | markingAlive =>
    cases h with
    | @returned _ _ _ c _ _ hn hx =>
      cases hn
      obtain ⟨hnow, hkey⟩ := exec_markAlive (c := c) hx
      exact .refreshed hnow hkey
    | @applied _ _ _ c _ _ hn _ hx =>
      cases hn
      obtain ⟨hnow, hkey⟩ := exec_markAlive (c := c) hx
      exact .refreshed hnow hkey
    | raised hn _ =>
      cases hn
      exact .missed

theorem Stepped.loop_move {o : Outcome Choice}
    (h : Stepped env w (.task (.liveness i) o) w') : ∃ sh pc, w'.shared = sh ∧
      w'.loopAsleep i = pc.asleep ∧ LoopMove env i w.shared o sh pc := by
  cases h with
  | liveness _ _ hadv =>
    refine ⟨_, _, rfl, ?_, LivenessPc.move hadv⟩
    simp [World.loopAsleep, World.setProcess]

/-- While the loop runs, only its own steps touch the key. -/
theorem Stepped.key_kept (h : Stepped env w a w') (hi : w.refreshes i = true)
    (hloop : ∀ o, a ≠ .task (.liveness i) o) :
    w'.shared.redis (livenessKey i) = w.shared.redis (livenessKey i) := by
  cases h.key_cases (livenessKey i) with
  | kept hkept => exact hkept
  | evicted _ hk => exact absurd hk (ne_of_keyInitial (by simp))
  | sent ha _ haw hk hx hsh =>
    cases World.livenessCaller haw hk with
    | start hp hpc =>
      obtain ⟨p, hp', hrefreshing⟩ := World.refreshes_iff.mp hi
      obtain rfl := Option.some.inj (hp.symm.trans hp')
      rw [hpc] at hrefreshing
      cases hrefreshing
    | beat _ _ => exact absurd ha (hloop _)
    | isAlive _ _ =>
      obtain ⟨rfl, -⟩ := by simpa [RedisCmd.exec, InstanceRegistry.isAlive] using hx
      rw [hsh]

/-- Neither does another step touch the cycle. -/
theorem noteCycle_kept {cycle : Option Beat} (hi : w.refreshes i = true)
    (hloop : ∀ o, a ≠ .task (.liveness i) o) : noteCycle i w a w' cycle = cycle := by
  cases a with
  | task id o =>
    cases id with
    | lifespan j => exact if_neg fun h => by simp [hi] at h
    | liveness j =>
      refine if_neg fun h => ?_
      rw [h.1] at hloop
      exact hloop o rfl
    | _ => rfl
  | _ => rfl

/-! ## The invariant -/

/-- The deadline of the key covers the cycle that the loop is in. -/
def Marked (env : Env) (d : Nat) (i : String) (p : World × Option Beat) : Prop :=
  ∃ b v deadline, p.2 = some b ∧
    p.1.shared.redis (livenessKey i) = some ⟨v, some deadline⟩ ∧
    b.Covers (seconds env.instanceLivenessTtlSeconds) (livenessCycle env d) deadline
      p.1.shared.now

variable {cycle : Option Beat}

theorem Marked.isAlive {p : World × Option Beat} (h : Marked env d i p)
    (hd : 2 * livenessCycle env d < seconds env.instanceLivenessTtlSeconds) :
    p.1.isAlive i = true := by
  obtain ⟨b, v, deadline, -, hkey, hcovers⟩ := h
  rw [World.isAlive, Store.get_of_deadline hkey (hcovers.now_lt hd)]
  rfl

/-- `start()` returns after a `mark_alive` that did not raise. -/
theorem Marked.started (h : Stepped env w a w') (hold : w.refreshes i = false)
    (hi : w'.refreshes i = true) : Marked env d i (w', noteCycle i w a w' cycle) := by
  obtain ⟨c, rfl, haw⟩ := (h.refreshes_cases hi).resolve_left (by simp [hold])
  obtain ⟨sh, log, hsh, -, ht⟩ := h.touched
  cases ht with
  | started hne => exact absurd rfl (hne _ _)
  | returned haw' hx =>
    obtain rfl := Option.some.inj (haw.symm.trans haw')
    obtain ⟨hnow, hkey⟩ := exec_markAlive hx
    refine ⟨_, _, _, if_pos ⟨rfl, hold, hi⟩, by rw [hsh, hkey], ?_⟩
    rw [hsh, hnow]
    exact .grant

/-- A step of the loop: it goes on in its cycle, or another one begins. -/
theorem Marked.beat {o : Outcome Choice} (h : Marked env d i (w, cycle))
    (hstep : Stepped env w (.task (.liveness i) o) w')
    (hg : keepsCycles env d i (w, cycle) (.task (.liveness i) o)) :
    Marked env d i (w', noteCycle i w (.task (.liveness i) o) w' cycle) := by
  obtain ⟨b, v, deadline, rfl, hkey, hcovers⟩ := h
  obtain ⟨sh, pc, hsh, hasleep, hmove⟩ := hstep.loop_move
  cases hmove with
  | woken =>
    refine ⟨b, v, deadline, if_neg fun hbegins => ?_, by rw [hsh, hkey], by rwa [hsh]⟩
    rw [hasleep] at hbegins
    cases hbegins.2
  | missed =>
    have hb : b.failed = false := by
      cases hfailed : b.failed with
      | false => rfl
      | true => cases hg rfl b rfl hfailed
    refine ⟨⟨w.shared.now, true⟩, v, deadline, if_pos ⟨rfl, hasleep⟩, by rw [hsh, hkey], ?_⟩
    rw [hsh]
    exact hcovers.miss hb
  | refreshed hnow hkey' =>
    refine ⟨⟨w.shared.now, o.raises⟩, _, _, if_pos ⟨rfl, hasleep⟩, by rw [hsh, hkey'], ?_⟩
    rw [hsh, hnow]
    exact .grant

/-- Any other step while the loop runs. -/
theorem Marked.kept (h : Marked env d i (w, cycle)) (hstep : Stepped env w a w')
    (hi : w.refreshes i = true) (hloop : ∀ o, a ≠ .task (.liveness i) o)
    (hg : keepsCycles env d i (w, cycle) a) :
    Marked env d i (w', noteCycle i w a w' cycle) := by
  obtain ⟨b, v, deadline, rfl, hkey, hcovers⟩ := h
  refine ⟨b, v, deadline, noteCycle_kept hi hloop, (hstep.key_kept hi hloop).trans hkey, ?_⟩
  rcases hstep.now_cases with hnow | ⟨t, rfl, hnow⟩
  · rw [hnow]
    exact hcovers
  · rw [hnow]
    exact hcovers.elapse (hg hi (World.loop_awaits hi) b rfl)

theorem Marked.step (h : w.refreshes i = true → Marked env d i (w, cycle))
    (hstep : Stepped env w a w') (hg : keepsCycles env d i (w, cycle) a)
    (hi : w'.refreshes i = true) : Marked env d i (w', noteCycle i w a w' cycle) := by
  cases hold : w.refreshes i with
  | false => exact .started hstep hold hi
  | true =>
    by_cases hloop : ∃ o, a = .task (.liveness i) o
    · obtain ⟨o, rfl⟩ := hloop
      exact (h hold).beat hstep hg
    · exact (h hold).kept hstep hold (by simpa using hloop) hg

theorem Marked.of_reach {p : World × Option Beat}
    (h : Reach (cycling env i) (keepsCycles env d i) p) :
    p.1.refreshes i = true → Marked env d i p := by
  refine h.invariant (I := fun p => p.1.refreshes i = true → Marked env d i p)
    (fun hi => ?_) fun {p p' a} _ hg ih hstep hi => ?_
  · cases hi
  · obtain ⟨hworld, hnote⟩ := Machine.noting_step.mp hstep
    rw [← Prod.eta p', hnote]
    exact Marked.step ih (World.stepped hworld) hg hi

/-- A request that finds the key there goes on to publish. -/
theorem World.publishes_of_alive {n : Nat} {r : PostRequest} {row : Notification}
    {owner : String} {c : Choice} (hr : w.requests n = some r) (hpc : r.pc = .isAlive row owner)
    (halive : w.isAlive owner = true) (h : w.step env (.task (.request n) (.ok c)) = some w') :
    ∃ r', w'.requests n = some r' ∧ r'.pc = .publish row owner := by
  cases World.stepped h with
  | @request _ r' _ sh pc e hr' hadv =>
    obtain rfl := Option.some.inj (hr.symm.trans hr')
    rw [hpc] at hadv
    cases hadv with
    | returned hn hx =>
      cases hn
      -- `EXISTS` answers with what `is_alive` returns
      have hreply : some (w.shared, w.isAlive owner) = some (sh, _) := hx
      obtain ⟨rfl, rfl⟩ := Prod.mk.inj (Option.some.inj hreply)
      refine ⟨_, Function.update_self .., ?_⟩
      exact if_pos halive

/-- With a TTL of three seconds or more, two intervals leave time for delays, and
however these fall and whatever raises now and then: an instance is alive as long
as its loop runs, and no notification for it is left to the backlog for want of
its key. -/
theorem running_instance_alive (env : Env) (httl : 3 ≤ env.instanceLivenessTtlSeconds) :
    2 * livenessInterval env.instanceLivenessTtlSeconds < env.instanceLivenessTtlSeconds ∧
    ∀ d, 2 * livenessCycle env d < seconds env.instanceLivenessTtlSeconds →
      ∀ i w cycle, Reach (cycling env i) (keepsCycles env d i) (w, cycle) →
        w.refreshes i = true →
        w.isAlive i = true ∧
        ∀ n r row c w', w.requests n = some r → r.pc = .isAlive row i →
          w.step env (.task (.request n) (.ok c)) = some w' →
          ∃ r', w'.requests n = some r' ∧ r'.pc = .publish row i := by
  refine ⟨two_intervals_lt httl, fun d hd i w cycle h hi => ?_⟩
  have halive : w.isAlive i = true := (Marked.of_reach h hi).isAlive hd
  exact ⟨halive, fun n r row c w' hr hpc hstep =>
    World.publishes_of_alive hr hpc halive hstep⟩

/-- The first refresh comes a second late and raises; a cycle later the next one is
about to be sent. -/
def missedRun : List Action :=
  Action.startup "a" ++ [.tick (seconds 6), .ok (.liveness "a"), .fail (.liveness "a"),
    .tick (seconds 6), .ok (.liveness "a")]

theorem missedRun_meets :
    (cycling plainEnv "a").Meets (keepsCycles plainEnv (seconds 1) "a") (.empty, none)
      missedRun := by
  decide

theorem running_instance_alive_missed :
    ∃ w cycle, (cycling plainEnv "a").run (.empty, none) missedRun = some (w, cycle) ∧
      w.isAlive "a" = true := by
  obtain ⟨-, halive⟩ := running_instance_alive plainEnv (by decide)
  refine ⟨_, _, rfl,
    (halive (seconds 1) (by decide) "a" _ _ (.of_run .init missedRun_meets rfl) ?_).1⟩
  rfl

end RealtimeNotify.App
