import RealtimeNotify.App.Frames

/-!
# Steady runs

Runs in which no startup and no subscriber raises, no instance is shut down, and
registry and liveness keys are not left to expire. Instances may boot and crash
at any time, sessions and requests may fail at any step. In a steady run an
instance that serves listens on its channel and is known to be alive, and every
session that has not ended is on an instance that serves.
-/

namespace RealtimeNotify.App

open RealtimeNotify.Lib RealtimeNotify.Python

/-- The startup of an instance and its subscriber do not raise. -/
def smooth : TaskId → Outcome Choice → Bool
  | .subscriber _, .ok _ | .lifespan _, .ok _ => true
  | .subscriber _, _ | .lifespan _, _ => false
  | _, _ => true

/-- An instance that serves goes on to serve. -/
def staysUp (w : World) : TaskId → Bool
  | .lifespan i => !w.serves i
  | _ => true

/-- The registry and liveness keys that can be read can be read `d` later. -/
def World.KeepsKeys (w : World) (d : Nat) : Prop :=
  ∀ k, keyInitial k = some 'u' ∨ keyInitial k = some 'i' →
    (w.shared.redis.get w.shared.now k).isSome = true →
    (w.shared.redis.get (w.shared.now + d) k).isSome = true

def steady (w : World) : Action → Prop
  | .tick d => w.KeepsKeys d
  | .task id o => smooth id o = true ∧ staysUp w id = true
  | _ => True

/-- On the way to `yield`, or there. -/
def LifespanPc.up : LifespanPc → Bool
  | subscribing | markingAlive | serving => true
  | _ => false

/-- Alive, and no send has failed. -/
def SubscriberPc.up : SubscriberPc → Bool
  | listening | delivering _ | sending _ _ _ => true
  | dropping _ _ | dead => false

variable {env : Env} {w w' : World} {a : Action} {i : String}

theorem World.serves_iff :
    w.serves i = true ↔ ∃ p, w.processes i = some p ∧ p.lifespan = .serving := by
  unfold serves
  split
  · rename_i p _ _ hp
    simp [hp]
  · rename_i hne
    simp only [Bool.false_eq_true, false_iff, not_exists, not_and]
    rintro ⟨lifespan, subscriber, liveness⟩ hp rfl
    exact hne _ _ hp

/-! ## The invariant -/

structure Up (w : World) : Prop where
  lifespan : ∀ i p, w.processes i = some p → p.lifespan.up = true
  subscriber : ∀ i p, w.processes i = some p → p.subscriber.up = true
  channel : ∀ i p, w.processes i = some p → p.lifespan ≠ .subscribing →
    w.shared.channels (instanceChannel i) ≠ none
  alive : ∀ i, w.serves i = true →
    (w.shared.redis.get w.shared.now (livenessKey i)).isSome = true
  session : ∀ n s, w.sessions n = some s → s.pc ≠ .ended → w.serves s.instanceId = true

theorem Up.init : Up .empty where
  lifespan := by simp [World.empty]
  subscriber := by simp [World.empty]
  channel := by simp [World.empty]
  alive := by simp [World.empty, World.serves]
  session := by simp [World.empty]

theorem smooth_subscriber {o : Outcome Choice} (h : smooth (.subscriber i) o = true) :
    ∃ c, o = .ok c := by
  cases o with
  | ok c => exact ⟨c, rfl⟩
  | _ => cases h

theorem smooth_lifespan {o : Outcome Choice} (h : smooth (.lifespan i) o = true) :
    ∃ c, o = .ok c := by
  cases o with
  | ok c => exact ⟨c, rfl⟩
  | _ => cases h

/-- A task that does not raise goes on with a reply. -/
theorem advances_ok {Pc : Type} {next : Step Pc} {s sh : Shared} {pc : Pc}
    {e : Happened Op Op.Reply} {c : Choice} (h : Advances semantics s next (.ok c) sh pc e) :
    ∃ op k r reply, next = .call op k r ∧ s.exec op c = some (sh, reply) ∧ pc = k reply ∧
      e = .returned op reply := by
  cases h with
  | @returned op k r _ _ reply hn hx => exact ⟨op, k, r, reply, hn, hx, rfl, rfl⟩

theorem LifespanPc.up_next {pc : LifespanPc} {op : Op} {k : op.Reply → LifespanPc}
    {r : LifespanPc} (hn : pc.next env i = .call op k r) (hup : pc.up = true)
    (hserving : pc ≠ .serving) (reply : op.Reply) : (k reply).up = true := by
  cases pc <;> simp_all [up]
  all_goals
    cases hn
    rfl

theorem SubscriberPc.up_next {pc : SubscriberPc} {op : Op} {k : op.Reply → SubscriberPc}
    {r : SubscriberPc} (hn : pc.next i = .call op k r) (hup : pc.up = true)
    (reply : op.Reply) : (k reply).up = true := by
  cases pc with
  | listening | sending _ _ _ =>
    cases hn
    rfl
  | delivering message =>
    cases hn
    cases reply <;> rfl
  | dropping _ _ | dead => cases hup

/-! ## One step -/

theorem steady.serves_next (hg : steady w a) (h : Stepped env w a w')
    (hi : w.serves i = true) : a = .crash i ∨ w'.serves i = true := by
  obtain ⟨p, hp, hserving⟩ := World.serves_iff.mp hi
  rcases h.process_next hp with hcrash | ⟨p', hp', hlife | ⟨o, rfl⟩, -⟩
  · exact .inl hcrash
  · exact .inr (World.serves_iff.mpr ⟨p', hp', hlife.trans hserving⟩)
  · have hstays : staysUp w (.lifespan i) = true := hg.2
    simp [staysUp, hi] at hstays

theorem Up.lifespan_step (hup : Up w) (h : Stepped env w a w') (hg : steady w a)
    {p' : Process} (hp' : w'.processes i = some p') : p'.lifespan.up = true := by
  cases h.process_cases hp' with
  | same hp => exact hup.lifespan i p' hp
  | new _ _ _ => rfl
  | @subscriber p _ _ _ _ hp _ _ _ _ _ => exact hup.lifespan i p hp
  | @liveness p _ _ _ _ hp _ _ _ _ => exact hup.lifespan i p hp
  | @lifespan p o _ _ _ hp ha hadv _ _ =>
    subst ha
    obtain ⟨c, rfl⟩ := smooth_lifespan hg.1
    obtain ⟨op, k, r, reply, hn, -, rfl, -⟩ := advances_ok hadv
    refine LifespanPc.up_next hn (hup.lifespan i p hp) (fun hserving => ?_) reply
    have hstays : staysUp w (.lifespan i) = true := hg.2
    simp [staysUp, World.serves_iff.mpr ⟨p, hp, hserving⟩] at hstays

theorem Up.subscriber_step (hup : Up w) (h : Stepped env w a w') (hg : steady w a)
    {p' : Process} (hp' : w'.processes i = some p') : p'.subscriber.up = true := by
  cases h.process_cases hp' with
  | same hp => exact hup.subscriber i p' hp
  | new _ _ _ => rfl
  | @lifespan p _ _ _ _ hp _ _ _ _ => exact hup.subscriber i p hp
  | @liveness p _ _ _ _ hp _ _ _ _ => exact hup.subscriber i p hp
  | @subscriber p o _ _ _ hp ha _ hadv _ _ =>
    subst ha
    obtain ⟨c, rfl⟩ := smooth_subscriber hg.1
    obtain ⟨op, k, r, reply, hn, -, rfl, -⟩ := advances_ok hadv
    exact SubscriberPc.up_next hn (hup.subscriber i p hp) reply

/-- A subscription that stands is not given up, unless the instance crashes. -/
theorem Up.channel_kept (hup : Up w) (h : Stepped env w a w')
    (hc : w.shared.channels (instanceChannel i) ≠ none) :
    a = .crash i ∨ w'.shared.channels (instanceChannel i) ≠ none := by
  have hset : ∀ {j queue}, (w.shared.setChannel j (some queue)).channels (instanceChannel i)
      ≠ none := by
    intro j queue
    by_cases hij : i = j
    · simp [Shared.setChannel, hij]
    · simpa [Shared.setChannel, hij] using hc
  have heffect : ∀ {id op c sh} {reply : op.Reply}, w.awaits env id = some op →
      w.shared.exec op c = some (sh, reply) → sh.channels (instanceChannel i) ≠ none := by
    intro id op c sh reply ha hx
    cases Shared.exec_channels hx with
    | kept hsame => rwa [hsame]
    | published hpub =>
      rw [hpub, Shared.publish]
      split
      · exact hset
      · exact hc
    | subscribed hsub =>
      rw [hsub]
      exact hset
    | taken _ htake =>
      rw [htake]
      exact hset
    | unsubscribed _ =>
      -- only a lifespan that has left `yield` unsubscribes
      cases World.localCaller ha rfl with
      | unsubscribe hp hpc =>
        have hlife := hup.lifespan _ _ hp
        rw [hpc] at hlife
        cases hlife
  obtain ⟨sh, log, hsh, -, ht⟩ := h.touched
  rw [hsh]
  cases ht with
  | tick | expireDedup | started _ | raised _ _ => exact .inr hc
  | @crash j =>
    by_cases hij : i = j
    · exact .inl (by rw [hij])
    · exact .inr (by simpa [Shared.setConnections, Shared.setChannel, hij] using hc)
  | returned ha hx => exact .inr (heffect ha hx)
  | applied ha _ hx => exact .inr (heffect ha hx)

theorem Up.channel_step (hup : Up w) (h : Stepped env w a w') (hg : steady w a)
    {p' : Process} (hp' : w'.processes i = some p') (hsub : p'.lifespan ≠ .subscribing) :
    w'.shared.channels (instanceChannel i) ≠ none := by
  have hkept : ∀ p, w.processes i = some p → p.lifespan ≠ .subscribing →
      w'.shared.channels (instanceChannel i) ≠ none := by
    intro p hp hne
    refine (hup.channel_kept h (hup.channel i p hp hne)).resolve_left ?_
    rintro rfl
    cases h with
    | crash _ => simp [World.crash] at hp'
  cases h.process_cases hp' with
  | same hp => exact hkept p' hp hsub
  | new _ _ _ => exact absurd rfl hsub
  | @subscriber p _ _ _ _ hp _ _ _ _ _ => exact hkept p hp hsub
  | @liveness p _ _ _ _ hp _ _ _ _ => exact hkept p hp hsub
  | @lifespan p o _ _ _ hp ha hadv hsh _ =>
    by_cases hne : p.lifespan = .subscribing
    · subst ha
      obtain ⟨c, rfl⟩ := smooth_lifespan hg.1
      obtain ⟨op, k, r, reply, hn, hx, -, -⟩ := advances_ok hadv
      rw [hne] at hn
      cases hn
      have hexec : w.shared.setChannel i (some []) = _ := (Prod.mk.inj (Option.some.inj hx)).1
      rw [hsh, ← hexec]
      simp [Shared.setChannel]
    · exact hkept p hp hne

/-- A liveness key that can be read stays so. -/
theorem alive_kept (h : Stepped env w a w') (hg : steady w a)
    (hi : (w.shared.redis.get w.shared.now (livenessKey i)).isSome = true) :
    (w'.shared.redis.get w'.shared.now (livenessKey i)).isSome = true := by
  rcases h.now_cases with hnow | ⟨d, rfl, -⟩
  · rw [hnow]
    cases h.key_cases (livenessKey i) with
    | kept hk => rwa [Store.get_congr hk]
    | evicted _ hk => exact absurd hk (ne_of_keyInitial (by simp))
    | sent _ _ haw hk hx hsh =>
      rw [hsh]
      cases World.livenessCaller haw hk with
      | start _ _ | beat _ _ => simp [RedisCmd.get_exec_set hx]
      | isAlive _ _ =>
        obtain ⟨rfl, -⟩ := by simpa [RedisCmd.exec, InstanceRegistry.isAlive] using hx
        exact hi
  · cases h with
    | tick => exact hg (livenessKey i) (.inr (by simp)) hi

theorem Up.alive_step (hup : Up w) (h : Stepped env w a w') (hg : steady w a)
    (hi : w'.serves i = true) :
    (w'.shared.redis.get w'.shared.now (livenessKey i)).isSome = true := by
  have hkept : ∀ p, w.processes i = some p → p.lifespan = .serving →
      (w'.shared.redis.get w'.shared.now (livenessKey i)).isSome = true := fun p hp hserving =>
    alive_kept h hg (hup.alive i (World.serves_iff.mpr ⟨p, hp, hserving⟩))
  obtain ⟨p', hp', hserving⟩ := World.serves_iff.mp hi
  cases h.process_cases hp' with
  | same hp => exact hkept p' hp hserving
  | new _ _ _ => cases hserving
  | @subscriber p _ _ _ _ hp _ _ _ _ _ => exact hkept p hp hserving
  | @liveness p _ _ _ _ hp _ _ _ _ => exact hkept p hp hserving
  | @lifespan p o _ _ _ hp ha hadv hsh _ =>
    subst ha
    obtain ⟨c, rfl⟩ := smooth_lifespan hg.1
    obtain ⟨op, k, r, reply, hn, hx, hpc, -⟩ := advances_ok hadv
    have hlife := hup.lifespan i p hp
    cases hfrom : p.lifespan with
    | markingAlive =>
      rw [hfrom] at hn
      cases hn
      obtain ⟨redis, hcmd, rfl⟩ := Shared.exec_redis hx
      rw [hsh]
      simp [RedisCmd.get_exec_set hcmd]
    | serving => exact hkept p hp hfrom
    | subscribing =>
      rw [hfrom] at hn
      cases hn
      rw [hpc] at hserving
      cases hserving
    | _ =>
      rw [hfrom] at hlife
      cases hlife

theorem Up.session_step (hup : Up w) (h : Stepped env w a w') (hg : steady w a) {n : Nat}
    {s' : Session} (hs' : w'.sessions n = some s') (hpc : s'.pc ≠ .ended) :
    w'.serves s'.instanceId = true := by
  have hkept : ∀ {j}, a ≠ .crash j → w.serves j = true → w'.serves j = true := fun ha hj =>
    (hg.serves_next h hj).resolve_left ha
  cases h.session_cases hs' with
  | same hs _ hcrash => exact hkept hcrash (hup.session n s' hs hpc)
  | new _ hi ha _ => exact hkept (by simp [ha]) hi
  | killed _ _ _ => exact absurd rfl hpc
  | @moved s _ _ _ _ hs ha hadv _ _ =>
    refine hkept (by simp [ha]) (hup.session n s hs fun hended => ?_)
    rw [hended] at hadv
    cases hadv with
    | returned hn _ | raised hn _ | applied hn _ _ => cases hn

theorem Up.step (hup : Up w) (h : Stepped env w a w') (hg : steady w a) : Up w' where
  lifespan _ _ := hup.lifespan_step h hg
  subscriber _ _ := hup.subscriber_step h hg
  channel _ _ := hup.channel_step h hg
  alive _ := hup.alive_step h hg
  session _ _ := hup.session_step h hg

theorem Up.of_reach (h : Reach (platform env) steady w) : Up w :=
  h.invariant .init fun _ hg ih hstep => ih.step (World.stepped hstep) hg

end RealtimeNotify.App
