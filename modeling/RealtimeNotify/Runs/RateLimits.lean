import RealtimeNotify.App.RateLimiter

/-!
# What the limiter lets through

The limiter is called a token bucket. A bucket of `limit` tokens that fills at
`limit` a window admits `limit` calls at once and then keeps to its rate; two
windows of a counter that meet let nearly twice as many through. What the counter
never does is deny a call for which a bucket of the window's calls has room.
-/

namespace RealtimeNotify.App

open RealtimeNotify.Lib RealtimeNotify.Python

variable {limit window : Nat} {c : String} {w w' : RateWorld}

/-! ## The bound of a token bucket -/

/-- In every run, on every connection and in every interval, the calls that are
allowed keep within the bound of a token bucket. -/
def BucketBound (limit window : Nat) : Prop :=
  ∀ w, Reach (rateMachine limit window) (fun _ _ => True) w → ∀ c t T,
    allowedIn c t T w.calls * seconds window ≤ limit * (seconds window + T)

theorem allowedIn_eq (h : Counts limit window w) (t T : Nat) : allowedIn c t T w.calls =
    (FixedWindow.admitted limit (seconds window) (callTimes c w.calls)).countP
      fun s => t ≤ s ∧ s ≤ t + T :=
  countP_allowed h.verdicts fun s => decide (t ≤ s ∧ s ≤ t + T)

/-- What every limit keeps to: one call less than a window over the bound. -/
theorem allowedIn_le {m : Nat} (h : Counts (m + 1) window w) (c : String) (t T : Nat) :
    allowedIn c t T w.calls * seconds window
      ≤ (m + 1) * (seconds window + T) + m * seconds window := by
  rw [allowedIn_eq h]
  exact FixedWindow.admitted_countP_le (callTimes_ordered h.inOrder).1 t T

/-- Calls on a connection can come at any times. -/
theorem exists_run (limit window : Nat) {times : List Nat} (ho : FixedWindow.Ordered times)
    (c : String) :
    ∃ w, Reach (rateMachine limit window) (fun _ _ => True) w ∧ callTimes c w.calls = times ∧
      ∀ t, (∀ s ∈ times, s ≤ t) → w.now ≤ t := by
  induction times with
  | nil => exact ⟨_, .init, rfl, fun t _ => Nat.zero_le t⟩
  | cons t before ih =>
    obtain ⟨hle, ho⟩ := List.pairwise_cons.mp ho
    obtain ⟨w, hreach, htimes, hnow⟩ := ih ho
    have hlater := hnow t hle
    have htick : Reach (rateMachine limit window) (fun _ _ => True) { w with now := t } := by
      refine hreach.step (a := .tick (t - w.now)) trivial ?_
      show some _ = _
      rw [Nat.add_sub_cancel' hlater]
    have hstep := (Counts.of_reach htick).allow c
    refine ⟨_, htick.step (a := .allow c) trivial hstep, ?_, fun t' ht' => ht' t (by simp)⟩
    rw [callTimes_cons, if_pos rfl, htimes]

/-- The limiter keeps the bound of a token bucket iff its limit is one. -/
theorem bucketBound_iff (hlimit : 1 ≤ limit) (hwindow : 1 ≤ window) :
    BucketBound limit window ↔ limit = 1 := by
  constructor
  · intro hbound
    by_contra hne
    obtain ⟨m, rfl⟩ : ∃ m, limit = m + 2 := ⟨limit - 2, by omega⟩
    have hlong : 2 < seconds window := by
      unfold seconds
      omega
    obtain ⟨w, hreach, htimes, -⟩ := exists_run (m + 2) window
      (FixedWindow.burst_ordered m (seconds window)) ""
    have hle := hbound w hreach "" (seconds window - 1) 1
    rw [allowedIn_eq (Counts.of_reach hreach), htimes,
      FixedWindow.admitted_burst m (by omega)] at hle
    exact FixedWindow.burst_exceeds m hlong hle
  · rintro rfl w hreach c t T
    simpa using allowedIn_le (m := 0) (Counts.of_reach hreach) c t T

theorem bucketBound_iff_one : BucketBound 1 10 :=
  (bucketBound_iff (by decide) (by decide)).mpr rfl

/-- A limit of two a second: a call, another one at the end of the second, and two
more when it is over. -/
def boundaryRun : List RateAction :=
  [.allow "c", .tick 999999, .allow "c", .tick 2, .allow "c", .allow "c"]

/-- Three calls are allowed in an interval of two microseconds. -/
theorem bucketBound_exceeded : ∃ w,
    (rateMachine 2 1).run (rateMachine 2 1).init boundaryRun = some w ∧
    allowedIn "c" 999999 2 w.calls = 3 ∧
    ¬ allowedIn "c" 999999 2 w.calls * seconds 1 ≤ 2 * (seconds 1 + 2) :=
  ⟨_, rfl, rfl, by decide⟩

/-! ## Calls that are denied -/

/-- A call at `e.time` on the connection of `e` that was allowed, less than a window
ago. -/
def countsAgainst (window : Nat) (e e' : Timed RateCall) : Bool :=
  e'.what.connectionId = e.what.connectionId && e'.what.allowed &&
    decide (e.time < e'.time + seconds window ∧ e'.time ≤ e.time)

/-- A denied call has the limit of allowed calls against it, every key has a deadline
at most a window away, and a denied call leaves that of its key as it is. -/
structure DeniesRightly (limit window : Nat) (w : RateWorld) : Prop where
  enough : Each (fun e before => e.what.allowed = false →
    limit ≤ before.countP (countsAgainst window e)) w.calls
  expires : ∀ k, w.redis.Bounded k (w.now + seconds window)
  lockout : 1 ≤ limit → ∀ c w', w.step limit window (.allow c) = some w' →
    w'.calls.head?.map (·.what.allowed) = some false →
    (w'.redis (rateLimitKey c)).map (·.deadline) = (w.redis (rateLimitKey c)).map (·.deadline)

theorem enough_of_verdicts {calls : List (Timed RateCall)} {now : Nat}
    (hverdicts : Each (fun e before => e.what.allowed = FixedWindow.admits limit (seconds window)
      e.time (callTimes e.what.connectionId before)) calls) (ho : InOrder calls now) :
    Each (fun e before => e.what.allowed = false →
      limit ≤ before.countP (countsAgainst window e)) calls := by
  induction calls generalizing now with
  | nil => exact Each.nil
  | cons e before ih =>
    obtain ⟨hverdict, hrest⟩ := Each.cons_iff.mp hverdicts
    refine Each.cons_iff.mpr ⟨fun hdenied => ?_, ih hrest ho.2⟩
    obtain ⟨hordered, hle⟩ := callTimes_ordered (c := e.what.connectionId) ho.2
    have hfull := FixedWindow.limit_le_of_not_admits (List.pairwise_cons.mpr ⟨hle, hordered⟩)
      (hverdict.symm.trans hdenied)
    rw [← countP_allowed hrest fun s => decide (e.time < s + seconds window)] at hfull
    refine hfull.trans (List.countP_mono_left fun e' he' hcounts => ?_)
    have hbefore := ho.2.le he'
    simp only [Bool.and_eq_true, decide_eq_true_eq] at hcounts
    simp [countsAgainst, hcounts, hbefore]

theorem next_opened_le (h : Counts limit window w) (c : String) :
    (FixedWindow.next (seconds window) w.now
      (FixedWindow.window (seconds window) (callTimes c w.calls))).opened ≤ w.now := by
  obtain ⟨hordered, hle⟩ := callTimes_ordered (c := c) h.inOrder
  have ho : FixedWindow.Ordered (w.now :: callTimes c w.calls) :=
    List.pairwise_cons.mpr ⟨hle, hordered⟩
  exact ho.le_head (FixedWindow.opened_mem rfl)

theorem bounded_of_reach (h : Reach (rateMachine limit window) (fun _ _ => True) w) (k : String) :
    w.redis.Bounded k (w.now + seconds window) := by
  refine h.invariant (I := fun w => w.redis.Bounded k (w.now + seconds window)) ?_ ?_
  · intro c hc
    cases hc
  · intro w w' a hreach _ ih hstep
    cases a with
    | tick d =>
      obtain rfl := Option.some.inj hstep
      refine Store.Bounded.mono ih ?_
      show w.now + seconds window ≤ w.now + d + seconds window
      omega
    | allow c =>
      have hcounts := Counts.of_reach hreach
      obtain rfl := Option.some.inj ((hcounts.allow c).symm.trans hstep)
      have hopened := next_opened_le hcounts c
      by_cases hk : k = rateLimitKey c
      · subst hk
        exact Store.bounded_put (Nat.add_le_add_right hopened _)
      · exact Store.Bounded.congr ih (Store.put_ne hk)

/-- In every run, with any limit and window, and any calls on any connections. -/
theorem denies_rightly (h : Reach (rateMachine limit window) (fun _ _ => True) w) :
    DeniesRightly limit window w where
  enough := enough_of_verdicts (Counts.of_reach h).verdicts (Counts.of_reach h).inOrder
  expires := bounded_of_reach h
  lockout hlimit c w' hstep hdenied := by
    have hcounts := Counts.of_reach h
    obtain rfl := Option.some.inj ((hcounts.allow c).symm.trans hstep)
    have hover : FixedWindow.admits limit (seconds window) w.now (callTimes c w.calls) = false := by
      simpa using hdenied
    rcases FixedWindow.next_cases (seconds window) w.now
      (FixedWindow.window (seconds window) (callTimes c w.calls)) with
      ⟨win, hwin, -, hnext⟩ | ⟨-, hnext⟩
    · have hbefore : w.redis (rateLimitKey c) = some (storedWindow (seconds window) win) := by
        rw [hcounts.stored c, hwin]
        rfl
      rw [hbefore]
      simp [hnext, storedWindow]
    · -- the first call of a window is allowed
      simp [FixedWindow.admits, hnext] at hover
      omega

theorem denies_rightly_boundary : ∃ w,
    (rateMachine 2 1).run (rateMachine 2 1).init (boundaryRun ++ [.allow "c"]) = some w ∧
    w.calls.head?.map (·.what.allowed) = some false ∧ DeniesRightly 2 1 w := by
  obtain ⟨w, hrun, hdenied⟩ : ∃ w,
      (rateMachine 2 1).run (rateMachine 2 1).init (boundaryRun ++ [.allow "c"]) = some w ∧
      w.calls.head?.map (·.what.allowed) = some false := ⟨_, rfl, rfl⟩
  exact ⟨w, hrun, hdenied,
    denies_rightly (.of_actions (fun _ _ _ => trivial) hrun)⟩

end RealtimeNotify.App
