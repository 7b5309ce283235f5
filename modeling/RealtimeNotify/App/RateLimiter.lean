import RealtimeNotify.App.Redis
import RealtimeNotify.Lib.FixedWindow
import RealtimeNotify.Lib.History
import RealtimeNotify.Lib.Lease
import RealtimeNotify.Lib.Machine

/-!
# `RateLimiter`

The script of the limiter counts the calls of a fixed window, whatever its name
says: the key of a connection has the counter of the window its calls have opened.
The machine has the clock, the store, and the calls with their verdicts, the
latest first.
-/

namespace RealtimeNotify.App

open RealtimeNotify.Lib RealtimeNotify.Python

/-! ## Calls over time -/

structure RateCall where
  connectionId : String
  allowed : Bool

structure RateWorld where
  now : Nat
  redis : Redis
  calls : List (Timed RateCall)

inductive RateAction where
  | tick (microseconds : Nat)
  | allow (connectionId : String)

def RateWorld.step (limit window : Nat) (w : RateWorld) : RateAction → Option RateWorld
  | .tick d => some { w with now := w.now + d }
  | .allow c => ((RateLimiter.allow c limit window).exec w.redis w.now).map fun p =>
      { w with redis := p.1, calls := ⟨w.now, c, p.2⟩ :: w.calls }

/-- Any calls on any connections at any times. -/
def rateMachine (limit window : Nat) : Machine RateWorld RateAction where
  init := ⟨0, fun _ => none, []⟩
  step := RateWorld.step limit window

/-- The times of the calls on a connection. -/
def callTimes (c : String) (calls : List (Timed RateCall)) : List Nat :=
  calls.filterMap fun e => if e.what.connectionId = c then some e.time else none

/-- The number of calls allowed on a connection from `t` to `t + T`. -/
def allowedIn (c : String) (t T : Nat) (calls : List (Timed RateCall)) : Nat :=
  calls.countP fun e =>
    e.what.connectionId = c && e.what.allowed && decide (t ≤ e.time ∧ e.time ≤ t + T)

variable {limit window now : Nat} {c : String} {r : Redis} {w w' : RateWorld}
  {calls : List (Timed RateCall)}

/-! ## One call -/

/-- The counter of a window as it is stored. -/
def storedWindow (length : Nat) (win : FixedWindow.Window) : Cell RedisValue :=
  ⟨.count win.count, some (win.opened + length)⟩

/-- The script takes the counter of the key to the next window. -/
theorem RateLimiter.exec_allow {o : Option FixedWindow.Window}
    (hr : r (rateLimitKey c) = o.map (storedWindow (seconds window)))
    (hpos : ∀ win, o = some win → 0 < win.count) :
    (RateLimiter.allow c limit window).exec r now = some
      (r.put (rateLimitKey c) (.count (FixedWindow.next (seconds window) now o).count)
        (some ((FixedWindow.next (seconds window) now o).opened + seconds window)),
        decide ((FixedWindow.next (seconds window) now o).count ≤ limit)) := by
  show RedisCmd.runTokenBucket r now (rateLimitKey c) limit window = _
  rcases FixedWindow.next_cases (seconds window) now o with
    ⟨win, rfl, hlt, hnext⟩ | ⟨hclosed, hnext⟩
  · have hcell : r.cell now (rateLimitKey c) = some (storedWindow (seconds window) win) := by
      simp [Store.cell, hr, storedWindow, Option.filter, Cell.live_deadline, hlt]
    have hfirst : win.count ≠ 0 := Nat.ne_of_gt (hpos win rfl)
    rw [hnext, RedisCmd.runTokenBucket, hcell]
    simp [storedWindow, hfirst]
  · have hcell : r.cell now (rateLimitKey c) = none := by
      cases o with
      | none => simp [Store.cell, hr]
      | some win =>
        have hnot : ¬ now < win.opened + seconds window := by
          have := hclosed win rfl
          omega
        simp [Store.cell, hr, storedWindow, Option.filter, Cell.live_deadline, hnot]
    rw [hnext, RedisCmd.runTokenBucket, hcell]

/-! ## The keys and the verdicts -/

/-- What the store has for every connection, and how its calls were answered. -/
structure Counts (limit window : Nat) (w : RateWorld) : Prop where
  stored : ∀ c, w.redis (rateLimitKey c) =
    (FixedWindow.window (seconds window) (callTimes c w.calls)).map (storedWindow (seconds window))
  verdicts : Each (fun e before => e.what.allowed = FixedWindow.admits limit (seconds window)
    e.time (callTimes e.what.connectionId before)) w.calls
  inOrder : InOrder w.calls w.now

theorem callTimes_cons (e : Timed RateCall) : callTimes c (e :: calls) =
    if e.what.connectionId = c then e.time :: callTimes c calls else callTimes c calls := by
  by_cases hc : e.what.connectionId = c <;> simp [callTimes, hc]

theorem rateLimitKey_inj {c c' : String} : rateLimitKey c = rateLimitKey c' ↔ c = c' := by
  unfold rateLimitKey
  exact String.append_right_inj _

/-- The script never fails. -/
theorem Counts.allow (h : Counts limit window w) (c : String) :
    w.step limit window (.allow c) = some
      { w with
        redis := w.redis.put (rateLimitKey c)
          (.count (FixedWindow.next (seconds window) w.now
            (FixedWindow.window (seconds window) (callTimes c w.calls))).count)
          (some ((FixedWindow.next (seconds window) w.now
            (FixedWindow.window (seconds window) (callTimes c w.calls))).opened + seconds window))
        calls := ⟨w.now, c, FixedWindow.admits limit (seconds window) w.now
          (callTimes c w.calls)⟩ :: w.calls } := by
  rw [RateWorld.step, RateLimiter.exec_allow (h.stored c) fun _ => FixedWindow.count_pos]
  rfl

theorem Counts.step (h : Counts limit window w) {a : RateAction}
    (hstep : w.step limit window a = some w') : Counts limit window w' := by
  cases a with
  | tick d =>
    obtain rfl := Option.some.inj hstep
    exact ⟨h.stored, h.verdicts, h.inOrder.mono (Nat.le_add_right _ d)⟩
  | allow c =>
    obtain rfl := Option.some.inj ((h.allow c).symm.trans hstep)
    refine ⟨fun c' => ?_, Each.cons_iff.mpr ⟨rfl, h.verdicts⟩, Nat.le_refl _, h.inOrder⟩
    by_cases hc : c = c'
    · subst hc
      simp [callTimes_cons, FixedWindow.window, storedWindow]
    · have hkey : rateLimitKey c' ≠ rateLimitKey c := fun hk => hc (rateLimitKey_inj.mp hk).symm
      simpa [callTimes_cons, hc, Store.put_ne hkey] using h.stored c'

theorem Counts.of_reach (h : Reach (rateMachine limit window) (fun _ _ => True) w) :
    Counts limit window w := by
  refine h.invariant ?_ fun _ _ ih hstep => ih.step hstep
  exact ⟨fun _ => rfl, Each.nil, trivial⟩

theorem callTimes_ordered (h : InOrder calls now) :
    FixedWindow.Ordered (callTimes c calls) ∧ ∀ t ∈ callTimes c calls, t ≤ now := by
  induction calls generalizing now with
  | nil => exact ⟨List.Pairwise.nil, by simp [callTimes]⟩
  | cons e calls ih =>
    obtain ⟨hordered, hle⟩ := ih h.2
    rw [callTimes_cons]
    split
    · refine ⟨List.pairwise_cons.mpr ⟨hle, hordered⟩, fun t ht => ?_⟩
      rcases List.mem_cons.mp ht with rfl | ht
      · exact h.1
      · exact Nat.le_trans (hle t ht) h.1
    · exact ⟨hordered, fun t ht => Nat.le_trans (hle t ht) h.1⟩

/-- Of the calls on a connection, those that a fixed window admits were allowed. -/
theorem countP_allowed (h : Each (fun e before => e.what.allowed = FixedWindow.admits limit
      (seconds window) e.time (callTimes e.what.connectionId before)) calls)
    (p : Nat → Bool) :
    calls.countP (fun e => e.what.connectionId = c && e.what.allowed && p e.time)
      = (FixedWindow.admitted limit (seconds window) (callTimes c calls)).countP p := by
  induction calls with
  | nil => rfl
  | cons e calls ih =>
    obtain ⟨hverdict, hrest⟩ := Each.cons_iff.mp h
    rw [List.countP_cons, ih hrest, callTimes_cons]
    by_cases hc : e.what.connectionId = c
    · rw [hc] at hverdict
      rw [if_pos hc, FixedWindow.admitted, ← hverdict]
      cases e.what.allowed <;> simp [hc, List.countP_cons]
    · simp [hc]

end RealtimeNotify.App
