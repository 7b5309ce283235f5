import Mathlib.Data.List.Basic
import Mathlib.Tactic.Linarith

/-!
# Fixed-window limits

A counter that the first call sets to one, for a window of a fixed length, and
each further call in the window raises; a call is admitted while the counter is
within the limit. The calls are given by their times, the latest first. How many
calls an interval of any kind can see admitted is bounded here, and so is what a
call that is not admitted says about the calls before it.
-/

namespace RealtimeNotify.Lib

namespace FixedWindow

/-- A window that was opened, and the calls it has counted. -/
structure Window where
  opened : Nat
  count : Nat

/-- The window after a call at `t`. -/
def next (length t : Nat) : Option Window → Window
  | some w => if t < w.opened + length then ⟨w.opened, w.count + 1⟩ else ⟨t, 1⟩
  | none => ⟨t, 1⟩

/-- The window after the calls. -/
def window (length : Nat) : List Nat → Option Window
  | [] => none
  | t :: before => some (next length t (window length before))

/-- A call at `t` is admitted. -/
def admits (limit length t : Nat) (before : List Nat) : Bool :=
  (next length t (window length before)).count ≤ limit

/-- The times of the calls that were admitted. -/
def admitted (limit length : Nat) : List Nat → List Nat
  | [] => []
  | t :: before =>
      if admits limit length t before then t :: admitted limit length before
      else admitted limit length before

/-- Later calls first. -/
def Ordered (times : List Nat) : Prop := times.Pairwise fun later earlier => earlier ≤ later

variable {limit length t now : Nat} {times before : List Nat} {w : Window}

/-- A call counts in the open window, or opens one. -/
theorem next_cases (length t : Nat) (o : Option Window) :
    (∃ w, o = some w ∧ t < w.opened + length ∧ next length t o = ⟨w.opened, w.count + 1⟩) ∨
    ((∀ w, o = some w → w.opened + length ≤ t) ∧ next length t o = ⟨t, 1⟩) := by
  cases o with
  | none => exact .inr ⟨nofun, rfl⟩
  | some w =>
    by_cases hlt : t < w.opened + length
    · exact .inl ⟨w, rfl, hlt, by simp [next, hlt]⟩
    · refine .inr ⟨fun w' hw' => ?_, by simp [next, hlt]⟩
      obtain rfl := Option.some.inj hw'
      omega

theorem window_eq_none (h : window length times = none) : times = [] := by
  cases times with
  | nil => rfl
  | cons t before => cases h

theorem opened_mem (hw : window length times = some w) : w.opened ∈ times := by
  induction times generalizing w with
  | nil => cases hw
  | cons t before ih =>
    obtain rfl := Option.some.inj hw
    rcases next_cases length t (window length before) with
      ⟨w, hw, -, hnext⟩ | ⟨-, hnext⟩
    · have hmem : w.opened ∈ before := ih hw
      rw [hnext]
      exact List.mem_cons_of_mem _ hmem
    · rw [hnext]
      exact List.mem_cons_self

theorem count_pos (hw : window length times = some w) : 0 < w.count := by
  cases times with
  | nil => cases hw
  | cons t before =>
    obtain rfl := Option.some.inj hw
    rcases next_cases length t (window length before) with
      ⟨w, -, -, hnext⟩ | ⟨-, hnext⟩
    · rw [hnext]
      exact Nat.succ_pos _
    · rw [hnext]
      exact Nat.one_pos

theorem admitted_subset : admitted limit length times ⊆ times := by
  induction times with
  | nil => exact List.Subset.refl _
  | cons t before ih =>
    rw [admitted]
    split
    · exact List.cons_subset_cons t ih
    · exact List.Subset.trans ih (List.subset_cons_self t before)

/-! ## A call that is not admitted -/

/-- The calls of a window are admitted until the limit is reached. -/
theorem filled (ho : Ordered times) (hw : window length times = some w) :
    min w.count limit ≤ (admitted limit length times).countP (w.opened ≤ ·) := by
  induction times generalizing w with
  | nil => cases hw
  | cons t before ih =>
    obtain ⟨hle, ho⟩ := List.pairwise_cons.mp ho
    obtain rfl := Option.some.inj hw
    rcases next_cases length t (window length before) with
      ⟨w, hw, -, hnext⟩ | ⟨-, hnext⟩
    · have hopened : w.opened ≤ t := hle _ (opened_mem hw)
      have hbefore := ih ho hw
      simp only [admitted, admits, hnext]
      by_cases hlimit : w.count + 1 ≤ limit
      · simp only [hlimit, decide_true, if_true, List.countP_cons, hopened]
        omega
      · simp only [hlimit, decide_false, Bool.false_eq_true, if_false]
        omega
    · simp only [admitted, admits, hnext]
      by_cases hlimit : 1 ≤ limit
      · simp only [hlimit, decide_true, if_true, List.countP_cons, Nat.le_refl]
        omega
      · omega

/-- A call that is not admitted has the limit of admitted calls before it, each
less than the length of a window ago. -/
theorem limit_le_of_not_admits (ho : Ordered (t :: before))
    (h : admits limit length t before = false) :
    limit ≤ (admitted limit length before).countP (t < · + length) := by
  obtain ⟨hle, ho⟩ := List.pairwise_cons.mp ho
  rcases next_cases length t (window length before) with
    ⟨w, hw, hlt, hnext⟩ | ⟨-, hnext⟩
  · have hover : limit ≤ w.count := by
      simpa [admits, hnext, Nat.lt_succ_iff] using h
    calc limit = min w.count limit := by omega
      _ ≤ (admitted limit length before).countP (w.opened ≤ ·) := filled ho hw
      _ ≤ (admitted limit length before).countP (t < · + length) := by
        refine List.countP_mono_left fun s _ hs => ?_
        simp only [decide_eq_true_eq] at hs ⊢
        omega
  · have hzero : limit = 0 := by
      simpa [admits, hnext] using h
    omega

/-! ## Calls in an interval -/

/-- What is admitted from `t` on, when the open window was opened before, and when
it was opened `d` later. The limit is `m + 1`. -/
theorem admitted_since {m : Nat} (ho : Ordered times) (hw : window length times = some w)
    (t : Nat) :
    (w.opened < t →
      (admitted (m + 1) length times).countP (t ≤ ·) + 1 ≤ min w.count (m + 1)) ∧
    ∀ d, w.opened = t + d → (admitted (m + 1) length times).countP (t ≤ ·) * length
      ≤ (m + 1) * d + min w.count (m + 1) * length + m * length := by
  induction times generalizing w with
  | nil => cases hw
  | cons s before ih =>
    obtain ⟨hle, ho⟩ := List.pairwise_cons.mp ho
    obtain rfl := Option.some.inj hw
    rcases next_cases length s (window length before) with
      ⟨w, hw, -, hnext⟩ | ⟨hclosed, hnext⟩
    · obtain ⟨hold, hnew⟩ := ih ho hw
      have hcount : (admitted (m + 1) length (s :: before)).countP (t ≤ ·) + min w.count (m + 1)
          ≤ (admitted (m + 1) length before).countP (t ≤ ·) + min (w.count + 1) (m + 1) := by
        simp only [admitted, admits, hnext]
        by_cases hlimit : w.count + 1 ≤ m + 1
        · simp only [hlimit, decide_true, if_true, List.countP_cons]
          split <;> omega
        · simp only [hlimit, decide_false, Bool.false_eq_true, if_false]
          omega
      rw [hnext]
      refine ⟨fun hlt => ?_, fun d hd => ?_⟩
      · have hbefore := hold hlt
        show _ ≤ min (w.count + 1) (m + 1)
        omega
      · have hbefore := hnew d hd
        have hscaled := Nat.mul_le_mul_right length hcount
        rw [Nat.add_mul, Nat.add_mul] at hscaled
        show _ ≤ (m + 1) * d + min (w.count + 1) (m + 1) * length + m * length
        omega
    · have hadmitted : admitted (m + 1) length (s :: before)
          = s :: admitted (m + 1) length before := by
        simp [admitted, admits, hnext]
      rw [hnext, hadmitted]
      refine ⟨fun hlt => ?_, fun d hd => ?_⟩
      · have hnone : (s :: admitted (m + 1) length before).countP (t ≤ ·) = 0 := by
          refine List.countP_eq_zero.mpr fun s' hs' => ?_
          have hs' : s' ≤ s := by
            rcases List.mem_cons.mp hs' with rfl | hs'
            · exact Nat.le_refl _
            · exact hle _ (admitted_subset hs')
          simp only at hlt
          simp only [decide_eq_true_eq]
          omega
        rw [hnone]
        show 0 + 1 ≤ min 1 (m + 1)
        omega
      · have hd : s = t + d := hd
        have hsince : (admitted (m + 1) length before).countP (t ≤ ·) * length
            ≤ (m + 1) * d + m * length := by
          cases hw : window length before with
          | none =>
            obtain rfl := window_eq_none hw
            simp [admitted]
          | some w =>
            have hclosed := hclosed w hw
            obtain ⟨hold, hnew⟩ := ih ho hw
            by_cases hlt : w.opened < t
            · have hfew : (admitted (m + 1) length before).countP (t ≤ ·) ≤ m := by
                have hbefore := hold hlt
                omega
              exact (Nat.mul_le_mul_right length hfew).trans (Nat.le_add_left _ _)
            · obtain ⟨e, he⟩ := Nat.exists_eq_add_of_le (Nat.not_lt.mp hlt)
              have hbefore := hnew e he
              have hfull : min w.count (m + 1) * length ≤ (m + 1) * length :=
                Nat.mul_le_mul_right length (Nat.min_le_right _ _)
              have hwindow : (m + 1) * (e + length) ≤ (m + 1) * d :=
                Nat.mul_le_mul_left (m + 1) (by omega)
              rw [Nat.mul_add] at hwindow
              omega
        have hhead : t ≤ s := by omega
        show _ ≤ (m + 1) * d + min 1 (m + 1) * length + m * length
        rw [List.countP_cons_of_pos (by simpa using hhead), Nat.add_mul, Nat.one_mul]
        have hone : min 1 (m + 1) * length = length := by
          rw [Nat.min_eq_left (by omega), Nat.one_mul]
        omega

theorem Ordered.le_head (ho : Ordered (t :: before)) {s : Nat} (hs : s ∈ t :: before) :
    s ≤ t := by
  rcases List.mem_cons.mp hs with rfl | hs
  · exact Nat.le_refl _
  · exact (List.pairwise_cons.mp ho).1 s hs

/-- In an interval of length `T`, at most what a full window at its start and a
steady rate allow is admitted, and one call less than another window. -/
theorem admitted_countP_le {m : Nat} (ho : Ordered times) (t T : Nat) :
    (admitted (m + 1) length times).countP (fun s => t ≤ s ∧ s ≤ t + T) * length
      ≤ (m + 1) * (length + T) + m * length := by
  induction times with
  | nil => simp [admitted]
  | cons s before ih =>
    by_cases hlate : t + T < s
    · have hskip : (admitted (m + 1) length (s :: before)).countP (fun s => t ≤ s ∧ s ≤ t + T)
          = (admitted (m + 1) length before).countP (fun s => t ≤ s ∧ s ≤ t + T) := by
        rw [admitted]
        split
        · exact List.countP_cons_of_neg (by simp; omega)
        · rfl
      rw [hskip]
      exact ih (List.pairwise_cons.mp ho).2
    · have hall : (admitted (m + 1) length (s :: before)).countP (fun s => t ≤ s ∧ s ≤ t + T)
          = (admitted (m + 1) length (s :: before)).countP (t ≤ ·) := by
        refine List.countP_congr fun s' hs' => ?_
        have hle := ho.le_head (admitted_subset hs')
        simp only [decide_eq_true_eq]
        omega
      have hw : window length (s :: before) = some (next length s (window length before)) := rfl
      have hopened := ho.le_head (opened_mem hw)
      obtain ⟨hold, hnew⟩ := admitted_since (m := m) ho hw t
      rw [hall, Nat.mul_add]
      by_cases hlt : (next length s (window length before)).opened < t
      · have hfew : (admitted (m + 1) length (s :: before)).countP (t ≤ ·) ≤ m := by
          have hbefore := hold hlt
          omega
        exact (Nat.mul_le_mul_right length hfew).trans (Nat.le_add_left _ _)
      · obtain ⟨d, hd⟩ := Nat.exists_eq_add_of_le (Nat.not_lt.mp hlt)
        have hsince := hnew d hd
        have hrate : (m + 1) * d ≤ (m + 1) * T := Nat.mul_le_mul_left (m + 1) (by omega)
        have hfull := Nat.mul_le_mul_right length
          (Nat.min_le_right (next length s (window length before)).count (m + 1))
        omega

/-! ## A burst around the end of a window -/

/-- Calls in an open window. -/
theorem admitted_replicate (hw : window length before = some w) (hlt : t < w.opened + length)
    {n : Nat} (hn : w.count + n ≤ limit) :
    admitted limit length (List.replicate n t ++ before)
      = List.replicate n t ++ admitted limit length before ∧
    window length (List.replicate n t ++ before) = some ⟨w.opened, w.count + n⟩ := by
  induction n with
  | zero => exact ⟨rfl, hw⟩
  | succ n ih =>
    obtain ⟨hadmitted, hwindow⟩ := ih (by omega)
    have hnext : next length t (window length (List.replicate n t ++ before))
        = ⟨w.opened, w.count + (n + 1)⟩ := by
      simp [next, hwindow, hlt, Nat.add_assoc]
    refine ⟨?_, ?_⟩
    · simp [List.replicate_succ, admitted, admits, hnext, hn, hadmitted]
    · simp [List.replicate_succ, window, hnext]

/-- One call, `m + 1` at the end of its window, and `m + 2` when it is over. -/
def burst (m length : Nat) : List Nat :=
  List.replicate (m + 1) length ++ length :: (List.replicate (m + 1) (length - 1) ++ [0])

theorem burst_ordered (m length : Nat) : Ordered (burst m length) := by
  have hlast : Ordered (List.replicate (m + 1) (length - 1) ++ [0]) := by
    refine List.pairwise_append.mpr ⟨?_, List.pairwise_singleton _ _, ?_⟩
    · exact List.pairwise_replicate.mpr (.inr (Nat.le_refl _))
    · simp
  have hmem : ∀ s ∈ List.replicate (m + 1) (length - 1) ++ [0], s ≤ length := by
    intro s hs
    rcases List.mem_append.mp hs with hs | hs
    · have hs := List.eq_of_mem_replicate hs
      omega
    · simp only [List.mem_singleton] at hs
      omega
  refine List.pairwise_append.mpr ⟨?_, List.pairwise_cons.mpr ⟨hmem, hlast⟩, ?_⟩
  · exact List.pairwise_replicate.mpr (.inr (Nat.le_refl _))
  · intro s hs s' hs'
    rw [List.eq_of_mem_replicate hs]
    rcases List.mem_cons.mp hs' with rfl | hs'
    · exact Nat.le_refl _
    · exact hmem s' hs'

/-- All of them are admitted. -/
theorem admitted_burst (m : Nat) (hlength : 0 < length) :
    admitted (m + 2) length (burst m length) = burst m length := by
  have hfirst : admitted (m + 2) length [0] = [0] := by simp [admitted, admits, next, window]
  have hlast : ∀ n, 1 + n ≤ m + 2 →
      admitted (m + 2) length (List.replicate n (length - 1) ++ [0])
        = List.replicate n (length - 1) ++ admitted (m + 2) length [0] ∧
      window length (List.replicate n (length - 1) ++ [0]) = some ⟨0, 1 + n⟩ := fun n hn =>
    admitted_replicate (w := ⟨0, 1⟩) rfl (show length - 1 < 0 + length by omega) hn
  obtain ⟨hlast, hwindow⟩ := hlast (m + 1) (by omega)
  have hnext : next length length (window length (List.replicate (m + 1) (length - 1) ++ [0]))
      = ⟨length, 1⟩ := by
    simp [next, hwindow]
  have hopens : admitted (m + 2) length (length :: (List.replicate (m + 1) (length - 1) ++ [0]))
      = length :: (List.replicate (m + 1) (length - 1) ++ [0]) := by
    rw [admitted, admits, hnext, hlast, hfirst]
    simp
  have hopened : window length (length :: (List.replicate (m + 1) (length - 1) ++ [0]))
      = some ⟨length, 1⟩ := congrArg some hnext
  have hburst : ∀ n, 1 + n ≤ m + 2 →
      admitted (m + 2) length (List.replicate n length ++
        length :: (List.replicate (m + 1) (length - 1) ++ [0])) = _ := fun n hn =>
    (admitted_replicate hopened (show length < length + length by omega) hn).1
  rw [burst, hburst (m + 1) (by omega), hopens]

/-- Beyond the bound of a token bucket, in an interval of length one. -/
theorem burst_exceeds (m : Nat) (hlength : 2 < length) :
    ¬ (burst m length).countP (fun s => length - 1 ≤ s ∧ s ≤ length - 1 + 1) * length
      ≤ (m + 2) * (length + 1) := by
  have hcount : (burst m length).countP (fun s => length - 1 ≤ s ∧ s ≤ length - 1 + 1)
      = 2 * m + 3 := by
    have hend : length ≤ length - 1 + 1 := by omega
    have hzero : ¬ length ≤ 1 := by omega
    simp [burst, List.countP_append, List.countP_replicate, hend, hzero]
    omega
  rw [hcount]
  intro hle
  nlinarith [Nat.mul_le_mul_left (m + 1) hlength]

end FixedWindow

end RealtimeNotify.Lib
