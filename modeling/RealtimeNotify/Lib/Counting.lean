import RealtimeNotify.Lib.Machine
import Mathlib.Algebra.BigOperators.Group.Finset.Piecewise
import Mathlib.Algebra.Order.BigOperators.Group.Finset

/-!
# Machines that take notes

A note is kept beside the state of a machine and says nothing to it: what is reached with
notes is reached without, and the other way round. A `Tally` is a note on tasks that are
counted where they enter a phase and where they leave it.
-/

namespace RealtimeNotify.Lib

variable {σ α ν : Type*}

/-- The machine with a note, which every step may rewrite. -/
def Machine.noting (M : Machine σ α) (start : ν) (note : σ → α → σ → ν → ν) :
    Machine (σ × ν) α where
  init := (M.init, start)
  step p a := (M.step p.1 a).map fun s' => (s', note p.1 a s' p.2)

section

variable {M : Machine σ α} {G : σ → α → Prop} {start : ν} {note : σ → α → σ → ν → ν}

theorem Machine.noting_step {p p' : σ × ν} {a : α} :
    (M.noting start note).step p a = some p' ↔
      M.step p.1 a = some p'.1 ∧ p'.2 = note p.1 a p'.1 p.2 := by
  obtain ⟨s', n'⟩ := p'
  rw [noting, Option.map_eq_some_iff]
  constructor
  · rintro ⟨t, ht, heq⟩
    obtain ⟨rfl, rfl⟩ := Prod.mk.inj heq
    exact ⟨ht, rfl⟩
  · rintro ⟨hs, hn⟩
    exact ⟨s', hs, Prod.ext rfl hn.symm⟩

theorem Reach.of_noting {p : σ × ν} (h : Reach (M.noting start note) (fun p a => G p.1 a) p) :
    Reach M G p.1 := by
  induction h with
  | init => exact .init
  | step _ hg hs ih => exact ih.step hg (Machine.noting_step.mp hs).1

/-- Notes hold nothing up. -/
theorem Reach.noting {s : σ} (h : Reach M G s) :
    ∃ n, Reach (M.noting start note) (fun p a => G p.1 a) (s, n) := by
  induction h with
  | init => exact ⟨start, .init⟩
  | @step s s' a _ hg hs ih =>
    obtain ⟨n, hn⟩ := ih
    exact ⟨note s a s' n, hn.step hg (Machine.noting_step.mpr ⟨hs, rfl⟩)⟩

end

/-- Where one of many counters goes up by one, their sum does so at most. -/
theorem sum_le_succ {ι : Type*} [DecidableEq ι] {f g : ι → ℕ} {j : ι} (is : Finset ι)
    (h : ∀ i, g i ≤ f i + if i = j then 1 else 0) : ∑ i ∈ is, g i ≤ ∑ i ∈ is, f i + 1 := by
  calc ∑ i ∈ is, g i ≤ ∑ i ∈ is, (f i + if i = j then 1 else 0) :=
        Finset.sum_le_sum fun i _ => h i
    _ = ∑ i ∈ is, f i + if j ∈ is then 1 else 0 := by
        rw [Finset.sum_add_distrib, Finset.sum_ite_eq']
    _ ≤ ∑ i ∈ is, f i + 1 := by split <;> omega

/-! ## Entering and leaving -/

/-- Some tasks are in a phase. Who left, and who is in, has been counted at the entrance. -/
def Tally (inside : ℕ → Prop) (entered left : ℕ) : Prop :=
  ∃ A : Finset ℕ, (∀ n, inside n → n ∈ A) ∧ left + A.card ≤ entered

namespace Tally

variable {P Q : ℕ → Prop} {entered left n : ℕ}

theorem le (h : Tally P entered left) : left ≤ entered := by
  obtain ⟨A, -, hA⟩ := h
  omega

theorem init (h : ∀ n, ¬ P n) : Tally P entered 0 :=
  ⟨∅, fun n hn => absurd hn (h n), by simp⟩

/-- No one enters; the counters may be set back, or ahead at the entrance. -/
theorem mono {entered' left' : ℕ} (h : Tally P entered left) (hQ : ∀ n, Q n → P n)
    (hentered : entered ≤ entered') (hleft : left' ≤ left) : Tally Q entered' left' := by
  obtain ⟨A, hin, hA⟩ := h
  exact ⟨A, fun n hn => hin n (hQ n hn), by omega⟩

/-- A task enters, and is counted. -/
theorem enter (h : Tally P entered left) (hQ : ∀ m, Q m → P m ∨ m = n) :
    Tally Q (entered + 1) left := by
  obtain ⟨A, hin, hA⟩ := h
  refine ⟨insert n A, fun m hm => ?_, ?_⟩
  · rcases hQ m hm with hold | rfl
    · exact Finset.mem_insert_of_mem (hin m hold)
    · exact Finset.mem_insert_self m A
  · have hcard := Finset.card_insert_le n A
    omega

/-- A task that is in leaves, and is counted. -/
theorem leave (h : Tally P entered left) (hn : P n) (hQ : ∀ m, Q m → P m ∧ m ≠ n) :
    Tally Q entered (left + 1) := by
  obtain ⟨A, hin, hA⟩ := h
  refine ⟨A.erase n, fun m hm => ?_, ?_⟩
  · exact Finset.mem_erase.mpr ⟨(hQ m hm).2, hin m (hQ m hm).1⟩
  · have hcard := Finset.card_erase_add_one (hin n hn)
    omega

/-- What a step of one task does to the two counters; it was and is in the phase where `was`
and `is` hold. -/
inductive Passage (was is : Prop) (entered left entered' left' : ℕ) : Prop where
  | enter : entered' = entered + 1 → left' = left → Passage was is entered left entered' left'
  | leave : was → ¬ is → entered' = entered → left' = left + 1 →
      Passage was is entered left entered' left'
  | stay : (is → was) → entered' = entered → left' = left →
      Passage was is entered left entered' left'

/-- A step of task `n`, which moves no other task. -/
theorem passage {entered' left' : ℕ} (h : Tally P entered left)
    (hn : Passage (P n) (Q n) entered left entered' left')
    (hother : ∀ m, m ≠ n → Q m → P m) : Tally Q entered' left' := by
  have hold : ∀ m, Q m → P m ∨ m = n := fun m hm =>
    (em (m = n)).symm.imp_left fun hne => hother m hne hm
  cases hn with
  | enter hentered hleft =>
    rw [hentered, hleft]
    exact h.enter hold
  | leave hwas his hentered hleft =>
    rw [hentered, hleft]
    refine h.leave hwas fun m hm => ?_
    have hne : m ≠ n := fun heq => his (heq ▸ hm)
    exact ⟨hother m hne hm, hne⟩
  | stay hstay hentered hleft =>
    rw [hentered, hleft]
    refine h.mono (fun m hm => ?_) le_rfl le_rfl
    rcases hold m hm with hold | rfl
    · exact hold
    · exact hstay hm

end Tally

end RealtimeNotify.Lib
