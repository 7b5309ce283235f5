import Mathlib.Logic.Function.Basic

/-!
# A keyed store whose entries expire

A cell holds a value and possibly a deadline. At time `now` a cell is readable
while `now` is below its deadline; an expired cell is as good as absent, for
reading and for extending alike.
-/

namespace RealtimeNotify.Lib

structure Cell (ν : Type*) where
  value : ν
  deadline : Option Nat

/-- `now` is below the deadline, if there is one. -/
def Cell.live {ν : Type*} (c : Cell ν) (now : Nat) : Bool :=
  match c.deadline with
  | none => true
  | some d => decide (now < d)

theorem Cell.live_deadline {ν : Type*} {v : ν} {now d : Nat} :
    (⟨v, some d⟩ : Cell ν).live now = decide (now < d) := rfl

abbrev Store (κ ν : Type*) := κ → Option (Cell ν)

namespace Store

variable {κ ν : Type*} [DecidableEq κ]

omit [DecidableEq κ] in
/-- The readable cell of a key. -/
def cell (s : Store κ ν) (now : Nat) (k : κ) : Option (Cell ν) :=
  (s k).filter (·.live now)

omit [DecidableEq κ] in
/-- The readable value of a key. -/
def get (s : Store κ ν) (now : Nat) (k : κ) : Option ν :=
  (s.cell now k).map (·.value)

def put (s : Store κ ν) (k : κ) (v : ν) (deadline : Option Nat) : Store κ ν :=
  Function.update s k (some ⟨v, deadline⟩)

/-- A new deadline for a readable key; nothing for any other. -/
def extend (s : Store κ ν) (now : Nat) (k : κ) (deadline : Nat) : Store κ ν :=
  match s.cell now k with
  | some c => s.put k c.value (some deadline)
  | none => s

def erase (s : Store κ ν) (k : κ) : Store κ ν :=
  Function.update s k none

variable {s : Store κ ν} {now : Nat} {k k' : κ} {v : ν} {d : Option Nat}

@[simp] theorem put_self : s.put k v d k = some ⟨v, d⟩ := by simp [put]

theorem put_ne (h : k' ≠ k) : s.put k v d k' = s k' := by simp [put, h]

@[simp] theorem erase_self : s.erase k k = none := by simp [erase]

theorem erase_ne (h : k' ≠ k) : s.erase k k' = s k' := by simp [erase, h]

theorem extend_ne {e : Nat} (h : k' ≠ k) : s.extend now k e k' = s k' := by
  cases hc : s.cell now k with
  | none => simp [extend, hc]
  | some c => simp [extend, hc, put_ne h]

omit [DecidableEq κ] in
theorem get_congr {s t : Store κ ν} (h : s k = t k) : s.get now k = t.get now k := by
  simp [get, cell, h]

omit [DecidableEq κ] in
theorem get_eq_some : s.get now k = some v ↔ ∃ c, s k = some c ∧ c.live now ∧ c.value = v := by
  simp [get, cell, Option.filter_eq_some_iff, and_assoc]

omit [DecidableEq κ] in
theorem get_of_deadline {e : Nat} (h : s k = some ⟨v, some e⟩) (hlt : now < e) :
    s.get now k = some v :=
  get_eq_some.mpr ⟨_, h, by simp [Cell.live, hlt], rfl⟩

omit [DecidableEq κ] in
theorem get_deadline {e : Nat} (h : s k = some ⟨v, some e⟩) :
    s.get now k = if now < e then some v else none := by
  by_cases hlt : now < e <;> simp [get, cell, h, Cell.live, Option.filter, hlt]

omit [DecidableEq κ] in
theorem get_of_none (h : s k = none) : s.get now k = none := by simp [get, cell, h]

omit [DecidableEq κ] in
theorem cell_congr {s t : Store κ ν} (h : s k = t k) : s.cell now k = t.cell now k := by
  simp [cell, h]

omit [DecidableEq κ] in
theorem get_eq_map : s.get now k = (s.cell now k).map (·.value) := rfl

theorem cell_put :
    (s.put k v d).cell now k = (some ⟨v, d⟩ : Option (Cell ν)).filter (·.live now) := by
  simp [cell]

@[simp] theorem cell_erase : (s.erase k).cell now k = none := by simp [cell]

theorem cell_extend {e : Nat} : (s.extend now k e).cell now k =
    (s.cell now k).bind fun c =>
      (some ⟨c.value, some e⟩ : Option (Cell ν)).filter (·.live now) := by
  cases hc : s.cell now k with
  | none => simp [extend, hc]
  | some c => simp [extend, hc, cell_put]

/-- Extending a key whose deadline is known. -/
theorem extend_deadline {e e' : Nat} (h : s k = some ⟨v, some e⟩) :
    s.extend now k e' k = some ⟨v, some (if now < e then e' else e)⟩ := by
  by_cases hlt : now < e <;>
    simp [extend, cell, h, Cell.live, Option.filter, hlt]

/-- A new deadline brings nothing back, -/
theorem get_of_extend {e : Nat} (h : (s.extend now k e).get now k = some v) :
    s.get now k = some v := by
  cases hc : s.cell now k with
  | none => simpa [extend, hc] using h
  | some c =>
    obtain ⟨c', hc', -, rfl⟩ := get_eq_some.mp h
    obtain rfl : (⟨c.value, some e⟩ : Cell ν) = c' := by simpa [extend, hc] using hc'
    simp [get, hc]

/-- and one in the future takes nothing away. -/
theorem get_extend {e : Nat} (he : now < e) (h : s.get now k = some v) :
    (s.extend now k e).get now k = some v := by
  cases hc : s.cell now k with
  | none => simp [get, hc] at h
  | some c =>
    obtain rfl : c.value = v := by simpa [get, hc] using h
    rw [extend, hc]
    exact get_of_deadline put_self he

/-- Time only takes values away. -/
theorem live_mono {c : Cell ν} {now now' : Nat} (h : now ≤ now') (hl : c.live now') :
    c.live now := by
  unfold Cell.live at *
  split
  · rfl
  · rename_i d hd
    simp only [hd, decide_eq_true_eq] at hl ⊢
    omega

omit [DecidableEq κ] in
/-- What can be read later can be read now. -/
theorem cell_later {later : Nat} (hle : now ≤ later) :
    s.cell later k = (s.cell now k).filter (·.live later) := by
  cases hs : s k with
  | none => simp [cell, hs]
  | some c =>
    cases hl : c.live later with
    | true => simp [cell, hs, Option.filter, hl, live_mono hle hl]
    | false => by_cases hn : c.live now = true <;> simp [cell, hs, Option.filter, hl, hn]

omit [DecidableEq κ] in
theorem get_mono {now now' : Nat} (h : now ≤ now') (hg : s.get now' k = some v) :
    s.get now k = some v := by
  obtain ⟨c, hc, hl, hv⟩ := get_eq_some.mp hg
  exact get_eq_some.mpr ⟨c, hc, live_mono h hl, hv⟩

omit [DecidableEq κ] in
/-- What can be read and stays readable stays what it is. -/
theorem get_of_kept (h : s.get now k = some v) {later : Nat} (hle : now ≤ later)
    (hkept : (s.get later k).isSome = true) : s.get later k = some v := by
  obtain ⟨v', hv'⟩ := Option.isSome_iff_exists.mp hkept
  have hbefore := get_mono hle hv'
  rw [hv', ← h, hbefore]

/-! ## Deadlines below a bound -/

/-- What is stored under the key has a deadline, and that is no later than `limit`. -/
def Bounded (s : Store κ ν) (k : κ) (limit : Nat) : Prop :=
  ∀ c, s k = some c → ∃ e, c.deadline = some e ∧ e ≤ limit

variable {t : Store κ ν} {limit limit' e : Nat}

omit [DecidableEq κ] in
theorem Bounded.mono (h : s.Bounded k limit) (hle : limit ≤ limit') : s.Bounded k limit' := by
  intro c hc
  obtain ⟨e, he, hlimit⟩ := h c hc
  exact ⟨e, he, by omega⟩

omit [DecidableEq κ] in
theorem Bounded.congr (h : s.Bounded k limit) (heq : t k = s k) : t.Bounded k limit := by
  rwa [Bounded, heq]

omit [DecidableEq κ] in
theorem Bounded.deadline_ne (h : s.Bounded k limit) {c : Cell ν} (hc : s k = some c) :
    c.deadline ≠ none := by
  obtain ⟨e, he, -⟩ := h c hc
  simp [he]

theorem bounded_put (he : e ≤ limit) : (s.put k v (some e)).Bounded k limit := by
  intro c hc
  obtain rfl := by simpa using hc
  exact ⟨e, rfl, he⟩

theorem bounded_erase : (s.erase k).Bounded k limit := by
  intro c hc
  simp at hc

theorem Bounded.extend (h : s.Bounded k limit) (he : e ≤ limit) :
    (s.extend now k e).Bounded k limit := by
  unfold Store.extend
  split
  · exact bounded_put he
  · exact h

omit [DecidableEq κ] in
/-- Nothing can be read from the bound on. -/
theorem Bounded.get_eq_none (h : s.Bounded k limit) (hle : limit ≤ now) : s.get now k = none := by
  cases hg : s.get now k with
  | none => rfl
  | some v =>
    obtain ⟨c, hc, hlive, -⟩ := get_eq_some.mp hg
    obtain ⟨e, he, hlimit⟩ := h c hc
    simp only [Cell.live, he, decide_eq_true_eq] at hlive
    omega

end Store

end RealtimeNotify.Lib
