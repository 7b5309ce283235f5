import Mathlib.Data.List.Sort
import Mathlib.Order.Lattice

/-!
# Ordered queries

`ORDER BY key` leaves rows of equal key in an unspecified order; `orderBy` takes
the choice as a `tie` of its own, so that a statement about every `tie` is about
every order the query may return.
-/

namespace RealtimeNotify.Lib

variable {ρ κ : Type*} [LinearOrder κ]

/-- `a` may stand before `b`. -/
def Precedes (key : ρ → κ) (tie : ρ → Nat) (a b : ρ) : Prop :=
  key a < key b ∨ key a = key b ∧ tie a ≤ tie b

instance (key : ρ → κ) (tie : ρ → Nat) : DecidableRel (Precedes key tie) := fun _ _ =>
  inferInstanceAs (Decidable (_ ∨ _))

instance (key : ρ → κ) (tie : ρ → Nat) : Std.Total (Precedes key tie) where
  total a b := by
    rcases lt_trichotomy (key a) (key b) with h | h | h
    · exact .inl (.inl h)
    · rcases le_total (tie a) (tie b) with ht | ht
      · exact .inl (.inr ⟨h, ht⟩)
      · exact .inr (.inr ⟨h.symm, ht⟩)
    · exact .inr (.inl h)

instance (key : ρ → κ) (tie : ρ → Nat) : IsTrans ρ (Precedes key tie) where
  trans a b c := by
    rintro (hab | ⟨hab, tab⟩) (hbc | ⟨hbc, tbc⟩)
    · exact .inl (hab.trans hbc)
    · exact .inl (hbc ▸ hab)
    · exact .inl (hab ▸ hbc)
    · exact .inr ⟨hab.trans hbc, tab.trans tbc⟩

theorem Precedes.key_le {key : ρ → κ} {tie : ρ → Nat} {a b : ρ} (h : Precedes key tie a b) :
    key a ≤ key b := by
  rcases h with h | ⟨h, -⟩
  · exact h.le
  · exact h.le

/-- `ORDER BY key`, rows of equal key in the order of `tie`. -/
def orderBy (key : ρ → κ) (tie : ρ → Nat) (rows : List ρ) : List ρ :=
  rows.insertionSort (Precedes key tie)

variable {key : ρ → κ} {tie : ρ → Nat} {rows : List ρ}

theorem orderBy_perm : (orderBy key tie rows).Perm rows := List.perm_insertionSort _ _

@[simp] theorem mem_orderBy {r : ρ} : r ∈ orderBy key tie rows ↔ r ∈ rows :=
  orderBy_perm.mem_iff

@[simp] theorem orderBy_length : (orderBy key tie rows).length = rows.length :=
  orderBy_perm.length_eq

theorem orderBy_sorted : (orderBy key tie rows).Pairwise (key · ≤ key ·) :=
  (List.pairwise_insertionSort _ _).imp Precedes.key_le

/-! ## The keys of a query -/

/-- The keys of the rows, in order. -/
def keys (key : ρ → κ) (rows : List ρ) : List κ := (rows.map key).insertionSort (· ≤ ·)

@[simp] theorem keys_length : (keys key rows).length = rows.length := by simp [keys]

/-- However ties fall, the keys of the answer are the keys of the rows in order. -/
theorem keys_of_sorted {sorted : List ρ} (hperm : sorted.Perm rows)
    (hsorted : sorted.Pairwise (key · ≤ key ·)) : keys key rows = sorted.map key := by
  have hkeys : (keys key rows).Perm (sorted.map key) :=
    (List.perm_insertionSort _ _).trans (hperm.symm.map key)
  refine hkeys.eq_of_pairwise' (List.pairwise_insertionSort _ _) ?_
  exact List.pairwise_map.mpr hsorted

end RealtimeNotify.Lib
