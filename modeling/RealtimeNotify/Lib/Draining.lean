import Mathlib.Algebra.Order.Floor.Div
import RealtimeNotify.Lib.Keyset

/-!
# Draining a query

A round takes the first `limit` rows of an ordered query and retires them, so
that the next round no longer sees them. Rows that tie with the last one of a
round may be cut off from it; unlike behind a cursor, they are still there for
the next round.
-/

namespace RealtimeNotify.Lib

variable {ρ κ ι : Type*} [LinearOrder κ] [DecidableEq ι]

/-- The first rows of the query. -/
def batch (key : ρ → κ) (tie : ρ → Nat) (limit : Nat) (rows : List ρ) : List ρ :=
  (orderBy key tie rows).take limit

/-- The rows that are left when those of some identities are retired. -/
def retire (ident : ρ → ι) (gone : List ι) (rows : List ρ) : List ρ :=
  rows.filter fun r => ident r ∉ gone

/-- The batches up to the first empty one, `none` if more than `fuel` queries are
needed to find it. Ties fall anew in every round. -/
def drained (ident : ρ → ι) (key : ρ → κ) (ties : Nat → ρ → Nat) (limit : Nat) :
    (fuel : Nat) → List ρ → Option (List (List ρ))
  | 0, _ => none
  | fuel + 1, rows =>
      match batch key (ties fuel) limit rows with
      | [] => some []
      | r :: rs => (drained ident key ties limit fuel
          (retire ident ((r :: rs).map ident) rows)).map ((r :: rs) :: ·)

variable {ident : ρ → ι} {key : ρ → κ} {tie : ρ → Nat} {ties : Nat → ρ → Nat} {limit : Nat}
  {rows : List ρ}

/-! ## One round -/

theorem batch_length : (batch key tie limit rows).length = min limit rows.length := by
  rw [batch, List.length_take, orderBy_length]

theorem batch_eq_nil (hpos : 0 < limit) : batch key tie limit rows = [] ↔ rows = [] := by
  rw [← List.length_eq_zero_iff, ← List.length_eq_zero_iff, batch_length]
  omega

theorem retire_retire {gone gone' : List ι} :
    retire ident gone' (retire ident gone rows) = retire ident (gone ++ gone') rows := by
  rw [retire, retire, retire, List.filter_filter]
  refine List.filter_congr fun r _ => ?_
  rw [Bool.eq_iff_iff]
  simp [and_comm]

theorem retire_take (hrows : (rows.map ident).Nodup) :
    retire ident ((rows.take limit).map ident) rows = rows.drop limit := by
  have hsplit := hrows
  rw [← List.take_append_drop limit rows, List.map_append, List.nodup_append] at hsplit
  have htaken : retire ident ((rows.take limit).map ident) (rows.take limit) = [] := by
    rw [retire, List.filter_eq_nil_iff]
    intro r hr
    simpa using List.mem_map_of_mem (f := ident) hr
  have hleft : retire ident ((rows.take limit).map ident) (rows.drop limit)
      = rows.drop limit := by
    rw [retire, List.filter_eq_self]
    intro r hr
    rw [decide_eq_true_eq]
    exact fun hmem => hsplit.2.2 _ hmem _ (List.mem_map_of_mem hr) rfl
  calc retire ident ((rows.take limit).map ident) rows
      = retire ident ((rows.take limit).map ident) (rows.take limit)
        ++ retire ident ((rows.take limit).map ident) (rows.drop limit) := by
        rw [retire, retire, retire, ← List.filter_append, List.take_append_drop]
    _ = rows.drop limit := by rw [htaken, hleft, List.nil_append]

/-- What a round leaves is what it had no room for, the rows that tie with its
last one included. -/
theorem retire_batch (hrows : (rows.map ident).Nodup) :
    (retire ident ((batch key tie limit rows).map ident) rows).Perm
      ((orderBy key tie rows).drop limit) := by
  have hperm : (orderBy key tie rows).Perm rows := orderBy_perm
  have hids : ((orderBy key tie rows).map ident).Nodup := (hperm.map ident).nodup_iff.mpr hrows
  refine (hperm.symm.filter _).trans ?_
  rw [batch, ← retire, retire_take hids]

theorem retire_nodup (gone : List ι) (hrows : (rows.map ident).Nodup) :
    ((retire ident gone rows).map ident).Nodup :=
  hrows.sublist (List.filter_sublist.map ident)

/-- A round takes `limit` rows off, or all of them. -/
theorem retire_batch_length (hrows : (rows.map ident).Nodup) :
    (retire ident ((batch key tie limit rows).map ident) rows).length = rows.length - limit := by
  rw [(retire_batch hrows).length_eq, List.length_drop, orderBy_length]

/-- Nothing that is left comes before a row of the batch. -/
theorem batch_le_retire (hrows : (rows.map ident).Nodup) {r s : ρ}
    (hr : r ∈ batch key tie limit rows)
    (hs : s ∈ retire ident ((batch key tie limit rows).map ident) rows) : key r ≤ key s := by
  have hsorted : (orderBy key tie rows).Pairwise (key · ≤ key ·) := orderBy_sorted
  rw [← List.take_append_drop limit (orderBy key tie rows), List.pairwise_append] at hsorted
  exact hsorted.2.2 r hr s ((retire_batch hrows).mem_iff.mp hs)

theorem batch_append_retire (hrows : (rows.map ident).Nodup) :
    (batch key tie limit rows
      ++ retire ident ((batch key tie limit rows).map ident) rows).Perm rows := by
  refine ((retire_batch hrows).append_left _).trans ?_
  rw [batch, List.take_append_drop]
  exact orderBy_perm

/-- One round fewer is needed for `limit` rows fewer. -/
theorem ceilDiv_sub (hpos : 0 < limit) {n : Nat} (hn : 0 < n) :
    (n - limit) ⌈/⌉ limit + 1 = n ⌈/⌉ limit := by
  rw [Nat.ceilDiv_eq_add_pred_div, Nat.ceilDiv_eq_add_pred_div]
  rcases Nat.le_total n limit with hle | hle
  · rw [Nat.sub_eq_zero_of_le hle, Nat.zero_add, Nat.div_eq_of_lt (by omega),
      show n + limit - 1 = n - 1 + limit by omega, Nat.add_div_right _ hpos,
      Nat.div_eq_of_lt (by omega)]
  · rw [← Nat.add_div_right _ hpos]
    congr 1
    omega

/-! ## All rounds -/

/-- What is there is seen once each, in order, in as few rounds as hold it. -/
structure Drains (key : ρ → κ) (limit : Nat) (rows : List ρ) (bs : List (List ρ)) : Prop where
  nonempty : ∀ b ∈ bs, b ≠ []
  perm : bs.flatten.Perm rows
  sorted : bs.flatten.Pairwise (key · ≤ key ·)
  rounds : bs.length = rows.length ⌈/⌉ limit

theorem Drains.nil : Drains key limit [] [] where
  nonempty := by simp
  perm := .nil
  sorted := .nil
  rounds := (zero_ceilDiv limit).symm

/-- A round before those that drain what it leaves. -/
theorem Drains.cons (hpos : 0 < limit) (hrows : (rows.map ident).Nodup) (hne : rows ≠ [])
    {bs : List (List ρ)}
    (h : Drains key limit (retire ident ((batch key tie limit rows).map ident) rows) bs) :
    Drains key limit rows (batch key tie limit rows :: bs) where
  nonempty := by
    rw [List.forall_mem_cons]
    exact ⟨mt (batch_eq_nil hpos).mp hne, h.nonempty⟩
  perm := by
    rw [List.flatten_cons]
    exact (h.perm.append_left _).trans (batch_append_retire hrows)
  sorted := by
    rw [List.flatten_cons, List.pairwise_append]
    refine ⟨orderBy_sorted.sublist (List.take_sublist _ _), h.sorted, fun r hr s hs => ?_⟩
    exact batch_le_retire hrows hr (h.perm.mem_iff.mp hs)
  rounds := by
    rw [List.length_cons, h.rounds, retire_batch_length hrows]
    exact ceilDiv_sub hpos (List.length_pos_iff.mpr hne)

/-- With one query more than there are rounds, the last one is empty. -/
theorem drained_drains (key : ρ → κ) (ties : Nat → ρ → Nat) (hpos : 0 < limit) {fuel : Nat}
    (hrows : (rows.map ident).Nodup) (hfuel : rows.length ⌈/⌉ limit < fuel) :
    ∃ bs, drained ident key ties limit fuel rows = some bs ∧ Drains key limit rows bs := by
  induction fuel generalizing rows with
  | zero => omega
  | succ fuel ih =>
    rw [drained]
    split
    · rename_i hnil
      obtain rfl := (batch_eq_nil hpos).mp hnil
      exact ⟨[], rfl, .nil⟩
    · rename_i r rs hbatch
      rw [← hbatch]
      have hne : rows ≠ [] := by
        rintro rfl
        rw [(batch_eq_nil hpos).mpr rfl] at hbatch
        cases hbatch
      have hceil := ceilDiv_sub hpos (List.length_pos_iff.mpr hne)
      obtain ⟨bs, hbs, hdrains⟩ := ih
        (retire_nodup ((batch key (ties fuel) limit rows).map ident) hrows) (by
          rw [retire_batch_length hrows]
          omega)
      exact ⟨_, by rw [hbs]; rfl, hdrains.cons hpos hrows hne⟩

end RealtimeNotify.Lib
