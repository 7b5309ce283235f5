import Mathlib.Data.List.Nodup

/-!
# Dictionaries

A Python `dict` as the row of its items in insertion order.
-/

namespace RealtimeNotify.Python

abbrev Dict (κ ν : Type*) := List (κ × ν)

namespace Dict

variable {κ ν : Type*} [DecidableEq κ]

/-- `d.get(key)`. -/
def get (d : Dict κ ν) (key : κ) : Option ν :=
  match d with
  | [] => none
  | (k, v) :: rest => if k = key then some v else get rest key

/-- `d[key] = value`: an existing key keeps its place. -/
def set (d : Dict κ ν) (key : κ) (value : ν) : Dict κ ν :=
  match d with
  | [] => [(key, value)]
  | (k, v) :: rest => if k = key then (k, value) :: rest else (k, v) :: set rest key value

/-- `d.pop(key, None)`, the dictionary that is left. -/
def pop (d : Dict κ ν) (key : κ) : Dict κ ν := d.filter (·.1 ≠ key)

omit [DecidableEq κ] in
def keys (d : Dict κ ν) : List κ := d.map Prod.fst

variable {d : Dict κ ν} {k k' : κ} {v : ν}

@[simp] theorem get_nil : get ([] : Dict κ ν) k = none := rfl

@[simp] theorem get_set_self : (d.set k v).get k = some v := by
  induction d with
  | nil => simp [set, get]
  | cons e d ih =>
    by_cases h : e.1 = k <;> simp [set, get, h, ih]

theorem get_set_ne (hne : k' ≠ k) : (d.set k v).get k' = d.get k' := by
  induction d with
  | nil => simp [set, get, hne.symm]
  | cons e d ih =>
    by_cases h : e.1 = k
    · simp [set, get, h, hne.symm]
    · by_cases h' : e.1 = k'
      · simp [set, get, h', hne]
      · simp [set, get, h, h', ih]

@[simp] theorem get_pop_self : (d.pop k).get k = none := by
  induction d with
  | nil => rfl
  | cons e d ih =>
    by_cases h : e.1 = k
    · simpa [pop, h] using ih
    · simpa [pop, get, h] using ih

theorem get_pop_ne (hne : k' ≠ k) : (d.pop k).get k' = d.get k' := by
  induction d with
  | nil => rfl
  | cons e d ih =>
    by_cases h : e.1 = k
    · simpa [pop, get, h, hne.symm] using ih
    · by_cases h' : e.1 = k'
      · simp [pop, get, h', hne]
      · simpa [pop, get, h, h'] using ih

theorem mem_of_get {d : Dict κ ν} (h : d.get k = some v) : (k, v) ∈ d := by
  induction d with
  | nil => simp at h
  | cons e d ih =>
    rw [get] at h
    split at h
    · rename_i hk
      obtain ⟨rfl, rfl⟩ : e.1 = k ∧ e.2 = v := ⟨hk, Option.some.inj h⟩
      exact List.mem_cons_self
    · exact List.mem_cons_of_mem _ (ih h)

theorem get_of_mem_keys {d : Dict κ ν} (h : k ∈ d.keys) : ∃ v, d.get k = some v := by
  induction d with
  | nil => cases h
  | cons e d ih =>
    obtain ⟨l, v⟩ := e
    by_cases hl : l = k
    · exact ⟨v, by rw [get, if_pos hl]⟩
    · obtain rfl | hmem := List.mem_cons.mp h
      · exact absurd rfl hl
      · obtain ⟨w, hw⟩ := ih hmem
        exact ⟨w, by rw [get, if_neg hl, hw]⟩

theorem get_map_values {μ : Type*} (g : ν → μ) (d : Dict κ ν) (k : κ) :
    get (d.map fun e => (e.1, g e.2)) k = (d.get k).map g := by
  induction d with
  | nil => rfl
  | cons e d ih =>
    rw [List.map_cons, get, get]
    by_cases h : e.1 = k
    · rw [if_pos h, if_pos h, Option.map_some]
    · rw [if_neg h, if_neg h, ih]

theorem get_map_keys {μ : Type*} [DecidableEq μ] {f : κ → μ} (hf : Function.Injective f)
    (d : Dict κ ν) (k : κ) : get (d.map fun e => (f e.1, e.2)) (f k) = d.get k := by
  induction d with
  | nil => rfl
  | cons e d ih =>
    rw [List.map_cons, get, get]
    by_cases h : e.1 = k
    · rw [if_pos h, if_pos (congrArg f h)]
    · rw [if_neg h, if_neg fun heq => h (hf heq), ih]

theorem pop_head {d : Dict κ ν} (hk : k ∉ d.keys) : pop ((k, v) :: d) k = d := by
  have hkeep : ∀ e ∈ d, e.1 ≠ k := fun e he h => hk (List.mem_map.mpr ⟨e, he, h⟩)
  simpa [pop] using hkeep

/-! ## Keys are distinct -/

theorem keys_set : (d.set k v).keys = if k ∈ d.keys then d.keys else d.keys ++ [k] := by
  induction d with
  | nil => simp [set, keys]
  | cons e d ih =>
    by_cases h : e.1 = k
    · simp [set, keys, h]
    · have hne : ¬ k = e.1 := fun hk => h hk.symm
      simp only [keys] at ih
      by_cases hk : k ∈ d.map Prod.fst <;> simp [set, keys, h, hne, hk, ih]

theorem set_new (h : k ∉ d.keys) : d.set k v = d ++ [(k, v)] := by
  induction d with
  | nil => rfl
  | cons e d ih =>
    simp only [keys, List.map_cons, List.mem_cons, not_or] at h
    have hne : ¬ e.1 = k := fun heq => h.1 heq.symm
    rw [set, if_neg hne, ih h.2, List.cons_append]

theorem nodup_set (h : d.keys.Nodup) : (d.set k v).keys.Nodup := by
  rw [keys_set]
  split
  · exact h
  · rename_i hk
    refine List.nodup_append.mpr ⟨h, List.nodup_singleton k, ?_⟩
    rintro a ha b hb rfl
    exact hk (List.mem_singleton.mp hb ▸ ha)

theorem nodup_pop (h : d.keys.Nodup) : (d.pop k).keys.Nodup :=
  h.sublist (List.Sublist.map _ List.filter_sublist)

theorem get_of_mem (hd : d.keys.Nodup) (h : (k, v) ∈ d) : d.get k = some v := by
  induction d with
  | nil => cases h
  | cons e d ih =>
    obtain ⟨hk, hd⟩ := List.nodup_cons.mp hd
    rcases List.mem_cons.mp h with rfl | h
    · simp [get]
    · have hne : e.1 ≠ k := fun he => hk (List.mem_map.mpr ⟨(k, v), h, he.symm⟩)
      rw [get, if_neg hne]
      exact ih hd h

/-- Values are distinct where no two keys have the same. -/
theorem nodup_values (hd : d.keys.Nodup)
    (hinj : ∀ k k' v, d.get k = some v → d.get k' = some v → k = k') :
    (d.map Prod.snd).Nodup := by
  refine List.Nodup.map_on (fun e he e' he' hv => ?_) hd.of_map
  have hk : e.1 = e'.1 := hinj e.1 e'.1 e.2 (get_of_mem hd he) (hv ▸ get_of_mem hd he')
  exact Prod.ext hk hv

/-! ## Some of the keys -/

omit [DecidableEq κ] in
/-- The items whose key satisfies `p`. -/
def restrict (d : Dict κ ν) (p : κ → Bool) : Dict κ ν := d.filter fun e => p e.1

variable {p : κ → Bool}

theorem get_restrict (hk : p k = true) : (d.restrict p).get k = d.get k := by
  induction d with
  | nil => rfl
  | cons e d ih =>
    by_cases h : e.1 = k
    · simp [restrict, get, h, hk]
    · by_cases hp : p e.1 = true
      · simpa [restrict, get, h, hp] using ih
      · simpa [restrict, get, h, hp] using ih

theorem restrict_set : (d.set k v).restrict p =
    if p k = true then (d.restrict p).set k v else d.restrict p := by
  induction d with
  | nil => cases hk : p k <;> simp [restrict, set, hk]
  | cons e d ih =>
    by_cases h : e.1 = k
    · cases hk : p k <;> simp [restrict, set, h, hk]
    · simp only [restrict] at ih
      cases hk : p k <;> cases hp : p e.1 <;> simp [restrict, set, h, hk, hp, ih]

theorem restrict_pop : (d.pop k).restrict p = (d.restrict p).pop k := by
  simp only [restrict, pop, List.filter_filter, Bool.and_comm]

theorem restrict_pop_ne (hk : p k = false) : (d.pop k).restrict p = d.restrict p := by
  rw [restrict, pop, List.filter_filter, restrict]
  refine List.filter_congr fun e _ => ?_
  by_cases he : e.1 = k
  · simp [he, hk]
  · simp [he]

omit [DecidableEq κ] in
theorem keys_restrict : (d.restrict p).keys = d.keys.filter p :=
  (List.filter_map ..).symm

end Dict

end RealtimeNotify.Python
