import Mathlib.Data.List.Infix

/-!
# Histories

A history is a list of events, the latest first. What is said about an event
may look at what came before it: `Each P` says it of every event of a history,
and one event more is one instance of `P` more.
-/

namespace RealtimeNotify.Lib

variable {α : Type*} {P Q : α → List α → Prop} {e : α} {log : List α}

/-- `P` holds of every event and what came before it. -/
def Each (P : α → List α → Prop) (log : List α) : Prop :=
  ∀ e before, e :: before <:+ log → P e before

namespace Each

@[simp] theorem nil : Each P [] := by simp [Each]

theorem cons_iff : Each P (e :: log) ↔ P e log ∧ Each P log := by
  constructor
  · intro h
    exact ⟨h e log List.suffix_rfl, fun e' before hsuf =>
      h e' before (hsuf.trans (List.suffix_cons e log))⟩
  · rintro ⟨he, hlog⟩ e' before hsuf
    rcases List.suffix_cons_iff.mp hsuf with heq | hsuf
    · obtain ⟨rfl, rfl⟩ := by simpa using heq
      exact he
    · exact hlog e' before hsuf

theorem mono (h : Each P log) (hPQ : ∀ e before, P e before → Q e before) : Each Q log :=
  fun e before hsuf => hPQ e before (h e before hsuf)

theorem suffix {before : List α} (h : Each P log) (hsuf : before <:+ log) : Each P before :=
  fun e older hs => h e older (hs.trans hsuf)

/-- What holds of every event holds, at every event, of all before it. -/
theorem deep (h : Each P log) : Each (fun e before => P e before ∧ Each P before) log :=
  fun e before hsuf => ⟨h e before hsuf, h.suffix ((List.suffix_cons e before).trans hsuf)⟩

theorem and (h : Each P log) (h' : Each Q log) :
    Each (fun e before => P e before ∧ Q e before) log :=
  fun e before hsuf => ⟨h e before hsuf, h' e before hsuf⟩

theorem of_mem (h : Each P log) (he : e ∈ log) : ∃ before, before ⊆ log ∧ P e before := by
  obtain ⟨later, before, rfl⟩ := List.append_of_mem he
  refine ⟨before, fun x hx => by simp [hx], h _ _ ⟨later, rfl⟩⟩

/-- An event of the later part has the whole earlier part before it. -/
theorem of_mem_append {after older : List α} (h : Each P (after ++ older)) (he : e ∈ after) :
    ∃ rest, P e (rest ++ older) := by
  obtain ⟨later, rest, rfl⟩ := List.append_of_mem he
  exact ⟨rest, h _ _ ⟨later, by simp⟩⟩

/-- If no event of a kind has one of its kind before it, there is at most one. -/
theorem countP_le_one {p : α → Bool}
    (h : Each (fun e before => p e = true → ∀ e' ∈ before, p e' = false) log) :
    log.countP p ≤ 1 := by
  induction log with
  | nil => simp
  | cons e log ih =>
    rw [cons_iff] at h
    by_cases he : p e = true
    · have hzero : log.countP p = 0 := by
        rw [List.countP_eq_zero]
        intro e' he'
        simp [h.1 he e' he']
      simp [he, hzero]
    · rw [List.countP_cons_of_neg (by simpa using he)]
      exact ih h.2

end Each

end RealtimeNotify.Lib
