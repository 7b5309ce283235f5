import RealtimeNotify.Lib.Machine

/-!
# Bounded progress

A rank that some allowed action can always lower bounds the run to a state of rank zero.
-/

namespace RealtimeNotify.Lib

variable {σ α : Type*} {M : Machine σ α}

/-- From `s` a run of at most `n` actions, all of them in `own`, ends in `Q`. -/
def Machine.Completes (M : Machine σ α) (own : α → Prop) (n : Nat) (Q : σ → Prop) (s : σ) : Prop :=
  ∃ as t, as.length ≤ n ∧ (∀ a ∈ as, own a) ∧ M.run s as = some t ∧ Q t

variable {own : α → Prop} {Q : σ → Prop} {s t : σ} {n : Nat}

theorem Machine.Completes.done (h : Q s) : M.Completes own n Q s :=
  ⟨[], s, Nat.zero_le n, nofun, rfl, h⟩

theorem Machine.Completes.step {a : α} (ha : own a) (hstep : M.step s a = some t)
    (h : M.Completes own n Q t) : M.Completes own (n + 1) Q s := by
  obtain ⟨as, t', hlength, hown, hrun, hq⟩ := h
  refine ⟨a :: as, t', Nat.succ_le_succ hlength, ?_, ?_, hq⟩
  · intro b hb
    rcases List.mem_cons.mp hb with rfl | hb
    · exact ha
    · exact hown b hb
  · rw [Machine.run, hstep]
    exact hrun

theorem Machine.Completes.mono {m : Nat} (h : M.Completes own m Q s) (hle : m ≤ n) :
    M.Completes own n Q s := by
  obtain ⟨as, t, hlength, hrest⟩ := h
  exact ⟨as, t, Nat.le_trans hlength hle, hrest⟩

/-- `P s b` says that `b` is what matters of the state. Where a positive rank can always be
lowered by an action of `own`, the rank bounds the way to a state of rank zero. -/
theorem Machine.completes_of_rank {β : Type*} {P : σ → β → Prop} (rank : β → Nat)
    (progress : ∀ s b, P s b → rank b ≠ 0 →
      ∃ a t b', own a ∧ M.step s a = some t ∧ P t b' ∧ rank b' < rank b)
    {b : β} (hs : P s b) : M.Completes own (rank b) (fun t => ∃ b', P t b' ∧ rank b' = 0) s := by
  generalize hn : rank b = n
  induction n using Nat.strongRecOn generalizing s b with
  | ind n ih =>
    by_cases hzero : rank b = 0
    · exact .done ⟨b, hs, hzero⟩
    · obtain ⟨a, t, b', ha, hstep, ht, hlt⟩ := progress s b hs hzero
      have hrest := ih (rank b') (hn ▸ hlt) ht rfl
      exact (Machine.Completes.step ha hstep hrest).mono (by omega)

theorem Machine.Completes.imp {Q' : σ → Prop} (h : M.Completes own n Q s) (hq : ∀ t, Q t → Q' t) :
    M.Completes own n Q' s := by
  obtain ⟨as, t, hlength, hown, hrun, ht⟩ := h
  exact ⟨as, t, hlength, hown, hrun, hq t ht⟩

end RealtimeNotify.Lib
