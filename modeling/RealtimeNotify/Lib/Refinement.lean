import RealtimeNotify.Lib.Machine

/-!
# Refinement of a specification

A specification says which steps are allowed, a machine takes some. A machine refines it
under a view of its states when every step it takes is silent or allowed: its runs are then
runs of the specification, and what the specification guarantees holds of it.
-/

namespace RealtimeNotify.Lib

/-- Initial states and labelled steps, any number of them possible. -/
structure Spec (σ β : Type*) where
  init : σ → Prop
  step : σ → β → σ → Prop

variable {σ τ α β : Type*} {S : Spec σ β}

/-- The labels of a run, the latest first, and the state it ends in. -/
inductive Spec.Run (S : Spec σ β) : List β → σ → Prop where
  | init {s : σ} : S.init s → Run S [] s
  | step {s s' : σ} {b : β} {bs : List β} : Run S bs s → S.step s b s' → Run S (b :: bs) s'

/-- What holds at the start and is kept by every allowed step holds along every run. -/
theorem Spec.Run.invariant {I : σ → Prop} (init : ∀ s, S.init s → I s)
    (step : ∀ {s b s'}, I s → S.step s b s' → I s') {bs : List β} {s : σ} (h : S.Run bs s) :
    I s := by
  induction h with
  | init hs => exact init _ hs
  | step _ hs ih => exact step ih hs

/-- Every step of the machine is silent or allowed. -/
structure Machine.Refines (M : Machine τ α) (G : τ → α → Prop) (S : Spec σ β) (view : τ → σ) :
    Prop where
  init : S.init (view M.init)
  step : ∀ {s s' a}, Reach M G s → G s a → M.step s a = some s' →
    view s' = view s ∨ ∃ b, S.step (view s) b (view s')

/-- The runs of the machine are runs of the specification. -/
theorem Machine.Refines.run {M : Machine τ α} {G : τ → α → Prop} {view : τ → σ}
    (h : M.Refines G S view) {s : τ} (hs : Reach M G s) : ∃ bs, S.Run bs (view s) := by
  induction hs with
  | init => exact ⟨[], .init h.init⟩
  | step hr hg hstep ih =>
    obtain ⟨bs, hbs⟩ := ih
    rcases h.step hr hg hstep with heq | ⟨b, hb⟩
    · exact ⟨bs, heq ▸ hbs⟩
    · exact ⟨b :: bs, hbs.step hb⟩

end RealtimeNotify.Lib
