import Mathlib.Tactic.TypeStar

/-!
# Machines with partial steps

A machine is an initial state and a step that an action may or may not be
enabled in. `Reach` is the set of states it reaches when every step taken meets
a guard, which may look at the state before the step: an assumption about the
environment is a guard, and an unguarded machine has the guard that always
holds. `Reach.invariant` is the only induction over runs in this development.
-/

namespace RealtimeNotify.Lib

/-- An initial state and a step; `none` says that the action is not enabled. -/
structure Machine (σ α : Type*) where
  init : σ
  step : σ → α → Option σ

variable {σ α : Type*} {M : Machine σ α} {G H : σ → α → Prop}

/-- The states reached by steps that all meet `G`. -/
inductive Reach (M : Machine σ α) (G : σ → α → Prop) : σ → Prop where
  | init : Reach M G M.init
  | step {s s' : σ} {a : α} : Reach M G s → G s a → M.step s a = some s' → Reach M G s'

/-- What holds at the start and is kept by every guarded step from a reachable
state holds of every reachable state. -/
theorem Reach.invariant {I : σ → Prop} (init : I M.init)
    (step : ∀ {s s' a}, Reach M G s → G s a → I s → M.step s a = some s' → I s')
    {s : σ} (h : Reach M G s) : I s := by
  induction h with
  | init => exact init
  | step hr hg hs ih => exact step hr hg ih hs

/-- A stronger guard reaches fewer states. -/
theorem Reach.mono (hGH : ∀ s a, G s a → H s a) {s : σ} (h : Reach M G s) : Reach M H s := by
  induction h with
  | init => exact .init
  | step _ hg hs ih => exact .step ih (hGH _ _ hg) hs

/-- The stronger guard may be one that implies the other where it reaches. -/
theorem Reach.mono_of_reach (hGH : ∀ s a, Reach M G s → G s a → H s a) {s : σ}
    (h : Reach M G s) : Reach M H s := by
  induction h with
  | init => exact .init
  | step hr hg hs ih => exact .step ih (hGH _ _ hr hg) hs

/-- The machine from another state on. -/
def Machine.startAt (M : Machine σ α) (s : σ) : Machine σ α := ⟨s, M.step⟩

/-- What a state reaches is reached. -/
theorem Reach.trans {s t : σ} (hs : Reach M G s) (ht : Reach (M.startAt s) G t) :
    Reach M G t := by
  induction ht with
  | init => exact hs
  | step _ hg hstep ih => exact ih.step hg hstep

/-- A machine whose steps are steps of another one, or none, under a view of its
state reaches what the other one reaches. -/
theorem Reach.simulated {τ β : Type*} {N : Machine τ β} {H : τ → β → Prop} (view : σ → τ)
    (init : view M.init = N.init)
    (step : ∀ {s s' a}, Reach M G s → G s a → M.step s a = some s' →
      view s' = view s ∨ ∃ b, H (view s) b ∧ N.step (view s) b = some (view s'))
    {s : σ} (h : Reach M G s) : Reach N H (view s) := by
  induction h with
  | init => exact init ▸ .init
  | step hr hg hs ih =>
    rcases step hr hg hs with heq | ⟨b, hb, hstep⟩
    · exact heq ▸ ih
    · exact ih.step hb hstep

/-! ## Runs as lists of actions -/

/-- The state after the listed actions, `none` if one of them is not enabled. -/
def Machine.run (M : Machine σ α) : σ → List α → Option σ
  | s, [] => some s
  | s, a :: as => (M.step s a).bind fun s' => M.run s' as

/-- Every step of a run meets `G`. -/
def Machine.Meets (M : Machine σ α) (G : σ → α → Prop) : σ → List α → Prop
  | _, [] => True
  | s, a :: as => G s a ∧ ∀ s', M.step s a = some s' → M.Meets G s' as

/-- Whether a run meets a decidable guard can be computed. -/
instance Machine.Meets.decidable [∀ s a, Decidable (G s a)] :
    ∀ (s : σ) (as : List α), Decidable (M.Meets G s as)
  | _, [] => .isTrue trivial
  | s, a :: as =>
    have : Decidable (∀ s', M.step s a = some s' → M.Meets G s' as) :=
      match M.step s a with
      | none => .isTrue nofun
      | some s' => @decidable_of_iff _ _ (by simp) (Machine.Meets.decidable s' as)
    inferInstanceAs (Decidable (G s a ∧ _))

theorem Machine.Meets.of_actions (h : ∀ s a, a ∈ as → G s a) {s : σ} : M.Meets G s as := by
  induction as generalizing s with
  | nil => trivial
  | cons a as ih =>
    exact ⟨h s a (by simp), fun _ _ => ih (fun s b hb => h s b (by simp [hb]))⟩

theorem Machine.Meets.mono (hGH : ∀ s a, G s a → H s a) {as : List α} {s : σ}
    (h : M.Meets G s as) : M.Meets H s as := by
  induction as generalizing s with
  | nil => trivial
  | cons a as ih => exact ⟨hGH s a h.1, fun s' hs' => ih (h.2 s' hs')⟩

theorem Reach.of_run {s t : σ} {as : List α} (hs : Reach M G s) (hm : M.Meets G s as)
    (hr : M.run s as = some t) : Reach M G t := by
  induction as generalizing s with
  | nil =>
    simp only [Machine.run, Option.some.injEq] at hr
    exact hr ▸ hs
  | cons a as ih =>
    simp only [Machine.run, Option.bind_eq_some_iff] at hr
    obtain ⟨s', hs', hr⟩ := hr
    exact ih (hs.step hm.1 hs') (hm.2 s' hs') hr

/-- A run from the start in which every action may be taken. -/
theorem Reach.of_actions {t : σ} {as : List α} (h : ∀ s a, a ∈ as → G s a)
    (hr : M.run M.init as = some t) : Reach M G t :=
  .of_run .init (.of_actions h) hr

end RealtimeNotify.Lib
