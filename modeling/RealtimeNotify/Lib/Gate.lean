import Mathlib.Tactic.TypeStar

/-!
# Requests behind a gate

A gate answers every request, and the answer says whether the operation of the
request was performed. What else a gate does to the state, an observer `R` does
not see: to this observer a run of the gate is a run of the operations it admitted.
-/

namespace RealtimeNotify.Lib

/-- `wait` is what passes before a request, `serve` the answer to it, `perform` its
operation alone. A partial function has no value where the call raises. -/
structure Gate (σ ρ α : Type*) where
  wait : ρ → σ → σ
  serve : ρ → σ → Option (σ × α)
  admitted : α → Bool
  perform : ρ → σ → Option σ

namespace Gate

variable {σ ρ α : Type*}

/-- The state after the requests, and the answers. -/
def serveAll (g : Gate σ ρ α) : List ρ → σ → Option (σ × List α)
  | [], s => some (s, [])
  | m :: ms, s => (g.serve m (g.wait m s)).bind fun p =>
      (g.serveAll ms p.1).map fun q => (q.1, p.2 :: q.2)

/-- The operations of the requests that were admitted, each at its time. -/
def performAll (g : Gate σ ρ α) : List (ρ × α) → σ → Option σ
  | [], s => some s
  | (m, a) :: rest, s =>
      if g.admitted a then (g.perform m (g.wait m s)).bind (g.performAll rest)
      else g.performAll rest (g.wait m s)

/-- What an observer has to be blind for, and what it may not be. -/
structure Hidden (g : Gate σ ρ α) (R : σ → σ → Prop) : Prop where
  equivalence : Equivalence R
  wait : ∀ {m s t}, R s t → R (g.wait m s) (g.wait m t)
  turnedAway : ∀ {m s s' a}, g.serve m s = some (s', a) → g.admitted a = false → R s' s
  served : ∀ {m s s' a}, g.serve m s = some (s', a) → g.admitted a = true →
    ∃ t, g.perform m s = some t ∧ R s' t
  perform : ∀ {m s t s'}, R s t → g.perform m s = some s' →
    ∃ t', g.perform m t = some t' ∧ R s' t'

variable {g : Gate σ ρ α} {R : σ → σ → Prop} {s t s' : σ} {ms : List ρ} {answers : List α}

theorem serveAll_cons {m : ρ} (h : g.serveAll (m :: ms) s = some (s', answers)) :
    ∃ s₁ a rest, g.serve m (g.wait m s) = some (s₁, a) ∧
      g.serveAll ms s₁ = some (s', rest) ∧ answers = a :: rest := by
  obtain ⟨⟨s₁, a⟩, hserve, hmap⟩ := Option.bind_eq_some_iff.mp h
  obtain ⟨⟨s₂, rest⟩, hrest, heq⟩ := Option.map_eq_some_iff.mp hmap
  obtain ⟨rfl, rfl⟩ := Prod.mk.inj heq
  exact ⟨s₁, a, rest, hserve, hrest, rfl⟩

theorem serveAll_length (h : g.serveAll ms s = some (s', answers)) :
    answers.length = ms.length := by
  induction ms generalizing s answers with
  | nil =>
    obtain ⟨-, rfl⟩ := Prod.mk.inj (Option.some.inj h)
    rfl
  | cons m ms ih =>
    obtain ⟨s₁, a, rest, -, hrest, rfl⟩ := serveAll_cons h
    rw [List.length_cons, List.length_cons, ih hrest]

theorem Hidden.performAll_of_serveAll (hg : g.Hidden R) (hR : R s t)
    (h : g.serveAll ms s = some (s', answers)) :
    ∃ t', g.performAll (ms.zip answers) t = some t' ∧ R s' t' := by
  induction ms generalizing s t answers with
  | nil =>
    obtain ⟨rfl, rfl⟩ := Prod.mk.inj (Option.some.inj h)
    exact ⟨t, rfl, hR⟩
  | cons m ms ih =>
    obtain ⟨s₁, a, rest, hserve, hrest, rfl⟩ := serveAll_cons h
    have hwait : R (g.wait m s) (g.wait m t) := hg.wait hR
    rw [List.zip_cons_cons, performAll]
    cases ha : g.admitted a with
    | false =>
      have haway : R s₁ (g.wait m s) := hg.turnedAway hserve ha
      exact ih (hg.equivalence.trans haway hwait) hrest
    | true =>
      obtain ⟨s₁', hperform, hserved⟩ := hg.served hserve ha
      obtain ⟨t₁, hperform', hsame⟩ := hg.perform hwait hperform
      obtain ⟨t', ht', hend⟩ := ih (hg.equivalence.trans hserved hsame) hrest
      exact ⟨t', by simpa [hperform'] using ht', hend⟩

end Gate

end RealtimeNotify.Lib
