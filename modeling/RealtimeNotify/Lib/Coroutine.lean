import Mathlib.Tactic.TypeStar

/-!
# Cooperative tasks

A coroutine is a set of program points. `Next` says what a point awaits: one
operation on the shared state, where the task resumes with the reply, and where
an exception raised by the operation takes it. A scheduler interleaves tasks at
these points only. An awaited operation may return, may raise without having
happened, or may raise after it took effect (the reply was lost).
-/

namespace RealtimeNotify.Lib

/-- What a program point awaits. -/
inductive Next (Op : Type*) (Reply : Op → Type*) (Pc : Type*) where
  | done
  | call (op : Op) (resume : Reply op → Pc) (raised : Pc)

/-- The operation that is awaited. -/
def Next.op? {Op : Type*} {Reply : Op → Type*} {Pc : Type*} : Next Op Reply Pc → Option Op
  | .done => none
  | .call op _ _ => some op

/-- How the environment answers an awaited operation. -/
inductive Outcome (Choice : Type*) where
  | ok (choice : Choice)
  | fail
  | failApplied (choice : Choice)

def Outcome.raises {Choice : Type*} : Outcome Choice → Bool
  | .ok _ => false
  | .fail | .failApplied _ => true

/-- What an observer of the shared state records of one awaited operation. -/
inductive Happened (Op : Type*) (Reply : Op → Type*) where
  | returned (op : Op) (reply : Reply op)
  | raised (op : Op) (applied : Bool)

/-- The operations that took effect, whether or not the caller learned of it. -/
def Happened.effect {Op : Type*} {Reply : Op → Type*} : Happened Op Reply → Option Op
  | .returned op _ => some op
  | .raised op true => some op
  | .raised _ false => none

/-- The meaning of the operations, and which of them can raise at all. -/
structure Semantics (σ Op : Type*) (Reply : Op → Type*) (Choice : Type*) where
  exec : σ → (op : Op) → Choice → Option (σ × Reply op)
  fallible : Op → Bool

variable {σ Op Choice Pc : Type*} {Reply : Op → Type*}

/-- One scheduling step of a task: the operation it awaits, and where it goes. -/
def Semantics.advance (S : Semantics σ Op Reply Choice) (s : σ) :
    Next Op Reply Pc → Outcome Choice → Option (σ × Pc × Happened Op Reply)
  | .done, _ => none
  | .call op resume _, .ok c =>
      (S.exec s op c).map fun p => (p.1, resume p.2, .returned op p.2)
  | .call op _ raised, .fail =>
      if S.fallible op then some (s, raised, .raised op false) else none
  | .call op _ raised, .failApplied c =>
      if S.fallible op then (S.exec s op c).map fun p => (p.1, raised, .raised op true)
      else none

/-- The three things a scheduling step can be. -/
inductive Advances (S : Semantics σ Op Reply Choice) (s : σ) (n : Next Op Reply Pc) :
    Outcome Choice → σ → Pc → Happened Op Reply → Prop where
  | returned {op k r c s' reply} : n = .call op k r → S.exec s op c = some (s', reply) →
      Advances S s n (.ok c) s' (k reply) (.returned op reply)
  | raised {op k r} : n = .call op k r → S.fallible op = true →
      Advances S s n .fail s r (.raised op false)
  | applied {op k r c s' reply} : n = .call op k r → S.fallible op = true →
      S.exec s op c = some (s', reply) →
      Advances S s n (.failApplied c) s' r (.raised op true)

theorem Semantics.advances_of_eq {S : Semantics σ Op Reply Choice} {s s' : σ}
    {n : Next Op Reply Pc} {o : Outcome Choice} {pc : Pc} {e : Happened Op Reply}
    (h : S.advance s n o = some (s', pc, e)) : Advances S s n o s' pc e := by
  cases n with
  | done => simp [advance] at h
  | call op k r =>
    cases o with
    | ok c =>
      simp only [advance, Option.map_eq_some_iff, Prod.mk.injEq] at h
      obtain ⟨⟨t, reply⟩, hx, rfl, rfl, rfl⟩ := h
      exact .returned rfl hx
    | fail =>
      simp only [advance, Option.ite_none_right_eq_some, Option.some.injEq, Prod.mk.injEq] at h
      obtain ⟨hf, rfl, rfl, rfl⟩ := h
      exact .raised rfl hf
    | failApplied c =>
      simp only [advance, Option.ite_none_right_eq_some, Option.map_eq_some_iff,
        Prod.mk.injEq] at h
      obtain ⟨hf, ⟨t, reply⟩, hx, rfl, rfl, rfl⟩ := h
      exact .applied rfl hf hx

/-- A coroutine takes steps with no other task in between. -/
inductive Semantics.Alone (S : Semantics σ Op Reply Choice) (next : Pc → Next Op Reply Pc) :
    σ → Pc → σ → Pc → Prop where
  | refl {s : σ} {pc : Pc} : Alone S next s pc s pc
  | step {s s' s'' : σ} {pc pc' pc'' : Pc} {o : Outcome Choice} {e : Happened Op Reply} :
      Advances S s (next pc) o s' pc' e → Alone S next s' pc' s'' pc'' →
      Alone S next s pc s'' pc''

theorem Semantics.Alone.trans {S : Semantics σ Op Reply Choice} {next : Pc → Next Op Reply Pc}
    {s s' s'' : σ} {pc pc' pc'' : Pc} (h : S.Alone next s pc s' pc')
    (h' : S.Alone next s' pc' s'' pc'') : S.Alone next s pc s'' pc'' := by
  induction h with
  | refl => exact h'
  | step hadv _ ih => exact .step hadv (ih h')

end RealtimeNotify.Lib
