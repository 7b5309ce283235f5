import RealtimeNotify.Lib.Coroutine
import RealtimeNotify.Lib.Machine

/-!
# Two runs side by side

Two copies of a machine. A move is a step of one copy alone, or one that both
take with the same action. To relate the copies after every run of the pair it
is enough that a step taken alone does not leave the class of the state it is
taken from, and that a step taken by both leads from related states to related
states. For a step of a task this comes down to the operation it awaits.
-/

namespace RealtimeNotify.Lib

inductive Joint (α : Type*) where
  | left (a : α)
  | right (a : α)
  | both (a : α)

variable {σ α : Type*}

def Machine.twins (M : Machine σ α) : Machine (σ × σ) (Joint α) where
  init := (M.init, M.init)
  step p
    | .left a => (M.step p.1 a).map fun s => (s, p.2)
    | .right a => (M.step p.2 a).map fun t => (p.1, t)
    | .both a => (M.step p.1 a).bind fun s => (M.step p.2 a).map fun t => (s, t)

/-- Steps taken alone meet `alone`, steps taken by both meet `joint`. -/
def paired (alone : σ → α → Bool) (joint : σ → σ → α → Bool) (p : σ × σ) : Joint α → Bool
  | .left a => alone p.1 a
  | .right a => alone p.2 a
  | .both a => joint p.1 p.2 a

variable {M : Machine σ α} {G : σ → α → Prop} {alone : σ → α → Bool} {joint : σ → σ → α → Bool}
  {R : σ → σ → Prop}

/-- Each copy makes a run of its own, and the two stay related. -/
theorem Reach.unwinding (hR : Equivalence R) (halone : ∀ s a, alone s a = true → G s a)
    (hjoint : ∀ s t a, joint s t a = true → G s a ∧ G t a)
    (hleaves : ∀ {s s' a}, Reach M G s → alone s a = true → M.step s a = some s' → R s s')
    (hagree : ∀ {s t s' t' a}, Reach M G s → Reach M G t → joint s t a = true → R s t →
      M.step s a = some s' → M.step t a = some t' → R s' t')
    {p : σ × σ} (h : Reach M.twins (fun p a => paired alone joint p a = true) p) :
    Reach M G p.1 ∧ Reach M G p.2 ∧ R p.1 p.2 := by
  refine h.invariant (I := fun p => Reach M G p.1 ∧ Reach M G p.2 ∧ R p.1 p.2)
    ⟨.init, .init, hR.refl _⟩ ?_
  rintro ⟨s, t⟩ p' a - hg ⟨hs, ht, hrel⟩ hstep
  cases a with
  | left a =>
    obtain ⟨s', hs', rfl⟩ := Option.map_eq_some_iff.mp hstep
    exact ⟨hs.step (halone _ _ hg) hs', ht, hR.trans (hR.symm (hleaves hs hg hs')) hrel⟩
  | right a =>
    obtain ⟨t', ht', rfl⟩ := Option.map_eq_some_iff.mp hstep
    exact ⟨hs, ht.step (halone _ _ hg) ht', hR.trans hrel (hleaves ht hg ht')⟩
  | both a =>
    obtain ⟨s', hs', hstep⟩ := Option.bind_eq_some_iff.mp hstep
    obtain ⟨t', ht', rfl⟩ := Option.map_eq_some_iff.mp hstep
    obtain ⟨hgs, hgt⟩ := hjoint _ _ _ hg
    exact ⟨hs.step hgs hs', ht.step hgt ht', hagree hs ht hg hrel hs' ht'⟩

/-! ## A task of both copies -/

section

variable {τ κ : Type*} {Op Choice Pc : Type*} {Reply : Op → Type*} {S : Semantics τ Op Reply Choice}
  {same : ∀ op, Reply op → Reply op → Prop} {f : Pc → κ} {n n' m : Next Op Reply Pc}

/-- Both points await one operation, and go on to points alike under `f`. -/
inductive Next.Alike (same : ∀ op, Reply op → Reply op → Prop) (f : Pc → κ) :
    Next Op Reply Pc → Next Op Reply Pc → Prop where
  | call {op k k' r r'} : (∀ x y, same op x y → f (k x) = f (k' y)) → f r = f r' →
      Alike same f (.call op k r) (.call op k' r')

theorem Next.Alike.refl {op : Op} (hop : n.op? = some op) (hsame : ∀ x y, same op x y → x = y) :
    n.Alike same f n := by
  cases n with
  | done => cases hop
  | call op' k r =>
    obtain rfl := Option.some.inj hop
    exact .call (fun x y h => by rw [hsame x y h]) rfl

theorem Next.Alike.euclidean (hsame : ∀ op x, same op x x) (h : n.Alike same f m)
    (h' : n'.Alike same f m) : n.Alike same f n' := by
  cases h with
  | call hk hr =>
    cases h' with
    | call hk' hr' =>
      exact .call (fun x y hxy => (hk x y hxy).trans (hk' y y (hsame _ y)).symm) (hr.trans hr'.symm)

theorem Advances.op_eq {s s' : τ} {o : Outcome Choice} {pc : Pc} {e : Happened Op Reply}
    (h : Advances S s n o s' pc e) : ∃ op, n.op? = some op := by
  cases h with
  | returned hn _ | raised hn _ | applied hn _ _ => exact ⟨_, by rw [hn]; rfl⟩

/-- A step taken alone leaves what the operation leaves. -/
theorem Advances.leaves {V : τ → κ} {s s' : τ} {o : Outcome Choice} {pc : Pc}
    {e : Happened Op Reply} (h : Advances S s n o s' pc e)
    (hexec : ∀ op, n.op? = some op → ∀ c t x, S.exec s op c = some (t, x) → V t = V s) :
    V s' = V s := by
  cases h with
  | raised _ _ => rfl
  | returned hn hx | applied hn _ hx => exact hexec _ (by rw [hn]; rfl) _ _ _ hx

/-- A step taken by both agrees on what the operation agrees on. -/
theorem Advances.agrees {β : Type*} {V : τ → β} {s s' t t' : τ} {o : Outcome Choice} {pc pc' : Pc}
    {e e' : Happened Op Reply} (hn : n.Alike same f n') (hV : V s = V t)
    (h : Advances S s n o s' pc e) (h' : Advances S t n' o t' pc' e')
    (hexec : ∀ op, n.op? = some op → ∀ c u v x y, S.exec s op c = some (u, x) →
      S.exec t op c = some (v, y) → V u = V v ∧ same op x y) :
    V s' = V t' ∧ f pc = f pc' := by
  cases hn with
  | call hk hr =>
    cases h with
    | returned hn hx =>
      cases hn
      cases h' with
      | returned hn' hy =>
        cases hn'
        obtain ⟨hV', hsame⟩ := hexec _ rfl _ _ _ _ _ hx hy
        exact ⟨hV', hk _ _ hsame⟩
    | raised hn _ =>
      cases hn
      cases h' with
      | raised hn' _ =>
        cases hn'
        exact ⟨hV, hr⟩
    | applied hn _ hx =>
      cases hn
      cases h' with
      | applied hn' _ hy =>
        cases hn'
        exact ⟨(hexec _ rfl _ _ _ _ _ hx hy).1, hr⟩

end

end RealtimeNotify.Lib
