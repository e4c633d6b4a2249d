import Mathlib.Data.List.Forall2
/-!
# Results that agree

Two results agree if both are failures, and the same one, or both are successes whose values are
related.  Steps that agree on related values can be put in sequence, and done item by item.
-/

namespace SchemaDocs.Results

variable {ε α β γ δ : Type} {R : α → β → Prop} {S : γ → δ → Prop}

/-- Whether two steps fail alike, or succeed with related values. -/
inductive Agree (R : α → β → Prop) : Except ε α → Except ε β → Prop where
  | ok {a : α} {b : β} (h : R a b) : Agree R (.ok a) (.ok b)
  | error (e : ε) : Agree R (.error e) (.error e)

theorem Agree.bind {x : Except ε α} {y : Except ε β} (h : Agree R x y) {f : α → Except ε γ}
    {g : β → Except ε δ} (hstep : ∀ a b, R a b → Agree S (f a) (g b)) :
    Agree S (x >>= f) (y >>= g) := by
  cases h with
  | ok hab => exact hstep _ _ hab
  | error e => exact .error e

theorem Agree.map {x : Except ε α} {y : Except ε β} (h : Agree R x y) {f : α → γ} {g : β → δ}
    (hstep : ∀ a b, R a b → S (f a) (g b)) : Agree S (x.map f) (y.map g) := by
  cases h with
  | ok hab => exact .ok (hstep _ _ hab)
  | error e => exact .error e

theorem Agree.mapError {ε' : Type} {x : Except ε α} {y : Except ε β} (h : Agree R x y)
    (f : ε → ε') : Agree R (x.mapError f) (y.mapError f) := by
  cases h with
  | ok hab => exact .ok hab
  | error e => exact .error (f e)

theorem Agree.exists_of_ok {x : Except ε α} {y : Except ε β} (h : Agree R x y) {a : α}
    (ha : x = .ok a) : ∃ b, y = .ok b ∧ R a b := by
  cases h with
  | ok hab =>
      cases ha
      exact ⟨_, rfl, hab⟩
  | error e => cases ha

theorem Agree.eq_error {x : Except ε α} {y : Except ε β} (h : Agree R x y) {e : ε}
    (he : x = .error e) : y = .error e := by
  cases h with
  | ok hab => cases he
  | error e =>
      cases he
      rfl

theorem agree_of_eq {x y : Except ε α} (h : x = y) : Agree Eq x y := by
  subst h
  cases x with
  | ok a => exact .ok rfl
  | error e => exact .error e

theorem Agree.eq {x y : Except ε α} (h : Agree Eq x y) : x = y := by
  cases h with
  | ok hab => rw [hab]
  | error e => rfl

theorem Agree.cons {x : Except ε α} {y : Except ε β} (h : Agree R x y) {xs : Except ε (List α)}
    {ys : Except ε (List β)} (hrest : Agree (List.Forall₂ R) xs ys) :
    Agree (List.Forall₂ R) (do let a ← x; let as ← xs; return a :: as)
      (do let b ← y; let bs ← ys; return b :: bs) :=
  h.bind fun _ _ hab => hrest.bind fun _ _ hs => .ok (.cons hab hs)

theorem agree_mapM {f : α → Except ε γ} {g : β → Except ε δ} {xs : List α} {ys : List β}
    (h : List.Forall₂ (fun x y => Agree S (f x) (g y)) xs ys) :
    Agree (List.Forall₂ S) (xs.mapM f) (ys.mapM g) := by
  induction h with
  | nil => exact .ok .nil
  | cons hfirst _ ih =>
      rw [List.mapM_cons, List.mapM_cons]
      exact hfirst.cons ih

end SchemaDocs.Results
