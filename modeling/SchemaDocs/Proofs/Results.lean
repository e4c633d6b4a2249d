import Mathlib.Data.List.Forall2
/-!
# Results of steps that may fail

A sequence of steps succeeds exactly if each of them does, and its results are those of the steps
one by one.
-/

namespace SchemaDocs.Results

variable {ε α β γ : Type}

theorem bind_eq_ok {x : Except ε α} {f : α → Except ε β} {b : β} :
    x >>= f = .ok b ↔ ∃ a, x = .ok a ∧ f a = .ok b := by
  cases x with
  | error e => simp [bind, Except.bind]
  | ok a => simp [bind, Except.bind]

theorem bind_eq_error {x : Except ε α} {f : α → Except ε β} {e : ε} :
    x >>= f = .error e ↔ x = .error e ∨ ∃ a, x = .ok a ∧ f a = .error e := by
  cases x with
  | error e => simp [bind, Except.bind]
  | ok a => simp [bind, Except.bind]

theorem map_eq_ok {x : Except ε α} {f : α → β} {b : β} :
    x.map f = .ok b ↔ ∃ a, x = .ok a ∧ f a = b := by
  cases x with
  | error e => simp [Except.map]
  | ok a => simp [Except.map]

theorem map_eq_error {x : Except ε α} {f : α → β} {e : ε} :
    x.map f = .error e ↔ x = .error e := by
  cases x with
  | error e => simp [Except.map]
  | ok a => simp [Except.map]

theorem mapError_eq_ok {ε' : Type} {x : Except ε α} {f : ε → ε'} {a : α} :
    x.mapError f = .ok a ↔ x = .ok a := by
  cases x with
  | error e => simp [Except.mapError]
  | ok b => simp [Except.mapError]

theorem cons_eq_ok {x : Except ε β} {xs : Except ε (List β)} {zs : List β} :
    (do let y ← x; let ys ← xs; return y :: ys) = .ok zs ↔
      ∃ y ys, x = .ok y ∧ xs = .ok ys ∧ zs = y :: ys := by
  rw [bind_eq_ok]
  constructor
  · rintro ⟨y, hy, h⟩
    obtain ⟨ys, hys, h⟩ := bind_eq_ok.mp h
    cases h
    exact ⟨y, ys, hy, hys, rfl⟩
  · rintro ⟨y, ys, hy, hys, rfl⟩
    exact ⟨y, hy, bind_eq_ok.mpr ⟨ys, hys, rfl⟩⟩

/-! ## What is kept of results -/

section Kept

variable {f : α → γ} {x y : Except ε α} {xs ys : Except ε (List α)}

theorem map_cons (x : Except ε α) (xs : Except ε (List α)) :
    (do let a ← x; let as ← xs; return a :: as).map (List.map f) =
      (do let c ← x.map f; let cs ← xs.map (List.map f); return c :: cs) := by
  cases x with
  | error e => rfl
  | ok a => cases xs <;> rfl

theorem map_cons_congr (h : x.map f = y.map f) (hrest : xs.map (List.map f) = ys.map (List.map f)) :
    (do let a ← x; let as ← xs; return a :: as).map (List.map f) =
      (do let a ← y; let as ← ys; return a :: as).map (List.map f) := by
  rw [map_cons, map_cons, h, hrest]

theorem map_map_congr {δ : Type} {g : α → β} {h : β → δ} {k : γ → δ} (hxy : x.map f = y.map f)
    (hstep : ∀ a, h (g a) = k (f a)) : (x.map g).map h = (y.map g).map h := by
  have hkept : ∀ z : Except ε α, (z.map g).map h = (z.map f).map k := by
    intro z
    cases z with
    | error e => rfl
    | ok a => exact congrArg Except.ok (hstep a)
  rw [hkept, hxy, hkept]

theorem mapM_map_eq {δ : Type} {f : β → Except ε δ} {g : α → β} {k : α → Except ε γ} {h : γ → δ}
    (hstep : ∀ a, f (g a) = (k a).map h) (as : List α) :
    (as.map g).mapM f = (as.mapM k).map (List.map h) := by
  induction as with
  | nil => rfl
  | cons a as ih => rw [List.map_cons, List.mapM_cons, List.mapM_cons, hstep, ih, map_cons]

end Kept

/-! ## Steps done item by item -/

theorem mapM_eq_ok {f : α → Except ε β} {xs : List α} {ys : List β} :
    xs.mapM f = .ok ys ↔ List.Forall₂ (fun x y => f x = .ok y) xs ys := by
  induction xs generalizing ys with
  | nil => cases ys <;> simp [pure, Except.pure]
  | cons x xs ih =>
      rw [List.mapM_cons, cons_eq_ok]
      simp only [ih, List.forall₂_cons_left_iff]

theorem exists_mapM_eq_ok {f : α → Except ε β} {xs : List α} (h : ∀ x ∈ xs, ∃ y, f x = .ok y) :
    ∃ ys, xs.mapM f = .ok ys := by
  induction xs with
  | nil => exact ⟨[], rfl⟩
  | cons x xs ih =>
      obtain ⟨y, hy⟩ := h x List.mem_cons_self
      obtain ⟨ys, hys⟩ := ih fun z hz => h z (List.mem_cons_of_mem x hz)
      exact ⟨y :: ys, mapM_eq_ok.mpr (.cons hy (mapM_eq_ok.mp hys))⟩

/-! ## Lists that correspond item by item -/

theorem forall₂_singleton_left_iff {R : α → β → Prop} {x : α} {ys : List β} :
    List.Forall₂ R [x] ys ↔ ∃ y, R x y ∧ ys = [y] := by
  simp only [List.forall₂_cons_left_iff, List.forall₂_nil_left_iff, exists_and_left,
    exists_eq_left]

theorem exists_of_mem_right {R : α → β → Prop} {xs : List α} {ys : List β} {y : β}
    (h : List.Forall₂ R xs ys) (hy : y ∈ ys) : ∃ x ∈ xs, R x y := by
  induction h with
  | nil => exact absurd hy List.not_mem_nil
  | @cons a b as bs hab _ ih =>
      rcases List.mem_cons.mp hy with rfl | hmem
      · exact ⟨a, List.mem_cons_self, hab⟩
      · obtain ⟨x, hx, hxy⟩ := ih hmem
        exact ⟨x, List.mem_cons_of_mem a hx, hxy⟩

theorem exists_of_mem_left {R : α → β → Prop} {xs : List α} {ys : List β} {x : α}
    (h : List.Forall₂ R xs ys) (hx : x ∈ xs) : ∃ y ∈ ys, R x y :=
  exists_of_mem_right h.flip hx

theorem forall₂_of_related {δ : Type} {R : α → β → Prop} {S : γ → δ → Prop} {T : α → γ → Prop}
    {U : β → δ → Prop} {as : List α} {bs : List β} {cs : List γ} {ds : List δ}
    (hR : List.Forall₂ R as bs) (hS : List.Forall₂ S cs ds) (hT : List.Forall₂ T as cs)
    (hstep : ∀ a b c d, R a b → S c d → T a c → U b d) : List.Forall₂ U bs ds := by
  induction hT generalizing bs ds with
  | nil =>
      cases hR
      cases hS
      exact .nil
  | cons hac _ ih =>
      obtain ⟨b, bs, hab, hbs, rfl⟩ := List.forall₂_cons_left_iff.mp hR
      obtain ⟨d, ds, hcd, hds, rfl⟩ := List.forall₂_cons_left_iff.mp hS
      exact .cons (hstep _ _ _ _ hab hcd hac) (ih hbs hds)

theorem flatMap_eq_of_forall₂ {R : α → β → Prop} {xs : List α} {ys : List β}
    (h : List.Forall₂ R xs ys) {f : α → List γ} {g : β → List γ}
    (hstep : ∀ x y, R x y → f x = g y) : xs.flatMap f = ys.flatMap g := by
  induction h with
  | nil => rfl
  | cons hxy _ ih => rw [List.flatMap_cons, List.flatMap_cons, hstep _ _ hxy, ih]

theorem mapM_eq_some_map {R : α → β → Prop} {f : β → Option γ} {g : α → γ} {xs : List α}
    {ys : List β} (h : List.Forall₂ R xs ys) (hstep : ∀ x y, R x y → f y = some (g x)) :
    ys.mapM f = some (xs.map g) := by
  induction h with
  | nil => rfl
  | cons hxy _ ih => rw [List.mapM_cons, hstep _ _ hxy, ih, List.map_cons]; rfl

end SchemaDocs.Results
