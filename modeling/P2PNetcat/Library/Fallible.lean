import Mathlib.Data.List.Forall2

/-! Taking fallible computations apart: what a successful bind went through. -/

namespace Fallible

universe u
variable {e : Type u} {A B : Type u} {f : A → Except e B} {x : Except e A}

theorem bind_eq_ok {r : B} :
    x >>= f = .ok r ↔ ∃ a, x = .ok a ∧ f a = .ok r := by
  cases x with
  | error err | ok a => simp [bind, Except.bind]

theorem ite_error_eq_ok {p : Prop} [Decidable p] {err : e} {r : A} :
    (if p then .error err else x) = .ok r ↔ ¬ p ∧ x = .ok r := by
  by_cases h : p
  · simp [h]
  · simp [h]

theorem mapM_cons_eq_ok {x : A} {xs : List A} {ys : List B} :
    (x :: xs).mapM f = .ok ys ↔ ∃ y rest, f x = .ok y ∧ xs.mapM f = .ok rest ∧ ys = y :: rest := by
  rw [List.mapM_cons, bind_eq_ok]
  simp only [bind_eq_ok, pure, Except.pure, Except.ok.injEq]
  constructor
  · rintro ⟨y, hy, rest, hrest, rfl⟩
    exact ⟨y, rest, hy, hrest, rfl⟩
  · rintro ⟨y, rest, hy, hrest, rfl⟩
    exact ⟨y, hy, rest, hrest, rfl⟩

theorem mapM_eq_ok_iff {xs : List A} {ys : List B} :
    xs.mapM f = .ok ys ↔ List.Forall₂ (fun x y => f x = .ok y) xs ys := by
  induction xs generalizing ys with
  | nil =>
    rw [List.mapM_nil, List.forall₂_nil_left_iff]
    exact ⟨fun h => (Except.ok.inj h).symm, fun h => congrArg Except.ok h.symm⟩
  | cons x xs ih =>
    rw [mapM_cons_eq_ok, List.forall₂_cons_left_iff]
    constructor
    · rintro ⟨y, rest, hy, hrest, rfl⟩
      exact ⟨y, rest, hy, ih.mp hrest, rfl⟩
    · rintro ⟨y, rest, hy, hrest, rfl⟩
      exact ⟨y, rest, hy, ih.mpr hrest, rfl⟩

theorem mapM_isOk_iff {xs : List A} :
    (∃ ys, xs.mapM f = .ok ys) ↔ ∀ x ∈ xs, ∃ y, f x = .ok y := by
  induction xs with
  | nil => exact ⟨fun _ _ h => absurd h List.not_mem_nil, fun _ => ⟨[], rfl⟩⟩
  | cons x xs ih =>
    rw [List.forall_mem_cons, ← ih]
    constructor
    · rintro ⟨ys, h⟩
      obtain ⟨y, rest, hy, hrest, -⟩ := mapM_cons_eq_ok.mp h
      exact ⟨⟨y, hy⟩, rest, hrest⟩
    · rintro ⟨⟨y, hy⟩, rest, hrest⟩
      exact ⟨y :: rest, mapM_cons_eq_ok.mpr ⟨y, rest, hy, hrest, rfl⟩⟩

theorem mapM_map_eq_ok {C : Type u} {k : C → A} {g : C → B} {xs : List C}
    (h : ∀ x ∈ xs, f (k x) = .ok (g x)) : (xs.map k).mapM f = .ok (xs.map g) := by
  induction xs with
  | nil => rfl
  | cons x xs ih =>
    obtain ⟨hx, hxs⟩ := List.forall_mem_cons.mp h
    exact mapM_cons_eq_ok.mpr ⟨g x, xs.map g, hx, ih hxs, rfl⟩

def failure (x : Except e A) : Option e :=
  match x with
  | .error err => some err
  | .ok _ => none

theorem failure_eq_some {err : e} (h : failure x = some err) : x = .error err := by
  cases x with
  | error other => exact congrArg Except.error (Option.some.inj h)
  | ok a => cases h

theorem toOption_congr {x y : Except e A} (h : ∀ a, x = .ok a ↔ y = .ok a) :
    x.toOption = y.toOption := by
  cases x with
  | ok a => rw [(h a).mp rfl]
  | error err =>
    cases y with
    | ok b => cases (h b).mpr rfl
    | error other => rfl

theorem exists_of_isSome (h : x.toOption.isSome = true) : ∃ a, x = .ok a := by
  cases x with
  | error err => cases h
  | ok a => exact ⟨a, rfl⟩

end Fallible
