import P2PNetcat.Library.StepSystem

/-!
# Two ends that step in any order

One end acts at a time and may change the other end too. What holds between the
acting end and the other, in both directions, is kept along a run as soon as a
single act keeps it.

Between the ends items wait in the order they came, each on its lane. A lane is
served first in, first out; serving one lane leaves the others as they are.
-/

universe u v

namespace TwoParty
open StepSystem
variable {α : Type u} {ε : Type v}

inductive Side where
  | near | far
  deriving DecidableEq

def Side.other : Side → Side
  | .near => .far
  | .far => .near

@[simp] theorem Side.other_other (x : Side) : x.other.other = x := by
  cases x <;> rfl

@[simp] theorem Side.other_ne (x : Side) : x.other ≠ x := by
  cases x <;> simp [other]

def place (x : Side) (a b : α) : Side → α := fun y => if y = x then a else b

@[simp] theorem place_self (x : Side) (a b : α) : place x a b x = a := if_pos rfl

@[simp] theorem place_other (x : Side) (a b : α) : place x a b x.other = b := if_neg x.other_ne

theorem place_far (a b : α) : place .far a b = place .near b a := by
  funext x
  cases x <;> rfl

theorem Side.eq_or_eq_other (x y : Side) : y = x ∨ y = x.other := by
  cases x <;> cases y <;> simp [other]

theorem place_relates {D : α → α → Prop} (x : Side) {a b : α} (h : D a b) (h' : D b a) (y : Side) :
    D (place x a b y) (place x a b y.other) := by
  rcases x.eq_or_eq_other y with rfl | rfl
  · simpa using h
  · simpa using h'

section Runs
variable (act : α → α → ε → Option (α × α)) (ok : α → α → ε → Prop)

def step (s : Side → α) (e : Side × ε) : Option (Side → α) :=
  (act (s e.1) (s e.1.other) e.2).map fun p => place e.1 p.1 p.2

def Locally (s : Side → α) (e : Side × ε) : Prop := ok (s e.1) (s e.1.other) e.2

instance [∀ a b ev, Decidable (ok a b ev)] (s : Side → α) (e : Side × ε) :
    Decidable (Locally ok s e) := inferInstanceAs (Decidable (ok _ _ _))

variable {act ok} {s t : Side → α} {es : List (Side × ε)}

/-- A relation between the ends that every admitted act keeps, seen from the end that acts and
from the other one, holds in both directions at the end of every run. -/
theorem relates_of_run {D : α → α → Prop}
    (hact : ∀ {a b ev a' b'}, D a b → D b a → ok a b ev → act a b ev = some (a', b') →
      D a' b' ∧ D b' a')
    (hrun : Run (step act) (Locally ok) s es t) (hs : ∀ x, D (s x) (s x.other)) :
    ∀ x, D (t x) (t x.other) := by
  refine hrun.invariant (I := fun s => ∀ x, D (s x) (s x.other)) ?_ hs
  intro s e t hi hok ht
  obtain ⟨⟨a, b⟩, hab, rfl⟩ := Option.map_eq_some_iff.mp ht
  have hback := hi e.1.other
  rw [Side.other_other] at hback
  obtain ⟨hout, hin⟩ := hact (hi e.1) hback hok hab
  exact place_relates e.1 hout hin

end Runs

end TwoParty

namespace Lanes
variable {α : Type u} {lane : Nat} {q rest : List (Nat × α)} {x : α}

def pop (lane : Nat) : List (Nat × α) → Option (α × List (Nat × α))
  | [] => none
  | item :: rest =>
    if item.1 = lane then some (item.2, rest)
    else (pop lane rest).map fun p => (p.1, item :: p.2)

def drop (lane : Nat) (q : List (Nat × α)) : List (Nat × α) := q.filter fun item => item.1 ≠ lane

theorem pop_eq_some (h : pop lane q = some (x, rest)) :
    ∃ front back, q = front ++ (lane, x) :: back ∧ rest = front ++ back ∧
      ∀ item ∈ front, item.1 ≠ lane := by
  induction q generalizing rest with
  | nil => cases h
  | cons item q ih =>
    simp only [pop] at h
    split at h
    next hlane =>
      cases h
      exact ⟨[], _, by rw [← hlane]; rfl, rfl, by simp⟩
    next hlane =>
      obtain ⟨⟨y, rest'⟩, hpop, heq⟩ := Option.map_eq_some_iff.mp h
      cases heq
      obtain ⟨front, back, rfl, rfl, hfront⟩ := ih hpop
      refine ⟨item :: front, back, rfl, rfl, ?_⟩
      rintro i (_ | ⟨_, hi⟩)
      · exact hlane
      · exact hfront i hi

theorem pop_head (lane : Nat) (x : α) (q : List (Nat × α)) :
    pop lane ((lane, x) :: q) = some (x, q) :=
  if_pos rfl

theorem mem_of_mem_drop {item : Nat × α} (h : item ∈ drop lane q) : item ∈ q :=
  (List.mem_filter.mp h).1

end Lanes
