import Mathlib.Logic.Function.Basic

/-!
# Tables of open resources

Every resource that is opened gets the next number. A number that was not given
out yet stands for nothing, so that closing one resource never touches another.
-/

universe u

structure Registry (α : Type u) where
  live : Nat → Option α
  next : Nat
  fresh : ∀ id, next ≤ id → live id = none

namespace Registry
open Function
variable {α : Type u} {r : Registry α} {id : Nat}

def empty : Registry α := ⟨fun _ => none, 0, fun _ _ => rfl⟩

def add (r : Registry α) (x : α) : Registry α where
  live := update r.live r.next (some x)
  next := r.next + 1
  fresh := by
    intro id hid
    rw [update_of_ne (by omega)]
    exact r.fresh id (by omega)

def remove (r : Registry α) (id : Nat) : Registry α where
  live := update r.live id none
  next := r.next
  fresh := by
    intro other hother
    rw [update_apply, r.fresh other hother, ite_self]

def modify (r : Registry α) (id : Nat) (f : α → α) : Registry α where
  live := update r.live id ((r.live id).map f)
  next := r.next
  fresh := by
    intro other hother
    rw [update_apply]
    split
    next heq =>
      rw [← heq, r.fresh other hother, Option.map_none]
    · exact r.fresh other hother

def clear (r : Registry α) : Registry α := ⟨fun _ => none, r.next, fun _ _ => rfl⟩

theorem live_next (r : Registry α) : r.live r.next = none := r.fresh r.next (Nat.le_refl _)

theorem lt_next {x : α} (h : r.live id = some x) : id < r.next := by
  refine Nat.lt_of_not_le ?_
  intro hle
  cases h.symm.trans (r.fresh id hle)

theorem live_add (r : Registry α) (x : α) (id : Nat) :
    (r.add x).live id = if id = r.next then some x else r.live id := update_apply ..

theorem live_remove (r : Registry α) (other id : Nat) :
    (r.remove other).live id = if id = other then none else r.live id := update_apply ..

theorem live_modify (r : Registry α) (other : Nat) (f : α → α) (id : Nat) :
    (r.modify other f).live id = if id = other then (r.live other).map f else r.live id :=
  update_apply ..

theorem live_add_next (r : Registry α) (x : α) : (r.add x).live r.next = some x := by
  rw [live_add, if_pos rfl]

theorem live_add_of_some {y : α} (h : r.live id = some y) (x : α) :
    (r.add x).live id = some y := by
  rw [live_add, if_neg (Nat.ne_of_lt (lt_next h)), h]

theorem live_remove_add (r : Registry α) (x : α) : ((r.add x).remove r.next).live = r.live := by
  funext id
  rw [live_remove, live_add]
  split
  next heq =>
    rw [heq, live_next]
  · rfl

end Registry
