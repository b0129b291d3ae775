import Mathlib.Algebra.BigOperators.Ring.Finset
import Mathlib.Algebra.Order.Ring.Int
import Mathlib.Data.Finmap

/-!
# Counters in a map

A map from keys to counters, where a missing key counts as zero and a counter
that falls to zero is deleted. Used in pairs, one decrement for each increment,
it is a bag of keys.
-/

abbrev Tally (K : Type) := Finmap fun _ : K => Int

namespace Tally
variable {K : Type} [DecidableEq K]

def get (m : Tally K) (key : K) : Int := (m.lookup key).getD 0

def increment (m : Tally K) (key : K) : Tally K := m.insert key (m.get key + 1)

def decrement (m : Tally K) (key : K) : Tally K :=
  let lowered : Tally K := m.insert key (m.get key - 1)
  if lowered.get key = 0 then lowered.erase key else lowered

def total (m : Tally K) : Int := ∑ key ∈ m.keys, m.get key

/-- The counters are those of a bag: a key that is not in it has none. -/
def Represents (m : Tally K) (bag : Multiset K) : Prop :=
  ∀ key, m.lookup key = if key ∈ bag then some (bag.count key : Int) else none

variable {m : Tally K} {bag : Multiset K} {key : K}

theorem represents_empty : Represents (∅ : Tally K) 0 := by
  intro key
  rw [Finmap.lookup_empty, if_neg (Multiset.notMem_zero key)]

namespace Represents

section
variable (h : Represents m bag)
include h

theorem get (key : K) : m.get key = bag.count key := by
  rw [Tally.get, h key]
  split
  · rfl
  rename_i hkey
  rw [Multiset.count_eq_zero.mpr hkey]
  rfl

theorem keys : m.keys = bag.toFinset := by
  ext key
  rw [Finmap.mem_keys, ← Finmap.lookup_isSome, h key, Multiset.mem_toFinset]
  split
  next hkey =>
    exact ⟨fun _ => hkey, fun _ => rfl⟩
  next hkey =>
    exact ⟨fun hnone => absurd hnone Bool.false_ne_true, fun hmem => absurd hmem hkey⟩

theorem total : m.total = bag.card := by
  rw [Tally.total, h.keys, Finset.sum_congr rfl fun key _ => h.get key,
    ← Multiset.toFinset_sum_count_eq bag]
  exact (Nat.cast_sum _ _).symm

theorem pos_of_lookup {n : Int} (hn : m.lookup key = some n) :
    n = bag.count key ∧ 1 ≤ n := by
  rw [h key] at hn
  obtain ⟨hkey, hn⟩ := Option.ite_none_right_eq_some.mp hn
  have hpos := Multiset.count_pos.mpr hkey
  cases hn
  exact ⟨rfl, by omega⟩

end

theorem eq_empty (h : Represents m 0) : m = ∅ := by
  apply Finmap.ext_lookup
  intro key
  rw [h key, represents_empty key]

theorem increment (h : Represents m bag) (key : K) : Represents (m.increment key) (key ::ₘ bag) := by
  intro other
  rw [Tally.increment]
  by_cases heq : other = key
  · subst heq
    rw [Finmap.lookup_insert, if_pos (Multiset.mem_cons_self other bag), Multiset.count_cons_self,
      h.get, Nat.cast_add, Nat.cast_one]
  · rw [Finmap.lookup_insert_of_ne _ heq, h other, Multiset.count_cons_of_ne heq]
    simp only [Multiset.mem_cons, heq, false_or]

theorem decrement (h : Represents m bag) (hkey : key ∈ bag) :
    Represents (m.decrement key) (bag.erase key) := by
  have hpos := Multiset.count_pos.mpr hkey
  have hget : Tally.get (m.insert key (m.get key - 1)) key = bag.count key - 1 := by
    rw [Tally.get, Finmap.lookup_insert, Option.getD_some, h.get]
  intro other
  simp only [Tally.decrement, hget]
  by_cases heq : other = key
  · subst heq
    have hcount := Multiset.count_erase_self other bag
    split
    next hzero =>
      rw [Finmap.lookup_erase, if_neg (Multiset.count_eq_zero.mp (by omega))]
    rename_i hnonzero
    rw [Finmap.lookup_insert, if_pos (Multiset.count_pos.mp (by omega)), h.get]
    congr 1
    omega
  · have hother : (if other ∈ bag.erase key then some ((bag.erase key).count other : Int) else none) =
        m.lookup other := by
      rw [h other, Multiset.count_erase_of_ne heq]
      simp only [Multiset.mem_erase_of_ne heq]
    rw [hother]
    split
    · rw [Finmap.lookup_erase_ne heq, Finmap.lookup_insert_of_ne _ heq]
    · rw [Finmap.lookup_insert_of_ne _ heq]

end Represents

end Tally
