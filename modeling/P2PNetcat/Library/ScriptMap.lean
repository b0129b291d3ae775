import Mathlib.Data.List.Count
import Mathlib.Data.List.Nodup

/-!
# Maps of a script

`Map` of ECMAScript: entries in the order in which their keys were first set.
Setting a key that is there keeps its place.
-/

structure ScriptMap (K V : Type) where
  entries : List (K × V)
  distinct : (entries.map Prod.fst).Nodup

namespace ScriptMap
open List
variable {K V : Type} {m : ScriptMap K V} {value : V} {entries : List (K × V)} {key : K}

def empty : ScriptMap K V := ⟨[], nodup_nil⟩

def values (m : ScriptMap K V) : List V := m.entries.map Prod.snd

theorem ext_entries {n : ScriptMap K V} (h : m.entries = n.entries) : m = n := by
  cases m
  cases n
  cases h
  rfl

theorem value_unique (h : (entries.map Prod.fst).Nodup)
    {v w : V} (hv : (key, v) ∈ entries) (hw : (key, w) ∈ entries) : v = w :=
  congrArg Prod.snd (inj_on_of_nodup_map h hv hw rfl)

theorem distinct_filter (m : ScriptMap K V) (p : K × V → Bool) :
    ((m.entries.filter p).map Prod.fst).Nodup :=
  m.distinct.sublist (filter_sublist.map Prod.fst)

def filter (m : ScriptMap K V) (p : K × V → Bool) : ScriptMap K V :=
  ⟨m.entries.filter p, m.distinct_filter p⟩

theorem distinct_append (h : (entries.map Prod.fst).Nodup)
    (hkey : key ∉ entries.map Prod.fst) (value : V) :
    ((entries ++ [(key, value)]).map Prod.fst).Nodup := by
  rw [map_append, map_singleton]
  refine nodup_append.mpr ⟨h, nodup_singleton key, ?_⟩
  rintro a ha b hb rfl
  obtain rfl : a = key := mem_singleton.mp hb
  exact hkey ha

variable [DecidableEq K]

def get (m : ScriptMap K V) (key : K) : Option V :=
  (m.entries.find? fun entry => entry.1 = key).map Prod.snd

def has (m : ScriptMap K V) (key : K) : Bool := (m.get key).isSome

def delete (m : ScriptMap K V) (key : K) : ScriptMap K V := m.filter fun entry => entry.1 ≠ key

def replaceValue (entries : List (K × V)) (key : K) (value : V) : List (K × V) :=
  entries.map fun entry => if entry.1 = key then (key, value) else entry

theorem map_fst_replaceValue (entries : List (K × V)) (key : K) (value : V) :
    (replaceValue entries key value).map Prod.fst = entries.map Prod.fst := by
  rw [replaceValue, map_map]
  apply map_congr_left
  intro entry _
  simp only [Function.comp_apply]
  split
  next hkey =>
    exact hkey.symm
  · rfl

theorem distinct_replaceValue (m : ScriptMap K V) (key : K) (value : V) :
    ((replaceValue m.entries key value).map Prod.fst).Nodup := by
  rw [map_fst_replaceValue]
  exact m.distinct

def set (m : ScriptMap K V) (key : K) (value : V) : ScriptMap K V :=
  if h : key ∈ m.entries.map Prod.fst then
    ⟨replaceValue m.entries key value, m.distinct_replaceValue key value⟩
  else ⟨m.entries ++ [(key, value)], distinct_append m.distinct h value⟩

theorem fst_of_find {entry : K × V}
    (h : entries.find? (fun entry => entry.1 = key) = some entry) : entry.1 = key := by
  have hkey := find?_some h
  exact of_decide_eq_true hkey

theorem get_eq_some_iff :
    m.get key = some value ↔ (key, value) ∈ m.entries := by
  rw [get, Option.map_eq_some_iff]
  constructor
  · rintro ⟨⟨k, v⟩, hfind, rfl⟩
    obtain rfl : k = key := fst_of_find hfind
    exact mem_of_find?_eq_some hfind
  · intro hmem
    cases hfind : m.entries.find? fun entry => entry.1 = key with
    | none =>
      have hnone := find?_eq_none.mp hfind _ hmem
      exact absurd (decide_eq_true rfl) hnone
    | some entry =>
      obtain ⟨k, v⟩ := entry
      obtain rfl : k = key := fst_of_find hfind
      exact ⟨(k, v), rfl, value_unique m.distinct (mem_of_find?_eq_some hfind) hmem⟩

theorem get_eq_none_iff :
    m.get key = none ↔ key ∉ m.entries.map Prod.fst := by
  rw [Option.eq_none_iff_forall_ne_some]
  constructor
  · intro h hkey
    obtain ⟨entry, hentry, rfl⟩ := mem_map.mp hkey
    exact h entry.2 (get_eq_some_iff.mpr hentry)
  · intro h value hvalue
    exact h (mem_map.mpr ⟨_, get_eq_some_iff.mp hvalue, rfl⟩)

theorem get_filter_eq_some_iff {p : K × V → Bool} :
    (m.filter p).get key = some value ↔ m.get key = some value ∧ p (key, value) = true := by
  rw [get_eq_some_iff, get_eq_some_iff, filter, mem_filter]

theorem get_delete (m : ScriptMap K V) (key other : K) :
    (m.delete key).get other = if other = key then none else m.get other := by
  apply Option.ext
  intro v
  rw [delete, get_filter_eq_some_iff]
  split <;> simp_all

theorem entries_set_of_mem (h : key ∈ m.entries.map Prod.fst)
    (value : V) : (m.set key value).entries = replaceValue m.entries key value := by
  rw [set, dif_pos h]

theorem entries_set_of_notMem (h : key ∉ m.entries.map Prod.fst)
    (value : V) : (m.set key value).entries = m.entries ++ [(key, value)] := by
  rw [set, dif_neg h]

theorem mem_set {other : K} {v : V} :
    (other, v) ∈ (m.set key value).entries ↔
      (other = key ∧ v = value) ∨ (other ≠ key ∧ (other, v) ∈ m.entries) := by
  by_cases h : key ∈ m.entries.map Prod.fst
  · rw [entries_set_of_mem h, replaceValue, mem_map]
    constructor
    · rintro ⟨entry, hentry, heq⟩
      split at heq
      · cases heq
        exact .inl ⟨rfl, rfl⟩
      rename_i hne
      subst heq
      exact .inr ⟨hne, hentry⟩
    · rintro (⟨rfl, rfl⟩ | ⟨hne, hmem⟩)
      · obtain ⟨entry, hentry, hkey⟩ := mem_map.mp h
        exact ⟨entry, hentry, if_pos hkey⟩
      · exact ⟨_, hmem, if_neg hne⟩
  · rw [entries_set_of_notMem h, mem_append, mem_singleton, Prod.mk.injEq]
    constructor
    · rintro (hmem | hnew)
      · refine .inr ⟨?_, hmem⟩
        rintro rfl
        exact h (mem_map.mpr ⟨_, hmem, rfl⟩)
      · exact .inl hnew
    · rintro (hnew | ⟨-, hmem⟩)
      · exact .inr hnew
      · exact .inl hmem

theorem get_set (m : ScriptMap K V) (key other : K) (value : V) :
    (m.set key value).get other = if other = key then some value else m.get other := by
  apply Option.ext
  intro v
  rw [get_eq_some_iff, mem_set]
  split
  next hkey =>
    simp only [hkey, true_and, ne_eq, not_true_eq_false, false_and, or_false, Option.some.injEq,
      eq_comm]
  next hkey =>
    simp only [hkey, false_and, ne_eq, not_false_eq_true, true_and, false_or, get_eq_some_iff]

theorem length_set_of_get {old : V} (h : m.get key = some old) (value : V) :
    (m.set key value).entries.length = m.entries.length := by
  rw [entries_set_of_mem (mem_map.mpr ⟨_, get_eq_some_iff.mp h, rfl⟩), replaceValue,
    length_map]

theorem countP_set_of_get {old : V} (h : m.get key = some old) {p : V → Bool}
    (hp : p value = p old) : (m.set key value).values.countP p = m.values.countP p := by
  have hmem := get_eq_some_iff.mp h
  rw [values, entries_set_of_mem (mem_map.mpr ⟨_, hmem, rfl⟩), replaceValue, values,
    countP_map, countP_map, countP_map]
  apply countP_congr
  rintro ⟨k, v⟩ hentry
  simp only [Function.comp_apply]
  split
  next hk =>
    cases hk
    rw [hp, value_unique m.distinct hmem hentry]
  · exact Iff.rfl

theorem values_set_of_get_none (h : m.get key = none) (value : V) :
    (m.set key value).values = m.values ++ [value] := by
  rw [values, entries_set_of_notMem (get_eq_none_iff.mp h), map_append]
  rfl

theorem delete_eq_self_iff : m.delete key = m ↔ m.get key = none := by
  rw [get_eq_none_iff]
  constructor
  · intro h hkey
    obtain ⟨entry, hentry, rfl⟩ := mem_map.mp hkey
    rw [← h] at hentry
    exact of_decide_eq_true (mem_filter.mp hentry).2 rfl
  · intro h
    apply ext_entries
    apply filter_eq_self.mpr
    rintro entry hentry
    refine decide_eq_true ?_
    rintro rfl
    exact h (mem_map.mpr ⟨entry, hentry, rfl⟩)

theorem set_eq_self_iff :
    m.set key value = m ↔ m.get key = some value := by
  constructor
  · intro h
    rw [← h, get_set, if_pos rfl]
  · intro h
    have hmem := get_eq_some_iff.mp h
    have hkey : key ∈ m.entries.map Prod.fst := mem_map.mpr ⟨_, hmem, rfl⟩
    apply ext_entries
    rw [entries_set_of_mem hkey, replaceValue]
    apply (map_congr_left ?_).trans (map_id _)
    rintro ⟨k, v⟩ hentry
    split
    next hk =>
      cases hk
      rw [value_unique m.distinct hentry hmem]
      rfl
    · rfl

end ScriptMap
