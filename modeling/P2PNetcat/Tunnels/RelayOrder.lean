import P2PNetcat.Library.Registry
import P2PNetcat.Tunnels.Config

/-!
# The order of the relays

`relayAddrs` sorts a copy of the relays of a config in place. A slice is the number of its array in
the memory, so a write through one slice is seen through every other slice of the same array.
-/

namespace P2PNetcat.Tunnels
open List

abbrev Memory := Registry (List Relay)

/-- The inner loop, from `j` down; an index out of range panics. -/
def sink (sorted : Nat) : Nat → Memory → Option Memory
  | 0, memory => some memory
  | j + 1, memory => do
    let array ← memory.live sorted
    let relay ← array[j + 1]?
    let previous ← array[j]?
    if relay.priority < previous.priority then
      sink sorted j (memory.modify sorted fun array => (array.set (j + 1) previous).set j relay)
    else some memory

def relayAddrs (memory : Memory) (relays : Nat) : Option (List String × Memory) := do
  let array ← memory.live relays
  -- `make` and `copy`
  let sorted := memory.next
  let memory := memory.add array
  let memory ← (range' 1 (array.length - 1)).foldlM (fun memory i => sink sorted i memory) memory
  let array ← memory.live sorted
  return (array.map Relay.addr, memory)

def Ordered (relays : List Relay) : Prop := relays.Pairwise fun a b => a.priority ≤ b.priority

/-- A permutation in non-decreasing priority, with the relays of one priority in their order. -/
structure StablySorted (relays sorted : List Relay) : Prop where
  perm : sorted.Perm relays
  ordered : Ordered sorted
  stable : ∀ p, sorted.filter (·.priority = p) = relays.filter (·.priority = p)

namespace StablySorted
variable {relays sorted : List Relay} {x y : Relay}

theorem of_stable (hordered : Ordered sorted)
    (h : ∀ p, sorted.filter (·.priority = p) = relays.filter (·.priority = p)) :
    StablySorted relays sorted := by
  refine ⟨?_, hordered, h⟩
  apply perm_iff_count.mpr
  intro relay
  have hcount : ∀ l : List Relay,
      l.count relay = (l.filter (·.priority = relay.priority)).count relay :=
    fun l => (count_filter (by simp)).symm
  rw [hcount sorted, h, ← hcount relays]

theorem append (h : StablySorted relays sorted) (hy : ∀ relay ∈ relays, relay.priority ≤ y.priority) :
    StablySorted (relays ++ [y]) (sorted ++ [y]) := by
  apply of_stable
  · apply pairwise_append.mpr
    refine ⟨h.ordered, pairwise_singleton _ _, ?_⟩
    intro a ha b hb
    rw [mem_singleton.mp hb]
    exact hy a (h.perm.mem_iff.mp ha)
  · intro p
    rw [filter_append, filter_append, h.stable]

/-- Behind a relay of lower priority, one that was before it stays in its order. -/
theorem swap (h : StablySorted (relays ++ [x, y]) sorted) (hlt : x.priority < y.priority) :
    StablySorted (relays ++ [y, x]) sorted := by
  apply of_stable h.ordered
  intro p
  rw [h.stable, filter_append, filter_append]
  by_cases hx : x.priority = p
  · have hy : y.priority ≠ p := by omega
    simp [hx, hy]
  · simp [filter_cons, hx]

end StablySorted

/-- The array of `sorted` was `front ++ back`; now `front` is sorted and no other array changed. -/
structure Sorts (memory memory' : Memory) (sorted : Nat) (front back : List Relay) : Prop where
  array : ∃ array, memory'.live sorted = some (array ++ back) ∧ StablySorted front array
  others : ∀ id, id ≠ sorted → memory'.live id = memory.live id

variable {memory : Memory} {sorted : Nat}

theorem sink_sorts {front back : List Relay} {x : Relay}
    (hlive : memory.live sorted = some (front ++ x :: back)) (hfront : Ordered front) :
    ∃ memory', sink sorted front.length memory = some memory' ∧
      Sorts memory memory' sorted (front ++ [x]) back := by
  -- from the back of `front`: each swap leaves `y` behind for good
  induction front using reverseRecOn generalizing memory back with
  | nil =>
    refine ⟨memory, rfl, ⟨[x], hlive, ?_⟩, fun _ _ => rfl⟩
    exact .of_stable (pairwise_singleton _ _) fun _ => rfl
  | append_singleton front y ih =>
    obtain ⟨hfront', -, hle⟩ := pairwise_append.mp hfront
    have hy : ∀ relay ∈ front ++ [y], relay.priority ≤ y.priority := by
      intro relay hrelay
      rcases mem_append.mp hrelay with hmem | hmem
      · exact hle relay hmem y (mem_singleton_self y)
      · rw [mem_singleton.mp hmem]
    have hat : (front ++ [y] ++ x :: back)[front.length + 1]? = some x := by simp
    have hbefore : (front ++ [y] ++ x :: back)[front.length]? = some y := by simp
    rw [length_append, length_singleton, sink, hlive]
    simp only [Option.bind_eq_bind, Option.bind_some, hat, hbefore]
    split
    next hlt =>
      have hswapped : (memory.modify sorted fun array =>
          (array.set (front.length + 1) y).set front.length x).live sorted =
            some (front ++ x :: y :: back) := by
        rw [Registry.live_modify, if_pos rfl, hlive]
        simp
      obtain ⟨memory', hsink, ⟨array, harray, hsorted⟩, hothers⟩ := ih hswapped hfront'
      refine ⟨memory', hsink, ⟨array ++ [y], ?_, ?_⟩, ?_⟩
      · rw [harray, append_assoc, singleton_append]
      · have hbehind := hsorted.append (y := y) (by grind)
        rw [append_assoc] at hbehind ⊢
        exact hbehind.swap hlt
      · intro id hid
        rw [hothers id hid, Registry.live_modify, if_neg hid]
    next hge =>
      refine ⟨memory, rfl, ⟨front ++ [y] ++ [x], ?_, ?_⟩, fun _ _ => rfl⟩
      · rw [hlive, append_assoc _ [x], singleton_append]
      · refine StablySorted.append (.of_stable hfront fun _ => rfl) ?_
        intro relay hrelay
        exact (hy relay hrelay).trans (Int.not_lt.mp hge)

theorem loop_sorts {front back : List Relay} (hlive : memory.live sorted = some (front ++ back))
    (hfront : Ordered front) :
    ∃ memory', (range' front.length back.length).foldlM
        (fun memory i => sink sorted i memory) memory = some memory' ∧
      Sorts memory memory' sorted (front ++ back) [] := by
  induction back generalizing front memory with
  | nil =>
    rw [append_nil]
    exact ⟨memory, rfl, ⟨front, hlive, .of_stable hfront fun _ => rfl⟩, fun _ _ => rfl⟩
  | cons x back ih =>
    obtain ⟨memory', hsink, ⟨array, harray, hsorted⟩, hothers⟩ := sink_sorts hlive hfront
    obtain ⟨memory'', hloop, ⟨result, hresult, hstable⟩, hothers'⟩ := ih harray hsorted.ordered
    have hlength : array.length = front.length + 1 := by
      rw [hsorted.perm.length_eq, length_append, length_singleton]
    refine ⟨memory'', ?_, ⟨result, hresult, ?_⟩, ?_⟩
    · rw [length_cons, range'_succ, foldlM_cons, hsink, ← hlength]
      exact hloop
    · apply StablySorted.of_stable hstable.ordered
      intro p
      rw [hstable.stable, filter_append, hsorted.stable, ← filter_append, append_assoc,
        singleton_append]
    · intro id hid
      rw [hothers' id hid, hothers id hid]

/-- `relayAddrs` returns the addresses of a stably sorted permutation of its list, and no array that
was there before has changed. -/
theorem relayAddrs_sorts {memory : Memory} {relays : Nat} {array : List Relay}
    (h : memory.live relays = some array) :
    ∃ sorted memory', relayAddrs memory relays = some (sorted.map Relay.addr, memory') ∧
      StablySorted array sorted ∧
      ∀ id before, memory.live id = some before → memory'.live id = some before := by
  have hcopy := memory.live_add_next array
  obtain ⟨memory', hloop, ⟨sorted, hsorted, hstable⟩, hothers⟩ :
      ∃ memory', (range' 1 (array.length - 1)).foldlM
        (fun m i => sink memory.next i m) (memory.add array) = some memory' ∧
      Sorts (memory.add array) memory' memory.next array [] := by
    cases array with
    | nil => exact ⟨_, rfl, ⟨[], hcopy, .of_stable Pairwise.nil fun _ => rfl⟩, fun _ _ => rfl⟩
    | cons x rest =>
      exact loop_sorts (show _ = some ([x] ++ rest) from hcopy) (pairwise_singleton _ _)
  refine ⟨sorted, memory', ?_, hstable, ?_⟩
  · rw [append_nil] at hsorted
    simp only [relayAddrs, h, Option.bind_eq_bind, Option.bind_some, hloop, hsorted]
    rfl
  · intro id before hbefore
    have hne : id ≠ memory.next := Nat.ne_of_lt (Registry.lt_next hbefore)
    rw [hothers id hne, Registry.live_add_of_some hbefore]

def tiedRelays : List Relay := [⟨"/dns4/a", 2⟩, ⟨"/dns4/b", 1⟩, ⟨"/dns4/c", 2⟩]

theorem relayAddrs_sorts_ties : ∃ sorted, StablySorted tiedRelays sorted ∧
    sorted.map Relay.addr = ["/dns4/b", "/dns4/a", "/dns4/c"] := by
  have hlive : (Registry.empty.add tiedRelays).live 0 = some tiedRelays := rfl
  obtain ⟨sorted, memory', hreturns, hstable, -⟩ := relayAddrs_sorts hlive
  have haddrs := congrArg (Option.map Prod.fst) hreturns
  refine ⟨sorted, hstable, (Option.some.inj haddrs).symm.trans ?_⟩
  rfl

end P2PNetcat.Tunnels
