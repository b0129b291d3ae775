import P2PNetcat.Library.StepSystem
import P2PNetcat.Library.Tally
import P2PNetcat.NativeWebRTC.Signaling

/-!
# How many handshakes a listener runs

The listener's two counters under one lock, and the goroutines that answer offers:
one is started for each `beginHandshake` that succeeds, and ends with one
`endHandshake`, whatever becomes of the handshake. The counters are those of the
bag of peers that are being answered.
-/

namespace P2PNetcat.NativeWebRTC
open ByteCodec StepSystem
open Signaling (isClientID)

def maxConcurrentHandshakes : Int := 32
def maxConcurrentHandshakesPeer : Int := 2

structure Handshakes where
  handshakes : Int := 0
  peerHandshakes : Tally Bytes := ∅

namespace Handshakes

def beginHandshake (l : Handshakes) (remote : Bytes) : Handshakes × Bool :=
  if ¬ isClientID remote then (l, false)
  else if l.handshakes ≥ maxConcurrentHandshakes ∨
      l.peerHandshakes.get remote ≥ maxConcurrentHandshakesPeer then (l, false)
  else (⟨l.handshakes + 1, l.peerHandshakes.increment remote⟩, true)

def endHandshake (l : Handshakes) (remote : Bytes) : Handshakes :=
  ⟨l.handshakes - 1, l.peerHandshakes.decrement remote⟩

end Handshakes

structure Answering where
  listener : Handshakes := {}
  running : Multiset Bytes := 0

inductive AnsweringEvent where
  | signal (type remote : Bytes)
  | finished (remote : Bytes)

namespace Answering
variable {remote : Bytes}

def step (s : Answering) : AnsweringEvent → Option Answering
  | .signal type remote =>
    if type = ascii "offer" then
      match s.listener.beginHandshake remote with
      | (listener, true) => some ⟨listener, remote ::ₘ s.running⟩
      | (listener, false) => some ⟨listener, s.running⟩
    else some s
  | .finished remote =>
    if remote ∈ s.running then some ⟨s.listener.endHandshake remote, s.running.erase remote⟩
    else none

structure Counted (s : Answering) : Prop where
  peers : s.listener.peerHandshakes.Represents s.running
  handshakes : s.listener.handshakes = s.running.card
  limit : s.running.card ≤ maxConcurrentHandshakes
  peerLimit : ∀ remote, s.running.count remote ≤ maxConcurrentHandshakesPeer

variable {s t : Answering}

def HasSlot (s : Answering) (remote : Bytes) : Prop :=
  isClientID remote = true ∧ s.running.card < maxConcurrentHandshakes ∧
    s.running.count remote < maxConcurrentHandshakesPeer

theorem Counted.begin_of_slot (h : Counted s) (hslot : s.HasSlot remote) :
    s.listener.beginHandshake remote =
      (⟨s.listener.handshakes + 1, s.listener.peerHandshakes.increment remote⟩, true) := by
  obtain ⟨hclient, htotal, hpeer⟩ := hslot
  rw [Handshakes.beginHandshake, if_neg (not_not.mpr hclient), h.handshakes, h.peers.get,
    if_neg (by omega)]

theorem Counted.begin_of_no_slot (h : Counted s) (hslot : ¬ s.HasSlot remote) :
    s.listener.beginHandshake remote = (s.listener, false) := by
  rw [Handshakes.beginHandshake, h.handshakes, h.peers.get]
  split
  · rfl
  rename_i hclient
  rw [if_pos]
  by_contra hfree
  exact hslot ⟨not_not.mp hclient, by omega, by omega⟩

theorem Counted.initial : Counted {} where
  peers := Tally.represents_empty
  handshakes := rfl
  limit := by decide
  peerLimit remote := by
    rw [Multiset.count_zero]
    decide

theorem Counted.started (h : Counted s) (hslot : s.HasSlot remote) :
    Counted ⟨⟨s.listener.handshakes + 1, s.listener.peerHandshakes.increment remote⟩,
      remote ::ₘ s.running⟩ := by
  obtain ⟨-, htotal, hpeer⟩ := hslot
  have hhandshakes := h.handshakes
  constructor
  · exact h.peers.increment remote
  · simp only [Multiset.card_cons]
    omega
  · simp only [Multiset.card_cons]
    omega
  · intro other
    by_cases heq : other = remote
    · subst heq
      simp only [Multiset.count_cons_self]
      omega
    · simp only [Multiset.count_cons_of_ne heq]
      exact h.peerLimit other

theorem Counted.finished (h : Counted s) (hrunning : remote ∈ s.running) :
    Counted ⟨s.listener.endHandshake remote, s.running.erase remote⟩ := by
  have hcard := Multiset.card_erase_add_one hrunning
  have hhandshakes := h.handshakes
  have hlimit := h.limit
  constructor
  · exact h.peers.decrement hrunning
  · simp only [Handshakes.endHandshake]
    omega
  · simp only
    omega
  · intro other
    have hless := Multiset.count_le_of_le other (Multiset.erase_le remote s.running)
    have hpeer := h.peerLimit other
    simp only
    omega

theorem Counted.step {e : AnsweringEvent} (h : Counted s) (hstep : s.step e = some t) :
    Counted t := by
  cases e with
  | signal type remote =>
    rw [Answering.step] at hstep
    split at hstep
    · by_cases hslot : s.HasSlot remote
      · rw [h.begin_of_slot hslot] at hstep
        cases hstep
        exact h.started hslot
      · rw [h.begin_of_no_slot hslot] at hstep
        cases hstep
        exact h
    · cases hstep
      exact h
  | finished remote =>
    obtain ⟨hrunning, rfl⟩ := guard_eq_some.mp hstep
    exact h.finished hrunning

end Answering

/-- In whatever order offers come and handshakes end, the counters agree with the handshakes in
progress and keep the limits, a further offer is taken exactly if it keeps them too, and nothing is
left when all have ended. -/
theorem handshake_limits_exact {events : List AnsweringEvent} {s : Answering}
    (hrun : Run Answering.step Any {} events s) :
    s.listener.handshakes = s.listener.peerHandshakes.total ∧
    s.listener.handshakes = s.running.card ∧
    s.listener.handshakes ≤ maxConcurrentHandshakes ∧
    (∀ remote n, s.listener.peerHandshakes.lookup remote = some n →
      1 ≤ n ∧ n ≤ maxConcurrentHandshakesPeer) ∧
    (∀ remote, (s.listener.beginHandshake remote).2 = true ↔ s.HasSlot remote) ∧
    (s.running = 0 → s.listener.handshakes = 0 ∧ s.listener.peerHandshakes = ∅) := by
  have h : Answering.Counted s :=
    hrun.invariant (fun hs _ hstep => hs.step hstep) Answering.Counted.initial
  refine ⟨h.handshakes.trans h.peers.total.symm, h.handshakes, ?_, ?_, ?_, ?_⟩
  · rw [h.handshakes]
    exact h.limit
  · intro remote n hn
    obtain ⟨hcount, hpos⟩ := h.peers.pos_of_lookup hn
    refine ⟨hpos, ?_⟩
    rw [hcount]
    exact h.peerLimit remote
  · intro remote
    constructor
    · intro htaken
      by_contra hslot
      rw [h.begin_of_no_slot hslot] at htaken
      cases htaken
    · intro hslot
      rw [h.begin_of_slot hslot]
  · intro hnone
    have hpeers := h.peers
    have hhandshakes := h.handshakes
    rw [hnone] at hpeers hhandshakes
    exact ⟨hhandshakes, hpeers.eq_empty⟩

/-- A third offer of one peer is refused, and taken once a handshake has ended. -/
theorem handshake_limits_exact_example : ∃ (events : List AnsweringEvent) (s : Answering),
    Run Answering.step Any {} events s ∧ events.length = 4 ∧ s.running.card = 1 ∧
    s.listener.handshakes = s.listener.peerHandshakes.total ∧
    (s.listener.beginHandshake (ascii "0123456789AbCdEfGhIj")).2 = true := by
  have hrun := run_exec Answering.step Any {} [.signal (ascii "offer") (ascii "0123456789AbCdEfGhIj"),
    .signal (ascii "offer") (ascii "0123456789AbCdEfGhIj"),
    .signal (ascii "offer") (ascii "0123456789AbCdEfGhIj"),
    .finished (ascii "0123456789AbCdEfGhIj")] (by decide +kernel)
  obtain ⟨htotal, -, -, -, htaken, -⟩ := handshake_limits_exact hrun
  exact ⟨_, _, hrun, rfl, by decide +kernel, htotal,
    (htaken _).mpr ⟨by decide, by decide +kernel, by decide +kernel⟩⟩

end P2PNetcat.NativeWebRTC
