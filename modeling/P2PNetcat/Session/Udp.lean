import P2PNetcat.Library.ByteCodec
import P2PNetcat.Library.Registry
import P2PNetcat.Library.StepSystem
import Mathlib.Data.List.Nodup

/-!
# The UDP associations of a local forward

`StartLocalUDPForward` reads datagrams from one socket and gives every source
its own association, with a queue and a p2p stream. The reader looks an
association up under the lock and fills its queue after it has let the lock go,
while the goroutine of the association may be ending at the same time. An
association stays in the model after it has ended, because the reader and its two
bridge goroutines may still hold it.
-/

namespace P2PNetcat.Session
open List ByteCodec StepSystem

universe u

def maxUDPAssociations : Nat := 256
def udpPacketQueueDepth : Nat := 256

/-- A datagram, numbered in the order in which the socket returned it. -/
structure Packet (α : Type u) where
  number : Nat
  source : α
  payload : Bytes

inductive AssociationPhase where
  /-- In `openStream`. -/
  | opening
  | bridgeLocalUDP
  /-- Before the deferred `stream.Close`. -/
  | streamClose
  /-- Before the deferred deletion. -/
  | deleting
  | returned
  deriving DecidableEq

structure Association (α : Type u) where
  /-- `sourceCopy`, to which the replies go. -/
  source : α
  phase : AssociationPhase := .opening
  /-- The channel `packets`. -/
  packets : List (Packet α) := []
  writerRunning : Bool := false
  readerRunning : Bool := false
  /-- The datagram the writer goroutine has taken from the channel. -/
  writing : Option (Packet α) := none
  /-- The stream is closed or reset. -/
  closed : Bool := false
  /-- What was written on the stream, the latest last. -/
  written : List (Packet α) := []
  /-- The calls of `listener.WriteToUDP`, with the destination. -/
  replies : List (α × Bytes) := []

inductive SocketReader (α : Type u) where
  | readFromUDP
  /-- Before the send on the channel of the association it found or made. -/
  | sending (id : Nat) (packet : Packet α)
  | returned

structure Forward (α : Type u) where
  /-- The map `associations`. -/
  associations : List (String × Nat) := []
  /-- Every association that was ever made. -/
  made : Registry (Association α) := .empty
  reader : SocketReader α := .readFromUDP
  /-- Every datagram the socket has returned. -/
  arrivals : List (Packet α) := []
  /-- The calls of `onError`, the latest first. -/
  reports : List String := []

inductive ForwardEvent (α : Type u) where
  | readFromUDP (source : α) (payload : Bytes)
  | readError (report : Option String)
  | send
  | openStream (id : Nat)
  | openStreamError (id : Nat) (err : Option String)
  | takePacket (id : Nat)
  | write (id : Nat)
  | writeError (id : Nat)
  | writerStop (id : Nat)
  | reply (id : Nat) (payload : Bytes)
  | replyError (id : Nat)
  /-- `waitForDatagramBridge` returns; the bridge error is reported if the context is alive. -/
  | bridgeReturn (id : Nat) (reset : Bool) (err : Option String)
  | streamClose (id : Nat)
  | delete (id : Nat)

def ForwardEvent.ofReader {α : Type u} : ForwardEvent α → Bool
  | .readFromUDP _ _ | .readError _ | .send => true
  | _ => false

section Step
variable {α : Type u} (string : α → String)

namespace Forward

def report (s : Forward α) (text : String) : Forward α := { s with reports := text :: s.reports }

def reportSome (s : Forward α) : Option String → Forward α
  | none => s
  | some text => s.report text

def lookup (s : Forward α) (key : String) : Option Nat := s.associations.lookup key

def set (s : Forward α) (id : Nat) (a : Association α) : Forward α :=
  { s with made := s.made.modify id fun _ => a }

def arriving (s : Forward α) (source : α) (payload : Bytes) : Packet α :=
  ⟨s.arrivals.length, source, payload⟩

def arrive (s : Forward α) (packet : Packet α) : Forward α :=
  { s with arrivals := s.arrivals ++ [packet] }

def associate (s : Forward α) (packet : Packet α) : Forward α :=
  { s with
    associations := (string packet.source, s.made.next) :: s.associations
    made := s.made.add { source := packet.source }
    reader := .sending s.made.next packet }

def readFromUDP (s : Forward α) (packet : Packet α) : Forward α :=
  match s.lookup (string packet.source) with
  | some id => { s with reader := .sending id packet }
  | none =>
    if s.associations.length ≥ maxUDPAssociations then
      s.report ("UDP association limit of " ++ toString maxUDPAssociations ++
        " reached; dropped packet from " ++ string packet.source)
    else s.associate string packet

def send (s : Forward α) (id : Nat) (a : Association α) (packet : Packet α) : Forward α :=
  if a.packets.length < udpPacketQueueDepth then
    { s.set id { a with packets := a.packets ++ [packet] } with reader := .readFromUDP }
  else
    { s with reader := .readFromUDP }.report ("UDP packet queue for " ++ string packet.source ++
      " is full; dropped " ++ toString packet.payload.length ++ "-byte packet")

def delete (s : Forward α) (id : Nat) (a : Association α) : Forward α :=
  let key := string a.source
  { s.set id { a with phase := .returned } with
    associations :=
      if s.lookup key = some id then s.associations.filter (·.1 ≠ key) else s.associations }

def atAssociation (s : Forward α) (id : Nat) (ready : Association α → Bool)
    (next : Association α → Forward α) : Option (Forward α) :=
  match s.made.live id with
  | none => none
  | some a => if ready a then some (next a) else none

def step (s : Forward α) : ForwardEvent α → Option (Forward α)
  | .readFromUDP source payload =>
    match s.reader with
    | .readFromUDP =>
      let packet := s.arriving source payload
      some ((s.arrive packet).readFromUDP string packet)
    | _ => none
  | .readError report =>
    match s.reader with
    | .readFromUDP => some ({ s with reader := .returned }.reportSome report)
    | _ => none
  | .send =>
    match s.reader with
    | .sending id packet => (s.made.live id).map fun a => s.send string id a packet
    | _ => none
  | .openStream id => s.atAssociation id (·.phase = .opening) fun a =>
      s.set id { a with phase := .bridgeLocalUDP, writerRunning := true, readerRunning := true }
  | .openStreamError id err => s.atAssociation id (·.phase = .opening) fun a =>
      (s.set id { a with phase := .deleting }).reportSome
        (err.map ("open UDP session for " ++ string a.source ++ ": " ++ ·))
  | .takePacket id =>
      s.atAssociation id
        (fun a => a.writerRunning && a.writing.isNone && !a.packets.isEmpty) fun a =>
        s.set id { a with packets := a.packets.tail, writing := a.packets.head? }
  | .write id =>
      s.atAssociation id (fun a => a.writerRunning && a.writing.isSome && !a.closed) fun a =>
        s.set id { a with writing := none, written := a.written ++ a.writing.toList }
  | .writeError id => s.atAssociation id (fun a => a.writerRunning && a.writing.isSome) fun a =>
      s.set id { a with writing := none, writerRunning := false }
  | .writerStop id => s.atAssociation id (fun a => a.writerRunning && a.writing.isNone) fun a =>
      s.set id { a with writerRunning := false }
  | .reply id payload => s.atAssociation id (·.readerRunning) fun a =>
      s.set id { a with replies := a.replies ++ [(a.source, payload)] }
  | .replyError id => s.atAssociation id (·.readerRunning) fun a =>
      s.set id { a with readerRunning := false }
  | .bridgeReturn id reset err => s.atAssociation id (·.phase = .bridgeLocalUDP) fun a =>
      (s.set id { a with phase := .streamClose, closed := a.closed || reset }).reportSome
        (err.map ("UDP session for " ++ string a.source ++ ": " ++ ·))
  | .streamClose id => s.atAssociation id (·.phase = .streamClose) fun a =>
      s.set id { a with phase := .deleting, closed := true }
  | .delete id => s.atAssociation id (·.phase = .deleting) fun a => s.delete string id a

end Forward
end Step

/-- What the association has taken in and not dropped, in the order of the queue. -/
def Association.held {α : Type u} (a : Association α) : List (Packet α) :=
  a.written ++ a.writing.toList ++ a.packets

theorem Association.written_sublist {α : Type u} (a : Association α) :
    a.written.Sublist a.held :=
  (sublist_append_left _ _).trans (sublist_append_left _ _)

section Invariant
variable {α : Type u} (string : α → String) {a : Association α} {arrivals : List (Packet α)}

/-- What is known of an association while the datagrams before `handled` are dealt with. -/
structure Association.Good (arrivals : List (Packet α)) (handled : Nat) (a : Association α) :
    Prop where
  ordered : a.held.Pairwise fun p q => p.number < q.number
  handled : ∀ p ∈ a.held, p.number < handled
  arrived : ∀ p ∈ a.held, p ∈ arrivals
  keyed : ∀ p ∈ a.held, string p.source = string a.source
  replied : ∀ r ∈ a.replies, r.1 = a.source

variable {string}

theorem Association.Good.mono {arrivals' : List (Packet α)} {handled handled' : Nat}
    (h : a.Good string arrivals handled) (harrivals : arrivals ⊆ arrivals')
    (hhandled : handled ≤ handled') : a.Good string arrivals' handled' where
  ordered := h.ordered
  handled p hp := Nat.lt_of_lt_of_le (h.handled p hp) hhandled
  arrived p hp := harrivals (h.arrived p hp)
  keyed := h.keyed
  replied := h.replied

/-- Packets may leave an association; those that stay keep their order. -/
structure Association.Follows (a a' : Association α) : Prop where
  held : a'.held.Sublist a.held
  source : a'.source = a.source
  replies : ∀ r ∈ a'.replies, r ∈ a.replies ∨ r.1 = a.source

theorem Association.Follows.of_eq {a' : Association α} (hheld : a'.held = a.held)
    (hsource : a'.source = a.source) (hreplies : a'.replies = a.replies) : a.Follows a' where
  held := hheld ▸ .refl _
  source := hsource
  replies _ hr := .inl (hreplies ▸ hr)

theorem Association.Good.follows {handled : Nat}
    {a' : Association α} (h : a.Good string arrivals handled) (hfollows : a.Follows a') :
    a'.Good string arrivals handled where
  ordered := h.ordered.sublist hfollows.held
  handled p hp := h.handled p (hfollows.held.subset hp)
  arrived p hp := h.arrived p (hfollows.held.subset hp)
  keyed p hp := by
    rw [hfollows.source]
    exact h.keyed p (hfollows.held.subset hp)
  replied r hr := by
    rw [hfollows.source]
    exact (hfollows.replies r hr).elim (h.replied r) id

theorem Association.Good.send {p : Packet α}
    (h : a.Good string arrivals p.number) (hp : p ∈ arrivals)
    (hkey : string a.source = string p.source) :
    ({ a with packets := a.packets ++ [p] } : Association α).Good string arrivals
      (p.number + 1) := by
  have hheld : ({ a with packets := a.packets ++ [p] } : Association α).held = a.held ++ [p] := by
    simp only [held, append_assoc]
  constructor
  · rw [hheld, pairwise_append]
    refine ⟨h.ordered, pairwise_singleton _ _, ?_⟩
    intro q hq r hr
    rw [mem_singleton.mp hr]
    exact h.handled q hq
  · rw [hheld, forall_mem_append]
    exact ⟨fun q hq => Nat.lt_succ_of_lt (h.handled q hq), by simp⟩
  · rw [hheld, forall_mem_append]
    exact ⟨h.arrived, by simpa using hp⟩
  · rw [hheld, forall_mem_append]
    exact ⟨h.keyed, by simpa using hkey.symm⟩
  · exact h.replied

namespace Forward
variable {e : ForwardEvent α} {other : Nat} {key : String} {b : Association α}

def handled (s : Forward α) : Nat :=
  match s.reader with
  | .sending _ p => p.number
  | _ => s.arrivals.length

variable (string) in
structure Inv (s : Forward α) : Prop where
  numbered : s.arrivals.map Packet.number = range s.arrivals.length
  size : s.associations.length ≤ maxUDPAssociations
  nodup : (s.associations.map Prod.fst).Nodup
  keyed : ∀ entry ∈ s.associations, ∃ a, s.made.live entry.2 = some a ∧ string a.source = entry.1
  good : ∀ id a, s.made.live id = some a → a.Good string s.arrivals s.handled
  disjoint : ∀ id id' a a', s.made.live id = some a → s.made.live id' = some a' → id ≠ id' →
    ∀ p ∈ a.held, ∀ p' ∈ a'.held, p.number ≠ p'.number
  sending : ∀ id p, s.reader = .sending id p → p ∈ s.arrivals ∧
    p.number + 1 = s.arrivals.length ∧
    ∃ a, s.made.live id = some a ∧ string a.source = string p.source

structure Replaced (s t : Forward α) (id : Nat) (a a' : Association α) : Prop where
  before : s.made.live id = some a
  live : ∀ other, t.made.live other = if other = id then some a' else s.made.live other
  source : a'.source = a.source

/-- A step of one association: it may drop packets and leave the map, and nothing else changes. -/
structure Advanced (s t : Forward α) (id : Nat) (a a' : Association α) : Prop
    extends Replaced s t id a a' where
  follows : a.Follows a'
  associations : t.associations.Sublist s.associations
  reader : t.reader = s.reader
  arrivals : t.arrivals = s.arrivals

variable {s t : Forward α} {id : Nat} {a a' : Association α}

theorem live_set (h : s.made.live id = some a) (a' : Association α) (other : Nat) :
    (s.set id a').made.live other = if other = id then some a' else s.made.live other := by
  rw [set, Registry.live_modify, h, Option.map_some]

@[simp]
theorem reportSome_made (s : Forward α) (text : Option String) :
    (s.reportSome text).made = s.made := by
  cases text <;> rfl

@[simp]
theorem reportSome_associations (s : Forward α) (text : Option String) :
    (s.reportSome text).associations = s.associations := by
  cases text <;> rfl

@[simp]
theorem reportSome_reader (s : Forward α) (text : Option String) :
    (s.reportSome text).reader = s.reader := by
  cases text <;> rfl

@[simp]
theorem reportSome_arrivals (s : Forward α) (text : Option String) :
    (s.reportSome text).arrivals = s.arrivals := by
  cases text <;> rfl

theorem atAssociation_eq_some {ready : Association α → Bool} {next : Association α → Forward α}
    (h : s.atAssociation id ready next = some t) :
    ∃ a, s.made.live id = some a ∧ ready a = true ∧ t = next a := by
  unfold atAssociation at h
  cases hlive : s.made.live id with
  | none =>
    rw [hlive] at h
    cases h
  | some a =>
    rw [hlive] at h
    obtain ⟨hready, heq⟩ := Option.ite_none_right_eq_some.mp h
    exact ⟨a, rfl, hready, (Option.some.inj heq).symm⟩

theorem advanced_set (h : s.made.live id = some a) (hfollows : a.Follows a')
    (text : Option String) : Advanced s ((s.set id a').reportSome text) id a a' where
  before := h
  live other := by
    rw [reportSome_made]
    exact live_set h a' other
  source := hfollows.source
  follows := hfollows
  associations := by
    rw [reportSome_associations]
    exact .refl _
  reader := reportSome_reader _ _
  arrivals := reportSome_arrivals _ _

theorem held_takePacket (hwriting : a.writing = none) :
    ({ a with packets := a.packets.tail, writing := a.packets.head? } : Association α).held =
      a.held := by
  cases hpackets : a.packets with
  | nil | cons p rest => simp [Association.held, hwriting, hpackets]

theorem held_write :
    ({ a with writing := none, written := a.written ++ a.writing.toList } : Association α).held =
      a.held := by
  simp [Association.held]

theorem held_drop (a : Association α) :
    ({ a with writing := none } : Association α).held.Sublist a.held := by
  simp [Association.held]

theorem advanced_delete (h : s.made.live id = some a) :
    Advanced s (s.delete string id a) id a { a with phase := .returned } where
  before := h
  live := live_set h _
  source := rfl
  follows := .of_eq rfl rfl rfl
  associations := by
    simp only [delete]
    split
    · exact filter_sublist
    · exact .refl _
  reader := rfl
  arrivals := rfl

theorem advanced_of_step (hstep : s.step string e = some t)
    (hreader : e.ofReader = false) : ∃ id a a', Advanced s t id a a' := by
  cases e with
  | readFromUDP source payload | readError text | send => cases hreader
  | openStream id =>
    obtain ⟨a, hlive, -, rfl⟩ := atAssociation_eq_some hstep
    refine ⟨id, a, _, advanced_set hlive ?_ none⟩
    exact .of_eq rfl rfl rfl
  | openStreamError id err =>
    obtain ⟨a, hlive, -, rfl⟩ := atAssociation_eq_some hstep
    refine ⟨id, a, _, advanced_set hlive ?_ _⟩
    exact .of_eq rfl rfl rfl
  | takePacket id =>
    obtain ⟨a, hlive, hready, rfl⟩ := atAssociation_eq_some hstep
    simp only [Bool.and_eq_true, Option.isNone_iff_eq_none] at hready
    refine ⟨id, a, _, advanced_set hlive ?_ none⟩
    exact .of_eq (held_takePacket hready.1.2) rfl rfl
  | write id =>
    obtain ⟨a, hlive, -, rfl⟩ := atAssociation_eq_some hstep
    refine ⟨id, a, _, advanced_set hlive ?_ none⟩
    exact .of_eq held_write rfl rfl
  | writeError id =>
    obtain ⟨a, hlive, -, rfl⟩ := atAssociation_eq_some hstep
    refine ⟨id, a, _, advanced_set hlive ?_ none⟩
    exact ⟨held_drop a, rfl, fun r hr => .inl hr⟩
  | writerStop id =>
    obtain ⟨a, hlive, -, rfl⟩ := atAssociation_eq_some hstep
    refine ⟨id, a, _, advanced_set hlive ?_ none⟩
    exact .of_eq rfl rfl rfl
  | reply id payload =>
    obtain ⟨a, hlive, -, rfl⟩ := atAssociation_eq_some hstep
    refine ⟨id, a, _, advanced_set hlive ⟨?_, ?_, ?_⟩ none⟩
    · exact .refl _
    · rfl
    · intro r hr
      refine (mem_append.mp hr).imp_right fun hr => ?_
      rw [mem_singleton.mp hr]
  | replyError id =>
    obtain ⟨a, hlive, -, rfl⟩ := atAssociation_eq_some hstep
    refine ⟨id, a, _, advanced_set hlive ?_ none⟩
    exact .of_eq rfl rfl rfl
  | bridgeReturn id reset err =>
    obtain ⟨a, hlive, -, rfl⟩ := atAssociation_eq_some hstep
    refine ⟨id, a, _, advanced_set hlive ?_ _⟩
    exact .of_eq rfl rfl rfl
  | streamClose id =>
    obtain ⟨a, hlive, -, rfl⟩ := atAssociation_eq_some hstep
    refine ⟨id, a, _, advanced_set hlive ?_ none⟩
    exact .of_eq rfl rfl rfl
  | delete id =>
    obtain ⟨a, hlive, -, rfl⟩ := atAssociation_eq_some hstep
    exact ⟨id, a, _, advanced_delete hlive⟩

theorem Replaced.live_iff (h : Replaced s t id a a') :
    t.made.live other = some b ↔
      (other = id ∧ b = a') ∨ (other ≠ id ∧ s.made.live other = some b) := by
  rw [h.live]
  split
  next heq =>
    simp [heq, eq_comm]
  next hne =>
    simp [hne]

theorem Replaced.keeps (h : Replaced s t id a a')
    (hb : ∃ b, s.made.live other = some b ∧ string b.source = key) :
    ∃ b, t.made.live other = some b ∧ string b.source = key := by
  obtain ⟨b, hb, hkey⟩ := hb
  by_cases heq : other = id
  · refine ⟨a', h.live_iff.mpr (.inl ⟨heq, rfl⟩), ?_⟩
    rw [heq, h.before] at hb
    rw [h.source, Option.some.inj hb, hkey]
  · exact ⟨b, h.live_iff.mpr (.inr ⟨heq, hb⟩), hkey⟩

/-- Whatever an association holds after the step, the association of that number held before. -/
theorem Advanced.held_before (h : Advanced s t id a a') (hb : t.made.live other = some b) :
    ∃ b', s.made.live other = some b' ∧ b.held ⊆ b'.held := by
  rcases h.live_iff.mp hb with ⟨rfl, rfl⟩ | ⟨-, hb⟩
  · exact ⟨a, h.before, h.follows.held.subset⟩
  · exact ⟨b, hb, List.Subset.refl _⟩

theorem Advanced.handled (h : Advanced s t id a a') : t.handled = s.handled := by
  rw [Forward.handled, Forward.handled, h.reader, h.arrivals]

section
variable (hinv : Inv string s)
include hinv

theorem Inv.advanced (h : Advanced s t id a a') : Inv string t where
  numbered := by
    rw [h.arrivals]
    exact hinv.numbered
  size := Nat.le_trans h.associations.length_le hinv.size
  nodup := hinv.nodup.sublist (h.associations.map _)
  keyed entry hentry := h.keeps (hinv.keyed entry (h.associations.subset hentry))
  good other b hb := by
    rw [h.handled, h.arrivals]
    rcases h.live_iff.mp hb with ⟨rfl, rfl⟩ | ⟨-, hb⟩
    · exact (hinv.good _ a h.before).follows h.follows
    · exact hinv.good other b hb
  disjoint i j b c hb hc hne p hp q hq := by
    obtain ⟨b', hb', hsub⟩ := h.held_before hb
    obtain ⟨c', hc', hsub'⟩ := h.held_before hc
    exact hinv.disjoint i j b' c' hb' hc' hne p (hsub hp) q (hsub' hq)
  sending other p hp := by
    rw [h.reader] at hp
    obtain ⟨harrived, hnumber, hb⟩ := hinv.sending other p hp
    rw [h.arrivals]
    exact ⟨harrived, hnumber, h.keeps hb⟩

theorem Inv.handled_le : s.handled ≤ s.arrivals.length := by
  unfold handled
  split
  next id p hp =>
    have := (hinv.sending id p hp).2.1
    omega
  · exact Nat.le_refl _

theorem Inv.idle (hmade : t.made = s.made)
    (hassociations : t.associations = s.associations) (harrivals : t.arrivals = s.arrivals)
    (hreader : ∀ id p, t.reader ≠ .sending id p) : Inv string t where
  numbered := harrivals ▸ hinv.numbered
  size := hassociations ▸ hinv.size
  nodup := hassociations ▸ hinv.nodup
  keyed := by
    rw [hassociations, hmade]
    exact hinv.keyed
  good id a ha := by
    have hhandled : t.handled = s.arrivals.length := by
      unfold handled
      split
      next id p hp =>
        exact absurd hp (hreader id p)
      · rw [harrivals]
    rw [hhandled, harrivals]
    exact (hinv.good id a (hmade ▸ ha)).mono (List.Subset.refl _) hinv.handled_le
  disjoint := by
    rw [hmade]
    exact hinv.disjoint
  sending id p hp := absurd hp (hreader id p)

theorem Inv.numbered_arrive (source : α) (payload : Bytes) :
    (s.arrivals ++ [s.arriving source payload]).map Packet.number =
      range (s.arrivals ++ [s.arriving source payload]).length := by
  rw [map_append, hinv.numbered, length_append, length_singleton, range_succ]
  rfl

theorem Inv.arrive (hreader : s.reader = .readFromUDP) (source : α)
    (payload : Bytes) : Inv string (s.arrive (s.arriving source payload)) where
  numbered := hinv.numbered_arrive source payload
  size := hinv.size
  nodup := hinv.nodup
  keyed := hinv.keyed
  good id a ha := by
    have hhandled : (s.arrive (s.arriving source payload)).handled = s.arrivals.length + 1 := by
      have hreader' : (s.arrive (s.arriving source payload)).reader = .readFromUDP := hreader
      rw [handled, hreader']
      exact length_append
    rw [hhandled]
    refine (hinv.good id a ha).mono (subset_append_left _ _) ?_
    exact Nat.le_succ_of_le hinv.handled_le
  disjoint := hinv.disjoint
  sending id p hp := by
    cases hreader.symm.trans hp

theorem Inv.found (hreader : s.reader = .readFromUDP) {source : α}
    {payload : Bytes} (hlive : ∃ a, s.made.live id = some a ∧ string a.source = string source) :
    Inv string { s.arrive (s.arriving source payload) with
      reader := .sending id (s.arriving source payload) } where
  numbered := hinv.numbered_arrive source payload
  size := hinv.size
  nodup := hinv.nodup
  keyed := hinv.keyed
  good id a ha := by
    have hhandled : s.handled = s.arrivals.length := by rw [handled, hreader]
    have hgood := hinv.good id a ha
    rw [hhandled] at hgood
    exact hgood.mono (subset_append_left _ _) (Nat.le_refl _)
  disjoint := hinv.disjoint
  sending other p hp := by
    cases hp
    refine ⟨mem_append_right _ (mem_singleton_self _), ?_, hlive⟩
    simp [arriving, Forward.arrive]

end

theorem lookup_eq_none (h : s.lookup key = none) :
    key ∉ s.associations.map Prod.fst := by
  rw [lookup, lookup_eq_none_iff] at h
  intro hmem
  obtain ⟨entry, hentry, heq⟩ := mem_map.mp hmem
  exact absurd heq.symm (by simpa using h entry hentry)

theorem mem_of_lookup (h : s.lookup key = some id) :
    (key, id) ∈ s.associations := by
  obtain ⟨before, after, heq, -⟩ := lookup_eq_some_iff.mp h
  rw [heq]
  exact mem_append_right _ (mem_cons_self)

theorem Inv.lookup_of_mem (hinv : Inv string s) {entry : String × Nat}
    (hentry : entry ∈ s.associations) : s.lookup entry.1 = some entry.2 := by
  cases hlookup : s.lookup entry.1 with
  | none => exact absurd (mem_map_of_mem hentry) (lookup_eq_none hlookup)
  | some id =>
    have := inj_on_of_nodup_map hinv.nodup hentry (mem_of_lookup hlookup) rfl
    rw [this]

theorem Inv.enter (hinv : Inv string s) {source : α} (hnone : s.lookup (string source) = none)
    (hroom : s.associations.length < maxUDPAssociations) :
    Inv string { s with
      associations := (string source, s.made.next) :: s.associations
      made := s.made.add { source := source } } where
  numbered := hinv.numbered
  size := hroom
  nodup := nodup_cons.mpr ⟨lookup_eq_none hnone, hinv.nodup⟩
  keyed entry hentry := by
    rcases mem_cons.mp hentry with rfl | hentry
    · exact ⟨_, Registry.live_add_next _ _, rfl⟩
    · obtain ⟨a, ha, hkey⟩ := hinv.keyed entry hentry
      exact ⟨a, Registry.live_add_of_some ha _, hkey⟩
  good other b hb := by
    rw [Registry.live_add] at hb
    split at hb
    · cases hb
      constructor <;> simp [Association.held]
    · exact hinv.good other b hb
  disjoint i j b c hb hc hne p hp q hq := by
    rw [Registry.live_add] at hb hc
    split at hb
    · cases hb
      simp [Association.held] at hp
    split at hc
    · cases hc
      simp [Association.held] at hq
    · exact hinv.disjoint i j b c hb hc hne p hp q hq
  sending other p hp := by
    obtain ⟨harrived, hnumber, a, ha, hkey⟩ := hinv.sending other p hp
    exact ⟨harrived, hnumber, a, Registry.live_add_of_some ha _, hkey⟩

theorem Inv.readFromUDP (hinv : Inv string s) (hreader : s.reader = .readFromUDP) (source : α)
    (payload : Bytes) :
    Inv string ((s.arrive (s.arriving source payload)).readFromUDP string
      (s.arriving source payload)) := by
  unfold Forward.readFromUDP
  split
  next id hfound =>
    exact hinv.found hreader (hinv.keyed _ (mem_of_lookup hfound))
  rename_i hnone
  split
  · refine (hinv.arrive hreader source payload).idle rfl rfl rfl ?_
    intro id p hp
    cases hreader.symm.trans hp
  next hfull =>
    have hentered := hinv.enter hnone (Nat.lt_of_not_le hfull)
    exact hentered.found hreader ⟨_, Registry.live_add_next _ _, rfl⟩

theorem Replaced.held_send {p q : Packet α}
    (h : Replaced s t id a { a with packets := a.packets ++ [p] })
    (hb : t.made.live other = some b) (hq : q ∈ b.held) :
    ∃ b', s.made.live other = some b' ∧ (q ∈ b'.held ∨ (other = id ∧ q = p)) := by
  rcases h.live_iff.mp hb with ⟨rfl, rfl⟩ | ⟨-, hb⟩
  · refine ⟨a, h.before, ?_⟩
    rw [Association.held, ← append_assoc, mem_append, mem_singleton] at hq
    exact hq.imp_right fun heq => ⟨rfl, heq⟩
  · exact ⟨b, hb, .inl hq⟩

/-- The datagram goes to the queue of the association the reader holds, whether or not it is
still in the map. -/
theorem Inv.send (hinv : Inv string s) {p : Packet α} (hreader : s.reader = .sending id p)
    (hlive : s.made.live id = some a) :
    Inv string (s.send string id a p) := by
  obtain ⟨harrived, hnumber, b, hb, hkey⟩ := hinv.sending id p hreader
  cases hlive.symm.trans hb
  have hhandled : s.handled = p.number := by rw [handled, hreader]
  unfold Forward.send
  split
  · have hreplaced : Replaced s { s.set id { a with packets := a.packets ++ [p] } with
        reader := .readFromUDP } id a { a with packets := a.packets ++ [p] } :=
      ⟨hlive, live_set hlive _, rfl⟩
    -- the datagram is newer than everything any association holds
    have hgood := hhandled ▸ hinv.good
    refine ⟨hinv.numbered, hinv.size, hinv.nodup, ?_, ?_, ?_, nofun⟩
    · intro entry hentry
      exact hreplaced.keeps (hinv.keyed entry hentry)
    · intro other c hc
      change c.Good string s.arrivals s.arrivals.length
      rw [← hnumber]
      rcases hreplaced.live_iff.mp hc with ⟨rfl, rfl⟩ | ⟨-, hc⟩
      · exact (hgood _ a hlive).send harrived hkey
      · exact (hgood other c hc).mono (List.Subset.refl _) (Nat.le_succ _)
    · intro i j c d hc hd hne q hq r hr
      obtain ⟨c', hc', hq⟩ := hreplaced.held_send hc hq
      obtain ⟨d', hd', hr⟩ := hreplaced.held_send hd hr
      rcases hq with hq | ⟨hi, rfl⟩ <;> rcases hr with hr | ⟨hj, rfl⟩
      · exact hinv.disjoint i j c' d' hc' hd' hne q hq r hr
      · exact Nat.ne_of_lt ((hgood i c' hc').handled q hq)
      · exact Nat.ne_of_gt ((hgood j d' hd').handled r hr)
      · exact absurd (hi.trans hj.symm) hne
  · exact hinv.idle rfl rfl rfl nofun

theorem Inv.step (hinv : Inv string s) (hstep : s.step string e = some t) :
    Inv string t := by
  cases hreader : e.ofReader with
  | false =>
    obtain ⟨id, a, a', hadvanced⟩ := advanced_of_step hstep hreader
    exact hinv.advanced hadvanced
  | true =>
    cases e with
    | readFromUDP source payload =>
      simp only [Forward.step] at hstep
      split at hstep
      next hidle =>
        cases hstep
        exact hinv.readFromUDP hidle source payload
      · cases hstep
    | readError text =>
      simp only [Forward.step] at hstep
      split at hstep
      · cases hstep
        refine hinv.idle ?_ ?_ ?_ ?_ <;> simp
      · cases hstep
    | send =>
      simp only [Forward.step] at hstep
      split at hstep
      next id p hsending =>
        obtain ⟨a, ha, rfl⟩ := Option.map_eq_some_iff.mp hstep
        exact hinv.send hsending ha
      · cases hstep
    | _ => cases hreader

theorem inv_initial : Inv string ({} : Forward α) where
  numbered := rfl
  size := Nat.zero_le _
  nodup := .nil
  keyed := nofun
  good _ _ h := by cases h
  disjoint _ _ _ _ h := by cases h
  sending _ _ h := by cases h

theorem Inv.of_run {es : List (ForwardEvent α)} (hrun : Run (Forward.step string) Any {} es s) :
    Inv string s :=
  hrun.invariant (fun hinv _ hstep => hinv.step hstep) inv_initial

theorem Inv.mem_delete (hinv : Inv string s) (hstep : s.step string (.delete id) = some t)
    (entry : String × Nat) :
    entry ∈ t.associations ↔ entry ∈ s.associations ∧ entry.2 ≠ id := by
  obtain ⟨a, hlive, -, rfl⟩ := atAssociation_eq_some hstep
  have hown : ∀ entry ∈ s.associations, entry.2 = id → entry.1 = string a.source := by
    rintro entry hentry rfl
    obtain ⟨b, hb, hkey⟩ := hinv.keyed entry hentry
    cases hlive.symm.trans hb
    exact hkey.symm
  simp only [delete]
  split
  next hlookup =>
    rw [mem_filter, decide_eq_true_eq]
    refine and_congr_right fun hentry => not_congr ⟨fun hkey => ?_, hown entry hentry⟩
    have hfound := hinv.lookup_of_mem hentry
    rw [hkey, hlookup] at hfound
    exact (Option.some.inj hfound).symm
  next hlookup =>
    refine (and_iff_left_of_imp fun hentry hid => hlookup ?_).symm
    rw [← hown entry hentry hid, ← hid]
    exact hinv.lookup_of_mem hentry

theorem associations_of_step (hstep : s.step string e = some t) :
    (∃ id, e = .delete id) ∨ s.associations ⊆ t.associations := by
  cases e with
  | delete id => exact .inl ⟨id, rfl⟩
  | readFromUDP source payload =>
    refine .inr ?_
    simp only [step] at hstep
    split at hstep
    · cases hstep
      unfold readFromUDP
      split
      · exact List.Subset.refl _
      split
      · exact List.Subset.refl _
      · exact subset_cons_self _ _
    · cases hstep
  | readError text =>
    refine .inr ?_
    simp only [step] at hstep
    split at hstep
    · cases hstep
      rw [reportSome_associations]
      exact List.Subset.refl _
    · cases hstep
  | send =>
    refine .inr ?_
    simp only [step] at hstep
    split at hstep
    · obtain ⟨a, -, rfl⟩ := Option.map_eq_some_iff.mp hstep
      unfold send
      split <;> exact List.Subset.refl _
    · cases hstep
  | openStreamError id err | bridgeReturn id reset err =>
    obtain ⟨a, -, -, rfl⟩ := atAssociation_eq_some hstep
    rw [reportSome_associations]
    exact .inr (List.Subset.refl _)
  | openStream id | takePacket id | write id | writeError id | writerStop id | replyError id
  | streamClose id | reply id payload =>
    obtain ⟨a, -, -, rfl⟩ := atAssociation_eq_some hstep
    exact .inr (List.Subset.refl _)

theorem Inv.leaves (hinv : Inv string s) (hstep : s.step string e = some t)
    {entry : String × Nat} (hentry : entry ∈ s.associations) (hleft : entry ∉ t.associations) :
    e = .delete entry.2 := by
  rcases associations_of_step hstep with ⟨id, rfl⟩ | hsub
  · rw [hinv.mem_delete hstep, not_and_not_right] at hleft
    rw [hleft hentry]
  · exact absurd (hsub hentry) hleft

/-- In every state that a forward reaches: the map is bounded and has at most one entry for a
source, under whose text its association stands; an entry leaves it only when its own association ends; what is written on the stream of an
association came from the source it was opened for, in the order of arrival and nowhere else; and
replies go to that source. -/
theorem udp_association_isolation (hstring : Function.Injective string)
    {es : List (ForwardEvent α)} (hrun : Run (step string) Any {} es s) :
    s.arrivals.map Packet.number = range s.arrivals.length ∧
    s.associations.length ≤ maxUDPAssociations ∧
    (s.associations.map Prod.fst).Nodup ∧
    (∀ entry ∈ s.associations, ∃ a, s.made.live entry.2 = some a ∧ string a.source = entry.1) ∧
    (∀ e t entry, s.step string e = some t → entry ∈ s.associations → entry ∉ t.associations →
      e = .delete entry.2) ∧
    (∀ id t, s.step string (.delete id) = some t →
      ∀ entry, entry ∈ t.associations ↔ entry ∈ s.associations ∧ entry.2 ≠ id) ∧
    (∀ id a, s.made.live id = some a →
      (∀ p ∈ a.written, p ∈ s.arrivals ∧ p.source = a.source) ∧
      a.written.Pairwise (fun p q => p.number < q.number) ∧
      (∀ r ∈ a.replies, r.1 = a.source)) ∧
    ∀ id id' a a', s.made.live id = some a → s.made.live id' = some a' →
      ∀ p ∈ a.written, ∀ p' ∈ a'.written, p.number = p'.number → id = id' := by
  have hinv := Inv.of_run hrun
  refine ⟨hinv.numbered, hinv.size, hinv.nodup, hinv.keyed,
    fun e t entry hstep => hinv.leaves hstep, fun id t => hinv.mem_delete, ?_, ?_⟩
  · intro id a ha
    have hgood := hinv.good id a ha
    refine ⟨fun p hp => ?_, hgood.ordered.sublist a.written_sublist, hgood.replied⟩
    have hheld := a.written_sublist.subset hp
    exact ⟨hgood.arrived p hheld, hstring (hgood.keyed p hheld)⟩
  · intro id id' a a' ha ha' p hp p' hp' heq
    by_contra hne
    exact hinv.disjoint id id' a a' ha ha' hne p (a.written_sublist.subset hp) p'
      (a'.written_sublist.subset hp') heq

end Forward
end Invariant

section Example

/-- The association of `a` ends while the reader holds it for a second datagram; the third one
makes a new association, beside that of `b`. -/
def expiringRun : List (ForwardEvent String) :=
  [.readFromUDP "a" [1], .send, .openStream 0, .takePacket 0, .write 0, .readFromUDP "b" [1], .send,
    .readFromUDP "a" [2], .bridgeReturn 0 false none, .streamClose 0, .delete 0, .send,
    .readFromUDP "a" [3], .send]

theorem udp_association_isolation_example :
    ∃ s, Run (Forward.step id) Any {} expiringRun s ∧ s.associations = [("a", 2), ("b", 1)] ∧
      s.associations.length ≤ maxUDPAssociations ∧
      (∃ a, s.made.live 1 = some a ∧ a.source = "b") ∧
      ∃ a, s.made.live 0 = some a ∧ a.written = [⟨0, "a", [1]⟩] ∧
        ∀ p ∈ a.written, p ∈ s.arrivals ∧ p.source = a.source := by
  have hsome : (exec (Forward.step id) Any {} expiringRun).isSome = true := rfl
  obtain ⟨s, hexec⟩ := Option.isSome_iff_exists.mp hsome
  have hrun := run_of_exec _ _ hexec
  have hall := Forward.udp_association_isolation Function.injective_id hrun
  have hmap : s.associations = [("a", 2), ("b", 1)] := by
    cases hexec
    rfl
  have hother := hall.2.2.2.1 ("b", 1) (hmap ▸ by simp)
  cases hexec
  exact ⟨_, hrun, hmap, hall.2.1, hother, _, rfl, rfl,
    (hall.2.2.2.2.2.2.1 0 _ rfl).1⟩

end Example

end P2PNetcat.Session
