import P2PNetcat.NativeWebRTC.ListenerBookkeeping

/-!
# Reattaching peers to streams that have failed

`activate` looks at the peer and the link of an entry, not at its stream. A
stream that failed stays in the map until its `closePeer` runs, so a later peer
can be bound to it once the entry has lost its own peer.
-/

namespace P2PNetcat.NativeWebRTC
open Function ByteCodec StepSystem

namespace Listener
variable {L : Libp2p} {cfg : ListenerConfig L} {l t : Listener} {ev : Event}

/-- `watch` takes the peer off a stream that has not failed, and a stream of the map does not fail
while it has no peer. -/
def FailsWithPeer (l : Listener) : Event → Prop
  | .watch i =>
    match (l.peers i).point with
    | .returned e => l.streams (l.peers i).offer.sender = some e → (l.entries e).peer = some i →
        (l.entries e).stream.closed = false
    | _ => True
  | .fail e _ => l.holds e = true → (l.entries e).peer.isSome = true
  | _ => True

instance (l : Listener) (ev : Event) : Decidable (l.FailsWithPeer ev) :=
  match ev with
  | .watch i =>
    show Decidable (match (l.peers i).point with
      | .returned e => l.streams (l.peers i).offer.sender = some e → (l.entries e).peer = some i →
          (l.entries e).stream.closed = false
      | _ => True) from
    match (l.peers i).point with
    | .returned _ => inferInstanceAs (Decidable (_ → _ → _))
    | .answering | .authenticating _ | .accepted | .refused | .rebinding _ | .forwarding _
    | .done => isTrue trivial
  | .fail _ _ => inferInstanceAs (Decidable (_ → _))
  | .message _ _ _ | .lose _ | .offer _ | .answer _ _ | .authenticate _ _ | .abandon _
  | .observeClosed _ | .activate _ _ | .refuse _ | .reconnected _ _ | .forward _ _ | .expire _
  | .closeStream _ | .closer _ | .send _ _ _ | .shutdown _ => isTrue trivial

def LiveInv (l : Listener) : Prop :=
  ∀ remote e, l.streams remote = some e → (l.entries e).peer = none →
    (l.entries e).stream.closed = false

section Steps
variable (h : LiveInv l)
include h

theorem LiveInv.of_kept (hstreams : ∀ remote e, t.streams remote = some e → l.streams remote = some e)
    (hentries : ∀ remote e, l.streams remote = some e → t.streams remote = some e →
      (t.entries e).peer = none →
      (l.entries e).peer = none ∧ (t.entries e).stream.closed = (l.entries e).stream.closed) :
    LiveInv t := by
  intro remote e he hnone
  have hold := hstreams remote e he
  obtain ⟨hpeer, hstream⟩ := hentries remote e hold he hnone
  rw [hstream]
  exact h remote e hold hpeer

theorem LiveInv.setEntry {e : Nat} {entry : ListenerStream} (hpeer : entry.peer = (l.entries e).peer)
    (hentry : entry.peer = none → l.holds e = true →
      entry.stream.closed = (l.entries e).stream.closed) (hbook : BookkeepingInv l) :
    LiveInv (l.setEntry e entry) := by
  refine h.of_kept (fun _ _ he => he) fun remote e' hold he hnone => ?_
  by_cases heq : e' = e
  · subst heq
    simp only [Listener.setEntry, update_self] at hnone ⊢
    have hheld : l.holds e' = true := by
      simpa [holds, (hbook.mapped remote e' hold).2] using hold
    exact ⟨hpeer ▸ hnone, hentry hnone hheld⟩
  · simp only [Listener.setEntry, update_of_ne heq] at hnone ⊢
    exact ⟨hnone, trivial⟩

theorem LiveInv.remove {e : Nat} (hbook : BookkeepingInv l)
    (hstreams : t.streams = update l.streams (l.entries e).remote none)
    (hentries : ∀ e', e' ≠ e → t.entries e' = l.entries e') : LiveInv t := by
  refine h.of_kept (fun remote e' he' => (hbook.of_remove hstreams he').1)
    fun remote e' hold he hnone => ?_
  rw [hentries e' (hbook.of_remove hstreams he).2] at hnone ⊢
  exact ⟨hnone, rfl⟩

theorem LiveInv.terminate (hbook : BookkeepingInv l) (e : Nat) (err : String) :
    LiveInv (l.terminate e err) := by
  refine h.remove hbook (terminate_streams l e err) fun e' hne => ?_
  rw [terminate_entries, update_of_ne hne]

theorem LiveInv.step (hbook : BookkeepingInv l) (hok : l.FailsWithPeer ev)
    (ht : l.step L cfg ev = some t) : LiveInv t := by
  -- a goroutine bound to a stream is the peer of its entry
  have hattached : ∀ {i e}, (l.peers i).point.entry = some e → (l.entries e).peer ≠ none := by
    intro i e hi hnone
    rw [(hbook.bound i e hi).2] at hnone
    cases hnone
  cases stepped_of_step ht with
  | message | lose | offer | answer | responded | accepted | denied | abandoned | observed
  | refused | closedRefused | finished | closing | sent => exact h
  | @created i stopped hp hopen hfree =>
    intro remote e he hnone
    by_cases heq : e = l.entryCount
    · subst heq
      simp [Listener.setEntry] at hnone
    simp only [Listener.setEntry, Listener.setPeer, update_of_ne heq] at he hnone ⊢
    by_cases hremote : remote = (l.peers i).offer.sender
    · simp only [hremote, update_self, Option.some.injEq] at he
      exact absurd he.symm heq
    · rw [update_of_ne hremote] at he
      exact h remote e he hnone
  | @attached i e pending stopped hp hstream hfree =>
    intro remote e' he' hnone
    by_cases heq : e' = e
    · subst heq
      simp [Listener.setEntry] at hnone
    · simp only [Listener.setEntry, Listener.setPeer, update_of_ne heq] at hnone ⊢
      exact h remote e' he' hnone
  | rebound hp | reset hp | forwarded hp =>
    exact LiveInv.setEntry h rfl (fun hnone => absurd hnone (hattached (by rw [hp]; rfl))) hbook
  | @detached i e hp hstream hpeer =>
    intro remote e' he' hnone
    by_cases heq : e' = e
    · subst heq
      simp only [FailsWithPeer, hp] at hok
      simpa [Listener.setEntry] using hok hstream hpeer
    · simp only [Listener.setEntry, Listener.setPeer, update_of_ne heq] at hnone ⊢
      exact h remote e' he' hnone
  | lapsed => exact h.setEntry rfl (fun _ _ => rfl) hbook
  | @expired e =>
    refine LiveInv.remove (e := e) h hbook ?_ fun e' hne => ?_
    · rw [terminate_streams]
      simp [Listener.setEntry]
    · rw [terminate_entries, update_of_ne hne]
      simp [Listener.setEntry, update_of_ne hne]
  | unlinked =>
    split
    · exact h.remove hbook rfl fun _ _ => rfl
    · exact h
  | linkClosed => exact LiveInv.setEntry h rfl (fun _ _ => rfl) hbook
  | peerClosed =>
    refine h.of_kept (fun remote e he => ?_) fun remote e _ _ hnone => ?_
    · simpa [Listener.setCloser] using he
    · exact ⟨by simpa [Listener.setCloser] using hnone, by simp [Listener.setCloser]⟩
  | @failed e err he =>
    refine h.setEntry rfl (fun hnone hheld => ?_) hbook
    have hsome := hok hheld
    simp [show (l.entries e).peer = none from hnone] at hsome
  | @shutdown order =>
    have hclosed : BookkeepingInv { l with closed := true } :=
      ⟨hbook.agree, hbook.mapped, hbook.bound, hbook.closers, hbook.unlinked, hbook.opened⟩
    have hlive : LiveInv { l with closed := true } := h
    exact (terminateAll_invariant (I := fun t => LiveInv t ∧ BookkeepingInv t)
      (fun hboth _ => ⟨hboth.1.terminate hboth.2 _ _, hboth.2.terminate _ _⟩) order
      ⟨hlive, hclosed⟩).1

end Steps

theorem activate_cases {i : Nat} {stopped : Bool}
    (ht : l.step L cfg (.activate i stopped) = some t) :
    (t.peers i).point = .refused ∨
    (t.peers i).point = .forwarding l.entryCount ∧
      t.streams (l.peers i).offer.sender = some l.entryCount ∧ t.entryCount = l.entryCount + 1 ∨
    ∃ e, (t.peers i).point = .rebinding e ∧ l.streams (l.peers i).offer.sender = some e ∧
      (l.entries e).peer = none := by
  cases stepped_of_step ht with
  | refused => exact .inl (by simp [setPeer])
  | created => exact .inr (.inl ⟨by simp [setEntry, setPeer], by simp, rfl⟩)
  | attached _ hstream hfree =>
    exact .inr (.inr ⟨_, by simp [setEntry, setPeer], hstream, hfree⟩)

end Listener

/-- In every run in which `watch` takes peers off streams that have not failed and no stream of
the map fails without a peer, `activate` refuses a peer, creates a stream for it, or binds it to a
stream that has not failed. -/
theorem reattaches_to_live_streams (L : Libp2p) (cfg : ListenerConfig L)
    {es : List Listener.Event} {l t : Listener} {i : Nat} {stopped : Bool}
    (hrun : Run (Listener.step L cfg) Listener.FailsWithPeer {} es l)
    (ht : l.step L cfg (.activate i stopped) = some t) :
    (t.peers i).point = .refused ∨
    (t.peers i).point = .forwarding l.entryCount ∧
      t.streams (l.peers i).offer.sender = some l.entryCount ∧ t.entryCount = l.entryCount + 1 ∨
    ∃ e, (t.peers i).point = .rebinding e ∧ l.streams (l.peers i).offer.sender = some e ∧
      (l.entries e).stream.closed = false := by
  have hinv : l.BookkeepingInv ∧ l.LiveInv :=
    hrun.invariant (I := fun l => l.BookkeepingInv ∧ l.LiveInv)
      (fun hi hok ht => ⟨hi.1.step ht, hi.2.step hi.1 hok ht⟩)
      ⟨Listener.BookkeepingInv.initial, nofun⟩
  rcases Listener.activate_cases ht with hrefused | hcreated | ⟨e, hpoint, hstream, hfree⟩
  · exact .inl hrefused
  · exact .inr (.inl hcreated)
  · exact .inr (.inr ⟨e, hpoint, hstream, hinv.2 _ e hstream hfree⟩)

section Example

/-- A peer is lost and the next peer of its remote is bound to the stream. -/
theorem reattaches_to_live_streams_example : ∃ es l t,
    Run (Listener.step trustingLibp2p exampleListener) Listener.FailsWithPeer {} es l ∧
    l.step trustingLibp2p exampleListener (.activate 1 true) = some t ∧
    (t.peers 1).point = .rebinding 0 ∧
    ((t.peers 1).point = .refused ∨
      (t.peers 1).point = .forwarding l.entryCount ∧
        t.streams (l.peers 1).offer.sender = some l.entryCount ∧ t.entryCount = l.entryCount + 1 ∨
      ∃ e, (t.peers 1).point = .rebinding e ∧ l.streams (l.peers 1).offer.sender = some e ∧
        (l.entries e).stream.closed = false) := by
  have hrun := run_exec (Listener.step trustingLibp2p exampleListener) Listener.FailsWithPeer {}
    (listenerHandshake 0 ++ [.activate 0 false, .lose 0, .forward 0 .closed, .watch 0] ++
      listenerHandshake 1) (by decide)
  refine ⟨_, _, _, hrun, (Option.some_get ?_).symm, ?_, ?_⟩
  · decide
  · decide
  · exact reattaches_to_live_streams trustingLibp2p exampleListener hrun (Option.some_get _).symm

/-- The remote aborts the stream and goes away; before the application has closed the stream, the
next peer of the remote is bound to it. -/
theorem failed_stream_reattached : ∃ es l t,
    Run (Listener.step trustingLibp2p exampleListener) Any {} es l ∧
    l.step trustingLibp2p exampleListener (.activate 1 true) = some t ∧
    (t.peers 1).point = .rebinding 0 ∧ (t.entries 0).link.peer = some 1 ∧
    (l.entries 0).stream.closed = true ∧ (t.entries 0).stream.closed = true := by
  have hrun := run_exec (Listener.step trustingLibp2p exampleListener) Any {}
    (listenerHandshake 0 ++ [.activate 0 false,
      .message 0 (encodeFrame frameControl (ascii "abort")) false, .forward 0 .frame, .lose 0,
      .forward 0 .closed, .watch 0] ++ listenerHandshake 1) (by decide)
  refine ⟨_, _, _, hrun, (Option.some_get ?_).symm, ?_, ?_, ?_, ?_⟩
  all_goals decide

end Example

end P2PNetcat.NativeWebRTC
