import P2PNetcat.NativeWebRTC.ListenerHandshake

/-!
# Who owns an open peer

A peer that a dial has returned, or that was passed to `activate`, and whose
connection is open is held by a running step or is the current peer of an open
link, at the listener of exactly one, as long as links let go of closed peers
only and a dialled peer finds the link open.
-/

namespace P2PNetcat.NativeWebRTC
open Function ByteCodec StepSystem

theorem PeerLink.close_eq {l : PeerLink} (h : l.peer.isSome → l.closed = false) :
    l.close.1.peer = none ∧ l.close.2 = l.peer := by
  unfold close
  split
  next hclosed =>
    cases hp : l.peer with
    | none => exact ⟨rfl, rfl⟩
    | some k =>
      rw [h (by simp [hp])] at hclosed
      cases hclosed
  · exact ⟨rfl, rfl⟩

theorem NativePeer.open_of_onMessage {p : NativePeer} {message : Bytes} {pickClosed : Bool}
    (h : (p.onMessage message pickClosed).closed = false) : p.closed = false := by
  by_contra hclosed
  rw [(p.onMessage_spec message pickClosed).2 (by simpa using hclosed)] at h
  cases h

namespace Client
variable {L : Libp2p} {cfg : ClientConfig} {c t : Client} {p : ClientPeer} {k : Nat}

/-- A running step has the peer in its hands: a dial returned it and it is not bound yet, or it
was taken from the link to be closed. -/
def Held (c : Client) (k : Nat) : Prop :=
  c.supervisor = .dialed k ∨ c.supervisor = .closing (some k) ∨ c.closer = .closing (some k)

def Owned (c : Client) (k : Nat) : Prop := c.Held k ∨ c.linkPeer = some k

/-- The link lets go of closed peers only, and a peer that was dialled finds the link open. -/
def KeepsPeers (c : Client) (e : Event) : Prop :=
  match e, c.supervisor, c.link with
  | .detach, .returned k, _ => c.cancelled = false → (c.peers k).peer.closed = true
  | .bind, .dialed k, some link => link.closed = true → (c.peers k).peer.closed = true
  | _, _, _ => True

instance (c : Client) (e : Event) : Decidable (c.KeepsPeers e) := by
  unfold KeepsPeers
  split <;> infer_instance

def PointLinks (linked : Option Nat) : Supervisor → Prop
  | .detached | .dialing _ _ _ | .dialed _ => linked = none
  | .rebinding k | .forwarding k | .returned k => linked = none ∨ linked = some k
  | _ => True

theorem pointLinks_none (sup : Supervisor) : PointLinks none sup := by
  cases sup <;> simp [PointLinks]

structure OwnershipInv (c : Client) : Prop where
  owned : ∀ k, (c.peers k).returned = true → (c.peers k).peer.closed = false → c.Owned k
  linkOpen : ∀ link, c.link = some link → link.peer.isSome → link.closed = false
  point : PointLinks c.linkPeer c.supervisor

theorem OwnershipInv.initial : OwnershipInv {} :=
  ⟨fun _ h => by simp at h, fun _ h => by simp at h, rfl⟩

def Narrower (peers peers' : Nat → ClientPeer) : Prop :=
  ∀ k, (peers' k).returned = true → (peers' k).peer.closed = false →
    (peers k).returned = true ∧ (peers k).peer.closed = false

theorem narrower_refl (peers : Nat → ClientPeer) : Narrower peers peers := fun _ hr hc => ⟨hr, hc⟩

theorem narrower_update {peers : Nat → ClientPeer} (h : p.returned = true → p.peer.closed = false →
      (peers k).returned = true ∧ (peers k).peer.closed = false) :
    Narrower peers (update peers k p) := by
  intro j hr hc
  by_cases heq : j = k
  · subst heq
    rw [update_self] at hr hc
    exact h hr hc
  · rw [update_of_ne heq] at hr hc
    exact ⟨hr, hc⟩

theorem OwnershipInv.of_narrower (h : OwnershipInv c) (hpeers : Narrower c.peers t.peers)
    (howned : ∀ k, (t.peers k).peer.closed = false → c.Owned k → t.Owned k)
    (hlink : ∀ link, t.link = some link → link.peer.isSome → link.closed = false)
    (hpoint : PointLinks t.linkPeer t.supervisor) : OwnershipInv t := by
  refine ⟨fun k hr hc => ?_, hlink, hpoint⟩
  obtain ⟨hr', hc'⟩ := hpeers k hr hc
  exact howned k hc (h.owned k hr' hc')

theorem OwnershipInv.setPeer (h : OwnershipInv c) (hp : p.returned = true → p.peer.closed = false →
      (c.peers k).returned = true ∧ (c.peers k).peer.closed = false) :
    OwnershipInv (c.setPeer k p) :=
  h.of_narrower (narrower_update hp) (fun _ _ ho => ho) h.linkOpen h.point

theorem OwnershipInv.closePeer (h : OwnershipInv c) (k : Nat) : OwnershipInv (c.closePeer k) :=
  h.setPeer fun _ hc => Bool.noConfusion hc

theorem Owned.move (ho : c.Owned k)
    (hs : c.supervisor ≠ .dialed k ∧ c.supervisor ≠ .closing (some k)) (hcloser : t.closer = c.closer)
    (hlink : t.linkPeer = c.linkPeer) : t.Owned k := by
  rcases ho with (ho | ho | ho) | ho
  · exact absurd ho hs.1
  · exact absurd ho hs.2
  · exact .inl (.inr (.inr (hcloser.trans ho)))
  · exact .inr (hlink.trans ho)

variable {now : DialPoint}

theorem OwnershipInv.dialStep (h : OwnershipInv c) {d : Dial}
    (hs : c.supervisor = .dialing k d now) {sup : Supervisor}
    (hp : p.returned = true → p.peer.closed = false →
      (c.peers k).returned = true ∧ (c.peers k).peer.closed = false)
    (hsup : sup = .detached ∨ sup = .stopped ∨ ∃ d' next, sup = .dialing k d' next) :
    OwnershipInv { c.setPeer k p with supervisor := sup } := by
  have hpoint := h.point
  rw [hs] at hpoint
  refine h.of_narrower (narrower_update hp) (fun j _ ho => ho.move (by simp [hs]) rfl rfl)
    h.linkOpen ?_
  rcases hsup with rfl | rfl | ⟨d', next, rfl⟩
  · exact hpoint
  · trivial
  · exact hpoint

theorem OwnershipInv.dialFailed (h : OwnershipInv c) {d : Dial}
    (hs : c.supervisor = .dialing k d now) (p : ClientPeer) :
    OwnershipInv ((c.setPeer k p).dialFailed k) := by
  rw [dialFailed_setPeer]
  refine h.dialStep hs (fun _ hc => Bool.noConfusion hc) ?_
  cases c.link.isSome <;> simp

section Steps
variable (h : OwnershipInv c)
include h
variable {sup : Supervisor} {stream : Stream} {k : Nat}

theorem OwnershipInv.dialed {d : Dial} {p : ClientPeer}
    (hs : c.supervisor = .dialing k d now) :
    OwnershipInv { c.setPeer k p with supervisor := .dialed k } := by
  have hpoint := h.point
  rw [hs] at hpoint
  refine ⟨fun j hr hc => ?_, h.linkOpen, hpoint⟩
  by_cases heq : j = k
  · subst heq
    exact .inl (.inl rfl)
  · simp only [Client.setPeer, update_of_ne heq] at hr hc
    exact (h.owned j hr hc).move (by simp [hs]) rfl rfl

/-- With a returned peer in hand the link has none, so whoever else is owned is held by the
closer. -/
theorem OwnershipInv.closer_of_dialed (hs : c.supervisor = .dialed k) {j : Nat}
    (hne : j ≠ k) (ho : c.Owned j) : c.closer = .closing (some j) := by
  have hpoint : c.linkPeer = none := by
    have := h.point
    rwa [hs] at this
  rcases ho with (ho | ho | ho) | ho
  · rw [hs] at ho
    cases ho
    exact absurd rfl hne
  · rw [hs] at ho
    cases ho
  · exact ho
  · rw [hpoint] at ho
    cases ho

theorem OwnershipInv.bound (hs : c.supervisor = .dialed k)
    (hsup : sup = .forwarding k ∨ sup = .rebinding k) :
    OwnershipInv { c with link := some { peer := some k }, supervisor := sup } := by
  refine h.of_narrower (narrower_refl _) (fun j _ ho => ?_) ?_ ?_
  · by_cases heq : j = k
    · subst heq
      exact .inr rfl
    · exact .inl (.inr (.inr (h.closer_of_dialed hs heq ho)))
  · rintro link hlink _
    cases hlink
    rfl
  · rcases hsup with rfl | rfl <;> exact .inr rfl

theorem OwnershipInv.refused {link : PeerLink}
    (hok : c.KeepsPeers .bind) (hs : c.supervisor = .dialed k) (hl : c.link = some link)
    (hattach : link.attach k = none) : OwnershipInv { c with stream, supervisor := .failed } := by
  have hclosed : link.closed = true := by
    have hp : link.peer = none := by
      have := h.point
      rw [hs] at this
      simpa [PointLinks, linkPeer, hl] using this
    by_contra hopen
    simp [PeerLink.attach, hp, hopen] at hattach
  refine h.of_narrower (narrower_refl _) (fun j hc ho => ?_) h.linkOpen trivial
  by_cases heq : j = k
  · subst heq
    have hgone : link.closed = true → (c.peers j).peer.closed = true := by
      simpa only [KeepsPeers, hs, hl] using hok
    rw [hgone hclosed] at hc
    cases hc
  · exact .inl (.inr (.inr (h.closer_of_dialed hs heq ho)))

theorem OwnershipInv.moveSupervisor
    (hs : ∀ k, c.supervisor ≠ .dialed k ∧ c.supervisor ≠ .closing (some k))
    (hpoint : PointLinks c.linkPeer sup) :
    OwnershipInv { c with stream, supervisor := sup } :=
  h.of_narrower (narrower_refl _) (fun k _ ho => ho.move (hs k) rfl rfl) h.linkOpen hpoint

theorem OwnershipInv.forward {peer : NativePeer} {stream' : Stream}
    {replies : List Bytes} {err : Option ForwardError} {pick : ForwardCase} {taken : List Frame}
    (hs : c.supervisor = .forwarding k)
    (hturn : forwardFrames (c.peers k).peer stream pick = some (peer, stream', replies, err)) :
    OwnershipInv { c.setPeer k { c.peers k with
        peer
        dequeued := (c.peers k).dequeued ++ taken
        received := (c.peers k).received ++ taken } with
      stream := stream'
      supervisor := if err.isSome then .returned k else .forwarding k } := by
  have hpoint := h.point
  rw [hs] at hpoint
  have hclosed : peer.closed = (c.peers k).peer.closed := by
    obtain ⟨_, _, _, _, rfl, _⟩ | ⟨_, _, rfl, _⟩ := forwardFrames_cases hturn <;> rfl
  have hset : OwnershipInv (c.setPeer k { c.peers k with
      peer
      dequeued := (c.peers k).dequeued ++ taken
      received := (c.peers k).received ++ taken }) :=
    h.setPeer fun hr hc => ⟨hr, hclosed.symm.trans hc⟩
  apply hset.moveSupervisor
  · simp [Client.setPeer, hs]
  · cases err <;> exact hpoint

theorem OwnershipInv.detach (hok : c.KeepsPeers .detach)
    (hs : c.supervisor = .returned k) (hlive : c.cancelled = false) :
    OwnershipInv { c with link := c.link.map (·.detach k), supervisor := .detached } := by
  have hpoint := h.point
  rw [hs] at hpoint
  have hclosed : (c.peers k).peer.closed = true := by
    have : c.cancelled = false → (c.peers k).peer.closed = true := by
      simpa only [KeepsPeers, hs] using hok
    exact this hlive
  have hk : ∀ j, c.linkPeer = some j → j = k := by
    intro j hj
    rcases hpoint with hp | hp
    · rw [hj] at hp
      cases hp
    · rw [hj] at hp
      exact Option.some.inj hp
  have hnone : (c.link.map (·.detach k)).bind (·.peer) = none := by
    rw [Option.eq_none_iff_forall_ne_some]
    intro j hj
    cases hl : c.link with
    | none => simp [hl] at hj
    | some link =>
      simp only [hl, Option.map_some, Option.bind_some] at hj
      obtain ⟨hpeer, hne⟩ := PeerLink.peer_of_detach hj
      exact hne (hk j (by simp [linkPeer, hl, hpeer]))
  refine h.of_narrower (narrower_refl _) (fun j hc ho => ?_) ?_ hnone
  · rcases ho with (ho | ho | ho) | ho
    · rw [hs] at ho
      cases ho
    · rw [hs] at ho
      cases ho
    · exact .inl (.inr (.inr ho))
    · rw [hk j ho, hclosed] at hc
      cases hc
  · intro link' hl' hsome
    change c.link.map (·.detach k) = some link' at hl'
    rw [hl', Option.bind_some] at hnone
    rw [hnone] at hsome
    cases hsome

theorem OwnershipInv.closeLink {link : PeerLink} (hl : c.link = some link) {closer : Closer}
    (hheld : ∀ k, c.Held k → Held { c with link := some link.close.1, supervisor := sup, closer } k)
    (htaken : ∀ k, link.peer = some k →
      Held { c with link := some link.close.1, supervisor := sup, closer } k)
    (hsup : sup = c.supervisor ∨ sup = .closing link.close.2) :
    OwnershipInv { c with link := some link.close.1, supervisor := sup, closer } := by
  have hnone := (PeerLink.close_eq (h.linkOpen link hl)).1
  refine h.of_narrower (narrower_refl _) (fun k _ ho => .inl ?_) ?_ ?_
  · rcases ho with ho | ho
    · exact hheld k ho
    · exact htaken k (by simpa [linkPeer, hl] using ho)
  · intro link' hl' hsome
    cases hl'
    rw [hnone] at hsome
    cases hsome
  · rcases hsup with rfl | rfl
    · rw [show linkPeer { c with link := some link.close.1, closer } = none from hnone]
      exact pointLinks_none _
    · trivial

theorem OwnershipInv.closeTaken {taken : Option Nat} {closer : Closer}
    (hheld : ∀ k, taken ≠ some k → c.Held k →
      Held { c.closeTaken taken with supervisor := sup, closer } k)
    (hsup : sup = c.supervisor ∨ sup = .stopped) :
    OwnershipInv { c.closeTaken taken with supervisor := sup, closer } := by
  have hsame : (c.closeTaken taken).linkPeer = c.linkPeer ∧
      (c.closeTaken taken).link = c.link := by
    cases taken <;> exact ⟨rfl, rfl⟩
  refine h.of_narrower ?_ (fun k hc ho => ?_) ?_ ?_
  · cases taken with
    | none => exact narrower_refl _
    | some j => exact narrower_update fun _ hc => Bool.noConfusion hc
  · rcases ho with ho | ho
    · refine .inl (hheld k (fun heq => ?_) ho)
      subst heq
      simp [Client.closeTaken, Client.closePeer, Client.setPeer, ClientPeer.close,
        NativePeer.close] at hc
    · exact .inr (hsame.1.trans ho)
  · intro link hl
    exact h.linkOpen link (hsame.2.symm.trans hl)
  · rcases hsup with rfl | rfl
    · exact hsame.1.symm ▸ h.point
    · trivial

theorem OwnershipInv.step {e : Event} (hok : c.KeepsPeers e) (ht : c.step L cfg e = some t) :
    OwnershipInv t := by
  cases moved_of_step ht with
  | message => exact h.setPeer fun hr hc => ⟨hr, NativePeer.open_of_onMessage hc⟩
  | lose => exact h.closePeer _
  | dial hs =>
    have hpoint := h.point
    rw [hs] at hpoint
    exact h.of_narrower (narrower_update fun hr => by simp at hr)
      (fun j _ ho => ho.move (by simp [hs]) rfl rfl) h.linkOpen hpoint
  | publishOffer hs => exact h.dialStep hs (fun hr hc => ⟨hr, hc⟩) (.inr (.inr ⟨_, _, rfl⟩))
  | passed => exact h
  | answered hs | opened hs => exact h.dialStep hs (fun hr hc => ⟨hr, hc⟩) (.inr (.inr ⟨_, _, rfl⟩))
  | verified hs => exact h.dialed hs
  | dialFailed hs => exact h.dialFailed hs _
  | bound hs hsup => exact h.bound hs hsup
  | refused hs hl hattach => exact h.refused hok hs hl hattach
  | reconnected hs hsup =>
    have hpoint := h.point
    rw [hs] at hpoint
    refine h.moveSupervisor (by simp [hs]) ?_
    rcases hsup with rfl | rfl
    · exact hpoint
    · trivial
  | forward hs hturn => exact h.forward hs hturn
  | ended hs => exact h.moveSupervisor (by simp [hs]) trivial
  | detach hs hlive => exact h.detach hok hs hlive
  | giveUp hs => exact h.moveSupervisor (by simp [hs]) trivial
  | @closeLink link hs hl =>
    have htaken := (PeerLink.close_eq (h.linkOpen link hl)).2
    refine h.closeLink hl (fun k ho => ?_) (fun k hk => .inr (.inl ?_)) (.inr rfl)
    · rcases ho with ho | ho | ho
      · rw [hs] at ho
        cases ho
      · rw [hs] at ho
        cases ho
      · exact .inr (.inr ho)
    · rw [htaken, hk]
  | @closeTaken taken hs =>
    refine OwnershipInv.closeTaken h (fun k hne ho => ?_) (.inr rfl)
    rcases ho with ho | ho | ho
    · rw [hs] at ho
      cases ho
    · rw [hs] at ho
      exact absurd (Supervisor.closing.inj ho) hne
    · cases taken <;> exact .inr (.inr ho)
  | cancel hs =>
    refine h.of_narrower (narrower_refl _) (fun k _ ho => ?_) h.linkOpen h.point
    rcases ho with (ho | ho | ho) | ho
    · exact .inl (.inl ho)
    · exact .inl (.inr (.inl ho))
    · rw [hs] at ho
      cases ho
    · exact .inr ho
  | @cancelLink link hs hl =>
    have htaken := (PeerLink.close_eq (h.linkOpen link hl)).2
    refine h.closeLink hl (fun k ho => ?_) (fun k hk => .inr (.inr ?_)) (.inl rfl)
    · rcases ho with ho | ho | ho
      · exact .inl ho
      · exact .inr (.inl ho)
      · rw [hs] at ho
        cases ho
    · rw [htaken, hk]
  | @cancelTaken taken hs =>
    have hsup : (c.closeTaken taken).supervisor = c.supervisor := by cases taken <;> rfl
    refine OwnershipInv.closeTaken h (fun k hne ho => ?_) (.inl hsup)
    rcases ho with ho | ho | ho
    · exact .inl (hsup.trans ho)
    · exact .inr (.inl (hsup.trans ho))
    · rw [hs] at ho
      exact absurd (Closer.closing.inj ho) hne
  | fail => exact h.of_narrower (narrower_refl _) (fun _ _ ho => ho) h.linkOpen h.point
  | send => exact h.setPeer fun hr hc => ⟨hr, hc⟩

end Steps

theorem owned_of_run {es : List Event} (hrun : Run (step L cfg) KeepsPeers {} es t)
    (hreturned : (t.peers k).returned = true) (hopen : (t.peers k).peer.closed = false)
    (hfree : ¬ t.Held k) :
    ∃ link, t.link = some link ∧ link.peer = some k ∧ link.closed = false := by
  have hinv : OwnershipInv t :=
    hrun.invariant (fun hi hok ht => OwnershipInv.step hi hok ht) OwnershipInv.initial
  have hlinked := (hinv.owned k hreturned hopen).resolve_left hfree
  cases hl : t.link with
  | none => simp [linkPeer, hl] at hlinked
  | some link =>
    have hpeer : link.peer = some k := by simpa [linkPeer, hl] using hlinked
    exact ⟨link, rfl, hpeer, hinv.linkOpen link hl (by simp [hpeer])⟩

end Client

def ServerPoint.passed : ServerPoint → Bool
  | .answering | .authenticating _ => false
  | _ => true

def ServerPoint.held : ServerPoint → Bool
  | .accepted | .refused => true
  | _ => false

def ServerPoint.bound : ServerPoint → Bool
  | .rebinding _ | .forwarding _ | .returned _ | .done => true
  | _ => false

namespace Listener
variable {L : Libp2p} {cfg : ListenerConfig L} {l t : Listener}

/-- A running step has the peer in its hands: `activate`, or a callback that took it from a link
to close it. -/
def Held (l : Listener) (i : Nat) : Prop :=
  (l.peers i).point.held = true ∨ ∃ n, (l.closers n).point = .closing (some i)

def Linked (l : Listener) (i : Nat) : Prop := ∃ e, (l.entries e).link.peer = some i

/-- `watch` takes a peer off its link only if the peer is closed. -/
def KeepsPeers (l : Listener) : Event → Prop
  | .watch i =>
    match (l.peers i).point with
    | .returned e => l.streams (l.peers i).offer.sender = some e → (l.entries e).peer = some i →
        (l.peers i).peer.closed = true
    | _ => True
  | _ => True

instance (l : Listener) (ev : Event) : Decidable (l.KeepsPeers ev) := by
  unfold KeepsPeers
  split
  · split <;> infer_instance
  · infer_instance

structure OwnershipInv (l : Listener) : Prop where
  owned : ∀ i, (l.peers i).point.passed = true → (l.peers i).peer.closed = false →
    l.Held i ∨ l.Linked i
  linkOpen : ∀ e, (l.entries e).link.peer.isSome → (l.entries e).link.closed = false
  linkBound : ∀ e i, (l.entries e).link.peer = some i → (l.peers i).point.bound = true
  unique : ∀ e e' i, (l.entries e).link.peer = some i → (l.entries e').link.peer = some i → e = e'
  freshEntry : ∀ e, l.entryCount ≤ e → (l.entries e).link.peer = none
  freshCloser : ∀ n, l.closerCount ≤ n → (l.closers n).point = .done
  mapped : ∀ remote e, l.streams remote = some e → e < l.entryCount

theorem OwnershipInv.initial : OwnershipInv {} :=
  ⟨fun _ h => by simp [ServerPoint.passed] at h, fun _ h => by simp at h, fun _ _ h => by simp at h,
    fun _ _ _ h => by simp at h, fun _ _ => rfl, fun _ _ => rfl, fun _ _ h => by simp at h⟩

section Updates
variable (h : OwnershipInv l)
include h
variable {p : ServerPeer} {entry : ListenerStream} {e : Nat}

theorem OwnershipInv.setPeer {i : Nat}
    (howned : p.point.passed = true → p.peer.closed = false → p.point.held = true ∨
      (l.peers i).point.passed = true ∧ (l.peers i).peer.closed = false ∧
      (l.peers i).point.held = false)
    (hbound : (l.peers i).point.bound = true → p.point.bound = true) :
    OwnershipInv (l.setPeer i p) := by
  have hother : ∀ j, j ≠ i → (l.setPeer i p).peers j = l.peers j :=
    fun j hj => update_of_ne hj _ _
  have hself : (l.setPeer i p).peers i = p := update_self _ _ _
  refine ⟨fun j hpassed hopen => ?_, h.linkOpen, fun e j hj => ?_, h.unique, h.freshEntry,
    h.freshCloser, h.mapped⟩
  · by_cases heq : j = i
    · subst heq
      rw [hself] at hpassed hopen
      rcases howned hpassed hopen with hheld | ⟨hpassed', hopen', hnot⟩
      · exact .inl (.inl (by rw [hself]; exact hheld))
      rcases h.owned j hpassed' hopen' with (hheld | hcloser) | hlinked
      · rw [hnot] at hheld
        cases hheld
      · exact .inl (.inr hcloser)
      · exact .inr hlinked
    · rw [hother j heq] at hpassed hopen
      rcases h.owned j hpassed hopen with (hheld | hcloser) | hlinked
      · exact .inl (.inl (by rw [hother j heq]; exact hheld))
      · exact .inl (.inr hcloser)
      · exact .inr hlinked
  · have hold := h.linkBound e j hj
    by_cases heq : j = i
    · subst heq
      rw [hself]
      exact hbound hold
    · rwa [hother j heq]

theorem OwnershipInv.setNativePeer (i : Nat) (hpoint : p.point = (l.peers i).point)
    (hclosed : p.peer.closed = false → (l.peers i).peer.closed = false) :
    OwnershipInv (l.setPeer i p) := by
  refine h.setPeer (fun hpassed hopen => ?_) (fun hb => hpoint ▸ hb)
  rw [hpoint] at hpassed ⊢
  cases hheld : (l.peers i).point.held with
  | true => exact .inl rfl
  | false => exact .inr ⟨hpassed, hclosed hopen, rfl⟩

theorem OwnershipInv.closePeer (i : Nat) : OwnershipInv (l.closePeer i) :=
  h.setNativePeer i rfl fun hc => Bool.noConfusion hc

theorem OwnershipInv.closeTaken (taken : Option Nat) : OwnershipInv (l.closeTaken taken) := by
  cases taken with
  | none => exact h
  | some i => exact h.closePeer i

theorem OwnershipInv.setEntry
    (hlink : entry.link = (l.entries e).link) : OwnershipInv (l.setEntry e entry) := by
  have hsame : ∀ e', ((l.setEntry e entry).entries e').link = (l.entries e').link := by
    intro e'
    by_cases heq : e' = e
    · subst heq
      simp [Listener.setEntry, hlink]
    · simp [Listener.setEntry, update_of_ne heq]
  refine ⟨fun i hpassed hopen => ?_, ?_, ?_, ?_, ?_, h.freshCloser, h.mapped⟩
  · rcases h.owned i hpassed hopen with hheld | ⟨e', he'⟩
    · exact .inl hheld
    · exact .inr ⟨e', (congrArg PeerLink.peer (hsame e')).trans he'⟩
  · intro e'
    rw [hsame]
    exact h.linkOpen e'
  · intro e' i
    rw [hsame]
    exact h.linkBound e' i
  · intro e' e'' i
    rw [hsame, hsame]
    exact h.unique e' e'' i
  · intro e' he'
    rw [hsame]
    exact h.freshEntry e' he'

theorem OwnershipInv.of_map {t : Listener} (hpeers : t.peers = l.peers)
    (hentries : t.entries = l.entries) (hcount : t.entryCount = l.entryCount)
    (hclosers : t.closers = l.closers) (hcloserCount : t.closerCount = l.closerCount)
    (hstreams : ∀ remote e, t.streams remote = some e → e < t.entryCount) : OwnershipInv t := by
  refine ⟨?_, ?_, ?_, ?_, ?_, ?_, hstreams⟩
  · intro i
    rw [hpeers]
    unfold Held Linked
    rw [hpeers, hentries, hclosers]
    exact h.owned i
  · rw [hentries]
    exact h.linkOpen
  · rw [hentries, hpeers]
    exact h.linkBound
  · rw [hentries]
    exact h.unique
  · rw [hentries, hcount]
    exact h.freshEntry
  · rw [hclosers, hcloserCount]
    exact h.freshCloser

theorem OwnershipInv.setCloser {n count : Nat} {c : ListenerCloser}
    (hold : ∀ i, (l.closers n).point = .closing (some i) → (l.peers i).peer.closed = true)
    (hcount : l.closerCount ≤ count) (hn : n < count) :
    OwnershipInv { l.setCloser n c with closerCount := count } := by
  refine ⟨fun i hpassed hopen => ?_, h.linkOpen, h.linkBound, h.unique, h.freshEntry, ?_, h.mapped⟩
  · rcases h.owned i hpassed hopen with (hheld | ⟨m, hm⟩) | hlinked
    · exact .inl (.inl hheld)
    · by_cases heq : m = n
      · subst heq
        have hclosed := hold i hm
        rw [show (l.setCloser m c).peers = l.peers from rfl, hclosed] at hopen
        cases hopen
      · refine .inl (.inr ⟨m, ?_⟩)
        simpa [Listener.setCloser, update_of_ne heq] using hm
    · exact .inr hlinked
  · intro m hm
    have hle : count ≤ m := hm
    have hne : m ≠ n := by omega
    simpa [Listener.setCloser, update_of_ne hne] using h.freshCloser m (by omega)

theorem OwnershipInv.startCloser (e : Nat) : OwnershipInv (l.startCloser e) :=
  h.setCloser (by simp [h.freshCloser]) (Nat.le_succ _) (Nat.lt_succ_self _)

theorem OwnershipInv.clearLink (hnone : entry.link.peer = none)
    (hpeer : ∀ i, (l.entries e).link.peer = some i → l.Held i ∨ (l.peers i).peer.closed = true) :
    OwnershipInv (l.setEntry e entry) := by
  have hother : ∀ e', e' ≠ e → (l.setEntry e entry).entries e' = l.entries e' :=
    fun e' he' => update_of_ne he' _ _
  have hkept : ∀ e' i, ((l.setEntry e entry).entries e').link.peer = some i →
      (l.entries e').link.peer = some i := by
    intro e' i hi
    by_cases heq : e' = e
    · subst heq
      simp [Listener.setEntry, hnone] at hi
    · rwa [hother e' heq] at hi
  refine ⟨fun i hpassed hopen => ?_, fun e' hsome => ?_, fun e' i hi => h.linkBound e' i (hkept e' i hi),
    fun e' e'' i hi hi' => h.unique e' e'' i (hkept e' i hi) (hkept e'' i hi'), fun e' he' => ?_,
    h.freshCloser, h.mapped⟩
  · rcases h.owned i hpassed hopen with hheld | ⟨e', he'⟩
    · exact .inl hheld
    · by_cases heq : e' = e
      · subst heq
        rcases hpeer i he' with hheld | hclosed
        · exact .inl hheld
        · rw [show (l.setEntry e' entry).peers = l.peers from rfl, hclosed] at hopen
          cases hopen
      · exact .inr ⟨e', by rw [hother e' heq]; exact he'⟩
  · by_cases heq : e' = e
    · subst heq
      simp [Listener.setEntry, hnone] at hsome
    · rw [hother e' heq] at hsome ⊢
      exact h.linkOpen e' hsome
  · by_cases heq : e' = e
    · subst heq
      simp [Listener.setEntry, hnone]
    · rw [hother e' heq]
      exact h.freshEntry e' he'

theorem OwnershipInv.bindPeer {i count : Nat}
    (hheld : (l.peers i).point.held = true) (hp : p.point.bound = true)
    (hempty : (l.entries e).link.peer = none) (hlink : entry.link = { peer := some i })
    (hcount : l.entryCount ≤ count) (he : e < count) :
    OwnershipInv { (l.setPeer i p).setEntry e entry with entryCount := count } := by
  have hfree : ∀ e', (l.entries e').link.peer ≠ some i := by
    intro e' he'
    have hbound := h.linkBound e' i he'
    revert hheld hbound
    cases (l.peers i).point <;> simp [ServerPoint.held, ServerPoint.bound]
  have hpeer : ∀ j, j ≠ i → update l.peers i p j = l.peers j :=
    fun j hj => update_of_ne hj _ _
  have hentry : ∀ e', e' ≠ e → update l.entries e entry e' = l.entries e' :=
    fun e' he' => update_of_ne he' _ _
  have hlinks : ∀ e' j, (update l.entries e entry e').link.peer = some j ↔
      e' = e ∧ i = j ∨ (l.entries e').link.peer = some j := by
    intro e' j
    by_cases heq : e' = e
    · simp [heq, hlink, hempty]
    · simp [heq]
  simp only [Listener.setPeer, Listener.setEntry]
  refine ⟨fun j hpassed hopen => ?_, fun e' hsome => ?_, fun e' j hj => ?_, fun e' e'' j hj hj' => ?_,
    fun e' he' => ?_, h.freshCloser, fun remote e' he' => Nat.lt_of_lt_of_le (h.mapped _ _ he') hcount⟩
  · by_cases heq : j = i
    · exact .inr ⟨e, (hlinks e j).mpr (.inl ⟨rfl, heq.symm⟩)⟩
    · dsimp only at hpassed hopen
      rw [hpeer j heq] at hpassed hopen
      rcases h.owned j hpassed hopen with (hheld' | hcloser) | ⟨e', he'⟩
      · exact .inl (.inl (by dsimp only; rw [hpeer j heq]; exact hheld'))
      · exact .inl (.inr hcloser)
      · exact .inr ⟨e', (hlinks e' j).mpr (.inr he')⟩
  · by_cases heq : e' = e
    · subst heq
      simp [hlink]
    · dsimp only at hsome ⊢
      rw [hentry e' heq] at hsome ⊢
      exact h.linkOpen e' hsome
  · rcases (hlinks e' j).mp hj with ⟨-, rfl⟩ | hold
    · simpa using hp
    · dsimp only
      rw [hpeer j (by rintro rfl; exact hfree e' hold)]
      exact h.linkBound e' j hold
  · rcases (hlinks e' j).mp hj with ⟨rfl, rfl⟩ | hold <;>
      rcases (hlinks e'' _).mp hj' with ⟨heq, hi⟩ | hold'
    · exact heq.symm
    · exact absurd hold' (hfree e'')
    · exact absurd (hi ▸ hold) (hfree e')
    · exact h.unique e' e'' j hold hold'
  · have hle : count ≤ e' := he'
    dsimp only
    rw [hentry e' (by omega)]
    exact h.freshEntry e' (by omega)

theorem OwnershipInv.delete (e : Nat) : OwnershipInv (l.delete e) := by
  refine h.of_map rfl rfl rfl rfl rfl fun remote e' he' => ?_
  by_cases heq : remote = (l.entries e).remote
  · subst heq
    simp [Listener.delete] at he'
  · simp only [Listener.delete, update_of_ne heq] at he'
    exact h.mapped remote e' he'

theorem OwnershipInv.terminate (e : Nat) (err : String) : OwnershipInv (l.terminate e err) := by
  obtain ⟨hnone, htaken⟩ := PeerLink.close_eq (h.linkOpen e)
  have hclosed : OwnershipInv ((l.closeTaken (l.entries e).link.close.2).setEntry e
      { l.entries e with
        stream := (l.entries e).stream.fail (some err)
        link := (l.entries e).link.close.1 }) := by
    refine (h.closeTaken _).clearLink hnone fun i hi => .inr ?_
    rw [closeTaken_entries] at hi
    rw [htaken, hi]
    simp [Listener.closeTaken, Listener.closePeer, Listener.setPeer, ServerPeer.close,
      NativePeer.close]
  unfold Listener.terminate
  rw [setEntry_closeTaken]
  exact hclosed.delete e

end Updates

section Steps
variable (h : OwnershipInv l)
include h
variable {i : Nat}

theorem OwnershipInv.offer (value : Signal)
    (hfresh : (l.peers l.peerCount).point = .answering) : OwnershipInv (l.offer value) := by
  have hset : OwnershipInv (l.setPeer l.peerCount { offer := value }) := by
    refine h.setPeer (fun hpassed => ?_) fun hbound => ?_
    · simp [ServerPoint.passed] at hpassed
    · rw [hfresh] at hbound
      cases hbound
  exact hset.of_map rfl rfl rfl rfl rfl hset.mapped

theorem OwnershipInv.handshakeFailed (i : Nat) (p : ServerPeer) :
    OwnershipInv (l.handshakeFailed i p) :=
  h.setPeer (fun _ hopen => Bool.noConfusion hopen) fun _ => rfl

theorem OwnershipInv.handshake {p : ServerPeer} (hi : (l.peers i).point.passed = false)
    (hp : p.point.passed = false ∨ p.point = .accepted) : OwnershipInv (l.setPeer i p) := by
  refine h.setPeer (fun hpassed _ => ?_) (fun hbound => ?_)
  · rcases hp with hp | hp
    · rw [hp] at hpassed
      cases hpassed
    · exact .inl (by rw [hp]; rfl)
  · revert hi hbound
    cases (l.peers i).point <;> simp [ServerPoint.passed, ServerPoint.bound]

theorem OwnershipInv.created (hp : (l.peers i).point = .accepted) :
    OwnershipInv
      { (l.setPeer i { l.peers i with point := .forwarding l.entryCount }).setEntry l.entryCount
          { remote := (l.peers i).offer.sender, link := { peer := some i }, peer := some i } with
        streams := update l.streams (l.peers i).offer.sender (some l.entryCount)
        entryCount := l.entryCount + 1
        opened := l.opened ++ [l.entryCount] } := by
  have hheld : (l.peers i).point.held = true := by rw [hp]; rfl
  have hbound : OwnershipInv
      { (l.setPeer i { l.peers i with point := .forwarding l.entryCount }).setEntry l.entryCount
          { remote := (l.peers i).offer.sender, link := { peer := some i }, peer := some i } with
        entryCount := l.entryCount + 1 } :=
    h.bindPeer hheld rfl (h.freshEntry _ (Nat.le_refl _)) rfl (Nat.le_succ _)
      (Nat.lt_succ_self _)
  refine hbound.of_map rfl rfl rfl rfl rfl fun remote e he => ?_
  by_cases heq : remote = (l.peers i).offer.sender
  · subst heq
    simp only [update_self, Option.some.injEq] at he
    subst he
    exact Nat.lt_succ_self _
  · simp only [update_of_ne heq] at he
    exact Nat.lt_succ_of_lt (h.mapped remote e he)

theorem OwnershipInv.movePoint {p : ServerPeer}
    (hold : (l.peers i).point.passed = true ∧ (l.peers i).point.held = false)
    (hp : p.point.bound = true) (hclosed : p.peer.closed = (l.peers i).peer.closed) :
    OwnershipInv (l.setPeer i p) :=
  h.setPeer (fun _ hopen => .inr ⟨hold.1, hclosed ▸ hopen, hold.2⟩) fun _ => hp

theorem OwnershipInv.detached {e : Nat} (hp : (l.peers i).point = .returned e)
    (hclosed : (l.peers i).peer.closed = true) {entry : ListenerStream}
    (hlink : entry.link = (l.entries e).link.detach i) :
    OwnershipInv ((l.setPeer i { l.peers i with point := .done }).setEntry e entry) := by
  have hmoved : OwnershipInv (l.setPeer i { l.peers i with point := .done }) :=
    h.movePoint (by rw [hp]; exact ⟨rfl, rfl⟩) rfl rfl
  by_cases hpeer : (l.entries e).link.peer = some i
  · refine hmoved.clearLink (by simp [hlink, PeerLink.detach, hpeer]) fun j hj => .inr ?_
    have heq : i = j := Option.some.inj (hpeer.symm.trans hj)
    subst heq
    simpa [Listener.setPeer] using hclosed
  · exact hmoved.setEntry (by simp [hlink, PeerLink.detach, hpeer, Listener.setPeer])

theorem OwnershipInv.closer_lt {n : Nat} (hne : (l.closers n).point ≠ .done) :
    n < l.closerCount := by
  by_contra hge
  exact hne (h.freshCloser n (Nat.not_lt.mp hge))

theorem OwnershipInv.linkClosed {n : Nat} (hp : (l.closers n).point = .unlinked) :
    OwnershipInv ((l.setEntry (l.closers n).entry
      { l.entries (l.closers n).entry with
        link := (l.entries (l.closers n).entry).link.close.1 }).setCloser n
          ⟨(l.closers n).entry, .closing (l.entries (l.closers n).entry).link.close.2⟩) := by
  obtain ⟨hnone, htaken⟩ := PeerLink.close_eq (h.linkOpen (l.closers n).entry)
  -- the callback takes the peer before the link lets go of it
  have hmoved : OwnershipInv (l.setCloser n ⟨(l.closers n).entry,
      .closing (l.entries (l.closers n).entry).link.close.2⟩) :=
    h.setCloser (by simp [hp]) (Nat.le_refl _) (h.closer_lt (by simp [hp]))
  have hcleared : OwnershipInv ((l.setCloser n ⟨(l.closers n).entry,
      .closing (l.entries (l.closers n).entry).link.close.2⟩).setEntry (l.closers n).entry
        { l.entries (l.closers n).entry with
          link := (l.entries (l.closers n).entry).link.close.1 }) := by
    refine hmoved.clearLink hnone fun i hi => .inl (.inr ⟨n, ?_⟩)
    have hi' : (l.entries (l.closers n).entry).link.peer = some i := hi
    simp [Listener.setCloser, htaken, hi']
  exact hcleared

theorem OwnershipInv.step {ev : Event} (hhandshake : HandshakeInv L cfg l)
    (hok : l.KeepsPeers ev) (ht : l.step L cfg ev = some t) : OwnershipInv t := by
  cases stepped_of_step ht with
  | message => exact h.setNativePeer _ rfl NativePeer.open_of_onMessage
  | lose => exact h.closePeer _
  | offer => exact h.offer _ (hhandshake.fresh _ (Nat.le_refl _))
  | answer hp | responded hp => exact h.handshake (by rw [hp]; rfl) (.inl rfl)
  | accepted hp => exact h.handshake (by rw [hp]; rfl) (.inr rfl)
  | denied | abandoned => exact h.handshakeFailed _ _
  | observed _ hclosed =>
    refine h.setPeer (fun _ hopen => ?_) fun _ => rfl
    dsimp only at hopen
    rw [hclosed] at hopen
    cases hopen
  | refused hp =>
    refine h.setPeer (fun _ _ => .inl rfl) fun hbound => ?_
    rw [hp] at hbound
    cases hbound
  | created hp => exact h.created hp
  | attached hp hstream _ hempty =>
    exact h.bindPeer (by rw [hp]; rfl) rfl hempty rfl (Nat.le_refl _) (h.mapped _ _ hstream)
  | closedRefused => exact h.setPeer (fun _ hopen => Bool.noConfusion hopen) fun _ => rfl
  | rebound hp =>
    refine OwnershipInv.setEntry (h.movePoint (by rw [hp]; exact ⟨rfl, rfl⟩) ?_ ?_) rfl
    all_goals rfl
  | reset hp =>
    refine OwnershipInv.startCloser (.setEntry (h.movePoint (by rw [hp]; exact ⟨rfl, rfl⟩) ?_ ?_) ?_) _
    all_goals rfl
  | @forwarded i e _ peer _ _ err hp hturn =>
    have hclosed : peer.closed = (l.peers i).peer.closed := by
      obtain ⟨_, _, _, _, rfl, _⟩ | ⟨_, _, rfl, _⟩ := forwardFrames_cases hturn <;> rfl
    refine OwnershipInv.setEntry (h.movePoint (by rw [hp]; exact ⟨rfl, rfl⟩) ?_ hclosed) rfl
    cases err <;> rfl
  | finished hp => exact h.movePoint (by rw [hp]; exact ⟨rfl, rfl⟩) rfl rfl
  | detached hp hstream hpeer =>
    simp only [KeepsPeers, hp] at hok
    exact h.detached hp (hok hstream hpeer) rfl
  | lapsed | failed => exact h.setEntry rfl
  | expired =>
    refine OwnershipInv.terminate (h.setEntry ?_) _ _
    rfl
  | closing => exact h.startCloser _
  | @unlinked n hp =>
    have hmoved : OwnershipInv (l.setCloser n ⟨(l.closers n).entry, .unlinked⟩) :=
      h.setCloser (by simp [hp]) (Nat.le_refl _) (h.closer_lt (by simp [hp]))
    split
    · exact hmoved.delete _
    · exact hmoved
  | linkClosed hp => exact h.linkClosed hp
  | @peerClosed n taken hp =>
    refine (h.closeTaken taken).setCloser (fun i hi => ?_) (Nat.le_refl _) ?_
    · rw [closeTaken_closers, hp] at hi
      cases hi
      simp [Listener.closeTaken, Listener.closePeer, Listener.setPeer, ServerPeer.close,
        NativePeer.close]
    · exact (h.closeTaken taken).closer_lt (by simp [hp])
  | sent => exact h.setNativePeer _ rfl id
  | shutdown =>
    have hclosed : OwnershipInv { l with closed := true } :=
      h.of_map rfl rfl rfl rfl rfl h.mapped
    exact terminateAll_invariant (fun h _ => h.terminate _ _) _ hclosed

end Steps

theorem owned_of_run {es : List Event} (hrun : Run (step L cfg) KeepsPeers {} es t) {i : Nat}
    (hpassed : (t.peers i).point.passed = true) (hopen : (t.peers i).peer.closed = false)
    (hfree : ¬ t.Held i) :
    ∃! e, (t.entries e).link.peer = some i ∧ (t.entries e).link.closed = false := by
  have hinv : HandshakeInv L cfg t ∧ OwnershipInv t :=
    hrun.invariant (I := fun l => HandshakeInv L cfg l ∧ OwnershipInv l)
      (fun hi hok ht => ⟨hi.1.step ht, hi.2.step hi.1 hok ht⟩)
      ⟨HandshakeInv.initial, OwnershipInv.initial⟩
  obtain ⟨e, he⟩ := (hinv.2.owned i hpassed hopen).resolve_left hfree
  refine ⟨e, ⟨he, hinv.2.linkOpen e (by simp [he])⟩, fun e' he' => ?_⟩
  exact hinv.2.unique e' e i he'.1 he

end Listener

/-- In every run in which links let go of closed peers only and a dialled peer finds its link
open, an authenticated peer with an open connection that no running step holds is the current
peer of exactly one open link. -/
theorem open_peer_is_linked (L : Libp2p) (clientCfg : ClientConfig)
    (listenerCfg : ListenerConfig L) :
    (∀ es c, Run (Client.step L clientCfg) Client.KeepsPeers {} es c → ∀ k,
      (c.peers k).returned = true → (c.peers k).peer.closed = false → ¬ c.Held k →
      ∃ link, c.link = some link ∧ link.peer = some k ∧ link.closed = false) ∧
    (∀ es l, Run (Listener.step L listenerCfg) Listener.KeepsPeers {} es l → ∀ i,
      (l.peers i).point.passed = true → (l.peers i).peer.closed = false → ¬ l.Held i →
      ∃! e, (l.entries e).link.peer = some i ∧ (l.entries e).link.closed = false) :=
  ⟨fun _ _ hrun _ hr ho hf => Client.owned_of_run hrun hr ho hf,
    fun _ _ hrun _ hp ho hf => Listener.owned_of_run hrun hp ho hf⟩

section Example

def strayFrame : Bytes := encodeFrame 9 []

theorem open_peer_is_linked_example :
    (∃ es c, Run (Client.step trustingLibp2p exampleClient) Client.KeepsPeers {} es c ∧
      (c.peers 1).returned = true ∧ (c.peers 1).peer.closed = false ∧ c.supervisor = .forwarding 1 ∧
      ∃ link, c.link = some link ∧ link.peer = some 1 ∧ link.closed = false) ∧
    (∃ es l, Run (Listener.step trustingLibp2p exampleListener) Listener.KeepsPeers {} es l ∧
      (l.peers 1).point = .forwarding 0 ∧ (l.peers 1).peer.closed = false ∧
      ∃! e, (l.entries e).link.peer = some 1 ∧ (l.entries e).link.closed = false) := by
  obtain ⟨hclient, hlistener⟩ := open_peer_is_linked trustingLibp2p exampleClient exampleListener
  have hrun := run_exec (Client.step trustingLibp2p exampleClient) Client.KeepsPeers {}
    (clientHandshake 0 ++ [.bind, .lose 0, .forward .closed, .detach] ++ clientHandshake 1 ++
      [.bind, .reconnected none]) (by decide)
  have hrun' := run_exec (Listener.step trustingLibp2p exampleListener) Listener.KeepsPeers {}
    (listenerHandshake 0 ++ [.activate 0 false, .lose 0, .forward 0 .closed, .watch 0] ++
      listenerHandshake 1 ++ [.activate 1 true, .reconnected 1 none]) (by decide)
  refine ⟨⟨_, _, hrun, by decide, by decide, by decide, hclient _ _ hrun 1 (by decide) (by decide) ?_⟩,
    ⟨_, _, hrun', by decide, by decide, hlistener _ _ hrun' 1 (by decide) (by decide) ?_⟩⟩
  · rintro (h | h | h) <;> revert h <;> decide
  · rintro (h | ⟨n, h⟩)
    · revert h
      decide
    · cases h

/-- A frame that `Receive` refuses makes both ends take an open peer off its link and forget it;
a link that is closed during a redial makes the client forget the peer it has just dialled. -/
theorem open_peer_left_behind :
    (∃ es c, Run (Client.step trustingLibp2p exampleClient) Any {} es c ∧
      (c.peers 0).returned = true ∧ (c.peers 0).peer.closed = false ∧ ¬ c.Held 0 ∧
      c.link = some { peer := none }) ∧
    (∃ es c, Run (Client.step trustingLibp2p exampleClient) Any {} es c ∧
      (c.peers 1).returned = true ∧ (c.peers 1).peer.closed = false ∧ ¬ c.Held 1 ∧
      c.link = some { peer := none, closed := true }) ∧
    (∃ es l, Run (Listener.step trustingLibp2p exampleListener) Any {} es l ∧
      (l.peers 0).received ≠ [] ∧ (l.peers 0).point.passed = true ∧
      (l.peers 0).peer.closed = false ∧ ¬ l.Held 0 ∧ ¬ l.Linked 0) := by
  refine ⟨⟨_, _, run_exec (Client.step trustingLibp2p exampleClient) Any {} (clientHandshake 0 ++
      [.bind, .message 0 strayFrame false, .forward .frame, .detach]) (by decide),
      by decide, by decide, ?_, by decide⟩,
    ⟨_, _, run_exec (Client.step trustingLibp2p exampleClient) Any {} (clientHandshake 0 ++
      [.bind, .lose 0, .forward .closed, .detach] ++ clientHandshake 1 ++
      [.cancel, .cancelLink, .cancelTaken, .bind, .closeLink, .closeTaken]) (by decide),
      by decide, by decide, ?_, by decide⟩,
    ⟨_, _, run_exec (Listener.step trustingLibp2p exampleListener) Any {} (listenerHandshake 0 ++
      [.activate 0 false, .message 0 strayFrame false, .forward 0 .frame, .watch 0]) (by decide),
      by decide, by decide, by decide, ?_, ?_⟩⟩
  · rintro (h | h | h) <;> revert h <;> decide
  · rintro (h | h | h) <;> revert h <;> decide
  · rintro (h | ⟨n, h⟩)
    · revert h
      decide
    · cases h
  · rintro ⟨e, h⟩
    cases e <;> cases h

end Example

end P2PNetcat.NativeWebRTC
