import P2PNetcat.NativeWebRTC.Authentication
import P2PNetcat.NativeWebRTC.ClientHandshake
import P2PNetcat.NativeWebRTC.Listener

/-!
# The listener forwards frames of peers that finished the handshake only

What each program counter says about the history of its peer, kept by every
step of the listener, and with the client's side the statement for both ends.
-/

namespace P2PNetcat.NativeWebRTC
open Function ByteCodec StepSystem

section Accepted
variable (L : Libp2p) (cfg : ListenerConfig L)

def IsAnswer (transcript : AuthTranscript) (challenge response : Frame) : Prop :=
  challenge.type = frameAuthChallenge ∧ challenge.payload.length = 32 ∧
  response.type = frameAuthResponse ∧
  signAuthResponseV2 L (some cfg.privateKey) cfg.service challenge.payload transcript =
    .ok response.payload

namespace ServerPeer

/-- At least one challenge was taken from the peer and answered on it, and then `AuthReady` was
taken; the frames passed on are those taken after. -/
def Accepted (p : ServerPeer) : Prop :=
  ∃ challenges responses ready later, challenges ≠ [] ∧
    List.Forall₂ (IsAnswer L cfg p.transcript) challenges responses ∧
    ready.type = frameAuthReady ∧
    p.dequeued = challenges ++ ready :: p.received ∧ p.sent = responses ++ later

def HoldsAt (p : ServerPeer) : ServerPoint → Prop
  | .answering => p.dequeued = [] ∧ p.received = [] ∧ p.sent = []
  | .authenticating challengeAnswered => p.received = [] ∧
      List.Forall₂ (IsAnswer L cfg p.transcript) p.dequeued p.sent ∧
      (challengeAnswered = true → p.dequeued ≠ [])
  | .done => p.Accepted L cfg ∨ p.peer.closed = true ∧ p.received = []
  | _ => p.Accepted L cfg

def Holds (p : ServerPeer) : Prop := p.HoldsAt L cfg p.point

end ServerPeer

structure Listener.HandshakeInv (l : Listener) : Prop where
  fresh : ∀ i, l.peerCount ≤ i → (l.peers i).point = .answering
  peers : ∀ i, (l.peers i).Holds L cfg
  linked : ∀ e i, (l.entries e).link.peer = some i → (l.peers i).Accepted L cfg

end Accepted

variable {L : Libp2p} {cfg : ListenerConfig L}

theorem IsAnswer.of_sign {transcript : AuthTranscript} {challenge : Frame} {response : Bytes}
    (htype : challenge.type = frameAuthChallenge)
    (h : signAuthResponseV2 L (some cfg.privateKey) cfg.service challenge.payload transcript =
      .ok response) : IsAnswer L cfg transcript challenge ⟨frameAuthResponse, response⟩ := by
  obtain ⟨_, _, _, _, _, hpayload, _⟩ := signResponse_ok h
  exact ⟨htype, (authPayloadV2_ok hpayload).1, rfl, h⟩

theorem challenges_of_answers {transcript : AuthTranscript} {challenges responses : List Frame}
    (h : List.Forall₂ (IsAnswer L cfg transcript) challenges responses) :
    ∀ frame ∈ challenges, frame.type = frameAuthChallenge := by
  induction h with
  | nil => simp
  | cons hanswer _ ih => simpa using ⟨hanswer.1, ih⟩

namespace ServerPeer
variable {p : ServerPeer}

theorem Accepted.dequeued_ne (h : p.Accepted L cfg) : p.dequeued ≠ [] := by
  obtain ⟨challenges, _, ready, _, _, _, _, hdequeued, _⟩ := h
  simp [hdequeued]

theorem Accepted.send (h : p.Accepted L cfg) (frame : Frame) :
    Accepted L cfg { p with sent := p.sent ++ [frame] } := by
  obtain ⟨challenges, responses, ready, later, hne, hanswers, hready, hdequeued, hsent⟩ := h
  exact ⟨challenges, responses, ready, later ++ [frame], hne, hanswers, hready, hdequeued,
    by simp [hsent]⟩

theorem Accepted.receive (h : p.Accepted L cfg) (peer : NativePeer) (taken : List Frame)
    (point : ServerPoint) :
    Accepted L cfg { p with
      peer, point, dequeued := p.dequeued ++ taken, received := p.received ++ taken } := by
  obtain ⟨challenges, responses, ready, later, hne, hanswers, hready, hdequeued, hsent⟩ := h
  exact ⟨challenges, responses, ready, later, hne, hanswers, hready, by simp [hdequeued], hsent⟩

theorem Holds.of_peer (h : p.Holds L cfg) {peer : NativePeer}
    (hclosed : p.peer.closed = true → peer.closed = true) :
    Holds L cfg { p with peer } := by
  unfold Holds at h ⊢
  dsimp only at h ⊢
  cases hp : p.point with
  | done =>
    rw [hp] at h
    exact h.imp id fun hc => ⟨hclosed hc.1, hc.2⟩
  | answering | authenticating answered | accepted | refused | rebinding e | forwarding e
  | returned e => rwa [hp] at h

theorem not_accepted_of_answers
    (h : List.Forall₂ (IsAnswer L cfg p.transcript) p.dequeued p.sent) :
    ¬ p.Accepted L cfg := by
  rintro ⟨challenges, _, ready, _, _, _, hready, hdequeued, _⟩
  have htype := challenges_of_answers h ready (by simp [hdequeued])
  rw [hready] at htype
  exact absurd htype (by decide)

variable (h : p.Holds L cfg)
include h

theorem Holds.not_accepted (hp : p.point = .answering) :
    ¬ p.Accepted L cfg := by
  unfold Holds at h
  rw [hp] at h
  exact fun ha => ha.dequeued_ne h.1

theorem Holds.accepted (hp : p.point.afterHandshake = true) :
    p.Accepted L cfg := by
  unfold Holds at h
  cases hpoint : p.point with
  | answering | authenticating answered | done => simp [hpoint, ServerPoint.afterHandshake] at hp
  | accepted | refused | rebinding e | forwarding e | returned e => rwa [hpoint] at h

/-- The shapes of a peer's history: a handshake in progress, a closed peer, an accepted one. -/
theorem Holds.cases :
    p.received = [] ∧ List.Forall₂ (IsAnswer L cfg p.transcript) p.dequeued p.sent ∨
    p.received = [] ∧ p.peer.closed = true ∨ p.Accepted L cfg := by
  by_cases hafter : p.point.afterHandshake = true
  · exact .inr (.inr (h.accepted hafter))
  unfold Holds at h
  cases hpoint : p.point with
  | answering =>
    rw [hpoint] at h
    obtain ⟨hdequeued, hreceived, hsent⟩ := h
    exact .inl ⟨hreceived, by rw [hdequeued, hsent]; exact .nil⟩
  | authenticating answered =>
    rw [hpoint] at h
    exact .inl ⟨h.1, h.2.1⟩
  | done =>
    rw [hpoint] at h
    rcases h with ha | hc
    · exact .inr (.inr ha)
    · exact .inr (.inl ⟨hc.2, hc.1⟩)
  | accepted | refused | rebinding e | forwarding e
  | returned e => simp [hpoint, ServerPoint.afterHandshake] at hafter

theorem Holds.send (ha : p.Accepted L cfg) (frame : Frame) :
    Holds L cfg { p with sent := p.sent ++ [frame] } := by
  have hsent := ha.send frame
  unfold Holds at h ⊢
  dsimp only
  cases hpoint : p.point with
  | answering =>
    rw [hpoint] at h
    exact absurd h.1 ha.dequeued_ne
  | authenticating answered =>
    rw [hpoint] at h
    exact absurd ha (not_accepted_of_answers h.2.1)
  | done => exact .inl hsent
  | accepted | refused | rebinding e | forwarding e | returned e => exact hsent

end ServerPeer

namespace Listener
variable {l t : Listener}

theorem HandshakeInv.initial : HandshakeInv L cfg {} :=
  ⟨fun _ _ => rfl, fun _ => ⟨rfl, rfl, rfl⟩, fun _ _ h => by simp at h⟩

section Updates
variable (h : HandshakeInv L cfg l)
include h
variable {entry : ListenerStream} {i e : Nat}

theorem HandshakeInv.setPeer {p : ServerPeer}
    (hfresh : i < l.peerCount ∨ p.point = .answering) (hp : p.Holds L cfg)
    (haccepted : (l.peers i).Accepted L cfg → p.Accepted L cfg) :
    HandshakeInv L cfg (l.setPeer i p) := by
  have hother : ∀ j, j ≠ i → (l.setPeer i p).peers j = l.peers j :=
    fun j hj => update_of_ne hj _ _
  have hself : (l.setPeer i p).peers i = p := update_self _ _ _
  refine ⟨fun j hj => ?_, fun j => ?_, fun e j hj => ?_⟩
  · by_cases heq : j = i
    · subst heq
      rw [hself]
      rcases hfresh with hlt | hpoint
      · exact absurd hlt (Nat.not_lt.mpr hj)
      · exact hpoint
    · rw [hother j heq]
      exact h.fresh j hj
  · by_cases heq : j = i
    · subst heq
      rwa [hself]
    · rw [hother j heq]
      exact h.peers j
  · by_cases heq : j = i
    · subst heq
      rw [hself]
      exact haccepted (h.linked e j hj)
    · rw [hother j heq]
      exact h.linked e j hj

theorem HandshakeInv.setEntry (hlink : ∀ i, entry.link.peer = some i → (l.peers i).Accepted L cfg) :
    HandshakeInv L cfg (l.setEntry e entry) := by
  refine ⟨h.fresh, h.peers, fun e' i hi => ?_⟩
  by_cases heq : e' = e
  · subst heq
    simp only [Listener.setEntry, update_self] at hi
    exact hlink i hi
  · simp only [Listener.setEntry, update_of_ne heq] at hi
    exact h.linked e' i hi

theorem HandshakeInv.of_map {t : Listener} (hpeers : t.peers = l.peers)
    (hcount : t.peerCount = l.peerCount) (hentries : t.entries = l.entries) :
    HandshakeInv L cfg t := by
  refine ⟨?_, ?_, ?_⟩
  · rw [hpeers, hcount]
    exact h.fresh
  · rw [hpeers]
    exact h.peers
  · rw [hpeers, hentries]
    exact h.linked

theorem HandshakeInv.lt_of_point (hi : (l.peers i).point ≠ .answering) :
    i < l.peerCount := by
  by_contra hge
  exact hi (h.fresh i (Nat.not_lt.mp hge))

theorem HandshakeInv.setNativePeer (i : Nat) {peer : NativePeer}
    (hclosed : (l.peers i).peer.closed = true → peer.closed = true) :
    HandshakeInv L cfg (l.setPeer i { l.peers i with peer }) := by
  refine h.setPeer ?_ ((h.peers i).of_peer hclosed) id
  by_cases hi : (l.peers i).point = .answering
  · exact .inr hi
  · exact .inl (h.lt_of_point hi)

theorem HandshakeInv.closePeer (i : Nat) : HandshakeInv L cfg (l.closePeer i) :=
  h.setNativePeer i fun _ => rfl

theorem HandshakeInv.closeTaken (taken : Option Nat) :
    HandshakeInv L cfg (l.closeTaken taken) := by
  cases taken with
  | none => exact h
  | some i => exact h.closePeer i

theorem HandshakeInv.movePoint {point : ServerPoint} (hi : (l.peers i).Accepted L cfg)
    (hpoint : ServerPeer.Holds L cfg { l.peers i with point }) :
    HandshakeInv L cfg (l.setPeer i { l.peers i with point }) := by
  refine h.setPeer (.inl (h.lt_of_point ?_)) hpoint id
  intro hanswering
  exact (h.peers i).not_accepted hanswering hi

theorem HandshakeInv.bindPeer {point : ServerPoint} (hi : (l.peers i).Accepted L cfg)
    (hpoint : ServerPeer.Holds L cfg { l.peers i with point })
    (hlink : entry.link.peer = some i) :
    HandshakeInv L cfg ((l.setPeer i { l.peers i with point }).setEntry e entry) := by
  refine (h.movePoint hi hpoint).setEntry fun j hj => ?_
  rw [hlink] at hj
  cases hj
  simp only [Listener.setPeer, update_self]
  exact hi

theorem HandshakeInv.handshakeFailed {p : ServerPeer} (hi : i < l.peerCount)
    (hreceived : p.received = []) (hnot : ¬ (l.peers i).Accepted L cfg) :
    HandshakeInv L cfg (l.handshakeFailed i p) :=
  h.setPeer (.inl hi) (.inr ⟨rfl, hreceived⟩) fun ha => absurd ha hnot

theorem HandshakeInv.delete (e : Nat) : HandshakeInv L cfg (l.delete e) := h.of_map rfl rfl rfl

theorem HandshakeInv.narrowLink
    (hlink : ∀ i, entry.link.peer = some i → (l.entries e).link.peer = some i) :
    HandshakeInv L cfg (l.setEntry e entry) :=
  h.setEntry fun i hi => h.linked e i (hlink i hi)

theorem HandshakeInv.terminate (e : Nat) (err : String) :
    HandshakeInv L cfg (l.terminate e err) :=
  ((h.narrowLink fun _ hi => PeerLink.peer_of_close hi).closeTaken _).delete e

end Updates

section Steps
variable (h : HandshakeInv L cfg l)
include h
variable {i : Nat}

theorem HandshakeInv.authenticating {answered : Bool}
    (hp : (l.peers i).point = .authenticating answered) :
    i < l.peerCount ∧ (l.peers i).received = [] ∧
      List.Forall₂ (IsAnswer L cfg (l.peers i).transcript) (l.peers i).dequeued (l.peers i).sent ∧
      (answered = true → (l.peers i).dequeued ≠ []) := by
  have hold := h.peers i
  unfold ServerPeer.Holds at hold
  rw [hp] at hold
  exact ⟨h.lt_of_point (by simp [hp]), hold⟩

theorem HandshakeInv.offer (value : Signal) : HandshakeInv L cfg (l.offer value) := by
  have hset : HandshakeInv L cfg (l.setPeer l.peerCount { offer := value }) := by
    refine h.setPeer (.inr rfl) ⟨rfl, rfl, rfl⟩ fun ha => absurd ha ?_
    exact (h.peers _).not_accepted (h.fresh _ (Nat.le_refl _))
  exact ⟨fun i hi => hset.fresh i (Nat.le_of_succ_le hi), hset.peers, hset.linked⟩

theorem HandshakeInv.step {ev : Event} (ht : l.step L cfg ev = some t) : HandshakeInv L cfg t := by
  have haccepted : ∀ i, (l.peers i).point.afterHandshake = true → (l.peers i).Accepted L cfg :=
    fun i hp => (h.peers i).accepted hp
  cases stepped_of_step ht with
  | message => exact h.setNativePeer _ (NativePeer.onMessage_spec _ _ _).2
  | lose => exact h.closePeer _
  | offer => exact h.offer _
  | @answer i _ hp hi =>
    have hold := h.peers i
    unfold ServerPeer.Holds at hold
    rw [hp] at hold
    obtain ⟨hdequeued, hreceived, hsent⟩ := hold
    refine h.setPeer (.inl hi) ⟨hreceived, ?_, fun hc => ?_⟩
      fun ha => absurd ha ((h.peers i).not_accepted hp)
    · simp only [hdequeued, hsent]
      exact .nil
    · cases hc
  | responded hp hframes htype hsign =>
    obtain ⟨hi, hreceived, hanswers, -⟩ := h.authenticating hp
    refine h.setPeer (.inl hi) ⟨hreceived, ?_, fun _ => by simp [taking]⟩
      fun ha => absurd ha (ServerPeer.not_accepted_of_answers hanswers)
    exact List.rel_append hanswers (.cons (IsAnswer.of_sign htype hsign) .nil)
  | accepted hp hframes htype =>
    obtain ⟨hi, hreceived, hanswers, hne⟩ := h.authenticating hp
    refine h.setPeer (.inl hi) ?_ fun ha => absurd ha (ServerPeer.not_accepted_of_answers hanswers)
    exact ⟨_, _, _, [], hne rfl, hanswers, htype, by simp [taking, hreceived], by simp [taking]⟩
  | denied hp hframes =>
    obtain ⟨hi, hreceived, hanswers, -⟩ := h.authenticating hp
    exact h.handshakeFailed hi hreceived (ServerPeer.not_accepted_of_answers hanswers)
  | @abandoned i hp =>
    rcases hp with ⟨hp, hi⟩ | ⟨answered, hp⟩
    · have hold := h.peers i
      unfold ServerPeer.Holds at hold
      rw [hp] at hold
      exact h.handshakeFailed hi hold.2.1 ((h.peers i).not_accepted hp)
    · obtain ⟨hi, hreceived, hanswers, -⟩ := h.authenticating hp
      exact h.handshakeFailed hi hreceived (ServerPeer.not_accepted_of_answers hanswers)
  | observed hp hclosed =>
    obtain ⟨hi, hreceived, -⟩ := h.authenticating hp
    exact h.setPeer (.inl hi) (.inr ⟨hclosed, hreceived⟩) id
  | @refused i _ hp =>
    have ha := haccepted i (by rw [hp]; rfl)
    exact h.movePoint ha ha
  | @created i _ hp =>
    have ha := haccepted i (by rw [hp]; rfl)
    have hbound : HandshakeInv L cfg
        ((l.setPeer i { l.peers i with point := .forwarding l.entryCount }).setEntry l.entryCount
          { remote := (l.peers i).offer.sender, link := { peer := some i }, peer := some i }) :=
      h.bindPeer ha ha rfl
    exact hbound.of_map rfl rfl rfl
  | @attached i _ _ _ hp =>
    have ha := haccepted i (by rw [hp]; rfl)
    exact h.bindPeer ha ha rfl
  | @closedRefused i hp =>
    have ha := haccepted i (by rw [hp]; rfl)
    exact h.setPeer (.inl (h.lt_of_point (by simp [hp]))) (.inl ha) id
  | @rebound i e hp =>
    have ha := haccepted i (by rw [hp]; rfl)
    refine HandshakeInv.narrowLink (h.movePoint ha ?_) fun _ hj => hj
    exact ha
  | @reset i e _ hp =>
    have ha := haccepted i (by rw [hp]; rfl)
    have hmoved : HandshakeInv L cfg (l.setPeer i { l.peers i with point := .done }) :=
      h.movePoint ha (.inl ha)
    have hfailed : HandshakeInv L cfg
        ((l.setPeer i { l.peers i with point := .done }).setEntry e { l.entries e with
          stream := (l.entries e).stream.reconnected.fail (some "native WebRTC stream reset") }) :=
      hmoved.narrowLink fun _ hj => hj
    exact hfailed.of_map rfl rfl rfl
  | @forwarded i e _ peer _ _ err hp hturn =>
    have ha := haccepted i (by rw [hp]; rfl)
    have hreceived := ha.receive peer (takenFrames (l.peers i).peer peer)
      (if err.isSome then .returned e else .forwarding e)
    refine (h.setPeer (.inl (h.lt_of_point (by simp [hp]))) ?_
      fun _ => hreceived).narrowLink fun _ hj => hj
    unfold ServerPeer.Holds
    cases err <;> exact hreceived
  | @finished i _ hp =>
    have ha := haccepted i (by rw [hp]; rfl)
    exact h.movePoint ha (.inl ha)
  | @detached i _ hp =>
    have ha := haccepted i (by rw [hp]; rfl)
    refine HandshakeInv.narrowLink (h.movePoint ha ?_) fun _ hj => (PeerLink.peer_of_detach hj).1
    exact .inl ha
  | lapsed | failed => exact h.narrowLink fun _ hj => hj
  | expired =>
    refine HandshakeInv.terminate (h.narrowLink ?_) _ _
    exact fun _ hj => hj
  | closing => exact h.of_map rfl rfl rfl
  | unlinked => split <;> exact h.of_map rfl rfl rfl
  | linkClosed => exact (h.narrowLink fun _ hj => PeerLink.peer_of_close hj).of_map rfl rfl rfl
  | peerClosed => exact (h.closeTaken _).of_map rfl rfl rfl
  | @sent e i _ _ _ hi =>
    have ha := h.linked e i hi
    have hpoint : (l.peers i).point ≠ .answering := fun hp => (h.peers i).not_accepted hp ha
    exact h.setPeer (.inl (h.lt_of_point hpoint)) ((h.peers i).send ha _) fun _ => ha.send _
  | shutdown =>
    have hclosed : HandshakeInv L cfg { l with closed := true } := h.of_map rfl rfl rfl
    exact terminateAll_invariant (fun h _ => h.terminate _ _) _ hclosed

end Steps

theorem handshakeInv_of_run {es : List Event} (hrun : Run (step L cfg) Any {} es t) :
    HandshakeInv L cfg t :=
  hrun.invariant (fun hi _ ht => HandshakeInv.step hi ht) HandshakeInv.initial

end Listener

/-- Whatever the remotes send, and over any number of reconnects: the client passes frames of a
peer to `Receive` only after its identity proof for exactly this session, offer, answer and
challenge, the listener only after an answered challenge and then `AuthReady` on the same peer;
a listener's peer from which any other frame was taken before that is closed. -/
theorem forwards_only_after_handshake (L : Libp2p) (clientCfg : ClientConfig)
    (listenerCfg : ListenerConfig L) :
    (∀ es c, Run (Client.step L clientCfg) Any {} es c → ∀ k, (c.peers k).received ≠ [] →
      (c.peers k).Authenticated L clientCfg) ∧
    (∀ es l, Run (Listener.step L listenerCfg) Any {} es l → ∀ i,
      ((l.peers i).received ≠ [] → (l.peers i).Accepted L listenerCfg) ∧
      ((l.peers i).peer.closed = false →
        (∀ frame ∈ (l.peers i).dequeued, frame.type = frameAuthChallenge) ∨
        (l.peers i).Accepted L listenerCfg)) := by
  refine ⟨fun es c hrun k hk => Client.received_authenticated hrun k hk, fun es l hrun i => ?_⟩
  rcases ((Listener.handshakeInv_of_run hrun).peers i).cases with
    ⟨hreceived, hanswers⟩ | ⟨hreceived, hclosed⟩ | haccepted
  · exact ⟨fun hr => absurd hreceived hr, fun _ => .inl (challenges_of_answers hanswers)⟩
  · refine ⟨fun hr => absurd hreceived hr, fun hopen => ?_⟩
    rw [hclosed] at hopen
    cases hopen
  · exact ⟨fun _ => haccepted, fun _ => .inr haccepted⟩

section Example

def trustingLibp2p : Libp2p where
  PrivKey := Unit
  PubKey := Unit
  getPublic := id
  idFromPrivateKey := fun _ => .ok [1]
  idFromPublicKey := fun _ => .ok [1]
  idString := id
  marshalPublicKey := fun _ => .ok []
  unmarshalPublicKey := fun _ => .ok ()
  sign := fun _ _ => .ok []
  verify := fun _ _ _ => .ok true

def exampleClient : ClientConfig := ⟨[1], 45010, ascii "client"⟩
def exampleListener : ListenerConfig trustingLibp2p := ⟨(), 45010⟩

def exampleSession (n : Nat) : Bytes := ascii "session-" ++ decimal n

def clientHandshake (k : Nat) : List Client.Event :=
  [.dial (exampleSession k), .publishOffer (ascii "offer"),
    .signal ⟨.answer, exampleSession k, ascii "listener", ascii "client", ascii "answer"⟩ true,
    .opened (List.replicate 32 7) true,
    .message k (encodeFrame frameAuthResponse [2, 0, 0, 0, 0]) false, .response true]

def listenerHandshake (i : Nat) : List Listener.Event :=
  [.offer ⟨.offer, exampleSession i, ascii "client", [], ascii "offer"⟩, .answer i (ascii "answer"),
    .message i (encodeFrame frameAuthChallenge (List.replicate 32 7)) false, .authenticate i true,
    .message i (encodeFrame frameAuthReady []) false, .authenticate i true]

theorem forwards_only_after_handshake_example :
    (∃ es c, Run (Client.step trustingLibp2p exampleClient) Any {} es c ∧
      (c.peers 0).received ≠ [] ∧ (c.peers 0).Authenticated trustingLibp2p exampleClient) ∧
    (∃ es l, Run (Listener.step trustingLibp2p exampleListener) Any {} es l ∧
      (l.peers 0).received ≠ [] ∧ (l.peers 0).Accepted trustingLibp2p exampleListener) := by
  obtain ⟨hclient, hlistener⟩ :=
    forwards_only_after_handshake trustingLibp2p exampleClient exampleListener
  have hrun := run_exec (Client.step trustingLibp2p exampleClient) Any {} (clientHandshake 0 ++
    [.bind, .message 0 (encodeFrame frameData [1]) false, .forward .frame]) (by decide)
  have hrun' := run_exec (Listener.step trustingLibp2p exampleListener) Any {}
    (listenerHandshake 0 ++
      [.activate 0 false, .message 0 (encodeFrame frameData [1]) false, .forward 0 .frame])
    (by decide)
  exact ⟨⟨_, _, hrun, by decide, hclient _ _ hrun 0 (by decide)⟩,
    ⟨_, _, hrun', by decide, (hlistener _ _ hrun' 0).1 (by decide)⟩⟩

end Example

end P2PNetcat.NativeWebRTC
