import P2PNetcat.NativeWebRTC.Client

/-!
# The client forwards frames of authenticated peers only

One invariant over the client's program counter, its link and the history of
every peer it has dialled, kept by every step whatever the remote sends.
-/

namespace P2PNetcat.NativeWebRTC
open Function ByteCodec StepSystem

section Authenticated
variable (L : Libp2p) (cfg : ClientConfig)

/-- The first frame taken from the peer was a response that verifies for the session, offer and
answer of this peer and the challenge sent on it; the frames passed on are those taken after. -/
def ClientPeer.Authenticated (p : ClientPeer) : Prop :=
  ∃ response challenge offer answer later,
    p.dequeued = response :: p.received ∧ response.type = frameAuthResponse ∧
    challenge.length = 32 ∧
    p.sent = ⟨frameAuthChallenge, challenge⟩ :: ⟨frameAuthReady, []⟩ :: later ∧
    p.localSDP = some offer ∧ p.remoteSDP = some answer ∧
    verifyAuthResponseV2 L response.payload cfg.expected cfg.service challenge
      ⟨p.sessionID, offer, answer⟩ = .ok true

theorem ClientPeer.Authenticated.dequeued_ne {L : Libp2p} {cfg : ClientConfig} {p : ClientPeer}
    (h : p.Authenticated L cfg) : p.dequeued ≠ [] := by
  obtain ⟨response, challenge, offer, answer, later, hdequeued, _⟩ := h
  simp [hdequeued]

def DialPoint.Holds (p : ClientPeer) (d : Dial) : DialPoint → Prop
  | .offer => p.sent = []
  | .answer => p.sent = [] ∧ p.localSDP = some d.offerSDP
  | .opening => p.sent = [] ∧ p.localSDP = some d.offerSDP ∧
      p.remoteSDP = some d.transcript.answerSDP ∧
      d.transcript.sessionID = d.sessionID ∧ d.transcript.offerSDP = d.offerSDP
  | .response => p.sent = [⟨frameAuthChallenge, d.challenge⟩] ∧ d.challenge.length = 32 ∧
      p.localSDP = some d.offerSDP ∧ p.remoteSDP = some d.transcript.answerSDP ∧
      d.transcript.sessionID = d.sessionID ∧ d.transcript.offerSDP = d.offerSDP

def Supervisor.Holds (peers : Nat → ClientPeer) (dials : Nat) : Supervisor → Prop
  | .dialing k d point => k < dials ∧ (peers k).sessionID = d.sessionID ∧
      (peers k).dequeued = [] ∧ (peers k).received = [] ∧ point.Holds (peers k) d
  | .dialed k => (peers k).Authenticated L cfg
  | .rebinding k => (peers k).Authenticated L cfg
  | .forwarding k => (peers k).Authenticated L cfg
  | _ => True

namespace Client

def linkPeer (c : Client) : Option Nat := c.link.bind (·.peer)

structure HandshakeInv (c : Client) : Prop where
  fresh : ∀ k, c.dials ≤ k → (c.peers k).dequeued = []
  received : ∀ k, (c.peers k).received ≠ [] → (c.peers k).Authenticated L cfg
  linked : ∀ k, c.linkPeer = some k → (c.peers k).Authenticated L cfg
  current : c.supervisor.Holds L cfg c.peers c.dials

end Client
end Authenticated

namespace Client
variable {L : Libp2p} {cfg : ClientConfig} {c t : Client}
variable {sup : Supervisor} {d : Dial} {point : DialPoint} {k : Nat} {p : ClientPeer}

theorem HandshakeInv.initial : HandshakeInv L cfg {} :=
  ⟨fun _ _ => rfl, fun _ h => absurd rfl h, fun _ h => by simp [linkPeer] at h, trivial⟩

theorem holds_mono {peers peers' : Nat → ClientPeer} {dials : Nat}
    (hauth : ∀ k, (peers k).Authenticated L cfg → (peers' k).Authenticated L cfg)
    (hdial : ∀ k, (peers k).dequeued = [] → ∃ peer, peers' k = { peers k with peer })
    (h : sup.Holds L cfg peers dials) : sup.Holds L cfg peers' dials := by
  cases sup with
  | dialing k d point =>
    obtain ⟨peer, hpeer⟩ := hdial k h.2.2.1
    simp only [Supervisor.Holds, hpeer] at h ⊢
    cases point <;> exact h
  | dialed k | rebinding k | forwarding k => exact hauth k h
  | detached | returned k | failed | closing taken | stopped => trivial

theorem HandshakeInv.of_history (h : HandshakeInv L cfg c) {c' : Client}
    (hpeers : ∀ k, ∃ peer, c'.peers k = { c.peers k with peer }) (hdials : c'.dials = c.dials)
    (hlink : ∀ k, c'.linkPeer = some k → c.linkPeer = some k ∨ c.supervisor = .dialed k)
    (hcurrent : c'.supervisor = c.supervisor ∨ c'.supervisor.Holds L cfg c'.peers c'.dials) :
    HandshakeInv L cfg c' := by
  have hauth : ∀ k, (c.peers k).Authenticated L cfg → (c'.peers k).Authenticated L cfg := by
    intro k hk
    obtain ⟨peer, hpeer⟩ := hpeers k
    rw [hpeer]
    exact hk
  refine ⟨fun k hk => ?_, fun k hk => ?_, fun k hk => hauth k ?_, ?_⟩
  · obtain ⟨peer, hpeer⟩ := hpeers k
    rw [hpeer]
    exact h.fresh k (hdials ▸ hk)
  · obtain ⟨peer, hpeer⟩ := hpeers k
    apply hauth k
    rw [hpeer] at hk
    exact h.received k hk
  · rcases hlink k hk with hold | hdialed
    · exact h.linked k hold
    · have := h.current
      rw [hdialed] at this
      exact this
  · rcases hcurrent with hsame | hholds
    · rw [hsame, hdials]
      exact holds_mono hauth (fun k _ => hpeers k) h.current
    · exact hholds

variable {stream : Stream}

theorem HandshakeInv.of_authenticated (h : HandshakeInv L cfg c)
    (hk : (c.peers k).Authenticated L cfg) (hp : p.Authenticated L cfg)
    (hsup : sup = c.supervisor ∨ sup.Holds L cfg (update c.peers k p) c.dials) :
    HandshakeInv L cfg { c.setPeer k p with stream, supervisor := sup } := by
  have hauth : ∀ j, (c.peers j).Authenticated L cfg →
      (update c.peers k p j).Authenticated L cfg := by
    intro j hj
    by_cases heq : j = k
    · rw [heq, update_self]
      exact hp
    · rwa [update_of_ne heq]
  refine ⟨fun j hj => ?_, fun j hj => ?_, fun j hj => hauth j (h.linked j hj), ?_⟩
  · have hne : j ≠ k := by
      intro heq
      exact hk.dequeued_ne (heq ▸ h.fresh j hj)
    simpa only [setPeer, update_of_ne hne] using h.fresh j hj
  · by_cases heq : j = k
    · subst heq
      exact hauth j hk
    · simp only [setPeer, update_of_ne heq] at hj
      exact hauth j (h.received j hj)
  · rcases hsup with rfl | hholds
    · refine holds_mono hauth (fun j hj => ⟨(c.peers j).peer, ?_⟩) h.current
      have hne : j ≠ k := by
        intro heq
        exact hk.dequeued_ne (heq ▸ hj)
      exact update_of_ne hne _ _
    · exact hholds

theorem HandshakeInv.dialing (h : HandshakeInv L cfg c) (hs : c.supervisor = .dialing k d point) :
    k < c.dials ∧ (c.peers k).sessionID = d.sessionID ∧ (c.peers k).dequeued = [] ∧
      (c.peers k).received = [] ∧ point.Holds (c.peers k) d := by
  have hc := h.current
  rwa [hs] at hc

theorem HandshakeInv.of_dial (h : HandshakeInv L cfg c)
    (hs : c.supervisor = .dialing k d point) (hp : p.received = [])
    (hsup : sup.Holds L cfg (update c.peers k p) c.dials) :
    HandshakeInv L cfg { c.setPeer k p with supervisor := sup } := by
  obtain ⟨hk, _, hdequeued, _⟩ := h.dialing hs
  refine ⟨fun j hj => ?_, fun j hj => ?_, fun j hj => ?_, hsup⟩
  · have hne : j ≠ k := by
      intro heq
      have : c.dials ≤ j := hj
      omega
    simpa [setPeer, update_of_ne hne] using h.fresh j hj
  · by_cases heq : j = k
    · subst heq
      simp [setPeer, hp] at hj
    · simp only [setPeer, update_of_ne heq] at hj ⊢
      exact h.received j hj
  · have hold := h.linked j hj
    have hne : j ≠ k := by
      intro heq
      subst heq
      exact hold.dequeued_ne hdequeued
    simpa only [setPeer, update_of_ne hne] using hold

theorem dialFailed_setPeer (c : Client) (k : Nat) (p : ClientPeer) :
    (c.setPeer k p).dialFailed k =
      { c.setPeer k p.close with
        supervisor := if c.link.isSome then .detached else .stopped } := by
  simp only [Client.dialFailed, closePeer, setPeer, update_self, update_idem]
  rfl

theorem HandshakeInv.dialFailed (h : HandshakeInv L cfg c)
    (hs : c.supervisor = .dialing k d point) (hp : p.received = []) :
    HandshakeInv L cfg ((c.setPeer k p).dialFailed k) := by
  rw [dialFailed_setPeer]
  apply h.of_dial hs
  · exact hp
  · split <;> trivial

theorem linkPeer_of_close {link : PeerLink} (hl : c.link = some link)
    (hk : (some link.close.1).bind (·.peer) = some k) : c.linkPeer = some k := by
  simp only [linkPeer, hl, Option.bind_some] at hk ⊢
  exact PeerLink.peer_of_close hk

section Steps
variable (h : HandshakeInv L cfg c)
include h

theorem HandshakeInv.dial (sessionID : Bytes) :
    HandshakeInv L cfg { c.setPeer c.dials { sessionID } with
      dials := c.dials + 1
      supervisor := .dialing c.dials { sessionID } .offer } := by
  have hold : ∀ j, j ≠ c.dials → (update c.peers c.dials { sessionID }) j = c.peers j :=
    fun j hj => update_of_ne hj _ _
  refine ⟨fun j hj => ?_, fun j hj => ?_, fun j hj => ?_, ?_⟩
  · have hle : c.dials + 1 ≤ j := hj
    simp only [setPeer, hold j (by omega)]
    exact h.fresh j (by omega)
  · by_cases heq : j = c.dials
    · subst heq
      simp [setPeer] at hj
    · simp only [setPeer, hold j heq] at hj ⊢
      exact h.received j hj
  · have hlinked := h.linked j hj
    have hne : j ≠ c.dials := by
      intro heq
      exact hlinked.dequeued_ne (h.fresh j (by omega))
    simpa only [setPeer, hold j hne] using hlinked
  · simp [Supervisor.Holds, setPeer, DialPoint.Holds]

theorem HandshakeInv.forward {k : Nat} {peer : NativePeer}
    {err : Option ForwardError} {taken : List Frame} (hs : c.supervisor = .forwarding k) :
    HandshakeInv L cfg { c.setPeer k { c.peers k with
        peer
        dequeued := (c.peers k).dequeued ++ taken
        received := (c.peers k).received ++ taken } with
      stream
      supervisor := if err.isSome then .returned k else .forwarding k } := by
  have hc : (c.peers k).Authenticated L cfg := by
    have := h.current
    rwa [hs] at this
  -- the turn moves the same frames to both histories
  have hauth : ClientPeer.Authenticated L cfg { c.peers k with
      peer
      dequeued := (c.peers k).dequeued ++ taken
      received := (c.peers k).received ++ taken } := by
    obtain ⟨response, challenge, offer, answer, later, hdequeued, hrest⟩ := hc
    exact ⟨response, challenge, offer, answer, later, by simp [hdequeued], hrest⟩
  apply h.of_authenticated hc hauth
  right
  split
  · trivial
  · simpa [Supervisor.Holds] using hauth

theorem HandshakeInv.send {k : Nat} (hk : c.linkPeer = some k) (frame : Frame) :
    HandshakeInv L cfg (c.setPeer k { c.peers k with sent := (c.peers k).sent ++ [frame] }) := by
  have hc := h.linked k hk
  apply h.of_authenticated hc _ (.inl rfl)
  obtain ⟨response, challenge, offer, answer, later, hdequeued, htype, hlength, hsent, hrest⟩ := hc
  refine ⟨response, challenge, offer, answer, later ++ [frame], hdequeued, htype, hlength, ?_, hrest⟩
  simp only [hsent, List.cons_append]

theorem HandshakeInv.setPeer (k : Nat) (peer : NativePeer) :
    HandshakeInv L cfg (c.setPeer k { c.peers k with peer }) := by
  refine h.of_history (fun j => ?_) rfl (fun j hj => .inl hj) (.inl rfl)
  by_cases heq : j = k
  · subst heq
    exact ⟨_, update_self _ _ _⟩
  · exact ⟨_, update_of_ne heq _ _⟩

theorem HandshakeInv.closeTaken (taken : Option Nat) : HandshakeInv L cfg (c.closeTaken taken) := by
  cases taken with
  | none => exact h
  | some k => exact h.setPeer k _

theorem HandshakeInv.of_control {link : Option PeerLink} {sup : Supervisor}
    {closer : Closer} {cancelled : Bool}
    (hlink : ∀ k, link.bind (·.peer) = some k → c.linkPeer = some k)
    (hsup : sup = c.supervisor ∨ sup.Holds L cfg c.peers c.dials) :
    HandshakeInv L cfg { c with link, stream, supervisor := sup, closer, cancelled } :=
  h.of_history (fun _ => ⟨_, rfl⟩) rfl (fun k hk => .inl (hlink k hk)) hsup

theorem HandshakeInv.step {e : Event} (ht : c.step L cfg e = some t) : HandshakeInv L cfg t := by
  cases moved_of_step ht with
  | message | lose => exact h.setPeer _ _
  | dial => exact h.dial _
  | publishOffer hs =>
    obtain ⟨hk, hsession, hdequeued, hreceived, hsent⟩ := h.dialing hs
    apply h.of_dial hs
    · exact hreceived
    · simp only [Supervisor.Holds, update_self, DialPoint.Holds]
      exact ⟨hk, hsession, hdequeued, hreceived, hsent, trivial⟩
  | passed => exact h
  | answered hs =>
    obtain ⟨hk, hsession, hdequeued, hreceived, hsent, hoffer⟩ := h.dialing hs
    apply h.of_dial hs
    · exact hreceived
    · simp only [Supervisor.Holds, update_self, DialPoint.Holds]
      exact ⟨hk, hsession, hdequeued, hreceived, hsent, hoffer, trivial, trivial, trivial⟩
  | opened hs hlength =>
    obtain ⟨hk, hsession, hdequeued, hreceived, hsent, hrest⟩ := h.dialing hs
    apply h.of_dial hs
    · exact hreceived
    · simp only [Supervisor.Holds, update_self, DialPoint.Holds, hsent, List.nil_append]
      exact ⟨hk, hsession, hdequeued, hreceived, trivial, hlength, hrest⟩
  | @verified _ d frame _ hs htype hverify =>
    obtain ⟨hk, hsession, hdequeued, hreceived, hsent, hlength, hoffer, hanswer, hts, hto⟩ :=
      h.dialing hs
    apply h.of_dial hs
    · exact hreceived
    · simp only [Supervisor.Holds, update_self]
      refine ⟨frame, d.challenge, d.offerSDP, d.transcript.answerSDP, [], ?_, htype, hlength, ?_,
        hoffer, hanswer, ?_⟩
      · simp [hdequeued, hreceived]
      · simp [hsent]
      · rw [hsession, ← hts, ← hto]
        exact hverify
  | dialFailed hs => exact h.dialFailed hs (h.dialing hs).2.2.2.1
  | bound hs hsup =>
    have hc := h.current
    rw [hs] at hc
    refine h.of_history (fun k => ⟨_, rfl⟩) rfl (fun j hj => ?_) (.inr ?_)
    · simp only [linkPeer, Option.bind_some, Option.some.injEq] at hj
      exact .inr (hj ▸ hs)
    · rcases hsup with rfl | rfl <;> exact hc
  | refused => exact h.of_control (fun _ hk => hk) (.inr trivial)
  | reconnected hs hsup =>
    have hc := h.current
    rw [hs] at hc
    refine h.of_control (fun _ hk => hk) (.inr ?_)
    rcases hsup with rfl | rfl
    · exact hc
    · trivial
  | forward hs => exact h.forward hs
  | ended => exact h.of_control (fun _ hk => hk) (.inr trivial)
  | detach =>
    refine h.of_control (fun j hj => ?_) (.inr trivial)
    unfold linkPeer
    cases hl : c.link with
    | none => simp [hl] at hj
    | some link =>
      simp only [hl, Option.map_some, Option.bind_some] at hj ⊢
      exact (PeerLink.peer_of_detach hj).1
  | giveUp => exact h.of_control (fun _ hk => hk) (.inr trivial)
  | closeLink _ hl => exact h.of_control (fun _ hk => linkPeer_of_close hl hk) (.inr trivial)
  | closeTaken => exact (h.closeTaken _).of_control (fun _ hk => hk) (.inr trivial)
  | cancel => exact h.of_control (fun _ hk => hk) (.inl rfl)
  | cancelLink _ hl => exact h.of_control (fun _ hk => linkPeer_of_close hl hk) (.inl rfl)
  | cancelTaken => exact (h.closeTaken _).of_control (fun _ hk => hk) (.inl rfl)
  | fail => exact h.of_control (fun _ hk => hk) (.inl rfl)
  | send hk => exact h.send hk _

end Steps

theorem received_authenticated {es : List Event} (hrun : Run (step L cfg) Any {} es t) (k : Nat)
    (hk : (t.peers k).received ≠ []) : (t.peers k).Authenticated L cfg :=
  (hrun.invariant (fun hi _ ht => HandshakeInv.step hi ht) HandshakeInv.initial).received k hk

end Client

end P2PNetcat.NativeWebRTC
