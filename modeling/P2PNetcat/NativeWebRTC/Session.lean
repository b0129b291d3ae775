import P2PNetcat.NativeWebRTC.StepEffect

/-!
# A client and its listener across reconnects

One client and the listener it dials, among any other clients. The two ends are
joined by signals and by data channels: the listener answers offers the client
has published, the client applies answers of the listener, and what reaches the
listener on such a channel is what the client has sent on it.
-/

namespace P2PNetcat.NativeWebRTC
open Function ByteCodec StepSystem

/-- `partner` gives the dial whose offer a listener's peer has answered, `mate` the peer whose
answer a dial has applied, and `paired` the stream the listener created for the first dial. -/
structure Session where
  client : Client := {}
  listener : Listener := {}
  partner : Nat → Nat := fun _ => 0
  mate : Nat → Option Nat := fun _ => none
  paired : Option Nat := none

structure SessionConfig (L : Libp2p) where
  client : ClientConfig
  listener : ListenerConfig L

namespace Session

inductive Event where
  | client (ev : Client.Event)
  | listener (ev : Listener.Event)
  | offer (dial : Nat)
  | answer (peer : Nat)
  | message (peer index : Nat) (pickClosed : Bool)
  deriving DecidableEq

section Model
variable {L : Libp2p} (cfg : SessionConfig L)

def FromClient (s : Session) (i : Nat) : Prop :=
  (s.listener.peers i).offer.sender = cfg.client.signalingID

instance (s : Session) (i : Nat) : Decidable (s.FromClient cfg i) :=
  inferInstanceAs (Decidable (_ = _))

def ownClientEvent : Client.Event → Bool
  | .signal _ applied => !applied
  | _ => true

/-- Offers of this client and messages on its channels arrive by their own events. -/
def ownListenerEvent (s : Session) : Listener.Event → Bool
  | .offer value => decide (value.sender ≠ cfg.client.signalingID)
  | .message i _ _ => decide (¬ s.FromClient cfg i)
  | _ => true

def pairedAfter (s : Session) : Listener.Event → Option Nat
  | .activate i _ =>
    if (s.listener.peers i).point = .accepted ∧ s.listener.closed = false ∧
        s.listener.streams cfg.client.signalingID = none ∧ s.FromClient cfg i ∧ s.partner i = 0 then
      some s.listener.entryCount
    else s.paired
  | _ => s.paired

def receiveOffer (s : Session) (k : Nat) : Option Session :=
  match (s.client.peers k).localSDP with
  | some sdp =>
    if k < s.client.dials then
      some { s with
        listener := s.listener.offer
          ⟨.offer, (s.client.peers k).sessionID, cfg.client.signalingID, [], sdp⟩
        partner := update s.partner s.listener.peerCount k }
    else none
  | none => none

def applyAnswer (s : Session) (i : Nat) : Option Session :=
  let p := s.listener.peers i
  match s.client.supervisor with
  | .dialing k d .answer =>
    if i < s.listener.peerCount ∧ p.point ≠ .answering ∧ s.FromClient cfg i ∧ s.partner i = k ∧
        p.offer.sessionID = d.sessionID then
      (s.client.signal cfg.client
        ⟨.answer, p.offer.sessionID, [], p.offer.sender, p.answerSDP⟩ true).map fun client =>
          { s with client, mate := update s.mate k (some i) }
    else none
  | _ => none

def receiveMessage (s : Session) (i index : Nat) (pickClosed : Bool) : Option Session :=
  if s.FromClient cfg i ∧ s.mate (s.partner i) = some i then
    match (s.client.peers (s.partner i)).sent[index]? with
    | some frame =>
      (s.listener.message i (encodeFrame frame.type frame.payload) pickClosed).map fun listener =>
        { s with listener }
    | none => none
  else none

def step (s : Session) : Event → Option Session
  | .client ev =>
    if ownClientEvent ev then
      (s.client.step L cfg.client ev).map fun client => { s with client }
    else none
  | .listener ev =>
    if s.ownListenerEvent cfg ev then
      (s.listener.step L cfg.listener ev).map fun listener =>
        { s with listener, paired := s.pairedAfter cfg ev }
    else none
  | .offer k => s.receiveOffer cfg k
  | .answer i => s.applyAnswer cfg i
  | .message i index pickClosed => s.receiveMessage cfg i index pickClosed

/-- A redialled peer whose handshake the client has finished and the listener has not. -/
def Pending (s : Session) (i : Nat) : Prop :=
  s.FromClient cfg i ∧ s.partner i ≠ 0 ∧ s.mate (s.partner i) = some i ∧
  (s.client.peers (s.partner i)).returned = true ∧ (s.listener.peers i).point.waiting = true

instance (s : Session) (i : Nat) : Decidable (s.Pending cfg i) :=
  inferInstanceAs (Decidable (_ ∧ _))

def CanResume (s : Session) : Prop :=
  s.client.mayResume = true ∨ ∃ i, i < s.listener.peerCount ∧ s.Pending cfg i

instance (s : Session) : Decidable (s.CanResume cfg) := inferInstanceAs (Decidable (_ ∨ _))

/-- The client lets go of a lost peer only after the listener has created a stream for it, and
the listener takes that stream out of its map only when the client can no longer resume. -/
def KeepsPairing (s : Session) : Event → Prop
  | .client .detach => s.client.cancelled = false → s.paired.isSome = true
  | .listener (.expire e) => s.listener.streams cfg.client.signalingID = some e →
      (s.listener.entries e).peer = none → ¬ s.CanResume cfg
  | .listener (.closer n) => s.listener.streams cfg.client.signalingID =
      some (s.listener.closers n).entry → (s.listener.closers n).point = .start → ¬ s.CanResume cfg
  | _ => True

instance (s : Session) (ev : Event) : Decidable (s.KeepsPairing cfg ev) := by
  unfold KeepsPairing
  split <;> infer_instance

structure Inv (s : Session) : Prop where
  started : s.client.Started
  handshake : Listener.HandshakeInv L cfg.listener s.listener
  redials : s.client.Redials → s.paired.isSome = true
  ready : ∀ k, ∀ frame ∈ (s.client.peers k).sent, frame.type = frameAuthReady →
    (s.client.peers k).returned = true
  partners : ∀ i, i < s.listener.peerCount → s.FromClient cfg i → s.partner i < s.client.dials
  saw : ∀ i, i < s.listener.peerCount → s.FromClient cfg i →
    ∀ frame, (s.listener.peers i).Saw frame →
      frame ∈ (s.client.peers (s.partner i)).sent ∧ s.mate (s.partner i) = some i
  mates : ∀ k i, s.mate k = some i →
    i < s.listener.peerCount ∧ (s.listener.peers i).point ≠ .answering
  unmated : ∀ k, s.client.Unanswered k → s.mate k = none
  mapped : ∀ e, s.listener.streams cfg.client.signalingID = some e → s.paired = some e
  kept : s.paired.isSome = true → s.listener.closed = true ∨
    (s.listener.streams cfg.client.signalingID).isSome = true ∨ ¬ s.CanResume cfg

end Model

section Steps
variable {L : Libp2p} {cfg : SessionConfig L} {s t : Session} {i : Nat}

theorem Inv.initial : Inv cfg {} where
  started := ⟨nofun, fun _ => rfl, nofun⟩
  handshake := Listener.HandshakeInv.initial
  redials := by rintro (⟨_, h⟩ | h) <;> exact absurd h (by decide)
  ready := by simp
  partners := by simp
  saw := by simp
  mates := by simp
  unmated := fun _ _ => rfl
  mapped := by simp
  kept := by simp

/-- A redialled peer at `accepted` is pending: it took `AuthReady` from its own dial. -/
theorem Inv.pending_of_accepted (h : Inv cfg s) (hi : i < s.listener.peerCount)
    (hclient : s.FromClient cfg i) (hredial : s.partner i ≠ 0)
    (hp : (s.listener.peers i).point = .accepted) : s.Pending cfg i := by
  obtain ⟨challenges, _, ready, _, _, _, hready, hdequeued, _⟩ :=
    (h.handshake.peers i).accepted (by rw [hp]; rfl)
  have hsaw : (s.listener.peers i).Saw ready := .inr (by simp [hdequeued])
  obtain ⟨hsent, hmate⟩ := h.saw i hi hclient ready hsaw
  exact ⟨hclient, hredial, hmate, h.ready _ _ hsent hready, by rw [hp]; rfl⟩

theorem Inv.clientStep (h : Inv cfg s) {ev : Client.Event} {c : Client} {mate : Nat → Option Nat}
    (heffect : Client.Effect s.client c ev)
    (hdetach : ev = .detach → s.client.cancelled = false → s.paired.isSome = true)
    (hkeep : ∀ k i, s.mate k = some i → mate k = some i)
    (hmates : ∀ k i, mate k = some i →
      i < s.listener.peerCount ∧ (s.listener.peers i).point ≠ .answering)
    (hunmated : ∀ k, c.Unanswered k → mate k = none)
    (hend : ¬ s.CanResume cfg → ¬ CanResume cfg { s with client := c, mate }) :
    Inv cfg { s with client := c, mate } := by
  have hdials : s.client.dials ≤ c.dials := by
    rcases heffect.dials with hd | ⟨_, hd⟩ <;> omega
  have hextends : ∀ k, k < s.client.dials → (s.client.peers k).Extends (c.peers k) := by
    intro k hk
    exact (heffect.peers k).resolve_right fun hge => by omega
  refine ⟨heffect.started h.started, h.handshake, fun hr => ?_, fun k frame hf hready => ?_,
    fun i hi hc => Nat.lt_of_lt_of_le (h.partners i hi hc) hdials, fun i hi hc frame hsaw => ?_,
    hmates, hunmated, h.mapped, fun hpaired => (h.kept hpaired).imp id (Or.imp id hend)⟩
  · rcases heffect.redials h.started hr with hold | ⟨hev, hlive⟩
    · exact h.redials hold
    · exact hdetach hev hlive
  · rcases heffect.peers k with hext | ⟨_, hnil⟩
    · rcases hext.ready frame hf hready with hold | hreturned
      · exact hext.returned (h.ready k frame hold hready)
      · exact hreturned
    · rw [show (c.peers k).sent = [] from hnil] at hf
      cases hf
  · obtain ⟨hsent, hmate⟩ := h.saw i hi hc frame hsaw
    exact ⟨(hextends _ (h.partners i hi hc)).sent hsent, hkeep _ _ hmate⟩

theorem Inv.client (h : Inv cfg s) {ev : Client.Event} {c : Client}
    (heffect : Client.Effect s.client c ev) (hown : ownClientEvent ev = true)
    (hok : s.KeepsPairing cfg (.client ev)) : Inv cfg { s with client := c } := by
  refine h.clientStep heffect ?_ (fun _ _ hk => hk) h.mates
    (fun k hk => h.unmated k (heffect.unanswered ?_ k hk)) ?_
  · rintro rfl hlive
    exact hok hlive
  · rintro value rfl
    simp [ownClientEvent] at hown
  · intro hend
    have hended := heffect.ended (by simpa using fun hm => hend (.inl hm))
    rintro (hmay | ⟨i, hi, hclient, hredial, hmate, hreturned, hwaiting⟩)
    · rw [hended.1] at hmay
      cases hmay
    · exact hend (.inr ⟨i, hi, hclient, hredial, hmate, hended.2 _ hreturned, hwaiting⟩)

theorem Inv.creates_first (h : Inv cfg s) (hi : i < s.listener.peerCount)
    (hclient : s.FromClient cfg i) (hp : (s.listener.peers i).point = .accepted)
    (hopen : s.listener.closed = false)
    (hnone : s.listener.streams cfg.client.signalingID = none) : s.partner i = 0 := by
  by_contra hredial
  have hmany : 1 < s.client.dials := by
    have := h.partners i hi hclient
    omega
  rcases h.kept (h.redials (.inr hmany)) with hclosed | hsome | hend
  · rw [hopen] at hclosed
    cases hclosed
  · rw [hnone] at hsome
    cases hsome
  · exact hend (.inr ⟨i, hi, h.pending_of_accepted hi hclient hredial hp⟩)

theorem pairedAfter_of_not_creates {ev : Listener.Event}
    (h : ¬ s.listener.Creates ev cfg.client.signalingID) : s.pairedAfter cfg ev = s.paired := by
  unfold pairedAfter
  split
  next i stopped =>
    rw [if_neg]
    rintro ⟨hp, hopen, hnone, hclient, _⟩
    exact h ⟨i, stopped, rfl, hp, hclient, hopen, hnone⟩
  · rfl

variable (h : Inv cfg s)
include h

theorem Inv.listener {ev : Listener.Event} {l : Listener}
    (hstep : s.listener.step L cfg.listener ev = some l) (hown : s.ownListenerEvent cfg ev = true)
    (hok : s.KeepsPairing cfg (.listener ev)) :
    Inv cfg { s with listener := l, paired := s.pairedAfter cfg ev } := by
  have heffect := Listener.effect_of_step hstep
  -- peers of this client are old ones, since its offers do not arrive by this event
  have hold : ∀ i, i < l.peerCount → (l.peers i).offer.sender = cfg.client.signalingID →
      i < s.listener.peerCount ∧ s.FromClient cfg i := by
    intro i hi hsender
    have hlt : i < s.listener.peerCount := by
      rcases heffect.count with hcount | ⟨value, rfl, hcount, hnew⟩
      · omega
      by_contra hge
      have heq : i = s.listener.peerCount := by omega
      rw [heq, hnew] at hsender
      simp only [ownListenerEvent, decide_eq_true_eq] at hown
      exact hown hsender
    exact ⟨hlt, (congrArg Signal.sender (heffect.peers i hlt).offer).symm.trans hsender⟩
  have hcount : s.listener.peerCount ≤ l.peerCount := by
    rcases heffect.count with hcount | ⟨_, _, hcount, _⟩ <;> omega
  have hpaired : ¬ s.listener.Creates ev cfg.client.signalingID ∧
      s.pairedAfter cfg ev = s.paired ∨
      s.listener.Creates ev cfg.client.signalingID ∧
        s.pairedAfter cfg ev = some s.listener.entryCount ∧
        l.streams cfg.client.signalingID = some s.listener.entryCount := by
    by_cases hcreates : s.listener.Creates ev cfg.client.signalingID
    · obtain ⟨i, stopped, rfl, hp, hclient, hopen, hnone⟩ := hcreates
      have hi : i < s.listener.peerCount := h.handshake.lt_of_point (by simp [hp])
      have hfirst := h.creates_first hi hclient hp hopen hnone
      have hcreates : s.listener.Creates (.activate i stopped) cfg.client.signalingID :=
        ⟨i, stopped, rfl, hp, hclient, hopen, hnone⟩
      exact .inr ⟨hcreates, if_pos ⟨hp, hopen, hnone, hclient, hfirst⟩,
        Listener.activate_creates hcreates hstep⟩
    · exact .inl ⟨hcreates, pairedAfter_of_not_creates hcreates⟩
  have hend : ¬ s.CanResume cfg →
      ¬ CanResume cfg { s with listener := l, paired := s.pairedAfter cfg ev } := by
    rintro hend (hmay | ⟨i, hi, hclient, hredial, hmate, hreturned, hwaiting⟩)
    · exact hend (.inl hmay)
    · obtain ⟨hlt, hclient'⟩ := hold i hi hclient
      have hwaiting' := ((heffect.peers i hlt).waiting hwaiting).resolve_right (h.mates _ _ hmate).2
      exact hend (.inr ⟨i, hlt, hclient', hredial, hmate, hreturned, hwaiting'⟩)
  refine ⟨h.started, h.handshake.step hstep, fun hr => ?_, h.ready,
    fun i hi hc => h.partners i (hold i hi hc).1 (hold i hi hc).2, fun i hi hc frame hsaw => ?_,
    fun k i hk => ?_, h.unmated, fun e he => ?_, fun hp => ?_⟩
  · rcases hpaired with ⟨_, hp⟩ | ⟨_, hp, _⟩
    · exact hp ▸ h.redials hr
    · simp [hp]
  · obtain ⟨hlt, hclient⟩ := hold i hi hc
    refine h.saw i hlt hclient frame (heffect.saw i hlt ?_ frame hsaw)
    rintro data pick rfl
    simp [ownListenerEvent, hclient] at hown
  · obtain ⟨hlt, hanswered⟩ := h.mates k i hk
    exact ⟨Nat.lt_of_lt_of_le hlt hcount, (heffect.peers i hlt).answered hanswered⟩
  · rcases hpaired with ⟨hnot, hp⟩ | ⟨_, hp, hnew⟩
    · change l.streams cfg.client.signalingID = some e at he
      rw [show ({ s with listener := l, paired := s.pairedAfter cfg ev } : Session).paired =
        s.paired from hp]
      rcases heffect.streams cfg.client.signalingID with hsame | ⟨hnone, _⟩ | ⟨hnone, _⟩ | ⟨_, hcreates⟩
      · exact h.mapped e (hsame ▸ he)
      · rw [hnone] at he
        cases he
      · rw [hnone] at he
        cases he
      · exact absurd hcreates hnot
    · rw [show ({ s with listener := l, paired := s.pairedAfter cfg ev } : Session).listener.streams
        cfg.client.signalingID = some s.listener.entryCount from hnew] at he
      exact hp.trans he
  · rcases hpaired with ⟨_, hsame⟩ | ⟨_, _, hnew⟩
    · have hpaired' : s.paired.isSome = true := hsame ▸ hp
      rcases heffect.streams cfg.client.signalingID with
        hstreams | ⟨_, hclosed⟩ | ⟨_, e, hheld, hremoves⟩ | ⟨hnew, _⟩
      · rcases h.kept hpaired' with hclosed | hsome | hended
        · exact .inl (heffect.closed hclosed)
        · exact .inr (.inl (hstreams ▸ hsome))
        · exact .inr (.inr (hend hended))
      · exact .inl hclosed
      · refine .inr (.inr (hend ?_))
        rcases hremoves with ⟨rfl, hpeer⟩ | ⟨n, rfl, rfl, hstart⟩
        · exact hok hheld hpeer
        · exact hok hheld hstart
      · exact .inr (.inl (by rw [hnew]; rfl))
    · exact .inr (.inl (by rw [hnew]; rfl))

theorem Inv.receiveOffer {k : Nat} (ht : s.receiveOffer cfg k = some t) :
    Inv cfg t := by
  unfold Session.receiveOffer at ht
  split at ht
  next sdp hsdp =>
    obtain ⟨hk, rfl⟩ := guard_eq_some.mp ht
    have heffect := Listener.Effect.offer (l := s.listener)
      ⟨.offer, (s.client.peers k).sessionID, cfg.client.signalingID, [], sdp⟩
    generalize hoffer : (⟨.offer, (s.client.peers k).sessionID, cfg.client.signalingID, [], sdp⟩ :
      Signal) = value at heffect
    have hpartner : ∀ i, i < s.listener.peerCount →
        update s.partner s.listener.peerCount k i = s.partner i :=
      fun i hi => update_of_ne (Nat.ne_of_lt hi) _ _
    have hsender : ∀ i, i < s.listener.peerCount →
        ((s.listener.offer value).peers i).offer.sender = cfg.client.signalingID →
          s.FromClient cfg i :=
      fun i hi hc => (congrArg Signal.sender (heffect.peers i hi).offer).symm.trans hc
    have hnew : (s.listener.offer value).peers s.listener.peerCount = { offer := value } := by
      simp [Listener.offer, Listener.setPeer]
    refine ⟨h.started, h.handshake.offer _, h.redials, h.ready, fun i hi hc => ?_,
      fun i hi hc frame hsaw => ?_, fun j i hj => ?_, h.unmated, h.mapped, fun hp => ?_⟩
    · rcases Nat.lt_or_eq_of_le (Nat.le_of_lt_succ hi) with hlt | rfl
      · simp only [hpartner i hlt]
        exact h.partners i hlt (hsender i hlt hc)
      · simpa using hk
    · rcases Nat.lt_or_eq_of_le (Nat.le_of_lt_succ hi) with hlt | rfl
      · simp only [hpartner i hlt]
        exact h.saw i hlt (hsender i hlt hc) frame (heffect.saw i hlt (by rintro _ _ ⟨⟩) frame hsaw)
      · change ((s.listener.offer value).peers s.listener.peerCount).Saw frame at hsaw
        rw [hnew] at hsaw
        rcases hsaw with hsaw | hsaw <;> cases hsaw
    · obtain ⟨hlt, hanswered⟩ := h.mates j i hj
      exact ⟨Nat.lt_succ_of_lt hlt, (heffect.peers i hlt).answered hanswered⟩
    · refine (h.kept hp).imp id (Or.imp id fun hend => ?_)
      rintro (hmay | ⟨i, hi, hclient, hredial, hmate, hreturned, hwaiting⟩)
      · exact hend (.inl hmay)
      · have hlt := (h.mates _ _ hmate).1
        simp only [hpartner i hlt] at hredial hmate hreturned
        have hwaiting' :=
          ((heffect.peers i hlt).waiting hwaiting).resolve_right (h.mates _ _ hmate).2
        exact hend (.inr ⟨i, hlt, hsender i hlt hclient, hredial, hmate, hreturned, hwaiting'⟩)
  · cases ht

theorem Inv.applyAnswer (ht : s.applyAnswer cfg i = some t) :
    Inv cfg t := by
  unfold Session.applyAnswer at ht
  dsimp only at ht
  split at ht
  next k d hs =>
    obtain ⟨hcond, ht⟩ := Option.ite_none_right_eq_some.mp ht
    obtain ⟨hi, hanswered, hclient, hpartner, hsession⟩ := hcond
    obtain ⟨c, hsignal, rfl⟩ := Option.map_eq_some_iff.mp ht
    have hunmated := h.unmated k (.inr ⟨d, .inr hs⟩)
    have hk : k < s.client.dials := hpartner ▸ h.partners i hi hclient
    -- the answer is for this dial, so it is applied
    have happlied : c.supervisor = .dialing k { d with transcript :=
        ⟨d.sessionID, d.offerSDP, (s.listener.peers i).answerSDP⟩ } .opening ∧
        c.dials = s.client.dials := by
      simp only [Client.signal, hs, hsession, ne_eq, not_true_eq_false, false_or,
        show (s.listener.peers i).offer.sender = cfg.client.signalingID from hclient, if_false,
        Bool.not_true, Bool.false_eq_true, Option.some.injEq] at hsignal
      subst hsignal
      exact ⟨rfl, rfl⟩
    refine h.clientStep (Client.effect_of_moved (L := L) (Client.moved_of_signal hsignal)) nofun
      (fun j i' hj => ?_) (fun j i' hj => ?_) (fun j hj => ?_) (fun hend => absurd (.inl ?_) hend)
    · have hne : j ≠ k := by
        rintro rfl
        rw [hunmated] at hj
        cases hj
      rw [update_of_ne hne]
      exact hj
    · by_cases heq : j = k
      · rw [heq, update_self] at hj
        cases hj
        exact ⟨hi, hanswered⟩
      · rw [update_of_ne heq] at hj
        exact h.mates j i' hj
    · have hge : s.client.dials ≤ j := by
        rcases hj with hj | ⟨d', hj | hj⟩
        · exact happlied.2 ▸ hj
        · rw [happlied.1] at hj
          cases hj
        · rw [happlied.1] at hj
          cases hj
      rw [update_of_ne (by omega)]
      exact h.unmated j (.inl hge)
    · simp [Client.mayResume, hs]
  · cases ht

theorem Inv.receiveMessage {index : Nat} {pickClosed : Bool}
    (ht : s.receiveMessage cfg i index pickClosed = some t) : Inv cfg t := by
  obtain ⟨hcond, ht⟩ := Option.ite_none_right_eq_some.mp ht
  split at ht
  next frame hframe =>
    obtain ⟨l, hmessage, rfl⟩ := Option.map_eq_some_iff.mp ht
    have hstep : s.listener.step L cfg.listener
        (.message i (encodeFrame frame.type frame.payload) pickClosed) = some l := hmessage
    have heffect := Listener.effect_of_step hstep
    obtain ⟨hi, rfl⟩ := guard_eq_some.mp hmessage
    have hsender : ∀ j, j < s.listener.peerCount →
        ((s.listener.setPeer i { s.listener.peers i with
          peer := (s.listener.peers i).peer.onMessage (encodeFrame frame.type frame.payload)
            pickClosed }).peers j).offer.sender = cfg.client.signalingID → s.FromClient cfg j :=
      fun j hj hc => (congrArg Signal.sender (heffect.peers j hj).offer).symm.trans hc
    refine ⟨h.started, h.handshake.step hstep, h.redials, h.ready,
      fun j hj hc => h.partners j hj (hsender j hj hc), fun j hj hc f hsaw => ?_,
      fun k j hk => ?_, h.unmated, h.mapped, fun hp => ?_⟩
    · by_cases heq : j = i
      · subst heq
        simp only [Listener.setPeer, update_self] at hsaw
        rcases hsaw with hqueued | htaken
        · rcases NativePeer.mem_onMessage hqueued with hold | rfl
          · exact h.saw j hj hcond.1 f (.inl hold)
          · exact ⟨List.mem_of_getElem? hframe, hcond.2⟩
        · exact h.saw j hj hcond.1 f (.inr htaken)
      · refine h.saw j hj (hsender j hj hc) f ?_
        simpa [Listener.setPeer, update_of_ne heq] using hsaw
    · obtain ⟨hlt, hanswered⟩ := h.mates k j hk
      exact ⟨hlt, (heffect.peers j hlt).answered hanswered⟩
    · refine (h.kept hp).imp id (Or.imp id fun hend => ?_)
      rintro (hmay | ⟨j, hj, hclient, hredial, hmate, hreturned, hwaiting⟩)
      · exact hend (.inl hmay)
      · have hwaiting' :=
          ((heffect.peers j hj).waiting hwaiting).resolve_right (h.mates _ _ hmate).2
        exact hend (.inr ⟨j, hj, hsender j hj hclient, hredial, hmate, hreturned, hwaiting'⟩)
  · cases ht

theorem Inv.step {ev : Event} (hok : s.KeepsPairing cfg ev)
    (ht : s.step cfg ev = some t) : Inv cfg t := by
  cases ev with
  | client ev =>
    obtain ⟨hown, ht⟩ := Option.ite_none_right_eq_some.mp ht
    obtain ⟨c, hstep, rfl⟩ := Option.map_eq_some_iff.mp ht
    exact h.client (Client.effect_of_step hstep) hown hok
  | listener ev =>
    obtain ⟨hown, ht⟩ := Option.ite_none_right_eq_some.mp ht
    obtain ⟨l, hstep, rfl⟩ := Option.map_eq_some_iff.mp ht
    exact h.listener hstep hown hok
  | offer k => exact h.receiveOffer ht
  | answer i => exact h.applyAnswer ht
  | message i index pickClosed => exact h.receiveMessage ht

end Steps

/-- While the listener keeps the pairing, a peer with which a client resumes is bound to the very
stream the listener created for that client, or refused and closed; no stream is opened. -/
theorem resumes_paired_stream {L : Libp2p} {cfg : SessionConfig L} {es : List Event}
    {s t : Session} {i : Nat} {stopped : Bool} (hrun : Run (step cfg) (KeepsPairing cfg) {} es s)
    (hclient : s.FromClient cfg i) (hresumes : s.partner i ≠ 0)
    (ht : s.step cfg (.listener (.activate i stopped)) = some t) :
    t.listener.opened = s.listener.opened ∧ t.listener.entryCount = s.listener.entryCount ∧
    ((t.listener.peers i).point = .refused ∨
      ∃ e, s.paired = some e ∧ (t.listener.peers i).point = .rebinding e ∧
        (t.listener.entries e).link.peer = some i) := by
  have hinv : Inv cfg s := hrun.invariant (fun hi hok ht => Inv.step hi hok ht) Inv.initial
  simp only [Session.step, ownListenerEvent, if_true] at ht
  obtain ⟨l, hstep, rfl⟩ := Option.map_eq_some_iff.mp ht
  have hactivate : s.listener.activate i stopped = some l := hstep
  unfold Listener.activate at hactivate
  split at hactivate
  next hp =>
    have hi : i < s.listener.peerCount := hinv.handshake.lt_of_point (by simp [hp])
    dsimp only at hactivate
    split at hactivate
    · cases hactivate
      exact ⟨rfl, rfl, .inl (by simp [Listener.setPeer])⟩
    rename_i hopen
    split at hactivate
    next hnone =>
      rw [show (s.listener.peers i).offer.sender = cfg.client.signalingID from hclient] at hnone
      exact absurd (hinv.creates_first hi hclient hp (by simpa using hopen) hnone) hresumes
    next e hstream =>
      rw [show (s.listener.peers i).offer.sender = cfg.client.signalingID from hclient] at hstream
      split at hactivate
      · cases hactivate
        exact ⟨rfl, rfl, .inl (by simp [Listener.setPeer])⟩
      split at hactivate
      · cases hactivate
        exact ⟨rfl, rfl, .inl (by simp [Listener.setPeer])⟩
      rename_i link hattach
      cases hactivate
      obtain ⟨_, _, rfl⟩ := PeerLink.attach_eq_some hattach
      exact ⟨rfl, rfl, .inr ⟨e, hinv.mapped e hstream,
        by simp [Listener.setPeer, Listener.setEntry], by simp [Listener.setEntry]⟩⟩
  · cases hactivate

section Example

def exampleConfig : SessionConfig trustingLibp2p := ⟨exampleClient, exampleListener⟩

def handshake (k : Nat) : List Event :=
  [.client (.dial (exampleSession k)), .client (.publishOffer (ascii "offer")), .offer k,
    .listener (.answer k (ascii "answer")), .answer k,
    .client (.opened (List.replicate 32 7) true), .message k 0 false,
    .listener (.authenticate k true),
    .client (.message k (encodeFrame frameAuthResponse [2, 0, 0, 0, 0]) false),
    .client (.response true), .client .bind, .message k 1 false,
    .listener (.authenticate k true)]

def clientLoss : List Event := [.client (.lose 0), .client (.forward .closed), .client .detach]

def listenerLoss : List Event :=
  [.listener (.lose 0), .listener (.forward 0 .closed), .listener (.watch 0)]

theorem resumes_paired_stream_example :
    ∃ es s t, Run (step exampleConfig) (KeepsPairing exampleConfig) {} es s ∧
      s.client.supervisor = .rebinding 1 ∧
      s.step exampleConfig (.listener (.activate 1 true)) = some t ∧
      t.listener.opened = [0] ∧ (t.listener.entries 0).link.peer = some 1 := by
  obtain ⟨s, hrun, hclient, hresumes, hsupervisor, hopen, t, ht, hpoint⟩ :
      ∃ s, Run (step exampleConfig) (KeepsPairing exampleConfig) {} _ s ∧
        s.FromClient exampleConfig 1 ∧ s.partner 1 ≠ 0 ∧ s.client.supervisor = .rebinding 1 ∧
        s.listener.opened = [0] ∧
        ∃ t, s.step exampleConfig (.listener (.activate 1 true)) = some t ∧
          (t.listener.peers 1).point = .rebinding 0 :=
    ⟨_, run_exec (step exampleConfig) (KeepsPairing exampleConfig) {}
      (handshake 0 ++ [.listener (.activate 0 false)] ++ clientLoss ++ listenerLoss ++ handshake 1)
      (by decide), by decide, by decide, by decide, by decide, _,
      (Option.some_get (by decide)).symm, by decide⟩
  obtain ⟨hopened, _, hrefused | ⟨e, _, hrebinding, hlinked⟩⟩ :=
    resumes_paired_stream hrun hclient hresumes ht
  · rw [hpoint] at hrefused
    cases hrefused
  · rw [hpoint] at hrebinding
    cases hrebinding
    exact ⟨_, s, t, hrun, hsupervisor, ht, hopened.trans hopen, hlinked⟩

/-- The listener's application closes its stream while the client is redialling: the stream has
left the map when the client resumes, and the listener opens another one for it. -/
theorem resumed_client_gets_fresh_stream :
    ∃ es s t, Run (step exampleConfig) Any {} es s ∧
      s.FromClient exampleConfig 1 ∧ s.partner 1 ≠ 0 ∧ s.client.supervisor = .rebinding 1 ∧
      s.paired = some 0 ∧ s.listener.opened = [0] ∧
      s.step exampleConfig (.listener (.activate 1 false)) = some t ∧
      (t.listener.peers 1).point = .forwarding 1 ∧ t.listener.opened = [0, 1] := by
  refine ⟨_, _, _, run_exec (step exampleConfig) Any {}
    (handshake 0 ++ [.listener (.activate 0 false), .listener (.closeStream 0),
      .listener (.closer 0), .listener (.closer 0), .listener (.closer 0)] ++ clientLoss ++
      handshake 1) (by decide), by decide, by decide, by decide, by decide, by decide,
    (Option.some_get (by decide)).symm, by decide, by decide⟩

end Example

end Session

end P2PNetcat.NativeWebRTC
