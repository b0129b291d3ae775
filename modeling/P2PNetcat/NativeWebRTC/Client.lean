import P2PNetcat.Library.StepSystem
import P2PNetcat.NativeWebRTC.Stream

/-!
# The client end of a native WebRTC connection

`connectWithSession`, `dialAuthenticatedPeer` and `superviseClientConnection` as
one program counter, beside the callbacks of every peer it has dialled and the
thread that closes the connection. What the network, the signaling adapter, the
random source and the scheduler decide is carried by the events.
-/

namespace P2PNetcat.NativeWebRTC
open ByteCodec StepSystem

inductive SignalType where
  | offer | answer | bye | other
  deriving DecidableEq

structure Signal where
  type : SignalType
  sessionID : Bytes
  sender : Bytes
  recipient : Bytes
  sdp : Bytes
  deriving DecidableEq

/-- A peer the client has dialled, with the history of its connection: the session its offer
was published under, the descriptions set on it, the frames sent on it, taken from its queue
and passed to `Receive`, and whether `dialAuthenticatedPeer` returned it. -/
structure ClientPeer where
  peer : NativePeer := {}
  sessionID : Bytes := []
  localSDP : Option Bytes := none
  remoteSDP : Option Bytes := none
  sent : List Frame := []
  dequeued : List Frame := []
  received : List Frame := []
  returned : Bool := false
  deriving DecidableEq

def ClientPeer.close (p : ClientPeer) : ClientPeer := { p with peer := p.peer.close }

structure Dial where
  sessionID : Bytes
  offerSDP : Bytes := []
  transcript : AuthTranscript := ⟨[], [], []⟩
  challenge : Bytes := []
  deriving DecidableEq

/-- Where `dialAuthenticatedPeer` waits: for its offer to be published, for an answer, for the
data channel to open, for the response to its challenge. -/
inductive DialPoint where
  | offer | answer | opening | response
  deriving DecidableEq

/-- Where the client is: between two dials, in a dial, with a peer a dial returned, with that
peer attached before `Reconnected`, in `forwardFrames`, after it returned, about to close the
link after a failure, about to close the peer it took from the link, at the end. -/
inductive Supervisor where
  | detached
  | dialing (peer : Nat) (dial : Dial) (point : DialPoint)
  | dialed (peer : Nat)
  | rebinding (peer : Nat)
  | forwarding (peer : Nat)
  | returned (peer : Nat)
  | failed
  | closing (peer : Option Nat)
  | stopped
  deriving DecidableEq

/-- The `closePeer` callback, which runs once: it cancels, closes the link, then the peer. -/
inductive Closer where
  | idle | cancelled
  | closing (peer : Option Nat)
  | done
  deriving DecidableEq

structure Client where
  peers : Nat → ClientPeer := fun _ => {}
  dials : Nat := 0
  link : Option PeerLink := none
  stream : Stream := {}
  supervisor : Supervisor := .detached
  closer : Closer := .idle
  cancelled : Bool := false

structure ClientConfig where
  expected : PeerID
  service : UInt16
  signalingID : Bytes
  deriving DecidableEq

namespace Client

inductive Event where
  | message (peer : Nat) (data : Bytes) (pickClosed : Bool)
  | lose (peer : Nat)
  | dial (sessionID : Bytes)
  | publishOffer (sdp : Bytes)
  | signal (value : Signal) (applied : Bool)
  | opened (challenge : Bytes) (sent : Bool)
  | response (readySent : Bool)
  | abandonDial
  | bind
  | reconnected (err : Option String)
  | forward (pick : ForwardCase)
  | detach
  | giveUp
  | closeLink
  | closeTaken
  | cancel
  | cancelLink
  | cancelTaken
  | fail (err : Option String)
  | send (control : Bool) (payload : Bytes)
  deriving DecidableEq

def setPeer (c : Client) (k : Nat) (p : ClientPeer) : Client :=
  { c with peers := Function.update c.peers k p }

def closePeer (c : Client) (k : Nat) : Client := c.setPeer k (c.peers k).close

def closeTaken (c : Client) (taken : Option Nat) : Client :=
  match taken with
  | some k => c.closePeer k
  | none => c

/-- A dial that fails closes its peer; the first one ends the attempt, a later one is retried. -/
def dialFailed (c : Client) (k : Nat) : Client :=
  { c.closePeer k with supervisor := if c.link.isSome then .detached else .stopped }

def dial (c : Client) (sessionID : Bytes) : Option Client :=
  match c.supervisor with
  | .detached =>
    some { c.setPeer c.dials { sessionID } with
      dials := c.dials + 1
      supervisor := .dialing c.dials { sessionID } .offer }
  | _ => none

def publishOffer (c : Client) (sdp : Bytes) : Option Client :=
  match c.supervisor with
  | .dialing k d .offer =>
    some { c.setPeer k { c.peers k with localSDP := some sdp } with
      supervisor := .dialing k { d with offerSDP := sdp } .answer }
  | _ => none

/-- A signal in the answer loop; `applied` says whether `acceptAnswer` succeeded. -/
def signal (cfg : ClientConfig) (c : Client) (value : Signal) (applied : Bool) : Option Client :=
  match c.supervisor with
  | .dialing k d .answer =>
    if value.sessionID ≠ d.sessionID ∨ value.recipient ≠ cfg.signalingID then some c
    else if value.type ≠ .answer then some c
    else if !applied then some (c.dialFailed k)
    else
      some { c.setPeer k { c.peers k with remoteSDP := some value.sdp } with
        supervisor := .dialing k
          { d with transcript := ⟨d.sessionID, d.offerSDP, value.sdp⟩ } .opening }
  | _ => none

def opened (c : Client) (challenge : Bytes) (sent : Bool) : Option Client :=
  match c.supervisor with
  | .dialing k d .opening =>
    if challenge.length ≠ 32 then none
    else if !sent then some (c.dialFailed k)
    else
      some { c.setPeer k { c.peers k with
          sent := (c.peers k).sent ++ [⟨frameAuthChallenge, challenge⟩] } with
        supervisor := .dialing k { d with challenge } .response }
  | _ => none

def response (L : Libp2p) (cfg : ClientConfig) (c : Client) (readySent : Bool) : Option Client :=
  match c.supervisor with
  | .dialing k d .response =>
    match (c.peers k).peer.frames with
    | [] => none
    | frame :: rest =>
      let p := { c.peers k with
        peer := { (c.peers k).peer with frames := rest }
        dequeued := (c.peers k).dequeued ++ [frame] }
      if frame.type ≠ frameAuthResponse then some ((c.setPeer k p).dialFailed k)
      else
        match verifyAuthResponseV2 L frame.payload cfg.expected cfg.service d.challenge
            d.transcript with
        | .ok true =>
          if readySent then
            some { c.setPeer k { p with
                sent := p.sent ++ [⟨frameAuthReady, []⟩]
                returned := true } with
              supervisor := .dialed k }
          else some ((c.setPeer k p).dialFailed k)
        | _ => some ((c.setPeer k p).dialFailed k)
  | _ => none

def abandonDial (c : Client) : Option Client :=
  match c.supervisor with
  | .dialing k _ _ => some (c.dialFailed k)
  | _ => none

/-- The first peer gets a new link and stream; a later one is attached to the link. -/
def bind (c : Client) : Option Client :=
  match c.supervisor with
  | .dialed k =>
    match c.link with
    | none => some { c with link := some { peer := some k }, supervisor := .forwarding k }
    | some link =>
      match link.attach k with
      | some link' => some { c with link := some link', supervisor := .rebinding k }
      | none =>
        some { c with
          stream := c.stream.fail
            (some "native WebRTC peer did not reconnect within 120 seconds")
          supervisor := .failed }
  | _ => none

/-- `Reconnected`; `err` is the error of sending its control texts. -/
def reconnected (c : Client) (err : Option String) : Option Client :=
  match c.supervisor with
  | .rebinding k =>
    match err with
    | none => some { c with stream := c.stream.reconnected, supervisor := .forwarding k }
    | some err =>
      some { c with stream := c.stream.reconnected.fail (some err), supervisor := .failed }
  | _ => none

def forward (c : Client) (pick : ForwardCase) : Option Client :=
  match c.supervisor with
  | .forwarding k =>
    match forwardFrames (c.peers k).peer c.stream pick with
    | none => none
    | some (peer, stream, _, err) =>
      let taken := takenFrames (c.peers k).peer peer
      some { c.setPeer k { c.peers k with
          peer
          dequeued := (c.peers k).dequeued ++ taken
          received := (c.peers k).received ++ taken } with
        stream
        supervisor := if err.isSome then .returned k else .forwarding k }
  | _ => none

/-- After `forwardFrames`: the end if the connection was cancelled, else `Detach`. -/
def detach (c : Client) : Option Client :=
  match c.supervisor with
  | .returned k =>
    if c.cancelled then some { c with supervisor := .stopped }
    else some { c with link := c.link.map (·.detach k), supervisor := .detached }
  | _ => none

/-- The reconnect grace has passed, or the connection was cancelled, with no peer dialled. -/
def giveUp (c : Client) : Option Client :=
  match c.supervisor with
  | .detached =>
    if c.link.isSome then
      some { c with
        stream := c.stream.fail (some "native WebRTC peer did not reconnect within 120 seconds")
        supervisor := .failed }
    else none
  | _ => none

/-- The locked part of the supervisor's `link.Close`, then `peer.Close`. -/
def supervisorClose (c : Client) : Option Client :=
  match c.supervisor, c.link with
  | .failed, some link =>
    some { c with link := some link.close.1, supervisor := .closing link.close.2 }
  | _, _ => none

def supervisorCloseTaken (c : Client) : Option Client :=
  match c.supervisor with
  | .closing taken => some { c.closeTaken taken with supervisor := .stopped }
  | _ => none

def cancel (c : Client) : Option Client :=
  match c.closer with
  | .idle => if c.link.isSome then some { c with cancelled := true, closer := .cancelled } else none
  | _ => none

def cancelLink (c : Client) : Option Client :=
  match c.closer, c.link with
  | .cancelled, some link =>
    some { c with link := some link.close.1, closer := .closing link.close.2 }
  | _, _ => none

def cancelTaken (c : Client) : Option Client :=
  match c.closer with
  | .closing taken => some { c.closeTaken taken with closer := .done }
  | _ => none

def send (c : Client) (control : Bool) (payload : Bytes) : Option Client :=
  match c.link.bind (·.peer) with
  | some k =>
    let frame := if control then controlFrame payload else dataFrame payload
    some (c.setPeer k { c.peers k with sent := (c.peers k).sent ++ [frame] })
  | none => none

def message (c : Client) (k : Nat) (data : Bytes) (pickClosed : Bool) : Option Client :=
  if k < c.dials then
    some (c.setPeer k { c.peers k with peer := (c.peers k).peer.onMessage data pickClosed })
  else none

def step (L : Libp2p) (cfg : ClientConfig) (c : Client) : Event → Option Client
  | .message k data pickClosed => c.message k data pickClosed
  | .lose k => if k < c.dials then some (c.closePeer k) else none
  | .dial sessionID => c.dial sessionID
  | .publishOffer sdp => c.publishOffer sdp
  | .signal value applied => c.signal cfg value applied
  | .opened challenge sent => c.opened challenge sent
  | .response readySent => c.response L cfg readySent
  | .abandonDial => c.abandonDial
  | .bind => c.bind
  | .reconnected err => c.reconnected err
  | .forward pick => c.forward pick
  | .detach => c.detach
  | .giveUp => c.giveUp
  | .closeLink => c.supervisorClose
  | .closeTaken => c.supervisorCloseTaken
  | .cancel => c.cancel
  | .cancelLink => c.cancelLink
  | .cancelTaken => c.cancelTaken
  | .fail err => some { c with stream := c.stream.fail err }
  | .send control payload => c.send control payload

/-- What a step does, with what it found; a dial that fails has at most taken a frame. -/
inductive Moved (L : Libp2p) (cfg : ClientConfig) (c : Client) : Event → Client → Prop where
  | message {k : Nat} {data : Bytes} {pickClosed : Bool} :
      Moved L cfg c (.message k data pickClosed)
        (c.setPeer k { c.peers k with peer := (c.peers k).peer.onMessage data pickClosed })
  | lose {k : Nat} : Moved L cfg c (.lose k) (c.closePeer k)
  | dial {sessionID : Bytes} : c.supervisor = .detached →
      Moved L cfg c (.dial sessionID)
        { c.setPeer c.dials { sessionID } with
          dials := c.dials + 1
          supervisor := .dialing c.dials { sessionID } .offer }
  | publishOffer {sdp : Bytes} {k : Nat} {d : Dial} : c.supervisor = .dialing k d .offer →
      Moved L cfg c (.publishOffer sdp)
        { c.setPeer k { c.peers k with localSDP := some sdp } with
          supervisor := .dialing k { d with offerSDP := sdp } .answer }
  | passed {value : Signal} {applied : Bool} : Moved L cfg c (.signal value applied) c
  | answered {value : Signal} {k : Nat} {d : Dial} : c.supervisor = .dialing k d .answer →
      Moved L cfg c (.signal value true)
        { c.setPeer k { c.peers k with remoteSDP := some value.sdp } with
          supervisor := .dialing k
            { d with transcript := ⟨d.sessionID, d.offerSDP, value.sdp⟩ } .opening }
  | opened {challenge : Bytes} {k : Nat} {d : Dial} : c.supervisor = .dialing k d .opening →
      challenge.length = 32 →
      Moved L cfg c (.opened challenge true)
        { c.setPeer k { c.peers k with
            sent := (c.peers k).sent ++ [⟨frameAuthChallenge, challenge⟩] } with
          supervisor := .dialing k { d with challenge } .response }
  | verified {k : Nat} {d : Dial} {frame : Frame} {peer : NativePeer} :
      c.supervisor = .dialing k d .response → frame.type = frameAuthResponse →
      verifyAuthResponseV2 L frame.payload cfg.expected cfg.service d.challenge d.transcript =
        .ok true →
      Moved L cfg c (.response true)
        { c.setPeer k { c.peers k with
            peer
            dequeued := (c.peers k).dequeued ++ [frame]
            sent := (c.peers k).sent ++ [⟨frameAuthReady, []⟩]
            returned := true } with
          supervisor := .dialed k }
  | dialFailed {e : Event} {k : Nat} {d : Dial} {point : DialPoint} {peer : NativePeer}
      {dequeued : List Frame} : c.supervisor = .dialing k d point →
      Moved L cfg c e ((c.setPeer k { c.peers k with peer, dequeued }).dialFailed k)
  | bound {k : Nat} {sup : Supervisor} : c.supervisor = .dialed k →
      sup = .forwarding k ∨ sup = .rebinding k →
      Moved L cfg c .bind { c with link := some { peer := some k }, supervisor := sup }
  | refused {k : Nat} {link : PeerLink} {stream : Stream} : c.supervisor = .dialed k →
      c.link = some link → link.attach k = none →
      Moved L cfg c .bind { c with stream, supervisor := .failed }
  | reconnected {err : Option String} {k : Nat} {stream : Stream} {sup : Supervisor} :
      c.supervisor = .rebinding k → sup = .forwarding k ∨ sup = .failed →
      Moved L cfg c (.reconnected err) { c with stream, supervisor := sup }
  | forward {pick : ForwardCase} {k : Nat} {peer : NativePeer} {stream : Stream}
      {replies : List Bytes} {err : Option ForwardError} : c.supervisor = .forwarding k →
      forwardFrames (c.peers k).peer c.stream pick = some (peer, stream, replies, err) →
      Moved L cfg c (.forward pick)
        { c.setPeer k { c.peers k with
            peer
            dequeued := (c.peers k).dequeued ++ takenFrames (c.peers k).peer peer
            received := (c.peers k).received ++ takenFrames (c.peers k).peer peer } with
          stream
          supervisor := if err.isSome then .returned k else .forwarding k }
  | ended {k : Nat} : c.supervisor = .returned k → c.cancelled = true →
      Moved L cfg c .detach { c with supervisor := .stopped }
  | detach {k : Nat} : c.supervisor = .returned k → c.cancelled = false →
      Moved L cfg c .detach { c with link := c.link.map (·.detach k), supervisor := .detached }
  | giveUp {stream : Stream} : c.supervisor = .detached →
      Moved L cfg c .giveUp { c with stream, supervisor := .failed }
  | closeLink {link : PeerLink} : c.supervisor = .failed → c.link = some link →
      Moved L cfg c .closeLink
        { c with link := some link.close.1, supervisor := .closing link.close.2 }
  | closeTaken {taken : Option Nat} : c.supervisor = .closing taken →
      Moved L cfg c .closeTaken { c.closeTaken taken with supervisor := .stopped }
  | cancel : c.closer = .idle →
      Moved L cfg c .cancel { c with cancelled := true, closer := .cancelled }
  | cancelLink {link : PeerLink} : c.closer = .cancelled → c.link = some link →
      Moved L cfg c .cancelLink
        { c with link := some link.close.1, closer := .closing link.close.2 }
  | cancelTaken {taken : Option Nat} : c.closer = .closing taken →
      Moved L cfg c .cancelTaken { c.closeTaken taken with closer := .done }
  | fail {err : Option String} : Moved L cfg c (.fail err) { c with stream := c.stream.fail err }
  | send {control : Bool} {payload : Bytes} {k : Nat} : c.link.bind (·.peer) = some k →
      Moved L cfg c (.send control payload) (c.setPeer k { c.peers k with
        sent := (c.peers k).sent ++
          [if control then controlFrame payload else dataFrame payload] })

section Inversion
variable {L : Libp2p} {cfg : ClientConfig} {c t : Client}

theorem Moved.dialFailed_same {e : Event} {k : Nat} {d : Dial} {point : DialPoint}
    (hs : c.supervisor = .dialing k d point) : Moved L cfg c e (c.dialFailed k) := by
  have hself : c.setPeer k { c.peers k with } = c := by simp [setPeer]
  have hmoved : Moved L cfg c e ((c.setPeer k { c.peers k with }).dialFailed k) := .dialFailed hs
  rwa [hself] at hmoved

theorem moved_of_response {readySent : Bool} (ht : c.response L cfg readySent = some t) :
    Moved L cfg c (.response readySent) t := by
  unfold response at ht
  split at ht
  next k d hs =>
    split at ht
    · cases ht
    rename_i frame rest hframes
    dsimp only at ht
    split at ht
    · cases ht
      exact .dialFailed hs
    rename_i htype
    split at ht
    next hverify =>
      split at ht
      next hsent =>
        cases ht
        subst hsent
        exact .verified hs (not_not.mp htype) hverify
      · cases ht
        exact .dialFailed hs
    · cases ht
      exact .dialFailed hs
  · cases ht

theorem moved_of_signal {value : Signal} {applied : Bool}
    (ht : c.signal cfg value applied = some t) : Moved L cfg c (.signal value applied) t := by
  unfold signal at ht
  split at ht
  next k d hs =>
    split at ht
    · cases ht
      exact .passed
    split at ht
    · cases ht
      exact .passed
    cases applied with
    | false =>
      cases ht
      exact .dialFailed_same hs
    | true =>
      cases ht
      exact .answered hs
  · cases ht

theorem moved_of_bind (ht : c.bind = some t) : Moved L cfg c .bind t := by
  unfold bind at ht
  split at ht
  next k hs =>
    split at ht
    · cases ht
      exact .bound hs (.inl rfl)
    rename_i link hl
    split at ht
    next link' hattach =>
      obtain ⟨_, _, rfl⟩ := PeerLink.attach_eq_some hattach
      cases ht
      exact .bound hs (.inr rfl)
    next hattach =>
      cases ht
      exact .refused hs hl hattach
  · cases ht

theorem moved_of_step {e : Event} (ht : c.step L cfg e = some t) : Moved L cfg c e t := by
  cases e with
  | message k data pickClosed =>
    obtain ⟨_, rfl⟩ := guard_eq_some.mp ht
    exact .message
  | lose k =>
    obtain ⟨_, rfl⟩ := guard_eq_some.mp ht
    exact .lose
  | dial sessionID =>
    simp only [step, dial] at ht
    split at ht <;> cases ht
    exact .dial ‹_›
  | publishOffer sdp =>
    simp only [step, publishOffer] at ht
    split at ht <;> cases ht
    exact .publishOffer ‹_›
  | signal value applied => exact moved_of_signal ht
  | opened challenge sent =>
    simp only [step, opened] at ht
    split at ht
    next k d hs =>
      obtain ⟨hlength, ht⟩ := Option.ite_none_left_eq_some.mp ht
      cases sent with
      | false =>
        cases ht
        exact .dialFailed_same hs
      | true =>
        cases ht
        exact .opened hs (not_not.mp hlength)
    · cases ht
  | response readySent => exact moved_of_response ht
  | abandonDial =>
    simp only [step, abandonDial] at ht
    split at ht <;> cases ht
    exact .dialFailed_same ‹_›
  | bind => exact moved_of_bind ht
  | reconnected err =>
    simp only [step, reconnected] at ht
    split at ht
    next k hs =>
      cases err with
      | none =>
        cases ht
        exact .reconnected hs (.inl rfl)
      | some err =>
        cases ht
        exact .reconnected hs (.inr rfl)
    · cases ht
  | forward pick =>
    simp only [step, forward] at ht
    split at ht
    next k hs =>
      split at ht <;> cases ht
      exact .forward hs ‹_›
    · cases ht
  | detach =>
    simp only [step, detach] at ht
    split at ht
    next k hs =>
      split at ht
      · cases ht
        exact .ended hs ‹_›
      · cases ht
        exact .detach hs (Bool.eq_false_of_not_eq_true ‹_›)
    · cases ht
  | giveUp =>
    simp only [step, giveUp] at ht
    split at ht
    next hs =>
      obtain ⟨_, rfl⟩ := guard_eq_some.mp ht
      exact .giveUp hs
    · cases ht
  | closeLink =>
    simp only [step, supervisorClose] at ht
    split at ht <;> cases ht
    exact .closeLink ‹_› ‹_›
  | closeTaken =>
    simp only [step, supervisorCloseTaken] at ht
    split at ht <;> cases ht
    exact .closeTaken ‹_›
  | cancel =>
    simp only [step, cancel] at ht
    split at ht
    next hs =>
      obtain ⟨_, rfl⟩ := guard_eq_some.mp ht
      exact .cancel hs
    · cases ht
  | cancelLink =>
    simp only [step, cancelLink] at ht
    split at ht <;> cases ht
    exact .cancelLink ‹_› ‹_›
  | cancelTaken =>
    simp only [step, cancelTaken] at ht
    split at ht <;> cases ht
    exact .cancelTaken ‹_›
  | fail err =>
    cases ht
    exact .fail
  | send control payload =>
    simp only [step, send] at ht
    split at ht <;> cases ht
    exact .send ‹_›

end Inversion

end Client

end P2PNetcat.NativeWebRTC
