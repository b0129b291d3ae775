import P2PNetcat.NativeWebRTC.Client

/-!
# The listener end of native WebRTC connections

Every peer runs `answerNativeOffer`, `activate` and `watch` one after the other
and has a program counter for them. A step is one section under `l.mu`, one
section under a link's mutex, or one turn of a loop. Grace timers and `closePeer`
callbacks are threads of their own.
-/

namespace P2PNetcat.NativeWebRTC
open Function ByteCodec StepSystem

/-- Where the goroutine of a peer is: before its offer is answered, in the loop of
`answerNativeOffer`, about to run `activate`, about to close the peer `activate` refused, bound
to a stream's entry before `Reconnected`, in `forwardFrames`, after it returned, at the end. -/
inductive ServerPoint where
  | answering
  | authenticating (challengeAnswered : Bool)
  | accepted
  | refused
  | rebinding (entry : Nat)
  | forwarding (entry : Nat)
  | returned (entry : Nat)
  | done
  deriving DecidableEq

def ServerPoint.afterHandshake : ServerPoint → Bool
  | .accepted | .refused | .rebinding _ | .forwarding _ | .returned _ => true
  | _ => false

/-- A peer the listener has answered, with the frames sent on it, taken from its queue and
passed to `Receive`. -/
structure ServerPeer where
  peer : NativePeer := {}
  offer : Signal := ⟨.offer, [], [], [], []⟩
  answerSDP : Bytes := []
  point : ServerPoint := .answering
  sent : List Frame := []
  dequeued : List Frame := []
  received : List Frame := []
  deriving DecidableEq

def ServerPeer.close (p : ServerPeer) : ServerPeer := { p with peer := p.peer.close }

def ServerPeer.transcript (p : ServerPeer) : AuthTranscript :=
  ⟨p.offer.sessionID, p.offer.sdp, p.answerSDP⟩

/-- `listenerStream` with the remote its callbacks captured. `timer` says that the field is set,
`pending` counts the grace callbacks that can still run. -/
structure ListenerStream where
  remote : Bytes := []
  stream : Stream := {}
  link : PeerLink := {}
  peer : Option Nat := none
  timer : Bool := false
  pending : Nat := 0
  deriving DecidableEq

/-- A `closePeer` callback of a listener's stream: before it takes `l.mu`, before it closes the
link, with the peer it took from the link, at the end. -/
inductive CloserPoint where
  | start | unlinked
  | closing (peer : Option Nat)
  | done
  deriving DecidableEq

structure ListenerCloser where
  entry : Nat := 0
  point : CloserPoint := .done
  deriving DecidableEq

/-- Streams, peers and callbacks are numbered in the order they were created; `streams` is the
listener's map, and `opened` lists the streams given to `onStream`. -/
structure Listener where
  closed : Bool := false
  streams : Bytes → Option Nat := fun _ => none
  entries : Nat → ListenerStream := fun _ => {}
  entryCount : Nat := 0
  peers : Nat → ServerPeer := fun _ => {}
  peerCount : Nat := 0
  closers : Nat → ListenerCloser := fun _ => {}
  closerCount : Nat := 0
  opened : List Nat := []

structure ListenerConfig (L : Libp2p) where
  privateKey : L.PrivKey
  service : UInt16

namespace Listener

inductive Event where
  | message (peer : Nat) (data : Bytes) (pickClosed : Bool)
  | lose (peer : Nat)
  | offer (value : Signal)
  | answer (peer : Nat) (sdp : Bytes)
  | authenticate (peer : Nat) (sent : Bool)
  | abandon (peer : Nat)
  | observeClosed (peer : Nat)
  | activate (peer : Nat) (stopped : Bool)
  | refuse (peer : Nat)
  | reconnected (peer : Nat) (err : Option String)
  | forward (peer : Nat) (pick : ForwardCase)
  | watch (peer : Nat)
  | expire (entry : Nat)
  | closeStream (entry : Nat)
  | closer (index : Nat)
  | fail (entry : Nat) (err : Option String)
  | send (entry : Nat) (control : Bool) (payload : Bytes)
  | shutdown (order : List Nat)
  deriving DecidableEq

def setPeer (l : Listener) (i : Nat) (p : ServerPeer) : Listener :=
  { l with peers := update l.peers i p }

def setEntry (l : Listener) (e : Nat) (entry : ListenerStream) : Listener :=
  { l with entries := update l.entries e entry }

def setCloser (l : Listener) (n : Nat) (c : ListenerCloser) : Listener :=
  { l with closers := update l.closers n c }

def closePeer (l : Listener) (i : Nat) : Listener := l.setPeer i (l.peers i).close

def closeTaken (l : Listener) (taken : Option Nat) : Listener :=
  match taken with
  | some i => l.closePeer i
  | none => l

def holds (l : Listener) (e : Nat) : Bool := decide (l.streams (l.entries e).remote = some e)

def delete (l : Listener) (e : Nat) : Listener :=
  { l with streams := update l.streams (l.entries e).remote none }

def handshakeFailed (l : Listener) (i : Nat) (p : ServerPeer) : Listener :=
  l.setPeer i { p.close with point := .done }

def offer (l : Listener) (value : Signal) : Listener :=
  { l.setPeer l.peerCount { offer := value } with peerCount := l.peerCount + 1 }

def answer (l : Listener) (i : Nat) (sdp : Bytes) : Option Listener :=
  match (l.peers i).point with
  | .answering =>
    if i < l.peerCount then
      some (l.setPeer i { l.peers i with answerSDP := sdp, point := .authenticating false })
    else none
  | _ => none

/-- One frame in the loop of `answerNativeOffer`; `sent` is the outcome of sending a response. -/
def authenticate (L : Libp2p) (cfg : ListenerConfig L) (l : Listener) (i : Nat) (sent : Bool) :
    Option Listener :=
  match (l.peers i).point, (l.peers i).peer.frames with
  | .authenticating challengeAnswered, frame :: rest =>
    let p := { l.peers i with
      peer := { (l.peers i).peer with frames := rest }
      dequeued := (l.peers i).dequeued ++ [frame] }
    if frame.type = frameAuthChallenge then
      match signAuthResponseV2 L (some cfg.privateKey) cfg.service frame.payload p.transcript with
      | .ok response =>
        if sent then
          some (l.setPeer i { p with
            sent := p.sent ++ [⟨frameAuthResponse, response⟩]
            point := .authenticating true })
        else some (l.handshakeFailed i p)
      | .error _ => some (l.handshakeFailed i p)
    else if frame.type = frameAuthReady then
      if challengeAnswered then some (l.setPeer i { p with point := .accepted })
      else some (l.handshakeFailed i p)
    else some (l.handshakeFailed i p)
  | _, _ => none

def abandon (l : Listener) (i : Nat) : Option Listener :=
  match (l.peers i).point with
  | .answering => if i < l.peerCount then some (l.handshakeFailed i (l.peers i)) else none
  | .authenticating _ => some (l.handshakeFailed i (l.peers i))
  | _ => none

def observeClosed (l : Listener) (i : Nat) : Option Listener :=
  match (l.peers i).point with
  | .authenticating _ =>
    if (l.peers i).peer.closed then some (l.setPeer i { l.peers i with point := .done }) else none
  | _ => none

/-- The section of `activate` under `l.mu`; `stopped` says that `Stop` came before the grace
callback had started. -/
def activate (l : Listener) (i : Nat) (stopped : Bool) : Option Listener :=
  match (l.peers i).point with
  | .accepted =>
    let remote := (l.peers i).offer.sender
    let refused := l.setPeer i { l.peers i with point := .refused }
    if l.closed then some refused
    else
      match l.streams remote with
      | none =>
        some { (l.setPeer i { l.peers i with point := .forwarding l.entryCount }).setEntry
            l.entryCount { remote, link := { peer := some i }, peer := some i } with
          streams := update l.streams remote (some l.entryCount)
          entryCount := l.entryCount + 1
          opened := l.opened ++ [l.entryCount] }
      | some e =>
        if (l.entries e).peer.isSome then some refused
        else
          match (l.entries e).link.attach i with
          | none => some refused
          | some link =>
            some ((l.setPeer i { l.peers i with point := .rebinding e }).setEntry e
              { l.entries e with
                link
                peer := some i
                timer := false
                pending :=
                  if (l.entries e).timer && stopped then (l.entries e).pending - 1
                  else (l.entries e).pending })
  | _ => none

def refuse (l : Listener) (i : Nat) : Option Listener :=
  match (l.peers i).point with
  | .refused => some (l.setPeer i { (l.peers i).close with point := .done })
  | _ => none

def startCloser (l : Listener) (e : Nat) : Listener :=
  { l.setCloser l.closerCount ⟨e, .start⟩ with closerCount := l.closerCount + 1 }

/-- `Reconnected` on a stream bound again; where it fails, `Reset` starts a `closePeer`. -/
def reconnected (l : Listener) (i : Nat) (err : Option String) : Option Listener :=
  match (l.peers i).point with
  | .rebinding e =>
    let stream := (l.entries e).stream.reconnected
    match err with
    | none =>
      some ((l.setPeer i { l.peers i with point := .forwarding e }).setEntry e
        { l.entries e with stream })
    | some _ =>
      some (((l.setPeer i { l.peers i with point := .done }).setEntry e
        { l.entries e with stream := stream.fail (some "native WebRTC stream reset") }).startCloser
          e)
  | _ => none

def forward (l : Listener) (i : Nat) (pick : ForwardCase) : Option Listener :=
  match (l.peers i).point with
  | .forwarding e =>
    match forwardFrames (l.peers i).peer (l.entries e).stream pick with
    | none => none
    | some (peer, stream, _, err) =>
      let taken := takenFrames (l.peers i).peer peer
      some ((l.setPeer i { l.peers i with
          peer
          dequeued := (l.peers i).dequeued ++ taken
          received := (l.peers i).received ++ taken
          point := if err.isSome then .returned e else .forwarding e }).setEntry e
        { l.entries e with stream })
  | _ => none

def watch (l : Listener) (i : Nat) : Option Listener :=
  match (l.peers i).point with
  | .returned e =>
    let finished := l.setPeer i { l.peers i with point := .done }
    if l.streams (l.peers i).offer.sender ≠ some e ∨ (l.entries e).peer ≠ some i then some finished
    else
      some (finished.setEntry e { l.entries e with
        link := (l.entries e).link.detach i
        peer := none
        timer := true
        pending := (l.entries e).pending + 1 })
  | _ => none

/-- Fails the stream, closes its link with the peer on it and takes it out of the map. -/
def terminate (l : Listener) (e : Nat) (err : String) : Listener :=
  ((l.setEntry e { l.entries e with
    stream := (l.entries e).stream.fail (some err)
    link := (l.entries e).link.close.1 }).closeTaken (l.entries e).link.close.2).delete e

def expire (l : Listener) (e : Nat) : Option Listener :=
  if (l.entries e).pending = 0 then none
  else
    let l' := l.setEntry e { l.entries e with pending := (l.entries e).pending - 1 }
    if l.holds e && (l.entries e).peer.isNone then
      some (l'.terminate e "native WebRTC peer did not reconnect within 120 seconds")
    else some l'

def closer (l : Listener) (n : Nat) : Option Listener :=
  let e := (l.closers n).entry
  match (l.closers n).point with
  | .start =>
    let l' := l.setCloser n ⟨e, .unlinked⟩
    some (if l.holds e then l'.delete e else l')
  | .unlinked =>
    let link := (l.entries e).link
    some ((l.setEntry e { l.entries e with link := link.close.1 }).setCloser n
      ⟨e, .closing link.close.2⟩)
  | .closing taken => some ((l.closeTaken taken).setCloser n ⟨e, .done⟩)
  | .done => none

def send (l : Listener) (e : Nat) (control : Bool) (payload : Bytes) : Option Listener :=
  match (l.entries e).link.peer with
  | some i =>
    let frame := if control then controlFrame payload else dataFrame payload
    some (l.setPeer i { l.peers i with sent := (l.peers i).sent ++ [frame] })
  | none => none

/-- The loop of `Listener.Close` over the map, which visits the streams in some order. -/
def terminateAll : List Nat → Listener → Listener
  | [], l => l
  | e :: order, l =>
    terminateAll order (if l.holds e then l.terminate e "context canceled" else l)

theorem terminateAll_invariant {I : Listener → Prop}
    (hterminate : ∀ {l e err}, I l → l.holds e = true → I (l.terminate e err)) (order : List Nat)
    {l : Listener} (h : I l) : I (terminateAll order l) := by
  induction order generalizing l with
  | nil => exact h
  | cons e order ih =>
    unfold terminateAll
    split
    · exact ih (hterminate h ‹_›)
    · exact ih h

def shutdown (l : Listener) (order : List Nat) : Option Listener :=
  if l.closed then none
  else if (List.range l.entryCount).all fun e => !l.holds e || order.contains e then
    some (terminateAll order { l with closed := true })
  else none

def message (l : Listener) (i : Nat) (data : Bytes) (pickClosed : Bool) : Option Listener :=
  if i < l.peerCount then
    some (l.setPeer i { l.peers i with peer := (l.peers i).peer.onMessage data pickClosed })
  else none

def step (L : Libp2p) (cfg : ListenerConfig L) (l : Listener) : Event → Option Listener
  | .message i data pickClosed => l.message i data pickClosed
  | .lose i => if i < l.peerCount then some (l.closePeer i) else none
  | .offer value => some (l.offer value)
  | .answer i sdp => l.answer i sdp
  | .authenticate i sent => l.authenticate L cfg i sent
  | .abandon i => l.abandon i
  | .observeClosed i => l.observeClosed i
  | .activate i stopped => l.activate i stopped
  | .refuse i => l.refuse i
  | .reconnected i err => l.reconnected i err
  | .forward i pick => l.forward i pick
  | .watch i => l.watch i
  | .expire e => l.expire e
  | .closeStream e => if e < l.entryCount then some (l.startCloser e) else none
  | .closer n => l.closer n
  | .fail e err =>
    if e < l.entryCount then
      some (l.setEntry e { l.entries e with stream := (l.entries e).stream.fail err })
    else none
  | .send e control payload => l.send e control payload
  | .shutdown order => l.shutdown order

section Accessors
variable (l : Listener) (taken : Option Nat)

@[simp] theorem closeTaken_closed : (l.closeTaken taken).closed = l.closed := by
  cases taken <;> rfl

@[simp] theorem closeTaken_streams : (l.closeTaken taken).streams = l.streams := by
  cases taken <;> rfl

@[simp] theorem closeTaken_entries : (l.closeTaken taken).entries = l.entries := by
  cases taken <;> rfl

@[simp] theorem closeTaken_peerCount : (l.closeTaken taken).peerCount = l.peerCount := by
  cases taken <;> rfl

@[simp] theorem closeTaken_closers : (l.closeTaken taken).closers = l.closers := by
  cases taken <;> rfl

theorem setEntry_closeTaken (e : Nat) (entry : ListenerStream) :
    (l.setEntry e entry).closeTaken taken = (l.closeTaken taken).setEntry e entry := by
  cases taken <;> rfl

end Accessors

/-- The peer after the loop of `answerNativeOffer` has taken a frame from its queue. -/
def taking (l : Listener) (i : Nat) (frame : Frame) (rest : List Frame) : ServerPeer :=
  { l.peers i with
    peer := { (l.peers i).peer with frames := rest }
    dequeued := (l.peers i).dequeued ++ [frame] }

section Inversion
variable {L : Libp2p} {cfg : ListenerConfig L} {l t : Listener} {ev : Event}

inductive Stepped (L : Libp2p) (cfg : ListenerConfig L) (l : Listener) : Event → Listener → Prop where
  | message {i : Nat} {data : Bytes} {pickClosed : Bool} : i < l.peerCount →
      Stepped L cfg l (.message i data pickClosed)
        (l.setPeer i { l.peers i with peer := (l.peers i).peer.onMessage data pickClosed })
  | lose {i : Nat} : Stepped L cfg l (.lose i) (l.closePeer i)
  | offer {value : Signal} : Stepped L cfg l (.offer value) (l.offer value)
  | answer {i : Nat} {sdp : Bytes} : (l.peers i).point = .answering → i < l.peerCount →
      Stepped L cfg l (.answer i sdp)
        (l.setPeer i { l.peers i with answerSDP := sdp, point := .authenticating false })
  | responded {i : Nat} {sent answered : Bool} {frame : Frame} {rest : List Frame}
      {response : Bytes} : (l.peers i).point = .authenticating answered →
      (l.peers i).peer.frames = frame :: rest → frame.type = frameAuthChallenge →
      signAuthResponseV2 L (some cfg.privateKey) cfg.service frame.payload
        (l.peers i).transcript = .ok response →
      Stepped L cfg l (.authenticate i sent) (l.setPeer i { l.taking i frame rest with
        sent := (l.peers i).sent ++ [⟨frameAuthResponse, response⟩]
        point := .authenticating true })
  | accepted {i : Nat} {sent : Bool} {frame : Frame} {rest : List Frame} :
      (l.peers i).point = .authenticating true → (l.peers i).peer.frames = frame :: rest →
      frame.type = frameAuthReady →
      Stepped L cfg l (.authenticate i sent)
        (l.setPeer i { l.taking i frame rest with point := .accepted })
  | denied {i : Nat} {sent answered : Bool} {frame : Frame} {rest : List Frame} :
      (l.peers i).point = .authenticating answered → (l.peers i).peer.frames = frame :: rest →
      Stepped L cfg l (.authenticate i sent) (l.handshakeFailed i (l.taking i frame rest))
  | abandoned {i : Nat} : ((l.peers i).point = .answering ∧ i < l.peerCount ∨
        ∃ answered, (l.peers i).point = .authenticating answered) →
      Stepped L cfg l (.abandon i) (l.handshakeFailed i (l.peers i))
  | observed {i : Nat} {answered : Bool} : (l.peers i).point = .authenticating answered →
      (l.peers i).peer.closed = true →
      Stepped L cfg l (.observeClosed i) (l.setPeer i { l.peers i with point := .done })
  | refused {i : Nat} {stopped : Bool} : (l.peers i).point = .accepted →
      (l.closed = true ∨ l.streams (l.peers i).offer.sender ≠ none) →
      Stepped L cfg l (.activate i stopped) (l.setPeer i { l.peers i with point := .refused })
  | created {i : Nat} {stopped : Bool} :
      (l.peers i).point = .accepted → l.closed = false →
      l.streams (l.peers i).offer.sender = none →
      Stepped L cfg l (.activate i stopped)
        { (l.setPeer i { l.peers i with point := .forwarding l.entryCount }).setEntry l.entryCount
            { remote := (l.peers i).offer.sender, link := { peer := some i }, peer := some i } with
          streams := update l.streams (l.peers i).offer.sender (some l.entryCount)
          entryCount := l.entryCount + 1
          opened := l.opened ++ [l.entryCount] }
  | attached {i e pending : Nat} {stopped : Bool} :
      (l.peers i).point = .accepted → l.streams (l.peers i).offer.sender = some e →
      (l.entries e).peer = none → (l.entries e).link.peer = none →
      Stepped L cfg l (.activate i stopped)
        ((l.setPeer i { l.peers i with point := .rebinding e }).setEntry e { l.entries e with
          link := { peer := some i }, peer := some i, timer := false, pending })
  | closedRefused {i : Nat} : (l.peers i).point = .refused →
      Stepped L cfg l (.refuse i) (l.setPeer i { (l.peers i).close with point := .done })
  | rebound {i e : Nat} : (l.peers i).point = .rebinding e →
      Stepped L cfg l (.reconnected i none)
        ((l.setPeer i { l.peers i with point := .forwarding e }).setEntry e
          { l.entries e with stream := (l.entries e).stream.reconnected })
  | reset {i e : Nat} {err : String} : (l.peers i).point = .rebinding e →
      Stepped L cfg l (.reconnected i (some err))
        (((l.setPeer i { l.peers i with point := .done }).setEntry e { l.entries e with
          stream := (l.entries e).stream.reconnected.fail
            (some "native WebRTC stream reset") }).startCloser e)
  | forwarded {i e : Nat} {pick : ForwardCase} {peer : NativePeer} {stream : Stream}
      {replies : List Bytes} {err : Option ForwardError} : (l.peers i).point = .forwarding e →
      forwardFrames (l.peers i).peer (l.entries e).stream pick = some (peer, stream, replies, err) →
      Stepped L cfg l (.forward i pick) ((l.setPeer i { l.peers i with
          peer
          dequeued := (l.peers i).dequeued ++ takenFrames (l.peers i).peer peer
          received := (l.peers i).received ++ takenFrames (l.peers i).peer peer
          point := if err.isSome then .returned e else .forwarding e }).setEntry e
        { l.entries e with stream })
  | finished {i e : Nat} : (l.peers i).point = .returned e →
      (l.streams (l.peers i).offer.sender ≠ some e ∨ (l.entries e).peer ≠ some i) →
      Stepped L cfg l (.watch i) (l.setPeer i { l.peers i with point := .done })
  | detached {i e : Nat} : (l.peers i).point = .returned e →
      l.streams (l.peers i).offer.sender = some e → (l.entries e).peer = some i →
      Stepped L cfg l (.watch i) ((l.setPeer i { l.peers i with point := .done }).setEntry e
        { l.entries e with
          link := (l.entries e).link.detach i
          peer := none
          timer := true
          pending := (l.entries e).pending + 1 })
  | lapsed {e : Nat} : Stepped L cfg l (.expire e)
      (l.setEntry e { l.entries e with pending := (l.entries e).pending - 1 })
  | expired {e : Nat} : l.holds e = true → (l.entries e).peer = none →
      Stepped L cfg l (.expire e)
        ((l.setEntry e { l.entries e with pending := (l.entries e).pending - 1 }).terminate e
          "native WebRTC peer did not reconnect within 120 seconds")
  | closing {e : Nat} : e < l.entryCount → Stepped L cfg l (.closeStream e) (l.startCloser e)
  | unlinked {n : Nat} : (l.closers n).point = .start →
      Stepped L cfg l (.closer n)
        (if l.holds (l.closers n).entry then
          (l.setCloser n ⟨(l.closers n).entry, .unlinked⟩).delete (l.closers n).entry
        else l.setCloser n ⟨(l.closers n).entry, .unlinked⟩)
  | linkClosed {n : Nat} : (l.closers n).point = .unlinked →
      Stepped L cfg l (.closer n) ((l.setEntry (l.closers n).entry
        { l.entries (l.closers n).entry with
          link := (l.entries (l.closers n).entry).link.close.1 }).setCloser n
            ⟨(l.closers n).entry, .closing (l.entries (l.closers n).entry).link.close.2⟩)
  | peerClosed {n : Nat} {taken : Option Nat} : (l.closers n).point = .closing taken →
      Stepped L cfg l (.closer n) ((l.closeTaken taken).setCloser n ⟨(l.closers n).entry, .done⟩)
  | failed {e : Nat} {err : Option String} : e < l.entryCount →
      Stepped L cfg l (.fail e err)
        (l.setEntry e { l.entries e with stream := (l.entries e).stream.fail err })
  | sent {e i : Nat} {control : Bool} {payload : Bytes} {frame : Frame} :
      (l.entries e).link.peer = some i →
      Stepped L cfg l (.send e control payload)
        (l.setPeer i { l.peers i with sent := (l.peers i).sent ++ [frame] })
  | shutdown {order : List Nat} :
      Stepped L cfg l (.shutdown order) (terminateAll order { l with closed := true })

theorem Stepped.authenticate {i : Nat} {sent : Bool} (ht : l.authenticate L cfg i sent = some t) :
    Stepped L cfg l (.authenticate i sent) t := by
  unfold Listener.authenticate at ht
  split at ht
  next answered frame rest hp hframes =>
    dsimp only at ht
    split at ht
    next htype =>
      split at ht
      next response hsign =>
        split at ht
        · cases ht
          exact .responded hp hframes htype hsign
        · cases ht
          exact .denied hp hframes
      · cases ht
        exact .denied hp hframes
    · split at ht
      next htype =>
        split at ht
        next hanswered =>
          cases ht
          subst hanswered
          exact .accepted hp hframes htype
        · cases ht
          exact .denied hp hframes
      · cases ht
        exact .denied hp hframes
  · cases ht

theorem Stepped.activate {i : Nat} {stopped : Bool} (ht : l.activate i stopped = some t) :
    Stepped L cfg l (.activate i stopped) t := by
  unfold Listener.activate at ht
  split at ht
  next hp =>
    dsimp only at ht
    split at ht
    next hclosed =>
      cases ht
      exact .refused hp (.inl hclosed)
    rename_i hopen
    split at ht
    next hnone =>
      cases ht
      exact .created hp (by simpa using hopen) hnone
    next e hstream =>
      have hsome : l.streams (l.peers i).offer.sender ≠ none := by simp [hstream]
      split at ht
      · cases ht
        exact .refused hp (.inr hsome)
      rename_i hfree
      split at ht
      · cases ht
        exact .refused hp (.inr hsome)
      rename_i link hattach
      cases ht
      obtain ⟨_, hempty, rfl⟩ := PeerLink.attach_eq_some hattach
      exact .attached hp hstream (by simpa using hfree) hempty
  · cases ht

theorem stepped_of_step (ht : l.step L cfg ev = some t) : Stepped L cfg l ev t := by
  cases ev with
  | message i data pickClosed =>
    obtain ⟨hi, rfl⟩ := guard_eq_some.mp ht
    exact .message hi
  | lose i =>
    obtain ⟨-, rfl⟩ := guard_eq_some.mp ht
    exact .lose
  | offer value =>
    cases ht
    exact .offer
  | answer i sdp =>
    simp only [step, answer] at ht
    split at ht
    next hp =>
      obtain ⟨hi, rfl⟩ := guard_eq_some.mp ht
      exact .answer hp hi
    · cases ht
  | authenticate i sent => exact .authenticate ht
  | abandon i =>
    simp only [step, abandon] at ht
    split at ht
    next hp =>
      obtain ⟨hi, rfl⟩ := guard_eq_some.mp ht
      exact .abandoned (.inl ⟨hp, hi⟩)
    next answered hp =>
      cases ht
      exact .abandoned (.inr ⟨answered, hp⟩)
    · cases ht
  | observeClosed i =>
    simp only [step, observeClosed] at ht
    split at ht
    next answered hp =>
      obtain ⟨hclosed, rfl⟩ := guard_eq_some.mp ht
      exact .observed hp hclosed
    · cases ht
  | activate i stopped => exact .activate ht
  | refuse i =>
    simp only [step, refuse] at ht
    split at ht
    next hp =>
      cases ht
      exact .closedRefused hp
    · cases ht
  | reconnected i err =>
    simp only [step, reconnected] at ht
    split at ht
    next e hp =>
      split at ht
      · cases ht
        exact .rebound hp
      · cases ht
        exact .reset hp
    · cases ht
  | forward i pick =>
    simp only [step, forward] at ht
    split at ht
    next e hp =>
      split at ht
      · cases ht
      rename_i peer stream replies err hturn
      cases ht
      exact .forwarded hp hturn
    · cases ht
  | watch i =>
    simp only [step, watch] at ht
    split at ht
    next e hp =>
      split at ht
      next hstale =>
        cases ht
        exact .finished hp hstale
      next hcurrent =>
        simp only [not_or, not_not] at hcurrent
        cases ht
        exact .detached hp hcurrent.1 hcurrent.2
    · cases ht
  | expire e =>
    obtain ⟨-, ht⟩ := Option.ite_none_left_eq_some.mp ht
    dsimp only at ht
    split at ht
    next hcond =>
      simp only [Bool.and_eq_true, Option.isNone_iff_eq_none] at hcond
      cases ht
      exact .expired hcond.1 hcond.2
    · cases ht
      exact .lapsed
  | closeStream e =>
    obtain ⟨he, rfl⟩ := guard_eq_some.mp ht
    exact .closing he
  | closer n =>
    simp only [step, closer] at ht
    split at ht
    next hp =>
      cases ht
      exact .unlinked hp
    next hp =>
      cases ht
      exact .linkClosed hp
    next taken hp =>
      cases ht
      exact .peerClosed hp
    · cases ht
  | fail e err =>
    obtain ⟨he, rfl⟩ := guard_eq_some.mp ht
    exact .failed he
  | send e control payload =>
    simp only [step, send] at ht
    split at ht
    next i hi =>
      cases ht
      exact .sent hi
    · cases ht
  | shutdown order =>
    obtain ⟨-, ht⟩ := Option.ite_none_left_eq_some.mp ht
    obtain ⟨-, rfl⟩ := guard_eq_some.mp ht
    exact .shutdown

end Inversion

end Listener

end P2PNetcat.NativeWebRTC
