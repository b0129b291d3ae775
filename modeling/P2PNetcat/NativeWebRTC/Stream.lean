import P2PNetcat.NativeWebRTC.Wire

/-!
# The logical byte stream over a framed data channel

Each function is one section of `stream.go` that runs under a single mutex, or
between two of them. Sending is left to the caller: a function returns the
control texts it sends.

A peer's callbacks fill a bounded queue, and `forwardFrames` selects between it
and the close. Go's `select` takes any ready case, so the case is an argument.
-/

namespace P2PNetcat.NativeWebRTC
open List ByteCodec

def flowWindowBytes : Nat := 256 * 1024
def maxReadQueueBytes : Nat := 1024 * 1024

structure Stream where
  readQueue : List Bytes := []
  readQueued : Int := 0
  readOffset : Nat := 0
  readErr : Option String := none
  closedRead : Bool := false
  writeClosed : Bool := false
  closed : Bool := false
  flowEnabled : Bool := false
  inFlight : Int := 0
  deriving DecidableEq

def dataFrame (payload : Bytes) : Frame := ⟨frameData, payload⟩
def controlFrame (control : Bytes) : Frame := ⟨frameControl, control⟩

def ackControl (count : Nat) : Bytes := ascii "ack:" ++ decimal count

/-- What `receiveControl` distinguishes; `ack` holds a positive number. -/
inductive Control where
  | eof | abort | flow | resume | ping
  | ack (value : Nat)
  | other
  deriving DecidableEq

def ackValue (control : Bytes) : Option Nat :=
  match control with
  | 0x61 :: 0x63 :: 0x6b :: 0x3a :: digits =>
    match parseInt (digits.map charOf) with
    | some value => if value > 0 then some value.toNat else none
    | none => none
  | _ => none

def Control.ofText (control : Bytes) : Control :=
  if control = ascii "eof" then .eof
  else if control = ascii "abort" then .abort
  else if control = ascii "flow:1" then .flow
  else if control = ascii "resume" then .resume
  else
    match ackValue control with
    | some value => .ack value
    | none => if control = ascii "ping" then .ping else .other

theorem ofText_ackControl {count : Nat} (h : count < 2 ^ 63) :
    Control.ofText (ackControl count) = if 0 < count then .ack count else .other := by
  have hack : ackValue (ackControl count) = if 0 < count then some count else none := by
    change (match parseInt ((decimal count).map charOf) with
      | some value => if value > 0 then some value.toNat else none
      | none => none) = _
    rw [map_charOf_decimal, parseInt_toDigits h]
    simp
  have hhead : ∃ rest, ackControl count = 0x61 :: 0x63 :: 0x6b :: 0x3a :: rest := ⟨_, rfl⟩
  obtain ⟨rest, hrest⟩ := hhead
  have hne : ∀ control : Bytes, control.take 2 ≠ [0x61, 0x63] → ackControl count ≠ control := by
    intro control hcontrol heq
    apply hcontrol
    rw [← heq, hrest]
    rfl
  unfold Control.ofText
  rw [if_neg (hne _ (by decide)), if_neg (hne _ (by decide)), if_neg (hne _ (by decide)),
    if_neg (hne _ (by decide)), hack]
  split
  next value hv =>
    split at hv
    next hpos =>
      cases hv
      rw [if_pos hpos]
    · cases hv
  next hv =>
    split at hv
    · cases hv
    next hpos =>
      rw [if_neg hpos, if_neg (hne _ (by decide))]

namespace Stream
variable {s : Stream}

/-- `fail`; an `err` of `none` stands for `io.EOF`. -/
def fail (s : Stream) (err : Option String) : Stream :=
  if s.closed then s
  else { s with
    closed := true
    closedRead := true
    readErr := err.or s.readErr
    writeClosed := true }

/-- The outcomes of `Read`: it waits, ends, fails, or returns bytes and the
control text of the acknowledgement it starts a goroutine for. -/
inductive ReadResult where
  | wait
  | eof
  | failed (err : String)
  | bytes (value : Bytes) (ack : Option Bytes)
  deriving DecidableEq

def read (s : Stream) (size : Nat) : Stream × ReadResult :=
  match s.readQueue with
  | [] =>
    match s.readErr with
    | some err => (s, .failed err)
    | none => if s.closedRead then (s, .eof) else (s, .wait)
  | chunk :: rest =>
    let value := (chunk.drop s.readOffset).take size
    if s.readOffset + value.length = chunk.length then
      ({ s with readQueue := rest, readQueued := s.readQueued - chunk.length, readOffset := 0 },
        .bytes value (some (ackControl chunk.length)))
    else ({ s with readOffset := s.readOffset + value.length }, .bytes value none)

def writeRefused (s : Stream) : Bool := s.writeClosed || s.closed

def windowFull (s : Stream) (size : Nat) : Bool :=
  s.flowEnabled && decide (0 < s.inFlight) &&
    decide (s.inFlight + size > flowWindowBytes) && !s.closed

def reserve (s : Stream) (size : Nat) : Stream :=
  if s.flowEnabled then { s with inFlight := s.inFlight + size } else s

def acknowledge (s : Stream) (value : Nat) : Stream :=
  { s with inFlight := max 0 (s.inFlight - value) }

def receiveControl (s : Stream) (control : Bytes) : Stream × List Bytes :=
  match Control.ofText control with
  | .eof => ({ s with closedRead := true }, [])
  | .abort => (s.fail (some "remote native WebRTC peer aborted the stream"), [])
  | .flow => ({ s with flowEnabled := true }, [])
  | .resume => ({ s with inFlight := 0 }, [ascii "flow:1"])
  | .ack value => (s.acknowledge value, [])
  | .ping => (s, [ascii "pong"])
  | .other => (s, [])

def overflowError : String := "native WebRTC receive queue exceeds 1048576 bytes"

def unexpectedFrameError (frame : Frame) : String :=
  "unexpected native WebRTC frame after authentication: " ++ toString frame.type.toNat

def overflows (s : Stream) (payload : Bytes) : Bool :=
  decide ((payload.length : Int) > maxReadQueueBytes - s.readQueued)

/-- `Receive`: the stream, the control texts sent in reply, and the error returned. -/
def receive (s : Stream) (frame : Frame) : Stream × List Bytes × Option String :=
  if frame.type = frameData then
    if s.closedRead || s.closed then (s, [], none)
    else if s.overflows frame.payload then (s.fail (some overflowError), [], some overflowError)
    else
      ({ s with
        readQueue := s.readQueue ++ [frame.payload]
        readQueued := s.readQueued + frame.payload.length }, [], none)
  else if frame.type = frameControl then
    let (s', replies) := s.receiveControl frame.payload
    (s', replies, none)
  else (s, [], some (unexpectedFrameError frame))

/-- The part of `Reconnected` under `flowMu`; it then sends `resume` and `flow:1`. -/
def reconnected (s : Stream) : Stream := { s with inFlight := 0 }

def unread (s : Stream) : Bytes := s.readQueue.flatten.drop s.readOffset

structure Valid (s : Stream) : Prop where
  queued : s.readQueued = (s.readQueue.flatten.length : Int)
  offset : ∀ chunk ∈ s.readQueue.head?, s.readOffset ≤ chunk.length
  empty : s.readQueue = [] → s.readOffset = 0

theorem valid_new : Valid {} := ⟨rfl, by simp, fun _ => rfl⟩

structure SameControl (s t : Stream) : Prop where
  readErr : t.readErr = s.readErr
  closedRead : t.closedRead = s.closedRead
  writeClosed : t.writeClosed = s.writeClosed
  closed : t.closed = s.closed
  flowEnabled : t.flowEnabled = s.flowEnabled
  inFlight : t.inFlight = s.inFlight

def ReadResult.freed : ReadResult → Option Bytes
  | .bytes _ ack => ack
  | _ => none

def ReadResult.value : ReadResult → Bytes
  | .bytes value _ => value
  | _ => []

/-- `Read` returns no bytes, takes a whole chunk off the queue, or stays within the first chunk. -/
theorem read_cases (s : Stream) (size : Nat) :
    (∃ r, s.read size = (s, r) ∧ r.value = [] ∧ r.freed = none) ∨
    ∃ chunk rest, s.readQueue = chunk :: rest ∧
      (s.readOffset + ((chunk.drop s.readOffset).take size).length = chunk.length ∧
        s.read size =
          ({ s with readQueue := rest, readQueued := s.readQueued - chunk.length, readOffset := 0 },
            .bytes ((chunk.drop s.readOffset).take size) (some (ackControl chunk.length))) ∨
      s.readOffset + ((chunk.drop s.readOffset).take size).length ≠ chunk.length ∧
        s.read size =
          ({ s with readOffset := s.readOffset + ((chunk.drop s.readOffset).take size).length },
            .bytes ((chunk.drop s.readOffset).take size) none)) := by
  unfold read
  cases hq : s.readQueue with
  | nil =>
    left
    cases s.readErr with
    | some err => exact ⟨_, rfl, rfl, rfl⟩
    | none => cases s.closedRead <;> exact ⟨_, rfl, rfl, rfl⟩
  | cons chunk rest =>
    refine .inr ⟨chunk, rest, rfl, ?_⟩
    by_cases hdone : s.readOffset + ((chunk.drop s.readOffset).take size).length = chunk.length
    · exact .inl ⟨hdone, if_pos hdone⟩
    · exact .inr ⟨hdone, if_neg hdone⟩

theorem read_whole (hs : s.Valid) {chunk : Bytes} {rest : List Bytes}
    (hq : s.readQueue = chunk :: rest) :
    s.read chunk.length =
      ({ s with readQueue := rest, readQueued := s.readQueued - chunk.length, readOffset := 0 },
        .bytes (chunk.drop s.readOffset) (some (ackControl chunk.length))) := by
  have hoff : s.readOffset ≤ chunk.length := hs.offset chunk (by simp [hq])
  have hall : (chunk.drop s.readOffset).take chunk.length = chunk.drop s.readOffset :=
    take_of_length_le (by simp)
  unfold read
  rw [hq]
  dsimp only
  rw [hall, if_pos (by rw [length_drop]; omega)]

theorem read_control (s : Stream) (size : Nat) : SameControl s (s.read size).1 := by
  obtain ⟨r, h, _⟩ | ⟨chunk, rest, _, ⟨_, h⟩ | ⟨_, h⟩⟩ := s.read_cases size
  all_goals
    rw [h]
    exact ⟨rfl, rfl, rfl, rfl, rfl, rfl⟩

/-- `Read` takes its bytes from the front of what is unread and keeps the counters right;
the queue shrinks by exactly what the acknowledgement names. -/
theorem read_spec (hs : s.Valid) (size : Nat) :
    (s.read size).1.Valid ∧
    s.unread = (s.read size).2.value ++ (s.read size).1.unread ∧
    ((s.read size).2.freed = none ∧ (s.read size).1.readQueued = s.readQueued ∨
      ∃ chunk ∈ s.readQueue, (s.read size).2.freed = some (ackControl chunk.length) ∧
        (s.read size).1.readQueued + chunk.length = s.readQueued) := by
  obtain ⟨r, h, hvalue, hfreed⟩ | ⟨chunk, rest, hq, hread⟩ := s.read_cases size
  · rw [h]
    exact ⟨hs, by simp [hvalue], .inl ⟨hfreed, rfl⟩⟩
  · have hoff : s.readOffset ≤ chunk.length := hs.offset chunk (by simp [hq])
    have htotal : s.readQueued = (chunk.length : Int) + (rest.flatten.length : Int) := by
      rw [hs.queued, hq]
      simp
    have hunread : s.unread = chunk.drop s.readOffset ++ rest.flatten := by
      simp [unread, hq, drop_append_of_le_length hoff]
    have hlen : ((chunk.drop s.readOffset).take size).length =
        min size (chunk.length - s.readOffset) := by
      simp
    obtain ⟨hdone, h⟩ | ⟨hmore, h⟩ := hread
    · have hall : (chunk.drop s.readOffset).take size = chunk.drop s.readOffset := by
        apply take_of_length_le
        rw [length_drop]
        omega
      rw [h, hunread, hall]
      refine ⟨⟨?_, by simp, fun _ => rfl⟩, rfl, .inr ⟨chunk, by simp [hq], rfl, ?_⟩⟩
      · simp only [htotal]
        omega
      · simp
    · have hle : s.readOffset + ((chunk.drop s.readOffset).take size).length ≤ chunk.length := by
        omega
      rw [h, hunread]
      refine ⟨⟨hs.queued, ?_, by simp [hq]⟩, ?_, .inl ⟨rfl, rfl⟩⟩
      · intro c hc
        simp only [hq, head?_cons, Option.mem_def, Option.some.injEq] at hc
        subst hc
        exact hle
      · simp only [ReadResult.value, unread, hq, flatten_cons,
          drop_append_of_le_length hle, ← append_assoc]
        congr 1
        rw [← drop_drop]
        conv_lhs => rw [← take_append_drop size (chunk.drop s.readOffset)]
        congr 1
        rw [hlen]
        rcases Nat.le_total size (chunk.length - s.readOffset) with hsize | hsize
        · rw [Nat.min_eq_left hsize]
        · rw [Nat.min_eq_right hsize, drop_of_length_le (by simpa using hsize),
            drop_of_length_le (by simp)]

def accepts (s : Stream) (frame : Frame) : Bool :=
  decide (frame.type = frameData) && !(s.closedRead || s.closed) && !s.overflows frame.payload

theorem fail_unread (s : Stream) (err : Option String) : (s.fail err).unread = s.unread := by
  unfold fail
  split <;> rfl

theorem fail_valid (hs : s.Valid) (err : Option String) : (s.fail err).Valid := by
  unfold fail
  split
  · exact hs
  · exact ⟨hs.queued, hs.offset, hs.empty⟩

theorem reserve_valid (hs : s.Valid) (size : Nat) : (s.reserve size).Valid := by
  unfold reserve
  split
  · exact ⟨hs.queued, hs.offset, hs.empty⟩
  · exact hs

theorem receiveControl_queue (s : Stream) (control : Bytes) :
    (s.receiveControl control).1.readQueue = s.readQueue ∧
    (s.receiveControl control).1.readQueued = s.readQueued ∧
    (s.receiveControl control).1.readOffset = s.readOffset := by
  unfold receiveControl fail
  repeat' split
  all_goals exact ⟨rfl, rfl, rfl⟩

theorem receive_of_accepts {frame : Frame} (h : s.accepts frame = true) :
    s.receive frame =
      ({ s with
        readQueue := s.readQueue ++ [frame.payload]
        readQueued := s.readQueued + frame.payload.length }, [], none) := by
  simp only [accepts, Bool.and_eq_true, decide_eq_true_eq, Bool.not_eq_true'] at h
  obtain ⟨⟨htype, hopen⟩, hfits⟩ := h
  unfold receive
  rw [if_pos htype, if_neg (by simp [hopen]), if_neg (by simp [hfits])]

theorem receive_queue_of_not_accepts {frame : Frame} (h : s.accepts frame = false) :
    (s.receive frame).1.readQueue = s.readQueue ∧
    (s.receive frame).1.readQueued = s.readQueued ∧
    (s.receive frame).1.readOffset = s.readOffset := by
  unfold receive
  split
  next htype =>
    split
    · exact ⟨rfl, rfl, rfl⟩
    rename_i hopen
    split
    · unfold fail
      split <;> exact ⟨rfl, rfl, rfl⟩
    next hfits =>
      simp [accepts, htype, hopen, hfits] at h
  · split
    · exact s.receiveControl_queue frame.payload
    · exact ⟨rfl, rfl, rfl⟩

theorem receive_valid (hs : s.Valid) (frame : Frame) :
    (s.receive frame).1.Valid := by
  by_cases h : s.accepts frame = true
  · rw [receive_of_accepts h]
    refine ⟨?_, ?_, by simp⟩
    · simp [hs.queued]
    · intro chunk hchunk
      cases hq : s.readQueue with
      | nil => simp [hs.empty hq]
      | cons first rest =>
        simp only [hq, cons_append, head?_cons, Option.mem_def] at hchunk
        exact hs.offset chunk (by simpa [hq] using hchunk)
  · obtain ⟨hq, hn, ho⟩ := receive_queue_of_not_accepts (Bool.eq_false_iff.mpr h)
    exact ⟨by rw [hq, hn]; exact hs.queued, by rw [hq, ho]; exact hs.offset,
      by rw [hq, ho]; exact hs.empty⟩

theorem offset_le_flatten (hs : s.Valid) :
    s.readOffset ≤ s.readQueue.flatten.length := by
  cases hq : s.readQueue with
  | nil => simp [hs.empty hq]
  | cons chunk rest =>
    have := hs.offset chunk (by simp [hq])
    simp only [flatten_cons, length_append]
    omega

theorem receive_unread (hs : s.Valid) (frame : Frame) :
    (s.receive frame).1.unread = s.unread ++ if s.accepts frame then frame.payload else [] := by
  by_cases h : s.accepts frame = true
  · rw [receive_of_accepts h, if_pos h]
    simp [unread, drop_append_of_le_length (offset_le_flatten hs)]
  obtain ⟨hq, _, ho⟩ := receive_queue_of_not_accepts (Bool.eq_false_iff.mpr h)
  rw [if_neg h]
  simp [unread, hq, ho]

end Stream

def nativeFrameQueueDepth : Nat := 128

structure NativePeer where
  frames : List Frame := []
  closed : Bool := false
  deriving DecidableEq

namespace NativePeer

def close (p : NativePeer) : NativePeer := { p with closed := true }

/-- `OnMessage`; `pickClosed` is the choice of `select` where both of its cases are ready. -/
def onMessage (p : NativePeer) (message : Bytes) (pickClosed : Bool) : NativePeer :=
  match decodeFrame message with
  | .error _ => p.close
  | .ok frame =>
    if p.frames.length < nativeFrameQueueDepth && !(p.closed && pickClosed) then
      { p with frames := p.frames ++ [frame] }
    else if p.closed then p
    else p.close

theorem onMessage_spec (p : NativePeer) (message : Bytes) (pickClosed : Bool) :
    (∃ placed, (p.onMessage message pickClosed).frames = p.frames ++ placed) ∧
    (p.closed = true → (p.onMessage message pickClosed).closed = true) := by
  unfold onMessage
  split
  · exact ⟨⟨[], by simp [close]⟩, fun _ => rfl⟩
  rename_i frame _
  split
  · exact ⟨⟨[frame], rfl⟩, id⟩
  split
  · exact ⟨⟨[], by simp⟩, id⟩
  · exact ⟨⟨[], by simp [close]⟩, fun _ => rfl⟩

theorem mem_onMessage {p : NativePeer} {frame f : Frame} {pickClosed : Bool}
    (h : f ∈ (p.onMessage (encodeFrame frame.type frame.payload) pickClosed).frames) :
    f ∈ p.frames ∨ f = frame := by
  unfold onMessage at h
  rw [decodeFrame_encodeFrame] at h
  dsimp only at h
  split at h
  · simpa using h
  split at h
  · exact .inl h
  · exact .inl h

end NativePeer

inductive ForwardCase where
  | frame | closed
  deriving DecidableEq

inductive ForwardError where
  | receive (err : String)
  | disconnected
  deriving DecidableEq

def ForwardError.text : ForwardError → String
  | .receive err => err
  | .disconnected => "native WebRTC peer disconnected"

/-- One turn of the loop in `forwardFrames`: the peer, the stream, the control texts sent in
reply, and the error it returns with, if it returns. -/
def forwardFrames (p : NativePeer) (s : Stream) :
    ForwardCase → Option (NativePeer × Stream × List Bytes × Option ForwardError)
  | .frame =>
    match p.frames with
    | [] => none
    | frame :: rest =>
      let (s', replies, err) := s.receive frame
      some ({ p with frames := rest }, s', replies, err.map .receive)
  | .closed => if p.closed then some (p, s, [], some .disconnected) else none

def takenFrames (before after : NativePeer) : List Frame :=
  before.frames.take (before.frames.length - after.frames.length)

theorem forwardFrames_cases {p p' : NativePeer} {s s' : Stream} {replies : List Bytes}
    {err : Option ForwardError} {pick : ForwardCase}
    (h : forwardFrames p s pick = some (p', s', replies, err)) :
    (∃ frame rest, pick = .frame ∧ p.frames = frame :: rest ∧ p' = { p with frames := rest } ∧
      s' = (s.receive frame).1 ∧ err = (s.receive frame).2.2.map .receive ∧
      takenFrames p p' = [frame]) ∨
    (pick = .closed ∧ p.closed = true ∧ p' = p ∧ s' = s ∧ err = some .disconnected ∧
      takenFrames p p' = []) := by
  unfold forwardFrames at h
  cases pick with
  | frame =>
    cases hq : p.frames with
    | nil => simp [hq] at h
    | cons frame rest =>
      simp only [hq, Option.some.injEq, Prod.mk.injEq] at h
      obtain ⟨rfl, rfl, _, rfl⟩ := h
      exact .inl ⟨frame, rest, rfl, rfl, rfl, rfl, rfl, by simp [takenFrames, hq]⟩
  | closed =>
    by_cases hc : p.closed = true
    · simp only [if_pos hc, Option.some.injEq, Prod.mk.injEq] at h
      obtain ⟨rfl, rfl, _, rfl⟩ := h
      exact .inr ⟨rfl, hc, rfl, rfl, rfl, by simp [takenFrames]⟩
    · simp [if_neg hc] at h

structure PeerLink where
  peer : Option Nat := none
  closed : Bool := false
  deriving DecidableEq

namespace PeerLink
variable {l : PeerLink} {k : Nat}

/-- `Attach`, or `none` where it returns false. -/
def attach (l : PeerLink) (peer : Nat) : Option PeerLink :=
  if l.closed || l.peer.isSome then none else some { l with peer := some peer }

def detach (l : PeerLink) (peer : Nat) : PeerLink :=
  if l.peer = some peer then { l with peer := none } else l

def close (l : PeerLink) : PeerLink × Option Nat :=
  if l.closed then (l, none) else ({ peer := none, closed := true }, l.peer)

theorem attach_eq_some {l' : PeerLink} (h : l.attach k = some l') :
    l.closed = false ∧ l.peer = none ∧ l' = { peer := some k } := by
  unfold attach at h
  split at h
  · cases h
  rename_i hfree
  cases h
  simp only [Bool.or_eq_true, not_or, Bool.not_eq_true, Option.isSome_eq_false_iff,
    Option.isNone_iff_eq_none] at hfree
  exact ⟨hfree.1, hfree.2, by rw [hfree.1]⟩

theorem peer_of_detach {j : Nat} (h : (l.detach j).peer = some k) :
    l.peer = some k ∧ k ≠ j := by
  unfold detach at h
  split at h
  · cases h
  rename_i hne
  refine ⟨h, fun heq => hne ?_⟩
  rw [h, heq]

theorem peer_of_close (h : l.close.1.peer = some k) :
    l.peer = some k := by
  unfold close at h
  split at h
  · exact h
  · cases h

end PeerLink

end P2PNetcat.NativeWebRTC
