import P2PNetcat.Library.StepSystem
import P2PNetcat.NativeWebRTC.Stream

/-!
# Frames queued at a peer that closes

One peer with its callbacks, the forwarding loop and the local reader, taking
steps in any order.
-/

namespace P2PNetcat.NativeWebRTC
open List ByteCodec StepSystem

/-- A peer, its forwarding loop and the local reader, with the history of the queue: what
`OnMessage` placed in it before and after the peer closed and what the loop passed on. -/
structure Forwarding where
  peer : NativePeer
  stream : Stream
  result : Option ForwardError := none
  beforeClose : List Frame := []
  afterClose : List Frame := []
  received : List Frame := []
  got : Bytes := []
  deriving DecidableEq

namespace Forwarding

inductive Event where
  | message (data : Bytes) (pickClosed : Bool)
  | close
  | forward (pick : ForwardCase)
  | read (size : Nat)
  deriving DecidableEq

def message (s : Forwarding) (data : Bytes) (pickClosed : Bool) : Forwarding :=
  let peer := s.peer.onMessage data pickClosed
  let placed := peer.frames.drop s.peer.frames.length
  if s.peer.closed then { s with peer, afterClose := s.afterClose ++ placed }
  else { s with peer, beforeClose := s.beforeClose ++ placed }

def forward (s : Forwarding) (pick : ForwardCase) : Option Forwarding :=
  if s.result.isSome then none
  else
    match forwardFrames s.peer s.stream pick with
    | none => none
    | some (peer, stream, _, result) =>
      some { s with
        peer, stream, result
        received := s.received ++ takenFrames s.peer peer }

def read (s : Forwarding) (size : Nat) : Forwarding :=
  let (stream, result) := s.stream.read size
  { s with stream, got := s.got ++ result.value }

def step (s : Forwarding) : Event → Option Forwarding
  | .message data pickClosed => some (s.message data pickClosed)
  | .close => some { s with peer := s.peer.close }
  | .forward pick => s.forward pick
  | .read size => some (s.read size)

/-- `forwardFrames` about to run its first turn on a stream that is open for reading. -/
structure Starts (s : Forwarding) : Prop where
  running : s.result = none
  fresh : s.received = [] ∧ s.got = []
  queue : s.peer.frames = s.beforeClose ++ s.afterClose
  late : s.afterClose ≠ [] → s.peer.closed = true
  valid : s.stream.Valid
  reading : s.stream.closedRead = false ∧ s.stream.closed = false

/-- The closed case is taken only once no frame from before the close is left in the queue. -/
def DrainsFirst (s : Forwarding) (e : Event) : Prop :=
  e = .forward .closed → s.peer.frames.length ≤ s.afterClose.length

instance (s : Forwarding) (e : Event) : Decidable (s.DrainsFirst e) :=
  inferInstanceAs (Decidable (_ → _))

end Forwarding

def endsRead (frame : Frame) : Bool :=
  decide (frame.type = frameControl) &&
    (decide (Control.ofText frame.payload = .eof) || decide (Control.ofText frame.payload = .abort))

def delivered : List Frame → Bytes
  | [] => []
  | frame :: rest =>
    if endsRead frame then []
    else if frame.type = frameData then frame.payload ++ delivered rest
    else delivered rest

theorem delivered_append (front rest : List Frame) :
    delivered (front ++ rest) =
      delivered front ++ if front.any endsRead then [] else delivered rest := by
  induction front with
  | nil => simp [delivered]
  | cons frame front ih =>
    simp only [cons_append, delivered, any_cons]
    by_cases hend : endsRead frame
    · simp [hend]
    by_cases hdata : frame.type = frameData
    · simp [hend, hdata, ih]
    · simp [hend, hdata, ih]

theorem delivered_prefix {front frames : List Frame} (h : front <+: frames) :
    delivered front <+: delivered frames := by
  obtain ⟨rest, rfl⟩ := h
  rw [delivered_append]
  exact prefix_append _ _

theorem delivered_singleton (frame : Frame) :
    delivered [frame] = if frame.type = frameData then frame.payload else [] := by
  by_cases htype : frame.type = frameData
  · have hend : endsRead frame = false := by simp [endsRead, htype, frameData, frameControl]
    simp [delivered, htype, hend]
  · simp [delivered, htype]

namespace Stream
variable {s : Stream}

def ReadClosed (s : Stream) : Prop := s.closed = true → s.closedRead = true

theorem fail_closedRead (hs : s.ReadClosed) (err : Option String) :
    (s.fail err).closedRead = true := by
  unfold fail
  split
  next hclosed =>
    exact hs hclosed
  · rfl

theorem receiveControl_closedRead (s : Stream) (hs : s.ReadClosed) (control : Bytes) :
    (s.receiveControl control).1.closedRead =
        (s.closedRead || decide (Control.ofText control = .eof) ||
          decide (Control.ofText control = .abort)) ∧
      (s.receiveControl control).1.ReadClosed := by
  unfold receiveControl
  cases hc : Control.ofText control with
  | abort => exact ⟨by simp [fail_closedRead hs], fun _ => fail_closedRead hs _⟩
  | eof => exact ⟨by simp, fun _ => rfl⟩
  | flow | resume | ping => exact ⟨by simp, hs⟩
  | ack value => exact ⟨by simp [acknowledge], hs⟩
  | other => exact ⟨by simp, hs⟩

theorem receive_closedRead (hs : s.ReadClosed) {frame : Frame}
    (hok : (s.receive frame).2.2 = none) :
    (s.receive frame).1.closedRead = (s.closedRead || endsRead frame) ∧
      (s.receive frame).1.ReadClosed := by
  unfold receive at *
  split
  next htype =>
    have hend : endsRead frame = false := by simp [endsRead, htype, frameData, frameControl]
    rw [hend, Bool.or_false]
    split
    · exact ⟨rfl, hs⟩
    rename_i hopen
    rw [if_pos htype, if_neg hopen] at hok
    split
    next hover =>
      rw [if_pos hover] at hok
      cases hok
    · exact ⟨rfl, hs⟩
  · split
    next htype =>
      have := s.receiveControl_closedRead hs frame.payload
      simpa [endsRead, htype, Bool.or_assoc] using this
    next hdata hcontrol =>
      rw [if_neg hdata, if_neg hcontrol] at hok
      cases hok

theorem accepts_of_receive_ok (hs : s.ReadClosed) {frame : Frame}
    (hok : (s.receive frame).2.2 = none) :
    s.accepts frame = (decide (frame.type = frameData) && !s.closedRead) := by
  by_cases htype : frame.type = frameData
  · cases hread : s.closedRead with
    | true => simp [accepts, hread]
    | false =>
      have hclosed : s.closed = false := by
        by_contra hc
        simp only [Bool.not_eq_false] at hc
        simp [hs hc] at hread
      have hfits : s.overflows frame.payload = false := by
        by_contra hover
        simp only [Bool.not_eq_false] at hover
        simp [receive, htype, hread, hclosed, hover] at hok
      simp [accepts, htype, hread, hclosed, hfits]
  · simp [accepts, htype]

end Stream

namespace Forwarding

theorem forward_cases {s t : Forwarding} {pick : ForwardCase} (h : s.forward pick = some t) :
    s.result = none ∧
    ((∃ frame rest, pick = .frame ∧ s.peer.frames = frame :: rest ∧
      t = { s with
        peer := { s.peer with frames := rest }
        stream := (s.stream.receive frame).1
        result := (s.stream.receive frame).2.2.map .receive
        received := s.received ++ [frame] }) ∨
    (pick = .closed ∧ s.peer.closed = true ∧ t = { s with result := some .disconnected })) := by
  obtain ⟨hrunning, h⟩ := Option.ite_none_left_eq_some.mp h
  refine ⟨by simpa using hrunning, ?_⟩
  split at h
  · cases h
  rename_i hturn
  cases h
  obtain ⟨frame, rest, hpick, hq, rfl, rfl, rfl, htaken⟩ | ⟨hpick, hc, rfl, rfl, rfl, htaken⟩ :=
    forwardFrames_cases hturn
  · exact .inl ⟨frame, rest, hpick, hq, by rw [htaken]⟩
  · exact .inr ⟨hpick, hc, by rw [htaken, append_nil]⟩

structure Inv (base : Bytes) (s : Forwarding) : Prop where
  queue : s.received ++ s.peer.frames = s.beforeClose ++ s.afterClose
  late : s.afterClose ≠ [] → s.peer.closed = true
  valid : s.stream.Valid
  reader : s.result = none ∨ s.result = some .disconnected →
    s.got ++ s.stream.unread = base ++ delivered s.received ∧
    s.stream.closedRead = s.received.any endsRead ∧ s.stream.ReadClosed
  drained : s.result = some .disconnected → s.peer.closed = true ∧ s.beforeClose <+: s.received

theorem Starts.inv {s : Forwarding} (h : s.Starts) : Inv s.stream.unread s := by
  refine ⟨by simp [h.fresh.1, h.queue], h.late, h.valid, fun _ => ?_, by simp [h.running]⟩
  refine ⟨by simp [h.fresh.1, h.fresh.2, delivered], by simp [h.fresh.1, h.reading.1], ?_⟩
  intro hclosed
  rw [h.reading.2] at hclosed
  cases hclosed

section Steps
variable {base : Bytes} {s t : Forwarding}

variable (h : Inv base s)
include h

theorem Inv.message (data : Bytes) (pickClosed : Bool) :
    Inv base (s.message data pickClosed) := by
  obtain ⟨⟨placed, hframes⟩, hclosed⟩ := s.peer.onMessage_spec data pickClosed
  have hplaced : (s.peer.onMessage data pickClosed).frames.drop s.peer.frames.length = placed := by
    simp [hframes]
  unfold Forwarding.message
  simp only [hplaced]
  split
  next hc =>
    refine ⟨?_, fun _ => hclosed hc, h.valid, h.reader, fun hr => ⟨hclosed hc, (h.drained hr).2⟩⟩
    rw [hframes, ← append_assoc, ← append_assoc, h.queue]
  next hc =>
    have hlate : s.afterClose = [] := by
      by_contra hne
      exact hc (h.late hne)
    refine ⟨?_, fun hne => absurd hlate hne, h.valid, h.reader,
      fun hr => absurd (h.drained hr).1 hc⟩
    rw [hframes, ← append_assoc, h.queue, hlate]
    simp

theorem Inv.close : Inv base { s with peer := s.peer.close } :=
  ⟨h.queue, fun _ => rfl, h.valid, h.reader, fun hr => ⟨rfl, (h.drained hr).2⟩⟩

theorem Inv.read (size : Nat) : Inv base (s.read size) := by
  obtain ⟨hvalid, hunread, _⟩ := Stream.read_spec h.valid size
  have hsame := s.stream.read_control size
  refine ⟨h.queue, h.late, hvalid, fun hr => ?_, h.drained⟩
  obtain ⟨hgot, hend, hclosed⟩ := h.reader hr
  refine ⟨?_, hsame.closedRead.trans hend, ?_⟩
  · change (s.got ++ (s.stream.read size).2.value) ++ (s.stream.read size).1.unread = _
    rw [append_assoc, ← hunread, hgot]
    rfl
  · intro hc
    rw [show (s.read size).stream.closed = s.stream.closed from hsame.closed] at hc
    exact hsame.closedRead.trans (hclosed hc)

theorem Inv.forward_frame (hs : s.forward .frame = some t) : Inv base t := by
  obtain ⟨hnone, ⟨frame, rest, _, hq, rfl⟩ | ⟨hpick, _⟩⟩ := forward_cases hs
  · obtain ⟨hgot, hend, hclosed⟩ := h.reader (.inl hnone)
    have hqueue := h.queue
    rw [hq] at hqueue
    refine ⟨by simpa using hqueue, h.late, Stream.receive_valid h.valid frame, ?_, ?_⟩
    · intro hr
      have hok : (s.stream.receive frame).2.2 = none := by
        cases herr : (s.stream.receive frame).2.2 with
        | none => rfl
        | some err => simp [herr] at hr
      obtain ⟨hread, hclosed'⟩ := Stream.receive_closedRead hclosed hok
      refine ⟨?_, ?_, hclosed'⟩
      · rw [Stream.receive_unread h.valid, Stream.accepts_of_receive_ok hclosed hok,
          ← append_assoc, hgot, hend]
        simp only [delivered_append, append_assoc, delivered_singleton]
        cases s.received.any endsRead <;> simp
      · rw [hread, hend]
        simp
    · intro hr
      simp at hr
  · cases hpick

theorem Inv.forward_closed
    (hdrained : s.peer.frames.length ≤ s.afterClose.length)
    (hs : s.forward .closed = some t) : Inv base t := by
  obtain ⟨hnone, ⟨frame, rest, hpick, _⟩ | ⟨_, hc, rfl⟩⟩ := forward_cases hs
  · cases hpick
  · have hlength := congrArg length h.queue
    simp only [length_append] at hlength
    have hle : s.beforeClose.length ≤ s.received.length := by omega
    exact ⟨h.queue, h.late, h.valid, fun _ => h.reader (.inl hnone), fun _ => ⟨hc,
      prefix_of_prefix_length_le ⟨s.afterClose, rfl⟩ ⟨s.peer.frames, h.queue⟩ hle⟩⟩

theorem Inv.step {e : Event} (hok : DrainsFirst s e)
    (hs : s.step e = some t) : Inv base t := by
  cases e with
  | message data pickClosed =>
    cases hs
    exact h.message data pickClosed
  | close =>
    cases hs
    exact h.close
  | forward pick =>
    cases pick with
    | frame => exact h.forward_frame hs
    | closed => exact h.forward_closed (hok rfl) hs
  | read size =>
    cases hs
    exact h.read size

end Steps

/-- Where the closed case waits for the frames queued before the close, `forwardFrames` reports
a disconnect only after it passed all of them on, in order, and the reader has their data and
their end. -/
theorem disconnected_after_delivery {s t : Forwarding} {es : List Event} (hs : s.Starts)
    (hrun : Run step DrainsFirst s es t) (hresult : t.result = some .disconnected) :
    t.beforeClose <+: t.received ∧
    s.stream.unread ++ delivered t.beforeClose <+: t.got ++ t.stream.unread ∧
    (t.beforeClose.any endsRead = true → t.stream.closedRead = true) := by
  have hinv : Inv s.stream.unread t :=
    hrun.invariant (fun h hok hst => h.step hok hst) hs.inv
  obtain ⟨_, hbegins⟩ := hinv.drained hresult
  obtain ⟨hgot, hend, _⟩ := hinv.reader (.inr hresult)
  refine ⟨hbegins, ?_, fun hany => ?_⟩
  · rw [hgot, prefix_append_right_inj]
    exact delivered_prefix hbegins
  · obtain ⟨frame, hmem, hframe⟩ := any_eq_true.mp hany
    rw [hend]
    exact any_eq_true.mpr ⟨frame, hbegins.subset hmem, hframe⟩

def fresh : Forwarding := { peer := {}, stream := {} }

theorem fresh_starts : fresh.Starts :=
  ⟨rfl, ⟨rfl, rfl⟩, rfl, fun h => absurd rfl h, Stream.valid_new, ⟨rfl, rfl⟩⟩

def dataThenEof : List Event :=
  [.message (encodeFrame frameData (ascii "bye")) false,
    .message (encodeFrame frameControl (ascii "eof")) false, .close]

/-- The select is free to report the disconnect with both frames still queued: neither the
data nor the end of the stream ever reaches the reader. -/
theorem disconnect_overtakes_frames :
    ∃ t, Run step Any fresh (dataThenEof ++ [.forward .closed]) t ∧
      t.result = some .disconnected ∧ t.beforeClose.any endsRead = true ∧
      ¬ t.beforeClose <+: t.received ∧ t.got ++ t.stream.unread = [] ∧
      t.stream.closedRead = false := by
  refine ⟨_, run_exec step Any _ _ (by decide), ?_⟩
  decide

theorem disconnected_after_delivery_dataThenEof :
    ∃ t, Run step DrainsFirst fresh
        (dataThenEof ++ [.forward .frame, .forward .frame, .forward .closed]) t ∧
      t.beforeClose <+: t.received ∧
      fresh.stream.unread ++ delivered t.beforeClose <+: t.got ++ t.stream.unread ∧
      (t.beforeClose.any endsRead = true → t.stream.closedRead = true) := by
  have hrun := run_exec step DrainsFirst fresh
    (dataThenEof ++ [.forward .frame, .forward .frame, .forward .closed]) (by decide)
  exact ⟨_, hrun, disconnected_after_delivery fresh_starts hrun (by decide)⟩

end Forwarding

end P2PNetcat.NativeWebRTC
