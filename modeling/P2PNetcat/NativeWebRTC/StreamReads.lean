import P2PNetcat.Library.StepSystem
import P2PNetcat.NativeWebRTC.Stream

/-!
# What the reader of a stream sees

`fail` sets its flag, ends the read side and ends the write side in three steps,
and a `Receive` that finds the queue full fails the stream only after it has let
go of `readMu`. Whatever comes between, the reader gets the accepted payloads in
order, and an end of the stream only after the last of them.
-/

namespace P2PNetcat.NativeWebRTC
open List ByteCodec StepSystem

inductive FailPoint where
  | idle
  | readSide (err : Option String)
  | writeSide
  deriving DecidableEq

/-- A stream with its calls of `fail`: the one that goes on, and the number of those a full queue
has yet to make. `accepted` and `returned` are the bytes `Receive` has queued and `Read` has given
out. -/
structure Reading where
  stream : Stream := {}
  failing : FailPoint := .idle
  overflowed : Nat := 0
  accepted : Bytes := []
  returned : Bytes := []
  deriving DecidableEq

namespace Reading

inductive Event where
  | receive (frame : Frame)
  | failOverflow
  | fail (err : Option String)
  | endRead
  | endWrite
  | read (size : Nat)
  deriving DecidableEq

def beginFail (r : Reading) (err : Option String) : Reading :=
  if r.stream.closed then r
  else { r with stream := { r.stream with closed := true }, failing := .readSide err }

def endRead (r : Reading) : Option Reading :=
  match r.failing with
  | .readSide err =>
    some { r with
      stream := { r.stream with closedRead := true, readErr := err.or r.stream.readErr }
      failing := .writeSide }
  | _ => none

def endWrite (r : Reading) : Option Reading :=
  match r.failing with
  | .writeSide => some { r with stream := { r.stream with writeClosed := true }, failing := .idle }
  | _ => none

def receive (r : Reading) (frame : Frame) : Reading :=
  if frame.type = frameData then
    if r.stream.closedRead || r.stream.closed then r
    else if r.stream.overflows frame.payload then { r with overflowed := r.overflowed + 1 }
    else
      { r with
        stream := { r.stream with
          readQueue := r.stream.readQueue ++ [frame.payload]
          readQueued := r.stream.readQueued + frame.payload.length }
        accepted := r.accepted ++ frame.payload }
  else if frame.type = frameControl then
    match Control.ofText frame.payload with
    | .abort => r.beginFail (some "remote native WebRTC peer aborted the stream")
    | _ => { r with stream := (r.stream.receiveControl frame.payload).1 }
  else r

def failOverflow (r : Reading) : Option Reading :=
  if r.overflowed = 0 then none
  else some ({ r with overflowed := r.overflowed - 1 }.beginFail (some Stream.overflowError))

def read (r : Reading) (size : Nat) : Option Reading :=
  if (r.stream.read size).2 = .wait then none
  else
    some { r with
      stream := (r.stream.read size).1
      returned := r.returned ++ (r.stream.read size).2.value }

def step (r : Reading) : Event → Option Reading
  | .receive frame => some (r.receive frame)
  | .failOverflow => r.failOverflow
  | .fail err => some (r.beginFail err)
  | .endRead => r.endRead
  | .endWrite => r.endWrite
  | .read size => r.read size

def Ended (r : Reading) : Prop := r.stream.closedRead = true ∨ r.stream.closed = true

def Event.Ends : Event → Prop
  | .receive frame =>
    frame = controlFrame (ascii "eof") ∨ frame = controlFrame (ascii "abort")
  | .failOverflow | .fail _ => True
  | _ => False

/-- The calls of `fail` that are under way run to their end. -/
def settle (r : Reading) : Reading :=
  let r := r.failOverflow.getD r
  let r := r.endRead.getD r
  r.endWrite.getD r

variable {r r' : Reading} {ev : Event}

theorem settle_beginFail (err : Option String) (hidle : r.failing = .idle) (hnone : r.overflowed = 0) :
    (r.beginFail err).settle.stream = r.stream.fail err := by
  unfold beginFail Stream.fail
  split
  · simp [settle, failOverflow, endRead, endWrite, hidle, hnone]
  · simp [settle, failOverflow, endRead, endWrite, hnone]

theorem settle_receive (frame : Frame) (hidle : r.failing = .idle) (hnone : r.overflowed = 0) :
    (r.receive frame).settle.stream = (r.stream.receive frame).1 := by
  have hsettled : r.settle.stream = r.stream := by
    simp [settle, failOverflow, endRead, endWrite, hidle, hnone]
  unfold receive Stream.receive
  split
  · split
    · exact hsettled
    next hopen =>
      simp only [Bool.or_eq_true, not_or, Bool.not_eq_true] at hopen
      split
      · simp [settle, failOverflow, hnone, beginFail, endRead, endWrite, Stream.fail, hopen.2]
      · simp [settle, failOverflow, endRead, endWrite, hidle, hnone]
  · split
    · split
      next habort =>
        rw [settle_beginFail _ hidle hnone]
        simp [Stream.receiveControl, habort]
      · simp [settle, failOverflow, endRead, endWrite, hidle, hnone]
    · exact hsettled

/-- What has been accepted has been returned or is still queued, and an error is only left on a
read side that has ended; a `fail` under way has set its flag. -/
structure Lossless (r : Reading) : Prop where
  valid : r.stream.Valid
  split : r.accepted = r.returned ++ r.stream.unread
  failed : r.stream.readErr ≠ none → r.stream.closedRead = true
  failing : r.failing ≠ .idle → r.stream.closed = true

theorem Lossless.initial : Lossless {} :=
  ⟨Stream.valid_new, rfl, fun h => absurd rfl h, fun h => absurd rfl h⟩

section Steps
variable (h : Lossless r)
include h

theorem Lossless.beginFail (err : Option String) : Lossless (r.beginFail err) := by
  unfold Reading.beginFail
  split
  · exact h
  · exact ⟨⟨h.valid.queued, h.valid.offset, h.valid.empty⟩, h.split, h.failed, fun _ => rfl⟩

theorem Lossless.control {control : Bytes} (hcontrol : Control.ofText control ≠ .abort) :
    Lossless { r with stream := (r.stream.receiveControl control).1 } := by
  obtain ⟨hqueue, hqueued, hoffset⟩ := r.stream.receiveControl_queue control
  refine ⟨⟨?_, ?_, ?_⟩, ?_, ?_, ?_⟩
  · rw [hqueue, hqueued]
    exact h.valid.queued
  · rw [hqueue, hoffset]
    exact h.valid.offset
  · rw [hqueue, hoffset]
    exact h.valid.empty
  · simpa [Stream.unread, hqueue, hoffset] using h.split
  · unfold Stream.receiveControl
    split
    · exact fun _ => rfl
    next habort =>
      exact absurd habort hcontrol
    all_goals exact h.failed
  · unfold Stream.receiveControl
    split
    case h_2 habort => exact absurd habort hcontrol
    all_goals exact h.failing

theorem Lossless.receive (frame : Frame) : Lossless (r.receive frame) := by
  unfold Reading.receive
  split
  next htype =>
    split
    · exact h
    rename_i hopen
    split
    · exact ⟨h.valid, h.split, h.failed, h.failing⟩
    rename_i hfits
    have haccepts : r.stream.accepts frame = true := by
      simp [Stream.accepts, htype, hopen, hfits]
    have hvalid := Stream.receive_valid h.valid frame
    have hunread := Stream.receive_unread h.valid frame
    rw [Stream.receive_of_accepts haccepts] at hvalid hunread
    refine ⟨hvalid, ?_, h.failed, h.failing⟩
    dsimp only at hunread ⊢
    rw [hunread, h.split, if_pos haccepts, append_assoc]
  · split
    · split
      · exact h.beginFail _
      next hcontrol =>
        exact h.control hcontrol
    · exact h

theorem Lossless.read {size : Nat} (hr : r.read size = some r') : Lossless r' := by
  obtain ⟨-, rfl⟩ := unless_eq_some.mp hr
  obtain ⟨hvalid, hunread, _⟩ := Stream.read_spec h.valid size
  have hsame := r.stream.read_control size
  refine ⟨hvalid, ?_, ?_, ?_⟩
  · dsimp only
    rw [h.split, hunread, append_assoc]
  · dsimp only
    rw [hsame.readErr, hsame.closedRead]
    exact h.failed
  · dsimp only
    rw [hsame.closed]
    exact h.failing

theorem Lossless.step (hr : Reading.step r ev = some r') : Lossless r' := by
  cases ev with
  | receive frame =>
    cases hr
    exact h.receive frame
  | failOverflow =>
    obtain ⟨-, rfl⟩ := unless_eq_some.mp hr
    have hless : Lossless { r with overflowed := r.overflowed - 1 } :=
      ⟨h.valid, h.split, h.failed, h.failing⟩
    exact hless.beginFail _
  | fail err =>
    cases hr
    exact h.beginFail err
  | endRead =>
    simp only [Reading.step, Reading.endRead] at hr
    split at hr
    · cases hr
      rename_i hfailing
      exact ⟨⟨h.valid.queued, h.valid.offset, h.valid.empty⟩, h.split, fun _ => rfl,
        fun _ => h.failing (by rw [hfailing]; nofun)⟩
    · cases hr
  | endWrite =>
    simp only [Reading.step, Reading.endWrite] at hr
    split at hr
    · cases hr
      exact ⟨⟨h.valid.queued, h.valid.offset, h.valid.empty⟩, h.split, h.failed,
        fun hne => absurd rfl hne⟩
    · cases hr
  | read size => exact h.read hr

end Steps

section Ended
variable (h : r.Ended)
include h

theorem Ended.beginFail (err : Option String) :
    (r.beginFail err).Ended ∧ (r.beginFail err).accepted = r.accepted := by
  unfold Reading.beginFail
  split
  · exact ⟨h, rfl⟩
  · exact ⟨.inr rfl, rfl⟩

theorem Ended.receive (frame : Frame) :
    (r.receive frame).Ended ∧ (r.receive frame).accepted = r.accepted := by
  unfold Reading.receive
  split
  · rw [if_pos (by simpa [Ended] using h)]
    exact ⟨h, rfl⟩
  split
  · split
    · exact h.beginFail _
    · refine ⟨?_, rfl⟩
      unfold Stream.receiveControl Ended
      split
      · exact .inl rfl
      · unfold Stream.fail
        split
        · exact h
        · exact .inl rfl
      all_goals exact h
  · exact ⟨h, rfl⟩

theorem Ended.step (hr : Reading.step r ev = some r') : r'.Ended ∧ r'.accepted = r.accepted := by
  cases ev with
  | receive frame =>
    cases hr
    exact h.receive frame
  | failOverflow =>
    obtain ⟨-, rfl⟩ := unless_eq_some.mp hr
    have hless : Ended { r with overflowed := r.overflowed - 1 } := h
    exact hless.beginFail _
  | fail err =>
    cases hr
    exact h.beginFail err
  | endRead =>
    simp only [Reading.step, Reading.endRead] at hr
    split at hr
    · cases hr
      exact ⟨.inl rfl, rfl⟩
    · cases hr
  | endWrite =>
    simp only [Reading.step, Reading.endWrite] at hr
    split at hr
    · cases hr
      exact ⟨h, rfl⟩
    · cases hr
  | read size =>
    obtain ⟨-, rfl⟩ := unless_eq_some.mp hr
    have hsame := r.stream.read_control size
    refine ⟨?_, rfl⟩
    unfold Ended
    rw [hsame.closedRead, hsame.closed]
    exact h

theorem Ended.accepted_of_reach (hreach : Reach Reading.step r r') : r'.accepted = r.accepted :=
  (hreach.invariant (I := fun t => t.Ended ∧ t.accepted = r.accepted)
    (fun hi ht => ⟨(hi.1.step ht).1, (hi.1.step ht).2.trans hi.2⟩) ⟨h, rfl⟩).2

end Ended

theorem ended_beginFail (r : Reading) (err : Option String) : (r.beginFail err).Ended := by
  unfold beginFail
  split
  next hclosed => exact .inr hclosed
  next => exact .inr rfl

theorem ofText_eq_eof {control : Bytes} :
    Control.ofText control = .eof ↔ control = ascii "eof" := by
  grind [Control.ofText]

theorem ofText_eq_abort {control : Bytes} :
    Control.ofText control = .abort ↔ control = ascii "abort" := by
  have hne : ascii "abort" ≠ ascii "eof" := by decide
  grind [Control.ofText]

theorem ended_receive (r : Reading) (frame : Frame) :
    (r.receive frame).Ended ↔ r.Ended ∨ (Event.receive frame).Ends := by
  obtain ⟨type, payload⟩ := frame
  unfold Reading.receive
  dsimp only
  split
  next hdata =>
    have hends : ¬ (Event.receive ⟨type, payload⟩).Ends := by
      rintro (h | h) <;> cases hdata.symm.trans (congrArg Frame.type h)
    rw [or_iff_left hends]
    split
    · rfl
    · split <;> rfl
  split
  next hcontrol =>
    subst hcontrol
    have hends : (Event.receive ⟨frameControl, payload⟩).Ends ↔
        payload = ascii "eof" ∨ payload = ascii "abort" := by
      simp [Event.Ends, controlFrame]
    rw [hends]
    rw [← ofText_eq_eof, ← ofText_eq_abort]
    unfold Stream.receiveControl
    cases hc : Control.ofText payload with
    | eof => exact iff_of_true (.inl rfl) (.inr (.inl rfl))
    | abort => exact iff_of_true (ended_beginFail r _) (.inr (.inr rfl))
    | flow | resume | ack value | ping | other => exact (or_iff_left (by simp)).symm
  next hcontrol =>
    have hends : ¬ (Event.receive ⟨type, payload⟩).Ends := by
      rintro (h | h) <;> exact hcontrol (congrArg Frame.type h)
    rw [or_iff_left hends]

theorem Lossless.ended_iff (h : Lossless r) (hr : Reading.step r ev = some r') :
    r'.Ended ↔ r.Ended ∨ ev.Ends := by
  have hfailing : r.failing ≠ .idle → r.Ended := fun hne => .inr (h.failing hne)
  cases ev with
  | receive frame =>
    cases hr
    exact ended_receive r frame
  | failOverflow =>
    obtain ⟨-, rfl⟩ := unless_eq_some.mp hr
    exact iff_of_true (ended_beginFail _ _) (.inr trivial)
  | fail err =>
    cases hr
    exact iff_of_true (ended_beginFail r err) (.inr trivial)
  | endRead =>
    simp only [Reading.step, Reading.endRead] at hr
    split at hr
    · cases hr
      rename_i hat
      exact iff_of_true (.inl rfl) (.inl (hfailing (by rw [hat]; nofun)))
    · cases hr
  | endWrite =>
    simp only [Reading.step, Reading.endWrite] at hr
    split at hr
    · cases hr
      exact (or_iff_left id).symm
    · cases hr
  | read size =>
    obtain ⟨-, rfl⟩ := unless_eq_some.mp hr
    have hsame := r.stream.read_control size
    rw [Ended, Ended, hsame.closedRead, hsame.closed]
    exact (or_iff_left id).symm

/-- `Read` reports an end of the stream only on an empty queue whose read side has ended. -/
theorem Lossless.end_of_read (h : Lossless r) {size : Nat}
    (hend : (r.stream.read size).2 = .eof ∨ ∃ err, (r.stream.read size).2 = .failed err) :
    r.stream.readQueue = [] ∧ r.stream.closedRead = true := by
  unfold Stream.read at hend
  split at hend
  next hqueue =>
    refine ⟨hqueue, ?_⟩
    split at hend
    next err herr =>
      exact h.failed (by rw [herr]; nofun)
    split at hend
    · assumption
    · simp at hend
  · dsimp only at hend
    split at hend <;> simp at hend

end Reading

/-- Over every interleaving of `Receive`, `fail` and `Read`: what `Read` has returned is a prefix of
what `Receive` has accepted, the rest is queued, and `readQueued` is its length. Data is accepted as
long as it fits and the stream has not ended; an `eof`, an `abort` or a failure ends it, and nothing
more is accepted then; and `Read` reports the end only after it has returned everything. -/
theorem reads_are_lossless {es : List Reading.Event} {r : Reading}
    (hrun : Run Reading.step Any {} es r) :
    r.returned <+: r.accepted ∧ r.accepted = r.returned ++ r.stream.unread ∧
    r.stream.readQueued = (r.stream.readQueue.map length).sum ∧
    (∀ payload, ¬ r.Ended → r.stream.overflows payload = false →
      (r.receive (dataFrame payload)).accepted = r.accepted ++ payload) ∧
    (∀ ev r', Reading.step r ev = some r' → (r'.Ended ↔ r.Ended ∨ ev.Ends)) ∧
    (r.Ended → ∀ r', Reach Reading.step r r' → r'.accepted = r.accepted) ∧
    (∀ size, (r.stream.read size).2 = .eof ∨ (∃ err, (r.stream.read size).2 = .failed err) →
      r.returned = r.accepted ∧ ∀ r', Reach Reading.step r r' → r'.accepted = r.accepted) := by
  have hinv : r.Lossless := hrun.invariant (fun hi _ hr => hi.step hr) Reading.Lossless.initial
  refine ⟨⟨r.stream.unread, hinv.split.symm⟩, hinv.split, ?_, fun payload hopen hfits => ?_,
    fun ev r' => hinv.ended_iff, fun hended r' hreach => hended.accepted_of_reach hreach,
    fun size hend => ?_⟩
  · rw [hinv.valid.queued, length_flatten]
  · have hends : (r.stream.closedRead || r.stream.closed) = false := by
      simpa [Reading.Ended] using hopen
    simp [Reading.receive, dataFrame, hends, hfits]
  · obtain ⟨hempty, hclosed⟩ := hinv.end_of_read hend
    have hended : r.Ended := .inl hclosed
    refine ⟨?_, fun r' hreach => hended.accepted_of_reach hreach⟩
    rw [hinv.split, Stream.unread, hempty]
    simp

/-- The byte behind the `eof` is not accepted, and those before it are returned even after a
`fail`. -/
theorem reads_are_lossless_example : ∃ es r,
    Run Reading.step Any {} es r ∧ r.returned = [1, 2, 3] ∧
    .receive (controlFrame (ascii "eof")) ∈ es ∧ .receive (dataFrame [4]) ∈ es ∧
    (r.stream.read 1).2 = .failed "reset" ∧
    r.returned = r.accepted ∧ ∀ r', Reach Reading.step r r' → r'.accepted = r.accepted := by
  have hrun := run_exec Reading.step Any {} [.receive (dataFrame [1, 2]), .receive (dataFrame []),
    .receive (dataFrame [3]), .read 1, .receive (controlFrame (ascii "eof")),
    .receive (dataFrame [4]), .fail (some "reset"), .read 2, .read 1, .endRead, .read 5] (by decide)
  exact ⟨_, _, hrun, by decide, by decide, by decide, by decide,
    (reads_are_lossless hrun).2.2.2.2.2.2 1 (.inr ⟨"reset", by decide⟩)⟩

end P2PNetcat.NativeWebRTC
