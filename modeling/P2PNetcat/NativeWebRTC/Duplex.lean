import Mathlib.Data.List.Flatten
import P2PNetcat.Library.TwoParty
import P2PNetcat.NativeWebRTC.Stream

/-!
# Two streams joined by a sequence of data channels

Each end has its stream, the link the stream sends through, the loop that
forwards frames into it, at most one `Write` past `writeMu`, and goroutines with
a control text to send. A frame sent on a channel is on its way to the other end
until that end has taken it or has left the channel.
-/

namespace P2PNetcat.NativeWebRTC
open List ByteCodec

inductive Writer where
  | idle
  | waiting (payload : Bytes)
  | sending (payload : Bytes)
  | failed (payload : Bytes)
  deriving DecidableEq

/-- The goroutine that binds the stream to one channel after another: `Reconnected` first, with
the texts it still has to send, then `forwardFrames`, with the replies of the last frame. -/
inductive Forwarder where
  | detached
  | attached (channel : Nat)
  | announcing (channel : Nat) (texts : List Bytes)
  | forwarding (channel : Nat) (replies : List Bytes)
  | returned (channel : Nat)
  | stopped
  deriving DecidableEq

def Forwarder.channel : Forwarder → Option Nat
  | .attached e | .announcing e _ | .forwarding e _ | .returned e => some e
  | .detached | .stopped => none

def credit (control : Bytes) : Nat :=
  match Control.ofText control with
  | .ack value => value
  | _ => 0

/-- `incoming` holds the frames on their way here with their channels, `abandoned` the channels
left behind, `newest` one more than the newest channel attached. `written`, `readOut` and `unpaid`
are history: the `Write`s that returned nil, what `Read` returned, and the bytes named by the
acknowledgements that could not be sent. -/
structure Endpoint where
  stream : Stream := {}
  link : PeerLink := { peer := some 0 }
  forwarder : Forwarder := .forwarding 0 []
  writer : Writer := .idle
  controls : List Bytes := [ascii "flow:1"]
  incoming : List (Nat × Frame) := []
  abandoned : List Nat := []
  newest : Nat := 1
  written : Bytes := []
  readOut : Bytes := []
  unpaid : Nat := 0
  deriving DecidableEq

namespace Endpoint

inductive Event where
  | write (payload : Bytes)
  | reserve
  | send (ok : Bool)
  | refund
  | read (size : Nat)
  | control (index : Nat) (ok : Bool)
  | ping
  | closeWrite
  | fail (err : Option String)
  | reset
  | closeLink
  | deliver
  | reply (ok : Bool)
  | detach
  | attach (channel : Nat)
  | reconnected
  | announce (err : Option String)
  deriving DecidableEq

def push (b : Endpoint) (channel : Nat) (frame : Frame) : Endpoint :=
  { b with
    incoming := if channel ∈ b.abandoned then b.incoming else b.incoming ++ [(channel, frame)] }

/-- `link.Send`, which waits for a peer, and the peer's `Send`; `ok` is the channel's outcome.
Returns whether the frame was queued. -/
def transmit (a b : Endpoint) (frame : Frame) (ok : Bool) : Option (Bool × Endpoint) :=
  if a.link.closed then some (false, b)
  else
    match a.link.peer with
    | some e => if ok then some (true, b.push e frame) else some (false, b)
    | none => none

def write (a : Endpoint) (payload : Bytes) : Option Endpoint :=
  match a.writer with
  | .idle => if a.stream.writeRefused then none else some { a with writer := .waiting payload }
  | _ => none

def reserve (a : Endpoint) : Option Endpoint :=
  match a.writer with
  | .waiting payload =>
    if a.stream.windowFull payload.length then none
    else if a.stream.closed then some { a with writer := .idle }
    else some { a with stream := a.stream.reserve payload.length, writer := .sending payload }
  | _ => none

def send (a b : Endpoint) (ok : Bool) : Option (Endpoint × Endpoint) :=
  match a.writer with
  | .sending payload =>
    (transmit a b (dataFrame payload) ok).map fun (sent, b) =>
      (if sent then { a with writer := .idle, written := a.written ++ payload }
        else { a with writer := .failed payload }, b)
  | _ => none

def refund (a : Endpoint) : Option Endpoint :=
  match a.writer with
  | .failed payload =>
    some { a with stream := a.stream.acknowledge payload.length, writer := .idle }
  | _ => none

def read (a : Endpoint) (size : Nat) : Option Endpoint :=
  let (stream, result) := a.stream.read size
  if result = .wait then none
  else
    some { a with
      stream
      readOut := a.readOut ++ result.value
      controls := a.controls ++ result.freed.toList }

/-- One of the goroutines sends its control text; the outcome is ignored. -/
def control (a b : Endpoint) (index : Nat) (ok : Bool) : Option (Endpoint × Endpoint) :=
  match a.controls[index]? with
  | some text =>
    (transmit a b (controlFrame text) ok).map fun (sent, b) =>
      ({ a with
        controls := a.controls.eraseIdx index
        unpaid := a.unpaid + if sent then 0 else credit text }, b)
  | none => none

def start (a : Endpoint) (text : Bytes) : Endpoint := { a with controls := a.controls ++ [text] }

def ping (a : Endpoint) : Option Endpoint :=
  if a.stream.closed then none else some (a.start (ascii "ping"))

/-- `fail` sets `writeClosed` last, so on a closed stream the flag may still be unset here. -/
def closeWrite (a : Endpoint) : Option Endpoint :=
  match a.writer with
  | .idle =>
    if a.stream.writeClosed && !a.stream.closed then none
    else some (start { a with stream := { a.stream with writeClosed := true } } (ascii "eof"))
  | _ => none

def fail (a : Endpoint) (err : Option String) : Endpoint := { a with stream := a.stream.fail err }

def reset (a : Endpoint) : Endpoint :=
  (a.fail (some "native WebRTC stream reset")).start (ascii "abort")

def closeLink (a : Endpoint) : Endpoint := { a with link := a.link.close.1 }

def deliver (a : Endpoint) : Option Endpoint :=
  match a.forwarder with
  | .forwarding e [] =>
    match Lanes.pop e a.incoming with
    | some (frame, incoming) =>
      let (stream, replies, err) := a.stream.receive frame
      some { a with
        stream
        incoming
        forwarder := if err.isSome then .returned e else .forwarding e replies }
    | none => none
  | _ => none

def reply (a b : Endpoint) (ok : Bool) : Option (Endpoint × Endpoint) :=
  match a.forwarder with
  | .forwarding e (text :: replies) =>
    (transmit a b (controlFrame text) ok).map fun (_, b) =>
      ({ a with forwarder := .forwarding e replies }, b)
  | _ => none

/-- The channel is lost, or `Receive` returned an error: what is still on its way is gone. -/
def leave (a : Endpoint) (e : Nat) : Endpoint :=
  { a with
    link := a.link.detach e
    forwarder := .detached
    incoming := Lanes.drop e a.incoming
    abandoned := e :: a.abandoned }

def detach (a : Endpoint) : Option Endpoint :=
  match a.forwarder with
  | .forwarding e [] => some (a.leave e)
  | .returned e => some (a.leave e)
  | _ => none

def attach (a : Endpoint) (e : Nat) : Option Endpoint :=
  match a.forwarder with
  | .detached =>
    if e ∈ a.abandoned then none
    else
      (a.link.attach e).map fun link =>
        { a with link, forwarder := .attached e, newest := max a.newest (e + 1) }
  | _ => none

def reconnected (a : Endpoint) : Option Endpoint :=
  match a.forwarder with
  | .attached e =>
    some { a with
      stream := a.stream.reconnected
      forwarder := .announcing e [ascii "resume", ascii "flow:1"] }
  | _ => none

/-- `Reconnected` sends its next text; where that fails, so does the stream. -/
def announce (a b : Endpoint) (err : Option String) : Option (Endpoint × Endpoint) :=
  match a.forwarder with
  | .announcing e (text :: texts) =>
    (transmit a b (controlFrame text) err.isNone).map fun (sent, b) =>
      (if sent then
          { a with forwarder := if texts = [] then .forwarding e [] else .announcing e texts }
        else
          { a.fail (some (err.getD "io: read/write on closed pipe")) with forwarder := .stopped }, b)
  | _ => none

def step (a b : Endpoint) : Event → Option (Endpoint × Endpoint)
  | .write payload => (a.write payload).map (·, b)
  | .reserve => a.reserve.map (·, b)
  | .send ok => a.send b ok
  | .refund => a.refund.map (·, b)
  | .read size => (a.read size).map (·, b)
  | .control index ok => a.control b index ok
  | .ping => a.ping.map (·, b)
  | .closeWrite => a.closeWrite.map (·, b)
  | .fail err => some (a.fail err, b)
  | .reset => some (a.reset, b)
  | .closeLink => some (a.closeLink, b)
  | .deliver => a.deliver.map (·, b)
  | .reply ok => a.reply b ok
  | .detach => a.detach.map (·, b)
  | .attach e => (a.attach e).map (·, b)
  | .reconnected => a.reconnected.map (·, b)
  | .announce err => a.announce b err

end Endpoint

def dataOf (q : List (Nat × Frame)) : Bytes :=
  q.flatMap fun item => if item.2.type = frameData then item.2.payload else []

def acksOf (q : List (Nat × Frame)) : Nat :=
  (q.map fun item => if item.2.type = frameControl then credit item.2.payload else 0).sum

section Queues
variable (q r : List (Nat × Frame)) (payload : Bytes)

@[simp] theorem dataOf_nil : dataOf [] = [] := rfl

@[simp] theorem dataOf_append : dataOf (q ++ r) = dataOf q ++ dataOf r := flatMap_append

@[simp] theorem dataOf_cons (item : Nat × Frame) : dataOf (item :: q) =
    (if item.2.type = frameData then item.2.payload else []) ++ dataOf q := rfl

@[simp] theorem dataFrame_type : (dataFrame payload).type = frameData := rfl
@[simp] theorem dataFrame_payload : (dataFrame payload).payload = payload := rfl
@[simp] theorem controlFrame_type : (controlFrame payload).type = frameControl := rfl
@[simp] theorem controlFrame_payload : (controlFrame payload).payload = payload := rfl
@[simp] theorem frameControl_ne_frameData : frameControl ≠ frameData := by decide
@[simp] theorem frameData_ne_frameControl : frameData ≠ frameControl := by decide

@[simp] theorem acksOf_nil : acksOf [] = 0 := rfl

@[simp] theorem acksOf_append : acksOf (q ++ r) = acksOf q + acksOf r := by
  simp [acksOf]

@[simp] theorem acksOf_cons (item : Nat × Frame) : acksOf (item :: q) =
    (if item.2.type = frameControl then credit item.2.payload else 0) + acksOf q := by
  simp [acksOf]

theorem dataOf_eq_nil {q : List (Nat × Frame)} (h : ∀ item ∈ q, item.2.type ≠ frameData) :
    dataOf q = [] := by
  refine flatMap_eq_nil_iff.mpr fun item hitem => if_neg (h item hitem)

theorem dataOf_drop {q : List (Nat × Frame)} {e : Nat}
    (h : ∀ item ∈ q, item.2.type = frameData → item.1 ≠ e) :
    dataOf (Lanes.drop e q) = dataOf q := by
  induction q with
  | nil => rfl
  | cons item q ih =>
    have ih' := ih fun i hi => h i (mem_cons_of_mem _ hi)
    by_cases hlane : item.1 = e
    · have htype : item.2.type ≠ frameData := fun ht => h item (mem_cons_self ..) ht hlane
      rw [dataOf_cons, if_neg htype]
      simpa [Lanes.drop, hlane] using ih'
    · simpa [Lanes.drop, hlane] using ih'

theorem length_dataOf_drop_le (e : Nat) :
    (dataOf (Lanes.drop e q)).length ≤ (dataOf q).length :=
  (List.Sublist.flatMap filter_sublist _).length_le

end Queues

namespace Endpoint
variable {a b a' b' : Endpoint} {ok : Bool} {e : Nat}

theorem push_incoming (he : e ∉ b.abandoned) (f : Frame) :
    (b.push e f).incoming = b.incoming ++ [(e, f)] := if_neg he

theorem push_induction {P : List (Nat × Frame) → Prop} {f : Frame}
    (h : P b.incoming) (hpush : P (b.incoming ++ [(e, f)])) : P (b.push e f).incoming := by
  unfold push
  dsimp only
  split
  · exact h
  · exact hpush

theorem transmit_cases {frame : Frame} {sent : Bool} (h : transmit a b frame ok = some (sent, b')) :
    sent = false ∧ b' = b ∨
      sent = true ∧ ok = true ∧ ∃ e, a.link.peer = some e ∧ b' = b.push e frame := by
  unfold transmit at h
  split at h
  · cases h
    exact .inl ⟨rfl, rfl⟩
  split at h
  next e he =>
    split at h
    next hok =>
      cases h
      exact .inr ⟨rfl, hok, e, he, rfl⟩
    · cases h
      exact .inl ⟨rfl, rfl⟩
  · cases h

inductive Acts (a b : Endpoint) : Event → Endpoint → Endpoint → Prop where
  | write {payload : Bytes} (hidle : a.writer = .idle) (hopen : a.stream.writeRefused = false) :
      Acts a b (.write payload) { a with writer := .waiting payload } b
  | giveUp {payload : Bytes} (hwriter : a.writer = .waiting payload)
      (hclosed : a.stream.closed = true) : Acts a b .reserve { a with writer := .idle } b
  | reserve {payload : Bytes} (hwriter : a.writer = .waiting payload)
      (hroom : a.stream.windowFull payload.length = false) (hopen : a.stream.closed = false) :
      Acts a b .reserve
        { a with stream := a.stream.reserve payload.length, writer := .sending payload } b
  | sendFailed {payload : Bytes} {ok : Bool} (hwriter : a.writer = .sending payload) :
      Acts a b (.send ok) { a with writer := .failed payload } b
  | send {payload : Bytes} {e : Nat} (hwriter : a.writer = .sending payload)
      (hpeer : a.link.peer = some e) :
      Acts a b (.send true) { a with writer := .idle, written := a.written ++ payload }
        (b.push e (dataFrame payload))
  | refund {payload : Bytes} (hwriter : a.writer = .failed payload) :
      Acts a b .refund
        { a with stream := a.stream.acknowledge payload.length, writer := .idle } b
  | read {size : Nat} :
      Acts a b (.read size)
        { a with
          stream := (a.stream.read size).1
          readOut := a.readOut ++ (a.stream.read size).2.value
          controls := a.controls ++ (a.stream.read size).2.freed.toList } b
  | controlFailed {index : Nat} {ok : Bool} {text : Bytes}
      (htext : a.controls[index]? = some text) :
      Acts a b (.control index ok)
        { a with
          controls := a.controls.eraseIdx index
          unpaid := a.unpaid + credit text } b
  | control {index e : Nat} {ok : Bool} {text : Bytes} (htext : a.controls[index]? = some text)
      (hpeer : a.link.peer = some e) :
      Acts a b (.control index ok) { a with controls := a.controls.eraseIdx index }
        (b.push e (controlFrame text))
  | ping : Acts a b .ping (a.start (ascii "ping")) b
  | closeWrite :
      Acts a b .closeWrite
        (start { a with stream := { a.stream with writeClosed := true } } (ascii "eof")) b
  | fail {err : Option String} : Acts a b (.fail err) (a.fail err) b
  | reset : Acts a b .reset a.reset b
  | closeLink : Acts a b .closeLink a.closeLink b
  | deliver {e : Nat} {frame : Frame} {rest : List (Nat × Frame)}
      (hforwarder : a.forwarder = .forwarding e [])
      (hpop : Lanes.pop e a.incoming = some (frame, rest)) :
      Acts a b .deliver
        { a with
          stream := (a.stream.receive frame).1
          incoming := rest
          forwarder := if (a.stream.receive frame).2.2.isSome then .returned e
            else .forwarding e (a.stream.receive frame).2.1 } b
  | replyFailed {e : Nat} {ok : Bool} {text : Bytes} {replies : List Bytes}
      (hforwarder : a.forwarder = .forwarding e (text :: replies)) :
      Acts a b (.reply ok) { a with forwarder := .forwarding e replies } b
  | reply {e c : Nat} {ok : Bool} {text : Bytes} {replies : List Bytes}
      (hforwarder : a.forwarder = .forwarding e (text :: replies))
      (hpeer : a.link.peer = some c) :
      Acts a b (.reply ok) { a with forwarder := .forwarding e replies }
        (b.push c (controlFrame text))
  | detach {e : Nat} (hchannel : a.forwarder.channel = some e) : Acts a b .detach (a.leave e) b
  | attach {e : Nat} (hforwarder : a.forwarder = .detached) (hfresh : e ∉ a.abandoned) :
      Acts a b (.attach e)
        { a with
          link := { peer := some e }
          forwarder := .attached e
          newest := max a.newest (e + 1) } b
  | reconnected {e : Nat} (hforwarder : a.forwarder = .attached e) :
      Acts a b .reconnected
        { a with
          stream := a.stream.reconnected
          forwarder := .announcing e [ascii "resume", ascii "flow:1"] } b
  | announceFailed {e : Nat} {err err' : Option String} {texts : List Bytes}
      (hforwarder : a.forwarder = .announcing e texts) :
      Acts a b (.announce err) { a.fail err' with forwarder := .stopped } b
  | announce {e c : Nat} {err : Option String} {text : Bytes} {texts : List Bytes}
      (hforwarder : a.forwarder = .announcing e (text :: texts)) (hpeer : a.link.peer = some c) :
      Acts a b (.announce err)
        { a with forwarder := if texts = [] then .forwarding e [] else .announcing e texts }
        (b.push c (controlFrame text))

theorem acts_write {payload : Bytes} (h : a.write payload = some a') :
    Acts a b (.write payload) a' b := by
  unfold write at h
  split at h
  next hidle =>
    obtain ⟨hopen, h⟩ := Option.ite_none_left_eq_some.mp h
    cases h
    exact .write hidle (by simpa using hopen)
  · cases h

theorem acts_reserve (h : a.reserve = some a') : Acts a b .reserve a' b := by
  unfold reserve at h
  split at h
  next payload hwriter =>
    obtain ⟨hroom, h⟩ := Option.ite_none_left_eq_some.mp h
    split at h
    next hclosed =>
      cases h
      exact .giveUp hwriter hclosed
    next hopen =>
      cases h
      exact .reserve hwriter (by simpa using hroom) (by simpa using hopen)
  · cases h

theorem acts_send (h : a.send b ok = some (a', b')) : Acts a b (.send ok) a' b' := by
  unfold send at h
  split at h
  next payload hwriter =>
    obtain ⟨⟨sent, b''⟩, htransmit, heq⟩ := Option.map_eq_some_iff.mp h
    cases heq
    rcases transmit_cases htransmit with ⟨rfl, rfl⟩ | ⟨rfl, rfl, e, hpeer, rfl⟩
    · exact .sendFailed hwriter
    · exact .send hwriter hpeer
  · cases h

theorem acts_refund (h : a.refund = some a') : Acts a b .refund a' b := by
  unfold refund at h
  split at h
  next payload hwriter =>
    cases h
    exact .refund hwriter
  · cases h

theorem acts_read {size : Nat} (h : a.read size = some a') : Acts a b (.read size) a' b := by
  unfold read at h
  obtain ⟨-, h⟩ := Option.ite_none_left_eq_some.mp h
  cases h
  exact .read

theorem acts_control {index : Nat} (h : a.control b index ok = some (a', b')) :
    Acts a b (.control index ok) a' b' := by
  unfold control at h
  split at h
  next text htext =>
    obtain ⟨⟨sent, b''⟩, htransmit, heq⟩ := Option.map_eq_some_iff.mp h
    cases heq
    rcases transmit_cases htransmit with ⟨rfl, rfl⟩ | ⟨rfl, _, e, hpeer, rfl⟩
    · exact .controlFailed htext
    · exact .control htext hpeer
  · cases h

theorem acts_ping (h : a.ping = some a') : Acts a b .ping a' b := by
  obtain ⟨-, h⟩ := Option.ite_none_left_eq_some.mp h
  cases h
  exact .ping

theorem acts_closeWrite (h : a.closeWrite = some a') : Acts a b .closeWrite a' b := by
  unfold closeWrite at h
  split at h
  · obtain ⟨-, h⟩ := Option.ite_none_left_eq_some.mp h
    cases h
    exact .closeWrite
  · cases h

theorem acts_deliver (h : a.deliver = some a') : Acts a b .deliver a' b := by
  unfold deliver at h
  split at h
  next e hforwarder =>
    split at h
    next frame rest hpop =>
      cases h
      exact .deliver hforwarder hpop
    · cases h
  · cases h

theorem acts_reply (h : a.reply b ok = some (a', b')) :
    Acts a b (.reply ok) a' b' := by
  unfold reply at h
  split at h
  next e text replies hforwarder =>
    obtain ⟨⟨sent, b''⟩, htransmit, heq⟩ := Option.map_eq_some_iff.mp h
    cases heq
    rcases transmit_cases htransmit with ⟨_, rfl⟩ | ⟨_, _, c, hpeer, rfl⟩
    · exact .replyFailed hforwarder
    · exact .reply hforwarder hpeer
  · cases h

theorem acts_detach (h : a.detach = some a') : Acts a b .detach a' b := by
  unfold detach at h
  split at h
  next e hforwarder =>
    cases h
    exact .detach (by rw [hforwarder]; rfl)
  next e hforwarder =>
    cases h
    exact .detach (by rw [hforwarder]; rfl)
  · cases h

theorem acts_attach (h : a.attach e = some a') : Acts a b (.attach e) a' b := by
  unfold attach at h
  split at h
  next hforwarder =>
    obtain ⟨hfresh, h⟩ := Option.ite_none_left_eq_some.mp h
    obtain ⟨link, hattach, rfl⟩ := Option.map_eq_some_iff.mp h
    obtain ⟨_, _, rfl⟩ := PeerLink.attach_eq_some hattach
    exact .attach hforwarder hfresh
  · cases h

theorem acts_reconnected (h : a.reconnected = some a') : Acts a b .reconnected a' b := by
  unfold reconnected at h
  split at h
  next e hforwarder =>
    cases h
    exact .reconnected hforwarder
  · cases h

theorem acts_announce {err : Option String} (h : a.announce b err = some (a', b')) :
    Acts a b (.announce err) a' b' := by
  unfold announce at h
  split at h
  next e text texts hforwarder =>
    obtain ⟨⟨sent, b''⟩, htransmit, heq⟩ := Option.map_eq_some_iff.mp h
    cases heq
    rcases transmit_cases htransmit with ⟨rfl, rfl⟩ | ⟨rfl, _, c, hpeer, rfl⟩
    · exact .announceFailed hforwarder
    · exact .announce hforwarder hpeer
  · cases h

theorem acts_alone {ev : Event} {act : Option Endpoint} (h : act.map (·, b) = some (a', b'))
    (hact : act = some a' → Acts a b ev a' b) : Acts a b ev a' b' := by
  obtain ⟨_, rfl, ⟨⟩⟩ := Option.map_eq_some_iff.mp h
  exact hact rfl

theorem acts_of_step {ev : Event} (h : a.step b ev = some (a', b')) : Acts a b ev a' b' := by
  cases ev with
  | write payload => exact acts_alone h acts_write
  | reserve => exact acts_alone h acts_reserve
  | send ok => exact acts_send h
  | refund => exact acts_alone h acts_refund
  | read size => exact acts_alone h acts_read
  | control index ok => exact acts_control h
  | ping => exact acts_alone h acts_ping
  | closeWrite => exact acts_alone h acts_closeWrite
  | fail err =>
    cases h
    exact .fail
  | reset =>
    cases h
    exact .reset
  | closeLink =>
    cases h
    exact .closeLink
  | deliver => exact acts_alone h acts_deliver
  | reply ok => exact acts_reply h
  | detach => exact acts_alone h acts_detach
  | attach e => exact acts_alone h acts_attach
  | reconnected => exact acts_alone h acts_reconnected
  | announce err => exact acts_announce h

end Endpoint

def writeOne (payload : Bytes) : List (TwoParty.Side × Endpoint.Event) :=
  [(.near, .write payload), (.near, .reserve), (.near, .send true)]

end P2PNetcat.NativeWebRTC
