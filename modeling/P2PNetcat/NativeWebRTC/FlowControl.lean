import P2PNetcat.NativeWebRTC.Duplex

/-!
# Conservation of flow-control credit

On one channel that stays up, the bytes a sender counts in flight are those of a
`Write` in progress, those on the channel, those in the receive queue, and those
of acknowledgements that have not come back yet.
-/

namespace P2PNetcat.NativeWebRTC
open List ByteCodec StepSystem TwoParty
variable {count : Nat}

def Writer.reserved : Writer → Nat
  | .sending payload | .failed payload => payload.length
  | _ => 0

def Writer.size : Writer → Nat
  | .waiting payload | .sending payload | .failed payload => payload.length
  | .idle => 0

def creditOf (texts : List Bytes) : Nat := (texts.map credit).sum

def Harmless (text : Bytes) : Prop :=
  Control.ofText text ≠ .eof ∧ Control.ofText text ≠ .abort ∧ Control.ofText text ≠ .resume

instance (text : Bytes) : Decidable (Harmless text) := inferInstanceAs (Decidable (_ ∧ _))

theorem harmless_flow : Harmless (ascii "flow:1") := by decide
theorem harmless_ping : Harmless (ascii "ping") := by decide
theorem harmless_pong : Harmless (ascii "pong") := by decide

theorem harmless_ackControl (h : count < 2 ^ 63) : Harmless (ackControl count) := by
  unfold Harmless
  rw [ofText_ackControl h]
  split <;> simp

theorem credit_ackControl (h : count < 2 ^ 63) : credit (ackControl count) = count := by
  unfold credit
  rw [ofText_ackControl h]
  by_cases hpos : 0 < count
  · simp [hpos]
  · simp [hpos]
    omega

@[simp] theorem creditOf_nil : creditOf [] = 0 := rfl

@[simp] theorem creditOf_cons (text : Bytes) (texts : List Bytes) :
    creditOf (text :: texts) = credit text + creditOf texts := by
  simp [creditOf]

@[simp] theorem creditOf_append (texts texts' : List Bytes) :
    creditOf (texts ++ texts') = creditOf texts + creditOf texts' := by
  simp [creditOf]

theorem creditOf_eraseIdx {texts : List Bytes} {index : Nat} {text : Bytes}
    (h : texts[index]? = some text) :
    creditOf (texts.eraseIdx index) + credit text = creditOf texts := by
  induction texts generalizing index with
  | nil => cases h
  | cons first texts ih =>
    cases index with
    | zero =>
      cases h
      simp [Nat.add_comm]
    | succ index =>
      have := ih (getElem?_cons_succ ▸ h)
      simp only [eraseIdx_cons_succ, creditOf_cons]
      omega

def textWork (text : Bytes) : Nat :=
  match Control.ofText text with
  | .ping | .resume => 3
  | _ => 1

def sendWork (texts : List Bytes) : Nat := (texts.map fun text => textWork text + 1).sum

/-- A data frame becomes a chunk of the receive queue, and the chunk an acknowledgement. -/
def frameWork (frame : Frame) : Nat := if frame.type = frameControl then textWork frame.payload else 4

theorem textWork_pos (text : Bytes) : 0 < textWork text := by
  unfold textWork
  split <;> simp

@[simp] theorem sendWork_nil : sendWork [] = 0 := rfl

@[simp] theorem sendWork_cons (text : Bytes) (texts : List Bytes) :
    sendWork (text :: texts) = textWork text + 1 + sendWork texts := by
  simp [sendWork]

theorem textWork_ackControl (h : count < 2 ^ 63) : textWork (ackControl count) = 1 := by
  unfold textWork
  rw [ofText_ackControl h]
  by_cases hpos : 0 < count <;> simp [hpos]

def queueWork (q : List (Nat × Frame)) : Nat := (q.map fun item => frameWork item.2).sum

@[simp] theorem queueWork_cons (item : Nat × Frame) (q : List (Nat × Frame)) :
    queueWork (item :: q) = frameWork item.2 + queueWork q := by
  simp [queueWork]

theorem queueWork_push (q : List (Nat × Frame)) (e : Nat) (text : Bytes) :
    queueWork (q ++ [(e, controlFrame text)]) = queueWork q + textWork text := by
  simp [queueWork, frameWork]

def Forwarder.replies : Forwarder → List Bytes
  | .forwarding _ replies => replies
  | _ => []

namespace Endpoint

def work (a : Endpoint) : Nat :=
  queueWork a.incoming + sendWork a.forwarder.replies + sendWork a.controls +
    3 * a.stream.readQueue.length

/-- The channel stays up, the streams stay open, and a `Write` of at most `m` bytes starts only
after `flow:1` has been processed. -/
def KeepsChannel (m : Nat) (a _ : Endpoint) : Event → Prop
  | .write payload => a.stream.flowEnabled = true ∧ payload.length ≤ m
  | .detach | .closeLink | .closeWrite | .fail _ | .reset => False
  | _ => True

instance (m : Nat) (a b : Endpoint) (ev : Event) : Decidable (KeepsChannel m a b ev) := by
  unfold KeepsChannel
  split <;> infer_instance

def Plain (item : Nat × Frame) : Prop :=
  item.1 = 0 ∧ (item.2.type = frameData ∨ item.2.type = frameControl ∧ Harmless item.2.payload)

structure Steady (m : Nat) (a : Endpoint) : Prop where
  link : a.link = { peer := some 0 }
  abandoned : a.abandoned = []
  closed : a.stream.closed = false
  closedRead : a.stream.closedRead = false
  valid : a.stream.Valid
  forwarder : ∃ replies, a.forwarder = .forwarding 0 replies ∧
    ∀ text ∈ replies, Harmless text ∧ credit text = 0
  controls : ∀ text ∈ a.controls, Harmless text
  incoming : ∀ item ∈ a.incoming, Plain item
  armed : a.writer ≠ .idle → a.stream.flowEnabled = true
  size : a.writer.size ≤ m
  window : a.stream.inFlight ≤ max flowWindowBytes m

def Balanced (a b : Endpoint) : Prop :=
  a.stream.inFlight = a.writer.reserved + (dataOf b.incoming).length + b.stream.readQueued +
    (creditOf b.controls + acksOf a.incoming + b.unpaid)

end Endpoint

namespace Stream

/-- The bytes a frame adds to the receive queue, and those it takes off the sender's count. -/
structure Takes (s : Stream) (frame : Frame) (r : Stream × List Bytes × Option String) : Prop where
  err : r.2.2 = none
  replies : ∀ text ∈ r.2.1, Harmless text ∧ credit text = 0
  closed : r.1.closed = s.closed
  closedRead : r.1.closedRead = s.closedRead
  flowEnabled : s.flowEnabled = true → r.1.flowEnabled = true
  readQueued : r.1.readQueued =
    s.readQueued + (if frame.type = frameData then frame.payload else []).length
  inFlight : r.1.inFlight =
    s.inFlight - (if frame.type = frameControl then credit frame.payload else 0 : Nat)
  work : sendWork r.2.1 + 3 * r.1.readQueue.length < frameWork frame + 3 * s.readQueue.length

theorem takes_data {s : Stream} {frame : Frame} (hopen : s.closed = false)
    (hread : s.closedRead = false) (htype : frame.type = frameData)
    (hfits : s.overflows frame.payload = false) : Takes s frame (s.receive frame) := by
  rw [receive_of_accepts (by simp [accepts, htype, hopen, hread, hfits])]
  refine ⟨rfl, forall_mem_nil _, rfl, rfl, id, by rw [if_pos htype], by simp [htype], ?_⟩
  simp only [frameWork, htype, sendWork_nil, length_append, length_singleton,
    frameData_ne_frameControl, if_false]
  omega

theorem takes_control {s : Stream} {frame : Frame} (htype : frame.type = frameControl)
    (htext : Harmless frame.payload) (hcredit : (credit frame.payload : Int) ≤ s.inFlight) :
    Takes s frame (s.receive frame) := by
  have hdata : frame.type ≠ frameData := by simp [htype]
  obtain ⟨heof, habort, hresume⟩ := htext
  have hwork : sendWork [] + 3 * s.readQueue.length < frameWork frame + 3 * s.readQueue.length := by
    have hpos := textWork_pos frame.payload
    simp only [sendWork_nil, frameWork, htype, if_true]
    omega
  unfold receive
  rw [if_neg hdata, if_pos htype]
  unfold credit at hcredit
  unfold receiveControl
  cases hcontrol : Control.ofText frame.payload with
  | eof => exact absurd hcontrol heof
  | abort => exact absurd hcontrol habort
  | resume => exact absurd hcontrol hresume
  | flow =>
    exact ⟨rfl, nofun, rfl, rfl, fun _ => rfl, by simp [hdata], by simp [credit, hcontrol], hwork⟩
  | ping =>
    refine ⟨rfl, fun text ht => ?_, rfl, rfl, id, by simp [hdata], by simp [credit, hcontrol], ?_⟩
    · rw [mem_singleton.mp ht]
      exact ⟨harmless_pong, by decide⟩
    · have hpong : sendWork [ascii "pong"] = 2 := by decide
      simp only [frameWork, htype, if_true, textWork, hcontrol, hpong]
      omega
  | other => exact ⟨rfl, nofun, rfl, rfl, id, by simp [hdata], by simp [credit, hcontrol], hwork⟩
  | ack value =>
    rw [hcontrol] at hcredit
    dsimp only at hcredit
    refine ⟨rfl, nofun, rfl, rfl, id, by simp [hdata, acknowledge], ?_, hwork⟩
    simp only [acknowledge, htype, if_true, credit, hcontrol]
    omega

end Stream

namespace Endpoint
variable {m : Nat} {a b a' b' : Endpoint} {frame : Frame} {e : Nat}

theorem Balanced.bounds (h : Balanced a b) (hb : b.Steady m) :
    0 ≤ b.stream.readQueued ∧ (a.writer.reserved : Int) + (dataOf b.incoming).length +
      b.stream.readQueued + acksOf a.incoming ≤ a.stream.inFlight := by
  have hq := hb.valid.queued
  unfold Balanced at h
  omega

/-- Data on its way to an end that keeps its credit fits into the receive queue. -/
theorem Balanced.fits (h : Balanced a b) (ha : a.Steady m) (hb : b.Steady m)
    (hm : m ≤ maxReadQueueBytes) (hframe : (e, frame) ∈ b.incoming)
    (htype : frame.type = frameData) : b.stream.overflows frame.payload = false := by
  have hle : frame.payload.length ≤ (dataOf b.incoming).length := by
    obtain ⟨front, back, hq⟩ := append_of_mem hframe
    rw [hq]
    simp only [dataOf_append, dataOf_cons, htype, if_true, length_append]
    omega
  obtain ⟨_, hbound⟩ := h.bounds hb
  have hwindow := ha.window
  simp only [Stream.overflows, decide_eq_false_iff_not]
  simp only [flowWindowBytes, maxReadQueueBytes] at *
  omega

theorem Balanced.covers (h : Balanced a b) (hb : b.Steady m)
    (hframe : (e, frame) ∈ a.incoming) (htype : frame.type = frameControl) :
    (credit frame.payload : Int) ≤ a.stream.inFlight := by
  have hle : credit frame.payload ≤ acksOf a.incoming := by
    obtain ⟨front, back, hq⟩ := append_of_mem hframe
    rw [hq]
    simp only [acksOf_append, acksOf_cons, htype, if_true]
    omega
  obtain ⟨_, hbound⟩ := h.bounds hb
  omega

theorem receive_takes (h : Balanced a b) (h' : Balanced b a) (ha : a.Steady m) (hb : b.Steady m)
    (hm : m ≤ maxReadQueueBytes) (hframe : (e, frame) ∈ a.incoming) :
    Stream.Takes a.stream frame (a.stream.receive frame) := by
  rcases (ha.incoming _ hframe).2 with htype | ⟨htype, htext⟩
  · exact Stream.takes_data ha.closed ha.closedRead htype (h'.fits hb ha hm hframe htype)
  · exact Stream.takes_control htype htext (h.covers hb hframe htype)

structure Conserves (m : Nat) (a b : Endpoint) : Prop where
  steady : a.Steady m
  balanced : Balanced a b

namespace Conserves

theorem initial (m : Nat) : Conserves m {} {} where
  steady :=
    { link := rfl
      abandoned := rfl
      closed := rfl
      closedRead := rfl
      valid := Stream.valid_new
      forwarder := ⟨[], rfl, nofun⟩
      controls := by
        intro text ht
        rw [mem_singleton.mp ht]
        exact harmless_flow
      incoming := nofun
      armed := fun h => absurd rfl h
      size := Nat.zero_le _
      window := by simp }
  balanced := rfl

end Conserves

theorem Steady.channel (h : a.Steady m) (he : a.link.peer = some e) : 0 = e := by
  rw [h.link] at he
  exact Option.some.inj he

theorem Steady.push_eq (h : b.Steady m) (frame : Frame) :
    b.push 0 frame = { b with incoming := b.incoming ++ [(0, frame)] } := by
  simp [push, h.abandoned]

theorem Steady.push (h : b.Steady m)
    (hplain : frame.type = frameData ∨ frame.type = frameControl ∧ Harmless frame.payload) :
    ({ b with incoming := b.incoming ++ [(0, frame)] } : Endpoint).Steady m :=
  { h with
    incoming := fun item hitem => by
      rcases mem_append.mp hitem with hold | hnew
      · exact h.incoming item hold
      · rw [mem_singleton.mp hnew]
        exact ⟨rfl, hplain⟩ }

namespace Conserves
variable (h : Conserves m a b) (h' : Conserves m b a)
include h h'

theorem letThrough {payload : Bytes} (hwriter : a.writer = .waiting payload)
    (hroom : a.stream.windowFull payload.length = false) :
    Conserves m
      { a with stream := a.stream.reserve payload.length, writer := .sending payload } b := by
  have henabled : a.stream.flowEnabled = true := h.steady.armed (by simp [hwriter])
  have hbalanced := h.balanced
  have hsize := h.steady.size
  have hwindow := h.steady.window
  obtain ⟨hpos, hbound⟩ := h.balanced.bounds h'.steady
  simp only [hwriter, Balanced, Writer.reserved, Writer.size] at hbalanced hsize
  simp only [Stream.windowFull, henabled, h.steady.closed, Bool.true_and, Bool.not_false,
    Bool.and_true, Bool.and_eq_false_imp, decide_eq_true_eq, decide_eq_false_iff_not] at hroom
  rw [show a.stream.reserve payload.length =
    { a.stream with inFlight := a.stream.inFlight + payload.length } from if_pos henabled]
  refine ⟨{ h.steady with
    valid := ⟨h.steady.valid.queued, h.steady.valid.offset, h.steady.valid.empty⟩
    armed := fun _ => henabled
    size := hsize
    window := ?_ }, ?_⟩
  · by_cases hzero : 0 < a.stream.inFlight
    · have := hroom hzero
      dsimp only
      omega
    · dsimp only
      omega
  · simp only [Balanced, Writer.reserved]
    omega

theorem refund {payload : Bytes} (hwriter : a.writer = .failed payload) :
    Conserves m
      { a with stream := a.stream.acknowledge payload.length, writer := .idle } b := by
  have hbalanced := h.balanced
  have hwindow := h.steady.window
  obtain ⟨hpos, hbound⟩ := h.balanced.bounds h'.steady
  simp only [hwriter, Balanced, Writer.reserved] at hbalanced hbound
  refine ⟨{ h.steady with
    valid := ⟨h.steady.valid.queued, h.steady.valid.offset, h.steady.valid.empty⟩
    armed := fun hne => absurd rfl hne
    size := Nat.zero_le _
    window := ?_ }, ?_⟩
  · simp only [Stream.acknowledge]
    omega
  · simp only [Balanced, Writer.reserved, Stream.acknowledge]
    omega

variable (hm : m ≤ maxReadQueueBytes)
include hm

theorem deliver {e : Nat} {frame : Frame}
    {rest : List (Nat × Frame)} (hforwarder : a.forwarder = .forwarding e [])
    (hpop : Lanes.pop e a.incoming = some (frame, rest)) {a' : Endpoint}
    (ha' : a' = { a with
      stream := (a.stream.receive frame).1
      incoming := rest
      forwarder := if (a.stream.receive frame).2.2.isSome then .returned e
        else .forwarding e (a.stream.receive frame).2.1 }) :
    Conserves m a' b ∧ Conserves m b a' := by
  obtain ⟨front, back, hq, rfl, _⟩ := Lanes.pop_eq_some hpop
  have hframe : (e, frame) ∈ a.incoming := by simp [hq]
  have htakes := receive_takes h.balanced h'.balanced h.steady h'.steady hm hframe
  obtain rfl : e = 0 := (h.steady.incoming _ hframe).1
  have hbalanced := h.balanced
  have hbalanced' := h'.balanced
  have hwindow := h.steady.window
  simp only [Balanced, hq, dataOf_append, dataOf_cons, acksOf_append, acksOf_cons,
    length_append, Int.natCast_add] at hbalanced hbalanced'
  subst ha'
  refine ⟨⟨{ h.steady with
    closed := htakes.closed.trans h.steady.closed
    closedRead := htakes.closedRead.trans h.steady.closedRead
    valid := Stream.receive_valid h.steady.valid frame
    forwarder := ⟨_, by rw [htakes.err]; rfl, htakes.replies⟩
    incoming := fun item hitem => h.steady.incoming item ?_
    armed := fun hne => htakes.flowEnabled (h.steady.armed hne)
    window := ?_ }, ?_⟩, ⟨h'.steady, ?_⟩⟩
  · rw [hq]
    rcases mem_append.mp hitem with hf | hb
    · exact mem_append_left _ hf
    · exact mem_append_right _ (mem_cons_of_mem _ hb)
  · dsimp only
    rw [htakes.inFlight]
    omega
  · simp only [Balanced, htakes.inFlight, acksOf_append, Int.natCast_add]
    omega
  · simp only [Balanced, htakes.readQueued, dataOf_append, length_append, Int.natCast_add]
    omega

theorem chunk_short {chunk : Bytes}
    (hchunk : chunk ∈ a.stream.readQueue) : chunk.length < 2 ^ 63 := by
  obtain ⟨hpos, hbound⟩ := h'.balanced.bounds h.steady
  have hwindow := h'.steady.window
  have hpart : chunk.length ≤ a.stream.readQueue.flatten.length :=
    (sublist_flatten_of_mem hchunk).length_le
  have hq := h.steady.valid.queued
  simp only [flowWindowBytes, maxReadQueueBytes] at *
  omega

theorem read (size : Nat) (readOut : Bytes) {a' : Endpoint}
    (ha' : a' = { a with
      stream := (a.stream.read size).1
      readOut
      controls := a.controls ++ (a.stream.read size).2.freed.toList }) :
    Conserves m a' b ∧ Conserves m b a' := by
  have hcontrol := a.stream.read_control size
  obtain ⟨hvalid, _, hqueued⟩ := Stream.read_spec h.steady.valid size
  obtain ⟨hpos, hbound⟩ := h'.balanced.bounds h.steady
  have hwindow := h'.steady.window
  have hbalanced' := h'.balanced
  have hfreed : (∀ text ∈ (a.stream.read size).2.freed.toList, Harmless text) ∧
      (a.stream.read size).1.readQueued + creditOf (a.stream.read size).2.freed.toList =
        a.stream.readQueued := by
    rcases hqueued with ⟨hnone, hsame⟩ | ⟨chunk, hchunk, hsome, hless⟩
    · rw [hnone]
      exact ⟨nofun, by simpa using hsame⟩
    have hshort := h.chunk_short h' hm hchunk
    rw [hsome]
    refine ⟨fun text ht => ?_, ?_⟩
    · rw [mem_singleton.mp ht]
      exact harmless_ackControl hshort
    · simpa [credit_ackControl hshort] using hless
  subst ha'
  refine ⟨⟨{ h.steady with
    closed := hcontrol.closed.trans h.steady.closed
    closedRead := hcontrol.closedRead.trans h.steady.closedRead
    valid := hvalid
    controls := fun text ht => ?_
    armed := fun hne => hcontrol.flowEnabled.trans (h.steady.armed hne)
    window := ?_ }, ?_⟩, ⟨h'.steady, ?_⟩⟩
  · rcases mem_append.mp ht with hold | hnew
    · exact h.steady.controls text hold
    · exact hfreed.1 text hnew
  · dsimp only
    rw [hcontrol.inFlight]
    exact h.steady.window
  · exact hcontrol.inFlight.trans h.balanced
  · have hfreed' := hfreed.2
    simp only [Balanced, creditOf_append, Int.natCast_add] at hbalanced' ⊢
    omega

end Conserves

theorem Conserves.step (hm : m ≤ maxReadQueueBytes) (h : Conserves m a b) (h' : Conserves m b a)
    {ev : Event} (hok : KeepsChannel m a b ev) (hs : a.step b ev = some (a', b')) :
    Conserves m a' b' ∧ Conserves m b' a' := by
  have hbalanced := h.balanced
  have hbalanced' := h'.balanced
  unfold Balanced at hbalanced hbalanced'
  cases acts_of_step hs with
  | write hidle =>
    refine ⟨⟨{ h.steady with armed := fun _ => hok.1, size := hok.2 }, ?_⟩, ⟨h'.steady, h'.balanced⟩⟩
    rw [hidle] at hbalanced
    exact hbalanced
  | giveUp _ hclosed =>
    rw [h.steady.closed] at hclosed
    cases hclosed
  | @reserve payload hwriter hroom =>
    refine ⟨h.letThrough h' hwriter hroom, ⟨h'.steady, ?_⟩⟩
    simp only [Balanced, Stream.reserve]
    split <;> exact hbalanced'
  | sendFailed hwriter =>
    have hsize := h.steady.size
    have harmed := h.steady.armed
    rw [hwriter] at hbalanced hsize harmed
    exact ⟨⟨{ h.steady with armed := fun _ => harmed nofun, size := hsize }, hbalanced⟩,
      ⟨h'.steady, h'.balanced⟩⟩
  | @send payload e hwriter hpeer =>
    obtain rfl := h.steady.channel hpeer
    rw [hwriter] at hbalanced
    rw [h'.steady.push_eq]
    refine ⟨⟨{ h.steady with armed := fun hne => absurd rfl hne, size := Nat.zero_le _ }, ?_⟩,
      ⟨h'.steady.push (.inl rfl), ?_⟩⟩
    · simp only [Balanced, Writer.reserved, dataOf_append, dataOf_cons, dataFrame_type, if_true,
        dataFrame_payload, dataOf_nil, append_nil, length_append, Int.natCast_add]
        at hbalanced ⊢
      omega
    · simpa [Balanced] using hbalanced'
  | refund hwriter => exact ⟨h.refund h' hwriter, ⟨h'.steady, hbalanced'⟩⟩
  | @read size => exact h.read h' hm size _ rfl
  | controlFailed htext =>
    have herase := creditOf_eraseIdx htext
    refine ⟨⟨{ h.steady with
      controls := fun t ht => h.steady.controls t (mem_of_mem_eraseIdx ht) }, h.balanced⟩,
      ⟨h'.steady, ?_⟩⟩
    simp only [Balanced, Int.natCast_add]
    omega
  | @control index e ok text htext hpeer =>
    obtain rfl := h.steady.channel hpeer
    have herase := creditOf_eraseIdx htext
    have hharmless := h.steady.controls text (mem_of_getElem? htext)
    rw [h'.steady.push_eq]
    refine ⟨⟨{ h.steady with
      controls := fun t ht => h.steady.controls t (mem_of_mem_eraseIdx ht) }, ?_⟩,
      ⟨h'.steady.push (.inr ⟨rfl, hharmless⟩), ?_⟩⟩
    · simpa [Balanced] using hbalanced
    · simp only [Balanced, acksOf_append, acksOf_cons, acksOf_nil, controlFrame_type,
        controlFrame_payload, if_true, Int.natCast_add]
      omega
  | ping =>
    refine ⟨⟨{ h.steady with controls := fun t ht => ?_ }, h.balanced⟩, ⟨h'.steady, ?_⟩⟩
    · rcases mem_append.mp ht with hold | hnew
      · exact h.steady.controls t hold
      · rw [mem_singleton.mp hnew]
        exact harmless_ping
    · simpa [Balanced, start, show credit (ascii "ping") = 0 by decide] using hbalanced'
  | closeWrite | fail | reset | closeLink | detach => exact hok.elim
  | deliver hforwarder hpop => exact h.deliver h' hm hforwarder hpop rfl
  | replyFailed hforwarder =>
    obtain ⟨_, heq, hreplies⟩ := h.steady.forwarder
    rw [hforwarder] at heq
    cases heq
    exact ⟨⟨{ h.steady with
      forwarder := ⟨_, rfl, fun t ht => hreplies t (mem_cons_of_mem _ ht)⟩ }, h.balanced⟩,
      ⟨h'.steady, h'.balanced⟩⟩
  | reply hforwarder hpeer =>
    obtain ⟨_, heq, hreplies⟩ := h.steady.forwarder
    rw [hforwarder] at heq
    cases heq
    obtain rfl := h.steady.channel hpeer
    obtain ⟨hharmless, hcredit⟩ := hreplies _ (mem_cons_self ..)
    rw [h'.steady.push_eq]
    refine ⟨⟨{ h.steady with
      forwarder := ⟨_, rfl, fun t ht => hreplies t (mem_cons_of_mem _ ht)⟩ }, ?_⟩,
      ⟨h'.steady.push (.inr ⟨rfl, hharmless⟩), ?_⟩⟩
    · simpa [Balanced] using hbalanced
    · simpa [Balanced, hcredit] using hbalanced'
  | attach hforwarder | reconnected hforwarder | announceFailed hforwarder | announce hforwarder =>
    obtain ⟨_, heq, _⟩ := h.steady.forwarder
    rw [hforwarder] at heq
    cases heq

/-- An end with work left can take a step that leaves the two ends less of it. -/
theorem Conserves.progress (hm : m ≤ maxReadQueueBytes) (h : Conserves m a b)
    (h' : Conserves m b a) (hwork : 0 < a.work) :
    ∃ ev a' b', KeepsChannel m a b ev ∧ a.step b ev = some (a', b') ∧
      a'.work + b'.work < a.work + b.work ∧ a'.writer = a.writer ∧ b'.writer = b.writer ∧
      a'.unpaid = a.unpaid ∧ b'.unpaid = b.unpaid := by
  have hsend : ∀ frame, transmit a b frame true =
      some (true, { b with incoming := b.incoming ++ [(0, frame)] }) := by
    intro frame
    rw [← h'.steady.push_eq]
    simp [transmit, h.steady.link]
  obtain ⟨replies, hforwarder, _⟩ := h.steady.forwarder
  cases replies with
  | cons text replies =>
    refine ⟨.reply true, { a with forwarder := .forwarding 0 replies },
      { b with incoming := b.incoming ++ [(0, controlFrame text)] }, trivial,
      by simp only [Endpoint.step, reply, hforwarder, hsend]; rfl, ?_, rfl, rfl, rfl, rfl⟩
    simp only [work, hforwarder, Forwarder.replies, sendWork_cons, queueWork_push]
    omega
  | nil =>
    cases hincoming : a.incoming with
    | cons item rest =>
      obtain ⟨e, frame⟩ := item
      have hframe : (e, frame) ∈ a.incoming := by simp [hincoming]
      obtain rfl : e = 0 := (h.steady.incoming _ hframe).1
      have htakes := receive_takes h.balanced h'.balanced h.steady h'.steady hm hframe
      refine ⟨.deliver, { a with
          stream := (a.stream.receive frame).1
          incoming := rest
          forwarder := .forwarding 0 (a.stream.receive frame).2.1 }, b, trivial, ?_, ?_,
        rfl, rfl, rfl, rfl⟩
      · simp only [Endpoint.step, Endpoint.deliver, hforwarder, hincoming, Lanes.pop_head,
          htakes.err]
        rfl
      · have hless := htakes.work
        simp only [work, hforwarder, hincoming, Forwarder.replies, sendWork_nil, queueWork_cons]
        omega
    | nil =>
      cases hcontrols : a.controls with
      | cons text controls =>
        refine ⟨.control 0 true, { a with controls },
          { b with incoming := b.incoming ++ [(0, controlFrame text)] }, trivial,
          by simp only [Endpoint.step, control, hcontrols, getElem?_cons_zero, hsend]; rfl,
          ?_, rfl, rfl, rfl, rfl⟩
        simp only [work, hcontrols, sendWork_cons, queueWork_push]
        omega
      | nil =>
        cases hqueue : a.stream.readQueue with
        | cons chunk rest =>
          have hshort := h.chunk_short h' hm (show chunk ∈ a.stream.readQueue by simp [hqueue])
          refine ⟨.read chunk.length, { a with
              stream := { a.stream with
                readQueue := rest
                readQueued := a.stream.readQueued - chunk.length
                readOffset := 0 }
              readOut := a.readOut ++ chunk.drop a.stream.readOffset
              controls := [ackControl chunk.length] }, b, trivial, ?_, ?_, rfl, rfl, rfl, rfl⟩
          · simp only [Endpoint.step, Endpoint.read, Stream.read_whole h.steady.valid hqueue,
              hcontrols]
            rfl
          · simp only [work, hcontrols, hqueue, sendWork_cons, sendWork_nil,
              textWork_ackControl hshort, length_cons]
            omega
        | nil =>
          simp [work, hforwarder, hincoming, hcontrols, hqueue, Forwarder.replies, queueWork] at hwork

theorem queueWork_eq_zero {q : List (Nat × Frame)} (h : queueWork q = 0) : q = [] := by
  cases q with
  | nil => rfl
  | cons item q =>
    have hpos := textWork_pos item.2.payload
    simp only [queueWork_cons, frameWork] at h
    split at h <;> omega

theorem sendWork_eq_zero {texts : List Bytes} (h : sendWork texts = 0) : texts = [] := by
  cases texts with
  | nil => rfl
  | cons text texts =>
    simp only [sendWork_cons] at h
    omega

theorem Conserves.idle (h : Conserves m a b) (h' : Conserves m b a) (ha : a.work = 0)
    (hb : b.work = 0) (hpaid : b.unpaid = 0) (hreserved : a.writer.reserved = 0) :
    a.stream.inFlight = 0 := by
  have hq := h'.steady.valid.queued
  have hbalanced := h.balanced
  simp only [work, Nat.add_eq_zero_iff] at ha hb
  rw [Balanced, queueWork_eq_zero ha.1.1.1, queueWork_eq_zero hb.1.1.1, sendWork_eq_zero hb.1.2,
    hq, hpaid, hreserved] at hbalanced
  have hempty : b.stream.readQueue = [] := eq_nil_of_length_eq_zero (by omega)
  simpa [hempty] using hbalanced

end Endpoint

section Progress
variable {m : Nat}

/-- Both ends keep their credit, and the `Write` at `x` waits for credit that can come back. -/
structure Waits (m : Nat) (x : Side) (payload : Bytes) (s : Side → Endpoint) : Prop where
  conserves : ∀ y, Endpoint.Conserves m (s y) (s y.other)
  writer : (s x).writer = .waiting payload
  paid : (s x.other).unpaid = 0

theorem Waits.lower (hm : m ≤ maxReadQueueBytes) {x : Side} {payload : Bytes} {s : Side → Endpoint}
    (h : Waits m x payload s) {y : Side} (hwork : 0 < (s y).work) :
    ∃ e t, Locally (Endpoint.KeepsChannel m) s e ∧ step Endpoint.step s e = some t ∧
      Waits m x payload t ∧ (t .near).work + (t .far).work < (s .near).work + (s .far).work := by
  have hback := h.conserves y.other
  rw [Side.other_other] at hback
  obtain ⟨ev, a, b, hok, hstep, hless, hwa, hwb, hua, hub⟩ :=
    (h.conserves y).progress hm hback hwork
  obtain ⟨hout, hin⟩ := (h.conserves y).step hm hback hok hstep
  refine ⟨(y, ev), place y a b, hok, by simp [step, hstep],
    ⟨place_relates y hout hin, ?_, ?_⟩, ?_⟩
  · rcases y.eq_or_eq_other x with rfl | rfl
    · simpa [hwa] using h.writer
    · simpa [hwb] using h.writer
  · rcases y.eq_or_eq_other x with rfl | rfl
    · simpa [hub] using h.paid
    · have hpaid := h.paid
      rw [Side.other_other] at hpaid ⊢
      simpa [hua] using hpaid
  · cases y with
    | near => simpa [place, Side.other] using hless
    | far => simpa [place, Side.other, Nat.add_comm] using hless

/-- A blocked `Write` can be let through: taking what is on its way gives the credit back. -/
theorem Waits.unblocks (hm : m ≤ maxReadQueueBytes) {x : Side} {payload : Bytes}
    {s : Side → Endpoint} (h : Waits m x payload s) :
    ∃ es t, Run (step Endpoint.step) (Locally (Endpoint.KeepsChannel m)) s es t ∧
      Waits m x payload t ∧ (t x).stream.windowFull payload.length = false := by
  refine Run.exists_of_variant (fun s => (s .near).work + (s .far).work) (fun s hs hblocked => ?_) s h
  by_cases hx : 0 < (s x).work
  · exact hs.lower hm hx
  by_cases hother : 0 < (s x.other).work
  · exact hs.lower hm hother
  have hback := hs.conserves x.other
  rw [Side.other_other] at hback
  have hzero := (hs.conserves x).idle hback (by omega) (by omega) hs.paid
    (by rw [hs.writer]; rfl)
  exact absurd (by simp [Stream.windowFull, hzero]) hblocked

end Progress

/-- The credit of the sender at `x`: where the bytes it counts are, that no acknowledgement takes
off more than is counted, that the receiver has room, and that a blocked `Write` has credit
outstanding which steps of the two ends bring back. -/
structure CreditKept (m : Nat) (x : Side) (s : Side → Endpoint) : Prop where
  count : (s x).stream.inFlight = (s x).writer.reserved + (dataOf (s x.other).incoming).length +
    (s x.other).stream.readQueued +
      (creditOf (s x.other).controls + acksOf (s x).incoming + (s x.other).unpaid)
  acknowledged : ∀ e text, (e, controlFrame text) ∈ (s x).incoming →
    ((s x).stream.acknowledge (credit text)).inFlight = (s x).stream.inFlight - credit text
  refunded : ∀ payload, (s x).writer = .failed payload →
    ((s x).stream.acknowledge payload.length).inFlight = (s x).stream.inFlight - payload.length
  queued : (s x.other).stream.readQueued ≤ max flowWindowBytes m
  received : ∀ e frame, (e, frame) ∈ (s x.other).incoming →
    ((s x.other).stream.receive frame).2.2 = none
  returns : ∀ payload, (s x).writer = .waiting payload →
    (s x).stream.windowFull payload.length = true → (s x.other).unpaid = 0 →
    0 < (dataOf (s x.other).incoming).length + (s x.other).stream.readQueued +
      (creditOf (s x.other).controls + acksOf (s x).incoming) ∧
    ∃ es t, Run (step Endpoint.step) (Locally (Endpoint.KeepsChannel m)) s es t ∧
      (t x).writer = .waiting payload ∧ (t x).stream.windowFull payload.length = false

/-- On one channel that stays up, with `Write`s of at most `m` bytes that start after `flow:1`,
credit is conserved in both directions. -/
theorem credit_kept {m : Nat} (hm : m ≤ maxReadQueueBytes) {es : List (Side × Endpoint.Event)}
    {s : Side → Endpoint}
    (hrun : Run (step Endpoint.step) (Locally (Endpoint.KeepsChannel m)) (fun _ => {}) es s)
    (x : Side) : CreditKept m x s := by
  have hconserves := relates_of_run (fun h h' hok hs => Endpoint.Conserves.step hm h h' hok hs) hrun
    (fun _ => Endpoint.Conserves.initial m)
  have h := hconserves x
  have h' := hconserves x.other
  rw [Side.other_other] at h'
  have hwindow := h.steady.window
  obtain ⟨hpos, hbound⟩ := h.balanced.bounds h'.steady
  refine ⟨h.balanced, fun e text htext => ?_, fun payload hwriter => ?_, by omega,
    fun e frame hframe => ?_, fun payload hwriter hblocked hpaid => ⟨?_, ?_⟩⟩
  · have hcovers := h.balanced.covers h'.steady htext rfl
    simp only [controlFrame_payload] at hcovers
    simp only [Stream.acknowledge]
    omega
  · rw [hwriter] at hbound
    simp only [Writer.reserved] at hbound
    simp only [Stream.acknowledge]
    omega
  · exact (Endpoint.receive_takes h'.balanced h.balanced h'.steady h.steady hm hframe).err
  · have hcount := h.balanced
    rw [Endpoint.Balanced, hwriter, hpaid] at hcount
    simp only [Stream.windowFull, Bool.and_eq_true, decide_eq_true_eq] at hblocked
    simp only [Writer.reserved] at hcount
    omega
  · obtain ⟨es, t, hrun, hwaits, hroom⟩ := Waits.unblocks hm ⟨hconserves, hwriter, hpaid⟩
    exact ⟨es, t, hrun, hwaits.writer, hroom⟩

section Example

def countOne : List (Side × Endpoint.Event) :=
  [(.far, .control 0 true), (.near, .deliver), (.near, .write [1]), (.near, .reserve)]

theorem credit_kept_example :
    ∃ es s, Run (step Endpoint.step) (Locally (Endpoint.KeepsChannel 1)) (fun _ => {}) es s ∧
      (s .near).stream.inFlight = 1 ∧ (s .far).controls = [ascii "ack:1"] ∧
      CreditKept 1 .near s := by
  have hrun := run_exec (step Endpoint.step) (Locally (Endpoint.KeepsChannel 1)) (fun _ => {})
    (countOne ++ [(.near, .send true), (.far, .deliver), (.far, .read 1)]) (by decide)
  exact ⟨_, _, hrun, by decide, by decide, credit_kept (by decide) hrun .near⟩

/-- While a `Write` is between the window and the channel, its bytes are counted and nowhere on
their way. -/
theorem counted_before_sent :
    ∃ es s, Run (step Endpoint.step) (Locally (Endpoint.KeepsChannel 1)) (fun _ => {}) es s ∧
      (s .near).stream.inFlight ≠ (dataOf (s .far).incoming).length +
        (s .far).stream.readQueued +
        (creditOf (s .far).controls + acksOf (s .near).incoming + (s .far).unpaid) :=
  ⟨_, _, run_exec (step Endpoint.step) (Locally (Endpoint.KeepsChannel 1)) (fun _ => {})
    countOne (by decide), by decide⟩

end Example

end P2PNetcat.NativeWebRTC
