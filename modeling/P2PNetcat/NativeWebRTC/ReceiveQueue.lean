import P2PNetcat.NativeWebRTC.Duplex

/-!
# The receive queue and the flow window

A sender counts its bytes in flight only after `flow:1`, and starts from zero
after every reconnect. The receive queue stays within its bound as long as what
the count misses is at most the part of the bound beyond the window.
-/

namespace P2PNetcat.NativeWebRTC
open List ByteCodec StepSystem TwoParty

namespace Stream
variable {s : Stream}

def Uncounted (s : Stream) : Prop := s.flowEnabled = false → s.inFlight = 0

section
variable (h : s.Uncounted)
include h

theorem fail_uncounted (err : Option String) :
    (s.fail err).Uncounted := by
  unfold fail
  split <;> exact h

theorem reserve_uncounted (size : Nat) :
    (s.reserve size).Uncounted := by
  unfold reserve
  split
  next henabled =>
    intro hoff
    exact absurd hoff (by simp [henabled])
  · exact h

theorem acknowledge_uncounted (value : Nat) :
    (s.acknowledge value).Uncounted := by
  intro hoff
  have hzero := h hoff
  simp only [acknowledge, hzero]
  omega

theorem read_uncounted (size : Nat) :
    (s.read size).1.Uncounted := by
  intro hoff
  rw [(s.read_control size).flowEnabled] at hoff
  rw [(s.read_control size).inFlight]
  exact h hoff

theorem receive_uncounted (frame : Frame) :
    (s.receive frame).1.Uncounted := by
  unfold receive
  split
  · split
    · exact h
    · split
      · exact fail_uncounted h _
      · exact h
  · split
    · unfold receiveControl
      dsimp only
      split
      case h_2 => exact fail_uncounted h _
      case h_3 => exact nofun
      case h_4 => exact fun _ => rfl
      case h_5 => exact acknowledge_uncounted h _
      all_goals exact h
    · exact h

end

theorem receive_readQueued_le (s : Stream) (frame : Frame) :
    (s.receive frame).1.readQueued ≤
      s.readQueued + (if frame.type = frameData then frame.payload else []).length := by
  by_cases haccepts : s.accepts frame = true
  · have htype : frame.type = frameData := by
      simp only [accepts, Bool.and_eq_true, decide_eq_true_eq] at haccepts
      exact haccepts.1.1
    refine Int.le_of_eq ?_
    rw [receive_of_accepts haccepts, if_pos htype]
  · rw [(receive_queue_of_not_accepts (Bool.eq_false_iff.mpr haccepts)).2.1]
    omega

end Stream

def Writer.unsent : Writer → Nat
  | .sending payload => payload.length
  | _ => 0

namespace Endpoint

def SmallWrites (_ _ : Endpoint) : Event → Prop
  | .write payload => payload.length ≤ flowWindowBytes
  | _ => True

/-- A `Write` of at most the window is let through only where what is on its way to the reader or
queued there goes past the sender's count by no more than the bound leaves beside the window. -/
def KeepsRoom (a b : Endpoint) : Event → Prop
  | .write payload => payload.length ≤ flowWindowBytes
  | .reserve => ((dataOf b.incoming).length : Int) + b.stream.readQueued ≤
      a.stream.inFlight + (maxReadQueueBytes - flowWindowBytes : Nat)
  | _ => True

instance (a b : Endpoint) (ev : Event) : Decidable (KeepsRoom a b ev) :=
  match ev with
  | .write payload => inferInstanceAs (Decidable (payload.length ≤ flowWindowBytes))
  | .reserve => inferInstanceAs (Decidable (_ ≤ _))
  | .send _ | .refund | .read _ | .control _ _ | .ping | .closeWrite | .fail _ | .reset
  | .closeLink | .deliver | .reply _ | .detach | .attach _ | .reconnected | .announce _ =>
    isTrue trivial

structure Roomy (a b : Endpoint) : Prop where
  valid : b.stream.Valid
  kinds : ∀ item ∈ b.incoming, item.2.type = frameData ∨ item.2.type = frameControl
  room : ((dataOf b.incoming).length : Int) + b.stream.readQueued + a.writer.unsent ≤
    maxReadQueueBytes
  small : ∀ payload, a.writer = .waiting payload → payload.length ≤ flowWindowBytes
  uncounted : a.stream.Uncounted

namespace Roomy
variable {a b a' b' : Endpoint}

theorem initial : Roomy {} {} where
  valid := Stream.valid_new
  kinds := by simp
  room := by decide
  small := nofun
  uncounted := fun _ => rfl

variable (h : Roomy a b)
include h

theorem sender (hunsent : a'.writer.unsent ≤ a.writer.unsent)
    (hsmall : ∀ payload, a'.writer = .waiting payload → payload.length ≤ flowWindowBytes)
    (huncounted : a'.stream.Uncounted) : Roomy a' b where
  valid := h.valid
  kinds := h.kinds
  room := by
    have := h.room
    omega
  small := hsmall
  uncounted := huncounted

theorem receiver (hvalid : b'.stream.Valid)
    (hsub : ∀ item ∈ b'.incoming, item ∈ b.incoming)
    (hroom : ((dataOf b'.incoming).length : Int) + b'.stream.readQueued ≤
      (dataOf b.incoming).length + b.stream.readQueued) : Roomy a b' where
  valid := hvalid
  kinds := fun item hitem => h.kinds item (hsub item hitem)
  room := by
    have := h.room
    omega
  small := h.small
  uncounted := h.uncounted

theorem pushControl (e : Nat) (text : Bytes) :
    Roomy a (b.push e (controlFrame text)) where
  valid := h.valid
  kinds := push_induction (P := fun q => ∀ item ∈ q,
      item.2.type = frameData ∨ item.2.type = frameControl) h.kinds fun item hitem => by
    rcases mem_append.mp hitem with hold | hnew
    · exact h.kinds item hold
    · rw [mem_singleton.mp hnew]
      exact .inr rfl
  room := push_induction (P := fun q => ((dataOf q).length : Int) + b.stream.readQueued +
    a.writer.unsent ≤ maxReadQueueBytes) h.room (by simpa using h.room)
  small := h.small
  uncounted := h.uncounted

theorem pushData {payload written : Bytes} (hw : a.writer = .sending payload)
    (e : Nat) : Roomy { a with writer := .idle, written } (b.push e (dataFrame payload)) where
  valid := h.valid
  kinds := push_induction (P := fun q => ∀ item ∈ q,
      item.2.type = frameData ∨ item.2.type = frameControl) h.kinds fun item hitem => by
    rcases mem_append.mp hitem with hold | hnew
    · exact h.kinds item hold
    · rw [mem_singleton.mp hnew]
      exact .inl rfl
  room := by
    have hroom := h.room
    rw [hw] at hroom
    simp only [Writer.unsent] at hroom ⊢
    refine push_induction (P := fun q => ((dataOf q).length : Int) + b.stream.readQueued +
      (0 : Nat) ≤ maxReadQueueBytes) ?_ ?_
    · omega
    · simp only [dataOf_append, dataOf_cons, dataFrame_type, dataFrame_payload, if_true,
        dataOf_nil, append_nil, length_append, Int.natCast_add]
      omega
  small := nofun
  uncounted := h.uncounted

theorem letThrough {payload : Bytes} (hw : a.writer = .waiting payload)
    (hfull : a.stream.windowFull payload.length = false) (hopen : a.stream.closed = false)
    (hok : KeepsRoom a b .reserve) :
    Roomy { a with stream := a.stream.reserve payload.length, writer := .sending payload } b where
  valid := h.valid
  kinds := h.kinds
  room := by
    have hsmall := h.small payload hw
    have hwindow : a.stream.inFlight ≤ 0 ∨ a.stream.inFlight + payload.length ≤ flowWindowBytes := by
      simp only [Stream.windowFull, hopen, Bool.not_false, Bool.and_true, Bool.and_eq_false_imp,
        Bool.and_eq_true, decide_eq_true_eq, decide_eq_false_iff_not] at hfull
      by_cases henabled : a.stream.flowEnabled = true
      · by_cases hpos : 0 < a.stream.inFlight
        · exact .inr (by have := hfull ⟨henabled, hpos⟩; omega)
        · exact .inl (by omega)
      · exact .inl (Int.le_of_eq (h.uncounted (Bool.eq_false_iff.mpr henabled)))
    have hdrift : ((dataOf b.incoming).length : Int) + b.stream.readQueued ≤
      a.stream.inFlight + (maxReadQueueBytes - flowWindowBytes : Nat) := hok
    simp only [Writer.unsent]
    simp only [flowWindowBytes, maxReadQueueBytes] at *
    omega
  small := nofun
  uncounted := Stream.reserve_uncounted h.uncounted _

theorem deliver {e : Nat} {frame : Frame} {rest : List (Nat × Frame)}
    (hpop : Lanes.pop e b.incoming = some (frame, rest)) (forwarder : Forwarder) :
    Roomy a { b with stream := (b.stream.receive frame).1, incoming := rest, forwarder } := by
  obtain ⟨front, back, hq, rfl, _⟩ := Lanes.pop_eq_some hpop
  refine h.receiver (Stream.receive_valid h.valid frame) (fun item hitem => ?_) ?_
  · rw [hq]
    rcases mem_append.mp hitem with hf | hb
    · exact mem_append_left _ hf
    · exact mem_append_right _ (mem_cons_of_mem _ hb)
  · have hle := b.stream.receive_readQueued_le frame
    rw [hq]
    simp only [dataOf_append, dataOf_cons, length_append, Int.natCast_add]
    omega

theorem read (size : Nat) (readOut : Bytes) (controls : List Bytes) :
    Roomy a { b with stream := (b.stream.read size).1, readOut, controls } := by
  obtain ⟨hvalid, _, hqueued⟩ := Stream.read_spec h.valid size
  refine h.receiver hvalid (fun _ hitem => hitem) ?_
  rcases hqueued with ⟨_, heq⟩ | ⟨chunk, _, _, heq⟩
  · dsimp only
    omega
  · dsimp only
    omega

theorem leave (e : Nat) : Roomy a (b.leave e) := by
  refine h.receiver h.valid (fun _ hitem => Lanes.mem_of_mem_drop hitem) ?_
  have hle := length_dataOf_drop_le b.incoming e
  simp only [Endpoint.leave]
  omega

theorem quiet (h' : Roomy b a) (hwriter : a'.writer = a.writer)
    (huncounted : a'.stream.Uncounted) (hvalid : a'.stream.Valid)
    (hincoming : a'.incoming = a.incoming)
    (hqueued : a'.stream.readQueued = a.stream.readQueued) : Roomy a' b ∧ Roomy b a' := by
  refine ⟨h.sender (hwriter ▸ Nat.le_refl _) (hwriter ▸ h.small) huncounted,
    h'.receiver hvalid (hincoming ▸ fun _ hitem => hitem) ?_⟩
  exact Int.le_of_eq (by rw [hincoming, hqueued])

theorem fail (h' : Roomy b a) (err : Option String) :
    Roomy (a.fail err) b ∧ Roomy b (a.fail err) := by
  refine h.quiet h' rfl (Stream.fail_uncounted h.uncounted err) (Stream.fail_valid h'.valid err)
    rfl ?_
  simp only [Endpoint.fail, Stream.fail]
  split <;> rfl

theorem step (h' : Roomy b a) {ev : Event} (hok : KeepsRoom a b ev)
    (hs : a.step b ev = some (a', b')) : Roomy a' b' ∧ Roomy b' a' := by
  cases acts_of_step hs with
  | write =>
    refine ⟨h.sender (Nat.zero_le _) ?_ h.uncounted,
      h'.receiver h'.valid (fun _ hitem => hitem) (Int.le_refl _)⟩
    rintro _ ⟨⟩
    exact hok
  | giveUp | sendFailed =>
    exact ⟨h.sender (Nat.zero_le _) nofun h.uncounted,
      h'.receiver h'.valid (fun _ hitem => hitem) (Int.le_refl _)⟩
  | reserve hwriter hroom hopen =>
    refine ⟨h.letThrough hwriter hroom hopen hok,
      h'.receiver (Stream.reserve_valid h'.valid _) (fun _ hitem => hitem) ?_⟩
    simp only [Stream.reserve]
    split <;> exact Int.le_refl _
  | @send payload e hwriter =>
    have hin : Roomy (b.push e (dataFrame payload)) a :=
      h'.sender (Nat.le_refl _) h'.small h'.uncounted
    exact ⟨h.pushData hwriter e, hin.receiver h'.valid (fun _ hitem => hitem) (Int.le_refl _)⟩
  | refund =>
    exact ⟨h.sender (Nat.zero_le _) nofun (Stream.acknowledge_uncounted h.uncounted _),
      h'.receiver ⟨h'.valid.queued, h'.valid.offset, h'.valid.empty⟩ (fun _ hitem => hitem)
        (Int.le_refl _)⟩
  | @read size =>
    exact ⟨h.sender (Nat.le_refl _) h.small (Stream.read_uncounted h.uncounted size),
      h'.read size _ _⟩
  | controlFailed | ping | closeLink | replyFailed | attach =>
    exact h.quiet h' rfl h.uncounted h'.valid rfl rfl
  | control | reply | announce =>
    exact (h.pushControl _ _).quiet (h'.sender (Nat.le_refl _) h'.small h'.uncounted)
      rfl h.uncounted h'.valid rfl rfl
  | closeWrite =>
    exact h.quiet h' rfl h.uncounted ⟨h'.valid.queued, h'.valid.offset, h'.valid.empty⟩ rfl rfl
  | @fail err => exact h.fail h' err
  | reset =>
    obtain ⟨hout, hin⟩ := h.fail h' (some "native WebRTC stream reset")
    exact hout.quiet hin rfl hout.uncounted hin.valid rfl rfl
  | @deliver e frame rest _ hpop =>
    exact ⟨h.sender (Nat.le_refl _) h.small (Stream.receive_uncounted h.uncounted frame),
      h'.deliver hpop _⟩
  | @detach e => exact ⟨h.sender (Nat.le_refl _) h.small h.uncounted, h'.leave e⟩
  | reconnected =>
    exact h.quiet h' rfl (fun _ => rfl) ⟨h'.valid.queued, h'.valid.offset, h'.valid.empty⟩ rfl rfl
  | @announceFailed _ _ err' =>
    obtain ⟨hout, hin⟩ := h.fail h' err'
    exact hout.quiet hin rfl hout.uncounted hin.valid rfl rfl

/-- A data frame on its way fits into the receive queue, whatever is taken before it. -/
theorem receive_ok {e : Nat} {frame : Frame} (hframe : (e, frame) ∈ b.incoming) :
    (b.stream.receive frame).2.2 = none := by
  have hkind := h.kinds _ hframe
  unfold Stream.receive
  split
  next htype =>
    have hfits : b.stream.overflows frame.payload = false := by
      have hle : frame.payload.length ≤ (dataOf b.incoming).length := by
        obtain ⟨front, back, hq⟩ := append_of_mem hframe
        rw [hq]
        simp only [dataOf_append, dataOf_cons, htype, if_true, length_append]
        omega
      have hroom := h.room
      simp only [Stream.overflows, decide_eq_false_iff_not]
      omega
    split
    · rfl
    · rw [if_neg (by simp [hfits])]
  next htype =>
    rw [if_pos (hkind.resolve_left htype)]

end Roomy

end Endpoint

/-- While the senders' counts miss no more than the bound leaves beside the window, `Receive`
takes every frame on its way without an error, through any number of reconnects. -/
theorem receive_never_overflows {es : List (Side × Endpoint.Event)} {s : Side → Endpoint}
    (hrun : Run (step Endpoint.step) (Locally Endpoint.KeepsRoom) (fun _ => {}) es s)
    {x : Side} {e : Nat} {frame : Frame} (hframe : (e, frame) ∈ (s x).incoming) :
    ((s x).stream.receive frame).2.2 = none := by
  have hroomy := relates_of_run (fun h h' hok hs => Endpoint.Roomy.step h h' hok hs) hrun
    (fun _ => Endpoint.Roomy.initial) x.other
  rw [Side.other_other] at hroomy
  exact hroomy.receive_ok hframe

section Example

/-- Both ends change over to a second channel between two `Write`s. -/
def overReconnect : List (Side × Endpoint.Event) :=
  writeOne [1] ++ [(.near, .detach), (.far, .detach), (.near, .attach 1), (.far, .attach 1),
    (.near, .reconnected), (.near, .announce none)] ++ writeOne [2]

theorem receive_never_overflows_example :
    ∃ s, Run (step Endpoint.step) (Locally Endpoint.KeepsRoom) (fun _ => {}) overReconnect s ∧
      (1, dataFrame [2]) ∈ (s .far).incoming ∧
      ((s .far).stream.receive (dataFrame [2])).2.2 = none := by
  have hrun := run_exec (step Endpoint.step) (Locally Endpoint.KeepsRoom) (fun _ => {})
    overReconnect (by decide)
  have hframe : (1, dataFrame [2]) ∈ ((exec (step Endpoint.step) (Locally Endpoint.KeepsRoom)
      (fun _ => {}) overReconnect).get (by decide) .far).incoming := by decide
  exact ⟨_, hrun, hframe, receive_never_overflows hrun hframe⟩

def unread (written : Bytes) (queue : List Bytes) (queued : Int) (incoming : List (Nat × Frame)) :
    Side → Endpoint :=
  place .near { written } { stream := { readQueue := queue, readQueued := queued }, incoming }

theorem unread_nil : unread [] [] 0 [] = fun _ => {} := by
  funext x
  cases x <;> rfl

section Steps
variable {payload : Bytes} {written : Bytes} {queue : List Bytes} {queued : Int}
  {incoming : List (Nat × Frame)}

theorem run_writeOne (hsmall : payload.length ≤ flowWindowBytes) :
    Run (step Endpoint.step) (Locally Endpoint.SmallWrites) (unread written queue queued incoming)
      (writeOne payload)
      (unread (written ++ payload) queue queued (incoming ++ [(0, dataFrame payload)])) :=
  .cons hsmall rfl (.cons trivial rfl (.cons trivial rfl (.nil _)))

theorem run_deliver (hfits : queued + payload.length ≤ maxReadQueueBytes) :
    Run (step Endpoint.step) (Locally Endpoint.SmallWrites)
      (unread written queue queued ((0, dataFrame payload) :: incoming)) [(.far, .deliver)]
      (unread written (queue ++ [payload]) (queued + payload.length) incoming) := by
  have hfits' : Stream.overflows { readQueue := queue, readQueued := queued } payload = false := by
    simp only [Stream.overflows, decide_eq_false_iff_not]
    omega
  have haccepts : Stream.accepts { readQueue := queue, readQueued := queued }
      (dataFrame payload) = true := by
    simp [Stream.accepts, hfits']
  have hstep : Endpoint.step
      { stream := { readQueue := queue, readQueued := queued }
        incoming := (0, dataFrame payload) :: incoming } { written } .deliver =
      some ({ stream := { readQueue := queue ++ [payload], readQueued := queued + payload.length }
              incoming }, { written }) := by
    simp only [Endpoint.step, Endpoint.deliver, Lanes.pop_head, Stream.receive_of_accepts haccepts]
    rfl
  refine .single trivial ?_
  exact (congrArg (Option.map fun p => place .far p.1 p.2) hstep).trans
    (congrArg some (place_far _ _))

theorem receive_unread_overflow (hover : queued + payload.length > maxReadQueueBytes) :
    ((unread written queue queued incoming .far).stream.receive (dataFrame payload)).2.2 =
      some Stream.overflowError := by
  have hover' : Stream.overflows { readQueue := queue, readQueued := queued } payload = true := by
    simp only [Stream.overflows, decide_eq_true_eq]
    omega
  simp [unread, place, Stream.receive, hover']

end Steps

/-- Five `Write`s of the window each are let through before `flow:1` arrives; with no `Read` the
fifth does not fit. -/
theorem writes_before_flow_overflow :
    ∃ es s frame, Run (step Endpoint.step) (Locally Endpoint.SmallWrites) (fun _ => {}) es s ∧
      (s .far).forwarder = .forwarding 0 [] ∧
      Lanes.pop 0 (s .far).incoming = some (frame, []) ∧
      ((s .far).stream.receive frame).2.2 = some Stream.overflowError := by
  obtain ⟨payload, hlength⟩ : ∃ payload : Bytes, payload.length = flowWindowBytes :=
    ⟨replicate flowWindowBytes 0, length_replicate⟩
  have hsmall := Nat.le_of_eq hlength
  have hwrites := (((((Run.nil (unread [] [] 0 [])).append (run_writeOne hsmall)).append
    (run_writeOne hsmall)).append (run_writeOne hsmall)).append
    (run_writeOne hsmall)).append (run_writeOne hsmall)
  have hmax : (4 : Int) * payload.length = maxReadQueueBytes := by
    rw [hlength]
    rfl
  have hreads := (((hwrites.append (run_deliver (by omega))).append
    (run_deliver (by omega))).append (run_deliver (by omega))).append (run_deliver (by omega))
  rw [unread_nil] at hreads
  have hpos : 0 < payload.length := by
    rw [hlength]
    decide
  exact ⟨_, _, dataFrame payload, hreads, rfl, rfl, receive_unread_overflow (by omega)⟩

end Example

end P2PNetcat.NativeWebRTC
