import P2PNetcat.NativeWebRTC.Duplex
import P2PNetcat.Protocol.Pty

/-!
# The frame queue of a peer and the flow window

The window counts bytes, the queue of a peer holds 128 frames. Between the two
ends of one channel a frame is first on the wire, until `OnMessage` runs, then in
the queue, until `forwardFrames` takes it: the queue is the front part of the
frames on their way.
-/

namespace P2PNetcat.NativeWebRTC
open List Function ByteCodec StepSystem TwoParty

namespace Endpoint

def Event.rebinds : Event → Bool
  | .detach | .attach _ | .reconnected | .announce _ => true
  | _ => false

def Event.sends : Event → Bool
  | .send ok | .control _ ok | .reply ok => ok
  | _ => false

variable {a b a' b' : Endpoint} {ev : Event}

theorem transmit_false {frame : Frame} {sent : Bool}
    (h : transmit a b frame false = some (sent, b')) : b' = b := by
  rcases transmit_cases h with ⟨_, rfl⟩ | ⟨_, hok, _⟩
  · rfl
  · cases hok

theorem unsent_other {frame : Frame} {f : Bool × Endpoint → Endpoint × Endpoint}
    (hf : ∀ p, (f p).2 = p.2)
    (h : (transmit a b frame false).map f = some (a', b')) : b' = b := by
  obtain ⟨⟨sent, b''⟩, htransmit, heq⟩ := Option.map_eq_some_iff.mp h
  have hb : b'' = b' := (hf (sent, b'')).symm.trans (congrArg Prod.snd heq)
  rw [← hb]
  exact transmit_false htransmit

variable (h : a.step b ev = some (a', b'))
include h

theorem step_other (hrebinds : ev.rebinds = false)
    (hsends : ev.sends = false) : b' = b := by
  have hacts := acts_of_step h
  cases hacts with
  | send => cases hsends
  | control htext =>
    cases hsends
    simp only [step, control, htext] at h
    exact unsent_other (fun _ => rfl) h
  | reply hforwarder =>
    cases hsends
    simp only [step, reply, hforwarder] at h
    exact unsent_other (fun _ => rfl) h
  | announce => cases hrebinds
  | _ => rfl

theorem step_incoming_other :
    b.incoming.length ≤ b'.incoming.length ∧ b'.incoming.length ≤ b.incoming.length + 1 := by
  have hpush : ∀ e frame, b.incoming.length ≤ (b.push e frame).incoming.length ∧
      (b.push e frame).incoming.length ≤ b.incoming.length + 1 := by
    intro e frame
    refine push_induction (P := fun q => b.incoming.length ≤ q.length ∧
      q.length ≤ b.incoming.length + 1) ?_ ?_
    · omega
    · simp
  have hacts := acts_of_step h
  cases hacts with
  | send | control | reply | announce => exact hpush _ _
  | _ => omega

theorem step_incoming_self (hrebinds : ev.rebinds = false) :
    a'.incoming.length + (if ev = .deliver then 1 else 0) = a.incoming.length := by
  have hacts := acts_of_step h
  cases hacts with
  | deliver _ hpop =>
    obtain ⟨front, back, hq, rfl, _⟩ := Lanes.pop_eq_some hpop
    rw [hq]
    simp
    omega
  | detach | announceFailed => cases hrebinds
  | _ => rfl

end Endpoint

/-- Two ends on one channel. `queued` says how many of the frames on their way to an end are in
the queue of its peer, `closed` that this peer has been closed. -/
@[ext]
structure FrameChannel where
  ends : Side → Endpoint := fun _ => {}
  queued : Side → Nat := fun _ => 0
  closed : Side → Bool := fun _ => false

namespace FrameChannel

def peer (c : FrameChannel) (x : Side) : NativePeer :=
  { frames := ((c.ends x).incoming.take (c.queued x)).map Prod.snd, closed := c.closed x }

inductive Event where
  | act (side : Side) (event : Endpoint.Event)
  | arrive (side : Side) (pickClosed : Bool)
  deriving DecidableEq

/-- An end acts, `forwardFrames` on frames that are in the queue only. -/
def act (c : FrameChannel) (x : Side) (event : Endpoint.Event) : Option FrameChannel :=
  if event.rebinds ∨ event = .deliver ∧ c.queued x = 0 then none
  else
    (TwoParty.step Endpoint.step c.ends (x, event)).map fun ends =>
      { c with
        ends
        queued := if event = .deliver then update c.queued x (c.queued x - 1)
          else c.queued }

def arrive (c : FrameChannel) (x : Side) (pickClosed : Bool) : Option FrameChannel :=
  match (c.ends x).incoming[c.queued x]? with
  | some (_, frame) =>
    let p := (c.peer x).onMessage (encodeFrame frame.type frame.payload) pickClosed
    some { c with
      queued := update c.queued x p.frames.length
      closed := update c.closed x p.closed }
  | none => none

def step (c : FrameChannel) : Event → Option FrameChannel
  | .act x event => c.act x event
  | .arrive x pickClosed => c.arrive x pickClosed

/-- A frame is sent only while fewer than 128 of the frames sent before it are on the wire or in
the queue of the receiver. -/
def SendsWithRoom (c : FrameChannel) : Event → Prop
  | .act x event =>
    event.sends = true → (c.ends x.other).incoming.length < nativeFrameQueueDepth
  | .arrive _ _ => True

instance (c : FrameChannel) (ev : Event) : Decidable (c.SendsWithRoom ev) := by
  unfold SendsWithRoom
  split <;> infer_instance

variable {c d : FrameChannel} {ev : Event} {x : Side}

theorem act_cases {event : Endpoint.Event} (h : c.act x event = some d) :
    event.rebinds = false ∧ d.closed = c.closed ∧
    d.queued x + (if event = .deliver then 1 else 0) = c.queued x ∧
    d.queued x.other = c.queued x.other ∧
    (c.ends x).step (c.ends x.other) event = some (d.ends x, d.ends x.other) := by
  obtain ⟨hallowed, h⟩ := Option.ite_none_left_eq_some.mp h
  simp only [not_or, Bool.not_eq_true, not_and] at hallowed
  obtain ⟨ends, hends, rfl⟩ := Option.map_eq_some_iff.mp h
  obtain ⟨⟨a, b⟩, hab, rfl⟩ := Option.map_eq_some_iff.mp hends
  refine ⟨hallowed.1, rfl, ?_, ?_, by simpa using hab⟩
  · dsimp only
    split
    next hdeliver =>
      have hpos := hallowed.2 hdeliver
      rw [update_self]
      omega
    · rfl
  · dsimp only
    split
    · exact update_of_ne x.other_ne _ _
    · rfl

theorem arrive_cases {pickClosed : Bool} (h : c.arrive x pickClosed = some d)
    (hqueued : c.queued x ≤ (c.ends x).incoming.length) :
    c.queued x < (c.ends x).incoming.length ∧ d.ends = c.ends ∧
    (∀ y, y ≠ x → d.queued y = c.queued y ∧ d.closed y = c.closed y) ∧
    (c.queued x < nativeFrameQueueDepth ∧ d.queued x = c.queued x + 1 ∧ d.closed x = c.closed x ∨
      d.queued x = c.queued x ∧ (c.queued x < nativeFrameQueueDepth → c.closed x = true) ∧
        d.closed x = true) := by
  have hlength : (c.peer x).frames.length = c.queued x := by
    simp [peer, hqueued]
  unfold arrive at h
  split at h
  next frame hframe =>
    obtain ⟨hlt, _⟩ := List.getElem?_eq_some_iff.mp hframe
    cases h
    refine ⟨hlt, rfl, fun y hy => ⟨update_of_ne hy _ _, update_of_ne hy _ _⟩, ?_⟩
    simp only [update_self, NativePeer.onMessage, decodeFrame_encodeFrame, hlength]
    split
    next hroom =>
      simp only [Bool.and_eq_true, decide_eq_true_eq] at hroom
      exact .inl ⟨hroom.1, by simp [hlength], rfl⟩
    next hfull =>
      simp only [Bool.and_eq_true, decide_eq_true_eq, Bool.not_eq_true', Bool.and_eq_false_iff,
        not_and, not_or, Bool.not_eq_false] at hfull
      refine .inr ?_
      split
      next hclosed =>
        exact ⟨hlength, fun _ => hclosed, hclosed⟩
      next hopen =>
        exact ⟨hlength, fun hroom => absurd (hfull hroom).1 hopen, rfl⟩
  · cases h

def Bounded (c : FrameChannel) : Prop :=
  ∀ x, c.queued x ≤ (c.ends x).incoming.length ∧ c.queued x ≤ nativeFrameQueueDepth

theorem Bounded.step (h : Bounded c) (hd : FrameChannel.step c ev = some d) : Bounded d := by
  intro y
  cases ev with
  | act x event =>
    obtain ⟨hrebinds, _, hself, hother, hact⟩ := act_cases hd
    have hdeliver := Endpoint.step_incoming_self hact hrebinds
    have hpush := Endpoint.step_incoming_other hact
    rcases x.eq_or_eq_other y with rfl | rfl
    · have hold := h y
      omega
    · have hold := h x.other
      omega
  | arrive x pickClosed =>
    obtain ⟨hlt, hends, hothers, hcases⟩ := arrive_cases hd (h x).1
    rw [hends]
    by_cases heq : y = x
    · subst heq
      have hold := h y
      omega
    · rw [(hothers y heq).1]
      exact h y

theorem bounded_of_run {ok : FrameChannel → Event → Prop} {es : List Event}
    (hrun : Run FrameChannel.step ok {} es c) : Bounded c :=
  hrun.invariant (fun hi _ hd => hi.step hd) fun _ => ⟨Nat.zero_le _, Nat.zero_le _⟩

/-- No peer is closed, and no more frames are on their way than its queue holds. -/
structure Roomy (c : FrameChannel) : Prop where
  bounded : Bounded c
  onWay : ∀ x, (c.ends x).incoming.length ≤ nativeFrameQueueDepth
  isOpen : ∀ x, c.closed x = false

theorem Roomy.step (h : Roomy c) (hok : c.SendsWithRoom ev) (hd : FrameChannel.step c ev = some d) :
    Roomy d := by
  refine ⟨h.bounded.step hd, fun y => ?_, fun y => ?_⟩
  · cases ev with
    | act x event =>
      obtain ⟨hrebinds, _, _, _, hact⟩ := act_cases hd
      have hdeliver := Endpoint.step_incoming_self hact hrebinds
      have hpush := Endpoint.step_incoming_other hact
      rcases x.eq_or_eq_other y with rfl | rfl
      · have hold := h.onWay y
        omega
      cases hsends : event.sends with
      | true =>
        have hroom := hok hsends
        omega
      | false =>
        rw [Endpoint.step_other hact hrebinds hsends]
        exact h.onWay x.other
    | arrive x pickClosed =>
      obtain ⟨_, hends, _⟩ := arrive_cases hd (h.bounded x).1
      rw [hends]
      exact h.onWay y
  · cases ev with
    | act x event =>
      rw [(act_cases hd).2.1]
      exact h.isOpen y
    | arrive x pickClosed =>
      obtain ⟨hlt, _, hothers, hcases⟩ := arrive_cases hd (h.bounded x).1
      by_cases heq : y = x
      · subst heq
        have hroom := h.onWay y
        rcases hcases with ⟨_, _, hsame⟩ | ⟨_, hfull, _⟩
        · rw [hsame]
          exact h.isOpen y
        · exact absurd (hfull (by omega)) (by simp [h.isOpen y])
      · rw [(hothers y heq).2]
        exact h.isOpen y

/-- While more frames are on their way than the queue holds, `OnMessage` can close the peer before
`forwardFrames` runs. -/
theorem Bounded.overflows (h : Bounded c)
    (hmany : nativeFrameQueueDepth < (c.ends x).incoming.length) :
    ∃ es d, Run FrameChannel.step (fun _ ev => ev = .arrive x false) c es d ∧ d.ends = c.ends ∧
      d.closed x = true := by
  have hstep : ∀ d, Bounded d ∧ d.ends = c.ends → ¬ d.closed x = true → ∃ ev t,
      ev = .arrive x false ∧ FrameChannel.step d ev = some t ∧ (Bounded t ∧ t.ends = c.ends) ∧
      2 * (nativeFrameQueueDepth - t.queued x) + (if t.closed x then 0 else 1) <
        2 * (nativeFrameQueueDepth - d.queued x) + (if d.closed x then 0 else 1) := by
    intro d hd hopen
    have hlt : d.queued x < (d.ends x).incoming.length := by
      have hqueued := (hd.1 x).2
      rw [hd.2]
      omega
    obtain ⟨t, ht⟩ : ∃ t, FrameChannel.step d (.arrive x false) = some t := by
      simp [FrameChannel.step, arrive, getElem?_eq_getElem hlt]
    obtain ⟨_, hends, _, hcases⟩ := arrive_cases ht (hd.1 x).1
    refine ⟨.arrive x false, t, rfl, ht, ⟨hd.1.step ht, hends.trans hd.2⟩, ?_⟩
    rcases hcases with ⟨hroom, hqueued, hclosed⟩ | ⟨hqueued, _, hclosed⟩
    · rw [hqueued, hclosed]
      omega
    · rw [hqueued, hclosed, if_pos rfl, if_neg hopen]
      omega
  obtain ⟨es, d, hrun, ⟨_, hends⟩, hclosed⟩ := Run.exists_of_variant _ hstep c ⟨h, rfl⟩
  exact ⟨es, d, hrun, hends, hclosed⟩

end FrameChannel

/-- A frame queue that never has to hold more than its 128 frames closes no peer: it is enough
that frames are sent only while fewer than 128 are on the wire or queued. Whenever more are on
their way, the callbacks alone can close the peer. -/
theorem frame_queue_bounds (x : Side) :
    (∀ es c, Run FrameChannel.step FrameChannel.SendsWithRoom {} es c → c.closed x = false) ∧
    (∀ es c, Run FrameChannel.step Any {} es c →
      nativeFrameQueueDepth < (c.ends x).incoming.length →
      ∃ fs d, Run FrameChannel.step (fun _ ev => ev = .arrive x false) c fs d ∧ d.ends = c.ends ∧
        d.closed x = true) := by
  refine ⟨fun es c hrun => ?_, fun es c hrun hmany => ?_⟩
  · have hroomy : c.Roomy := hrun.invariant (fun hi hok hd => hi.step hok hd)
      ⟨fun _ => ⟨Nat.zero_le _, Nat.zero_le _⟩, fun _ => Nat.zero_le _, fun _ => rfl⟩
    exact hroomy.isOpen x
  · exact (FrameChannel.bounded_of_run hrun).overflows hmany

section Example

/-- As many frames as the queue holds are sent before the first of them arrives. -/
def fullQueue : List FrameChannel.Event :=
  ((replicate nativeFrameQueueDepth (writeOne [1])).flatten.map fun e => .act e.1 e.2) ++
    replicate nativeFrameQueueDepth (.arrive .far false)

theorem frame_queue_bounds_example :
    ∃ c, Run FrameChannel.step FrameChannel.SendsWithRoom {} fullQueue c ∧
      c.queued .far = nativeFrameQueueDepth ∧ c.closed .far = false := by
  have hrun := run_exec FrameChannel.step FrameChannel.SendsWithRoom {} fullQueue
    (by decide +kernel)
  exact ⟨_, hrun, by decide +kernel, (frame_queue_bounds .far).1 _ _ hrun⟩

def filled (payloads : List Bytes) : FrameChannel :=
  { ends := place .near
      { stream := { flowEnabled := true, inFlight := payloads.flatten.length }
        written := payloads.flatten }
      { controls := [], incoming := payloads.map fun payload => (0, dataFrame payload) } }

def startFlow : List FrameChannel.Event :=
  [.act .far (.control 0 true), .arrive .near false, .act .near .deliver]

theorem run_startFlow : Run FrameChannel.step Any {} startFlow (filled []) := by
  have hrun := run_exec FrameChannel.step Any {} startFlow (by decide)
  have hend : (exec FrameChannel.step Any {} startFlow).get (by decide) = filled [] := by
    apply FrameChannel.ext
    all_goals
      funext x
      cases x <;> rfl
  rwa [hend] at hrun

theorem step_near {a b a' b' : Endpoint} {event : Endpoint.Event}
    (h : a.step b event = some (a', b')) (hevent : event.rebinds = false ∧ event ≠ .deliver) :
    FrameChannel.step { ends := place .near a b } (.act .near event) =
      some { ends := place .near a' b' } := by
  have hplace : TwoParty.step Endpoint.step (place .near a b) (.near, event) =
      some (place .near a' b') :=
    congrArg (Option.map fun p : Endpoint × Endpoint => place .near p.1 p.2) h
  simp only [FrameChannel.step, FrameChannel.act]
  rw [if_neg (by simp [hevent.1, hevent.2]), hplace]
  simp [hevent.2]

theorem run_filled {payloads : List Bytes} {payload : Bytes}
    (hwindow : (payloads ++ [payload]).flatten.length ≤ flowWindowBytes) :
    Run FrameChannel.step Any (filled payloads) ((writeOne payload).map fun e => .act e.1 e.2)
      (filled (payloads ++ [payload])) := by
  have hroom : Stream.windowFull { flowEnabled := true, inFlight := payloads.flatten.length }
      payload.length = false := by
    simp only [flatten_append, length_append, flatten_singleton] at hwindow
    simp only [Stream.windowFull, Bool.and_eq_false_iff, decide_eq_false_iff_not]
    omega
  -- the `Write` between the window and the channel
  have hreserve : Endpoint.step
      { stream := { flowEnabled := true, inFlight := payloads.flatten.length }
        written := payloads.flatten
        writer := .waiting payload }
      { controls := [], incoming := payloads.map fun payload => (0, dataFrame payload) } .reserve =
      some ({ stream := { flowEnabled := true, inFlight := payloads.flatten.length + payload.length }
              written := payloads.flatten
              writer := .sending payload },
        { controls := [], incoming := payloads.map fun payload => (0, dataFrame payload) }) := by
    simp only [Endpoint.step, Endpoint.reserve, hroom]
    rfl
  have hcount : ((payloads ++ [payload]).flatten.length : Int) =
      payloads.flatten.length + payload.length := by
    simp
  have hfilled : filled (payloads ++ [payload]) =
      { ends := place .near
          { stream := { flowEnabled := true, inFlight := payloads.flatten.length + payload.length }
            written := payloads.flatten ++ payload }
          { controls := []
            incoming := (payloads.map fun payload => (0, dataFrame payload)) ++
              [(0, dataFrame payload)] } } := by
    simp [filled]
  rw [hfilled]
  exact .cons trivial (step_near rfl ⟨rfl, nofun⟩) (.cons trivial (step_near hreserve ⟨rfl, nofun⟩)
    (.single trivial (step_near rfl ⟨rfl, nofun⟩)))

theorem run_writes (payloads : List Bytes) (hwindow : payloads.flatten.length ≤ flowWindowBytes) :
    ∃ es, Run FrameChannel.step Any {} es (filled payloads) := by
  induction payloads using reverseRecOn with
  | nil => exact ⟨_, run_startFlow⟩
  | append_singleton payloads payload ih =>
    have hless : payloads.flatten.length ≤ flowWindowBytes := by
      simp only [flatten_append, length_append] at hwindow
      omega
    obtain ⟨es, hrun⟩ := ih hless
    exact ⟨_, hrun.append (run_filled hwindow)⟩

/-- Any 129 `Write`s within the window, none of them read yet, can close the peer. -/
theorem writes_overflow (payloads : List Bytes) (hwindow : payloads.flatten.length ≤ flowWindowBytes)
    (hmany : nativeFrameQueueDepth < payloads.length) :
    ∃ es c, Run FrameChannel.step Any {} es c ∧ (c.ends .near).stream.flowEnabled = true ∧
      (c.ends .near).written = payloads.flatten ∧ c.closed .far = true := by
  obtain ⟨es, hrun⟩ := run_writes payloads hwindow
  have hfull : nativeFrameQueueDepth < ((filled payloads).ends .far).incoming.length := by
    simpa [filled, place] using hmany
  obtain ⟨fs, d, harrive, hends, hclosed⟩ := (FrameChannel.bounded_of_run hrun).overflows hfull
  refine ⟨es ++ fs, d, hrun.append (harrive.mono fun _ _ _ => trivial), ?_, ?_, hclosed⟩
  · rw [hends]
    rfl
  · rw [hends]
    rfl

theorem repeated_writes_overflow (n : Nat) (writes : List Bytes)
    (hwindow : n * writes.flatten.length ≤ flowWindowBytes)
    (hmany : nativeFrameQueueDepth < n * writes.length) :
    ∃ es c, Run FrameChannel.step Any {} es c ∧ (c.ends .near).stream.flowEnabled = true ∧
      (c.ends .near).written = (replicate n writes).flatten.flatten ∧ c.closed .far = true := by
  have hlength : (replicate n writes).flatten.flatten.length = n * writes.flatten.length ∧
      (replicate n writes).flatten.length = n * writes.length := by
    clear hwindow hmany
    induction n with
    | zero => simp
    | succ n ih =>
      simp only [replicate_succ, flatten_cons, flatten_append, length_append,
        ih.1, ih.2, Nat.succ_mul]
      omega
  exact writes_overflow _ (by rw [hlength.1]; exact hwindow) (by rw [hlength.2]; exact hmany)

/-- A connection that keeps its `Write`s apart. -/
def recording : GoIo.Write (List Bytes) := fun b writes => ((b.length, none), writes ++ [b])

/-- One hundred and twenty-nine single bytes, or sixty-five keystrokes of a terminal, are far below
the window and close the receiver's peer. -/
theorem small_writes_close_peer :
    (∃ es c, Run FrameChannel.step Any {} es c ∧ (c.ends .near).stream.flowEnabled = true ∧
      (c.ends .near).written = replicate 129 0x61 ∧ c.closed .far = true) ∧
    ∃ writes, Pty.writeFrame recording ⟨Pty.frameData, [0x61]⟩ [] = (none, writes) ∧
      ∃ es c, Run FrameChannel.step Any {} es c ∧ (c.ends .near).stream.flowEnabled = true ∧
        (c.ends .near).written = (replicate 65 writes).flatten.flatten ∧
        c.closed .far = true := by
  have hbytes := repeated_writes_overflow 129 [[0x61]] (by decide) (by decide)
  have hone : (replicate 129 [[0x61]] : List (List Bytes)).flatten.flatten =
      replicate 129 0x61 := by
    rw [flatten_replicate_singleton, flatten_replicate_singleton]
  rw [hone] at hbytes
  exact ⟨hbytes, _, rfl,
    repeated_writes_overflow 65 _ (by decide) (by decide)⟩

end Example

end P2PNetcat.NativeWebRTC
