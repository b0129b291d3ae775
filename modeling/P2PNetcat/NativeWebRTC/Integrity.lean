import P2PNetcat.NativeWebRTC.Duplex

/-!
# Byte-stream integrity across reconnects

What a reader has returned is a prefix of what the writer at the other end has
written as long as no channel is left with data on it, no `Write` goes to a
channel the reader has gone past, and channels are attached in dialling order.
-/

namespace P2PNetcat.NativeWebRTC
open List ByteCodec StepSystem TwoParty

def Stream.ended (s : Stream) : Bool := s.closedRead || s.closed

namespace Stream
variable {s : Stream}

theorem reserve_unread (s : Stream) (size : Nat) : (s.reserve size).unread = s.unread := by
  unfold reserve
  split <;> rfl

theorem reserve_ended (s : Stream) (size : Nat) : (s.reserve size).ended = s.ended := by
  unfold reserve
  split <;> rfl

theorem fail_ended (s : Stream) (err : Option String) : (s.fail err).ended = true := by
  unfold fail ended
  split <;> simp_all

theorem read_ended (s : Stream) (size : Nat) : (s.read size).1.ended = s.ended := by
  unfold ended
  rw [(s.read_control size).closedRead, (s.read_control size).closed]

theorem of_accepts {frame : Frame} (h : s.accepts frame = true) :
    frame.type = frameData ∧ s.ended = false := by
  simp only [accepts, Bool.and_eq_true, decide_eq_true_eq, Bool.not_eq_true'] at h
  exact ⟨h.1.1, h.1.2⟩

theorem receiveControl_ended {control : Bytes}
    (h : (s.receiveControl control).1.ended = false) : s.ended = false := by
  unfold receiveControl at h
  split at h
  case h_1 => cases h
  case h_2 =>
    rw [fail_ended] at h
    cases h
  all_goals exact h

theorem receive_ended {frame : Frame} (h : (s.receive frame).1.ended = false) :
    s.ended = false ∧ (frame.type = frameData → s.accepts frame = true) := by
  unfold receive at h
  split at h
  next htype =>
    split at h
    next hended =>
      exact absurd hended (by simpa [ended] using h)
    rename_i hopen
    split at h
    · rw [fail_ended] at h
      cases h
    next hfits =>
      exact ⟨h, fun _ => by simp [accepts, htype, hopen, hfits]⟩
  next htype =>
    refine ⟨?_, fun hdata => absurd hdata htype⟩
    split at h
    · exact receiveControl_ended h
    · exact h

end Stream

namespace Endpoint

/-- No data is left behind: a channel is left only without data on it, a `Write` is queued only
on a channel the other end is still to read, and channels are attached in dialling order, each
when the older ones hold no more data. -/
def KeepsOrder (a b : Endpoint) : Event → Prop
  | .send ok => ok = true → ∀ e ∈ a.link.peer, e ∉ b.abandoned ∧ b.newest ≤ e + 1
  | .detach => ∀ item ∈ a.incoming, item.2.type = frameData → a.forwarder.channel ≠ some item.1
  | .attach e => a.newest ≤ e ∧ ∀ item ∈ a.incoming, item.2.type = frameData → e ≤ item.1
  | _ => True

instance (a b : Endpoint) (ev : Event) : Decidable (KeepsOrder a b ev) := by
  unfold KeepsOrder
  split <;> infer_instance

structure Intact (a b : Endpoint) : Prop where
  peer : ∀ e, a.link.peer = some e → a.newest = e + 1
  sorted : b.incoming.Pairwise fun i j => i.1 ≤ j.1
  sent : ∀ item ∈ b.incoming, item.1 < a.newest
  front : ∀ e, b.forwarder.channel = some e → b.newest = e + 1 ∧
    ∀ item ∈ b.incoming, item.2.type = frameData → e ≤ item.1
  valid : b.stream.Valid
  bytes : ∃ rest, a.written = b.readOut ++ (b.stream.unread ++ rest) ∧
    (b.stream.ended = false → rest = dataOf b.incoming)

namespace Intact
variable {a b a' b' : Endpoint} {e : Nat}

theorem initial : Intact {} {} where
  peer := by simp
  sorted := .nil
  sent := by simp
  front := by simp [Forwarder.channel]
  valid := Stream.valid_new
  bytes := ⟨[], rfl, fun _ => rfl⟩

variable (h : Intact a b)
include h

theorem writer (hpeer : ∀ e, a'.link.peer = some e → a'.newest = e + 1)
    (hnewest : a.newest ≤ a'.newest) (hwritten : a'.written = a.written) : Intact a' b where
  peer := hpeer
  sorted := h.sorted
  sent := fun item hitem => Nat.lt_of_lt_of_le (h.sent item hitem) hnewest
  front := h.front
  valid := h.valid
  bytes := hwritten ▸ h.bytes

theorem reader (hincoming : b'.incoming = b.incoming)
    (hfront : ∀ e, b'.forwarder.channel = some e → b'.newest = e + 1 ∧
      ∀ item ∈ b.incoming, item.2.type = frameData → e ≤ item.1)
    (hvalid : b'.stream.Valid) (hunread : b'.stream.unread = b.stream.unread)
    (hended : b'.stream.ended = false → b.stream.ended = false)
    (hreadOut : b'.readOut = b.readOut) : Intact a b' where
  peer := h.peer
  sorted := hincoming ▸ h.sorted
  sent := hincoming ▸ h.sent
  front := hincoming ▸ hfront
  valid := hvalid
  bytes := by
    obtain ⟨rest, hwritten, hrest⟩ := h.bytes
    exact ⟨rest, by rw [hunread, hreadOut, hwritten], fun ho => hincoming ▸ hrest (hended ho)⟩

theorem pushControl (he : a.link.peer = some e) (text : Bytes) :
    Intact a (b.push e (controlFrame text)) where
  peer := h.peer
  sorted := push_induction h.sorted (pairwise_append.mpr
    ⟨h.sorted, by simp, fun item hitem new hnew => by
      have hlt := h.sent item hitem
      have hnewest := h.peer e he
      rw [mem_singleton.mp hnew]
      dsimp only
      omega⟩)
  sent := push_induction (P := fun q => ∀ item ∈ q, item.1 < a.newest) h.sent fun item hitem => by
    rcases mem_append.mp hitem with hold | hnew
    · exact h.sent item hold
    · rw [mem_singleton.mp hnew, h.peer e he]
      exact Nat.lt_succ_self e
  front := fun c hc => ⟨(h.front c hc).1, push_induction
    (P := fun q => ∀ item ∈ q, item.2.type = frameData → c ≤ item.1) (h.front c hc).2
    fun item hitem htype => by
      rcases mem_append.mp hitem with hold | hnew
      · exact (h.front c hc).2 item hold htype
      · rw [mem_singleton.mp hnew] at htype
        exact absurd htype frameControl_ne_frameData⟩
  valid := h.valid
  bytes := by
    obtain ⟨rest, hwritten, hrest⟩ := h.bytes
    refine ⟨rest, hwritten, fun ho => ?_⟩
    rw [hrest ho]
    exact push_induction (P := fun q => dataOf b.incoming = dataOf q) rfl (by simp)

theorem pushData (he : a.link.peer = some e) (hfresh : e ∉ b.abandoned)
    (hnewest : b.newest ≤ e + 1) (payload : Bytes) :
    Intact { a with writer := .idle, written := a.written ++ payload }
      (b.push e (dataFrame payload)) where
  peer := h.peer
  sorted := by
    rw [push_incoming hfresh]
    refine pairwise_append.mpr ⟨h.sorted, by simp, fun item hitem new hnew => ?_⟩
    have hlt := h.sent item hitem
    rw [h.peer e he] at hlt
    rw [mem_singleton.mp hnew]
    exact Nat.le_of_lt_succ hlt
  sent := fun item hitem => by
    rw [push_incoming hfresh] at hitem
    rcases mem_append.mp hitem with hold | hnew
    · exact h.sent item hold
    · rw [mem_singleton.mp hnew]
      exact (h.peer e he).symm ▸ Nat.lt_succ_self e
  front := fun c hc => by
    obtain ⟨hc', hfront⟩ := h.front c hc
    refine ⟨hc', fun item hitem htype => ?_⟩
    rw [push_incoming hfresh] at hitem
    rcases mem_append.mp hitem with hold | hnew
    · exact hfront item hold htype
    rw [mem_singleton.mp hnew]
    dsimp only
    omega
  valid := h.valid
  bytes := by
    obtain ⟨rest, hwritten, hrest⟩ := h.bytes
    refine ⟨rest ++ payload, ?_, fun ho => ?_⟩
    · simp [push, hwritten]
    · rw [push_incoming hfresh, hrest ho]
      simp

/-- The frame taken is the oldest one with data, since what came before it is on older channels. -/
theorem dataOf_pop {frame : Frame} {rest : List (Nat × Frame)}
    (he : b.forwarder.channel = some e) (hpop : Lanes.pop e b.incoming = some (frame, rest)) :
    dataOf b.incoming = (if frame.type = frameData then frame.payload else []) ++ dataOf rest := by
  obtain ⟨front, back, hq, rfl, hfront⟩ := Lanes.pop_eq_some hpop
  have hempty : dataOf front = [] := by
    refine dataOf_eq_nil fun item hitem hdata => hfront item hitem ?_
    have hge := (h.front e he).2 item (by simp [hq, hitem]) hdata
    have hsorted := h.sorted
    rw [hq] at hsorted
    have hle := (pairwise_append.mp hsorted).2.2 item hitem (e, frame) (by simp)
    exact Nat.le_antisymm hle hge
  rw [hq]
  simp [hempty]

theorem deliver {frame : Frame} {rest : List (Nat × Frame)}
    (he : b.forwarder.channel = some e) (hpop : Lanes.pop e b.incoming = some (frame, rest))
    {forwarder : Forwarder} (hforwarder : forwarder.channel = some e) :
    Intact a { b with stream := (b.stream.receive frame).1, incoming := rest, forwarder } := by
  obtain ⟨front, back, hq, rfl, _⟩ := Lanes.pop_eq_some hpop
  have hsub : (front ++ back).Sublist b.incoming := by
    rw [hq]
    exact List.Sublist.append_left (sublist_cons_self _ _) _
  refine ⟨h.peer, h.sorted.sublist hsub, fun item hitem => h.sent item (hsub.subset hitem),
    fun c hc => ?_, Stream.receive_valid h.valid frame, ?_⟩
  · obtain rfl : e = c := Option.some.inj (hforwarder.symm.trans hc)
    obtain ⟨hnewest, hfront⟩ := h.front e he
    exact ⟨hnewest, fun item hitem => hfront item (hsub.subset hitem)⟩
  · obtain ⟨rest, hwritten, hrest⟩ := h.bytes
    have hunread := Stream.receive_unread h.valid frame
    have hdata := h.dataOf_pop he hpop
    by_cases haccepts : b.stream.accepts frame = true
    · obtain ⟨htype, hopen⟩ := Stream.of_accepts haccepts
      refine ⟨dataOf (front ++ back), ?_, fun _ => rfl⟩
      rw [hwritten, hrest hopen, hdata]
      dsimp only
      rw [hunread]
      simp [htype, haccepts]
    · refine ⟨rest, ?_, fun hended => ?_⟩
      · dsimp only
        rw [hunread, hwritten]
        simp [haccepts]
      · obtain ⟨hopen, hdataFrame⟩ := Stream.receive_ended hended
        rw [hrest hopen, hdata, if_neg fun htype => haccepts (hdataFrame htype)]
        rfl

theorem read (size : Nat) (controls : List Bytes) :
    Intact a { b with
      stream := (b.stream.read size).1
      readOut := b.readOut ++ (b.stream.read size).2.value
      controls } := by
  obtain ⟨hvalid, hunread, _⟩ := Stream.read_spec h.valid size
  refine ⟨h.peer, h.sorted, h.sent, h.front, hvalid, ?_⟩
  obtain ⟨rest, hwritten, hrest⟩ := h.bytes
  refine ⟨rest, ?_, fun hended => hrest (b.stream.read_ended size ▸ hended)⟩
  rw [hwritten, hunread]
  simp

theorem leave
    (hdrained : ∀ item ∈ b.incoming, item.2.type = frameData → item.1 ≠ e) :
    Intact a (b.leave e) where
  peer := h.peer
  sorted := h.sorted.filter _
  sent := fun item hitem => h.sent item (Lanes.mem_of_mem_drop hitem)
  front := nofun
  valid := h.valid
  bytes := by
    obtain ⟨rest, hwritten, hrest⟩ := h.bytes
    refine ⟨rest, hwritten, fun hended => ?_⟩
    rw [hrest hended]
    exact (dataOf_drop hdrained).symm

/-- What an act of `a` keeps when it sends nothing and leaves the receive queue alone. -/
theorem quiet (h' : Intact b a) (hlink : a'.link = a.link)
    (hnewest : a'.newest = a.newest) (hwritten : a'.written = a.written)
    (hincoming : a'.incoming = a.incoming)
    (hforwarder : ∀ e, a'.forwarder.channel = some e → a.forwarder.channel = some e)
    (hvalid : a'.stream.Valid) (hunread : a'.stream.unread = a.stream.unread)
    (hended : a'.stream.ended = false → a.stream.ended = false)
    (hreadOut : a'.readOut = a.readOut) : Intact a' b ∧ Intact b a' := by
  refine ⟨h.writer (fun e he => ?_) (Nat.le_of_eq hnewest.symm) hwritten,
    h'.reader hincoming (fun e he => ?_) hvalid hunread hended hreadOut⟩
  · rw [hnewest]
    exact h.peer e (hlink ▸ he)
  · rw [hnewest]
    exact h'.front e (hforwarder e he)

theorem fail (h' : Intact b a) (err : Option String) :
    Intact (a.fail err) b ∧ Intact b (a.fail err) := by
  refine h.quiet h' rfl rfl rfl rfl (fun _ he => he) (Stream.fail_valid h'.valid err)
    (a.stream.fail_unread err) (fun hended => ?_) rfl
  rw [show (a.fail err).stream = a.stream.fail err from rfl, Stream.fail_ended] at hended
  cases hended

theorem step (h' : Intact b a) {ev : Event} (hok : KeepsOrder a b ev)
    (hs : a.step b ev = some (a', b')) : Intact a' b' ∧ Intact b' a' := by
  cases acts_of_step hs with
  | write | giveUp | sendFailed | controlFailed | ping =>
    exact h.quiet h' rfl rfl rfl rfl (fun _ he => he) h'.valid rfl id rfl
  | reserve =>
    exact h.quiet h' rfl rfl rfl rfl (fun _ he => he) (Stream.reserve_valid h'.valid _)
      (a.stream.reserve_unread _) (fun hended => a.stream.reserve_ended _ ▸ hended) rfl
  | @send payload e _ hpeer =>
    obtain ⟨hfresh, hnewest⟩ := hok rfl e hpeer
    have hin : Intact (b.push e (dataFrame payload)) a := h'.writer h'.peer (Nat.le_refl _) rfl
    exact ⟨h.pushData hpeer hfresh hnewest payload, hin.reader rfl h'.front h'.valid rfl id rfl⟩
  | refund | closeWrite =>
    exact h.quiet h' rfl rfl rfl rfl (fun _ he => he)
      ⟨h'.valid.queued, h'.valid.offset, h'.valid.empty⟩ rfl id rfl
  | @read size => exact ⟨h.writer h.peer (Nat.le_refl _) rfl, h'.read size _⟩
  | control _ hpeer =>
    exact (h.pushControl hpeer _).quiet (h'.writer h'.peer (Nat.le_refl _) rfl)
      rfl rfl rfl rfl (fun _ he => he) h'.valid rfl id rfl
  | @fail err => exact h.fail h' err
  | reset =>
    obtain ⟨hout, hin⟩ := h.fail h' (some "native WebRTC stream reset")
    exact hout.quiet hin rfl rfl rfl rfl (fun _ he => he) hin.valid rfl id rfl
  | closeLink =>
    exact ⟨h.writer (fun e he => h.peer e (PeerLink.peer_of_close he)) (Nat.le_refl _) rfl,
      h'.reader rfl h'.front h'.valid rfl id rfl⟩
  | @deliver e frame rest hforwarder hpop =>
    refine ⟨h.writer h.peer (Nat.le_refl _) rfl,
      h'.deliver (by rw [hforwarder]; rfl) hpop ?_⟩
    split <;> rfl
  | replyFailed hforwarder =>
    refine h.quiet h' rfl rfl rfl rfl (fun _ he => ?_) h'.valid rfl id rfl
    rw [hforwarder]
    exact he
  | reply hforwarder hpeer =>
    refine (h.pushControl hpeer _).quiet (h'.writer h'.peer (Nat.le_refl _) rfl)
      rfl rfl rfl rfl (fun _ he => ?_) h'.valid rfl id rfl
    rw [hforwarder]
    exact he
  | @detach e hchannel =>
    refine ⟨h.writer (fun c hc => h.peer c (PeerLink.peer_of_detach hc).1) (Nat.le_refl _) rfl,
      h'.leave fun item hitem htype heq => hok item hitem htype ?_⟩
    rw [hchannel, heq]
  | @attach e =>
    obtain ⟨hnewest, hdrained⟩ := hok
    have hmax : max a.newest (e + 1) = e + 1 := by omega
    refine ⟨h.writer (fun c hc => ?_) (Nat.le_max_left ..) rfl,
      h'.reader rfl (fun c hc => ?_) h'.valid rfl id rfl⟩
    · cases hc
      exact hmax
    · cases hc
      exact ⟨hmax, hdrained⟩
  | reconnected hforwarder =>
    refine h.quiet h' rfl rfl rfl rfl (fun _ he => ?_)
      ⟨h'.valid.queued, h'.valid.offset, h'.valid.empty⟩ rfl id rfl
    rw [hforwarder]
    exact he
  | @announceFailed _ _ err' =>
    obtain ⟨hout, hin⟩ := h.fail h' err'
    exact hout.quiet hin rfl rfl rfl rfl nofun hin.valid rfl id rfl
  | announce hforwarder hpeer =>
    refine (h.pushControl hpeer _).quiet (h'.writer h'.peer (Nat.le_refl _) rfl)
      rfl rfl rfl rfl (fun _ he => ?_) h'.valid rfl id rfl
    rw [hforwarder]
    dsimp only at he
    split at he <;> exact he

end Intact

end Endpoint

/-- What a stream's reader has returned is a prefix of what the other end has written, through
any number of reconnects that leave no data behind. -/
theorem readOut_prefix_written {es : List (Side × Endpoint.Event)} {s : Side → Endpoint}
    (hrun : Run (step Endpoint.step) (Locally Endpoint.KeepsOrder) (fun _ => {}) es s) (x : Side) :
    (s x).readOut <+: (s x.other).written := by
  have hintact := relates_of_run (fun h h' hok hs => Endpoint.Intact.step h h' hok hs) hrun
    (fun _ => Endpoint.Intact.initial) x.other
  obtain ⟨rest, hwritten, _⟩ := hintact.bytes
  rw [Side.other_other] at hwritten
  exact ⟨_, hwritten.symm⟩

section Example

def reconnect (channel : Nat) : List (Side × Endpoint.Event) :=
  [(.near, .detach), (.far, .detach), (.near, .attach channel), (.far, .attach channel),
    (.near, .reconnected), (.far, .reconnected), (.near, .announce none), (.near, .announce none),
    (.far, .announce none), (.far, .announce none)]

def resume : List (Side × Endpoint.Event) :=
  [(.far, .deliver), (.far, .reply true), (.far, .deliver)]

def readOne : List (Side × Endpoint.Event) := [(.far, .deliver), (.far, .read 16)]

theorem readOut_prefix_written_example :
    ∃ es s, Run (step Endpoint.step) (Locally Endpoint.KeepsOrder) (fun _ => {}) es s ∧
      (s .far).readOut = ascii "ab" ∧ (s .far).readOut <+: (s .near).written := by
  have hrun := run_exec (step Endpoint.step) (Locally Endpoint.KeepsOrder) (fun _ => {})
    (writeOne (ascii "a") ++ readOne ++ reconnect 1 ++ resume ++ writeOne (ascii "b") ++ readOne)
    (by decide)
  exact ⟨_, _, hrun, by decide, readOut_prefix_written hrun .far⟩

/-- The channel dies with a `Write` on it that has returned nil; the next one is read after it. -/
theorem write_lost_at_reconnect :
    ∃ es s, Run (step Endpoint.step) Any (fun _ => {}) es s ∧
      (s .near).written = ascii "ab" ∧ (s .far).readOut = ascii "b" ∧
      ¬ (s .far).readOut <+: (s .near).written :=
  ⟨_, _, run_exec (step Endpoint.step) Any (fun _ => {})
    (writeOne (ascii "a") ++ reconnect 1 ++ resume ++ writeOne (ascii "b") ++ readOne) (by decide),
    by decide, by decide, by decide⟩

end Example

end P2PNetcat.NativeWebRTC
