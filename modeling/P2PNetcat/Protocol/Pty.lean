import P2PNetcat.Library.Framing
import P2PNetcat.Library.GoIo

/-!
# PTY frames

The frames of a terminal session as the Go side writes and reads them, and the decoder of the
browser, which takes them out of whatever chunks arrive.
-/

namespace P2PNetcat.Pty
open List ByteCodec Framing GoIo
variable {σ : Type}

def frameData : UInt8 := 0

def maxFrameLength : Nat := 1024 * 1024

def headerLength : Nat := 5

structure Frame where
  type : UInt8
  data : Bytes
  deriving DecidableEq

def exceeds : String := "PTY frame exceeds 1048576 bytes"

def endedInside : String := "PTY stream ended inside a frame"

def writeFull (write : Write σ) (value : Bytes) (s : σ) : Option Error × σ :=
  GoIo.writeAll write value s

def writeFrame (w : Write σ) (f : Frame) (s : σ) : Option Error × σ :=
  if maxFrameLength < f.data.length then (some (.text exceeds), s)
  else
    match writeFull w (f.type :: bigEndian 4 f.data.length) s with
    | (some e, s) => (some e, s)
    | (none, s) => writeFull w f.data s

def readFrame (r : Read σ) (s : σ) : Except Error Frame × σ :=
  match readFull r headerLength s with
  | (.error e, s) => (.error e, s)
  | (.ok header, s) =>
    let length := bigEndianValue (header.drop 1)
    if maxFrameLength < length then (.error (.text exceeds), s)
    else
      match readFull r length s with
      | (.error _, s) => (.error (.text endedInside), s)
      | (.ok data, s) => (.ok ⟨header.headD 0, data⟩, s)

def encodePtyFrame (f : Frame) : Except String Bytes :=
  if maxFrameLength < f.data.length then .error exceeds
  else .ok (f.type :: bigEndian 4 f.data.length ++ f.data)

structure PtyFrameDecoder where
  buffer : Bytes := []
  deriving DecidableEq

namespace PtyFrameDecoder

def loop : Nat → List Frame → Bytes → Except String (List Frame) × PtyFrameDecoder
  | 0, frames, buffer => (.ok frames, ⟨buffer⟩)
  | fuel + 1, frames, buffer =>
    if buffer.length < headerLength then (.ok frames, ⟨buffer⟩)
    else
      let length := bigEndianValue ((buffer.drop 1).take 4)
      if maxFrameLength < length then (.error exceeds, ⟨buffer⟩)
      else if buffer.length < headerLength + length then (.ok frames, ⟨buffer⟩)
      else loop fuel (frames ++ [⟨buffer.headD 0, (buffer.drop headerLength).take length⟩])
        (buffer.drop (headerLength + length))

/-- A call that throws loses the frames it has found, but not the buffer behind them. -/
def push (chunk : Bytes) (d : PtyFrameDecoder) : Except String (List Frame) × PtyFrameDecoder :=
  loop (d.buffer ++ chunk).length [] (d.buffer ++ chunk)

def finish (d : PtyFrameDecoder) : Except String Unit :=
  if d.buffer.length ≠ 0 then .error endedInside else .ok ()

def pushes : List Bytes → PtyFrameDecoder → List (Except String (List Frame)) × PtyFrameDecoder
  | [], d => ([], d)
  | chunk :: chunks, d =>
    ((push chunk d).1 :: (pushes chunks (push chunk d).2).1, (pushes chunks (push chunk d).2).2)

end PtyFrameDecoder

def layout : Layout Frame where
  tag := 1
  width := 4
  limit := maxFrameLength
  make tag data := ⟨tag.headD 0, data⟩
  width_pos := by decide
  limit_lt := by decide

def Frame.bytes (f : Frame) : Bytes := f.type :: bigEndian 4 f.data.length ++ f.data

abbrev frames (b : Bytes) : List Frame × Bytes := decode layout.format b

variable {b : Bytes} {f : Frame} {fs : List Frame}

theorem frames_append (b more : Bytes) : frames (b ++ more) =
    ((frames b).1 ++ (frames ((frames b).2 ++ more)).1, (frames ((frames b).2 ++ more)).2) :=
  decode_append b more

theorem frames_mono (b more : Bytes) : (frames b).1 <+: (frames (b ++ more)).1 :=
  ⟨_, by rw [frames_append]⟩

theorem front_bytes (h : f.data.length ≤ maxFrameLength) (rest : Bytes) :
    layout.format.front (f.bytes ++ rest) = .frame f rest :=
  layout.front_encode (rfl : [f.type].length = 1) h rest

theorem front_eq (b : Bytes) : layout.front b =
    if b.length < headerLength then .incomplete
    else if maxFrameLength < layout.announced b then .bad
    else if b.length < headerLength + layout.announced b then .incomplete
    else .frame ⟨b.headD 0, (b.drop headerLength).take (layout.announced b)⟩
      (b.drop (headerLength + layout.announced b)) := by
  cases b <;> rfl

theorem bytes_of_front {rest : Bytes} (h : layout.format.front b = .frame f rest) :
    b = f.bytes ++ rest := by
  obtain ⟨tag, data, htag, rfl, rfl⟩ := layout.front_sound h
  obtain ⟨kind, rfl⟩ := length_eq_one_iff.mp htag
  rfl

section Go

theorem writeFrame_eq (W : Writer σ) (h : f.data.length ≤ maxFrameLength) (s : σ) :
    ∃ t, writeFrame W.write f s = (none, t) ∧ W.written t = W.written s ++ f.bytes := by
  obtain ⟨t, hheader, ht⟩ := writeAll_eq W (f.type :: bigEndian 4 f.data.length) s
  obtain ⟨u, hdata, hu⟩ := writeAll_eq W f.data t
  refine ⟨u, ?_, by rw [hu, ht, Frame.bytes, append_assoc]⟩
  simp only [writeFrame, writeFull, if_neg (Nat.not_lt.mpr h), hheader, hdata]

def fault (b : Bytes) : Error :=
  if b.length < headerLength then shortRead b
  else if maxFrameLength < layout.announced b then .text exceeds
  else .text endedInside

theorem announced_header (b : Bytes) :
    bigEndianValue ((b.take headerLength).drop 1) = layout.announced b := by
  rw [drop_take]
  rfl

theorem readFrame_reads (R : Reader σ) :
    Reads layout.format (readFrame R.read) R.unread fault where
  frame {s f rest} h := by
    obtain ⟨hlen, hlimit, rfl, rfl⟩ := Layout.front_eq_frame.mp h
    replace hlen : headerLength + layout.announced (R.unread s) ≤ _ := hlen
    replace hlimit : ¬maxFrameLength < layout.announced (R.unread s) := Nat.not_lt.mpr hlimit
    obtain ⟨t, ht, hheader⟩ := readFull_eq R headerLength s
    rw [if_pos (by omega)] at hheader
    obtain ⟨u, hu, hdata⟩ := readFull_eq R (layout.announced (R.unread s)) t
    rw [ht, length_drop, if_pos (by omega)] at hdata
    refine ⟨u, ?_, by rw [hu, ht, drop_drop]; rfl⟩
    simp only [readFrame, hheader, announced_header, if_neg hlimit, hdata]
    cases R.unread s <;> rfl
  stop {s} h := by
    obtain ⟨t, ht, hheader⟩ := readFull_eq R headerLength s
    unfold fault
    split
    · next hlen =>
      rw [if_neg (by omega)] at hheader
      exact ⟨t, by simp only [readFrame, hheader]⟩
    · next hlen =>
      rw [if_pos (by omega)] at hheader
      split
      · next hlimit => exact ⟨t, by simp only [readFrame, hheader, announced_header, if_pos hlimit]⟩
      next hlimit =>
      obtain ⟨u, hu, hdata⟩ := readFull_eq R (layout.announced (R.unread s)) t
      have hshort : ¬layout.announced (R.unread s) ≤ (R.unread t).length := by
        intro hle
        rw [ht, length_drop] at hle
        refine h _ _ (Layout.front_eq_frame.mpr ⟨?_, Nat.le_of_not_lt hlimit, rfl, rfl⟩)
        show headerLength + _ ≤ _
        omega
      rw [if_neg hshort] at hdata
      exact ⟨u, by simp only [readFrame, hheader, announced_header, if_neg hlimit, hdata]⟩

theorem drain_readFrame (R : Reader σ) {s : σ} {fuel : Nat} {rest : Bytes}
    (h : frames (R.unread s) = (fs, rest)) (hfuel : fs.length < fuel) :
    drain (readFrame R.read) fuel s = (fs, some (fault rest)) := by
  replace h : decode layout.format (R.unread s) = (fs, rest) := h
  rw [(readFrame_reads R).drain_eq (by rwa [h]), h]

end Go

namespace PtyFrameDecoder

theorem loop_succ (fuel : Nat) (found : List Frame) (b : Bytes) :
    loop (fuel + 1) found b =
      match layout.front b with
      | .incomplete => (.ok found, ⟨b⟩)
      | .bad => (.error exceeds, ⟨b⟩)
      | .frame f rest => loop fuel (found ++ [f]) rest := by
  have hlength : bigEndianValue ((b.drop 1).take 4) = layout.announced b := rfl
  rw [loop, front_eq]
  simp only [hlength]
  split_ifs <;> rfl

theorem loop_eq {fuel : Nat} {found : List Frame} (h : b.length ≤ fuel) :
    loop fuel found b =
      (match layout.front (frames b).2 with
        | .bad => .error exceeds
        | _ => .ok (found ++ (frames b).1), ⟨(frames b).2⟩) := by
  induction fuel generalizing found b with
  | zero =>
    obtain rfl := length_eq_zero_iff.mp (Nat.le_zero.mp h)
    simp [frames, loop, layout, Layout.front]
  | succ fuel ih =>
    rw [loop_succ]
    cases hfront : layout.front b with
    | frame f rest =>
      have hlt := layout.format.rest_lt hfront
      simp only [frames, decode_frame (P := layout.format) hfront, ih (by omega : rest.length ≤ fuel)]
      simp
    | incomplete | bad =>
      have hstop : ∀ f rest, layout.format.front b ≠ .frame f rest := by
        intro f rest hf
        cases hfront.symm.trans hf
      simp [frames, decode_stop hstop, hfront]

theorem push_eq (chunk : Bytes) (d : PtyFrameDecoder) :
    push chunk d =
      (match layout.front (frames (d.buffer ++ chunk)).2 with
        | .bad => .error exceeds
        | _ => .ok (frames (d.buffer ++ chunk)).1, ⟨(frames (d.buffer ++ chunk)).2⟩) :=
  loop_eq (Nat.le_refl _)

theorem finish_eq_ok {d : PtyFrameDecoder} : d.finish = .ok () ↔ d.buffer = [] := by
  unfold finish
  split <;> simp_all

theorem front_append_bad (more : Bytes) (h : layout.front (frames b).2 = .bad) :
    frames (b ++ more) = ((frames b).1, (frames b).2 ++ more) ∧
      layout.front (frames (b ++ more)).2 = .bad := by
  have hbad := layout.format.bad_append more h
  have hstop : frames ((frames b).2 ++ more) = ([], (frames b).2 ++ more) := by
    apply decode_stop
    intro f rest hf
    cases hbad.symm.trans hf
  have happ : frames (b ++ more) = ((frames b).1, (frames b).2 ++ more) := by
    rw [frames_append, hstop, append_nil]
  exact ⟨happ, by rw [happ]; exact hbad⟩

/-- As long as no bad header is complete, the calls return the frames of the bytes so far. -/
theorem pushes_eq {d : PtyFrameDecoder} {chunks : List Bytes}
    (hd : frames d.buffer = ([], d.buffer))
    (h : layout.front (frames (d.buffer ++ chunks.flatten)).2 ≠ .bad) :
    ∃ found : List (List Frame),
      pushes chunks d = (found.map .ok, ⟨(frames (d.buffer ++ chunks.flatten)).2⟩) ∧
        found.flatten = (frames (d.buffer ++ chunks.flatten)).1 := by
  induction chunks generalizing d with
  | nil =>
    rw [flatten_nil, append_nil, hd]
    exact ⟨[], rfl, rfl⟩
  | cons chunk chunks ih =>
    rw [flatten_cons, ← append_assoc] at h ⊢
    have hchunk : layout.front (frames (d.buffer ++ chunk)).2 ≠ .bad :=
      fun hbad => h (front_append_bad _ hbad).2
    have hpush : push chunk d =
        (.ok (frames (d.buffer ++ chunk)).1, ⟨(frames (d.buffer ++ chunk)).2⟩) := by
      rw [push_eq]
      split
      · next hbad => exact absurd hbad hchunk
      · rfl
    rw [frames_append] at h ⊢
    obtain ⟨found, hpushes, hfound⟩ := ih (d := ⟨(frames (d.buffer ++ chunk)).2⟩)
      (decode_stop (front_decode _)) h
    refine ⟨(frames (d.buffer ++ chunk)).1 :: found, ?_, by rw [flatten_cons, hfound]⟩
    rw [pushes, hpush, hpushes]
    rfl

end PtyFrameDecoder

open PtyFrameDecoder

theorem mapM_encodePtyFrame (h : ∀ f ∈ fs, f.data.length ≤ maxFrameLength) :
    fs.mapM encodePtyFrame = .ok (fs.map Frame.bytes) := by
  induction fs with
  | nil => rfl
  | cons f fs ih =>
    have hf : encodePtyFrame f = .ok f.bytes := if_neg (Nat.not_lt.mpr (h f mem_cons_self))
    rw [mapM_cons, hf, ih fun g hg => h g (mem_cons_of_mem _ hg)]
    rfl

theorem front_cut_ne_bad (h : ∀ f ∈ fs, f.data.length ≤ maxFrameLength) (n : Nat) :
    layout.front (frames ((fs.flatMap Frame.bytes).take n)).2 ≠ .bad := by
  intro hbad
  have happ := (front_append_bad ((fs.flatMap Frame.bytes).drop n) hbad).2
  have hwhole := decode_flatMap (fun f hf => front_bytes (h f hf)) []
  rw [append_nil, decode_nil] at hwhole
  rw [take_append_drop, frames, hwhole] at happ
  cases happ

/-- Both sides write the same bytes; however these are cut into chunks, and wherever they end, both
read back the frames that are complete. -/
theorem frames_independent_of_chunks {fs : List Frame}
    (hlen : ∀ f ∈ fs, f.data.length ≤ maxFrameLength) :
    let wire := fs.flatMap Frame.bytes
    (∀ (σ : Type) (W : Writer σ) (s : σ), ∃ t, writeEach (writeFrame W.write) fs s = (none, t) ∧
      W.written t = W.written s ++ wire) ∧
    fs.mapM encodePtyFrame = .ok (fs.map Frame.bytes) ∧
    ∀ n, (wire.length ≤ n → whole Frame.bytes n fs = fs) ∧
      (∀ chunks : List Bytes, chunks.flatten = wire.take n → ∃ (found : List (List Frame)) (d : _),
        pushes chunks {} = (found.map .ok, d) ∧ found.flatten = whole Frame.bytes n fs ∧
          (d.finish = .ok () ↔ ∃ k, wire.take n = (fs.take k).flatMap Frame.bytes)) ∧
      ∀ (σ : Type) (R : Reader σ) (s : σ) (fuel : Nat), R.unread s = wire.take n →
        fs.length < fuel →
          ∃ e, drain (readFrame R.read) fuel s = (whole Frame.bytes n fs, some e) := by
  intro wire
  have hfront : ∀ f ∈ fs, ∀ rest, layout.format.front (f.bytes ++ rest) = .frame f rest :=
    fun f hf => front_bytes (hlen f hf)
  refine ⟨fun σ W s => writeEach_eq (fun f hf => writeFrame_eq W (hlen f hf)) s, ?_,
    fun n => ⟨whole_all _, ?_, ?_⟩⟩
  · exact mapM_encodePtyFrame hlen
  · intro chunks hchunks
    obtain ⟨found, hpushes, hfound⟩ := pushes_eq (d := {}) decode_nil
      (by rw [nil_append, hchunks]; exact front_cut_ne_bad hlen n)
    rw [nil_append, hchunks] at hpushes hfound
    refine ⟨found, _, hpushes, ?_, ?_⟩
    · obtain ⟨rest, hdecode, -⟩ := decode_take hfront n
      rw [hfound, frames, hdecode]
    · rw [finish_eq_ok]
      exact decode_take_rest hfront n
  · intro σ R s fuel hs hfuel
    obtain ⟨rest, hdecode, -⟩ := decode_take hfront n
    obtain ⟨k, hk⟩ := whole_prefix Frame.bytes n fs
    rw [← hs] at hdecode
    refine ⟨fault rest, drain_readFrame R hdecode ?_⟩
    rw [hk]
    exact Nat.lt_of_le_of_lt (length_take_le' _ _) hfuel

theorem frames_independent_of_chunks_resize :
    ∃ (found : List (List Frame)) (d : _),
      pushes [[0, 0, 0], [], [0, 2, 7, 8, 1, 0], [0, 0, 0]] {} = (found.map .ok, d) ∧
        found.flatten = [⟨0, [7, 8]⟩, ⟨1, []⟩] := by
  have hlen : ∀ f ∈ [(⟨0, [7, 8]⟩ : Frame), ⟨1, []⟩], f.data.length ≤ maxFrameLength := by decide
  obtain ⟨-, -, hread⟩ := frames_independent_of_chunks hlen
  obtain ⟨found, d, hpushes, hfound, -⟩ :=
    (hread 12).2.1 [[0, 0, 0], [], [0, 2, 7, 8, 1, 0], [0, 0, 0]] (by decide)
  exact ⟨found, d, hpushes, hfound.trans ((hread 12).1 (by decide))⟩

section Receive

/-- A step of the page: a frame the loop of `receive` goes through, or a line of its log. -/
inductive Event where
  | frame (f : Frame)
  | onLog (text : String)
  deriving DecidableEq

def Event.isFrame : Event → Bool
  | .frame _ => true
  | .onLog _ => false

/-- `receive` in an interactive session, on what `push` returned or threw. -/
def handle : Except String (List Frame) → List Event
  | .ok found => found.map .frame
  | .error message => [.onLog ("Ошибка PTY-протокола: " ++ message)]

def receive (ptyDecoder : PtyFrameDecoder) (bytes : Bytes) : List Event × PtyFrameDecoder :=
  (handle (push bytes ptyDecoder).1, (push bytes ptyDecoder).2)

def receiveAll : List Bytes → PtyFrameDecoder → List Event × PtyFrameDecoder
  | [], d => ([], d)
  | chunk :: chunks, d =>
    ((receive d chunk).1 ++ (receiveAll chunks (receive d chunk).2).1,
      (receiveAll chunks (receive d chunk).2).2)

theorem receiveAll_eq (chunks : List Bytes) (d : PtyFrameDecoder) :
    receiveAll chunks d = ((pushes chunks d).1.flatMap handle, (pushes chunks d).2) := by
  induction chunks generalizing d with
  | nil => rfl
  | cons chunk chunks ih => simp [receiveAll, receive, pushes, ih]

theorem receiveAll_append (before after : List Bytes) (d : PtyFrameDecoder) :
    receiveAll (before ++ after) d =
      ((receiveAll before d).1 ++ (receiveAll after (receiveAll before d).2).1,
        (receiveAll after (receiveAll before d).2).2) := by
  induction before generalizing d with
  | nil => rfl
  | cons chunk before ih => simp [receiveAll, ih]

theorem receiveAll_open {chunks : List Bytes} (h : layout.front (frames chunks.flatten).2 ≠ .bad) :
    receiveAll chunks {} =
      ((frames chunks.flatten).1.map .frame, ⟨(frames chunks.flatten).2⟩) := by
  obtain ⟨found, hpushes, hfound⟩ := pushes_eq (d := {}) decode_nil h
  have hevents : (found.map Except.ok).flatMap handle = found.flatten.map .frame := by
    rw [flatMap_map, map_flatten]
    rfl
  rw [receiveAll_eq, hpushes, hevents, hfound]
  rfl

theorem exists_breaking {chunks : List Bytes} (h : layout.front (frames chunks.flatten).2 = .bad) :
    ∃ before chunk after, chunks = before ++ chunk :: after ∧
      layout.front (frames before.flatten).2 ≠ .bad ∧
      layout.front (frames ((frames before.flatten).2 ++ chunk)).2 = .bad := by
  induction chunks using reverseRecOn with
  | nil => rw [flatten_nil, frames, decode_nil] at h; cases h
  | append_singleton chunks chunk ih =>
    by_cases hbad : layout.front (frames chunks.flatten).2 = .bad
    · obtain ⟨before, c, after, rfl, hopen, hbreak⟩ := ih hbad
      exact ⟨before, c, after ++ [chunk], by simp, hopen, hbreak⟩
    · rw [flatten_concat, frames_append] at h
      exact ⟨chunks, chunk, [], rfl, hbad, h⟩

theorem receive_bad {d : PtyFrameDecoder} {chunk : Bytes}
    (h : layout.front (frames (d.buffer ++ chunk)).2 = .bad) :
    (receive d chunk).1 = [.onLog ("Ошибка PTY-протокола: " ++ exceeds)] := by
  rw [receive, push_eq, h]
  rfl

theorem takeWhile_isFrame (fs : List Frame) (text : String) (rest : List Event) :
    (fs.map Event.frame ++ (.onLog text :: rest)).takeWhile Event.isFrame = fs.map .frame := by
  rw [takeWhile_append_of_pos (by simp [Event.isFrame]), takeWhile_cons_of_neg
    (by simp [Event.isFrame]), append_nil]

theorem frames_before (hlen : ∀ f ∈ fs, f.data.length ≤ maxFrameLength) {part : Bytes}
    (hpart : ∀ f rest, layout.format.front part ≠ .frame f rest) :
    frames (fs.flatMap Frame.bytes ++ part) = (fs, part) := by
  rw [frames, decode_flatMap fun f hf => front_bytes (hlen f hf), decode_stop hpart,
    append_nil]

/-- Frames before a bad header reach the page, as they reach a Go reader, exactly if a chunk ends
between the last of them and the last byte of the header. -/
theorem receive_frames_before_bad_header {header : Bytes} {chunks : List Bytes}
    (hlen : ∀ f ∈ fs, f.data.length ≤ maxFrameLength) (hheader : header.length = headerLength)
    (hlimit : maxFrameLength < layout.announced header)
    (hchunks : chunks.flatten = fs.flatMap Frame.bytes ++ header) :
    ((receiveAll chunks {}).1.takeWhile Event.isFrame = fs.map .frame ↔
      ∃ k part, (chunks.take k).flatten = fs.flatMap Frame.bytes ++ part ∧
        part.length < headerLength) ∧
    ∀ (σ : Type) (R : Reader σ) (s : σ) (fuel : Nat), R.unread s = chunks.flatten →
      fs.length < fuel → drain (readFrame R.read) fuel s = (fs, some (.text exceeds)) := by
  have hbad : layout.front header = .bad :=
    Layout.front_eq_bad.mpr ⟨Nat.le_of_eq hheader.symm, hlimit⟩
  have hall : frames chunks.flatten = (fs, header) := by
    rw [hchunks]
    apply frames_before hlen
    intro f rest hf
    cases hbad.symm.trans hf
  constructor
  · obtain ⟨before, chunk, after, rfl, hopen, hbreak⟩ := exists_breaking (by rw [hall]; exact hbad)
    rw [receiveAll_append, receiveAll_open hopen, receiveAll, receive_bad hbreak, singleton_append,
      takeWhile_isFrame, map_inj_right fun _ _ => Event.frame.inj]
    constructor
    · intro hfs
      have hbefore := decode_sound (fun b f rest => bytes_of_front) before.flatten
      rw [show (decode layout.format before.flatten).1 = fs from hfs] at hbefore
      rw [flatten_append, hbefore, append_assoc] at hchunks
      have hpart := append_cancel_left hchunks
      refine ⟨before.length, _, by rw [take_left]; exact hbefore, Nat.lt_of_not_le ?_⟩
      intro hle
      have hrest : (chunk :: after).flatten = [] := by
        have := congrArg length hpart
        rw [length_append] at this
        exact length_eq_zero_iff.mp (by omega)
      rw [hrest, append_nil] at hpart
      exact hopen (hpart ▸ hbad)
    · rintro ⟨k, part, hk, hpart⟩
      have hincomplete : layout.front part = .incomplete := by rw [front_eq, if_pos hpart]
      have hfs := frames_before hlen fun f rest hf => by cases hincomplete.symm.trans hf
      rw [← hk] at hfs
      rcases Nat.lt_or_ge before.length k with hlt | hle
      · obtain ⟨j, rfl⟩ := Nat.exists_eq_add_of_lt hlt
        rw [Nat.add_assoc, take_length_add_append, take_succ_cons, flatten_append,
          flatten_cons, ← append_assoc] at hfs
        have := (front_append_bad (after.take j).flatten (by rw [frames_append]; exact hbreak)).2
        rw [hfs] at this
        cases hincomplete.symm.trans this
      · rw [take_append_of_le_length hle] at hfs
        have hlow := frames_mono (before.take k).flatten (before.drop k).flatten
        rw [hfs, ← flatten_append, take_append_drop] at hlow
        have hhigh := frames_mono before.flatten (chunk :: after).flatten
        rw [← flatten_append, hall] at hhigh
        exact hhigh.eq_of_length_le hlow.length_le
  · intro σ R s fuel hs hfuel
    rw [← hs] at hall
    rw [drain_readFrame R hall hfuel, fault, if_neg (by omega), if_pos hlimit]

theorem receive_frames_before_bad_header_data :
    (receiveAll [[0, 0, 0, 0, 1, 7, 0], [0, 16, 0, 1]] {}).1.takeWhile Event.isFrame =
      [.frame ⟨0, [7]⟩] := by
  have hlen : ∀ f ∈ [(⟨0, [7]⟩ : Frame)], f.data.length ≤ maxFrameLength := by decide
  have hchunks : [[0, 0, 0, 0, 1, 7, 0], [0, 16, 0, 1]].flatten =
      [(⟨0, [7]⟩ : Frame)].flatMap Frame.bytes ++ [0, 0, 16, 0, 1] := by decide
  exact (receive_frames_before_bad_header hlen rfl (by decide) hchunks).1.mpr
    ⟨1, [0], by decide, by decide⟩

theorem receive_loses_frame :
    ∃ chunks : List Bytes, chunks.flatten = (⟨0, [7]⟩ : Frame).bytes ++ [0, 0, 16, 0, 1] ∧
      (receiveAll chunks {}).1 =
        [.onLog "Ошибка PTY-протокола: PTY frame exceeds 1048576 bytes"] ∧
      (drain (readFrame Reader.bytewise.read) 2 chunks.flatten).1 = [⟨0, [7]⟩] :=
  ⟨[[0, 0, 0, 0, 1, 7, 0, 0, 16, 0, 1]], by decide, by decide, by decide⟩

end Receive

end P2PNetcat.Pty
