import P2PNetcat.Library.Framing
import P2PNetcat.Library.GoIo

/-!
# Datagram frames

UDP payloads over a byte stream, each behind its length.
-/

namespace P2PNetcat.Datagram
open List ByteCodec Framing GoIo
variable {σ τ : Type}

def headerLength : Nat := 2

def maxPayloadLength : Nat := 65535

def errPayloadTooLarge : Error := .text "datagram payload exceeds 65535 bytes"

-- The source slices before it looks at the error of `Write`, which no caller can tell.
def writeAll (write : Write σ) (value : Bytes) (s : σ) : Option Error × σ :=
  GoIo.writeAll write value s

def write (w : Write σ) (payload : Bytes) (s : σ) : Option Error × σ :=
  if maxPayloadLength < payload.length then (some errPayloadTooLarge, s)
  else
    match writeAll w (bigEndian headerLength payload.length) s with
    | (some e, s) => (some (.wrap "write datagram header: " e), s)
    | (none, s) =>
      match writeAll w payload s with
      | (some e, s) => (some (.wrap "write datagram payload: " e), s)
      | (none, s) => (none, s)

def read (r : Read σ) (s : σ) : Except Error Bytes × σ :=
  match readFull r headerLength s with
  | (.error e, s) => (.error e, s)
  | (.ok header, s) =>
    match readFull r (bigEndianValue header) s with
    | (.error e, s) => (.error (.wrap "read datagram payload: " e), s)
    | (.ok payload, s) => (.ok payload, s)

def encode (payload : Bytes) : Bytes := bigEndian headerLength payload.length ++ payload

def layout : Layout Bytes where
  tag := 0
  width := headerLength
  limit := maxPayloadLength
  make _ payload := payload
  width_pos := by decide
  limit_lt := by decide

def fault (b : Bytes) : Error :=
  if b.length < headerLength then shortRead b
  else .wrap "read datagram payload: " (shortRead (b.drop headerLength))

theorem write_eq (W : Writer σ) {payload : Bytes} (h : payload.length ≤ maxPayloadLength) (s : σ) :
    ∃ t, write W.write payload s = (none, t) ∧ W.written t = W.written s ++ encode payload := by
  obtain ⟨t, hheader, ht⟩ := writeAll_eq W (bigEndian headerLength payload.length) s
  obtain ⟨u, hpayload, hu⟩ := writeAll_eq W payload t
  refine ⟨u, ?_, by rw [hu, ht, encode, append_assoc]⟩
  simp only [write, writeAll, if_neg (Nat.not_lt.mpr h), hheader, hpayload]

theorem announced_le (b : Bytes) : layout.announced b ≤ maxPayloadLength := by
  have hvalue := bigEndianValue_lt ((b.drop 0).take headerLength)
  have hlen : ((b.drop 0).take headerLength).length ≤ 2 := length_take_le _ _
  have := Nat.pow_le_pow_right (n := 256) (by decide) hlen
  exact Nat.le_of_lt_succ (Nat.lt_of_lt_of_le hvalue this)

theorem read_reads (R : Reader σ) : Reads layout.format (read R.read) R.unread fault where
  frame {s f rest} h := by
    obtain ⟨hlen, -, rfl, rfl⟩ := Layout.front_eq_frame.mp h
    simp only [layout, Layout.announced, drop_zero, Nat.zero_add] at hlen ⊢
    obtain ⟨t, ht, hheader⟩ := readFull_eq R headerLength s
    rw [if_pos (by omega)] at hheader
    obtain ⟨u, hu, hpayload⟩ := readFull_eq R (bigEndianValue ((R.unread s).take headerLength)) t
    rw [ht, length_drop, if_pos (by omega)] at hpayload
    refine ⟨u, ?_, ?_⟩
    · simp only [read, hheader, hpayload]
    · rw [hu, ht, drop_drop]
  stop {s} h := by
    obtain ⟨t, ht, hheader⟩ := readFull_eq R headerLength s
    unfold fault
    split
    · next hlen =>
      rw [if_neg (by omega)] at hheader
      exact ⟨t, by simp only [read, hheader]⟩
    · next hlen =>
      have hshort : (R.unread s).length < headerLength + layout.announced (R.unread s) := by
        apply Nat.lt_of_not_le
        intro hle
        apply h _ _
        exact Layout.front_eq_frame.mpr ⟨by simpa [layout] using hle, announced_le _, rfl, rfl⟩
      simp only [layout, Layout.announced, drop_zero] at hshort
      rw [if_pos (by omega)] at hheader
      obtain ⟨u, hu, hpayload⟩ :=
        readFull_eq R (bigEndianValue ((R.unread s).take headerLength)) t
      rw [ht, length_drop, if_neg (by omega)] at hpayload
      exact ⟨u, by simp only [read, hheader, hpayload]⟩

theorem front_encode {payload : Bytes} (h : payload.length ≤ maxPayloadLength) (rest : Bytes) :
    layout.format.front (encode payload ++ rest) = .frame payload rest :=
  layout.front_encode (rfl : ([] : Bytes).length = 0) h rest

/-- Payloads written through any writer come back from any reader as they were, and from a stream
cut at `n` those that ended before the cut. -/
theorem read_returns_written (W : Writer σ) (R : Reader τ) {payloads : List Bytes}
    (hlen : ∀ p ∈ payloads, p.length ≤ maxPayloadLength) (s : σ) :
    ∃ t wire, writeEach (write W.write) payloads s = (none, t) ∧
      W.written t = W.written s ++ wire ∧
      ∀ r fuel, payloads.length < fuel →
        (R.unread r = wire → drain (read R.read) fuel r = (payloads, some .eof)) ∧
        ∀ n, R.unread r = wire.take n →
          ∃ e, drain (read R.read) fuel r = (whole encode n payloads, some e) := by
  obtain ⟨t, hwrite, hwritten⟩ := writeEach_eq (fun p hp => write_eq W (hlen p hp)) s
  have hfront : ∀ p ∈ payloads, ∀ rest, layout.format.front (encode p ++ rest) = .frame p rest :=
    fun p hp => front_encode (hlen p hp)
  refine ⟨t, payloads.flatMap encode, hwrite, hwritten, fun r fuel hfuel => ⟨?_, ?_⟩⟩
  · intro hr
    have hdecode := decode_flatMap hfront []
    rw [append_nil, decode_nil, append_nil, ← hr] at hdecode
    rw [(read_reads R).drain_eq (by rwa [hdecode]), hdecode]
    rfl
  · intro n hr
    obtain ⟨rest, hdecode, -⟩ := decode_take hfront n
    obtain ⟨k, hk⟩ := whole_prefix encode n payloads
    rw [← hr] at hdecode
    refine ⟨fault rest, ?_⟩
    rw [(read_reads R).drain_eq, hdecode]
    rw [hdecode, hk]
    exact Nat.lt_of_le_of_lt (length_take_le' _ _) hfuel

theorem read_returns_written_bytewise :
    ∃ t wire, writeEach (write Writer.bytewise.write) [[7, 8], [], [9]] [] = (none, t) ∧
      t = [] ++ wire ∧
      ∀ r fuel, 3 < fuel →
        (r = wire → drain (read Reader.bytewise.read) fuel r = ([[7, 8], [], [9]], some .eof)) ∧
        ∀ n, r = wire.take n →
          ∃ e, drain (read Reader.bytewise.read) fuel r =
            (whole encode n [[7, 8], [], [9]], some e) :=
  read_returns_written Writer.bytewise Reader.bytewise (by decide) []

section Bridge

def netErrClosed : Error := .text "use of closed network connection"

/-- The cases of the `select` in `waitForDatagramBridge`. -/
inductive BridgeCase where
  | ctxDone (err : Error)
  | idle
  | activity
  | errorsCh (err : Option Error)

/-- The error that is returned and whether the stream is reset, once a case ends the loop. -/
def waitForDatagramBridge : List BridgeCase → Option (Option Error × Bool)
  | [] => none
  | .ctxDone err :: _ => some (some err, true)
  | .idle :: _ => some (none, false)
  | .activity :: rest => waitForDatagramBridge rest
  | .errorsCh none :: _ => some (none, false)
  | .errorsCh (some err) :: _ =>
    if err.is .eof || err.is netErrClosed then some (none, false) else some (some err, true)

theorem waitForDatagramBridge_activity (n : Nat) (rest : List BridgeCase) :
    waitForDatagramBridge (replicate n .activity ++ rest) = waitForDatagramBridge rest := by
  induction n with
  | zero => rfl
  | succ n ih => exact ih

theorem fault_is_eof (b : Bytes) :
    (fault b).is .eof = true ↔ b = [] ∨ b.length = headerLength := by
  unfold fault shortRead
  split_ifs with hlen hnil hnil
  · simp [Error.is, hnil]
  · simp [Error.is, hnil, Nat.ne_of_lt hlen]
  · have := drop_eq_nil_iff.mp hnil
    simp [Error.is, show b.length = headerLength by omega]
  · have hlong := mt drop_eq_nil_iff.mpr hnil
    have hne : b ≠ [] := fun h => hlong (by simp [h])
    simp [Error.is, hne, show b.length ≠ headerLength by omega]

theorem fault_is_netErrClosed (b : Bytes) : (fault b).is netErrClosed = false := by
  unfold fault shortRead
  split_ifs <;> rfl

/-- The error that ends a stream is `io.EOF` where no packet was cut off and nowhere else, and the
bridge then returns no error, exactly if the stream does not end right behind a header. -/
theorem read_eof_iff_boundary (R : Reader σ) (s : σ) :
    ∃ err rest, rest = (decode layout.format (R.unread s)).2 ∧
      (∃ packets, ∀ fuel, packets.length < fuel → drain (read R.read) fuel s = (packets, some err)) ∧
      ((err.is .eof = true ↔ rest = []) ↔ rest.length ≠ headerLength) ∧
      ∀ n more, ((waitForDatagramBridge (replicate n .activity ++ .errorsCh (some err) :: more) =
        some (none, false) ↔ rest = []) ↔ rest.length ≠ headerLength) := by
  refine ⟨_, _, rfl, ⟨_, fun fuel => (read_reads R).drain_eq⟩, ?_⟩
  generalize (decode layout.format (R.unread s)).2 = rest
  have hiff : (rest = [] ∨ rest.length = headerLength ↔ rest = []) ↔
      rest.length ≠ headerLength := by
    constructor
    · intro h hlen
      rw [h.mp (.inr hlen)] at hlen
      exact absurd hlen (by decide)
    · intro hlen
      exact ⟨fun h => h.resolve_right hlen, .inl⟩
  refine ⟨by rw [fault_is_eof, hiff], ?_⟩
  intro n more
  rw [waitForDatagramBridge_activity, waitForDatagramBridge, fault_is_netErrClosed, Bool.or_false,
    ite_eq_left_iff, ← hiff, ← fault_is_eof]
  simp

/-- A header of three bytes without its payload ends the session as if nothing were missing. -/
theorem read_header_only : ∃ err,
    drain (read Reader.bytewise.read) 1 [0, 3] = ([], some err) ∧ err.is .eof = true ∧
      waitForDatagramBridge [.errorsCh (some err)] = some (none, false) :=
  ⟨.wrap "read datagram payload: " .eof, by decide, by decide, rfl⟩

end Bridge

end P2PNetcat.Datagram
