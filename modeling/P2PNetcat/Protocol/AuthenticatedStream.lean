import P2PNetcat.Library.ByteCodec
import P2PNetcat.Library.Fallible

/-!
# Authenticated streams

How the browser reads the authentication frame off a stream of chunks, and what it leaves to the
session.
-/

namespace P2PNetcat.AuthenticatedStream
open List ByteCodec Fallible

def sessionAuthFrameBytes : Nat := 62

structure Iterator where
  chunks : List Bytes
  ending : Except String Unit := .ok ()

def Iterator.next (it : Iterator) : Except String (Option Bytes) × Iterator :=
  match it.chunks with
  | chunk :: rest => (.ok (some chunk), { it with chunks := rest })
  | [] => (it.ending.map fun _ => none, it)

structure Consumed where
  iterator : Iterator
  received : Bytes

def Consumed.frame (c : Consumed) : Bytes := c.received.take sessionAuthFrameBytes

def Consumed.remainder (c : Consumed) : Bytes := c.received.drop sessionAuthFrameBytes

def timedOut (timeout : Nat) : String :=
  "Pairing token authentication timed out after " ++ toString timeout ++ " ms"

/-- The loop of `consumePrefix`. The deadline passes before the `i`-th chunk if `late i`. -/
def consume (timeout : Nat) (late : Nat → Bool) (ending : Except String Unit) :
    Nat → Bytes → List Bytes → Except String Consumed
  | i, received, chunks =>
    if sessionAuthFrameBytes ≤ received.length then .ok ⟨⟨chunks, ending⟩, received⟩
    else if late i then .error (timedOut timeout)
    else
      match chunks with
      | [] => ending.bind fun _ => .error "P2P stream ended during pairing token authentication"
      | chunk :: rest => consume timeout late ending (i + 1) (received ++ chunk) rest

def consumePrefix (timeout : Nat) (late : Nat → Bool) (it : Iterator) : Except String Consumed :=
  consume timeout late it.ending 0 [] it.chunks

structure Wrapped where
  pending : Bytes
  iterator : Iterator

def wrapConsumedStream (c : Consumed) : Wrapped := ⟨c.remainder, c.iterator⟩

def Wrapped.next (w : Wrapped) : Except String (Option Bytes) × Wrapped :=
  if 0 < w.pending.length then (.ok (some w.pending), { w with pending := [] })
  else (w.iterator.next.1, { w with iterator := w.iterator.next.2 })

/-- At most `fuel` calls of `next`: the values up to the end, and the end if it came. -/
def Wrapped.iterate : Nat → Wrapped → List Bytes × Option (Except String Unit)
  | 0, _ => ([], none)
  | fuel + 1, w =>
    match w.next with
    | (.ok (some value), w) => (value :: (iterate fuel w).1, (iterate fuel w).2)
    | (.ok none, _) => ([], some (.ok ()))
    | (.error message, _) => ([], some (.error message))

/-- What the calls around `consumePrefix` return: of the own frame, its sending, and the check. -/
structure Exchange where
  timeout : Nat := 10000
  late : Nat → Bool
  created : Except String Unit
  sent : Except String Unit
  verified : Bytes → Except String Unit

def authenticateClientStream (x : Exchange) (it : Iterator) : Except String Wrapped := do
  x.created
  x.sent
  let consumed ← consumePrefix x.timeout x.late it
  x.verified consumed.frame
  return wrapConsumedStream consumed

def authenticateServerStream (x : Exchange) (it : Iterator) : Except String Wrapped := do
  let consumed ← consumePrefix x.timeout x.late it
  x.verified consumed.frame
  x.created
  x.sent
  return wrapConsumedStream consumed

variable {x : Exchange} {it : Iterator} {w : Wrapped}

theorem consume_ok {timeout i : Nat} {late : Nat → Bool} {ending : Except String Unit}
    {received : Bytes} {chunks : List Bytes} {c : Consumed}
    (h : consume timeout late ending i received chunks = .ok c) :
    sessionAuthFrameBytes ≤ c.received.length ∧ c.iterator.ending = ending ∧
      c.received ++ c.iterator.chunks.flatten = received ++ chunks.flatten ∧
      c.iterator.chunks.length ≤ chunks.length := by
  induction chunks generalizing i received with
  | nil =>
    rw [consume] at h
    split at h
    · next hlen =>
      cases h
      exact ⟨hlen, rfl, rfl, Nat.le_refl _⟩
    · rw [ite_error_eq_ok] at h
      cases ending <;> cases h.2
  | cons chunk rest ih =>
    rw [consume] at h
    split at h
    · next hlen =>
      cases h
      exact ⟨hlen, rfl, rfl, Nat.le_refl _⟩
    · obtain ⟨hlen, hending, hbytes, hcount⟩ := ih (ite_error_eq_ok.mp h).2
      refine ⟨hlen, hending, ?_, Nat.le_succ_of_le hcount⟩
      rw [hbytes, flatten_cons, append_assoc]

theorem iterate_iterator (chunks : List Bytes) (ending : Except String Unit) {fuel : Nat}
    (h : chunks.length < fuel) :
    Wrapped.iterate fuel ⟨[], chunks, ending⟩ = (chunks, some ending) := by
  induction chunks generalizing fuel with
  | nil =>
    obtain ⟨fuel, rfl⟩ := Nat.exists_eq_add_one.mpr h
    cases ending <;> rfl
  | cons chunk rest ih =>
    obtain ⟨fuel, rfl⟩ := Nat.exists_eq_add_one.mpr (Nat.zero_lt_of_lt h)
    have hrest := ih (Nat.lt_of_succ_lt_succ h)
    simp only [Wrapped.iterate, Wrapped.next, Iterator.next, length_nil, Nat.lt_irrefl,
      if_false, hrest]

/-- Enough calls of `next` yield the bytes held back and those of the iterator, and its end. -/
theorem iterate_eq (w : Wrapped) {fuel : Nat} (h : w.iterator.chunks.length + 1 < fuel) :
    ∃ values, w.iterate fuel = (values, some w.iterator.ending) ∧
      values.flatten = w.pending ++ w.iterator.chunks.flatten := by
  obtain ⟨pending, chunks, ending⟩ := w
  cases pending with
  | nil => exact ⟨chunks, iterate_iterator chunks ending (Nat.lt_of_succ_lt h), rfl⟩
  | cons b pending =>
    obtain ⟨fuel, rfl⟩ := Nat.exists_eq_add_one.mpr (Nat.zero_lt_of_lt h)
    have hrest := iterate_iterator chunks ending (Nat.lt_of_succ_lt_succ h)
    refine ⟨(b :: pending) :: chunks, ?_, rfl⟩
    simp only [Wrapped.iterate, Wrapped.next, length_cons, Nat.zero_lt_succ, if_true, hrest]

theorem consumed_of_ok
    (h : authenticateClientStream x it = .ok w ∨ authenticateServerStream x it = .ok w) :
    ∃ c, consumePrefix x.timeout x.late it = .ok c ∧ x.verified c.frame = .ok () ∧
      w = wrapConsumedStream c := by
  rcases h with h | h
  · obtain ⟨-, -, h⟩ := bind_eq_ok.mp h
    obtain ⟨-, -, h⟩ := bind_eq_ok.mp h
    obtain ⟨c, hc, h⟩ := bind_eq_ok.mp h
    obtain ⟨⟨⟩, hverified, h⟩ := bind_eq_ok.mp h
    exact ⟨c, hc, hverified, (Except.ok.inj h).symm⟩
  · obtain ⟨c, hc, h⟩ := bind_eq_ok.mp h
    obtain ⟨⟨⟩, hverified, h⟩ := bind_eq_ok.mp h
    obtain ⟨-, -, h⟩ := bind_eq_ok.mp h
    obtain ⟨-, -, h⟩ := bind_eq_ok.mp h
    exact ⟨c, hc, hverified, (Except.ok.inj h).symm⟩

/-- However the bytes are cut into chunks, the session gets those behind the frame. -/
theorem wrapped_yields_application {frame application : Bytes}
    (hframe : frame.length = sessionAuthFrameBytes)
    (hbytes : it.chunks.flatten = frame ++ application)
    (h : authenticateClientStream x it = .ok w ∨ authenticateServerStream x it = .ok w) :
    x.verified frame = .ok () ∧ ∀ fuel, it.chunks.length + 1 < fuel →
      ∃ values, w.iterate fuel = (values, some it.ending) ∧ values.flatten = application := by
  obtain ⟨c, hc, hverified, rfl⟩ := consumed_of_ok h
  obtain ⟨hlen, hending, hall, hcount⟩ := consume_ok hc
  rw [nil_append, hbytes, ← take_append_drop sessionAuthFrameBytes c.received,
    append_assoc] at hall
  obtain ⟨rfl, happlication⟩ :=
    append_inj hall (by rw [length_take_of_le hlen, hframe])
  refine ⟨hverified, fun fuel hfuel => ?_⟩
  obtain ⟨values, hvalues, hflat⟩ := iterate_eq (wrapConsumedStream c)
    (Nat.lt_of_le_of_lt (Nat.succ_le_succ hcount) hfuel)
  exact ⟨values, hending ▸ hvalues, hflat.trans happlication⟩

def splitFrame : Iterator := ⟨[[], replicate 60 1, [1, 1, 7], [], [8]], .ok ()⟩

def accepting : Exchange := ⟨10000, fun _ => false, .ok (), .ok (), fun _ => .ok ()⟩

theorem wrapped_yields_application_split :
    ∃ w, authenticateServerStream accepting splitFrame = .ok w ∧
      ∃ values, w.iterate 7 = (values, some (.ok ())) ∧ values.flatten = [7, 8] := by
  have hbytes : splitFrame.chunks.flatten = replicate 62 1 ++ [7, 8] := by decide
  obtain ⟨w, hw⟩ : ∃ w, authenticateServerStream accepting splitFrame = .ok w := ⟨_, rfl⟩
  exact ⟨w, hw, (wrapped_yields_application rfl hbytes (.inr hw)).2 7 (by decide)⟩

end P2PNetcat.AuthenticatedStream
