import P2PNetcat.Library.ByteCodec

/-!
# Framing

Frames taken one after another off the front of a byte string, and frames that carry their length.
-/

namespace Framing
open List ByteCodec

inductive Front (F : Type) where
  | incomplete
  | bad
  | frame (f : F) (rest : Bytes)

/-- A way to cut frames off a byte string, which more bytes at its end do not change. -/
structure Format (F : Type) where
  front : Bytes → Front F
  rest_lt {b : Bytes} {f : F} {rest : Bytes} : front b = .frame f rest → rest.length < b.length
  frame_append {b : Bytes} {f : F} {rest : Bytes} (more : Bytes) :
    front b = .frame f rest → front (b ++ more) = .frame f (rest ++ more)
  bad_append {b : Bytes} (more : Bytes) : front b = .bad → front (b ++ more) = .bad

section Decode
variable {F : Type} (P : Format F)

def decode (b : Bytes) : List F × Bytes :=
  match _h : P.front b with
  | .incomplete | .bad => ([], b)
  | .frame f rest => (f :: (decode rest).1, (decode rest).2)
termination_by b.length
decreasing_by all_goals exact P.rest_lt _h

variable {P} {b rest more : Bytes} {f : F}

theorem decode_frame (h : P.front b = .frame f rest) :
    decode P b = (f :: (decode P rest).1, (decode P rest).2) := by
  rw [decode]
  split <;> simp_all

theorem decode_stop (h : ∀ f rest, P.front b ≠ .frame f rest) : decode P b = ([], b) := by
  rw [decode]
  split
  · rfl
  · rfl
  · next hf => exact absurd hf (h _ _)

@[simp] theorem decode_nil : decode P [] = ([], []) :=
  decode_stop fun _ _ h => Nat.not_lt_zero _ (P.rest_lt h)

theorem front_decode (b : Bytes) : ∀ f rest, P.front (decode P b).2 ≠ .frame f rest := by
  fun_induction decode P b with
  | case1 b h | case2 b h => intro f rest hf; cases h.symm.trans hf
  | case3 b f rest h ih => exact ih

theorem decode_append (b more : Bytes) :
    decode P (b ++ more) = ((decode P b).1 ++ (decode P ((decode P b).2 ++ more)).1,
      (decode P ((decode P b).2 ++ more)).2) := by
  fun_induction decode P b with
  | case1 b h | case2 b h => rfl
  | case3 b f rest h ih => rw [decode_frame (P.frame_append more h), ih]; rfl

variable {encode : F → Bytes} {fs : List F}

theorem decode_flatMap (h : ∀ f ∈ fs, ∀ rest, P.front (encode f ++ rest) = .frame f rest)
    (rest : Bytes) :
    decode P (fs.flatMap encode ++ rest) = (fs ++ (decode P rest).1, (decode P rest).2) := by
  induction fs with
  | nil => rfl
  | cons f fs ih =>
    rw [flatMap_cons, append_assoc, decode_frame (h f mem_cons_self _),
      ih fun g hg => h g (mem_cons_of_mem _ hg)]
    rfl

theorem front_take {n : Nat} (h : P.front (encode f) = .frame f []) (hn : n < (encode f).length) :
    ∀ g rest, P.front ((encode f).take n) ≠ .frame g rest := by
  intro g rest hg
  have happ := P.frame_append ((encode f).drop n) hg
  rw [take_append_drop, h] at happ
  have hnil := (append_eq_nil_iff.mp (Front.frame.inj happ).2.symm).2
  have := drop_eq_nil_iff.mp hnil
  omega

variable (encode)

def whole : Nat → List F → List F
  | _, [] => []
  | n, f :: fs =>
    if (encode f).length ≤ n then f :: whole (n - (encode f).length) fs else []

theorem whole_prefix (n : Nat) (fs : List F) : ∃ k, whole encode n fs = fs.take k := by
  induction fs generalizing n with
  | nil => exact ⟨0, rfl⟩
  | cons f fs ih =>
    rw [whole]
    split
    · obtain ⟨k, hk⟩ := ih (n - (encode f).length)
      exact ⟨k + 1, by rw [hk, take_succ_cons]⟩
    · exact ⟨0, rfl⟩

theorem whole_all {n : Nat} (h : (fs.flatMap encode).length ≤ n) : whole encode n fs = fs := by
  induction fs generalizing n with
  | nil => rfl
  | cons f fs ih =>
    rw [flatMap_cons, length_append] at h
    rw [whole, if_pos (by omega), ih (by omega)]

variable {encode}

theorem decode_sound (h : ∀ b f rest, P.front b = .frame f rest → b = encode f ++ rest) (b : Bytes) :
    b = (decode P b).1.flatMap encode ++ (decode P b).2 := by
  fun_induction decode P b with
  | case1 b hb | case2 b hb => rfl
  | case3 b f rest hb ih => rw [flatMap_cons, append_assoc, ← ih, ← h b f rest hb]

variable (h : ∀ f ∈ fs, ∀ rest, P.front (encode f ++ rest) = .frame f rest)
include h

/-- A cut leaves exactly the frames before it, and nothing else where it falls between two. -/
theorem decode_take (n : Nat) :
    ∃ rest, decode P ((fs.flatMap encode).take n) = (whole encode n fs, rest) ∧
      (fs.flatMap encode).take n = (whole encode n fs).flatMap encode ++ rest := by
  induction fs generalizing n with
  | nil => exact ⟨[], by simp [whole], by simp [whole]⟩
  | cons f fs ih =>
    have hf := h f mem_cons_self
    rw [flatMap_cons, take_append, whole]
    split
    · next hn =>
      obtain ⟨rest, hdecode, htake⟩ := ih (fun g hg => h g (mem_cons_of_mem _ hg))
        (n - (encode f).length)
      rw [take_of_length_le hn, decode_frame (hf _), hdecode]
      exact ⟨rest, rfl, by rw [htake, flatMap_cons, append_assoc]⟩
    · next hn =>
      have hcut := front_take (by simpa using hf []) (Nat.lt_of_not_le hn)
      rw [Nat.sub_eq_zero_of_le (by omega), take_zero, append_nil, decode_stop hcut]
      exact ⟨_, rfl, rfl⟩

theorem decode_take_rest
    (n : Nat) : (decode P ((fs.flatMap encode).take n)).2 = [] ↔
      ∃ k, (fs.flatMap encode).take n = (fs.take k).flatMap encode := by
  obtain ⟨rest, hdecode, htake⟩ := decode_take h n
  constructor
  · intro hrest
    obtain ⟨k, hk⟩ := whole_prefix encode n fs
    rw [hdecode] at hrest
    obtain rfl : rest = [] := hrest
    exact ⟨k, by rw [htake, append_nil, hk]⟩
  · rintro ⟨k, hk⟩
    have hall : ∀ f ∈ fs.take k, ∀ rest, P.front (encode f ++ rest) = .frame f rest :=
      fun f hf => h f (mem_of_mem_take hf)
    have hwhole := decode_flatMap hall []
    rw [append_nil] at hwhole
    rw [hk, hwhole, decode_nil]

end Decode

section Drain
variable {F σ ε : Type}

def drain (read : σ → Except ε F × σ) : Nat → σ → List F × Option ε
  | 0, _ => ([], none)
  | fuel + 1, s =>
    match read s with
    | (.ok f, s) => (f :: (drain read fuel s).1, (drain read fuel s).2)
    | (.error e, _) => ([], some e)

/-- `read` takes the frame at the front of `unread`, and fails with `fault` where there is none. -/
structure Reads (P : Format F) (read : σ → Except ε F × σ) (unread : σ → Bytes)
    (fault : Bytes → ε) : Prop where
  frame {s : σ} {f : F} {rest : Bytes} : P.front (unread s) = .frame f rest →
    ∃ t, read s = (.ok f, t) ∧ unread t = rest
  stop {s : σ} : (∀ f rest, P.front (unread s) ≠ .frame f rest) →
    ∃ t, read s = (.error (fault (unread s)), t)

/-- Enough reads return the frames of the bytes, and then the error of what is left. -/
theorem Reads.drain_eq {P : Format F} {read : σ → Except ε F × σ} {unread : σ → Bytes}
    {fault : Bytes → ε} (h : Reads P read unread fault) {fuel : Nat} {s : σ}
    (hfuel : (decode P (unread s)).1.length < fuel) :
    drain read fuel s = ((decode P (unread s)).1, some (fault (decode P (unread s)).2)) := by
  induction fuel generalizing s with
  | zero => omega
  | succ fuel ih =>
    cases hfront : P.front (unread s) with
    | frame f rest =>
      obtain ⟨t, hread, rfl⟩ := h.frame hfront
      rw [decode_frame hfront] at hfuel ⊢
      simp only [drain, hread, ih (Nat.lt_of_succ_lt_succ hfuel)]
    | incomplete | bad =>
      have hstop : ∀ f rest, P.front (unread s) ≠ .frame f rest := by simp [hfront]
      obtain ⟨t, hread⟩ := h.stop hstop
      simp only [drain, hread, decode_stop hstop]

end Drain

/-- Frames of `tag` bytes, the payload's length in `width` bytes, and a payload up to `limit`. -/
structure Layout (F : Type) where
  tag : Nat
  width : Nat
  limit : Nat
  make : Bytes → Bytes → F
  width_pos : 0 < width
  limit_lt : limit < 256 ^ width

namespace Layout
variable {F : Type} (L : Layout F)

def announced (b : Bytes) : Nat := bigEndianValue ((b.drop L.tag).take L.width)

def front (b : Bytes) : Front F :=
  if b.length < L.tag + L.width then .incomplete
  else if L.limit < L.announced b then .bad
  else if b.length < L.tag + L.width + L.announced b then .incomplete
  else .frame (L.make (b.take L.tag) ((b.drop (L.tag + L.width)).take (L.announced b)))
    (b.drop (L.tag + L.width + L.announced b))

variable {L} {b rest : Bytes} {f : F}

theorem announced_append (h : L.tag + L.width ≤ b.length) (more : Bytes) :
    L.announced (b ++ more) = L.announced b := by
  unfold announced
  rw [drop_append_of_le_length (by omega),
    take_append_of_le_length (by rw [length_drop]; omega)]

theorem front_eq_frame : L.front b = .frame f rest ↔
    L.tag + L.width + L.announced b ≤ b.length ∧ L.announced b ≤ L.limit ∧
      f = L.make (b.take L.tag) ((b.drop (L.tag + L.width)).take (L.announced b)) ∧
      rest = b.drop (L.tag + L.width + L.announced b) := by
  unfold front
  split_ifs
  · simp; omega
  · simp; omega
  · simp; omega
  · rw [Front.frame.injEq]
    constructor
    · rintro ⟨rfl, rfl⟩
      exact ⟨by omega, by omega, rfl, rfl⟩
    · rintro ⟨-, -, rfl, rfl⟩
      exact ⟨rfl, rfl⟩

theorem front_eq_bad :
    L.front b = .bad ↔ L.tag + L.width ≤ b.length ∧ L.limit < L.announced b := by
  unfold front
  split_ifs <;> simp <;> omega

variable (L)

def format : Format F where
  front := L.front
  rest_lt h := by
    obtain ⟨hlen, -, -, rfl⟩ := front_eq_frame.mp h
    have := L.width_pos
    rw [length_drop]
    omega
  frame_append more h := by
    obtain ⟨hlen, hlimit, rfl, rfl⟩ := front_eq_frame.mp h
    have hannounced := announced_append (L := L) (Nat.le_of_add_right_le hlen) more
    refine front_eq_frame.mpr ⟨?_, ?_, ?_, ?_⟩
    · rw [hannounced, length_append]; omega
    · rwa [hannounced]
    · rw [hannounced, take_append_of_le_length (by omega),
        drop_append_of_le_length (by omega),
        take_append_of_le_length (by rw [length_drop]; omega)]
    · rw [hannounced, drop_append_of_le_length hlen]
  bad_append more h := by
    obtain ⟨hlen, hlimit⟩ := front_eq_bad.mp h
    exact front_eq_bad.mpr ⟨by rw [length_append]; omega, by rwa [announced_append hlen]⟩

theorem announced_encode {tag payload : Bytes} (htag : tag.length = L.tag)
    (hpayload : payload.length ≤ L.limit) (rest : Bytes) :
    L.announced (tag ++ bigEndian L.width payload.length ++ rest) = payload.length := by
  have hlimit := L.limit_lt
  rw [announced, append_assoc, drop_append_of_le_length (by omega),
    drop_of_length_le (by omega), nil_append,
    take_append_of_le_length (by simp), take_of_length_le (by simp),
    bigEndianValue_bigEndian _ _ (by omega)]

theorem front_encode {tag payload : Bytes} (htag : tag.length = L.tag)
    (hpayload : payload.length ≤ L.limit) (rest : Bytes) :
    L.front (tag ++ bigEndian L.width payload.length ++ payload ++ rest) =
      .frame (L.make tag payload) rest := by
  have hannounced := L.announced_encode htag hpayload (payload ++ rest)
  rw [← append_assoc] at hannounced
  have hhead : (tag ++ bigEndian L.width payload.length).length = L.tag + L.width := by
    simp [htag]
  refine front_eq_frame.mpr ⟨?_, ?_, ?_, ?_⟩
  · rw [hannounced]; simp [htag]; omega
  · rwa [hannounced]
  · rw [hannounced, append_assoc _ payload, append_assoc tag,
      take_append_of_le_length (by omega), take_of_length_le (by omega),
      ← append_assoc tag, ← hhead, drop_left, take_left]
  · rw [hannounced, ← hhead, ← length_append, drop_left]

theorem front_sound {b rest : Bytes} {f : F} (h : L.front b = .frame f rest) :
    ∃ tag payload, tag.length = L.tag ∧ f = L.make tag payload ∧
      b = tag ++ bigEndian L.width payload.length ++ payload ++ rest := by
  obtain ⟨hlen, -, rfl, rfl⟩ := front_eq_frame.mp h
  refine ⟨_, _, length_take_of_le (by omega), rfl, ?_⟩
  have hwidth : ((b.drop L.tag).take L.width).length = L.width := by simp; omega
  have hlength := bigEndian_bigEndianValue ((b.drop L.tag).take L.width)
  rw [hwidth] at hlength
  rw [length_take_of_le (by rw [length_drop]; omega), announced, hlength, ← take_add,
    ← take_add, take_append_drop]

end Layout
end Framing
