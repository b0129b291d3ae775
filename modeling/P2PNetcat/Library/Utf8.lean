import P2PNetcat.Library.ByteCodec

/-!
# UTF-8

One to four bytes for each character. The decoder accepts the shortest form
only and no surrogates.
-/

namespace Utf8
open List ByteCodec
variable {input : Bytes} {c : Char} {text : List Char} {n1 n fuel : Nat}

def encodeChar (c : Char) : Bytes :=
  let n := c.toNat
  if n < 0x80 then [n.toUInt8]
  else if n < 0x800 then [(0xc0 + n / 64).toUInt8, (0x80 + n % 64).toUInt8]
  else if n < 0x10000 then
    [(0xe0 + n / 4096).toUInt8, (0x80 + n / 64 % 64).toUInt8, (0x80 + n % 64).toUInt8]
  else
    [(0xf0 + n / 262144).toUInt8, (0x80 + n / 4096 % 64).toUInt8, (0x80 + n / 64 % 64).toUInt8,
      (0x80 + n % 64).toUInt8]

def encode (text : List Char) : Bytes := text.flatMap encodeChar

def continuation (b : UInt8) : Option Nat :=
  if 0x80 ≤ b.toNat ∧ b.toNat < 0xc0 then some (b.toNat - 0x80) else none

def charFrom (least n : Nat) : Option Char :=
  if least ≤ n ∧ n.isValidChar then some (Char.ofNat n) else none

def decodeChar : Bytes → Option (Char × Bytes)
  | [] => none
  | b :: rest =>
    if b.toNat < 0x80 then some (Char.ofNat b.toNat, rest)
    else if b.toNat < 0xe0 then
      match rest with
      | b1 :: rest => do
        let n1 ← continuation b1
        let c ← charFrom 0x80 ((b.toNat - 0xc0) * 64 + n1)
        some (c, rest)
      | _ => none
    else if b.toNat < 0xf0 then
      match rest with
      | b1 :: b2 :: rest => do
        let n1 ← continuation b1
        let n2 ← continuation b2
        let c ← charFrom 0x800 ((b.toNat - 0xe0) * 4096 + n1 * 64 + n2)
        some (c, rest)
      | _ => none
    else
      match rest with
      | b1 :: b2 :: b3 :: rest => do
        let n1 ← continuation b1
        let n2 ← continuation b2
        let n3 ← continuation b3
        let c ← charFrom 0x10000 ((b.toNat - 0xf0) * 262144 + n1 * 4096 + n2 * 64 + n3)
        some (c, rest)
      | _ => none

/-- Each character takes at least one byte, so the length of the input is fuel enough. -/
def decodeFrom : Nat → Bytes → Option (List Char)
  | _, [] => some []
  | 0, _ :: _ => none
  | fuel + 1, input => do
    let (c, rest) ← decodeChar input
    let text ← decodeFrom fuel rest
    some (c :: text)

def decode (input : Bytes) : Option (List Char) := decodeFrom input.length input

def valid (input : Bytes) : Bool := (decode input).isSome

/-- A byte that starts no character stands for U+FFFD. -/
def runesFrom : Nat → Bytes → List Char
  | _, [] => []
  | 0, _ :: _ => []
  | fuel + 1, b :: rest =>
    match decodeChar (b :: rest) with
    | some (c, rest) => c :: runesFrom fuel rest
    | none => Char.ofNat 0xfffd :: runesFrom fuel rest

def runes (input : Bytes) : List Char := runesFrom input.length input

theorem continuation_toUInt8 (h : n < 64) : continuation (0x80 + n).toUInt8 = some n := by
  have hbyte : (0x80 + n).toUInt8.toNat = 0x80 + n := toNat_toUInt8 (by omega)
  rw [continuation, hbyte, if_pos (by omega), Nat.add_sub_cancel_left]

theorem charFrom_toNat {least : Nat} (h : least ≤ c.toNat) :
    charFrom least c.toNat = some c := by
  rw [charFrom, if_pos ⟨h, c.valid⟩, Char.ofNat_toNat]

theorem toNat_ofNat (h : n.isValidChar) : (Char.ofNat n).toNat = n := by
  rw [Char.ofNat, dif_pos h]
  rfl

theorem toNat_lt (c : Char) : c.toNat < 0x110000 := by
  rcases c.valid with h | h
  · exact Nat.lt_trans h (by decide)
  · exact h.2

theorem decodeChar_two (hn : n < 32) (h1 : n1 < 64)
    (hc : n * 64 + n1 = c.toNat) (hleast : 0x80 ≤ c.toNat) (rest : Bytes) :
    decodeChar ((0xc0 + n).toUInt8 :: (0x80 + n1).toUInt8 :: rest) = some (c, rest) := by
  have hlead : (0xc0 + n).toUInt8.toNat = 0xc0 + n := toNat_toUInt8 (by omega)
  simp only [decodeChar, hlead]
  rw [if_neg (by omega), if_pos (by omega), continuation_toUInt8 h1, Nat.add_sub_cancel_left]
  simp only [Option.bind_eq_bind, Option.bind_some, hc, charFrom_toNat hleast]

theorem decodeChar_three {n2 : Nat} (hn : n < 16) (h1 : n1 < 64) (h2 : n2 < 64)
    (hc : n * 4096 + n1 * 64 + n2 = c.toNat) (hleast : 0x800 ≤ c.toNat) (rest : Bytes) :
    decodeChar ((0xe0 + n).toUInt8 :: (0x80 + n1).toUInt8 :: (0x80 + n2).toUInt8 :: rest) =
      some (c, rest) := by
  have hlead : (0xe0 + n).toUInt8.toNat = 0xe0 + n := toNat_toUInt8 (by omega)
  simp only [decodeChar, hlead]
  rw [if_neg (by omega), if_neg (by omega), if_pos (by omega), continuation_toUInt8 h1,
    continuation_toUInt8 h2, Nat.add_sub_cancel_left]
  simp only [Option.bind_eq_bind, Option.bind_some, hc, charFrom_toNat hleast]

theorem decodeChar_four {n2 n3 : Nat} (hn : n < 8) (h1 : n1 < 64) (h2 : n2 < 64)
    (h3 : n3 < 64) (hc : n * 262144 + n1 * 4096 + n2 * 64 + n3 = c.toNat)
    (hleast : 0x10000 ≤ c.toNat) (rest : Bytes) :
    decodeChar ((0xf0 + n).toUInt8 :: (0x80 + n1).toUInt8 :: (0x80 + n2).toUInt8 ::
      (0x80 + n3).toUInt8 :: rest) = some (c, rest) := by
  have hlead : (0xf0 + n).toUInt8.toNat = 0xf0 + n := toNat_toUInt8 (by omega)
  have hchar := charFrom_toNat hleast
  rw [← hc] at hchar
  rw [decodeChar, hlead, if_neg (by omega), if_neg (by omega), if_neg (by omega)]
  dsimp only
  rw [continuation_toUInt8 h1, continuation_toUInt8 h2, continuation_toUInt8 h3,
    Nat.add_sub_cancel_left, Option.bind_eq_bind, Option.bind_some, Option.bind_eq_bind,
    Option.bind_some, Option.bind_some, hchar, Option.bind_some]

theorem decodeChar_encodeChar (c : Char) (rest : Bytes) :
    decodeChar (encodeChar c ++ rest) = some (c, rest) := by
  have hbound := toNat_lt c
  simp only [encodeChar]
  split
  next h =>
    have hbyte : c.toNat.toUInt8.toNat = c.toNat := toNat_toUInt8 (by omega)
    simp only [cons_append, nil_append, decodeChar, hbyte, if_pos h, Char.ofNat_toNat]
  split
  · exact decodeChar_two (by omega) (by omega) (by omega) (by omega) rest
  split
  · exact decodeChar_three (by omega) (by omega) (by omega) (by omega) (by omega) rest
  · exact decodeChar_four (by omega) (by omega) (by omega) (by omega) (by omega) (by omega) rest

theorem encodeChar_ne_nil (c : Char) : encodeChar c ≠ [] := by
  rw [encodeChar]
  repeat' split
  all_goals exact cons_ne_nil _ _

theorem decodeFrom_encode (text : List Char) (h : (encode text).length ≤ fuel) :
    decodeFrom fuel (encode text) = some text := by
  induction text generalizing fuel with
  | nil =>
    cases fuel <;> rfl
  | cons c text ih =>
    have hsplit : encode (c :: text) = encodeChar c ++ encode text := flatMap_cons
    have hpos := length_pos_iff.mpr (encodeChar_ne_nil c)
    rw [hsplit] at h ⊢
    rw [length_append] at h
    obtain ⟨fuel, rfl⟩ : ∃ k, fuel = k + 1 := ⟨fuel - 1, by omega⟩
    obtain ⟨b, bs, hcons⟩ := exists_cons_of_ne_nil (encodeChar_ne_nil c)
    have hdecode := decodeChar_encodeChar c (encode text)
    rw [hcons, cons_append] at hdecode ⊢
    have hrest : decodeFrom fuel (encode text) = some text := ih (by omega)
    simp only [decodeFrom, hdecode, Option.bind_eq_bind, Option.bind_some, hrest]

theorem decode_encode (text : List Char) : decode (encode text) = some text :=
  decodeFrom_encode text (Nat.le_refl _)

theorem runesFrom_of_decodeFrom
    (h : decodeFrom fuel input = some text) : runesFrom fuel input = text := by
  induction fuel generalizing input text with
  | zero =>
    cases input with
    | nil => exact Option.some.inj h
    | cons b rest => cases h
  | succ fuel ih =>
    cases input with
    | nil => exact Option.some.inj h
    | cons b rest =>
      obtain ⟨⟨c, after⟩, hchar, h⟩ := Option.bind_eq_some_iff.mp h
      obtain ⟨chars, hchars, h⟩ := Option.bind_eq_some_iff.mp h
      cases h
      simp only [runesFrom, hchar, ih hchars]

theorem runes_encode (text : List Char) : runes (encode text) = text :=
  runesFrom_of_decodeFrom (decode_encode text)

theorem valid_encode (text : List Char) : valid (encode text) = true := by
  rw [valid, decode_encode]
  rfl

theorem length_le_encode (text : List Char) : text.length ≤ (encode text).length := by
  induction text with
  | nil => exact Nat.le_refl 0
  | cons c text ih =>
    have hpos := length_pos_iff.mpr (encodeChar_ne_nil c)
    have hsplit : encode (c :: text) = encodeChar c ++ encode text := flatMap_cons
    rw [hsplit, length_append, length_cons]
    omega

theorem length_encode_ascii (h : ∀ c ∈ text, c.toNat < 0x80) :
    (encode text).length = text.length := by
  induction text with
  | nil => rfl
  | cons c text ih =>
    obtain ⟨hc, htail⟩ := forall_mem_cons.mp h
    have hsplit : encode (c :: text) = encodeChar c ++ encode text := flatMap_cons
    have hone : encodeChar c = [c.toNat.toUInt8] := if_pos hc
    rw [hsplit, hone, length_append, ih htail, length_singleton, length_cons,
      Nat.add_comm]

section
variable (h : ∀ b ∈ input, b.toNat < 0x80)
include h

theorem encode_of_ascii :
    encode (input.map charOf) = input := by
  induction input with
  | nil => rfl
  | cons b input ih =>
    have hb := h b mem_cons_self
    have hchar : (charOf b).toNat = b.toNat := toNat_ofNat (.inl (by omega))
    have htail := ih fun other hmem => h other (mem_cons_of_mem _ hmem)
    rw [encode] at htail ⊢
    rw [map_cons, flatMap_cons, htail, encodeChar, hchar, if_pos hb, toUInt8_eq rfl]
    rfl

theorem decode_of_ascii :
    decode input = some (input.map charOf) := by
  have hdecode := decode_encode (input.map charOf)
  rwa [encode_of_ascii h] at hdecode

theorem valid_of_ascii : valid input = true := by
  rw [valid, decode_of_ascii h]
  rfl

end

theorem encodeChar_eq_concat (c : Char) : ∃ init b, encodeChar c = init ++ [b] ∧
    (b.toNat = c.toNat ∨ 0x80 ≤ b.toNat) := by
  have hlast : 0x80 ≤ (0x80 + c.toNat % 64).toUInt8.toNat := by
    rw [toNat_toUInt8 (by omega)]
    exact Nat.le_add_right ..
  simp only [encodeChar]
  split
  next h =>
    exact ⟨[], _, rfl, .inl (toNat_toUInt8 (Nat.lt_trans h (by decide)))⟩
  split
  · exact ⟨[_], _, rfl, .inr hlast⟩
  split
  · exact ⟨[_, _], _, rfl, .inr hlast⟩
  · exact ⟨[_, _, _], _, rfl, .inr hlast⟩

theorem of_continuation {b : UInt8} (h : continuation b = some n) :
    n < 64 ∧ b.toNat = 0x80 + n := by
  rw [continuation] at h
  split at h
  · have hn := Option.some.inj h
    exact ⟨by omega, by omega⟩
  · cases h

theorem of_charFrom {least : Nat} (h : charFrom least n = some c) :
    least ≤ n ∧ c.toNat = n := by
  obtain ⟨hvalid, h⟩ := Option.ite_none_right_eq_some.mp h
  cases h
  exact ⟨hvalid.1, toNat_ofNat hvalid.2⟩

theorem encodeChar_of_decodeChar {rest : Bytes}
    (h : decodeChar input = some (c, rest)) : input = encodeChar c ++ rest := by
  cases input with
  | nil => cases h
  | cons b tail =>
    simp only [decodeChar] at h
    split at h
    next hb =>
      cases h
      have hc : (Char.ofNat b.toNat).toNat = b.toNat := toNat_ofNat (.inl (by omega))
      rw [encodeChar, hc, if_pos hb, toUInt8_eq rfl]
      rfl
    split at h
    · split at h
      next b1 tail =>
        simp only [Option.bind_eq_bind, Option.bind_eq_some_iff, Option.some.injEq,
          Prod.mk.injEq] at h
        obtain ⟨n1, h1, d, hd, rfl, rfl⟩ := h
        obtain ⟨hlt1, h1⟩ := of_continuation h1
        obtain ⟨hleast, hd⟩ := of_charFrom hd
        rw [encodeChar, hd, if_neg (by omega), if_pos (by omega), toUInt8_eq (b := b) (by omega),
          toUInt8_eq (b := b1) (by omega)]
        rfl
      · cases h
    split at h
    · split at h
      next b1 b2 tail =>
        simp only [Option.bind_eq_bind, Option.bind_eq_some_iff, Option.some.injEq,
          Prod.mk.injEq] at h
        obtain ⟨n1, h1, n2, h2, d, hd, rfl, rfl⟩ := h
        obtain ⟨hlt1, h1⟩ := of_continuation h1
        obtain ⟨hlt2, h2⟩ := of_continuation h2
        obtain ⟨hleast, hd⟩ := of_charFrom hd
        rw [encodeChar, hd, if_neg (by omega), if_neg (by omega), if_pos (by omega),
          toUInt8_eq (b := b) (by omega), toUInt8_eq (b := b1) (by omega),
          toUInt8_eq (b := b2) (by omega)]
        rfl
      · cases h
    · split at h
      next b1 b2 b3 tail =>
        simp only [Option.bind_eq_bind, Option.bind_eq_some_iff, Option.some.injEq,
          Prod.mk.injEq] at h
        obtain ⟨n1, h1, n2, h2, n3, h3, d, hd, rfl, rfl⟩ := h
        obtain ⟨hlt1, h1⟩ := of_continuation h1
        obtain ⟨hlt2, h2⟩ := of_continuation h2
        obtain ⟨hlt3, h3⟩ := of_continuation h3
        obtain ⟨hleast, hd⟩ := of_charFrom hd
        rw [encodeChar, hd, if_neg (by omega), if_neg (by omega), if_neg (by omega),
          toUInt8_eq (b := b) (by omega), toUInt8_eq (b := b1) (by omega),
          toUInt8_eq (b := b2) (by omega), toUInt8_eq (b := b3) (by omega)]
        rfl
      · cases h

theorem encode_of_decodeFrom (h : decodeFrom fuel input = some text) : encode text = input := by
  induction fuel generalizing input text with
  | zero =>
    cases input with
    | nil =>
      cases h
      rfl
    | cons b rest => cases h
  | succ fuel ih =>
    cases input with
    | nil =>
      cases h
      rfl
    | cons b rest =>
      simp only [decodeFrom, Option.bind_eq_bind, Option.bind_eq_some_iff, Option.some.injEq] at h
      obtain ⟨⟨c, after⟩, hchar, text', htext, rfl⟩ := h
      have hafter : encode text' = after := ih htext
      rw [encodeChar_of_decodeChar hchar, ← hafter]
      exact flatMap_cons

theorem encode_of_decode (h : decode input = some text) :
    encode text = input :=
  encode_of_decodeFrom h

def replacement : Char := Char.ofNat 0xfffd

def unitsFrom : Nat → Bytes → List (Option Char)
  | _, [] => []
  | 0, _ :: _ => []
  | fuel + 1, b :: rest =>
    match decodeChar (b :: rest) with
    | some (c, after) => some c :: unitsFrom fuel after
    | none => none :: unitsFrom fuel rest

def units (input : Bytes) : List (Option Char) := unitsFrom input.length input

def lossy (input : Bytes) : List Char := (units input).map fun c => c.getD replacement

def coerce (input : Bytes) : Bytes := encode (lossy input)

theorem unitsFrom_encode (text : List Char) (h : (encode text).length ≤ fuel) :
    unitsFrom fuel (encode text) = text.map some := by
  induction text generalizing fuel with
  | nil => cases fuel <;> rfl
  | cons c text ih =>
    have hcons : encode (c :: text) = encodeChar c ++ encode text := flatMap_cons
    have hpos := length_pos_iff.mpr (encodeChar_ne_nil c)
    have hdecode := decodeChar_encodeChar c (encode text)
    rw [hcons, length_append] at h
    rw [← hcons] at hdecode
    cases hinput : encode (c :: text) with
    | nil =>
      rw [hcons] at hinput
      exact absurd (append_eq_nil_iff.mp hinput).1 (encodeChar_ne_nil c)
    | cons b rest =>
      rw [hinput] at hdecode
      cases fuel with
      | zero => omega
      | succ fuel =>
        simp only [unitsFrom, hdecode, map_cons]
        rw [ih (by omega)]

theorem units_encode (text : List Char) : units (encode text) = text.map some :=
  unitsFrom_encode text (Nat.le_refl _)

theorem lossy_encode (text : List Char) : lossy (encode text) = text := by
  rw [lossy, units_encode, map_map]
  exact map_id text

theorem eq_encode_of_unitsFrom
    (hfuel : input.length ≤ fuel) (h : unitsFrom fuel input = text.map some) :
    input = encode text := by
  induction fuel generalizing input text with
  | zero =>
    obtain rfl := length_eq_zero_iff.mp (Nat.le_zero.mp hfuel)
    cases text with
    | nil => rfl
    | cons c text => cases h
  | succ fuel ih =>
    cases input with
    | nil =>
      cases text with
      | nil => rfl
      | cons c text => cases h
    | cons b rest =>
      cases hdecode : decodeChar (b :: rest) with
      | none =>
        simp only [unitsFrom, hdecode] at h
        cases text <;> cases h
      | some read =>
        simp only [unitsFrom, hdecode] at h
        cases text with
        | nil => cases h
        | cons c text =>
          obtain ⟨hc, htail⟩ := cons.inj h
          have hsplit : b :: rest = encodeChar read.1 ++ read.2 :=
            encodeChar_of_decodeChar hdecode
          have hpos := length_pos_iff.mpr (encodeChar_ne_nil read.1)
          have hlength := congrArg length hsplit
          rw [length_append] at hlength
          rw [hsplit, ih (by omega) htail, Option.some.inj hc]
          exact flatMap_cons.symm

theorem eq_encode_of_units (h : units input = text.map some) :
    input = encode text :=
  eq_encode_of_unitsFrom (Nat.le_refl _) h

theorem exists_of_valid (h : valid input = true) : ∃ text, input = encode text := by
  obtain ⟨text, htext⟩ := Option.isSome_iff_exists.mp h
  exact ⟨text, (encode_of_decode htext).symm⟩

theorem coerce_of_valid (h : valid input = true) : coerce input = input := by
  obtain ⟨text, rfl⟩ := exists_of_valid h
  rw [coerce, lossy_encode]

theorem valid_coerce (input : Bytes) : valid (coerce input) = true := valid_encode _

end Utf8
