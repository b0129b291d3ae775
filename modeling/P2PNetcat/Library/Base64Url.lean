import P2PNetcat.Library.ByteCodec

/-!
# Base64url without padding

Three bytes for four characters of the URL-safe alphabet. A strict decoder
requires the bits after the last byte to be zero.
-/

namespace Base64Url
open ByteCodec

def digit (n : Nat) : Char :=
  if n < 26 then Char.ofNat (65 + n)
  else if n < 52 then Char.ofNat (71 + n)
  else if n < 62 then Char.ofNat (n - 4)
  else if n = 62 then '-'
  else '_'

def value (c : Char) : Option Nat :=
  let n := c.toNat
  if 65 ≤ n ∧ n ≤ 90 then some (n - 65)
  else if 97 ≤ n ∧ n ≤ 122 then some (n - 71)
  else if 48 ≤ n ∧ n ≤ 57 then some (n + 4)
  else if c = '-' then some 62
  else if c = '_' then some 63
  else none

def encode : Bytes → List Char
  | [] => []
  | [b0] => [digit (b0.toNat / 4), digit (b0.toNat % 4 * 16)]
  | [b0, b1] =>
    [digit (b0.toNat / 4), digit (b0.toNat % 4 * 16 + b1.toNat / 16), digit (b1.toNat % 16 * 4)]
  | b0 :: b1 :: b2 :: rest =>
    digit (b0.toNat / 4) :: digit (b0.toNat % 4 * 16 + b1.toNat / 16) ::
      digit (b1.toNat % 16 * 4 + b2.toNat / 64) :: digit (b2.toNat % 64) :: encode rest

def decode (strict : Bool) : List Char → Option Bytes
  | [] => some []
  | [_] => none
  | [c0, c1] => do
    let n0 ← value c0
    let n1 ← value c1
    if strict ∧ n1 % 16 ≠ 0 then none
    else some [(n0 * 4 + n1 / 16).toUInt8]
  | [c0, c1, c2] => do
    let n0 ← value c0
    let n1 ← value c1
    let n2 ← value c2
    if strict ∧ n2 % 4 ≠ 0 then none
    else some [(n0 * 4 + n1 / 16).toUInt8, (n1 % 16 * 16 + n2 / 4).toUInt8]
  | c0 :: c1 :: c2 :: c3 :: rest => do
    let n0 ← value c0
    let n1 ← value c1
    let n2 ← value c2
    let n3 ← value c3
    let bytes ← decode strict rest
    some ((n0 * 4 + n1 / 16).toUInt8 :: (n1 % 16 * 16 + n2 / 4).toUInt8 ::
      (n2 % 4 * 64 + n3).toUInt8 :: bytes)

theorem value_digit {n : Nat} (h : n < 64) : value (digit n) = some n := by
  have hall : ∀ m : Fin 64, value (digit m.val) = some m.val := by decide
  exact hall ⟨n, h⟩

theorem of_value {c : Char} {n : Nat} (h : value c = some n) : n < 64 ∧ digit n = c := by
  have hback : ∀ m, m < 64 → (∀ k, k = c.toNat → digit m = Char.ofNat k) → digit m = c := by
    intro m _ hm
    rw [hm _ rfl, Char.ofNat_toNat]
  simp only [value] at h
  split at h
  · cases h
    refine ⟨by omega, hback _ (by omega) ?_⟩
    intro k hk
    rw [digit, if_pos (by omega)]
    congr 1
    omega
  split at h
  · cases h
    refine ⟨by omega, hback _ (by omega) ?_⟩
    intro k hk
    rw [digit, if_neg (by omega), if_pos (by omega)]
    congr 1
    omega
  split at h
  · cases h
    refine ⟨by omega, hback _ (by omega) ?_⟩
    intro k hk
    rw [digit, if_neg (by omega), if_neg (by omega), if_pos (by omega)]
    congr 1
    omega
  split at h
  next hc =>
    cases h
    exact ⟨by decide, hc.symm⟩
  obtain ⟨hc, h⟩ := Option.ite_none_right_eq_some.mp h
  cases h
  exact ⟨by decide, hc.symm⟩

theorem decode_encode (strict : Bool) (bytes : Bytes) : decode strict (encode bytes) = some bytes := by
  induction bytes using encode.induct with
  | case1 => rfl
  | case2 b0 =>
    have h0 := b0.toNat_lt
    simp only [encode, decode, value_digit (show b0.toNat / 4 < 64 by omega),
      value_digit (show b0.toNat % 4 * 16 < 64 by omega), Option.bind_eq_bind, Option.bind_some]
    rw [if_neg (by omega), toUInt8_eq (b := b0) (by omega)]
  | case3 b0 b1 =>
    have h0 := b0.toNat_lt
    have h1 := b1.toNat_lt
    simp only [encode, decode, value_digit (show b0.toNat / 4 < 64 by omega),
      value_digit (show b0.toNat % 4 * 16 + b1.toNat / 16 < 64 by omega),
      value_digit (show b1.toNat % 16 * 4 < 64 by omega), Option.bind_eq_bind, Option.bind_some]
    rw [if_neg (by omega), toUInt8_eq (b := b0) (by omega), toUInt8_eq (b := b1) (by omega)]
  | case4 b0 b1 b2 rest ih =>
    have h0 := b0.toNat_lt
    have h1 := b1.toNat_lt
    have h2 := b2.toNat_lt
    simp only [encode, decode, value_digit (show b0.toNat / 4 < 64 by omega),
      value_digit (show b0.toNat % 4 * 16 + b1.toNat / 16 < 64 by omega),
      value_digit (show b1.toNat % 16 * 4 + b2.toNat / 64 < 64 by omega),
      value_digit (show b2.toNat % 64 < 64 by omega), ih, Option.bind_eq_bind, Option.bind_some]
    rw [toUInt8_eq (b := b0) (by omega), toUInt8_eq (b := b1) (by omega),
      toUInt8_eq (b := b2) (by omega)]

theorem value_of_decode {strict : Bool} {text : List Char} {bytes : Bytes}
    (h : decode strict text = some bytes) : ∀ c ∈ text, (value c).isSome = true := by
  induction text using decode.induct generalizing bytes with
  | case1 => exact nofun
  | case2 => cases h
  | case3 c0 c1 =>
    simp only [decode, Option.bind_eq_bind, Option.bind_eq_some_iff] at h
    obtain ⟨n0, h0, n1, h1, -⟩ := h
    simp [h0, h1]
  | case4 c0 c1 c2 =>
    simp only [decode, Option.bind_eq_bind, Option.bind_eq_some_iff] at h
    obtain ⟨n0, h0, n1, h1, n2, h2, -⟩ := h
    simp [h0, h1, h2]
  | case5 c0 c1 c2 c3 rest ih =>
    simp only [decode, Option.bind_eq_bind, Option.bind_eq_some_iff] at h
    obtain ⟨n0, h0, n1, h1, n2, h2, n3, h3, tail, htail, -⟩ := h
    simpa [h0, h1, h2, h3] using ih htail

theorem value_of_encode (bytes : Bytes) : ∀ c ∈ encode bytes, (value c).isSome = true :=
  value_of_decode (decode_encode true bytes)

theorem graphic_of_value {c : Char} (h : (value c).isSome = true) : 32 < c.toNat ∧ c.toNat < 127 := by
  obtain ⟨n, hn⟩ := Option.isSome_iff_exists.mp h
  obtain ⟨hlt, rfl⟩ := of_value hn
  have hall : ∀ m : Fin 64, 32 < (digit m.val).toNat ∧ (digit m.val).toNat < 127 := by decide
  exact hall ⟨n, hlt⟩

theorem encode_of_decode {text : List Char} {bytes : Bytes} (h : decode true text = some bytes) :
    encode bytes = text := by
  induction text using decode.induct generalizing bytes with
  | case1 =>
    cases h
    rfl
  | case2 => cases h
  | case3 c0 c1 =>
    simp only [decode, Option.bind_eq_bind, Option.bind_eq_some_iff] at h
    obtain ⟨n0, h0, n1, h1, h⟩ := h
    obtain ⟨hlt0, rfl⟩ := of_value h0
    obtain ⟨hlt1, rfl⟩ := of_value h1
    obtain ⟨hbits, h⟩ := Option.ite_none_left_eq_some.mp h
    have hzero : n1 % 16 = 0 := by simpa using hbits
    cases h
    have hb : (n0 * 4 + n1 / 16).toUInt8.toNat = n0 * 4 + n1 / 16 := toNat_toUInt8 (by omega)
    simp only [encode, hb]
    rw [show (n0 * 4 + n1 / 16) / 4 = n0 by omega, show (n0 * 4 + n1 / 16) % 4 * 16 = n1 by omega]
  | case4 c0 c1 c2 =>
    simp only [decode, Option.bind_eq_bind, Option.bind_eq_some_iff] at h
    obtain ⟨n0, h0, n1, h1, n2, h2, h⟩ := h
    obtain ⟨hlt0, rfl⟩ := of_value h0
    obtain ⟨hlt1, rfl⟩ := of_value h1
    obtain ⟨hlt2, rfl⟩ := of_value h2
    obtain ⟨hbits, h⟩ := Option.ite_none_left_eq_some.mp h
    have hzero : n2 % 4 = 0 := by simpa using hbits
    cases h
    have hb0 : (n0 * 4 + n1 / 16).toUInt8.toNat = n0 * 4 + n1 / 16 := toNat_toUInt8 (by omega)
    have hb1 : (n1 % 16 * 16 + n2 / 4).toUInt8.toNat = n1 % 16 * 16 + n2 / 4 :=
      toNat_toUInt8 (by omega)
    simp only [encode, hb0, hb1]
    rw [show (n0 * 4 + n1 / 16) / 4 = n0 by omega,
      show (n0 * 4 + n1 / 16) % 4 * 16 + (n1 % 16 * 16 + n2 / 4) / 16 = n1 by omega,
      show (n1 % 16 * 16 + n2 / 4) % 16 * 4 = n2 by omega]
  | case5 c0 c1 c2 c3 rest ih =>
    simp only [decode, Option.bind_eq_bind, Option.bind_eq_some_iff] at h
    obtain ⟨n0, h0, n1, h1, n2, h2, n3, h3, tail, htail, h⟩ := h
    obtain ⟨hlt0, rfl⟩ := of_value h0
    obtain ⟨hlt1, rfl⟩ := of_value h1
    obtain ⟨hlt2, rfl⟩ := of_value h2
    obtain ⟨hlt3, rfl⟩ := of_value h3
    cases h
    have hb0 : (n0 * 4 + n1 / 16).toUInt8.toNat = n0 * 4 + n1 / 16 := toNat_toUInt8 (by omega)
    have hb1 : (n1 % 16 * 16 + n2 / 4).toUInt8.toNat = n1 % 16 * 16 + n2 / 4 :=
      toNat_toUInt8 (by omega)
    have hb2 : (n2 % 4 * 64 + n3).toUInt8.toNat = n2 % 4 * 64 + n3 := toNat_toUInt8 (by omega)
    simp only [encode, hb0, hb1, hb2, ih htail]
    rw [show (n0 * 4 + n1 / 16) / 4 = n0 by omega,
      show (n0 * 4 + n1 / 16) % 4 * 16 + (n1 % 16 * 16 + n2 / 4) / 16 = n1 by omega,
      show (n1 % 16 * 16 + n2 / 4) % 16 * 4 + (n2 % 4 * 64 + n3) / 64 = n2 by omega,
      show (n2 % 4 * 64 + n3) % 64 = n3 by omega]

theorem length_encode (bytes : Bytes) : (encode bytes).length = (4 * bytes.length + 2) / 3 := by
  induction bytes using encode.induct with
  | case1 => rfl
  | case2 b0 | case3 b0 b1 => simp only [encode, List.length_cons, List.length_nil]
  | case4 b0 b1 b2 rest ih =>
    simp only [encode, List.length_cons, ih]
    omega

end Base64Url
