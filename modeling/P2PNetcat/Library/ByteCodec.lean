import Mathlib.Algebra.Order.Ring.Int
import Mathlib.Data.List.Induction

/-!
# Byte strings

Fixed-width big-endian numbers, length-delimited fields, and decimal text.
-/

namespace ByteCodec
open List
variable {n : Nat}

abbrev Bytes := List UInt8

instance : LawfulBEq Bytes := inferInstance

def byteOf (c : Char) : UInt8 := c.toNat.toUInt8

def charOf (b : UInt8) : Char := Char.ofNat b.toNat

def ascii (text : String) : Bytes := text.toList.map byteOf

theorem toNat_toUInt8 (h : n < 256) : n.toUInt8.toNat = n :=
  UInt8.toNat_ofNat_of_lt' h

theorem toUInt8_eq {b : UInt8} (h : n = b.toNat) : n.toUInt8 = b := by
  rw [h]
  exact UInt8.ofNat_toNat

def bigEndian : Nat → Nat → Bytes
  | 0, _ => []
  | width + 1, n => bigEndian width (n / 256) ++ [(n % 256).toUInt8]

def bigEndianValue (value : Bytes) : Nat := value.foldl (fun acc b => 256 * acc + b.toNat) 0

@[simp] theorem bigEndian_length (width n : Nat) : (bigEndian width n).length = width := by
  induction width generalizing n with
  | zero => rfl
  | succ width ih => simp [bigEndian, ih]

theorem bigEndianValue_append_singleton (value : Bytes) (b : UInt8) :
    bigEndianValue (value ++ [b]) = 256 * bigEndianValue value + b.toNat := by
  simp [bigEndianValue]

theorem bigEndianValue_bigEndian (width n : Nat) (h : n < 256 ^ width) :
    bigEndianValue (bigEndian width n) = n := by
  induction width generalizing n with
  | zero =>
    have : n = 0 := by simpa using h
    simp [bigEndian, bigEndianValue, this]
  | succ width ih =>
    have hdiv : n / 256 < 256 ^ width := by
      apply Nat.div_lt_of_lt_mul
      rwa [Nat.pow_succ, Nat.mul_comm] at h
    rw [bigEndian, bigEndianValue_append_singleton, ih _ hdiv]
    have hbyte : ((n % 256).toUInt8).toNat = n % 256 := by
      simp
    rw [hbyte]
    omega

theorem bigEndian_injective (width : Nat) {m : Nat} (hn : n < 256 ^ width) (hm : m < 256 ^ width)
    (h : bigEndian width n = bigEndian width m) : n = m := by
  rw [← bigEndianValue_bigEndian width n hn, h, bigEndianValue_bigEndian width m hm]

theorem bigEndianValue_lt (value : Bytes) : bigEndianValue value < 256 ^ value.length := by
  induction value using reverseRecOn with
  | nil => decide
  | append_singleton value b ih =>
    have hb := b.toNat_lt
    rw [bigEndianValue_append_singleton, length_append, length_singleton, Nat.pow_succ]
    omega

theorem bigEndian_bigEndianValue (value : Bytes) :
    bigEndian value.length (bigEndianValue value) = value := by
  induction value using reverseRecOn with
  | nil => rfl
  | append_singleton value b ih =>
    have hb := b.toNat_lt
    rw [bigEndianValue_append_singleton, length_append, length_singleton, bigEndian,
      show (256 * bigEndianValue value + b.toNat) / 256 = bigEndianValue value by omega,
      show (256 * bigEndianValue value + b.toNat) % 256 = b.toNat by omega, ih, toUInt8_eq rfl]

def lengthDelimited (fields : List Bytes) : Bytes :=
  fields.flatMap fun field => bigEndian 4 field.length ++ field

@[simp] theorem lengthDelimited_nil : lengthDelimited [] = [] := rfl

@[simp] theorem lengthDelimited_cons (field : Bytes) (fields : List Bytes) :
    lengthDelimited (field :: fields) =
      bigEndian 4 field.length ++ (field ++ lengthDelimited fields) := by
  simp [lengthDelimited, append_assoc]

/-- Fields shorter than 2³² bytes can be read back, so equal encodings have equal fields. -/
theorem lengthDelimited_injective {fields rest : List Bytes}
    (hf : ∀ f ∈ fields, f.length < 2 ^ 32) (hr : ∀ f ∈ rest, f.length < 2 ^ 32)
    (h : lengthDelimited fields = lengthDelimited rest) : fields = rest := by
  induction fields generalizing rest with
  | nil =>
    cases rest with
    | nil => rfl
    | cons g gs =>
      have := congrArg length h
      simp at this
      omega
  | cons f fs ih =>
    cases rest with
    | nil =>
      have := congrArg length h
      simp at this
    | cons g gs =>
      rw [lengthDelimited_cons, lengthDelimited_cons] at h
      obtain ⟨hlen, htail⟩ := append_inj h (by simp)
      have hfg : f.length = g.length :=
        bigEndian_injective 4 (by simpa using hf f mem_cons_self)
          (by simpa using hr g mem_cons_self) hlen
      obtain ⟨rfl, hrest⟩ := append_inj htail hfg
      rw [ih (fun x hx => hf x (mem_cons_of_mem _ hx))
        (fun x hx => hr x (mem_cons_of_mem _ hx)) hrest]

theorem terminated_inj {b : UInt8} {x y s t : Bytes} (hx : b ∉ x) (hy : b ∉ y)
    (h : x ++ b :: s = y ++ b :: t) : x = y ∧ s = t := by
  induction x generalizing y with
  | nil =>
    cases y with
    | nil => exact ⟨rfl, (cons.inj h).2⟩
    | cons c y =>
      obtain ⟨rfl, -⟩ := cons.inj h
      exact absurd mem_cons_self hy
  | cons a x ih =>
    cases y with
    | nil =>
      obtain ⟨rfl, -⟩ := cons.inj h
      exact absurd mem_cons_self hx
    | cons c y =>
      obtain ⟨rfl, htail⟩ := cons.inj h
      obtain ⟨rfl, hst⟩ := ih (fun hmem => hx (mem_cons_of_mem _ hmem))
        (fun hmem => hy (mem_cons_of_mem _ hmem)) htail
      exact ⟨rfl, hst⟩

def decimal (n : Nat) : Bytes := (Nat.toDigits 10 n).map byteOf

def unsigned (digits : List Char) : Option Nat :=
  if digits ≠ [] ∧ digits.all Char.isDigit then some (Nat.ofDigitChars 10 digits 0) else none

/-- A signed decimal number within 64 bits: an optional sign followed by digits only. -/
def parseInt (text : List Char) : Option Int :=
  match text with
  | '+' :: digits => (unsigned digits).bind fun n => if n < 2 ^ 63 then some (n : Int) else none
  | '-' :: digits => (unsigned digits).bind fun n => if n ≤ 2 ^ 63 then some (-n : Int) else none
  | digits => (unsigned digits).bind fun n => if n < 2 ^ 63 then some (n : Int) else none

theorem charOf_byteOf_of_lt {c : Char} (h : c.toNat < 256) : charOf (byteOf c) = c := by
  simp only [charOf, byteOf, UInt8.toNat_ofNat_of_lt' h, Char.ofNat_toNat]

theorem charOf_byteOf {c : Char} (h : c.isDigit) : charOf (byteOf c) = c := by
  have hle := (Char.isDigit_iff_toNat.mp h).2
  exact charOf_byteOf_of_lt (Nat.lt_of_le_of_lt hle (by decide))

theorem map_charOf_decimal (n : Nat) : (decimal n).map charOf = Nat.toDigits 10 n := by
  rw [decimal, map_map]
  conv_rhs => rw [← map_id (Nat.toDigits 10 n)]
  apply map_congr_left
  intro c hc
  exact charOf_byteOf (Nat.isDigit_of_mem_toDigits (by decide) (by decide) hc)

theorem unsigned_toDigits (n : Nat) : unsigned (Nat.toDigits 10 n) = some n := by
  have hall : (Nat.toDigits 10 n).all Char.isDigit := by
    rw [all_eq_true]
    intro c hc
    exact Nat.isDigit_of_mem_toDigits (by decide) (by decide) hc
  simp [unsigned, hall, Nat.toDigits_ne_nil]

theorem decimal_injective {m : Nat} (h : decimal n = decimal m) : n = m := by
  have hdigits := congrArg (map charOf) h
  rw [map_charOf_decimal, map_charOf_decimal] at hdigits
  have hvalue := unsigned_toDigits n
  rw [hdigits, unsigned_toDigits] at hvalue
  exact (Option.some.inj hvalue).symm

theorem zero_not_mem_decimal (n : Nat) : (0 : UInt8) ∉ decimal n := by
  intro hmem
  obtain ⟨c, hc, hzero⟩ := mem_map.mp hmem
  have hdigit := Nat.isDigit_of_mem_toDigits (by decide) (by decide) hc
  have hchar := charOf_byteOf hdigit
  rw [hzero] at hchar
  rw [← hchar] at hdigit
  exact absurd hdigit (by decide)

theorem parseInt_toDigits (h : n < 2 ^ 63) :
    parseInt (Nat.toDigits 10 n) = some (n : Int) := by
  have hdigit : ∀ c ∈ Nat.toDigits 10 n, c.isDigit := fun c hc =>
    Nat.isDigit_of_mem_toDigits (by decide) (by decide) hc
  have hu := unsigned_toDigits n
  unfold parseInt
  split
  next digits heq =>
    have := hdigit '+' (by rw [heq]; exact mem_cons_self)
    exact absurd this (by decide)
  next digits heq =>
    have := hdigit '-' (by rw [heq]; exact mem_cons_self)
    exact absurd this (by decide)
  · rw [hu, Option.bind_some, if_pos h]

end ByteCodec
