import P2PNetcat.Library.Utf8
import Mathlib.Data.List.Sort

/-!
# CBOR

Data items of definite length without tags. The encoder writes every head in
its shortest form; the decoder takes longer heads too, so that a value read
back and encoded again shows whether the input was in the shortest form. A
reader into typed values bounds nesting and sizes; null and undefined leave a
zero value there.
-/

namespace Cbor
open List ByteCodec

inductive FloatWidth where
  | half | single | double
  deriving DecidableEq

def FloatWidth.size : FloatWidth → Nat
  | .half => 2
  | .single => 4
  | .double => 8

def FloatWidth.info : FloatWidth → Nat
  | .half => 25
  | .single => 26
  | .double => 27

/-- `negative n` is the number `-1 - n`; a text is given by its bytes; a float by its bits. -/
inductive Item where
  | uint (n : Nat)
  | negative (n : Nat)
  | bytes (value : Bytes)
  | text (utf8 : Bytes)
  | array (items : List Item)
  | map (pairs : List (Item × Item))
  | simple (n : Nat)
  | float (width : FloatWidth) (bits : Nat)

def Item.null : Item := .simple 22

def head (major n : Nat) : Bytes :=
  if n < 24 then [(32 * major + n).toUInt8]
  else if n < 256 then (32 * major + 24).toUInt8 :: bigEndian 1 n
  else if n < 65536 then (32 * major + 25).toUInt8 :: bigEndian 2 n
  else if n < 4294967296 then (32 * major + 26).toUInt8 :: bigEndian 4 n
  else (32 * major + 27).toUInt8 :: bigEndian 8 n

def headSize (n : Nat) : Nat :=
  if n < 24 then 1 else if n < 256 then 2 else if n < 65536 then 3 else if n < 4294967296 then 5 else 9

mutual

def encode : Item → Bytes
  | .uint n => head 0 n
  | .negative n => head 1 n
  | .bytes value => head 2 value.length ++ value
  | .text utf8 => head 3 utf8.length ++ utf8
  | .array items => head 4 items.length ++ encodeItems items
  | .map pairs => head 5 pairs.length ++ encodePairs pairs
  | .simple n => head 7 n
  | .float width bits => (224 + width.info).toUInt8 :: bigEndian width.size bits

def encodeItems : List Item → Bytes
  | [] => []
  | item :: items => encode item ++ encodeItems items

def encodePairs : List (Item × Item) → Bytes
  | [] => []
  | (key, value) :: pairs => encode key ++ (encode value ++ encodePairs pairs)

end

structure Head where
  major : Nat
  info : Nat
  argument : Nat
  deriving DecidableEq

def readHead : Bytes → Option (Head × Bytes)
  | [] => none
  | b :: rest =>
    let major := b.toNat / 32
    let info := b.toNat % 32
    if info < 24 then some (⟨major, info, info⟩, rest)
    else if info < 28 then
      let width := 2 ^ (info - 24)
      if width ≤ rest.length then
        some (⟨major, info, bigEndianValue (rest.take width)⟩, rest.drop width)
      else none
    else none

def readSpecial (h : Head) : Option Item :=
  if h.info < 24 then some (.simple h.argument)
  else if h.info = 24 then if h.argument < 32 then none else some (.simple h.argument)
  else if h.info = 25 then some (.float .half h.argument)
  else if h.info = 26 then some (.float .single h.argument)
  else some (.float .double h.argument)

mutual

def readItem : Nat → Bytes → Option (Item × Bytes)
  | 0, _ => none
  | fuel + 1, input =>
    match readHead input with
    | none => none
    | some (h, rest) =>
      match h.major with
      | 0 => some (.uint h.argument, rest)
      | 1 => some (.negative h.argument, rest)
      | 2 =>
        if h.argument ≤ rest.length then
          some (.bytes (rest.take h.argument), rest.drop h.argument)
        else none
      | 3 =>
        if h.argument ≤ rest.length ∧ Utf8.valid (rest.take h.argument) then
          some (.text (rest.take h.argument), rest.drop h.argument)
        else none
      | 4 => (readItems fuel h.argument rest).map fun (items, rest) => (.array items, rest)
      | 5 => (readPairs fuel h.argument rest).map fun (pairs, rest) => (.map pairs, rest)
      | 6 => none
      | _ => (readSpecial h).map fun item => (item, rest)

def readItems : Nat → Nat → Bytes → Option (List Item × Bytes)
  | _, 0, input => some ([], input)
  | 0, _ + 1, _ => none
  | fuel + 1, count + 1, input =>
    match readItem fuel input with
    | none => none
    | some (item, rest) =>
      (readItems fuel count rest).map fun (items, rest) => (item :: items, rest)

def readPairs : Nat → Nat → Bytes → Option (List (Item × Item) × Bytes)
  | _, 0, input => some ([], input)
  | 0, _ + 1, _ => none
  | fuel + 1, count + 1, input =>
    match readItem fuel input with
    | none => none
    | some (key, rest) =>
      match readItem fuel rest with
      | none => none
      | some (value, rest) =>
        (readPairs fuel count rest).map fun (pairs, rest) => ((key, value) :: pairs, rest)

end

/-- The one item of an input; two units of fuel for each byte are enough. -/
def decode (input : Bytes) : Option Item :=
  match readItem (2 * input.length) input with
  | some (item, []) => some item
  | _ => none

mutual

def Bounded : Item → Prop
  | .uint n => n < 2 ^ 64
  | .negative n => n < 2 ^ 64
  | .bytes value => value.length < 2 ^ 64
  | .text utf8 => utf8.length < 2 ^ 64
  | .array items => items.length < 2 ^ 64 ∧ BoundedItems items
  | .map pairs => pairs.length < 2 ^ 64 ∧ BoundedPairs pairs
  | .simple n => n < 24 ∨ 32 ≤ n ∧ n < 256
  | .float width bits => bits < 256 ^ width.size

def BoundedItems : List Item → Prop
  | [] => True
  | item :: items => Bounded item ∧ BoundedItems items

def BoundedPairs : List (Item × Item) → Prop
  | [] => True
  | (key, value) :: pairs => Bounded key ∧ Bounded value ∧ BoundedPairs pairs

end

mutual

def textsValid : Item → Bool
  | .text utf8 => Utf8.valid utf8
  | .array items => itemsValid items
  | .map pairs => pairsValid pairs
  | _ => true

def itemsValid : List Item → Bool
  | [] => true
  | item :: items => textsValid item && itemsValid items

def pairsValid : List (Item × Item) → Bool
  | [] => true
  | (key, value) :: pairs => textsValid key && (textsValid value && pairsValid pairs)

end

@[simp] theorem length_head (major n : Nat) : (head major n).length = headSize n := by
  rw [head, headSize]
  repeat' split
  all_goals simp

theorem readHead_wide {major i n : Nat} (hmajor : major < 8) (hinfo : 24 ≤ i ∧ i < 28)
    (hn : n < 256 ^ 2 ^ (i - 24)) (rest : Bytes) :
    readHead ((32 * major + i).toUInt8 :: bigEndian (2 ^ (i - 24)) n ++ rest) =
      some (⟨major, i, n⟩, rest) := by
  have hb : (32 * major + i).toUInt8.toNat = 32 * major + i := toNat_toUInt8 (by omega)
  have hlength : 2 ^ (i - 24) ≤ (bigEndian (2 ^ (i - 24)) n ++ rest).length := by simp
  simp only [readHead, cons_append, hb]
  rw [show (32 * major + i) / 32 = major by omega, show (32 * major + i) % 32 = i by omega,
    if_neg (by omega), if_pos hinfo.2, if_pos hlength, take_left' (by simp),
    drop_left' (by simp), bigEndianValue_bigEndian _ _ hn]

def headInfo (n : Nat) : Nat :=
  if n < 24 then n else if n < 256 then 24 else if n < 65536 then 25
  else if n < 4294967296 then 26 else 27

theorem readHead_head {major n : Nat} (hmajor : major < 8) (hn : n < 2 ^ 64) (rest : Bytes) :
    readHead (head major n ++ rest) = some (⟨major, headInfo n, n⟩, rest) := by
  rw [head, headInfo]
  split
  next h =>
    have hb : (32 * major + n).toUInt8.toNat = 32 * major + n := toNat_toUInt8 (by omega)
    simp only [readHead, cons_append, nil_append, hb]
    rw [show (32 * major + n) / 32 = major by omega, show (32 * major + n) % 32 = n by omega,
      if_pos h]
  split
  · exact readHead_wide (i := 24) hmajor (by omega) (by omega) rest
  split
  · exact readHead_wide (i := 25) hmajor (by omega) (by omega) rest
  split
  · exact readHead_wide (i := 26) hmajor (by omega) (by omega) rest
  · exact readHead_wide (i := 27) hmajor (by omega) (by omega) rest

def uintPairs (fields : List (Nat × Item)) : List (Item × Item) :=
  fields.map fun field => (.uint field.1, field.2)

@[simp] theorem length_uintPairs (fields : List (Nat × Item)) :
    (uintPairs fields).length = fields.length :=
  length_map ..

theorem length_encodePairs_uint (fields : List (Nat × Item)) :
    (encodePairs (uintPairs fields)).length =
      (fields.map fun field => headSize field.1 + (encode field.2).length).sum := by
  induction fields with
  | nil => rfl
  | cons field fields ih =>
    rw [uintPairs] at ih ⊢
    simp only [map_cons, encodePairs, length_append, ih, sum_cons]
    rw [encode, length_head, Nat.add_assoc]

theorem headSize_of_lt {n : Nat} (h : n < 24) : headSize n = 1 := if_pos h

theorem headSize_pos (n : Nat) : 0 < headSize n := by
  rw [headSize]
  repeat' split
  all_goals omega

theorem readSpecial_float (width : FloatWidth) (bits : Nat) :
    readSpecial ⟨7, width.info, bits⟩ = some (.float width bits) := by
  cases width <;> rfl

theorem readSpecial_simple {n : Nat} (h : n < 24 ∨ 32 ≤ n ∧ n < 256) :
    readSpecial ⟨7, headInfo n, n⟩ = some (.simple n) := by
  by_cases hn : n < 24
  · have hinfo : headInfo n = n := if_pos hn
    rw [hinfo]
    exact if_pos hn
  · have hinfo : headInfo n = 24 := (if_neg hn).trans (if_pos (by omega))
    rw [hinfo]
    exact if_neg (show ¬ n < 32 by omega)

theorem readHead_float (width : FloatWidth) {bits : Nat} (h : bits < 256 ^ width.size)
    (rest : Bytes) :
    readHead ((224 + width.info).toUInt8 :: bigEndian width.size bits ++ rest) =
      some (⟨7, width.info, bits⟩, rest) := by
  cases width with
  | half => exact readHead_wide (i := 25) (show 7 < 8 by decide) (by decide) h rest
  | single => exact readHead_wide (i := 26) (show 7 < 8 by decide) (by decide) h rest
  | double => exact readHead_wide (i := 27) (show 7 < 8 by decide) (by decide) h rest

theorem length_encode_pos (item : Item) : 0 < (encode item).length := by
  have hpos := headSize_pos
  cases item with
  | float width bits => exact Nat.succ_pos _
  | uint n | negative n | simple n =>
    rw [encode, length_head]
    exact hpos n
  | bytes value | text utf8 | array items | map pairs =>
    rw [encode, length_append, length_head]
    exact Nat.add_pos_left (hpos _) _

mutual

/-- Two units of fuel for each byte of an encoding read it back, whatever follows, unless a text in
it is not UTF-8. -/
theorem readItem_encode : ∀ (item : Item) (fuel : Nat) (rest : Bytes), Bounded item →
    2 * (encode item).length ≤ fuel →
    readItem fuel (encode item ++ rest) = if textsValid item then some (item, rest) else none
  | item, 0, rest, _, hfuel => by
    have := length_encode_pos item
    omega
  | .uint n, fuel + 1, rest, hbound, _ | .negative n, fuel + 1, rest, hbound, _ => by
    rw [Bounded] at hbound
    rw [encode, readItem, readHead_head (by decide) hbound]
    rfl
  | .bytes value, fuel + 1, rest, hbound, _ => by
    rw [Bounded] at hbound
    rw [encode, readItem, append_assoc, readHead_head (by decide) hbound]
    simp [textsValid]
  | .text utf8, fuel + 1, rest, hbound, _ => by
    rw [Bounded] at hbound
    rw [encode, readItem, append_assoc, readHead_head (by decide) hbound]
    have htexts : textsValid (.text utf8) = Utf8.valid utf8 := by rw [textsValid]
    cases hvalid : Utf8.valid utf8 <;> simp [htexts, hvalid]
  | .array items, fuel + 1, rest, hbound, hfuel => by
    rw [Bounded] at hbound
    have hsize := headSize_pos items.length
    rw [encode, length_append, length_head] at hfuel
    have hitems := readItems_encode items fuel rest hbound.2 (by omega)
    rw [encode, readItem, append_assoc, readHead_head (by decide) hbound.1]
    have htexts : textsValid (.array items) = itemsValid items := by rw [textsValid]
    cases hvalid : itemsValid items <;> simp [hitems, htexts, hvalid]
  | .map pairs, fuel + 1, rest, hbound, hfuel => by
    rw [Bounded] at hbound
    have hsize := headSize_pos pairs.length
    rw [encode, length_append, length_head] at hfuel
    have hpairs := readPairs_encode pairs fuel rest hbound.2 (by omega)
    rw [encode, readItem, append_assoc, readHead_head (by decide) hbound.1]
    have htexts : textsValid (.map pairs) = pairsValid pairs := by rw [textsValid]
    cases hvalid : pairsValid pairs <;> simp [hpairs, htexts, hvalid]
  | .simple n, fuel + 1, rest, hbound, _ => by
    rw [Bounded] at hbound
    rw [encode, readItem, readHead_head (by decide) (by omega)]
    simp only [readSpecial_simple hbound, Option.map_some]
    rfl
  | .float width bits, fuel + 1, rest, hbound, _ => by
    rw [Bounded] at hbound
    rw [encode, readItem, readHead_float width hbound]
    simp only [readSpecial_float, Option.map_some]
    rfl

theorem readItems_encode : ∀ (items : List Item) (fuel : Nat) (rest : Bytes), BoundedItems items →
    2 * (encodeItems items).length < fuel →
    readItems fuel items.length (encodeItems items ++ rest) =
      if itemsValid items then some (items, rest) else none
  | [], _, rest, _, _ => by
    rw [length_nil, readItems]
    rfl
  | item :: items, 0, rest, _, hfuel => by omega
  | item :: items, fuel + 1, rest, hbound, hfuel => by
    rw [BoundedItems] at hbound
    have hpos := length_encode_pos item
    rw [encodeItems, length_append] at hfuel
    have hitem := readItem_encode item fuel (encodeItems items ++ rest) hbound.1 (by omega)
    have hitems := readItems_encode items fuel rest hbound.2 (by omega)
    rw [encodeItems, append_assoc, length_cons, readItems, hitem, itemsValid]
    cases textsValid item
    · rfl
    · simp only [hitems, Bool.true_and, if_true]
      cases itemsValid items <;> rfl

theorem readPairs_encode : ∀ (pairs : List (Item × Item)) (fuel : Nat) (rest : Bytes),
    BoundedPairs pairs → 2 * (encodePairs pairs).length < fuel →
    readPairs fuel pairs.length (encodePairs pairs ++ rest) =
      if pairsValid pairs then some (pairs, rest) else none
  | [], _, rest, _, _ => by
    rw [length_nil, readPairs]
    rfl
  | (key, value) :: pairs, 0, rest, _, hfuel => by omega
  | (key, value) :: pairs, fuel + 1, rest, hbound, hfuel => by
    rw [BoundedPairs] at hbound
    have hkeypos := length_encode_pos key
    have hvaluepos := length_encode_pos value
    rw [encodePairs, length_append, length_append] at hfuel
    have hkey := readItem_encode key fuel (encode value ++ (encodePairs pairs ++ rest)) hbound.1
      (by omega)
    have hvalue := readItem_encode value fuel (encodePairs pairs ++ rest) hbound.2.1 (by omega)
    have hpairs := readPairs_encode pairs fuel rest hbound.2.2 (by omega)
    rw [encodePairs, append_assoc, append_assoc, length_cons, readPairs, hkey,
      pairsValid]
    cases textsValid key
    · rfl
    simp only [hvalue, Bool.true_and, if_true]
    cases textsValid value
    · rfl
    · simp only [hpairs, Bool.true_and, if_true]
      cases pairsValid pairs <;> rfl

end

theorem boundedPairs_uint {fields : List (Nat × Item)}
    (h : ∀ field ∈ fields, field.1 < 2 ^ 64 ∧ Bounded field.2) : BoundedPairs (uintPairs fields) := by
  induction fields with
  | nil => trivial
  | cons field fields ih =>
    obtain ⟨hkey, hvalue⟩ := h field mem_cons_self
    exact ⟨hkey, hvalue, ih fun other hmem => h other (mem_cons_of_mem _ hmem)⟩

theorem boundedItems_iff {items : List Item} :
    BoundedItems items ↔ ∀ item ∈ items, Bounded item := by
  induction items with
  | nil => exact ⟨fun _ _ h => absurd h not_mem_nil, fun _ => trivial⟩
  | cons item items ih => rw [BoundedItems, ih, forall_mem_cons]

theorem boundedItems_texts {texts : List Bytes} (h : ∀ text ∈ texts, text.length < 2 ^ 64) :
    BoundedItems (texts.map .text) :=
  boundedItems_iff.mpr (forall_mem_map.mpr h)

theorem pairsValid_uint (fields : List (Nat × Item)) :
    pairsValid (uintPairs fields) = fields.all fun field => textsValid field.2 := by
  induction fields with
  | nil => rfl
  | cons field fields ih =>
    rw [uintPairs] at ih ⊢
    rw [map_cons, pairsValid, ih, all_cons]
    rfl

theorem itemsValid_eq_all (items : List Item) : itemsValid items = items.all textsValid := by
  induction items with
  | nil => rfl
  | cons item items ih => rw [itemsValid, ih, all_cons]

theorem itemsValid_texts (texts : List Bytes) :
    itemsValid (texts.map .text) = texts.all Utf8.valid := by
  rw [itemsValid_eq_all, all_map]
  rfl

variable {item : Item}

theorem length_item_le {items : List Item} (h : item ∈ items) :
    (encode item).length ≤ (encodeItems items).length := by
  induction items with
  | nil => cases h
  | cons other items ih =>
    rw [encodeItems, length_append]
    rcases mem_cons.mp h with rfl | h
    · exact Nat.le_add_right ..
    · exact Nat.le_trans (ih h) (Nat.le_add_left ..)

theorem length_value_le {fields : List (Nat × Item)} {field : Nat × Item} (h : field ∈ fields) :
    (encode field.2).length ≤ (encode (.map (uintPairs fields))).length := by
  have hpairs : (encode field.2).length ≤ (encodePairs (uintPairs fields)).length := by
    induction fields with
    | nil => cases h
    | cons other fields ih =>
      rw [uintPairs] at ih ⊢
      rw [map_cons, encodePairs, length_append, length_append]
      rcases mem_cons.mp h with rfl | h
      · omega
      · have := ih h
        omega
  rw [encode, length_append]
  omega

theorem decode_encode (h : Bounded item) :
    decode (encode item) = if textsValid item then some item else none := by
  have hread := readItem_encode item (2 * (encode item).length) [] h (Nat.le_refl _)
  rw [append_nil] at hread
  rw [decode, hread]
  cases textsValid item <;> rfl

theorem argument_lt_of_readHead {input rest : Bytes} {h : Head}
    (hread : readHead input = some (h, rest)) :
    h.argument < 2 ^ 64 ∧ (h.info < 24 → h.argument < 24) ∧
      (24 ≤ h.info → h.info < 28 ∧ h.argument < 256 ^ 2 ^ (h.info - 24)) := by
  cases input with
  | nil => cases hread
  | cons b tail =>
    simp only [readHead] at hread
    split at hread
    next hlow =>
      cases hread
      exact ⟨Nat.lt_trans hlow (by decide), fun _ => hlow, fun hge => absurd hlow (Nat.not_lt.mpr hge)⟩
    split at hread
    next hlow hinfo =>
      split at hread
      next hwidth =>
        cases hread
        have hlt := bigEndianValue_lt (tail.take (2 ^ (b.toNat % 32 - 24)))
        rw [length_take, Nat.min_eq_left hwidth] at hlt
        have hpow : 256 ^ 2 ^ (b.toNat % 32 - 24) ≤ 256 ^ 2 ^ 3 :=
          Nat.pow_le_pow_right (by decide) (Nat.pow_le_pow_right (by decide) (by omega))
        exact ⟨Nat.lt_of_lt_of_le hlt hpow, fun h => absurd h hlow, fun _ => ⟨hinfo, hlt⟩⟩
      · cases hread
    · cases hread

theorem bounded_of_readSpecial {h : Head}
    (hsmall : h.info < 24 → h.argument < 24)
    (hwide : 24 ≤ h.info → h.info < 28 ∧ h.argument < 256 ^ 2 ^ (h.info - 24))
    (hread : readSpecial h = some item) : Bounded item := by
  rw [readSpecial] at hread
  split at hread
  next hinfo =>
    cases hread
    exact .inl (hsmall hinfo)
  next hinfo =>
    obtain ⟨hlt, hargument⟩ := hwide (Nat.not_lt.mp hinfo)
    split at hread
    next heq =>
      rw [heq] at hargument
      split at hread
      · cases hread
      · cases hread
        exact .inr ⟨by omega, hargument⟩
    split at hread
    next heq =>
      rw [heq] at hargument
      cases hread
      exact hargument
    split at hread
    next heq =>
      rw [heq] at hargument
      cases hread
      exact hargument
    · cases hread
      have heq : h.info = 27 := by omega
      rw [heq] at hargument
      exact hargument

theorem bounded_of_read (fuel : Nat) :
    (∀ input item rest, readItem fuel input = some (item, rest) → Bounded item) ∧
    (∀ count input items rest, readItems fuel count input = some (items, rest) →
      items.length = count ∧ BoundedItems items) ∧
    ∀ count input pairs rest, readPairs fuel count input = some (pairs, rest) →
      pairs.length = count ∧ BoundedPairs pairs := by
  induction fuel with
  | zero =>
    refine ⟨?_, ?_, ?_⟩
    · intro input item rest h
      cases h
    · intro count input items rest h
      cases count with
      | zero =>
        cases h
        exact ⟨rfl, trivial⟩
      | succ count => cases h
    · intro count input pairs rest h
      cases count with
      | zero =>
        cases h
        exact ⟨rfl, trivial⟩
      | succ count => cases h
  | succ fuel ih =>
    obtain ⟨ihItem, ihItems, ihPairs⟩ := ih
    refine ⟨?_, ?_, ?_⟩
    · intro input item rest h
      simp only [readItem] at h
      split at h
      · cases h
      rename_i hd tail hhead
      obtain ⟨hargument, hsmall, hwide⟩ := argument_lt_of_readHead hhead
      split at h
      · cases h
        exact hargument
      · cases h
        exact hargument
      · split at h
        next hle =>
          cases h
          rw [Bounded, length_take, Nat.min_eq_left hle]
          exact hargument
        · cases h
      · split at h
        next hle =>
          cases h
          rw [Bounded, length_take, Nat.min_eq_left hle.1]
          exact hargument
        · cases h
      · obtain ⟨⟨items, after⟩, hitems, heq⟩ := Option.map_eq_some_iff.mp h
        cases heq
        obtain ⟨hlength, hbounded⟩ := ihItems _ _ _ _ hitems
        exact ⟨hlength ▸ hargument, hbounded⟩
      · obtain ⟨⟨pairs, after⟩, hpairs, heq⟩ := Option.map_eq_some_iff.mp h
        cases heq
        obtain ⟨hlength, hbounded⟩ := ihPairs _ _ _ _ hpairs
        exact ⟨hlength ▸ hargument, hbounded⟩
      · cases h
      · obtain ⟨special, hspecial, heq⟩ := Option.map_eq_some_iff.mp h
        cases heq
        exact bounded_of_readSpecial hsmall hwide hspecial
    · intro count input items rest h
      cases count with
      | zero =>
        cases h
        exact ⟨rfl, trivial⟩
      | succ count =>
        simp only [readItems] at h
        split at h
        · cases h
        rename_i item tail hitem
        obtain ⟨⟨others, after⟩, hitems, heq⟩ := Option.map_eq_some_iff.mp h
        cases heq
        obtain ⟨hlength, hbounded⟩ := ihItems _ _ _ _ hitems
        exact ⟨congrArg (· + 1) hlength, ihItem _ _ _ hitem, hbounded⟩
    · intro count input pairs rest h
      cases count with
      | zero =>
        cases h
        exact ⟨rfl, trivial⟩
      | succ count =>
        simp only [readPairs] at h
        split at h
        · cases h
        rename_i key tail hkey
        split at h
        · cases h
        rename_i value after hvalue
        obtain ⟨⟨others, final⟩, hpairs, heq⟩ := Option.map_eq_some_iff.mp h
        cases heq
        obtain ⟨hlength, hbounded⟩ := ihPairs _ _ _ _ hpairs
        exact ⟨congrArg (· + 1) hlength, ihItem _ _ _ hkey, ihItem _ _ _ hvalue, hbounded⟩

theorem bounded_of_decode {input : Bytes} (h : decode input = some item) :
    Bounded item := by
  rw [decode] at h
  split at h
  next hread =>
    cases h
    exact (bounded_of_read _).1 _ _ _ hread
  · cases h

structure Limits where
  maxNestedLevels : Nat
  maxArrayElements : Nat
  maxMapPairs : Nat

mutual

def within (limits : Limits) : Nat → Item → Bool
  | 0, .array _ => false
  | 0, .map _ => false
  | levels + 1, .array items =>
    items.length ≤ limits.maxArrayElements && withinItems limits levels items
  | levels + 1, .map pairs =>
    pairs.length ≤ limits.maxMapPairs && withinPairs limits levels pairs
  | _, _ => true

def withinItems (limits : Limits) : Nat → List Item → Bool
  | _, [] => true
  | levels, item :: items => within limits levels item && withinItems limits levels items

def withinPairs (limits : Limits) : Nat → List (Item × Item) → Bool
  | _, [] => true
  | levels, (key, value) :: pairs =>
    within limits levels key && (within limits levels value && withinPairs limits levels pairs)

end

def unmarshal (limits : Limits) (input : Bytes) : Option Item :=
  match decode input with
  | some item => if within limits limits.maxNestedLevels item then some item else none
  | none => none

def isNil : Item → Bool
  | .simple n => n = 22 ∨ n = 23
  | _ => false

def asUint : Item → Option Nat
  | .uint n => some n
  | item => if isNil item then some 0 else none

def asText : Item → Option Bytes
  | .text utf8 => some utf8
  | item => if isNil item then some [] else none

def asList {α : Type} (as : Item → Option α) : Item → Option (List α)
  | .array items => items.mapM as
  | item => if isNil item then some [] else none

/-- A list of numbers below 256 is read as a byte string too. -/
def asBytes : Item → Option Bytes
  | .bytes value => some value
  | item => asList (fun item => (asUint item).bind fun n =>
      if n < 256 then some n.toUInt8 else none) item

def asSlice (item : Item) : Option (Option Bytes) :=
  if isNil item then some none else (asBytes item).map some

def ofSlice : Option Bytes → Item
  | none => .null
  | some value => .bytes value

def uintKey (pair : Item × Item) : Option (Nat × Item) := (asUint pair.1).map fun n => (n, pair.2)

def asUintMap : Item → Option (List (Nat × Item))
  | .map pairs =>
    (pairs.mapM uintKey).bind fun fields =>
      if (fields.map Prod.fst).Nodup then some fields else none
  | item => if isNil item then some [] else none

/-- What a value of no given type is written back as: numbers are of 64 bits with a sign, undefined
is null, and the kinds that are left are up to the library. -/
def asAny (other : Item → Option Item) : Item → Option Item
  | .uint n => if n < 2 ^ 63 then some (.uint n) else none
  | .negative n => if n < 2 ^ 63 then some (.negative n) else none
  | .bytes value => some (.bytes value)
  | .text utf8 => some (.text utf8)
  | .simple n => if n = 23 then some .null else some (.simple n)
  | item => other item

def asAnyMap (other : Item → Option Item) (item : Item) : Option (Option (List (Nat × Item))) :=
  if isNil item then some none
  else
    (asUintMap item).bind fun fields =>
      (fields.mapM fun field => (asAny other field.2).map fun value => (field.1, value)).map some

def ofAnyMap : Option (List (Nat × Item)) → Item
  | none => .null
  | some fields => .map (uintPairs (fields.insertionSort fun a b => a.1 ≤ b.1))

theorem unmarshal_encode {limits : Limits} {item : Item} (hbound : Bounded item)
    (hwithin : within limits limits.maxNestedLevels item = true) :
    unmarshal limits (encode item) = if textsValid item then some item else none := by
  rw [unmarshal, decode_encode hbound]
  cases textsValid item
  · rfl
  · simp only [if_true, if_pos hwithin]

theorem withinPairs_uint {limits : Limits} {levels : Nat} {fields : List (Nat × Item)}
    (h : ∀ field ∈ fields, within limits levels field.2 = true) :
    withinPairs limits levels (uintPairs fields) = true := by
  induction fields with
  | nil => rfl
  | cons field fields ih =>
    have htail := ih fun other hmem => h other (mem_cons_of_mem _ hmem)
    have hkey : within limits levels (.uint field.1) = true := by
      cases levels <;> rfl
    rw [uintPairs] at htail ⊢
    rw [map_cons, withinPairs, hkey, h field mem_cons_self, htail]
    rfl

theorem withinItems_eq_all (limits : Limits) (levels : Nat) (items : List Item) :
    withinItems limits levels items = items.all (within limits levels) := by
  induction items with
  | nil => rfl
  | cons item items ih => rw [withinItems, ih, all_cons]

theorem withinItems_texts (limits : Limits) (levels : Nat) (texts : List Bytes) :
    withinItems limits levels (texts.map .text) = true := by
  rw [withinItems_eq_all, all_map, all_eq_true]
  intro text _
  cases levels <;> rfl

theorem asList_map {α β : Type} {as : Item → Option α} {item : β → Item} {value : β → α}
    (h : ∀ x, as (item x) = some (value x)) (xs : List β) :
    asList as (.array (xs.map item)) = some (xs.map value) := by
  rw [asList]
  induction xs with
  | nil => rfl
  | cons x xs ih => simp [h, ih]

theorem asList_texts (texts : List Bytes) :
    asList asText (.array (texts.map .text)) = some texts := by
  have hread : ∀ text, asText (.text text) = some (id text) := fun _ => rfl
  rw [asList_map hread, map_id]

theorem asUintMap_uints (fields : List (Nat × Item)) (h : (fields.map Prod.fst).Nodup) :
    asUintMap (.map (uintPairs fields)) = some fields := by
  have hkeys : (uintPairs fields).mapM uintKey = some fields := by
    induction fields with
    | nil => rfl
    | cons field fields ih =>
      have htail := ih (nodup_cons.mp h).2
      rw [uintPairs] at htail ⊢
      rw [map_cons, mapM_cons, htail]
      rfl
  rw [asUintMap, hkeys, Option.bind_some, if_pos h]

theorem asAnyMap_uints {other : Item → Option Item} {fields : List (Nat × Item)}
    (hkeys : (fields.map Prod.fst).Nodup)
    (hvalues : ∀ field ∈ fields, asAny other field.2 = some field.2) :
    asAnyMap other (.map (uintPairs fields)) = some (some fields) := by
  have hread : (fields.mapM fun field => (asAny other field.2).map fun value => (field.1, value)) =
      some fields := by
    clear hkeys
    induction fields with
    | nil => rfl
    | cons field fields ih =>
      obtain ⟨hfield, htail⟩ := forall_mem_cons.mp hvalues
      rw [mapM_cons, ih htail, hfield]
      rfl
  have hmap : isNil (.map (uintPairs fields)) = false := rfl
  rw [asAnyMap, hmap, asUintMap_uints fields hkeys, Option.bind_some, hread]
  rfl

theorem asSlice_ofSlice (value : Option Bytes) : asSlice (ofSlice value) = some value := by
  cases value <;> rfl

theorem length_of_mapM {α : Type} {as : Item → Option α} {items : List Item} {values : List α}
    (h : items.mapM as = some values) : values.length = items.length := by
  induction items generalizing values with
  | nil =>
    cases h
    rfl
  | cons item items ih =>
    rw [mapM_cons] at h
    obtain ⟨value, -, h⟩ := Option.bind_eq_some_iff.mp h
    obtain ⟨rest, hrest, h⟩ := Option.bind_eq_some_iff.mp h
    cases h
    exact congrArg (· + 1) (ih hrest)

theorem bounded_ofSlice {item : Item} {value : Option Bytes} (hbound : Bounded item)
    (h : asSlice item = some value) : Bounded (ofSlice value) := by
  rw [asSlice] at h
  split at h
  · cases h
    exact .inl (by decide)
  rename_i hpresent
  obtain ⟨bytes, hbytes, rfl⟩ := Option.map_eq_some_iff.mp h
  show bytes.length < 2 ^ 64
  cases item with
  | bytes value =>
    cases hbytes
    exact hbound
  | array items =>
    rw [length_of_mapM hbytes]
    exact hbound.1
  | _ => simp_all [asBytes, asList]

theorem bounded_of_asUintMap {item : Item} {fields : List (Nat × Item)} (hbound : Bounded item)
    (h : asUintMap item = some fields) : ∀ field ∈ fields, Bounded field.2 := by
  have hpairs : ∀ {pairs : List (Item × Item)}, BoundedPairs pairs →
      ∀ {read : List (Nat × Item)}, pairs.mapM uintKey = some read →
        ∀ field ∈ read, Bounded field.2 := by
    intro pairs
    induction pairs with
    | nil =>
      intro _ read hread
      cases hread
      exact fun _ h => absurd h not_mem_nil
    | cons pair pairs ih =>
      intro hpairs read hread
      rw [mapM_cons] at hread
      obtain ⟨field, hfield, hread⟩ := Option.bind_eq_some_iff.mp hread
      obtain ⟨rest, hrest, hread⟩ := Option.bind_eq_some_iff.mp hread
      cases hread
      obtain ⟨n, -, rfl⟩ := Option.map_eq_some_iff.mp hfield
      exact forall_mem_cons.mpr ⟨hpairs.2.1, ih hpairs.2.2 hrest⟩
  cases item with
  | map pairs =>
    obtain ⟨read, hread, h⟩ := Option.bind_eq_some_iff.mp h
    obtain ⟨-, h⟩ := Option.ite_none_right_eq_some.mp h
    cases h
    exact hpairs hbound.2 hread
  | _ =>
    simp only [asUintMap] at h
    obtain ⟨-, h⟩ := Option.ite_none_right_eq_some.mp h
    cases h
    exact fun _ h => absurd h not_mem_nil

theorem bounded_lookup {fields : List (Nat × Item)} (h : ∀ field ∈ fields, Bounded field.2)
    (key : Nat) : Bounded ((fields.lookup key).getD .null) := by
  cases hlookup : fields.lookup key with
  | none => exact .inl (by decide)
  | some value =>
    obtain ⟨before, after, rfl, -⟩ := lookup_eq_some_iff.mp hlookup
    exact h (key, value) (by simp)

end Cbor
