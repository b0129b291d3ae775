import P2PNetcat.Library.Cbor
import P2PNetcat.Library.Fallible
import P2PNetcat.Library.Trim
import Mathlib.Data.List.Dedup
import Mathlib.Data.List.Lex

/-!
# Values of a script

Decoded CBOR as ECMAScript sees it: strings with their UTF-16 code units, the
conversions `String` and `Number` of values of any type, and a decoder that
takes only what its encoder would write.
-/

namespace Script
open ByteCodec Cbor Fallible

def isWhite (c : Char) : Bool :=
  let n := c.toNat
  (9 ≤ n && n ≤ 13) || n == 0x20 || n == 0xa0 || n == 0x1680 || (0x2000 ≤ n && n ≤ 0x200a) ||
    n == 0x2028 || n == 0x2029 || n == 0x202f || n == 0x205f || n == 0x3000 || n == 0xfeff

def trim (text : List Char) : List Char := Trim.trimBy isWhite text

def codeUnits (c : Char) : List Nat :=
  let n := c.toNat
  if n < 0x10000 then [n] else [0xd800 + (n - 0x10000) / 1024, 0xdc00 + (n - 0x10000) % 1024]

def utf16 (text : List Char) : List Nat := text.flatMap codeUnits

def length (text : List Char) : Nat := (utf16 text).length

def sortSet (texts : List (List Char)) : List (List Char) :=
  texts.dedup.insertionSort fun a b => utf16 a ≤ utf16 b

def ofUtf8 (utf8 : Bytes) : List Char := (Utf8.decode utf8).getD []

def maxSafeInteger : Nat := 2 ^ 53 - 1

/-- What is left to the engine: the safe integer that `Number` makes of a text, the text of a
float, and whether the encoder writes a float back with the same bits. -/
structure Engine where
  numberOfText : List Char → Option Int
  floatText : FloatWidth → Nat → List Char
  writesBack : FloatWidth → Nat → Bool

def joinTexts : List (List Char) → List Char
  | [] => []
  | [text] => text
  | text :: texts => text ++ ',' :: joinTexts texts

section Conversions
variable (E : Engine)

mutual

def textOf : Item → List Char
  | .uint n => Nat.toDigits 10 n
  | .negative n => '-' :: Nat.toDigits 10 (n + 1)
  | .bytes value => joinTexts (value.map fun b => Nat.toDigits 10 b.toNat)
  | .text utf8 => ofUtf8 utf8
  | .array items => joinTexts (textsOf items)
  | .map _ => "[object Map]".toList
  | .simple 20 => "false".toList
  | .simple 21 => "true".toList
  | .simple 22 => "null".toList
  | .simple _ => "undefined".toList
  | .float width bits => E.floatText width bits

def textsOf : List Item → List (List Char)
  | [] => []
  | .simple 22 :: items => [] :: textsOf items
  | .simple 23 :: items => [] :: textsOf items
  | item :: items => textOf item :: textsOf items

end

def isNullish : Option Item → Bool
  | none => true
  | some (.simple n) => n = 22 ∨ n = 23
  | some _ => false

def inMessage (value : Option Item) : String :=
  String.ofList (value.elim "undefined".toList (textOf E))

def string (value : Option Item) : List Char :=
  if isNullish value then [] else value.elim [] (textOf E)

/-- `Number(value)` where it is a safe integer. A float that the encoder writes back is none. -/
def number : Option Item → Option Int
  | some (.uint n) => if n ≤ maxSafeInteger then some n else none
  | some (.negative n) => if n + 1 ≤ maxSafeInteger then some (-(n + 1)) else none
  | some (.text utf8) => E.numberOfText (ofUtf8 utf8)
  | some (.bytes value) => E.numberOfText (textOf E (.bytes value))
  | some (.array items) => E.numberOfText (textOf E (.array items))
  | some (.simple 20) => some 0
  | some (.simple 21) => some 1
  | some (.simple 22) => some 0
  | _ => none

mutual

/-- The encoder keeps the order of the keys and the width of the floats, and knows the simple
values. -/
def deterministic : Item → Bool
  | .array items => deterministicItems items
  | .map pairs =>
    (pairs.map fun pair => encode pair.1).Pairwise (· < ·) && deterministicPairs pairs
  | .float width bits => E.writesBack width bits
  | .simple n => 20 ≤ n && n ≤ 23
  | _ => true

def deterministicItems : List Item → Bool
  | [] => true
  | item :: items => deterministic item && deterministicItems items

def deterministicPairs : List (Item × Item) → Bool
  | [] => true
  | (key, value) :: pairs =>
    deterministic key && (deterministic value && deterministicPairs pairs)

end

structure MapErrors where
  invalid : String
  notMap : String
  notDeterministic : String

def decodeMap (errors : MapErrors) (input : Bytes) : Except String (List (Item × Item)) :=
  match decode input with
  | none => .error errors.invalid
  | some (.map pairs) =>
    if encode (.map pairs) = input ∧ deterministic E (.map pairs) then .ok pairs
    else .error errors.notDeterministic
  | some _ => .error errors.notMap

/-- The fields of a map whose keys are the numbers up to the last. -/
def rejectUnknownKeys (last : Nat) (label : String) :
    List (Item × Item) → Except String (List (Nat × Item))
  | [] => .ok []
  | (key, value) :: pairs =>
    match key with
    | .uint n =>
      if n ≤ last then do
        let fields ← rejectUnknownKeys last label pairs
        .ok ((n, value) :: fields)
      else .error ("Unknown " ++ label ++ " field: " ++ toString n)
    | key => .error ("Unknown " ++ label ++ " field: " ++ inMessage E (some key))

end Conversions

theorem length_codeUnits (c : Char) : (codeUnits c).length ≤ (Utf8.encodeChar c).length := by
  simp only [codeUnits, Utf8.encodeChar]
  repeat' split
  all_goals first | decide | simp only [List.length_cons, List.length_nil]; omega

theorem length_le_encode (text : List Char) : length text ≤ (Utf8.encode text).length := by
  induction text with
  | nil => exact Nat.le_refl 0
  | cons c text ih =>
    have hhead := length_codeUnits c
    rw [length, utf16] at ih ⊢
    rw [Utf8.encode] at ih ⊢
    rw [List.flatMap_cons, List.flatMap_cons, List.length_append, List.length_append]
    exact Nat.add_le_add hhead ih

theorem length_pos {text : List Char} (h : text ≠ []) : 0 < length text := by
  obtain ⟨c, rest, rfl⟩ := List.exists_cons_of_ne_nil h
  have hunits : 0 < (codeUnits c).length := by
    rw [codeUnits]
    split <;> exact Nat.succ_pos _
  rw [length, utf16, List.flatMap_cons, List.length_append]
  omega

theorem encode_ofUtf8 {utf8 : Bytes} (h : Utf8.valid utf8 = true) :
    Utf8.encode (ofUtf8 utf8) = utf8 := by
  obtain ⟨text, htext⟩ := Option.isSome_iff_exists.mp h
  rw [ofUtf8, htext]
  exact Utf8.encode_of_decode htext

theorem length_ofUtf8_le {utf8 : Bytes} (h : Utf8.valid utf8 = true) :
    length (ofUtf8 utf8) ≤ utf8.length := by
  have hle := length_le_encode (ofUtf8 utf8)
  rwa [encode_ofUtf8 h] at hle

theorem ofUtf8_ne_nil {utf8 : Bytes} (h : Utf8.valid utf8 = true) (hne : utf8 ≠ []) :
    ofUtf8 utf8 ≠ [] := by
  intro hnil
  apply hne
  rw [← encode_ofUtf8 h, hnil]
  rfl

theorem sortSet_eq_self_iff {texts : List (List Char)} :
    sortSet texts = texts ↔ texts.Nodup ∧ texts.Pairwise fun a b => utf16 a ≤ utf16 b := by
  have : Std.Total fun a b : List Char => utf16 a ≤ utf16 b := ⟨fun _ _ => le_total ..⟩
  have : IsTrans (List Char) fun a b => utf16 a ≤ utf16 b := ⟨fun _ _ _ => le_trans⟩
  rw [sortSet]
  constructor
  · intro h
    have hperm := List.perm_insertionSort (fun a b => utf16 a ≤ utf16 b) texts.dedup
    have hsorted := List.pairwise_insertionSort (fun a b => utf16 a ≤ utf16 b) texts.dedup
    rw [h] at hperm hsorted
    exact ⟨hperm.nodup_iff.mpr (List.nodup_dedup texts), hsorted⟩
  · rintro ⟨hnodup, hsorted⟩
    rw [hnodup.dedup]
    exact List.Pairwise.insertionSort_eq hsorted

section Maps
variable {E : Engine} {fields others : List (Nat × Item)} {last : Nat} {input : Bytes}

structure Written (E : Engine) (last : Nat) (input : Bytes) (fields : List (Nat × Item)) : Prop where
  decoded : decode input = some (.map (uintPairs fields))
  encoded : encode (.map (uintPairs fields)) = input
  ordered : (fields.map Prod.fst).Pairwise (· < ·)
  known : ∀ field ∈ fields, field.1 ≤ last
  settled : ∀ field ∈ fields, deterministic E field.2 = true

theorem uintPairs_injective (h : uintPairs fields = uintPairs others) : fields = others := by
  refine List.map_injective_iff.mpr ?_ h
  rintro ⟨n, value⟩ ⟨m, other⟩ heq
  simp only [Prod.mk.injEq, Item.uint.injEq] at heq
  exact Prod.ext heq.1 heq.2

theorem Written.unique
    (h : Written E last input fields) (h' : decode input = some (.map (uintPairs others))) :
    fields = others := by
  rw [h.decoded, Option.some.injEq, Item.map.injEq] at h'
  exact uintPairs_injective h'

theorem Written.eq_of_lookup
    (h : Written E last input fields) (hkeys : others.map Prod.fst = List.range (last + 1))
    (hlookup : ∀ field ∈ others, fields.lookup field.1 = some field.2) : fields = others := by
  have hordered : others.Pairwise fun a b => a.1 < b.1 := by
    rw [← List.pairwise_map (R := fun a b : Nat => a < b), hkeys]
    exact List.pairwise_lt_range
  have hmem : others ⊆ fields := by
    intro field hfield
    obtain ⟨before, after, rfl, -⟩ := List.lookup_eq_some_iff.mp (hlookup field hfield)
    exact List.mem_append_right _ List.mem_cons_self
  have hnodup : others.Nodup := List.Nodup.of_map Prod.fst (hkeys ▸ List.nodup_range)
  have hlength : fields.length ≤ others.length := by
    have hsub : fields.map Prod.fst ⊆ others.map Prod.fst := by
      intro key hkey
      obtain ⟨field, hfield, rfl⟩ := List.mem_map.mp hkey
      rw [hkeys, List.mem_range]
      exact Nat.lt_succ_of_le (h.known field hfield)
    have hdistinct : (fields.map Prod.fst).Nodup := h.ordered.imp Nat.ne_of_lt
    have hle := (List.subperm_of_subset hdistinct hsub).length_le
    rwa [List.length_map, List.length_map] at hle
  have hperm : others.Perm fields := (List.subperm_of_subset hnodup hmem).perm_of_length_le hlength
  refine List.Perm.eq_of_pairwise ?_ (List.pairwise_map.mp h.ordered) hordered hperm.symm
  intro a b _ _ hab hba
  exact absurd (Nat.lt_trans hab hba) (Nat.lt_irrefl _)

theorem cons_eq_uintPairs_iff {key value : Item} {pairs : List (Item × Item)}
    : (key, value) :: pairs = uintPairs fields ↔
      ∃ n rest, fields = (n, value) :: rest ∧ key = .uint n ∧ pairs = uintPairs rest := by
  rw [uintPairs, eq_comm, List.map_eq_cons_iff]
  constructor
  · rintro ⟨⟨n, v⟩, rest, rfl, heq, hrest⟩
    cases heq
    exact ⟨n, rest, rfl, rfl, hrest.symm⟩
  · rintro ⟨n, rest, rfl, rfl, rfl⟩
    exact ⟨(n, value), rest, rfl, rfl, rfl⟩

theorem rejectUnknownKeys_ok_iff {label : String} {pairs : List (Item × Item)}
    : rejectUnknownKeys E last label pairs = .ok fields ↔
      pairs = uintPairs fields ∧ ∀ field ∈ fields, field.1 ≤ last := by
  induction pairs generalizing fields with
  | nil =>
    cases fields with
    | nil | cons field fields => simp [rejectUnknownKeys, uintPairs]
  | cons pair pairs ih =>
    obtain ⟨key, value⟩ := pair
    rw [cons_eq_uintPairs_iff]
    constructor
    · intro h
      rw [rejectUnknownKeys.eq_def] at h
      dsimp only at h
      split at h
      next n =>
        split at h
        next hn =>
          obtain ⟨rest, hrest, heq⟩ := bind_eq_ok.mp h
          cases heq
          obtain ⟨rfl, hknown⟩ := ih.mp hrest
          exact ⟨⟨n, rest, rfl, rfl, rfl⟩, List.forall_mem_cons.mpr ⟨hn, hknown⟩⟩
        · cases h
      · cases h
    · rintro ⟨⟨n, rest, rfl, rfl, hpairs⟩, hknown⟩
      obtain ⟨hn, hknown⟩ := List.forall_mem_cons.mp hknown
      have hrest := ih.mpr ⟨hpairs, hknown⟩
      rw [rejectUnknownKeys, if_pos hn, hrest]
      rfl

theorem deterministicPairs_uint (fields : List (Nat × Item)) :
    deterministicPairs E (uintPairs fields) = fields.all fun field => deterministic E field.2 := by
  induction fields with
  | nil => rfl
  | cons field fields ih =>
    rw [uintPairs] at ih ⊢
    rw [List.map_cons, deterministicPairs, ih, List.all_cons]
    rfl

theorem deterministicItems_eq_all (items : List Item) :
    deterministicItems E items = items.all (deterministic E) := by
  induction items with
  | nil => rfl
  | cons item items ih => rw [deterministicItems, ih, List.all_cons]

theorem deterministicItems_texts (texts : List Bytes) :
    deterministicItems E (texts.map .text) = true := by
  rw [deterministicItems_eq_all, List.all_map, List.all_eq_true]
  exact fun _ _ => rfl

theorem number_uint (E : Engine) {n : Nat} (h : n ≤ maxSafeInteger) :
    number E (some (.uint n)) = some (n : Int) := if_pos h

theorem encode_uint_lt_iff {n m : Nat} (hn : n < 24) (hm : m < 24) :
    encode (.uint n) < encode (.uint m) ↔ n < m := by
  have hbyte : ∀ {k : Nat}, k < 24 → encode (.uint k) = [k.toUInt8] := by
    intro k hk
    rw [encode, head, if_pos hk]
    congr 2
    omega
  have hlt : n.toUInt8 < m.toUInt8 ↔ n < m := by
    rw [UInt8.lt_iff_toNat_lt, toNat_toUInt8 (by omega), toNat_toUInt8 (by omega)]
  rw [hbyte hn, hbyte hm, ← hlt]
  simp [List.cons_lt_cons_iff]

theorem readFields_ok_iff {errors : MapErrors} {label : String} (hlast : last < 24) :
    (decodeMap E errors input >>= rejectUnknownKeys E last label) = .ok fields ↔
      Written E last input fields := by
  have hordered : (∀ field ∈ fields, field.1 ≤ last) →
      (((uintPairs fields).map fun pair => encode pair.1).Pairwise (· < ·) ↔
        (fields.map Prod.fst).Pairwise (· < ·)) := by
    intro hknown
    rw [uintPairs, List.map_map, List.pairwise_map, List.pairwise_map]
    refine List.Pairwise.iff_of_mem ?_
    intro a b ha hb
    exact encode_uint_lt_iff (Nat.lt_of_le_of_lt (hknown a ha) hlast)
      (Nat.lt_of_le_of_lt (hknown b hb) hlast)
  have hsettled : deterministicPairs E (uintPairs fields) = true ↔
      ∀ field ∈ fields, deterministic E field.2 = true := by
    rw [deterministicPairs_uint, List.all_eq_true]
  constructor
  · intro h
    obtain ⟨pairs, hpairs, hfields⟩ := bind_eq_ok.mp h
    obtain ⟨rfl, hknown⟩ := rejectUnknownKeys_ok_iff.mp hfields
    rw [decodeMap] at hpairs
    split at hpairs
    · cases hpairs
    next hdecode =>
      split at hpairs
      next hform =>
        cases hpairs
        rw [deterministic, Bool.and_eq_true, decide_eq_true_eq, hordered hknown, hsettled] at hform
        exact ⟨hdecode, hform.1, hform.2.1, hknown, hform.2.2⟩
      · cases hpairs
    · cases hpairs
  · intro h
    have hform : encode (.map (uintPairs fields)) = input ∧
        deterministic E (.map (uintPairs fields)) = true := by
      rw [deterministic, Bool.and_eq_true, decide_eq_true_eq, hordered h.known, hsettled]
      exact ⟨h.encoded, h.ordered, h.settled⟩
    refine bind_eq_ok.mpr ⟨uintPairs fields, ?_, rejectUnknownKeys_ok_iff.mpr ⟨rfl, h.known⟩⟩
    simp only [decodeMap, h.decoded, if_pos hform]

end Maps

end Script
