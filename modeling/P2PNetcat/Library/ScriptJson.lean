import P2PNetcat.Library.Json
import P2PNetcat.Library.Script

/-!
# JSON texts of a script

What `JSON.stringify` writes for an array of numbers and strings, and when the
Go standard library writes the same: it has escapes for a few characters more.
-/

namespace Script
open List ByteCodec Json

def stringifyChar (c : Char) : List Char :=
  match shortEscapes.lookup c with
  | some e => ['\\', e]
  | none => if c.toNat < 0x20 then '\\' :: 'u' :: hex4 c.toNat else [c]

def stringifyText (text : List Char) : List Char := '"' :: (text.flatMap stringifyChar ++ ['"'])

inductive Primitive where
  | number (n : Int)
  | string (text : List Char)
  deriving DecidableEq

def Primitive.stringify : Primitive → List Char
  | .number n => integer n
  | .string text => stringifyText text

def stringifyItems : List Primitive → List Char
  | [] => [']']
  | item :: items => ',' :: (item.stringify ++ stringifyItems items)

def stringify : List Primitive → List Char
  | [] => ['[', ']']
  | item :: items => '[' :: (item.stringify ++ stringifyItems items)

/-- The characters with a meaning in HTML and the two line separators of Unicode. -/
def isMarkup (c : Char) : Bool :=
  c = '<' ∨ c = '>' ∨ c = '&' ∨ c.toNat = 0x2028 ∨ c.toNat = 0x2029

def Primitive.Unmarked : Primitive → Prop
  | .number _ => True
  | .string text => ∀ c ∈ text, isMarkup c = false

def Primitive.value : Primitive → Value (List Char)
  | .number n => .number (integer n)
  | .string text => .string (Utf8.encode text)

theorem stringifyChar_eq {c : Char} (h : isMarkup c = false) :
    Json.escape (some c) = stringifyChar c := by
  have hescaped : isEscaped c = decide (c.toNat < 0x20) := by
    simp only [isMarkup, decide_eq_false_iff_not, not_or] at h
    simp only [isEscaped, h, or_false]
  rw [Json.escape, stringifyChar]
  cases shortEscapes.lookup c with
  | some e => rfl
  | none => simp only [hescaped, decide_eq_true_eq]

theorem length_stringifyChar {c : Char} (h : isMarkup c = true) :
    (stringifyChar c).length < (Json.escape (some c)).length := by
  simp only [isMarkup, decide_eq_true_eq] at h
  have hlookup : shortEscapes.lookup c = none := by
    rcases h with rfl | rfl | rfl | h | h
    · decide
    · decide
    · decide
    · rw [← Char.ofNat_toNat c, h]
      decide
    · rw [← Char.ofNat_toNat c, h]
      decide
  have hlarge : ¬ c.toNat < 0x20 := by
    rcases h with rfl | rfl | rfl | h | h
    · decide
    · decide
    · decide
    · omega
    · omega
  have hescaped : isEscaped c = true := by
    simp only [isEscaped, decide_eq_true_eq]
    exact .inr h
  rw [stringifyChar, Json.escape]
  simp only [hlookup, if_neg hlarge, if_pos hescaped]
  exact (show 1 < 6 by decide)

theorem length_stringifyChar_le (c : Char) :
    (stringifyChar c).length ≤ (Json.escape (some c)).length := by
  cases h : isMarkup c with
  | true => exact Nat.le_of_lt (length_stringifyChar h)
  | false => rw [stringifyChar_eq h]

theorem length_stringifyText_le (text : List Char) :
    (text.flatMap stringifyChar).length ≤ ((text.map some).flatMap Json.escape).length := by
  induction text with
  | nil => exact Nat.le_refl 0
  | cons c text ih =>
    have hc := length_stringifyChar_le c
    simp only [map_cons, flatMap_cons, length_append]
    omega

theorem unmarked_of_length {text : List Char}
    (h : ((text.map some).flatMap Json.escape).length = (text.flatMap stringifyChar).length) :
    ∀ c ∈ text, isMarkup c = false := by
  induction text with
  | nil => exact fun _ h => absurd h not_mem_nil
  | cons c text ih =>
    have hc := length_stringifyChar_le c
    have htext := length_stringifyText_le text
    simp only [map_cons, flatMap_cons, length_append] at h
    refine forall_mem_cons.mpr ⟨?_, ih (by omega)⟩
    cases hmarkup : isMarkup c with
    | false => rfl
    | true =>
      have := length_stringifyChar hmarkup
      omega

namespace Primitive

theorem render_eq {item : Primitive} (h : item.Unmarked) : render item.value = item.stringify := by
  cases item with
  | number n => rfl
  | string text =>
    have hchars : (text.map some).flatMap Json.escape = text.flatMap stringifyChar := by
      rw [flatMap_map]
      exact flatMap_congr fun c hc => stringifyChar_eq (h c hc)
    simp only [value, render, quote, Utf8.units_encode, hchars, stringify, stringifyText]

theorem length_stringify_le (item : Primitive) :
    item.stringify.length ≤ (render item.value).length := by
  cases item with
  | number n => exact Nat.le_refl _
  | string text =>
    have := length_stringifyText_le text
    simp only [value, render, quote, Utf8.units_encode, stringify, stringifyText, length_cons,
      length_append]
    omega

theorem unmarked_of_length {item : Primitive}
    (h : (render item.value).length = item.stringify.length) : item.Unmarked := by
  cases item with
  | number n => trivial
  | string text =>
    simp only [value, render, quote, Utf8.units_encode, stringify, stringifyText, length_cons,
      length_append] at h
    exact Script.unmarked_of_length (by omega)

end Primitive

variable {items : List Primitive}

theorem renderItems_eq (h : ∀ item ∈ items, item.Unmarked) :
    renderItems (items.map Primitive.value) = stringifyItems items := by
  induction items with
  | nil => rfl
  | cons item items ih =>
    obtain ⟨hitem, hitems⟩ := forall_mem_cons.mp h
    rw [map_cons, renderItems, stringifyItems, Primitive.render_eq hitem, ih hitems]

theorem length_stringifyItems_le (items : List Primitive) :
    (stringifyItems items).length ≤ (renderItems (items.map Primitive.value)).length := by
  induction items with
  | nil => exact Nat.le_refl _
  | cons item items ih =>
    have := item.length_stringify_le
    simp only [map_cons, renderItems, stringifyItems, length_cons, length_append]
    omega

theorem unmarked_of_lengths
    (h : (renderItems (items.map Primitive.value)).length = (stringifyItems items).length) :
    ∀ item ∈ items, item.Unmarked := by
  induction items with
  | nil => exact fun _ h => absurd h not_mem_nil
  | cons item items ih =>
    have hitem := item.length_stringify_le
    have hitems := length_stringifyItems_le items
    simp only [map_cons, renderItems, stringifyItems, length_cons, length_append] at h
    exact forall_mem_cons.mpr ⟨Primitive.unmarked_of_length (by omega), ih (by omega)⟩

/-- The two languages write the same text exactly if no string holds markup. -/
theorem render_eq_stringify_iff :
    render (.array (items.map Primitive.value)) = stringify items ↔
      ∀ item ∈ items, item.Unmarked := by
  cases items with
  | nil => exact ⟨fun _ _ h => absurd h not_mem_nil, fun _ => rfl⟩
  | cons item items =>
    have hrender : render (.array ((item :: items).map Primitive.value)) =
        '[' :: (render item.value ++ renderItems (items.map Primitive.value)) := by
      rw [map_cons, render]
    rw [hrender, stringify]
    constructor
    · intro h
      have hitem := item.length_stringify_le
      have hitems := length_stringifyItems_le items
      have hlength := congrArg List.length h
      simp only [length_cons, length_append] at hlength
      exact List.forall_mem_cons.mpr
        ⟨Primitive.unmarked_of_length (by omega), unmarked_of_lengths (by omega)⟩
    · intro h
      obtain ⟨hitem, hitems⟩ := forall_mem_cons.mp h
      rw [Primitive.render_eq hitem, renderItems_eq hitems]

end Script
