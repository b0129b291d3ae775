import P2PNetcat.Library.Utf8

/-!
# JSON texts

Values and their texts as the Go standard library writes and reads them. A
string is any bytes: what is not UTF-8 in it is written as an escape and read
back as a replacement character. The reader limits the nesting.
-/

namespace Json
open List ByteCodec Utf8

/-- A value whose numbers are of type `N`: literals in a text, floating-point numbers in Go. -/
inductive Value (N : Type) where
  | null
  | bool (value : Bool)
  | number (n : N)
  | string (value : Bytes)
  | array (items : List (Value N))
  | object (members : List (Bytes × Value N))

def shortEscapes : List (Char × Char) :=
  [('"', '"'), ('\\', '\\'), (Char.ofNat 8, 'b'), (Char.ofNat 12, 'f'), ('\n', 'n'), ('\r', 'r'),
    ('\t', 't')]

def hex4 (n : Nat) : List Char :=
  [n / 4096 % 16, n / 256 % 16, n / 16 % 16, n % 16].map Nat.digitChar

/-- Control characters, those with a meaning in HTML, and the two line separators of Unicode. -/
def isEscaped (c : Char) : Bool :=
  c.toNat < 0x20 ∨ c = '<' ∨ c = '>' ∨ c = '&' ∨ c.toNat = 0x2028 ∨ c.toNat = 0x2029

def escape : Option Char → List Char
  | none => '\\' :: 'u' :: hex4 0xfffd
  | some c =>
    match shortEscapes.lookup c with
    | some e => ['\\', e]
    | none => if isEscaped c then '\\' :: 'u' :: hex4 c.toNat else [c]

def quote (value : Bytes) : List Char := '"' :: ((units value).flatMap escape ++ ['"'])

mutual

def render : Value (List Char) → List Char
  | .null => ['n', 'u', 'l', 'l']
  | .bool true => ['t', 'r', 'u', 'e']
  | .bool false => ['f', 'a', 'l', 's', 'e']
  | .number literal => literal
  | .string value => quote value
  | .array [] => ['[', ']']
  | .array (item :: items) => '[' :: (render item ++ renderItems items)
  | .object [] => ['{', '}']
  | .object ((key, value) :: members) =>
    '{' :: (quote key ++ ':' :: (render value ++ renderMembers members))

def renderItems : List (Value (List Char)) → List Char
  | [] => [']']
  | item :: items => ',' :: (render item ++ renderItems items)

def renderMembers : List (Bytes × Value (List Char)) → List Char
  | [] => ['}']
  | (key, value) :: members =>
    ',' :: (quote key ++ ':' :: (render value ++ renderMembers members))

end

def integer : Int → List Char
  | .ofNat n => Nat.toDigits 10 n
  | .negSucc n => '-' :: Nat.toDigits 10 (n + 1)

def isSpace (c : Char) : Bool := c = ' ' ∨ c = '\t' ∨ c = '\r' ∨ c = '\n'

def skipSpace (text : List Char) : List Char := text.dropWhile isSpace

def hexValue (c : Char) : Option Nat :=
  if '0' ≤ c ∧ c ≤ '9' then some (c.toNat - 48)
  else if 'a' ≤ c ∧ c ≤ 'f' then some (c.toNat - 87)
  else if 'A' ≤ c ∧ c ≤ 'F' then some (c.toNat - 55)
  else none

def readHex4 : List Char → Option (Nat × List Char)
  | a :: b :: c :: d :: rest => do
    let a ← hexValue a
    let b ← hexValue b
    let c ← hexValue c
    let d ← hexValue d
    some (a * 4096 + b * 256 + c * 16 + d, rest)
  | _ => none

def readEscapedHex : List Char → Option (Nat × List Char)
  | '\\' :: 'u' :: rest => readHex4 rest
  | _ => none

/-- A surrogate takes a second one with it if the two make a character. -/
def readSurrogate (n : Nat) (rest : List Char) : Char × List Char :=
  match readEscapedHex rest with
  | some (low, after) =>
    if n < 0xdc00 ∧ 0xdc00 ≤ low ∧ low < 0xe000 then
      (Char.ofNat (0x10000 + (n - 0xd800) * 1024 + (low - 0xdc00)), after)
    else (replacement, rest)
  | none => (replacement, rest)

def readEscape : List Char → Option (Char × List Char)
  | [] => none
  | e :: rest =>
    if e = 'u' then do
      let (n, rest) ← readHex4 rest
      if 0xd800 ≤ n ∧ n < 0xe000 then some (readSurrogate n rest)
      else some (Char.ofNat n, rest)
    else if e = '/' then some ('/', rest)
    else (shortEscapes.find? fun pair => pair.2 = e).map fun pair => (pair.1, rest)

def readChar : List Char → Option (Char × List Char)
  | [] => none
  | c :: rest =>
    if c = '"' ∨ c.toNat < 0x20 then none
    else if c = '\\' then readEscape rest
    else some (c, rest)

def readChars : Nat → List Char → Option (List Char × List Char)
  | 0, _ => none
  | fuel + 1, text =>
    match text with
    | '"' :: rest => some ([], rest)
    | _ => do
      let (c, rest) ← readChar text
      let (value, rest) ← readChars fuel rest
      some (c :: value, rest)

def readString (text : List Char) : Option (Bytes × List Char) :=
  (readChars (text.length + 1) text).map fun read => (encode read.1, read.2)

def isDigit (c : Char) : Bool := '0' ≤ c ∧ c ≤ '9'

def isNumberChar (c : Char) : Bool :=
  isDigit c ∨ c = '-' ∨ c = '+' ∨ c = '.' ∨ c = 'e' ∨ c = 'E'

def isDigits (text : List Char) : Bool := text ≠ [] ∧ text.all isDigit

def isExponent : List Char → Bool
  | [] => true
  | c :: rest =>
    (c == 'e' || c == 'E') && match rest with
      | '+' :: digits => isDigits digits
      | '-' :: digits => isDigits digits
      | digits => isDigits digits

def isFraction : List Char → Bool
  | '.' :: rest => rest.takeWhile isDigit ≠ [] ∧ isExponent (rest.dropWhile isDigit)
  | text => isExponent text

def isUnsigned : List Char → Bool
  | '0' :: rest => isFraction rest
  | c :: rest => isDigit c ∧ isFraction (rest.dropWhile isDigit)
  | [] => false

def isNumber (text : List Char) : Bool :=
  text.all isNumberChar && match text with
    | '-' :: rest => isUnsigned rest
    | _ => isUnsigned text

/-- No character of a number can follow one, so the whole run has to be a number. -/
def readNumber (text : List Char) : Option (List Char × List Char) :=
  let literal := text.takeWhile isNumberChar
  if isNumber literal then some (literal, text.dropWhile isNumberChar) else none

def expect : List Char → List Char → Option (List Char)
  | [], text => some text
  | c :: word, d :: text => if c = d then expect word text else none
  | _ :: _, [] => none

def readSeparator (close : Char) (text : List Char) : Option (Bool × List Char) :=
  match skipSpace text with
  | [] => none
  | c :: rest => if c = ',' then some (true, rest) else if c = close then some (false, rest) else none

def readKey (text : List Char) : Option (Bytes × List Char) := do
  let rest ← expect ['"'] (skipSpace text)
  let (key, rest) ← readString rest
  let rest ← expect [':'] (skipSpace rest)
  some (key, rest)

mutual

def readValue : Nat → Nat → List Char → Option (Value (List Char) × List Char)
  | 0, _, _ => none
  | fuel + 1, depth, text =>
    match skipSpace text with
    | [] => none
    | c :: rest =>
      if c = '{' then
        match depth with
        | 0 => none
        | depth + 1 =>
          match expect ['}'] (skipSpace rest) with
          | some rest => some (.object [], rest)
          | none => do
            let (key, rest) ← readKey rest
            let (value, rest) ← readValue fuel depth rest
            let (members, rest) ← readMembers fuel depth rest
            some (.object ((key, value) :: members), rest)
      else if c = '[' then
        match depth with
        | 0 => none
        | depth + 1 =>
          match expect [']'] (skipSpace rest) with
          | some rest => some (.array [], rest)
          | none => do
            let (item, rest) ← readValue fuel depth rest
            let (items, rest) ← readItems fuel depth rest
            some (.array (item :: items), rest)
      else if c = '"' then (readString rest).map fun read => (.string read.1, read.2)
      else if c = 't' then (expect ['r', 'u', 'e'] rest).map fun rest => (.bool true, rest)
      else if c = 'f' then (expect ['a', 'l', 's', 'e'] rest).map fun rest => (.bool false, rest)
      else if c = 'n' then (expect ['u', 'l', 'l'] rest).map fun rest => (.null, rest)
      else (readNumber (c :: rest)).map fun read => (.number read.1, read.2)

def readItems : Nat → Nat → List Char → Option (List (Value (List Char)) × List Char)
  | 0, _, _ => none
  | fuel + 1, depth, text => do
    let (more, rest) ← readSeparator ']' text
    if more then do
      let (item, rest) ← readValue fuel depth rest
      let (items, rest) ← readItems fuel depth rest
      some (item :: items, rest)
    else some ([], rest)

def readMembers : Nat → Nat → List Char → Option (List (Bytes × Value (List Char)) × List Char)
  | 0, _, _ => none
  | fuel + 1, depth, text => do
    let (more, rest) ← readSeparator '}' text
    if more then do
      let (key, rest) ← readKey rest
      let (value, rest) ← readValue fuel depth rest
      let (members, rest) ← readMembers fuel depth rest
      some ((key, value) :: members, rest)
    else some ([], rest)

end

/-- A text that is one value. A byte that is not UTF-8 can only stand in a string. -/
def parse (maxNestingDepth : Nat) (input : Bytes) : Option (Value (List Char)) :=
  let text := lossy input
  match readValue (text.length + 1) maxNestingDepth text with
  | some (value, rest) => if skipSpace rest = [] then some value else none
  | none => none

theorem hexValue_digitChar {n : Nat} (h : n < 16) : hexValue (Nat.digitChar n) = some n := by
  have hall : ∀ n : Fin 16, hexValue (Nat.digitChar n.val) = some n.val := by decide
  exact hall ⟨n, h⟩

theorem readHex4_hex4 {n : Nat} (h : n < 65536) (rest : List Char) :
    readHex4 (hex4 n ++ rest) = some (n, rest) := by
  simp only [hex4, map_cons, map_nil, cons_append, nil_append, readHex4,
    hexValue_digitChar (Nat.mod_lt _ (Nat.zero_lt_succ 15)), Option.bind_eq_bind, Option.bind_some,
    Option.some.injEq, Prod.mk.injEq, and_true]
  omega

theorem readEscape_hex4 {c : Char} (h : c.toNat < 65536) (rest : List Char) :
    readEscape ('u' :: (hex4 c.toNat ++ rest)) = some (c, rest) := by
  have hvalid := c.valid
  have hchar : ¬ (0xd800 ≤ c.toNat ∧ c.toNat < 0xe000) := by
    rcases hvalid with hlow | hhigh
    · exact fun hsurrogate => absurd hsurrogate.1 (Nat.not_le.mpr hlow)
    · exact fun hsurrogate => absurd hsurrogate.2 (Nat.not_lt.mpr (Nat.succ_le_of_lt hhigh.1))
  simp only [readEscape, if_true, readHex4_hex4 h, Option.bind_eq_bind, Option.bind_some,
    if_neg hchar, Char.ofNat_toNat]

theorem readEscape_short {c e : Char} (h : shortEscapes.lookup c = some e) (rest : List Char) :
    readEscape (e :: rest) = some (c, rest) := by
  have hall : ∀ pair ∈ shortEscapes, pair.2 ≠ 'u' ∧ pair.2 ≠ '/' ∧
      shortEscapes.find? (fun other => other.2 = pair.2) = some pair := by decide
  have hmem : (c, e) ∈ shortEscapes := by
    obtain ⟨before, after, heq, -⟩ := lookup_eq_some_iff.mp h
    rw [heq]
    exact mem_append_right _ mem_cons_self
  obtain ⟨hu, hslash, hfind⟩ := hall (c, e) hmem
  simp only [readEscape, if_neg hu, if_neg hslash, hfind, Option.map_some]

theorem readChar_backslash (rest : List Char) : readChar ('\\' :: rest) = readEscape rest := by
  rw [readChar, if_neg (by decide), if_pos rfl]

theorem readChar_escape (unit : Option Char) (rest : List Char) :
    readChar (escape unit ++ rest) = some (unit.getD replacement, rest) := by
  cases unit with
  | none =>
    have hchar : replacement.toNat = 0xfffd := by decide
    rw [escape, ← hchar, cons_append, cons_append, readChar_backslash,
      readEscape_hex4 (by decide)]
    rfl
  | some c =>
    rw [escape]
    split
    next e hshort =>
      rw [cons_append, readChar_backslash, cons_append, readEscape_short hshort]
      rfl
    next hshort =>
      have hquote : c ≠ '"' := by
        rintro rfl
        cases hshort
      have hbackslash : c ≠ '\\' := by
        rintro rfl
        cases hshort
      by_cases hescaped : isEscaped c = true
      · rw [if_pos hescaped, cons_append, readChar_backslash, cons_append,
          readEscape_hex4]
        · rfl
        · simp only [isEscaped, decide_eq_true_eq] at hescaped
          rcases hescaped with h | rfl | rfl | rfl | h | h
          · omega
          · decide
          · decide
          · decide
          · omega
          · omega
      · have hcontrol : ¬ c.toNat < 0x20 := by
          intro hlow
          exact hescaped (decide_eq_true (.inl hlow))
        have hplain : ¬ (c = '"' ∨ c.toNat < 0x20) := by
          rintro (h | h)
          · exact hquote h
          · exact hcontrol h
        rw [if_neg hescaped, singleton_append, readChar, if_neg hplain, if_neg hbackslash]
        rfl

theorem escape_cons (unit : Option Char) : ∃ c tail, escape unit = c :: tail ∧ c ≠ '"' := by
  have hread := readChar_escape unit []
  cases hescape : escape unit with
  | nil =>
    rw [hescape] at hread
    cases hread
  | cons c tail =>
    refine ⟨c, tail, rfl, ?_⟩
    rintro rfl
    rw [hescape, cons_append, readChar, if_pos (.inl rfl)] at hread
    cases hread

theorem readChars_units (units : List (Option Char)) {fuel : Nat} (h : units.length < fuel)
    (rest : List Char) : readChars fuel (units.flatMap escape ++ '"' :: rest) =
      some (units.map (fun c => c.getD replacement), rest) := by
  induction units generalizing fuel with
  | nil =>
    cases fuel with
    | zero => cases h
    | succ fuel => rfl
  | cons unit units ih =>
    cases fuel with
    | zero => cases h
    | succ fuel =>
      obtain ⟨c, tail, hescape, hquote⟩ := escape_cons unit
      have hread := readChar_escape unit (units.flatMap escape ++ '"' :: rest)
      rw [flatMap_cons, append_assoc]
      rw [hescape, cons_append] at hread ⊢
      simp only [readChars]
      split
      next heq =>
        exact absurd (cons.inj heq).1 hquote
      · rw [hread, Option.bind_eq_bind, Option.bind_some, ih (Nat.lt_of_succ_lt_succ h)]
        rfl

theorem length_units_le (units : List (Option Char)) :
    units.length ≤ (units.flatMap escape).length := by
  induction units with
  | nil => exact Nat.le_refl 0
  | cons unit units ih =>
    obtain ⟨c, tail, hescape, -⟩ := escape_cons unit
    rw [flatMap_cons, hescape, length_append, length_cons, length_cons]
    omega

theorem readString_quote (value : Bytes) (rest : List Char) :
    readString ((units value).flatMap escape ++ '"' :: rest) = some (coerce value, rest) := by
  have hlength := length_units_le (units value)
  rw [readString, readChars_units _ (by rw [length_append]; omega)]
  rfl

theorem readKey_quote (key : Bytes) (rest : List Char) :
    readKey (quote key ++ ':' :: rest) = some (coerce key, rest) := by
  rw [readKey, quote, cons_append, append_assoc, singleton_append]
  change Option.bind (readString ((units key).flatMap escape ++ '"' :: ':' :: rest)) _ = _
  rw [readString_quote]
  rfl

variable {N : Type}

mutual

def Value.depth : Value N → Nat
  | .null => 0
  | .bool _ => 0
  | .number _ => 0
  | .string _ => 0
  | .array items => itemsDepth items + 1
  | .object members => membersDepth members + 1

def itemsDepth : List (Value N) → Nat
  | [] => 0
  | item :: items => max item.depth (itemsDepth items)

def membersDepth : List (Bytes × Value N) → Nat
  | [] => 0
  | (_, value) :: members => max value.depth (membersDepth members)

end

mutual

def Value.coerce : Value N → Value N
  | .null => .null
  | .bool value => .bool value
  | .number n => .number n
  | .string value => .string (Utf8.coerce value)
  | .array items => .array (coerceItems items)
  | .object members => .object (coerceMembers members)

def coerceItems : List (Value N) → List (Value N)
  | [] => []
  | item :: items => item.coerce :: coerceItems items

def coerceMembers : List (Bytes × Value N) → List (Bytes × Value N)
  | [] => []
  | (key, value) :: members => (Utf8.coerce key, value.coerce) :: coerceMembers members

end

mutual

def Value.All (p : Value N → Prop) : Value N → Prop
  | .null => p .null
  | .bool value => p (.bool value)
  | .number n => p (.number n)
  | .string value => p (.string value)
  | .array items => p (.array items) ∧ AllItems p items
  | .object members => p (.object members) ∧ AllMembers p members

def AllItems (p : Value N → Prop) : List (Value N) → Prop
  | [] => True
  | item :: items => item.All p ∧ AllItems p items

def AllMembers (p : Value N → Prop) : List (Bytes × Value N) → Prop
  | [] => True
  | (_, value) :: members => value.All p ∧ AllMembers p members

end

def NumberLiteral : Value (List Char) → Prop
  | .number literal => isNumber literal = true
  | _ => True

def Value.Literal (t : Value (List Char)) : Prop := t.All NumberLiteral

def Stops (text : List Char) : Prop := ∀ c ∈ text.head?, isNumberChar c = false

theorem skipSpace_cons {c : Char} (h : isSpace c = false) (rest : List Char) :
    skipSpace (c :: rest) = c :: rest := by
  rw [skipSpace, dropWhile_cons, h]
  rfl

theorem readNumber_append {literal rest : List Char} (h : isNumber literal = true)
    (hrest : Stops rest) : readNumber (literal ++ rest) = some (literal, rest) := by
  have hall : ∀ c ∈ literal, isNumberChar c = true := by
    rw [isNumber.eq_def, Bool.and_eq_true, all_eq_true] at h
    exact h.1
  have htake : rest.takeWhile isNumberChar = [] := by
    cases rest with
    | nil => rfl
    | cons c rest => rw [takeWhile_cons, hrest c rfl]; rfl
  have hdrop : rest.dropWhile isNumberChar = rest := by
    cases rest with
    | nil => rfl
    | cons c rest => rw [dropWhile_cons, hrest c rfl]; rfl
  rw [readNumber, takeWhile_append_of_pos hall, dropWhile_append_of_pos hall, htake,
    hdrop, append_nil, if_pos h]

theorem number_cons {literal : List Char} (h : isNumber literal = true) :
    ∃ c tail, literal = c :: tail ∧ isNumberChar c = true := by
  cases literal with
  | nil => cases h
  | cons c tail =>
    rw [isNumber.eq_def, Bool.and_eq_true, all_cons, Bool.and_eq_true] at h
    exact ⟨c, tail, rfl, h.1.1⟩

theorem ne_of_numberChar {c d : Char} (h : isNumberChar c = true) (hd : isNumberChar d = false) :
    c ≠ d := by
  rintro rfl
  rw [h] at hd
  cases hd

theorem not_space_of_numberChar {c : Char} (h : isNumberChar c = true) : isSpace c = false := by
  cases hspace : isSpace c with
  | false => rfl
  | true =>
    simp only [isSpace, decide_eq_true_eq] at hspace
    rcases hspace with rfl | rfl | rfl | rfl
    · exact absurd h (by decide)
    · exact absurd h (by decide)
    · exact absurd h (by decide)
    · exact absurd h (by decide)

theorem render_cons {t : Value (List Char)} (h : t.Literal) :
    ∃ c tail, render t = c :: tail ∧ isSpace c = false ∧ c ≠ ']' ∧ c ≠ '}' := by
  match t with
  | .null | .bool true | .bool false => exact ⟨_, _, rfl, by decide⟩
  | .number literal =>
    obtain ⟨c, tail, rfl, hc⟩ := number_cons h
    exact ⟨c, tail, by rw [render], not_space_of_numberChar hc, ne_of_numberChar hc (by decide),
      ne_of_numberChar hc (by decide)⟩
  | .string value => exact ⟨_, _, by rw [render, quote], by decide⟩
  | .array [] | .array (item :: items) | .object []
  | .object ((key, value) :: members) => exact ⟨_, _, by rw [render], by decide⟩

theorem expect_render {t : Value (List Char)} (h : t.Literal) {close : Char}
    (hclose : close = ']' ∨ close = '}') (rest : List Char) :
    expect [close] (skipSpace (render t ++ rest)) = none := by
  obtain ⟨c, tail, hrender, hspace, hbracket, hbrace⟩ := render_cons h
  have hne : close ≠ c := by
    rcases hclose with rfl | rfl
    · exact hbracket.symm
    · exact hbrace.symm
  rw [hrender, cons_append, skipSpace_cons hspace, expect, if_neg hne]

theorem stops_items (items : List (Value (List Char))) (rest : List Char) :
    Stops (renderItems items ++ rest) := by
  intro c hc
  cases items <;> (rw [renderItems] at hc; cases hc; rfl)

theorem stops_members (members : List (Bytes × Value (List Char))) (rest : List Char) :
    Stops (renderMembers members ++ rest) := by
  intro c hc
  cases members <;> (rw [renderMembers] at hc; cases hc; rfl)

theorem length_renderItems_pos (items : List (Value (List Char))) :
    0 < (renderItems items).length := by
  cases items <;> (rw [renderItems]; exact Nat.zero_lt_succ _)

theorem length_renderMembers_pos (members : List (Bytes × Value (List Char))) :
    0 < (renderMembers members).length := by
  cases members <;> (rw [renderMembers]; exact Nat.zero_lt_succ _)

mutual

/-- One unit of fuel for each character reads a text back, whatever follows, unless it is nested
too deeply. -/
theorem readValue_render : ∀ (t : Value (List Char)) (fuel depth : Nat) (rest : List Char),
    t.Literal → (render t).length ≤ fuel → Stops rest →
    readValue fuel depth (render t ++ rest) =
      if t.depth ≤ depth then some (t.coerce, rest) else none
  | t, 0, depth, rest, ht, hfuel, _ => by
    obtain ⟨c, tail, hrender, -⟩ := render_cons ht
    rw [hrender] at hfuel
    cases hfuel
  | .null, fuel + 1, depth, rest, _, _, _ | .bool true, fuel + 1, depth, rest, _, _, _
  | .bool false, fuel + 1, depth, rest, _, _, _ => by
    rw [render, Value.depth, if_pos (Nat.zero_le _)]
    rfl
  | .number literal, fuel + 1, depth, rest, ht, _, hrest => by
    have hread := readNumber_append ht hrest
    obtain ⟨c, tail, rfl, hc⟩ := number_cons ht
    have hne : ∀ d, isNumberChar d = false → c ≠ d := fun d => ne_of_numberChar hc
    rw [cons_append] at hread
    rw [render, cons_append, readValue, skipSpace_cons (not_space_of_numberChar hc)]
    simp only
    rw [if_neg (hne _ rfl), if_neg (hne _ rfl), if_neg (hne _ rfl), if_neg (hne _ rfl),
      if_neg (hne _ rfl), if_neg (hne _ rfl), hread, Value.depth, if_pos (Nat.zero_le _)]
    rfl
  | .string value, fuel + 1, depth, rest, _, _, _ => by
    rw [render, quote, cons_append, append_assoc, singleton_append, readValue,
      skipSpace_cons rfl]
    simp only [Char.reduceEq, if_false, if_true]
    rw [readString_quote, Value.depth, if_pos (Nat.zero_le _)]
    rfl
  | .array [], fuel + 1, depth, rest, _, _, _ => by
    rw [render, Value.depth, itemsDepth]
    cases depth with
    | zero => rfl
    | succ depth =>
      rw [if_pos (Nat.le_add_left _ _)]
      rfl
  | .array (item :: items), fuel + 1, 0, rest, _, _, _ => by
    rw [render, Value.depth, if_neg (Nat.not_succ_le_zero _)]
    rfl
  | .array (item :: items), fuel + 1, depth + 1, rest, ht, hfuel, hrest => by
    rw [render, length_cons, length_append] at hfuel
    have hpos := length_renderItems_pos items
    have hitem := readValue_render item fuel depth (renderItems items ++ rest) ht.2.1 (by omega)
      (stops_items items rest)
    have hitems := readItems_render items fuel depth rest ht.2.2 (by omega)
    have hexpect := expect_render ht.2.1 (.inl rfl) (renderItems items ++ rest)
    rw [render, cons_append, append_assoc, readValue, skipSpace_cons rfl]
    simp only [Char.reduceEq, if_false, if_true, hexpect, hitem, Value.depth, itemsDepth,
      Nat.add_le_add_iff_right, Nat.max_le, ite_and]
    split
    · simp only [Option.bind_eq_bind, Option.bind_some, hitems]
      split <;> rfl
    · rfl
  | .object [], fuel + 1, depth, rest, _, _, _ => by
    rw [render, Value.depth, membersDepth]
    cases depth with
    | zero => rfl
    | succ depth =>
      rw [if_pos (Nat.le_add_left _ _)]
      rfl
  | .object ((key, value) :: members), fuel + 1, 0, rest, _, _, _ => by
    rw [render, Value.depth, if_neg (Nat.not_succ_le_zero _)]
    rfl
  | .object ((key, value) :: members), fuel + 1, depth + 1, rest, ht, hfuel, hrest => by
    rw [render, length_cons, length_append, length_cons, length_append] at hfuel
    have hpos := length_renderMembers_pos members
    have hvalue := readValue_render value fuel depth (renderMembers members ++ rest) ht.2.1 (by omega)
      (stops_members members rest)
    have hmembers := readMembers_render members fuel depth rest ht.2.2 (by omega)
    have hexpect : ∀ text, expect ['}'] (skipSpace (quote key ++ text)) = none := fun _ => rfl
    rw [render, cons_append, append_assoc, cons_append, append_assoc, readValue,
      skipSpace_cons rfl]
    simp only [Char.reduceEq, if_false, if_true, hexpect, readKey_quote, Option.bind_eq_bind,
      Option.bind_some, hvalue, Value.depth, membersDepth, Nat.add_le_add_iff_right, Nat.max_le,
      ite_and]
    split
    · simp only [Option.bind_some, hmembers]
      split <;> rfl
    · rfl

theorem readItems_render : ∀ (items : List (Value (List Char))) (fuel depth : Nat)
    (rest : List Char), AllItems NumberLiteral items →
    (renderItems items).length ≤ fuel →
    readItems fuel depth (renderItems items ++ rest) =
      if itemsDepth items ≤ depth then some (coerceItems items, rest) else none
  | items, 0, depth, rest, _, hfuel => by
    have hpos := length_renderItems_pos items
    omega
  | [], fuel + 1, depth, rest, _, _ => by
    rw [renderItems, itemsDepth, if_pos (Nat.zero_le _)]
    rfl
  | item :: items, fuel + 1, depth, rest, ht, hfuel => by
    rw [renderItems, length_cons, length_append] at hfuel
    have hitem := readValue_render item fuel depth (renderItems items ++ rest) ht.1 (by omega)
      (stops_items items rest)
    have hitems := readItems_render items fuel depth rest ht.2 (by omega)
    have hmore : ∀ text, readSeparator ']' (',' :: text) = some (true, text) := fun _ => rfl
    rw [renderItems, cons_append, append_assoc, readItems, hmore]
    simp only [Option.bind_eq_bind, Option.bind_some, if_true, hitem, itemsDepth, Nat.max_le,
      ite_and]
    split
    · simp only [Option.bind_some, hitems]
      split <;> rfl
    · rfl

theorem readMembers_render : ∀ (members : List (Bytes × Value (List Char))) (fuel depth : Nat)
    (rest : List Char), AllMembers NumberLiteral members →
    (renderMembers members).length ≤ fuel →
    readMembers fuel depth (renderMembers members ++ rest) =
      if membersDepth members ≤ depth then some (coerceMembers members, rest) else none
  | members, 0, depth, rest, _, hfuel => by
    have hpos := length_renderMembers_pos members
    omega
  | [], fuel + 1, depth, rest, _, _ => by
    rw [renderMembers, membersDepth, if_pos (Nat.zero_le _)]
    rfl
  | (key, value) :: members, fuel + 1, depth, rest, ht, hfuel => by
    rw [renderMembers, length_cons, length_append, length_cons,
      length_append] at hfuel
    have hvalue := readValue_render value fuel depth (renderMembers members ++ rest) ht.1 (by omega)
      (stops_members members rest)
    have hmembers := readMembers_render members fuel depth rest ht.2 (by omega)
    have hmore : ∀ text, readSeparator '}' (',' :: text) = some (true, text) := fun _ => rfl
    rw [renderMembers, cons_append, append_assoc, cons_append, append_assoc,
      readMembers, hmore]
    simp only [Option.bind_eq_bind, Option.bind_some, if_true, readKey_quote, hvalue, membersDepth,
      Nat.max_le, ite_and]
    split
    · simp only [Option.bind_some, hmembers]
      split <;> rfl
    · rfl

end

theorem parse_render {t : Value (List Char)} (h : t.Literal) (maxNestingDepth : Nat) :
    parse maxNestingDepth (encode (render t)) =
      if t.depth ≤ maxNestingDepth then some t.coerce else none := by
  have hread := readValue_render t ((render t).length + 1) maxNestingDepth [] h (Nat.le_succ _)
    (fun c hc => nomatch hc)
  rw [append_nil] at hread
  rw [parse, lossy_encode]
  by_cases hdepth : t.depth ≤ maxNestingDepth
  · rw [if_pos hdepth] at hread ⊢
    simp only [hread]
    rfl
  · rw [if_neg hdepth] at hread ⊢
    simp only [hread]

theorem length_flatMap_escape_le (units : List (Option Char)) :
    (((units.map fun c => c.getD replacement).map some).flatMap escape).length ≤
      (units.flatMap escape).length := by
  induction units with
  | nil => exact Nat.le_refl _
  | cons unit units ih =>
    have hunit : (escape (some (unit.getD replacement))).length ≤ (escape unit).length := by
      cases unit with
      | none => decide
      | some c => exact Nat.le_refl _
    simp only [map_cons, flatMap_cons, length_append] at ih ⊢
    omega

theorem eq_map_some_of_length {units : List (Option Char)}
    (h : (units.flatMap escape).length ≤
      (((units.map fun c => c.getD replacement).map some).flatMap escape).length) :
    units = (units.map fun c => c.getD replacement).map some := by
  induction units with
  | nil => rfl
  | cons unit units ih =>
    have hrest := length_flatMap_escape_le units
    simp only [map_cons, flatMap_cons, length_append] at h ⊢
    cases unit with
    | none =>
      have hshort : (escape (some (Option.getD none replacement))).length = 1 := by decide
      have hlong : (escape none).length = 6 := by decide
      omega
    | some c =>
      rw [Option.getD_some] at h ⊢
      rw [← ih (by omega)]

theorem quote_append_inj {value other : Bytes} {rest rest' : List Char}
    (hvalid : valid value = true) (h : quote value ++ rest = quote other ++ rest') :
    value = other ∧ rest = rest' := by
  rw [quote, quote, cons_append, cons_append, append_assoc, append_assoc,
    singleton_append, singleton_append] at h
  have htext := (cons.inj h).2
  have hread := readChars_units (units value)
    (Nat.lt_succ_of_le (Nat.le_max_left _ (units other).length)) rest
  rw [htext, readChars_units (units other) (Nat.lt_succ_of_le (Nat.le_max_right _ _))] at hread
  obtain ⟨hchars, hrest⟩ := Prod.mk.inj (Option.some.inj hread)
  subst hrest
  have hsame := append_cancel_right htext
  obtain ⟨text, rfl⟩ := exists_of_valid hvalid
  rw [units_encode] at hchars hsame
  have hother : (units other).map (fun c => c.getD replacement) = text := by
    rw [hchars, map_map]
    exact map_id text
  have hlength : ((units other).flatMap escape).length ≤
      ((((units other).map fun c => c.getD replacement).map some).flatMap escape).length :=
    Nat.le_of_eq (by rw [hother, hsame])
  have hunits := eq_map_some_of_length hlength
  rw [hother] at hunits
  exact ⟨(eq_encode_of_units hunits).symm, rfl⟩

theorem integer_injective {n m : Int} (h : integer n = integer m) : n = m := by
  have hdigits : ∀ {k l : Nat}, Nat.toDigits 10 k = Nat.toDigits 10 l → k = l := by
    intro k l heq
    exact decimal_injective (congrArg (map byteOf) heq)
  have hminus : ∀ {k : Nat} {text : List Char}, Nat.toDigits 10 k ≠ '-' :: text := by
    intro k text heq
    have hmem : '-' ∈ Nat.toDigits 10 k := by
      rw [heq]
      exact mem_cons_self
    exact absurd (Nat.isDigit_of_mem_toDigits (by decide) (by decide) hmem) (by decide)
  cases n with
  | ofNat n =>
    cases m with
    | ofNat m => rw [hdigits h]
    | negSucc m => exact absurd h hminus
  | negSucc n =>
    cases m with
    | ofNat m => exact absurd h.symm hminus
    | negSucc m => rw [Nat.succ.inj (hdigits (cons.inj h).2)]

end Json
