import P2PNetcat.Library.ByteCodec

/-!
# Text as the Go standard library treats it

`strings.TrimSpace`, `net.SplitHostPort`, `strconv.Atoi` on text, and `%q`.
-/

namespace GoText
open List ByteCodec

def isSpace (c : Char) : Bool :=
  let n := c.toNat
  (9 ≤ n && n ≤ 13) || n == 0x20 || n == 0x85 || n == 0xa0 || n == 0x1680 ||
    (0x2000 ≤ n && n ≤ 0x200a) || n == 0x2028 || n == 0x2029 || n == 0x202f ||
    n == 0x205f || n == 0x3000

def trimSpace (text : List Char) : List Char :=
  ((text.dropWhile isSpace).reverse.dropWhile isSpace).reverse

theorem isSpace_of_graphic {c : Char} (h : 32 < c.toNat ∧ c.toNat < 127) : isSpace c = false := by
  simp only [isSpace, Bool.or_eq_false_iff, Bool.and_eq_false_iff, decide_eq_false_iff_not,
    beq_eq_false_iff_ne]
  omega

theorem dropWhile_isSpace {text : List Char} (h : ∀ c ∈ text, isSpace c = false) :
    text.dropWhile isSpace = text := by
  cases text with
  | nil => rfl
  | cons c text =>
    rw [dropWhile_cons, h c mem_cons_self]
    rfl

theorem trimSpace_of_graphic {text : List Char} (h : ∀ c ∈ text, 32 < c.toNat ∧ c.toNat < 127) :
    trimSpace text = text := by
  have hspace : ∀ c ∈ text, isSpace c = false := fun c hc => isSpace_of_graphic (h c hc)
  have hreverse : ∀ c ∈ text.reverse, isSpace c = false := fun c hc =>
    hspace c (mem_reverse.mp hc)
  rw [trimSpace, dropWhile_isSpace hspace, dropWhile_isSpace hreverse, reverse_reverse]

def atoi (text : List Char) : Option Int := parseInt text

/-- Whether an optional sign and digits only, so that `Atoi` can only fail by range. -/
def isInteger (text : List Char) : Bool :=
  match text with
  | '+' :: digits | '-' :: digits => (unsigned digits).isSome
  | digits => (unsigned digits).isSome

def hexDigit (n : Nat) : Char := (Nat.digitChar (n % 16)).toLower

/-- One character inside `%q`; characters above ASCII are taken as printable. -/
def quoteChar (c : Char) : List Char :=
  match c with
  | '"' => ['\\', '"']
  | '\\' => ['\\', '\\']
  | '\n' => ['\\', 'n']
  | '\r' => ['\\', 'r']
  | '\t' => ['\\', 't']
  | c =>
    if c.toNat = 7 then ['\\', 'a']
    else if c.toNat = 8 then ['\\', 'b']
    else if c.toNat = 11 then ['\\', 'v']
    else if c.toNat = 12 then ['\\', 'f']
    else if c.toNat < 32 ∨ c.toNat = 127 then
      ['\\', 'x', hexDigit (c.toNat / 16), hexDigit c.toNat]
    else [c]

def quote (text : String) : String :=
  String.ofList ('"' :: text.toList.flatMap quoteChar ++ ['"'])

def atoiError (text : List Char) : String :=
  "strconv.Atoi: parsing " ++ quote (String.ofList text) ++
    if isInteger text then ": value out of range" else ": invalid syntax"

def addrError (hostport : List Char) (why : String) : String :=
  if hostport = [] then why else "address " ++ String.ofList hostport ++ ": " ++ why

def cutLast (c : Char) (text : List Char) : Option (List Char × List Char) :=
  match text.reverse.span (· ≠ c) with
  | (_, []) => none
  | (after, _ :: before) => some (before.reverse, after.reverse)

def splitHostPort (hostport : List Char) : Except String (List Char × List Char) :=
  match cutLast ':' hostport with
  | none => .error (addrError hostport "missing port in address")
  | some (front, port) =>
    match hostport with
    | '[' :: inner =>
      match inner.span (· ≠ ']') with
      | (_, []) => .error (addrError hostport "missing ']' in address")
      | (_, [_]) => .error (addrError hostport "missing port in address")
      | (host, _ :: rest) =>
        if front ≠ '[' :: host ++ [']'] then
          if rest.head? = some ':' then .error (addrError hostport "too many colons in address")
          else .error (addrError hostport "missing port in address")
        else if '[' ∈ inner then .error (addrError hostport "unexpected '[' in address")
        else if ']' ∈ rest then .error (addrError hostport "unexpected ']' in address")
        else .ok (host, port)
    | _ =>
      if ':' ∈ front then .error (addrError hostport "too many colons in address")
      else if '[' ∈ hostport then .error (addrError hostport "unexpected '[' in address")
      else if ']' ∈ hostport then .error (addrError hostport "unexpected ']' in address")
      else .ok (front, port)

end GoText
