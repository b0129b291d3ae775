import P2PNetcat.Library.Fallible
import P2PNetcat.Library.Json

/-!
# JSON values in Go

What an interface holds after decoding: maps with their keys in order and
floating-point numbers. How a number is written and read is a parameter.
-/

namespace Json
open List ByteCodec Fallible Utf8
variable {a b : Bytes}

variable {N : Type}

def before : Bytes → Bytes → Bool
  | _, [] => false
  | [], _ :: _ => true
  | a :: as, b :: bs => a.toNat < b.toNat || (a.toNat == b.toNat && before as bs)

theorem before_iff : before a b = true ↔ a.map UInt8.toNat < b.map UInt8.toNat := by
  induction a generalizing b with
  | nil => cases b <;> simp [before]
  | cons x as ih => cases b <;> simp [before, cons_lt_cons_iff, ih]

theorem before_asymm (h : before a b = true) : before b a = false := by
  rw [Bool.eq_false_iff, ne_eq, before_iff]
  exact List.lt_asymm (before_iff.mp h)

theorem before_trans {c : Bytes} (hab : before a b = true) (hbc : before b c = true) :
    before a c = true :=
  before_iff.mpr (List.lt_trans (before_iff.mp hab) (before_iff.mp hbc))

theorem before_total (h : a ≠ b) : before a b = true ∨ before b a = true := by
  rw [before_iff, before_iff]
  by_contra hno
  rw [not_or, List.not_lt, List.not_lt] at hno
  exact h ((List.map_inj_right fun _ _ => UInt8.toNat_inj.mp).mp (List.le_antisymm hno.2 hno.1))

theorem before_irrefl (a : Bytes) : before a a = false := by
  rw [Bool.eq_false_iff, ne_eq, before_iff]
  exact List.lt_irrefl _

def insertMember (key : Bytes) (value : Value N) : List (Bytes × Value N) → List (Bytes × Value N)
  | [] => [(key, value)]
  | (other, held) :: members =>
    if key = other then (key, value) :: members
    else if before key other then (key, value) :: (other, held) :: members
    else (other, held) :: insertMember key value members

def ofMembers (members : List (Bytes × Value N)) : List (Bytes × Value N) :=
  members.foldl (fun map member => insertMember member.1 member.2 map) []

def OrderedKeys : Value N → Prop
  | .object members => (members.map Prod.fst).Pairwise fun a b => before a b = true
  | _ => True

def ValidTexts : Value N → Prop
  | .string value => valid value = true
  | .object members => ∀ member ∈ members, valid member.1 = true
  | _ => True

mutual

def Value.reread : Value N → Value N
  | .null => .null
  | .bool value => .bool value
  | .number n => .number n
  | .string value => .string (Utf8.coerce value)
  | .array items => .array (rereadItems items)
  | .object members => .object (ofMembers (rereadMembers members))

def rereadItems : List (Value N) → List (Value N)
  | [] => []
  | item :: items => item.reread :: rereadItems items

def rereadMembers : List (Bytes × Value N) → List (Bytes × Value N)
  | [] => []
  | (key, value) :: members => (Utf8.coerce key, value.reread) :: rereadMembers members

end

mutual

def toText (format : N → Except String (List Char)) : Value N → Except String (Value (List Char))
  | .null => .ok .null
  | .bool value => .ok (.bool value)
  | .number n => (format n).map .number
  | .string value => .ok (.string value)
  | .array items => (itemsToText format items).map .array
  | .object members => (membersToText format members).map .object

def itemsToText (format : N → Except String (List Char)) :
    List (Value N) → Except String (List (Value (List Char)))
  | [] => .ok []
  | item :: items => do
    let item ← toText format item
    let items ← itemsToText format items
    .ok (item :: items)

def membersToText (format : N → Except String (List Char)) :
    List (Bytes × Value N) → Except String (List (Bytes × Value (List Char)))
  | [] => .ok []
  | (key, value) :: members => do
    let value ← toText format value
    let members ← membersToText format members
    .ok ((key, value) :: members)

end

mutual

def fromText (number : List Char → Option N) : Value (List Char) → Option (Value N)
  | .null => some .null
  | .bool value => some (.bool value)
  | .number literal => (number literal).map .number
  | .string value => some (.string value)
  | .array items => (itemsFromText number items).map .array
  | .object members => (membersFromText number members).map fun members =>
      .object (ofMembers members)

def itemsFromText (number : List Char → Option N) :
    List (Value (List Char)) → Option (List (Value N))
  | [] => some []
  | item :: items => do
    let item ← fromText number item
    let items ← itemsFromText number items
    some (item :: items)

def membersFromText (number : List Char → Option N) :
    List (Bytes × Value (List Char)) → Option (List (Bytes × Value N))
  | [] => some []
  | (key, value) :: members => do
    let value ← fromText number value
    let members ← membersFromText number members
    some ((key, value) :: members)

end

structure Floats where
  Float : Type
  format : Float → Except String (List Char)
  parse : List Char → Option Float

structure Floats.Lawful (F : Floats) : Prop where
  number : ∀ {x literal}, F.format x = .ok literal → isNumber literal = true
  parse_format : ∀ {x literal}, F.format x = .ok literal → F.parse literal = some x

theorem map_eq_ok {α β ε : Type} {f : α → β} {x : Except ε α} {b : β} :
    x.map f = .ok b ↔ ∃ a, x = .ok a ∧ f a = b := by
  cases x with
  | error err | ok a => simp [Except.map]

variable {F : Floats}

mutual

theorem toText_reads (hF : F.Lawful) : ∀ (v : Value F.Float) {t : Value (List Char)},
    toText F.format v = .ok t → t.Literal ∧ t.depth = v.depth ∧ fromText F.parse t.coerce = some v.reread
  | .null, t, h | .bool value, t, h | .string value, t, h => by
    cases h
    exact ⟨trivial, rfl, rfl⟩
  | .number n, t, h => by
    obtain ⟨literal, hliteral, rfl⟩ := map_eq_ok.mp h
    refine ⟨hF.number hliteral, rfl, ?_⟩
    rw [Value.coerce, fromText, hF.parse_format hliteral]
    rfl
  | .array items, t, h => by
    obtain ⟨texts, htexts, rfl⟩ := map_eq_ok.mp h
    obtain ⟨hall, hdepth, hread⟩ := itemsToText_reads hF items htexts
    refine ⟨⟨trivial, hall⟩, ?_, ?_⟩
    · rw [Value.depth, Value.depth, hdepth]
    · rw [Value.coerce, fromText, hread]
      rfl
  | .object members, t, h => by
    obtain ⟨texts, htexts, rfl⟩ := map_eq_ok.mp h
    obtain ⟨hall, hdepth, hread⟩ := membersToText_reads hF members htexts
    refine ⟨⟨trivial, hall⟩, ?_, ?_⟩
    · rw [Value.depth, Value.depth, hdepth]
    · rw [Value.coerce, fromText, hread]
      rfl

theorem itemsToText_reads (hF : F.Lawful) : ∀ (items : List (Value F.Float))
    {texts : List (Value (List Char))}, itemsToText F.format items = .ok texts →
      AllItems NumberLiteral texts ∧ itemsDepth texts = itemsDepth items ∧
      itemsFromText F.parse (coerceItems texts) = some (rereadItems items)
  | [], texts, h => by
    cases h
    exact ⟨trivial, rfl, rfl⟩
  | item :: items, texts, h => by
    obtain ⟨t, ht, h⟩ := bind_eq_ok.mp h
    obtain ⟨ts, hts, h⟩ := bind_eq_ok.mp h
    cases h
    obtain ⟨hliteral, hdepth, hread⟩ := toText_reads hF item ht
    obtain ⟨hall, hdepths, hreads⟩ := itemsToText_reads hF items hts
    refine ⟨⟨hliteral, hall⟩, ?_, ?_⟩
    · rw [itemsDepth, itemsDepth, hdepth, hdepths]
    · rw [coerceItems, itemsFromText, hread, hreads]
      rfl

theorem membersToText_reads (hF : F.Lawful) : ∀ (members : List (Bytes × Value F.Float))
    {texts : List (Bytes × Value (List Char))}, membersToText F.format members = .ok texts →
      AllMembers NumberLiteral texts ∧ membersDepth texts = membersDepth members ∧
      membersFromText F.parse (coerceMembers texts) = some (rereadMembers members)
  | [], texts, h => by
    cases h
    exact ⟨trivial, rfl, rfl⟩
  | (key, value) :: members, texts, h => by
    obtain ⟨t, ht, h⟩ := bind_eq_ok.mp h
    obtain ⟨ts, hts, h⟩ := bind_eq_ok.mp h
    cases h
    obtain ⟨hliteral, hdepth, hread⟩ := toText_reads hF value ht
    obtain ⟨hall, hdepths, hreads⟩ := membersToText_reads hF members hts
    refine ⟨⟨hliteral, hall⟩, ?_, ?_⟩
    · rw [membersDepth, membersDepth, hdepth, hdepths]
    · rw [coerceMembers, membersFromText, hread, hreads]
      rfl

end

variable {value : Value N}

theorem insertMember_of_before {key : Bytes} {members : List (Bytes × Value N)}
    (h : ∀ member ∈ members, before member.1 key = true) :
    insertMember key value members = members ++ [(key, value)] := by
  induction members with
  | nil => rfl
  | cons member members ih =>
    have hhead := h member mem_cons_self
    have hne : key ≠ member.1 := by
      rintro rfl
      rw [before_irrefl] at hhead
      cases hhead
    have hafter : ¬ before key member.1 = true := by
      rw [before_asymm hhead]
      exact Bool.false_ne_true
    rw [insertMember, if_neg hne, if_neg hafter,
      ih fun other hmem => h other (mem_cons_of_mem _ hmem), cons_append]

theorem foldl_insertMember {members map : List (Bytes × Value N)}
    (h : ((map ++ members).map Prod.fst).Pairwise fun a b => before a b = true) :
    members.foldl (fun map member => insertMember member.1 member.2 map) map = map ++ members := by
  induction members generalizing map with
  | nil => rw [append_nil]; rfl
  | cons member members ih =>
    have hsplit : map ++ member :: members = (map ++ [member]) ++ members := by simp
    have hbefore : ∀ other ∈ map, before other.1 member.1 = true := by
      intro other hmem
      rw [map_append, pairwise_append] at h
      exact h.2.2 other.1 (mem_map_of_mem hmem) member.1 mem_cons_self
    rw [hsplit] at h ⊢
    rw [foldl_cons, insertMember_of_before hbefore]
    exact ih h

theorem ofMembers_of_ordered {members : List (Bytes × Value N)}
    (h : (members.map Prod.fst).Pairwise fun a b => before a b = true) :
    ofMembers members = members := by
  have hnil : (([] ++ members).map Prod.fst).Pairwise fun a b => before a b = true := h
  exact foldl_insertMember hnil

mutual

theorem reread_of_valid : ∀ (v : Value N), v.All OrderedKeys → v.All ValidTexts → v.reread = v
  | .null, _, _ | .bool _, _, _ | .number _, _, _ => rfl
  | .string value, _, hvalid => by
    rw [Value.reread, coerce_of_valid hvalid]
  | .array items, hordered, hvalid => by
    rw [Value.reread, rereadItems_of_valid items hordered.2 hvalid.2]
  | .object members, hordered, hvalid => by
    rw [Value.reread, rereadMembers_of_valid members hordered.2 hvalid.2 hvalid.1,
      ofMembers_of_ordered hordered.1]

theorem rereadItems_of_valid : ∀ (items : List (Value N)), AllItems OrderedKeys items →
    AllItems ValidTexts items → rereadItems items = items
  | [], _, _ => rfl
  | item :: items, hordered, hvalid => by
    rw [rereadItems, reread_of_valid item hordered.1 hvalid.1,
      rereadItems_of_valid items hordered.2 hvalid.2]

theorem rereadMembers_of_valid : ∀ (members : List (Bytes × Value N)),
    AllMembers OrderedKeys members → AllMembers ValidTexts members →
    (∀ member ∈ members, valid member.1 = true) → rereadMembers members = members
  | [], _, _, _ => rfl
  | (key, value) :: members, hordered, hvalid, hkeys => by
    rw [rereadMembers, coerce_of_valid (hkeys _ mem_cons_self),
      reread_of_valid value hordered.1 hvalid.1,
      rereadMembers_of_valid members hordered.2 hvalid.2
        fun member hmem => hkeys member (mem_cons_of_mem _ hmem)]

end

theorem mem_insertMember {key : Bytes} {members : List (Bytes × Value N)}
    {member : Bytes × Value N} (h : member ∈ insertMember key value members) :
    member = (key, value) ∨ member ∈ members := by
  induction members with
  | nil => exact .inl (mem_singleton.mp h)
  | cons other members ih =>
    rw [insertMember] at h
    split at h
    · rcases mem_cons.mp h with rfl | h
      · exact .inl rfl
      · exact .inr (mem_cons_of_mem _ h)
    · split at h
      · rcases mem_cons.mp h with rfl | h
        · exact .inl rfl
        · exact .inr h
      · rcases mem_cons.mp h with rfl | h
        · exact .inr mem_cons_self
        · exact (ih h).imp_right (mem_cons_of_mem _)

theorem ordered_insertMember {key : Bytes} {members : List (Bytes × Value N)}
    (h : (members.map Prod.fst).Pairwise fun a b => before a b = true) :
    ((insertMember key value members).map Prod.fst).Pairwise fun a b => before a b = true := by
  induction members with
  | nil => exact pairwise_singleton _ _
  | cons other members ih =>
    obtain ⟨hall, htail⟩ := pairwise_cons.mp h
    rw [insertMember]
    split
    next heq =>
      subst heq
      exact pairwise_cons.mpr ⟨hall, htail⟩
    next hne =>
      split
      next hbefore =>
        refine pairwise_cons.mpr ⟨?_, h⟩
        intro name hname
        rcases mem_cons.mp hname with rfl | hname
        · exact hbefore
        · exact before_trans hbefore (hall name hname)
      next hafter =>
        have hbefore : before other.1 key = true :=
          (before_total (Ne.symm hne)).resolve_right hafter
        refine pairwise_cons.mpr ⟨?_, ih htail⟩
        intro name hname
        obtain ⟨member, hmem, rfl⟩ := mem_map.mp hname
        rcases mem_insertMember hmem with rfl | hmem
        · exact hbefore
        · exact hall member.1 (mem_map_of_mem hmem)

theorem allMembers_iff {p : Value N → Prop} {members : List (Bytes × Value N)} :
    AllMembers p members ↔ ∀ member ∈ members, member.2.All p := by
  induction members with
  | nil => exact ⟨fun _ _ h => absurd h not_mem_nil, fun _ => trivial⟩
  | cons member members ih => rw [AllMembers, ih, forall_mem_cons]

theorem foldl_insertMember_spec (rest map : List (Bytes × Value N))
    (hmap : (map.map Prod.fst).Pairwise fun a b => before a b = true) :
    ((rest.foldl (fun map member => insertMember member.1 member.2 map) map).map
        Prod.fst).Pairwise (fun a b => before a b = true) ∧
      ∀ member ∈ rest.foldl (fun map member => insertMember member.1 member.2 map) map,
        member ∈ map ∨ member ∈ rest := by
  induction rest generalizing map with
  | nil => exact ⟨hmap, fun member hmem => .inl hmem⟩
  | cons first rest ih =>
    obtain ⟨hordered, hmem⟩ := ih (insertMember first.1 first.2 map) (ordered_insertMember hmap)
    refine ⟨hordered, ?_⟩
    intro member hmember
    rcases hmem member hmember with h | h
    · rcases mem_insertMember h with rfl | h
      · exact .inr mem_cons_self
      · exact .inl h
    · exact .inr (mem_cons_of_mem _ h)

theorem ofMembers_spec (members : List (Bytes × Value N)) :
    ((ofMembers members).map Prod.fst).Pairwise (fun a b => before a b = true) ∧
      ∀ member ∈ ofMembers members, member ∈ members := by
  obtain ⟨hordered, hmem⟩ := foldl_insertMember_spec members [] List.Pairwise.nil
  exact ⟨hordered, fun member hmember => (hmem member hmember).resolve_left not_mem_nil⟩

mutual

theorem ordered_reread : ∀ (v : Value N), v.reread.All OrderedKeys
  | .null | .bool _ | .number _ | .string _ => trivial
  | .array items => ⟨trivial, ordered_rereadItems items⟩
  | .object members => by
    obtain ⟨hordered, hmem⟩ := ofMembers_spec (rereadMembers members)
    exact ⟨hordered, allMembers_iff.mpr fun member h =>
      ordered_rereadMembers members member (hmem member h)⟩

theorem ordered_rereadItems : ∀ (items : List (Value N)), AllItems OrderedKeys (rereadItems items)
  | [] => trivial
  | item :: items => ⟨ordered_reread item, ordered_rereadItems items⟩

theorem ordered_rereadMembers : ∀ (members : List (Bytes × Value N)),
    ∀ member ∈ rereadMembers members, member.2.All OrderedKeys
  | [], _, h => absurd h not_mem_nil
  | (key, value) :: members, member, h => by
    rcases mem_cons.mp h with rfl | h
    · exact ordered_reread value
    · exact ordered_rereadMembers members member h

end

mutual

theorem valid_reread : ∀ (v : Value N), v.reread.All ValidTexts
  | .null | .bool _ | .number _ => trivial
  | .string value => valid_coerce value
  | .array items => ⟨trivial, valid_rereadItems items⟩
  | .object members => by
    obtain ⟨-, hmem⟩ := ofMembers_spec (rereadMembers members)
    have hvalid := valid_rereadMembers members
    exact ⟨fun member h => (hvalid member (hmem member h)).1,
      allMembers_iff.mpr fun member h => (hvalid member (hmem member h)).2⟩

theorem valid_rereadItems : ∀ (items : List (Value N)), AllItems ValidTexts (rereadItems items)
  | [] => trivial
  | item :: items => ⟨valid_reread item, valid_rereadItems items⟩

theorem valid_rereadMembers : ∀ (members : List (Bytes × Value N)),
    ∀ member ∈ rereadMembers members, valid member.1 = true ∧ member.2.All ValidTexts
  | [], _, h => absurd h not_mem_nil
  | (key, value) :: members, member, h => by
    rcases mem_cons.mp h with rfl | h
    · exact ⟨valid_coerce key, valid_reread value⟩
    · exact valid_rereadMembers members member h

end

theorem membersToText_insertMember {format : N → Except String (List Char)} {key : Bytes}
    {value : Value N} {text : Value (List Char)} (hvalue : toText format value = .ok text)
    {map : List (Bytes × Value N)} {texts : List (Bytes × Value (List Char))}
    (hmap : membersToText format map = .ok texts) :
    membersToText format (insertMember key value map) = .ok (insertMember key text texts) := by
  induction map generalizing texts with
  | nil =>
    cases hmap
    exact bind_eq_ok.mpr ⟨text, hvalue, rfl⟩
  | cons member map ih =>
    obtain ⟨t, ht, hrest⟩ := bind_eq_ok.mp hmap
    obtain ⟨ts, hts, hrest⟩ := bind_eq_ok.mp hrest
    cases hrest
    rw [insertMember, insertMember]
    split
    · exact bind_eq_ok.mpr ⟨text, hvalue, bind_eq_ok.mpr ⟨ts, hts, rfl⟩⟩
    split
    · exact bind_eq_ok.mpr ⟨text, hvalue, bind_eq_ok.mpr ⟨_, hmap, rfl⟩⟩
    · exact bind_eq_ok.mpr ⟨t, ht, bind_eq_ok.mpr ⟨_, ih hts, rfl⟩⟩

theorem membersToText_foldl {format : N → Except String (List Char)}
    {members map : List (Bytes × Value N)} {texts textMap : List (Bytes × Value (List Char))}
    (hmembers : membersToText format members = .ok texts)
    (hmap : membersToText format map = .ok textMap) :
    membersToText format
        (members.foldl (fun map member => insertMember member.1 member.2 map) map) =
      .ok (texts.foldl (fun map member => insertMember member.1 member.2 map) textMap) := by
  induction members generalizing map texts textMap with
  | nil =>
    cases hmembers
    exact hmap
  | cons member members ih =>
    obtain ⟨t, ht, hrest⟩ := bind_eq_ok.mp hmembers
    obtain ⟨ts, hts, hrest⟩ := bind_eq_ok.mp hrest
    cases hrest
    rw [foldl_cons, foldl_cons]
    exact ih hts (membersToText_insertMember ht hmap)

mutual

theorem toText_reread {format : N → Except String (List Char)} : ∀ (v : Value N)
    {t : Value (List Char)}, toText format v = .ok t → toText format v.reread = .ok t.reread
  | .null, t, h | .bool value, t, h | .string value, t, h => by
    cases h
    rfl
  | .number n, t, h => by
    obtain ⟨literal, hliteral, rfl⟩ := map_eq_ok.mp h
    exact h
  | .array items, t, h => by
    obtain ⟨texts, htexts, rfl⟩ := map_eq_ok.mp h
    exact map_eq_ok.mpr ⟨_, itemsToText_reread items htexts, rfl⟩
  | .object members, t, h => by
    obtain ⟨texts, htexts, rfl⟩ := map_eq_ok.mp h
    exact map_eq_ok.mpr ⟨_, membersToText_foldl (membersToText_reread members htexts) rfl, rfl⟩

theorem itemsToText_reread {format : N → Except String (List Char)} : ∀ (items : List (Value N))
    {texts : List (Value (List Char))}, itemsToText format items = .ok texts →
      itemsToText format (rereadItems items) = .ok (rereadItems texts)
  | [], texts, h => by
    cases h
    rfl
  | item :: items, texts, h => by
    obtain ⟨t, ht, h⟩ := bind_eq_ok.mp h
    obtain ⟨ts, hts, h⟩ := bind_eq_ok.mp h
    cases h
    exact bind_eq_ok.mpr ⟨_, toText_reread item ht,
      bind_eq_ok.mpr ⟨_, itemsToText_reread items hts, rfl⟩⟩

theorem membersToText_reread {format : N → Except String (List Char)} :
    ∀ (members : List (Bytes × Value N)) {texts : List (Bytes × Value (List Char))},
      membersToText format members = .ok texts →
      membersToText format (rereadMembers members) = .ok (rereadMembers texts)
  | [], texts, h => by
    cases h
    rfl
  | (key, value) :: members, texts, h => by
    obtain ⟨t, ht, h⟩ := bind_eq_ok.mp h
    obtain ⟨ts, hts, h⟩ := bind_eq_ok.mp h
    cases h
    exact bind_eq_ok.mpr ⟨_, toText_reread value ht,
      bind_eq_ok.mpr ⟨_, membersToText_reread members hts, rfl⟩⟩

end

def size (text : List Char) : Nat := (encode text).length

@[simp]
theorem size_append (text rest : List Char) : size (text ++ rest) = size text + size rest := by
  rw [size, encode, flatMap_append, length_append]
  rfl

@[simp]
theorem size_cons (c : Char) (text : List Char) :
    size (c :: text) = (encodeChar c).length + size text := by
  rw [size, encode, flatMap_cons, length_append]
  rfl

theorem size_escape_le (unit : Option Char) :
    size (escape (some (unit.getD replacement))) ≤ size (escape unit) := by
  cases unit with
  | none => decide
  | some c => exact Nat.le_refl _

theorem size_quote_coerce (value : Bytes) : size (quote (coerce value)) ≤ size (quote value) := by
  have hunits : ∀ us : List (Option Char),
      size (((us.map fun c => c.getD replacement).map some).flatMap escape) ≤
        size (us.flatMap escape) := by
    intro us
    induction us with
    | nil => exact Nat.le_refl _
    | cons unit us ih =>
      have hunit := size_escape_le unit
      simp only [map_cons, flatMap_cons, size_append] at ih ⊢
      omega
  have h := hunits (units value)
  rw [quote, quote, coerce, units_encode, lossy]
  simp only [size_cons, size_append] at h ⊢
  omega

def memberSize (member : Bytes × Value (List Char)) : Nat :=
  size (quote member.1) + size (render member.2) + 2

def membersSize (members : List (Bytes × Value (List Char))) : Nat := (members.map memberSize).sum

theorem size_renderMembers (members : List (Bytes × Value (List Char))) :
    size (renderMembers members) = membersSize members + 1 := by
  have hascii : (encodeChar ',').length = 1 ∧ (encodeChar ':').length = 1 := by decide
  induction members with
  | nil => rfl
  | cons member members ih =>
    rw [renderMembers, membersSize, map_cons, sum_cons, memberSize, ← membersSize]
    simp only [size_cons, size_append, ih, hascii]
    omega

theorem size_object (members : List (Bytes × Value (List Char))) :
    size (render (.object members)) = max 1 (membersSize members) + 1 := by
  have hascii : (encodeChar '{').length = 1 ∧ (encodeChar ':').length = 1 := by decide
  cases members with
  | nil =>
    rw [render]
    decide
  | cons member members =>
    rw [render, membersSize, map_cons, sum_cons, memberSize, ← membersSize]
    simp only [size_cons, size_append, size_renderMembers, hascii]
    omega

theorem membersSize_insertMember (key : Bytes) (value : Value (List Char))
    (members : List (Bytes × Value (List Char))) :
    membersSize (insertMember key value members) ≤
      memberSize (key, value) + membersSize members := by
  induction members with
  | nil => exact Nat.le_refl _
  | cons other members ih =>
    obtain ⟨name, held⟩ := other
    rw [insertMember]
    simp only [membersSize, map_cons, sum_cons] at ih ⊢
    split
    · simp only [map_cons, sum_cons]
      omega
    split
    · simp only [map_cons, sum_cons]
      omega
    · simp only [map_cons, sum_cons]
      omega

theorem membersSize_ofMembers (members : List (Bytes × Value (List Char))) :
    membersSize (ofMembers members) ≤ membersSize members := by
  have hfold : ∀ rest map : List (Bytes × Value (List Char)),
      membersSize (rest.foldl (fun map member => insertMember member.1 member.2 map) map) ≤
        membersSize map + membersSize rest := by
    intro rest
    induction rest with
    | nil => exact fun map => Nat.le_refl _
    | cons member rest ih =>
      intro map
      obtain ⟨key, value⟩ := member
      have hinsert := membersSize_insertMember key value map
      have hrest := ih (insertMember key value map)
      rw [foldl_cons, membersSize, membersSize, membersSize, map_cons, sum_cons]
      simp only [membersSize] at hinsert hrest ⊢
      omega
  exact Nat.le_trans (hfold members []) (by rw [membersSize]; exact Nat.le_of_eq (Nat.zero_add _))

mutual

theorem size_reread_le : ∀ t : Value (List Char), size (render t.reread) ≤ size (render t)
  | .null | .bool true | .bool false | .number _ => Nat.le_refl _
  | .string value => by
    rw [Value.reread, render, render]
    exact size_quote_coerce value
  | .array [] => Nat.le_refl _
  | .array (item :: items) => by
    have hitem := size_reread_le item
    have hitems := size_rereadItems_le items
    rw [Value.reread, rereadItems, render, render]
    simp only [size_cons, size_append]
    omega
  | .object members => by
    have hmembers := membersSize_rereadMembers_le members
    have hmap := membersSize_ofMembers (rereadMembers members)
    rw [Value.reread, size_object, size_object]
    omega

theorem size_rereadItems_le : ∀ items : List (Value (List Char)),
    size (renderItems (rereadItems items)) ≤ size (renderItems items)
  | [] => Nat.le_refl _
  | item :: items => by
    have hitem := size_reread_le item
    have hitems := size_rereadItems_le items
    rw [rereadItems, renderItems, renderItems]
    simp only [size_cons, size_append]
    omega

theorem membersSize_rereadMembers_le : ∀ members : List (Bytes × Value (List Char)),
    membersSize (rereadMembers members) ≤ membersSize members
  | [] => Nat.le_refl _
  | (key, value) :: members => by
    have hkey := size_quote_coerce key
    have hvalue := size_reread_le value
    have hmembers := membersSize_rereadMembers_le members
    rw [rereadMembers, membersSize, membersSize, map_cons, map_cons, sum_cons,
      sum_cons, memberSize, memberSize]
    simp only [membersSize] at hmembers ⊢
    omega

end

mutual

variable {number : List Char → Option N}

theorem ordered_fromText : ∀ (t : Value (List Char)) {v : Value N},
    fromText number t = some v → v.All OrderedKeys
  | .null, v, h | .bool value, v, h | .string value, v, h => by
    cases h
    trivial
  | .number literal, v, h => by
    obtain ⟨n, -, rfl⟩ := Option.map_eq_some_iff.mp h
    trivial
  | .array items, v, h => by
    obtain ⟨values, hvalues, rfl⟩ := Option.map_eq_some_iff.mp h
    exact ⟨trivial, ordered_itemsFromText items hvalues⟩
  | .object members, v, h => by
    obtain ⟨values, hvalues, rfl⟩ := Option.map_eq_some_iff.mp h
    obtain ⟨hordered, hmem⟩ := ofMembers_spec values
    exact ⟨hordered, allMembers_iff.mpr fun member hmember =>
      ordered_membersFromText members hvalues member (hmem member hmember)⟩

theorem ordered_itemsFromText : ∀ (items : List (Value (List Char)))
    {values : List (Value N)}, itemsFromText number items = some values → AllItems OrderedKeys values
  | [], values, h => by
    cases h
    trivial
  | item :: items, values, h => by
    obtain ⟨v, hv, h⟩ := Option.bind_eq_some_iff.mp h
    obtain ⟨vs, hvs, h⟩ := Option.bind_eq_some_iff.mp h
    cases h
    exact ⟨ordered_fromText item hv, ordered_itemsFromText items hvs⟩

theorem ordered_membersFromText :
    ∀ (members : List (Bytes × Value (List Char))) {values : List (Bytes × Value N)},
      membersFromText number members = some values →
      ∀ member ∈ values, member.2.All OrderedKeys
  | [], values, h => by
    cases h
    exact fun member hmem => absurd hmem not_mem_nil
  | (key, value) :: members, values, h => by
    obtain ⟨v, hv, h⟩ := Option.bind_eq_some_iff.mp h
    obtain ⟨vs, hvs, h⟩ := Option.bind_eq_some_iff.mp h
    cases h
    intro member hmem
    rcases mem_cons.mp hmem with rfl | hmem
    · exact ordered_fromText value hv
    · exact ordered_membersFromText members hvs member hmem

end

structure Object (N : Type) where
  members : List (Bytes × Value N)
  ordered : (Value.object members).All OrderedKeys

namespace Object

def empty : Object N := ⟨[], List.Pairwise.nil, trivial⟩

def tree (o : Object N) : Value N := .object o.members

def merge (number : List Char → Option N) (o : Object N)
    (members : List (Bytes × Value (List Char))) : Option (Object N) :=
  match h : membersFromText number members with
  | none => none
  | some values => some
    { members := values.foldl (fun map member => insertMember member.1 member.2 map) o.members
      ordered := by
        obtain ⟨hordered, hmem⟩ := foldl_insertMember_spec values o.members o.ordered.1
        refine ⟨hordered, allMembers_iff.mpr fun member hmember => ?_⟩
        rcases hmem member hmember with hold | hnew
        · exact allMembers_iff.mp o.ordered.2 member hold
        · exact ordered_membersFromText members h member hnew }

def reread (o : Object N) : Object N := ⟨ofMembers (rereadMembers o.members), ordered_reread o.tree⟩

theorem reread_of_valid {o : Object N} (h : o.tree.All ValidTexts) : o.reread = o := by
  have htree := Json.reread_of_valid o.tree o.ordered h
  have hmembers : o.reread.members = o.members := by
    rw [tree, Value.reread, Value.object.injEq] at htree
    exact htree
  cases o
  rw [mk.injEq]
  exact hmembers

theorem merge_empty {number : List Char → Option N} {o : Object N}
    {members : List (Bytes × Value (List Char))}
    (h : membersFromText number members = some (rereadMembers o.members)) :
    empty.merge number members = some o.reread := by
  rw [merge]
  split
  next hnone =>
    rw [hnone] at h
    cases h
  next values hvalues =>
    rw [hvalues] at h
    cases h
    rfl

end Object

end Json
