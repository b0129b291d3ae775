import P2PNetcat.Protocol.Pairing
import Mathlib.Data.List.DropRight

/-!
# Tokens survive their text form

What `Validate` accepts does not depend on the order of the relay hints, and
`Decode` reads back what `Encode` wrote as long as the payload fits.
-/

namespace P2PNetcat.Pairing
open List ByteCodec Fallible GoTime GoText

variable {L : Libraries}

def HintOk (L : Libraries) (hint : L.Multiaddr) : Prop :=
  L.isNil hint = false ∧ (L.addrString hint).length ≤ 2048 ∧
    ∃ id, L.addrInfoFromP2pAddr hint = .ok id ∧ id ≠ []

theorem checkHints_ok_iff {hints : List L.Multiaddr} {seen : List Bytes} :
    checkHints L seen hints = .ok () ↔
      (∀ hint ∈ hints, HintOk L hint ∧ L.addrString hint ∉ seen) ∧
        (hints.map L.addrString).Nodup := by
  induction hints generalizing seen with
  | nil => simp [checkHints]
  | cons hint hints ih =>
    have hhead : checkHints L seen (hint :: hints) = .ok () ↔
        HintOk L hint ∧ L.addrString hint ∉ seen ∧
          checkHints L (L.addrString hint :: seen) hints = .ok () := by
      rw [checkHints, HintOk, ite_error_eq_ok, not_or, Bool.not_eq_true, Nat.not_lt]
      cases L.addrInfoFromP2pAddr hint with
      | error err => simp
      | ok id =>
        simp only [ite_error_eq_ok, Except.ok.injEq, exists_eq_left']
        tauto
    rw [hhead, ih]
    simp only [mem_cons, not_or, map_cons, nodup_cons, mem_map, not_exists,
      not_and, forall_eq_or_imp]
    constructor
    · rintro ⟨hok, hnew, hrest, hnodup⟩
      refine ⟨⟨⟨hok, hnew⟩, fun a ha => ⟨(hrest a ha).1, (hrest a ha).2.2⟩⟩, ?_, hnodup⟩
      intro a ha
      exact (hrest a ha).2.1
    · rintro ⟨⟨⟨hok, hnew⟩, hrest⟩, hdistinct, hnodup⟩
      exact ⟨hok, hnew, fun a ha => ⟨(hrest a ha).1, hdistinct a ha, (hrest a ha).2⟩, hnodup⟩

namespace Token
variable {t : Token L} {hints : List L.Multiaddr}

structure Sound (t : Token L) : Prop where
  version : t.version = tokenVersion
  peerID : ∃ id, L.decodeID (L.idString t.peerID) = .ok id
  service : t.service ≠ 0
  count : t.relayHints.length ≤ maxRelayHints
  hints : ∀ hint ∈ t.relayHints, HintOk L hint
  distinct : (t.relayHints.map L.addrString).Nodup
  expiry : t.expiresAt ≠ some 0

theorem validate_ok_iff {now : Time} :
    t.validate now = .ok () ↔ t.Sound ∧ ∀ expires, t.expiresAt = some expires →
      now.isZero = false → now.toUnix % 2 ^ 64 ≤ expires.toNat := by
  have hexpiry : checkExpiry t.expiresAt now = .ok () ↔ t.expiresAt ≠ some 0 ∧
      ∀ expires, t.expiresAt = some expires → now.isZero = false →
        now.toUnix % 2 ^ 64 ≤ expires.toNat := by
    cases t.expiresAt with
    | none => simp [checkExpiry]
    | some expires =>
      simp only [checkExpiry, ite_error_eq_ok, not_and, Bool.not_eq_true, Int.not_lt, and_true,
        ne_eq, Option.some.injEq, forall_eq']
  rw [validate, ite_error_eq_ok]
  cases hid : L.decodeID (L.idString t.peerID) with
  | error err =>
    constructor
    · rintro ⟨-, h⟩
      cases h
    · rintro ⟨hsound, -⟩
      obtain ⟨id, h⟩ := hsound.peerID
      rw [hid] at h
      cases h
  | ok id =>
    simp only [ite_error_eq_ok, bind_eq_ok, hexpiry]
    constructor
    · rintro ⟨hversion, hservice, hcount, _, hchecked, hnonzero, hclock⟩
      obtain ⟨hhints, hnodup⟩ := checkHints_ok_iff.mp hchecked
      exact ⟨⟨not_not.mp hversion, ⟨id, hid⟩, hservice, Nat.not_lt.mp hcount,
        fun hint h => (hhints hint h).1, hnodup, hnonzero⟩, hclock⟩
    · rintro ⟨hsound, hclock⟩
      have hchecked : checkHints L [] t.relayHints = .ok () := checkHints_ok_iff.mpr
        ⟨fun hint h => ⟨hsound.hints hint h, not_mem_nil⟩, hsound.distinct⟩
      exact ⟨not_not.mpr hsound.version, hsound.service, Nat.not_lt.mpr hsound.count, (), hchecked,
        hsound.expiry, hclock⟩

theorem Sound.validate_zero (h : t.Sound) : t.validate zeroTime = .ok () := by
  refine validate_ok_iff.mpr ⟨h, ?_⟩
  intro expires _ hzero
  cases hzero

def sorted (t : Token L) : Token L :=
  { t with relayHints := t.relayHints.insertionSort fun a b => L.addrString a ≤ L.addrString b }

theorem sorted_perm (t : Token L) : t.sorted.relayHints.Perm t.relayHints :=
  perm_insertionSort ..

theorem map_sorted (t : Token L) : t.sorted.relayHints.map L.addrString = t.hintTexts :=
  map_insertionSort _ _ _ _ fun _ _ _ _ => Iff.rfl

theorem hintTexts_perm (t : Token L) : t.hintTexts.Perm (t.relayHints.map L.addrString) :=
  perm_insertionSort ..

theorem hintTexts_eq {u : Token L} (h : t.relayHints.Perm u.relayHints) :
    t.hintTexts = u.hintTexts := by
  refine List.Perm.eq_of_pairwise (fun a b _ _ => List.le_antisymm)
    (pairwise_insertionSort ..) (pairwise_insertionSort ..) ?_
  exact t.hintTexts_perm.trans ((h.map _).trans u.hintTexts_perm.symm)

theorem Sound.of_perm (h : t.Sound)
    (hperm : hints.Perm t.relayHints) : Sound { t with relayHints := hints } where
  version := h.version
  peerID := h.peerID
  service := h.service
  count := hperm.length_eq ▸ h.count
  hints := fun hint hmem => h.hints hint (hperm.subset hmem)
  distinct := (hperm.map _).nodup_iff.mpr h.distinct
  expiry := h.expiry

def stringSize (n : Nat) : Nat := Cbor.headSize n + n

theorem stringSize_eq (n : Nat) : stringSize n = Cbor.headSize n + n := rfl

def payloadSize (t : Token L) : Nat :=
  1 + (1 + Cbor.headSize t.version.toNat) + (1 + stringSize (L.idString t.peerID).length) +
    (1 + Cbor.headSize t.service.toNat) + (1 + stringSize secretSize) +
    (1 + Cbor.headSize t.relayHints.length +
      (t.relayHints.map fun hint => stringSize (L.addrString hint).length).sum) +
    (t.expiresAt.elim 0 fun expires => 1 + Cbor.headSize expires.toNat)

theorem length_encodeItems_texts (texts : List Bytes) :
    (Cbor.encodeItems (texts.map .text)).length = (texts.map fun b => stringSize b.length).sum := by
  induction texts with
  | nil => rfl
  | cons text texts ih =>
    simp only [map_cons, Cbor.encodeItems, Cbor.encode, length_append, Cbor.length_head, ih,
      sum_cons, stringSize]

theorem length_payload (t : Token L) : t.payload.length = t.payloadSize := by
  have hcount : t.hintTexts.length = t.relayHints.length := by
    rw [t.hintTexts_perm.length_eq, length_map]
  have hsum : (t.hintTexts.map fun b => stringSize b.length).sum =
      (t.relayHints.map fun hint => stringSize (L.addrString hint).length).sum := by
    rw [(t.hintTexts_perm.map _).sum_nat, map_map]
    rfl
  rw [payload, item, Cbor.encode, length_append, Cbor.length_head, Cbor.length_uintPairs,
    Cbor.length_encodePairs_uint]
  cases hexpires : t.expiresAt with
  | none =>
    simp (disch := decide) only [fields, payloadSize, hexpires, Option.toList, map_nil,
      append_nil, map_cons, length_cons, length_nil, sum_cons, sum_nil,
      Cbor.encode, Cbor.length_head, length_append, length_map, length_encodeItems_texts,
      hsum, hcount, Option.elim, Cbor.headSize_of_lt, ← stringSize_eq, t.secret_length]
    omega
  | some expires =>
    simp (disch := decide) only [fields, payloadSize, hexpires, Option.toList, map_nil,
      cons_append, nil_append, map_cons, length_cons, length_nil,
      sum_cons, sum_nil, Cbor.encode, Cbor.length_head, length_append,
      length_map, length_encodeItems_texts, hsum, hcount, Option.elim, Cbor.headSize_of_lt,
      ← stringSize_eq, t.secret_length]
    omega

theorem length_le_of_mem (h : t.Sound) {text : Bytes} (hmem : text ∈ t.hintTexts) :
    text.length ≤ 2048 := by
  obtain ⟨hint, hhint, rfl⟩ := mem_map.mp (t.hintTexts_perm.subset hmem)
  exact (h.hints hint hhint).2.1

theorem length_hintTexts (t : Token L) : t.hintTexts.length = t.relayHints.length := by
  rw [t.hintTexts_perm.length_eq, length_map]

theorem forall_fields {p : Nat × Cbor.Item → Prop}
    (hversion : p (0, .uint t.version.toNat)) (hpeer : p (1, .text (L.idString t.peerID)))
    (hservice : p (2, .uint t.service.toNat)) (hsecret : p (3, .bytes t.secret))
    (hhints : p (4, .array (t.hintTexts.map .text)))
    (hexpiry : ∀ expires, t.expiresAt = some expires → p (5, .uint expires.toNat)) :
    ∀ field ∈ t.fields, p field := by
  intro field hmem
  simp only [fields, mem_append, mem_cons, not_mem_nil, or_false, mem_map,
    Option.mem_toList] at hmem
  rcases hmem with (rfl | rfl | rfl | rfl | rfl) | ⟨expires, hexpires, rfl⟩
  · exact hversion
  · exact hpeer
  · exact hservice
  · exact hsecret
  · exact hhints
  · exact hexpiry expires hexpires

theorem length_fields (t : Token L) : t.fields.length ≤ 6 := by
  rw [fields]
  cases t.expiresAt <;> simp

theorem bounded_item (h : t.Sound) (hsize : t.payloadSize ≤ maxTokenSize) :
    Cbor.Bounded t.item := by
  have hpeer : (L.idString t.peerID).length < 2 ^ 64 := by
    rw [payloadSize, stringSize, maxTokenSize] at hsize
    omega
  have hcount := h.count
  rw [← t.length_hintTexts, maxRelayHints] at hcount
  have hhints : Cbor.Bounded (.array (t.hintTexts.map .text)) := by
    refine ⟨by rw [length_map]; omega, Cbor.boundedItems_texts ?_⟩
    intro text hmem
    have := length_le_of_mem h hmem
    omega
  have hsecret : t.secret.length < 2 ^ 64 := by
    rw [t.secret_length, secretSize]
    decide
  constructor
  · rw [Cbor.length_uintPairs]
    exact Nat.lt_of_le_of_lt t.length_fields (by decide)
  · refine Cbor.boundedPairs_uint (forall_fields ?_ ?_ ?_ ?_ ?_ ?_)
    · exact ⟨by omega, t.version.toNat_lt⟩
    · exact ⟨by omega, hpeer⟩
    · exact ⟨by omega, Nat.lt_trans t.service.toNat_lt (by decide)⟩
    · exact ⟨by omega, hsecret⟩
    · exact ⟨by omega, hhints⟩
    · intro expires _
      exact ⟨by omega, expires.toNat_lt⟩

theorem within_item (h : t.Sound) :
    Cbor.within limits limits.maxNestedLevels t.item = true := by
  have hcount := h.count
  rw [← t.length_hintTexts, maxRelayHints] at hcount
  have hlength : (Cbor.uintPairs t.fields).length ≤ limits.maxMapPairs := by
    rw [Cbor.length_uintPairs]
    exact Nat.le_trans t.length_fields (by decide)
  have harray : Cbor.within limits 15 (.array (t.hintTexts.map .text)) = true := by
    rw [Cbor.within, Cbor.withinItems_texts, Bool.and_true, decide_eq_true_eq, length_map]
    exact Nat.le_trans hcount (by decide)
  have hpairs : Cbor.withinPairs limits 15 (Cbor.uintPairs t.fields) = true :=
    Cbor.withinPairs_uint (forall_fields rfl rfl rfl rfl harray fun _ _ => rfl)
  have hlevels : limits.maxNestedLevels = 15 + 1 := rfl
  rw [item, hlevels, Cbor.within, hpairs, Bool.and_true, decide_eq_true_eq]
  exact hlength

theorem textsValid_item (hL : L.Lawful) (h : t.Sound) :
    Cbor.textsValid t.item = t.hintTexts.all Utf8.valid := by
  obtain ⟨id, hid⟩ := h.peerID
  have hpeer := hL.idString_valid hid
  rw [item, Cbor.textsValid, Cbor.pairsValid_uint, fields]
  cases t.expiresAt with
  | none | some expires => simp [Cbor.textsValid, Cbor.itemsValid_texts, hpeer]

/-- The field keys are distinct and known, and only the last may be missing. -/
theorem decodeFields_payload (hL : L.Lawful) (h : t.Sound) (hsize : t.payloadSize ≤ maxTokenSize) :
    (decodeFields L t.payload).toOption =
      if t.hintTexts.all Utf8.valid then some t.fields else none := by
  have hnodup : (t.fields.map Prod.fst).Nodup := by
    rw [fields]
    cases t.expiresAt <;> simp
  have hunknown : t.fields.find? (fun field => field.1 > 5) = none := by
    rw [find?_eq_none]
    exact forall_fields (by simp) (by simp) (by simp) (by simp) (by simp) (by simp)
  have hmissing : [0, 1, 2, 3, 4].find? (fun key => (t.fields.lookup key).isNone) = none := by
    rfl
  rw [decodeFields, payload, Cbor.unmarshal_encode (bounded_item h hsize) (within_item h),
    textsValid_item hL h]
  cases t.hintTexts.all Utf8.valid
  · rfl
  simp only [if_true, Option.bind_some, item, Cbor.asUintMap_uints t.fields hnodup, hunknown,
    hmissing]
  rfl

theorem parseHints_addrString (hL : L.Lawful) (h : ∀ hint ∈ hints, L.isNil hint = false) :
    parseHints L (hints.map L.addrString) = .ok hints := by
  induction hints with
  | nil => rfl
  | cons hint hints ih =>
    have hhead := hL.newMultiaddr_addrString (h hint mem_cons_self)
    have htail := ih fun other hmem => h other (mem_cons_of_mem _ hmem)
    rw [map_cons, parseHints, hhead, htail]
    rfl

theorem decodeToken_fields (hL : L.Lawful) (h : t.Sound) :
    decodeToken L t.fields = .ok t.sorted := by
  obtain ⟨id, hid⟩ := h.peerID
  have hpeer := hL.decodeID_idString hid
  have hhints : parseHints L t.hintTexts = .ok t.sorted.relayHints := by
    rw [← t.map_sorted]
    refine parseHints_addrString hL ?_
    intro hint hmem
    exact (h.hints hint (t.sorted_perm.subset hmem)).1
  have hservice : ¬ (t.service.toNat = 0 ∨ t.service.toNat > 65535) := by
    have := t.service.toNat_lt
    have hne : t.service.toNat ≠ 0 := fun heq => h.service (UInt16.toNat_inj.mp heq)
    omega
  have hcount : ¬ t.hintTexts.length > maxRelayHints := by
    rw [t.length_hintTexts]
    exact Nat.not_lt.mpr h.count
  have htexts : unmarshalField L (Cbor.asList Cbor.asText) t.fields 4 = .ok t.hintTexts := by
    have hlookup : (t.fields.lookup 4).getD .null = .array (t.hintTexts.map .text) := rfl
    simp only [unmarshalField, hlookup, Cbor.asList_texts]
  have hexpiry : decodeExpiry L t.fields = .ok t.expiresAt := by
    have hlookup : t.fields.lookup 5 = t.expiresAt.map fun expires => .uint expires.toNat := by
      rw [fields]
      cases t.expiresAt <;> rfl
    rw [decodeExpiry, unmarshalField, hlookup]
    cases t.expiresAt with
    | none => rfl
    | some expires =>
      exact congrArg (fun e : UInt64 => Except.ok (some e)) (UInt64.ofNat_toNat (x := expires))
  have hversion : unmarshalField L Cbor.asUint t.fields 0 = .ok t.version.toNat := rfl
  have hid' : unmarshalField L Cbor.asText t.fields 1 = .ok (L.idString t.peerID) := rfl
  have hport : unmarshalField L Cbor.asUint t.fields 2 = .ok t.service.toNat := rfl
  have hsecret : unmarshalField L Cbor.asBytes t.fields 3 = .ok t.secret := rfl
  simp only [decodeToken, hversion, hid', hport, hsecret, htexts, hid, hhints, hexpiry, orError, bind,
    Except.bind, if_neg hservice, if_neg hcount, dif_pos t.secret_length, hpeer]
  rw [sorted]
  congr 2
  · exact UInt64.ofNat_toNat
  · exact UInt16.ofNat_toNat

theorem payload_perm (hperm : hints.Perm t.relayHints) :
    payload { t with relayHints := hints } = t.payload := by
  have htexts : hintTexts { t with relayHints := hints } = t.hintTexts := hintTexts_eq hperm
  rw [payload, payload, item, item, fields, fields, htexts]

theorem Sound.encode (h : t.Sound) :
    t.encode = .ok (tokenPrefix ++ Base64Url.encode t.payload) := by
  rw [Token.encode, h.validate_zero]
  rfl

end Token

theorem graphic_encode {payload : Bytes} {c : Char} (h : c ∈ Base64Url.encode payload) :
    32 < c.toNat ∧ c.toNat < 127 :=
  Base64Url.graphic_of_value (Base64Url.value_of_encode payload c h)

theorem trimSpace_tokenText (payload : Bytes) :
    trimSpace (tokenPrefix ++ Base64Url.encode payload) =
      tokenPrefix ++ Base64Url.encode payload := by
  refine trimSpace_of_graphic ?_
  intro c hc
  rcases mem_append.mp hc with hc | hc
  · have hall : tokenPrefix.all (fun c => 32 < c.toNat && c.toNat < 127) = true := rfl
    simpa using all_eq_true.mp hall c hc
  · exact graphic_encode hc

theorem filter_isNewline_encode (payload : Bytes) :
    (Base64Url.encode payload).filter (fun c => !isNewline c) = Base64Url.encode payload := by
  rw [filter_eq_self]
  intro c hc
  have hc := graphic_encode hc
  have hlf : c ≠ '\n' := by
    rintro rfl
    exact absurd hc.1 (by decide)
  have hcr : c ≠ '\r' := by
    rintro rfl
    exact absurd hc.1 (by decide)
  simp [isNewline, hlf, hcr]

theorem decodePayload_encode (L : Libraries) (payload : Bytes) :
    decodePayload L (tokenPrefix ++ Base64Url.encode payload) =
      if payload.length = 0 ∨ payload.length > maxTokenSize then
        .error ("pairing token must contain 1.." ++ toString maxTokenSize ++ " bytes")
      else .ok payload := by
  have hsplit : tokenPrefix.isPrefixOf? (tokenPrefix ++ Base64Url.encode payload) =
      some (Base64Url.encode payload) :=
    isPrefixOf?_eq_some_iff_append_eq.mpr rfl
  simp only [decodePayload, trimSpace_tokenText, hsplit, filter_isNewline_encode,
    Base64Url.decode_encode]

namespace Token
variable {t : Token L}

def Fits (t : Token L) : Prop :=
  t.payloadSize ≤ maxTokenSize ∧ ∀ hint ∈ t.relayHints, Utf8.valid (L.addrString hint) = true

/-- `Encode` succeeds, and `Decode` of its text gives the token back with its hints sorted. -/
def Survives (t : Token L) : Prop :=
  ∃ text u, t.encode = .ok text ∧ decode L text = .ok u ∧ u.version = t.version ∧
    u.peerID = t.peerID ∧ u.service = t.service ∧ u.secret = t.secret ∧
    u.expiresAt = t.expiresAt ∧ u.relayHints.Perm t.relayHints ∧
    u.relayHints.Pairwise fun a b => L.addrString a ≤ L.addrString b

def Accepted (t : Token L) : Prop :=
  (∃ now, t.validate now = .ok ()) ∨ ∃ peerID service hints expiresAt random now,
    new peerID service hints expiresAt random now = .ok t

theorem Accepted.sound (h : t.Accepted) : t.Sound := by
  rcases h with ⟨now, h⟩ | ⟨peerID, service, hints, expiresAt, random, now, h⟩
  · exact (validate_ok_iff.mp h).1
  simp only [new, ite_error_eq_ok] at h
  cases random with
  | error err => cases h.2
  | ok secret =>
    obtain ⟨_, hvalid, htoken⟩ := bind_eq_ok.mp h.2
    cases htoken
    exact (validate_ok_iff.mp hvalid).1

theorem all_valid_iff : t.hintTexts.all Utf8.valid = true ↔
    ∀ hint ∈ t.relayHints, Utf8.valid (L.addrString hint) = true := by
  rw [t.hintTexts_perm.all_eq, all_eq_true, forall_mem_map]

theorem Sound.decode_encode (hL : L.Lawful) (h : t.Sound) (hfits : t.Fits) :
    decode L (tokenPrefix ++ Base64Url.encode t.payload) = .ok t.sorted := by
  have hsize : ¬ (t.payload.length = 0 ∨ t.payload.length > maxTokenSize) := by
    rw [t.length_payload]
    have hpos : 0 < t.payloadSize := by
      rw [payloadSize]
      omega
    have := hfits.1
    omega
  have hfields : decodeFields L t.payload = .ok t.fields := by
    have hread := decodeFields_payload hL h hfits.1
    rw [if_pos (all_valid_iff.mpr hfits.2)] at hread
    cases hresult : decodeFields L t.payload with
    | error err =>
      rw [hresult] at hread
      cases hread
    | ok raw =>
      rw [hresult] at hread
      exact congrArg Except.ok (Option.some.inj hread)
  have hsorted : t.sorted.Sound := h.of_perm t.sorted_perm
  have hpayload : t.sorted.payload = t.payload := payload_perm t.sorted_perm
  simp only [decode, decodePayload_encode, if_neg hsize, hfields, decodeToken_fields hL h,
    hsorted.validate_zero, hsorted.encode, hpayload, bind, Except.bind, ne_eq, not_true_eq_false,
    if_false]

theorem Sound.fits_of_decode (hL : L.Lawful) {u : Token L} (h : t.Sound)
    (hdecode : decode L (tokenPrefix ++ Base64Url.encode t.payload) = .ok u) : t.Fits := by
  obtain ⟨payload, hpayload, hdecode⟩ := bind_eq_ok.mp hdecode
  rw [decodePayload_encode, ite_error_eq_ok] at hpayload
  obtain ⟨hsize, heq⟩ := hpayload
  cases heq
  have hfits : t.payloadSize ≤ maxTokenSize := by
    rw [← t.length_payload]
    omega
  refine ⟨hfits, all_valid_iff.mp ?_⟩
  obtain ⟨raw, hraw, -⟩ := bind_eq_ok.mp hdecode
  have hread := decodeFields_payload hL h hfits
  rw [hraw] at hread
  by_contra hinvalid
  rw [if_neg hinvalid] at hread
  cases hread

theorem survives_iff (hL : L.Lawful) (h : t.Sound) : t.Survives ↔ t.Fits := by
  constructor
  · rintro ⟨text, u, htext, hdecode, -⟩
    rw [h.encode] at htext
    cases htext
    exact h.fits_of_decode hL hdecode
  · intro hfits
    refine ⟨_, t.sorted, h.encode, h.decode_encode hL hfits, rfl, rfl, rfl, rfl, rfl,
      t.sorted_perm, ?_⟩
    have hsorted : t.hintTexts.Pairwise (· ≤ ·) := pairwise_insertionSort ..
    rw [← t.map_sorted] at hsorted
    exact pairwise_map.mp hsorted

/-- A token that was accepted survives its text form exactly when it fits, and its text never
depends on the order of the relay hints. -/
theorem accepted_token_survives_iff (hL : L.Lawful) {t : Token L} (h : t.Accepted) :
    (t.Survives ↔ t.Fits) ∧ ∀ hints, hints.Perm t.relayHints →
      encode { t with relayHints := hints } = t.encode := by
  refine ⟨survives_iff hL h.sound, ?_⟩
  intro hints hperm
  rw [(h.sound.of_perm hperm).encode, h.sound.encode, payload_perm hperm]

end Token

def plainID (text : Bytes) : Except String PeerID :=
  if text ≠ [] ∧ text.all fun b => (charOf b).isAlphanum && b < 0x80 then .ok text
  else .error "invalid peer ID"

def plainLibraries : Libraries where
  Multiaddr := Bytes
  isNil := fun _ => false
  addrString := fun a => byteOf '/' :: a
  newMultiaddr
    | b :: a => if b = byteOf '/' then .ok a else .error "must begin with /"
    | [] => .error "empty multiaddr"
  addrInfoFromP2pAddr a :=
    if (ascii "/p2p/").isSuffixOf (byteOf '/' :: a.rdropWhile (· ≠ byteOf '/')) then
      plainID (a.rtakeWhile (· ≠ byteOf '/'))
    else .error "invalid p2p multiaddr"
  idString := fun id => id
  decodeID := plainID
  base64Error := fun _ => "illegal base64 data"
  cborError := fun _ => "cbor: unexpected input"

theorem plainID_ok {text id : Bytes} (h : plainID text = .ok id) :
    id = text ∧ text ≠ [] ∧ ∀ b ∈ text, (charOf b).isAlphanum = true ∧ b < 0x80 := by
  rw [plainID] at h
  split at h
  next htext =>
    refine ⟨(Except.ok.inj h).symm, htext.1, ?_⟩
    intro b hb
    have hall := all_eq_true.mp htext.2 b hb
    rw [Bool.and_eq_true, decide_eq_true_eq] at hall
    exact hall
  · cases h

theorem plainLibraries_lawful : plainLibraries.Lawful where
  decodeID_idString h := (plainID_ok h).1
  idString_valid h := Utf8.valid_of_ascii fun b hb => ((plainID_ok h).2.2 b hb).2
  newMultiaddr_addrString := by
    intro a _
    rfl

namespace Token

def forRelays (names : List Bytes) : Token plainLibraries where
  version := 1
  peerID := ascii "12D3KooWQ3uxpHgjDKE6vGmvzKS8RPbxUDLwJ7XCLaD6YXdUfbR9"
  service := 8080
  secret := replicate 32 7
  relayHints := names.map fun name => ascii "dns4/" ++ name ++
    ascii "/p2p/12D3KooWEqeQRAJ61HSv9yMPk8yzjke7NxmTFcvFt4GzwXxzVjXW"
  expiresAt := some 1900000000
  secret_length := rfl

theorem accepted_token_survives_iff_example :
    (forRelays [ascii "b", ascii "a"]).Accepted ∧ (forRelays [ascii "b", ascii "a"]).Survives ∧
    ∀ hints, hints.Perm (forRelays [ascii "b", ascii "a"]).relayHints →
      encode { forRelays [ascii "b", ascii "a"] with relayHints := hints } =
        (forRelays [ascii "b", ascii "a"]).encode := by
  have haccepted : (forRelays [ascii "b", ascii "a"]).Accepted :=
    .inl ⟨zeroTime, by decide +kernel⟩
  obtain ⟨hiff, hperm⟩ := accepted_token_survives_iff plainLibraries_lawful haccepted
  exact ⟨haccepted, hiff.mpr ⟨by decide +kernel, by decide +kernel⟩, hperm⟩

def longHints : List Bytes :=
  (range 9).map fun i => (97 + i).toUInt8 :: replicate 1984 (byteOf 'x')

theorem long_token_lost : (forRelays longHints).Accepted ∧
    (∃ text, (forRelays longHints).encode = .ok text) ∧ ¬ (forRelays longHints).Survives := by
  have hvalid : (forRelays longHints).validate zeroTime = .ok () := by
    decide +kernel
  have hsound := (validate_ok_iff.mp hvalid).1
  refine ⟨.inl ⟨zeroTime, hvalid⟩, ⟨_, hsound.encode⟩, ?_⟩
  rw [survives_iff plainLibraries_lawful hsound]
  intro hfits
  have hlong : maxTokenSize < (forRelays longHints).payloadSize := by
    decide +kernel
  exact absurd hfits.1 (Nat.not_le.mpr hlong)

end Token

end P2PNetcat.Pairing
