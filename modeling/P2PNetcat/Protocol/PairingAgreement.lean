import P2PNetcat.Protocol.PairingSpelling

/-!
# One token format in two languages

What `decodePairingToken` makes of the fields of a payload, and on which texts
it agrees with `Decode`.
-/

namespace P2PNetcat.Pairing
open ByteCodec Fallible GoText Script Trim
variable {value : Option Cbor.Item}

variable {L : Libraries} {J : ScriptLibraries L}

/-- The texts of PeerIds and of multiaddrs that end in one have no white space around them, and
such a multiaddr has a `p2p` component. -/
structure ScriptLibraries.Lawful (J : ScriptLibraries L) : Prop where
  trim_idString : ∀ {id other}, L.decodeID (L.idString id) = .ok other →
    trim (ofUtf8 (L.idString id)) = ofUtf8 (L.idString id)
  trim_addrString : ∀ {a}, HintOk L a → trim (ofUtf8 (L.addrString a)) = ofUtf8 (L.addrString a)
  addrString_ne_nil : ∀ {a}, HintOk L a → L.addrString a ≠ []
  hasP2p_of_hintOk : ∀ {a}, HintOk L a → J.hasP2p a = true

theorem decodePairingToken_ok_iff {x : List Char} {j : ScriptToken} :
    decodePairingToken J x = .ok j ↔ ∃ payload fields, ScriptSpelling x payload ∧
      ¬ (payload.length = 0 ∨ payload.length > maxTokenSize) ∧
      Written J.toEngine 5 payload fields ∧ normalizePairingToken J fields = .ok j := by
  have htoken : ∀ payload, scriptToken J payload = .ok j ↔ ∃ fields,
      Written J.toEngine 5 payload fields ∧ normalizePairingToken J fields = .ok j := by
    intro payload
    have hassoc : scriptToken J payload = (decodeMap J.toEngine payloadErrors payload >>=
        rejectUnknownKeys J.toEngine 5 "pairing token") >>= normalizePairingToken J := by
      rw [bind_assoc]
      rfl
    rw [hassoc, bind_eq_ok]
    simp only [readFields_ok_iff (show 5 < 24 by decide)]
  rw [decodePairingToken, bind_eq_ok]
  simp only [htoken, scriptPayload_ok_iff, and_assoc, exists_and_left]

def ReadableHint (J : ScriptLibraries L) (item : Cbor.Item) : Prop :=
  let hint := trim (string J.toEngine (some item))
  0 < length hint ∧ length hint ≤ 2048 ∧
    ∃ address, L.newMultiaddr (Utf8.encode hint) = .ok address ∧ J.hasP2p address = true

structure Readable (J : ScriptLibraries L) (fields : List (Nat × Cbor.Item)) : Prop where
  version : number J.toEngine (fields.lookup 0) = some 1
  peerId : ∃ id, L.decodeID (Utf8.encode (trim (string J.toEngine (fields.lookup 1)))) = .ok id
  service : ∃ n, number J.toEngine (fields.lookup 2) = some n ∧ 1 ≤ n ∧ n ≤ 65535
  secret : ∃ secret, fields.lookup 3 = some (.bytes secret) ∧ secret.length = secretSize
  relayHints : isNullish (fields.lookup 4) = true ∨ ∃ items, fields.lookup 4 = some (.array items) ∧
    items.length ≤ maxRelayHints ∧ ∀ item ∈ items, ReadableHint J item
  expiresAt : isNullish (fields.lookup 5) = true ∨
    ∃ n, number J.toEngine (fields.lookup 5) = some n ∧ 1 ≤ n

theorem normalizeRelayHint_isOk_iff {item : Cbor.Item} :
    (∃ hint, normalizeRelayHint J item = .ok hint) ↔ ReadableHint J item := by
  simp only [normalizeRelayHint, ReadableHint, ite_error_eq_ok, exists_and_left]
  generalize trim (string J.toEngine (some item)) = hint
  have hsize : ¬ (length hint = 0 ∨ length hint > 2048) ↔ 0 < length hint ∧ length hint ≤ 2048 := by
    omega
  rw [hsize, and_assoc]
  cases L.newMultiaddr (Utf8.encode hint) with
  | error reason => simp
  | ok address =>
    by_cases hp : J.hasP2p address = true
    · simp [hp]
    · simp [hp]

theorem normalizeRelayHints_isOk_iff :
    (∃ hints, normalizeRelayHints J value = .ok hints) ↔ isNullish value = true ∨
      ∃ items, value = some (.array items) ∧ items.length ≤ maxRelayHints ∧
        ∀ item ∈ items, ReadableHint J item := by
  rw [normalizeRelayHints.eq_def]
  split
  next hnullish =>
    exact ⟨fun _ => .inl hnullish, fun _ => ⟨[], rfl⟩⟩
  rename_i hpresent
  split
  next items =>
    have hmap : (∃ hints, items.mapM (normalizeRelayHint J) = .ok hints) ↔
        ∀ item ∈ items, ReadableHint J item := by
      simp only [mapM_isOk_iff, normalizeRelayHint_isOk_iff]
    simp only [ite_error_eq_ok, bind_eq_ok, Except.ok.injEq, Option.some.injEq,
      Cbor.Item.array.injEq, exists_and_left, exists_eq_left', Nat.not_lt, gt_iff_lt, ← hmap,
      isNullish, Bool.false_eq_true, false_or]
    constructor
    · rintro ⟨hcount, _, hints, hhints, -⟩
      exact ⟨hcount, hints, hhints⟩
    · rintro ⟨hcount, hints, hhints⟩
      exact ⟨hcount, _, hints, hhints, rfl⟩
  next hother =>
    constructor
    · rintro ⟨_, h⟩
      cases h
    · rintro (h | ⟨items, rfl, -⟩)
      · exact absurd h hpresent
      · exact absurd rfl (hother items)

theorem normalizeExpiration_isOk_iff :
    (∃ expiresAt, normalizeExpiration J value = .ok expiresAt) ↔ isNullish value = true ∨
      ∃ n, number J.toEngine value = some n ∧ 1 ≤ n := by
  rw [normalizeExpiration, safeInteger]
  split
  next hnullish =>
    exact ⟨fun _ => .inl hnullish, fun _ => ⟨none, rfl⟩⟩
  rename_i hpresent
  cases number J.toEngine value with
  | none => simp [bind, Except.bind, hpresent]
  | some n =>
    simp [bind, Except.bind, hpresent, ite_error_eq_ok]

theorem safeInteger_ok_iff {label : String} {n : Int} :
    safeInteger J value label = .ok n ↔ number J.toEngine value = some n := by
  rw [safeInteger]
  cases number J.toEngine value with
  | none | some m => simp

theorem normalizePeerId_isOk_iff :
    (∃ peerId, normalizePeerId J value = .ok peerId) ↔
      ∃ id, L.decodeID (Utf8.encode (trim (string J.toEngine value))) = .ok id := by
  rw [normalizePeerId]
  cases L.decodeID (Utf8.encode (trim (string J.toEngine value))) with
  | error err | ok id => simp

theorem normalizeService_ok_iff {n : Int} :
    normalizeService J value = .ok n ↔
      number J.toEngine value = some n ∧ 1 ≤ n ∧ n ≤ 65535 := by
  rw [normalizeService]
  cases number J.toEngine value with
  | none => simp
  | some m =>
    rw [ite_error_eq_ok, Except.ok.injEq, Option.some.injEq]
    constructor
    · rintro ⟨hrange, rfl⟩
      exact ⟨rfl, by omega⟩
    · rintro ⟨rfl, hrange⟩
      exact ⟨by omega, rfl⟩

theorem binaryData_ok_iff {label : String} {bytes : Bytes} :
    binaryData value label = .ok bytes ↔ value = some (.bytes bytes) := by
  rw [binaryData.eq_def]
  split
  · simp
  rename_i hother
  constructor
  · intro h
    cases h
  · intro h
    exact absurd h (hother bytes)

theorem normalizePairingToken_isOk_iff {fields : List (Nat × Cbor.Item)} :
    (∃ j, normalizePairingToken J fields = .ok j) ↔ Readable J fields := by
  constructor
  · rintro ⟨j, h⟩
    obtain ⟨version, hversion, h⟩ := bind_eq_ok.mp h
    simp only [bind_eq_ok, ite_error_eq_ok] at h
    obtain ⟨hone, peerId, hpeer, service, hservice, secret, hsecret, hlength, hints, hhints,
      expiresAt, hexpiry, h⟩ := h
    obtain rfl := not_not.mp hone
    exact
      { version := safeInteger_ok_iff.mp hversion
        peerId := normalizePeerId_isOk_iff.mp ⟨peerId, hpeer⟩
        service := ⟨service, normalizeService_ok_iff.mp hservice⟩
        secret := ⟨secret, binaryData_ok_iff.mp hsecret, not_not.mp hlength⟩
        relayHints := normalizeRelayHints_isOk_iff.mp ⟨hints, hhints⟩
        expiresAt := normalizeExpiration_isOk_iff.mp ⟨expiresAt, hexpiry⟩ }
  · intro h
    obtain ⟨peerId, hpeer⟩ := normalizePeerId_isOk_iff.mpr h.peerId
    obtain ⟨service, hservice⟩ := h.service
    obtain ⟨secret, hsecret, hlength⟩ := h.secret
    obtain ⟨hints, hhints⟩ := normalizeRelayHints_isOk_iff.mpr h.relayHints
    obtain ⟨expiresAt, hexpiry⟩ := normalizeExpiration_isOk_iff.mpr h.expiresAt
    refine ⟨⟨1, peerId, service, secret, hints, expiresAt⟩, ?_⟩
    rw [normalizePairingToken, safeInteger_ok_iff.mpr h.version, hpeer,
      normalizeService_ok_iff.mpr hservice, binaryData_ok_iff.mpr hsecret, hhints, hexpiry]
    simp only [bind, Except.bind, hlength, ne_eq, not_true_eq_false, if_false]

namespace Token
variable {t : Token L}

theorem Documented.written (hL : L.Lawful) (h : t.Documented) (E : Engine) :
    Written E 5 t.payload t.fields where
  decoded := by
    rw [payload, Cbor.decode_encode (bounded_item h.sound h.fits.1), textsValid_item hL h.sound,
      if_pos (all_valid_iff.mpr h.fits.2), item]
  encoded := rfl
  ordered := by
    rw [fields]
    cases t.expiresAt <;> simp
  known := forall_fields (by simp) (by simp) (by simp) (by simp) (by simp) (by simp)
  settled := by
    refine forall_fields rfl rfl rfl rfl ?_ fun _ _ => rfl
    rw [deterministic]
    exact deterministicItems_texts _

def inScript (t : Token L) : ScriptToken where
  version := t.version.toNat
  peerId := ofUtf8 (L.idString t.peerID)
  service := t.service.toNat
  secret := t.secret
  relayHints := t.relayHints.map fun hint => ofUtf8 (L.addrString hint)
  expiresAt := t.expiresAt.map fun expires => (expires.toNat : Int)

theorem normalizeRelayHint_addrString (hL : L.Lawful) (hJ : J.Lawful) {hint : L.Multiaddr}
    (hok : HintOk L hint) (hvalid : Utf8.valid (L.addrString hint) = true) :
    normalizeRelayHint J (.text (L.addrString hint)) = .ok (ofUtf8 (L.addrString hint)) := by
  have htext : trim (string J.toEngine (some (.text (L.addrString hint)))) =
      ofUtf8 (L.addrString hint) := hJ.trim_addrString hok
  have hpos := length_pos (ofUtf8_ne_nil hvalid (hJ.addrString_ne_nil hok))
  have hle := Nat.le_trans (length_ofUtf8_le hvalid) hok.2.1
  have hsize : ¬ (length (ofUtf8 (L.addrString hint)) = 0 ∨
      length (ofUtf8 (L.addrString hint)) > 2048) := by
    omega
  simp only [normalizeRelayHint, htext, if_neg hsize, encode_ofUtf8 hvalid,
    hL.newMultiaddr_addrString hok.1, hJ.hasP2p_of_hintOk hok, if_true]

theorem Documented.hintTexts_eq (h : t.Documented) :
    t.hintTexts = t.relayHints.map L.addrString := by
  rw [← t.map_sorted, h.sorted_eq]

/-- The script orders the hints anew, and has no numbers beyond the safe ones. -/
theorem Documented.normalize_fields (hL : L.Lawful) (hJ : J.Lawful) (h : t.Documented)
    [hdecide : Decidable (∀ expires ∈ t.expiresAt, expires.toNat ≤ maxSafeInteger)] :
    (normalizePairingToken J t.fields).toOption =
      if ∀ expires ∈ t.expiresAt, expires.toNat ≤ maxSafeInteger then
        some { t.inScript with relayHints := sortSet t.inScript.relayHints }
      else none := by
  obtain ⟨id, hid⟩ := h.sound.peerID
  have hversion : safeInteger J (t.fields.lookup 0) "Pairing token version" = .ok 1 := by
    rw [safeInteger_ok_iff]
    have hlookup : t.fields.lookup 0 = some (.uint t.version.toNat) := rfl
    rw [hlookup, h.sound.version]
    rfl
  have hpeer : normalizePeerId J (t.fields.lookup 1) = .ok (ofUtf8 (L.idString t.peerID)) := by
    have hlookup : t.fields.lookup 1 = some (.text (L.idString t.peerID)) := rfl
    have htext : trim (string J.toEngine (some (.text (L.idString t.peerID)))) =
        ofUtf8 (L.idString t.peerID) := hJ.trim_idString hid
    rw [hlookup, normalizePeerId, htext, encode_ofUtf8 (hL.idString_valid hid), hid,
      hL.decodeID_idString hid]
  have hservice : normalizeService J (t.fields.lookup 2) = .ok (t.service.toNat : Int) := by
    have hlt := t.service.toNat_lt
    have hne : t.service.toNat ≠ 0 := fun heq => h.sound.service (UInt16.toNat_inj.mp heq)
    refine normalizeService_ok_iff.mpr ⟨number_uint J.toEngine ?_, by omega, by omega⟩
    rw [maxSafeInteger]
    omega
  have hsecret : binaryData (t.fields.lookup 3) "Pairing token secret" = .ok t.secret := rfl
  have hhints : normalizeRelayHints J (t.fields.lookup 4) =
      .ok (sortSet t.inScript.relayHints) := by
    have hlookup : t.fields.lookup 4 =
        some (.array (t.relayHints.map fun hint => .text (L.addrString hint))) := by
      have htexts : t.fields.lookup 4 = some (.array (t.hintTexts.map .text)) := rfl
      rw [htexts, h.hintTexts_eq, List.map_map]
      rfl
    have hmap : (t.relayHints.map fun hint => Cbor.Item.text (L.addrString hint)).mapM
        (normalizeRelayHint J) = .ok t.inScript.relayHints := by
      refine mapM_map_eq_ok ?_
      intro hint hmem
      exact normalizeRelayHint_addrString hL hJ (h.sound.hints hint hmem) (h.fits.2 hint hmem)
    have hcount : ¬ t.relayHints.length > maxRelayHints := Nat.not_lt.mpr h.sound.count
    simp only [hlookup, normalizeRelayHints, isNullish, Bool.false_eq_true, if_false,
      List.length_map, if_neg hcount, hmap, bind, Except.bind]
  have hexpiry : (normalizeExpiration J (t.fields.lookup 5)).toOption =
      if ∀ expires ∈ t.expiresAt, expires.toNat ≤ maxSafeInteger then
        some (t.expiresAt.map fun expires => (expires.toNat : Int)) else none := by
    have hlookup : t.fields.lookup 5 = t.expiresAt.map fun expires => .uint expires.toNat := by
      rw [fields]
      cases t.expiresAt <;> rfl
    have hnonzero := h.sound.expiry
    rw [hlookup]
    revert hdecide
    generalize t.expiresAt = expiresAt at hnonzero ⊢
    intro hdecide
    cases expiresAt with
    | none => simp [normalizeExpiration, isNullish, Except.toOption]
    | some expires =>
      have hpos : ¬ (expires.toNat : Int) < 1 := by
        have hne : expires.toNat ≠ (0 : UInt64).toNat := fun heq =>
          hnonzero (congrArg some (UInt64.toNat_inj.mp heq))
        rw [UInt64.toNat_zero] at hne
        omega
      by_cases hsafe : expires.toNat ≤ maxSafeInteger
      · simp [normalizeExpiration, isNullish, safeInteger, number, hsafe, bind, Except.bind, hpos,
          Except.toOption]
      · simp [normalizeExpiration, isNullish, safeInteger, number, hsafe, bind, Except.bind,
          Except.toOption]
  rw [normalizePairingToken, hversion, hpeer, hservice, hsecret, hhints]
  simp only [bind, Except.bind, t.secret_length, ne_eq, not_true_eq_false, if_false]
  cases hresult : normalizeExpiration J (t.fields.lookup 5) with
  | error err =>
    rw [hresult] at hexpiry
    split at hexpiry
    · cases hexpiry
    rename_i hlarge
    rw [if_neg hlarge]
    rfl
  | ok expiresAt =>
    rw [hresult] at hexpiry
    split at hexpiry
    next hsafe =>
      cases hexpiry
      rw [if_pos hsafe, inScript, h.sound.version]
      rfl
    · cases hexpiry

end Token

def Agree (J : ScriptLibraries L) (x : List Char) : Prop :=
  match decode L x, decodePairingToken J x with
  | .ok t, .ok j => j = t.inScript
  | .error _, .error _ => True
  | _, _ => False

namespace Token
variable {t : Token L}

/-- What JavaScript needs beyond the documentation: a safe expiry, and relay hints that are in order
by their UTF-16 code units too. -/
def Portable (t : Token L) : Prop :=
  (∀ expires ∈ t.expiresAt, expires.toNat ≤ maxSafeInteger) ∧
    t.inScript.relayHints.Pairwise fun a b => utf16 a ≤ utf16 b

theorem Documented.nodup_inScript (h : t.Documented) :
    t.inScript.relayHints.Nodup := by
  have hmap : t.inScript.relayHints = (t.relayHints.map L.addrString).map ofUtf8 := by
    rw [List.map_map]
    rfl
  rw [hmap]
  refine h.sound.distinct.map_on ?_
  intro a ha b hb heq
  obtain ⟨hint, hhint, rfl⟩ := List.mem_map.mp ha
  obtain ⟨other, hother, rfl⟩ := List.mem_map.mp hb
  rw [← encode_ofUtf8 (h.fits.2 hint hhint), heq, encode_ofUtf8 (h.fits.2 other hother)]

theorem Documented.normalize_eq_iff (hL : L.Lawful) (hJ : J.Lawful)
    (h : t.Documented) : normalizePairingToken J t.fields = .ok t.inScript ↔ t.Portable := by
  have hfields := h.normalize_fields hL hJ
  rw [Portable]
  constructor
  · intro hok
    rw [hok] at hfields
    split at hfields
    next hsafe =>
      have hhints := congrArg ScriptToken.relayHints (Option.some.inj hfields)
      exact ⟨hsafe, (sortSet_eq_self_iff.mp hhints.symm).2⟩
    · cases hfields
  · rintro ⟨hsafe, hordered⟩
    rw [if_pos hsafe, sortSet_eq_self_iff.mpr ⟨h.nodup_inScript, hordered⟩] at hfields
    cases hresult : normalizePairingToken J t.fields with
    | error err =>
      rw [hresult] at hfields
      cases hfields
    | ok j =>
      rw [hresult] at hfields
      exact congrArg Except.ok (Option.some.inj hfields)

theorem Documented.agree (hL : L.Lawful) (hJ : J.Lawful) (h : t.Documented)
    (hportable : t.Portable) {x : List Char} (hspelling : GoSpelling x t.payload)
    (hscripted : ScriptSpelling x t.payload) : Agree J x := by
  have hok : decodePairingToken J x = .ok t.inScript := decodePairingToken_ok_iff.mpr
    ⟨t.payload, t.fields, hscripted, h.fits.length_payload, h.written hL J.toEngine,
      (h.normalize_eq_iff hL hJ).mpr hportable⟩
  rw [Agree, (decode_ok_iff hL).mpr ⟨hspelling, h⟩, hok]

end Token

/-- What the two decoders may find in a text they agree on: every documented token in it is portable
and spelled for both, and all that JavaScript can read in it is such a token. -/
structure Shared (J : ScriptLibraries L) (x : List Char) : Prop where
  portable : ∀ t : Token L, GoSpelling x t.payload → t.Documented →
    ScriptSpelling x t.payload ∧ t.Portable
  documented : ∀ payload fields, ScriptSpelling x payload →
    ¬ (payload.length = 0 ∨ payload.length > maxTokenSize) →
    Written J.toEngine 5 payload fields → Readable J fields →
    ∃ t : Token L, t.Documented ∧ fields = t.fields ∧ GoSpelling x t.payload

theorem decoders_agree_iff (hL : L.Lawful) (hJ : J.Lawful) (x : List Char) :
    Agree J x ↔ Shared J x := by
  constructor
  · intro h
    rw [Agree] at h
    constructor
    · intro t hspelling hdocumented
      have hdecode := (decode_ok_iff hL).mpr ⟨hspelling, hdocumented⟩
      rw [hdecode] at h
      cases hscript : decodePairingToken J x with
      | error err =>
        rw [hscript] at h
        exact h.elim
      | ok j =>
        rw [hscript] at h
        obtain ⟨payload, fields, hscripted, -, hwritten, hnormal⟩ :=
          decodePairingToken_ok_iff.mp hscript
        obtain rfl := hspelling.eq_payload hscripted
        obtain rfl := hwritten.unique (hdocumented.written hL J.toEngine).decoded
        rw [h] at hnormal
        exact ⟨hscripted, (hdocumented.normalize_eq_iff hL hJ).mp hnormal⟩
    · intro payload fields hscripted hsize hwritten hreadable
      obtain ⟨j, hnormal⟩ := normalizePairingToken_isOk_iff.mpr hreadable
      have hscript := decodePairingToken_ok_iff.mpr
        ⟨payload, fields, hscripted, hsize, hwritten, hnormal⟩
      rw [hscript] at h
      cases hdecode : decode L x with
      | error err =>
        rw [hdecode] at h
        exact h.elim
      | ok t =>
        obtain ⟨hspelling, hdocumented⟩ := (decode_ok_iff hL).mp hdecode
        obtain rfl := hspelling.eq_payload hscripted
        exact ⟨t, hdocumented, hwritten.unique (hdocumented.written hL J.toEngine).decoded,
          hspelling⟩
  · intro h
    cases hdecode : decode L x with
    | ok t =>
      obtain ⟨hspelling, hdocumented⟩ := (decode_ok_iff hL).mp hdecode
      obtain ⟨hscripted, hportable⟩ := h.portable t hspelling hdocumented
      exact hdocumented.agree hL hJ hportable hspelling hscripted
    | error err =>
      rw [Agree, hdecode]
      cases hresult : decodePairingToken J x with
      | error other => trivial
      | ok j =>
        obtain ⟨payload, fields, hscripted, hsize, hwritten, hnormal⟩ :=
          decodePairingToken_ok_iff.mp hresult
        have hreadable := normalizePairingToken_isOk_iff.mp ⟨j, hnormal⟩
        obtain ⟨t, hdocumented, -, hspelling⟩ :=
          h.documented payload fields hscripted hsize hwritten hreadable
        rw [(decode_ok_iff hL).mpr ⟨hspelling, hdocumented⟩] at hdecode
        cases hdecode

def plainScript : ScriptLibraries plainLibraries where
  numberOfText text :=
    let digits := trim text
    let n := digits.foldl (fun n c => 10 * n + (c.toNat - '0'.toNat)) 0
    if digits.all Char.isDigit ∧ n ≤ maxSafeInteger then some n else none
  floatText := fun _ _ => "NaN".toList
  writesBack := fun _ _ => false
  hasP2p a := @decide _
    (List.instDecidableIsInfixOfDecidableEq (ascii "/p2p/") (byteOf '/' :: a))

theorem isWhite_of_alphanum {c : Char} (h : c.isAlphanum = true) : isWhite c = false := by
  refine isWhite_of_graphic ?_
  replace h : ((decide (c.val ≥ 'A'.val ∧ c.val ≤ 'Z'.val) ||
    c.val ≥ 'a'.val && c.val ≤ 'z'.val) || c.val ≥ '0'.val && c.val ≤ '9'.val) = true := h
  simp only [Bool.or_eq_true, Bool.and_eq_true, decide_eq_true_eq, ge_iff_le,
    UInt32.le_iff_toNat_le] at h
  have hval : c.val.toNat = c.toNat := rfl
  have hbounds : 'A'.val.toNat = 65 ∧ 'Z'.val.toNat = 90 ∧ 'a'.val.toNat = 97 ∧
      'z'.val.toNat = 122 ∧ '0'.val.toNat = 48 ∧ '9'.val.toNat = 57 := ⟨rfl, rfl, rfl, rfl, rfl, rfl⟩
  omega

theorem trim_ofUtf8_slash {a : Bytes} {b : UInt8} (hlast : a.getLast? = some b)
    (hb : (charOf b).isAlphanum = true ∧ b < 0x80) :
    trim (ofUtf8 (byteOf '/' :: a)) = ofUtf8 (byteOf '/' :: a) := by
  by_cases hvalid : Utf8.valid (byteOf '/' :: a) = true
  · have hencode := encode_ofUtf8 hvalid
    generalize ofUtf8 (byteOf '/' :: a) = text at hencode
    refine trimBy_eq_self ?_ ?_
    · intro c hc
      cases text with
      | nil => cases hc
      | cons first rest =>
        obtain rfl := Option.some.inj hc
        have hfirst := Utf8.decodeChar_encodeChar first (Utf8.encode rest)
        have hcons : Utf8.encodeChar first ++ Utf8.encode rest = byteOf '/' :: a := hencode
        have hslash : Utf8.decodeChar (byteOf '/' :: a) = some ('/', a) := rfl
        rw [hcons, hslash] at hfirst
        cases hfirst
        rfl
    · intro c hc
      obtain ⟨init, rfl⟩ := List.getLast?_eq_some_iff.mp hc
      obtain ⟨bytes, last, hchar, hsame⟩ := Utf8.encodeChar_eq_concat c
      have hend : (Utf8.encode (init ++ [c])).getLast? = some last := by
        rw [Utf8.encode, List.flatMap_append, List.flatMap_singleton, hchar, ← List.append_assoc]
        exact List.getLast?_concat
      have hcons : (byteOf '/' :: a).getLast? = some b := by
        rw [List.getLast?_cons, hlast]
        rfl
      rw [hencode, hcons] at hend
      cases hend
      have hlt : b.toNat < 0x80 := hb.2
      have hc : charOf b = c := by
        rw [charOf, hsame.resolve_right (Nat.not_le.mpr hlt), Char.ofNat_toNat]
      rw [← hc]
      exact isWhite_of_alphanum hb.1
  · have hnil : ofUtf8 (byteOf '/' :: a) = [] := by
      rw [Utf8.valid, Bool.not_eq_true, Option.isSome_eq_false_iff, Option.isNone_iff_eq_none] at hvalid
      rw [ofUtf8, hvalid]
      rfl
    rw [hnil]
    rfl

theorem trim_ofUtf8_alphanum {text : Bytes}
    (h : ∀ b ∈ text, (charOf b).isAlphanum = true ∧ b < 0x80) :
    trim (ofUtf8 text) = ofUtf8 text := by
  have htext : ofUtf8 text = text.map charOf := by
    rw [ofUtf8, Utf8.decode_of_ascii fun b hb => (h b hb).2]
    rfl
  have hwhite : ∀ c ∈ text.map charOf, isWhite c = false := by
    intro c hc
    obtain ⟨b, hb, rfl⟩ := List.mem_map.mp hc
    exact isWhite_of_alphanum (h b hb).1
  rw [htext]
  exact trimBy_eq_self (fun c hc => hwhite c (List.mem_of_head? hc))
    fun c hc => hwhite c (List.mem_of_getLast? hc)

theorem plainScript_lawful : plainScript.Lawful where
  trim_idString h := trim_ofUtf8_alphanum (plainID_ok h).2.2
  trim_addrString := by
    intro a h
    obtain ⟨-, -, id, hid, -⟩ := h
    simp only [plainLibraries] at hid
    split at hid
    · obtain ⟨-, hne, hall⟩ := plainID_ok hid
      have hlast : a.getLast? = some ((a.rtakeWhile (· ≠ byteOf '/')).getLast hne) := by
        conv_lhs => rw [← List.rdropWhile_append_rtakeWhile (p := (· ≠ byteOf '/')) (l := a)]
        rw [List.getLast?_append_of_ne_nil _ hne]
        exact List.getLast?_eq_some_getLast hne
      exact trim_ofUtf8_slash hlast (hall _ (List.getLast_mem hne))
    · cases hid
  addrString_ne_nil := fun _ => List.cons_ne_nil _ _
  hasP2p_of_hintOk := by
    intro a h
    obtain ⟨-, -, id, hid, -⟩ := h
    simp only [plainLibraries] at hid
    split at hid
    next hsuffix =>
      obtain ⟨before, hbefore⟩ := List.isSuffixOf_iff_suffix.mp hsuffix
      refine @decide_eq_true _ (List.instDecidableIsInfixOfDecidableEq _ _)
        ⟨before, a.rtakeWhile (· ≠ byteOf '/'), ?_⟩
      rw [hbefore]
      exact congrArg (byteOf '/' :: ·) (List.rdropWhile_append_rtakeWhile ..)
    · cases hid

theorem decoders_agree_iff_example : ∃ t : Token plainLibraries, t.Documented ∧
    Agree plainScript (tokenPrefix ++ Base64Url.encode t.payload) ∧
    Shared plainScript (tokenPrefix ++ Base64Url.encode t.payload) := by
  obtain ⟨t, hdocumented, hportable⟩ : ∃ t : Token plainLibraries, t.Documented ∧ t.Portable := by
    have hvalid : (Token.forRelays [ascii "a", ascii "b"]).validate zeroTime = .ok () := by decide
    refine ⟨_, ⟨(Token.validate_ok_iff.mp hvalid).1, ⟨by decide, by decide⟩, by decide⟩, ?_, by decide⟩
    intro expires hexpires
    cases hexpires
    decide
  have hagree := hdocumented.agree plainLibraries_lawful plainScript_lawful hportable
    (goSpelling_encode t.payload) (scriptSpelling_encode t.payload)
  exact ⟨t, hdocumented, hagree,
    (decoders_agree_iff plainLibraries_lawful plainScript_lawful _).mp hagree⟩

theorem not_agree_of_isSome {x : List Char}
    (h : (decode L x).toOption.isSome ≠ (decodePairingToken J x).toOption.isSome) :
    ¬ Agree J x := by
  intro hagree
  rw [Agree] at hagree
  cases hdecode : decode L x with
  | ok t =>
    cases hscript : decodePairingToken J x with
    | ok j =>
      rw [hdecode, hscript] at h
      exact h rfl
    | error err =>
      rw [hdecode, hscript] at hagree
      exact hagree
  | error err =>
    cases hscript : decodePairingToken J x with
    | ok j =>
      rw [hdecode, hscript] at hagree
      exact hagree
    | error other =>
      rw [hdecode, hscript] at h
      exact h rfl

def lateText : List Char := tokenPrefix ++
  Base64Url.encode (Token.payload { Token.forRelays [] with expiresAt := some 9007199254740992 })

def unorderedText : List Char := tokenPrefix ++ Base64Url.encode (Cbor.encode (.map (Cbor.uintPairs
  [(0, .uint 1), (1, .text (ascii "12D3KooWQ3uxpHgjDKE6vGmvzKS8RPbxUDLwJ7XCLaD6YXdUfbR9")),
    (2, .uint 8080), (3, .bytes (List.replicate 32 7)),
    (4, .array [.text (ascii "/dns4/b/p2p/12D3KooWEqeQRAJ61HSv9yMPk8yzjke7NxmTFcvFt4GzwXxzVjXW"),
      .text (ascii "/dns4/a/p2p/12D3KooWEqeQRAJ61HSv9yMPk8yzjke7NxmTFcvFt4GzwXxzVjXW")])])))

theorem decoders_disagree :
    (decode plainLibraries lateText).toOption.isSome = true ∧ ¬ Agree plainScript lateText ∧
    (decodePairingToken plainScript unorderedText).toOption.isSome = true ∧
      ¬ Agree plainScript unorderedText := by
  have hlate : (decode plainLibraries lateText).toOption.isSome = true := by
    decide +kernel
  have hrefused : (decodePairingToken plainScript lateText).toOption.isSome = false := by
    decide +kernel
  have hunordered : (decodePairingToken plainScript unorderedText).toOption.isSome = true := by
    decide +kernel
  have hstrict : (decode plainLibraries unorderedText).toOption.isSome = false := by
    decide +kernel
  refine ⟨hlate, not_agree_of_isSome ?_, hunordered, not_agree_of_isSome ?_⟩
  · rw [hlate, hrefused]
    exact Bool.noConfusion
  · rw [hstrict, hunordered]
    exact Bool.noConfusion

end P2PNetcat.Pairing
