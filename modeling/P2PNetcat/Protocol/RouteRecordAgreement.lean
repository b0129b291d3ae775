import P2PNetcat.Protocol.PairingAgreement
import P2PNetcat.Protocol.RouteRecordCodec
import P2PNetcat.Protocol.RouteRecordScript

/-!
# One route record in two languages

What `verifyRouteRecord` makes of an envelope, and on which envelopes and
options it agrees with `Verify`.
-/

namespace P2PNetcat.RouteRecord
open ByteCodec Fallible GoTime Script
open P2PNetcat.Pairing (PeerID Libraries ScriptLibraries safeInteger normalizeService binaryData
  safeInteger_ok_iff normalizeService_ok_iff binaryData_ok_iff plainLibraries plainLibraries_lawful
  plainScript plainID)

variable {L : Libraries} {J : ScriptLibraries L}

def AddressAs (J : ScriptLibraries L) (item : Cbor.Item) (text : List Char) : Prop :=
  ∃ address, L.newMultiaddr (Utf8.encode (trim (string J.toEngine (some item)))) = .ok address ∧
    text = ofUtf8 (L.addrString address)

def AddressesAs (J : ScriptLibraries L) (value : Option Cbor.Item) (texts : List (List Char)) :
    Prop :=
  isNullish value = true ∧ texts = [] ∨ ∃ items read, value = some (.array items) ∧
    items.length ≤ maxAddresses ∧ List.Forall₂ (AddressAs J) items read ∧ texts = sortSet read

structure ReadAs (J : ScriptLibraries L) (dateNow : Int) (fields : List (Nat × Cbor.Item))
    (j : ScriptRecord) : Prop where
  version : j.version = 1 ∧
    (isNullish (fields.lookup 0) = true ∨ number J.toEngine (fields.lookup 0) = some 1)
  peerId : j.peerId = trim (string J.toEngine (fields.lookup 1)) ∧ 0 < length j.peerId ∧
    length j.peerId ≤ 256
  sequence : 0 ≤ j.sequence ∧ if isNullish (fields.lookup 2) = true
    then j.sequence = dateNow ∧ dateNow.natAbs ≤ maxSafeInteger
    else number J.toEngine (fields.lookup 2) = some j.sequence
  issuedAt : number J.toEngine (fields.lookup 3) = some j.issuedAt
  expiresAt : number J.toEngine (fields.lookup 4) = some j.expiresAt
  times : 0 ≤ j.issuedAt ∧ j.issuedAt < j.expiresAt
  services : ∃ items read, fields.lookup 5 = some (.array items) ∧ 0 < items.length ∧
    items.length ≤ maxServices ∧ List.Forall₂ (fun item n =>
      number J.toEngine (some item) = some n ∧ 1 ≤ n ∧ n ≤ 65535) items read ∧
    j.services = read.dedup.insertionSort (· ≤ ·)
  addresses : AddressesAs J (fields.lookup 6) j.addresses
  relayReservations : AddressesAs J (fields.lookup 7) j.relayReservations
  capabilities : (if isNullish (fields.lookup 8) = true then j.capabilities = 0
    else number J.toEngine (fields.lookup 8) = some j.capabilities) ∧ 0 ≤ j.capabilities ∧
    j.capabilities.toNat % 2 ^ 32 < 128

theorem normalizeAddress_ok_iff {item : Cbor.Item} {text : List Char} :
    normalizeAddress J item = .ok text ↔ AddressAs J item text := by
  rw [normalizeAddress, AddressAs]
  cases L.newMultiaddr (Utf8.encode (trim (string J.toEngine (some item)))) with
  | error err => simp
  | ok address =>
    simp only [Except.ok.injEq, exists_eq_left']
    exact eq_comm

variable {value : Option Cbor.Item}

theorem normalizeAddresses_ok_iff {label : String}
    {texts : List (List Char)} :
    normalizeAddresses J value label = .ok texts ↔ AddressesAs J value texts := by
  rw [normalizeAddresses.eq_def, AddressesAs]
  split
  next hnullish =>
    rw [Except.ok.injEq]
    constructor
    · rintro rfl
      exact .inl ⟨hnullish, rfl⟩
    · rintro (⟨-, rfl⟩ | ⟨items, read, rfl, -⟩)
      · rfl
      · cases hnullish
  next hpresent =>
    split
    next items =>
      simp only [ite_error_eq_ok, bind_eq_ok, mapM_eq_ok_iff, normalizeAddress_ok_iff,
        Except.ok.injEq]
      constructor
      · rintro ⟨hcount, read, hread, rfl⟩
        exact .inr ⟨items, read, rfl, Nat.not_lt.mp hcount, hread, rfl⟩
      · rintro (⟨hnullish, -⟩ | ⟨others, read, heq, hcount, hread, rfl⟩)
        · exact absurd hnullish hpresent
        · cases heq
          exact ⟨Nat.not_lt.mpr hcount, read, hread, rfl⟩
    next hother =>
      constructor
      · intro h
        cases h
      · rintro (⟨hnullish, -⟩ | ⟨items, read, rfl, -⟩)
        · exact absurd hnullish hpresent
        · exact absurd rfl (hother items)

theorem normalizeServices_ok_iff {services : List Int} :
    normalizeServices J value = .ok services ↔ ∃ items read, value = some (.array items) ∧
      0 < items.length ∧ items.length ≤ maxServices ∧ List.Forall₂ (fun item n =>
        number J.toEngine (some item) = some n ∧ 1 ≤ n ∧ n ≤ 65535) items read ∧
      services = read.dedup.insertionSort (· ≤ ·) := by
  rw [normalizeServices.eq_def]
  split
  next items =>
    simp only [ite_error_eq_ok, bind_eq_ok, mapM_eq_ok_iff, normalizeService_ok_iff,
      Except.ok.injEq]
    constructor
    · rintro ⟨hcount, read, hread, rfl⟩
      exact ⟨items, read, rfl, by omega, by omega, hread, rfl⟩
    · rintro ⟨others, read, heq, hpos, hcount, hread, rfl⟩
      cases heq
      exact ⟨by omega, read, hread, rfl⟩
  next hother =>
    constructor
    · intro h
      cases h
    · rintro ⟨items, read, rfl, -⟩
      exact absurd rfl (hother items)

theorem and_high_eq_zero_iff {m k : Nat} (hm : m < 2 ^ (k + 7)) :
    m &&& (2 ^ (k + 7) - 128) = 0 ↔ m < 128 := by
  have hpow : 2 ^ (k + 7) = 2 ^ k * 128 := Nat.pow_add 2 k 7
  have hpos : 0 < 2 ^ k := Nat.two_pow_pos k
  have hdiv : (m &&& (2 ^ (k + 7) - 128)) / 2 ^ 7 = m / 2 ^ 7 := by
    have hhigh : (2 ^ (k + 7) - 128) / 2 ^ 7 = 2 ^ k - 1 := by omega
    rw [Nat.and_div_two_pow, hhigh, Nat.and_two_pow_sub_one_eq_mod]
    exact Nat.mod_eq_of_lt (by omega)
  have hmod : (m &&& (2 ^ (k + 7) - 128)) % 2 ^ 7 = 0 := by
    have hlow : (2 ^ (k + 7) - 128) % 2 ^ 7 = 0 := by omega
    rw [Nat.and_mod_two_pow, hlow, Nat.and_zero]
  omega

theorem normalizeCapabilities_ok_iff {mask : Int} :
    normalizeCapabilities J value = .ok mask ↔
      (if isNullish value = true then mask = 0 else number J.toEngine value = some mask) ∧
        0 ≤ mask ∧ mask.toNat % 2 ^ 32 < 128 := by
  have hmask : ∀ n : Nat, n % 2 ^ 32 &&& (2 ^ 32 - 1 - allCapabilities.toNat) = 0 ↔
      n % 2 ^ 32 < 128 := by
    intro n
    exact and_high_eq_zero_iff (k := 25) (Nat.mod_lt _ (by decide))
  have hread : (if isNullish value = true then some 0 else number J.toEngine value) = some mask ↔
      if isNullish value = true then mask = 0 else number J.toEngine value = some mask := by
    split
    · rw [Option.some.injEq]
      exact eq_comm
    · exact Iff.rfl
  rw [normalizeCapabilities, ← hread]
  cases hvalue : (if isNullish value = true then some 0 else number J.toEngine value) with
  | none => simp
  | some n =>
    rw [ite_error_eq_ok, not_or, ne_eq, not_not, hmask, Int.not_lt, Option.some.injEq,
      Except.ok.injEq]
    constructor
    · rintro ⟨hbits, rfl⟩
      exact ⟨rfl, hbits⟩
    · rintro ⟨rfl, hbits⟩
      exact ⟨hbits, rfl⟩

theorem safeNumber_ok_iff {value n : Int} {label : String} :
    safeNumber value label = .ok n ↔ n = value ∧ value.natAbs ≤ maxSafeInteger := by
  rw [safeNumber]
  split
  next hsafe =>
    rw [Except.ok.injEq]
    exact ⟨fun h => ⟨h.symm, hsafe⟩, fun h => h.1.symm⟩
  next hlarge =>
    exact ⟨fun h => (by cases h), fun h => absurd h.2 hlarge⟩

theorem safeIntegerOr_ok_iff {other n : Int} {label : String} :
    safeIntegerOr J other value label = .ok n ↔
      if isNullish value = true then n = other ∧ other.natAbs ≤ maxSafeInteger
      else number J.toEngine value = some n := by
  rw [safeIntegerOr]
  split
  · exact safeNumber_ok_iff
  · exact safeInteger_ok_iff

variable {dateNow : Int}

theorem normalizeRouteRecord_ok_iff {fields : List (Nat × Cbor.Item)}
    {j : ScriptRecord} :
    normalizeRouteRecord J dateNow fields = .ok j ↔ ReadAs J dateNow fields j := by
  have hversion : ∀ n, safeIntegerOr J 1 (fields.lookup 0) "Route record version" = .ok n ∧
      ¬ n ≠ 1 ↔ n = 1 ∧ (isNullish (fields.lookup 0) = true ∨
        number J.toEngine (fields.lookup 0) = some 1) := by
    intro n
    rw [safeIntegerOr_ok_iff, not_not]
    constructor
    · rintro ⟨hn, rfl⟩
      refine ⟨rfl, ?_⟩
      split at hn
      next hnullish =>
        exact .inl hnullish
      · exact .inr hn
    · rintro ⟨rfl, hn⟩
      refine ⟨?_, rfl⟩
      split
      · exact ⟨rfl, by decide⟩
      next hpresent =>
        exact hn.resolve_left hpresent
  constructor
  · intro h
    obtain ⟨version, hv, h⟩ := bind_eq_ok.mp h
    simp only [bind_eq_ok, ite_error_eq_ok] at h
    obtain ⟨hone, hlength, sequence, hs, hpositive, issuedAt, hissued, expiresAt, hexpires, htimes,
      services, hservices, addresses, haddresses, relays, hrelays, capabilities, hcapabilities, h⟩
      := h
    cases h
    exact
      { version := (hversion version).mp ⟨hv, hone⟩
        peerId := ⟨rfl, by dsimp only; omega⟩
        sequence := ⟨Int.not_lt.mp hpositive, safeIntegerOr_ok_iff.mp hs⟩
        issuedAt := safeInteger_ok_iff.mp hissued
        expiresAt := safeInteger_ok_iff.mp hexpires
        times := by
          dsimp only
          omega
        services := normalizeServices_ok_iff.mp hservices
        addresses := normalizeAddresses_ok_iff.mp haddresses
        relayReservations := normalizeAddresses_ok_iff.mp hrelays
        capabilities := normalizeCapabilities_ok_iff.mp hcapabilities }
  · intro h
    obtain ⟨hv, hone⟩ := (hversion j.version).mpr h.version
    obtain ⟨hpeer, hlength⟩ := h.peerId
    obtain ⟨hpositive, hs⟩ := h.sequence
    have htimes := h.times
    rw [normalizeRouteRecord]
    refine bind_eq_ok.mpr ⟨j.version, hv, ite_error_eq_ok.mpr ⟨hone, ?_⟩⟩
    refine ite_error_eq_ok.mpr ⟨by rw [← hpeer]; omega, ?_⟩
    refine bind_eq_ok.mpr ⟨j.sequence, safeIntegerOr_ok_iff.mpr hs, ?_⟩
    refine ite_error_eq_ok.mpr ⟨Int.not_lt.mpr hpositive, ?_⟩
    refine bind_eq_ok.mpr ⟨j.issuedAt, safeInteger_ok_iff.mpr h.issuedAt, ?_⟩
    refine bind_eq_ok.mpr ⟨j.expiresAt, safeInteger_ok_iff.mpr h.expiresAt, ?_⟩
    refine ite_error_eq_ok.mpr ⟨by omega, ?_⟩
    refine bind_eq_ok.mpr ⟨j.services, normalizeServices_ok_iff.mpr h.services, ?_⟩
    refine bind_eq_ok.mpr ⟨j.addresses, normalizeAddresses_ok_iff.mpr h.addresses, ?_⟩
    refine bind_eq_ok.mpr
      ⟨j.relayReservations, normalizeAddresses_ok_iff.mpr h.relayReservations, ?_⟩
    refine bind_eq_ok.mpr ⟨j.capabilities, normalizeCapabilities_ok_iff.mpr h.capabilities, ?_⟩
    rw [← hpeer]

variable {j : ScriptRecord}

theorem decodeRouteRecordPayload_ok_iff {payload : Bytes} :
    decodeRouteRecordPayload J dateNow payload = .ok j ↔ ∃ fields,
      Written J.toEngine 8 payload fields ∧ ReadAs J dateNow fields j := by
  have hassoc : decodeRouteRecordPayload J dateNow payload =
      (Script.decodeMap J.toEngine recordErrors payload >>=
        rejectUnknownKeys J.toEngine 8 "route record") >>= normalizeRouteRecord J dateNow := by
    rw [bind_assoc]
    rfl
  rw [hassoc, bind_eq_ok]
  simp only [readFields_ok_iff (show 8 < 24 by decide), normalizeRouteRecord_ok_iff]

structure Taken (J : ScriptLibraries L) (K : Keys) (dateNow : Int) (envelope payload publicKeyBytes
    signature : Bytes) (key : K.PublicKey) (fields : List (Nat × Cbor.Item)) (j : ScriptRecord) :
    Prop where
  envelope : Written J.toEngine 3 envelope
    (envelopeFields payload (some publicKeyBytes) (some signature))
  size : ¬ (payload.length = 0 ∨ payload.length > maxPayloadBytes)
  unmarshaled : K.unmarshalPublicKey publicKeyBytes = .ok key
  verified : K.verify key payload signature = .ok true
  payload : Written J.toEngine 8 payload fields
  record : ReadAs J dateNow fields j
  author : ∃ id, K.idFromPublicKey key = .ok id ∧ j.peerId = ofUtf8 (L.idString id)

variable {envelope : Bytes} {K : Keys}

theorem verifyRouteRecord_ok_iff
    {options : ScriptOptions} :
    verifyRouteRecord J K dateNow envelope options = .ok j ↔
      (∃ payload publicKeyBytes signature key fields,
        Taken J K dateNow envelope payload publicKeyBytes signature key fields j) ∧
      options.checkExpected J j = .ok () ∧ options.checkTime j = .ok () := by
  constructor
  · intro h
    obtain ⟨pairs, hpairs, h⟩ := bind_eq_ok.mp h
    obtain ⟨fields, hfields, h⟩ := bind_eq_ok.mp h
    have hwritten := (readFields_ok_iff (show 3 < 24 by decide)).mp
      (bind_eq_ok.mpr ⟨pairs, hpairs, hfields⟩)
    split at h
    next hversion =>
      obtain ⟨payload, hpayload, h⟩ := bind_eq_ok.mp h
      simp only [bind_eq_ok, ite_error_eq_ok] at h
      obtain ⟨publicKeyBytes, hpublic, signature, hsignature, hsize, key, hkey, valid, hvalid,
        htrue, record, hrecord, id, hid, hauthor, _, hexpected, _, htime, h⟩ := h
      cases h
      obtain rfl := Bool.not_eq_false _ ▸ htrue
      obtain ⟨inner, hinner, hread⟩ := decodeRouteRecordPayload_ok_iff.mp hrecord
      have heq : fields = envelopeFields payload (some publicKeyBytes) (some signature) := by
        refine hwritten.eq_of_lookup rfl ?_
        simp only [envelopeFields, List.forall_mem_cons]
        exact ⟨hversion, binaryData_ok_iff.mp hpayload, binaryData_ok_iff.mp hpublic,
          binaryData_ok_iff.mp hsignature, fun _ h => absurd h List.not_mem_nil⟩
      exact ⟨⟨payload, publicKeyBytes, signature, key, inner, heq ▸ hwritten, hsize, hkey, hvalid,
        hinner, hread, id, hid, not_not.mp hauthor⟩, hexpected, htime⟩
    · cases h
  · rintro ⟨⟨payload, publicKeyBytes, signature, key, fields, h⟩, hexpected, htime⟩
    have hread : (Script.decodeMap J.toEngine recordErrors envelope >>=
        rejectUnknownKeys J.toEngine 3 "route record envelope") =
          .ok (envelopeFields payload (some publicKeyBytes) (some signature)) :=
      (readFields_ok_iff (by decide)).mpr h.envelope
    obtain ⟨pairs, hpairs, hfields⟩ := bind_eq_ok.mp hread
    obtain ⟨id, hid, hauthor⟩ := h.author
    have hrecord := decodeRouteRecordPayload_ok_iff.mpr ⟨fields, h.payload, h.record⟩
    rw [verifyRouteRecord]
    refine bind_eq_ok.mpr ⟨pairs, hpairs, bind_eq_ok.mpr ⟨_, hfields, ?_⟩⟩
    refine bind_eq_ok.mpr ⟨payload, rfl, bind_eq_ok.mpr ⟨publicKeyBytes, rfl, ?_⟩⟩
    refine bind_eq_ok.mpr ⟨signature, rfl, ite_error_eq_ok.mpr ⟨h.size, ?_⟩⟩
    refine bind_eq_ok.mpr ⟨key, h.unmarshaled, bind_eq_ok.mpr ⟨true, h.verified, ?_⟩⟩
    refine ite_error_eq_ok.mpr ⟨Bool.noConfusion, bind_eq_ok.mpr ⟨j, hrecord, ?_⟩⟩
    refine bind_eq_ok.mpr ⟨id, hid, ite_error_eq_ok.mpr ⟨not_not.mpr hauthor, ?_⟩⟩
    exact bind_eq_ok.mpr ⟨(), hexpected, bind_eq_ok.mpr ⟨(), htime, rfl⟩⟩

/-- Options that can be given in both languages: whole seconds, and a skew that a duration holds. -/
structure Options (L : Libraries) where
  expectedPeerID : Option { id : PeerID // id ≠ [] ∧ L.decodeID (L.idString id) = .ok id }
  expectedService : Option { service : UInt16 // service ≠ 0 }
  now : Int
  skew : Int
  now_range : -2 ^ 63 ≤ now ∧ now < 2 ^ 63
  skew_range : -9223372036 ≤ skew ∧ skew ≤ 9223372036

namespace Options

def forGo (o : Options L) : VerifyOptions where
  expectedPeerID := (o.expectedPeerID.map Subtype.val).getD []
  expectedService := (o.expectedService.map Subtype.val).getD 0
  now := unix o.now
  clockSkew := o.skew * second

def forScript (o : Options L) : ScriptOptions where
  expectedPeerId := o.expectedPeerID.map fun id => ofUtf8 (L.idString id.val)
  expectedService := o.expectedService.map fun service => service.val.toNat
  nowSeconds := o.now
  clockSkewSeconds := o.skew

end Options

namespace Record
variable {r : Record L}

def inScript (r : Record L) : ScriptRecord where
  version := r.version.toNat
  peerId := ofUtf8 (L.idString r.peerID)
  sequence := r.sequence.toNat
  issuedAt := r.issuedAt.toNat
  expiresAt := r.expiresAt.toNat
  services := r.services.map fun service => (service.toNat : Int)
  addresses := r.addresses.map fun a => ofUtf8 (L.addrString a)
  relayReservations := r.relayReservations.map fun a => ofUtf8 (L.addrString a)
  capabilities := r.capabilities.toNat

/-- The script's texts for the addresses, which it trims, reads and sorts anew, are those written. -/
def Kept (J : ScriptLibraries L) (addresses : List L.Multiaddr) : Prop :=
  ∃ read, List.Forall₂ (fun a text => AddressAs J (.text (L.addrString a)) text) addresses read ∧
    addresses.map (fun a => ofUtf8 (L.addrString a)) = sortSet read

structure Portable (J : ScriptLibraries L) (r : Record L) : Prop where
  peerID : trim (ofUtf8 (L.idString r.peerID)) = ofUtf8 (L.idString r.peerID) ∧
    0 < length (ofUtf8 (L.idString r.peerID)) ∧ length (ofUtf8 (L.idString r.peerID)) ≤ 256
  sequence : r.sequence.toNat ≤ maxSafeInteger
  expiresAt : r.expiresAt.toNat ≤ maxSafeInteger
  addresses : Kept J r.addresses
  relayReservations : Kept J r.relayReservations

theorem Documented.written (hL : L.Lawful) (h : r.Documented) (E : Engine) :
    Written E 8 r.payload r.fields where
  decoded := h.decode_payload hL
  encoded := rfl
  ordered := by
    have hkeys : r.fields.map Prod.fst = List.range 9 := rfl
    rw [hkeys]
    exact List.pairwise_lt_range
  known := forall_fields (fun _ h _ => Nat.le_of_lt_succ h) (by simp) (by simp) (by simp) (by simp)
  settled := by
    have harray : ∀ items : List Cbor.Item, (∀ item ∈ items, deterministic E item = true) →
        deterministic E (.array items) = true := by
      intro items hitems
      rw [deterministic, deterministicItems_eq_all, List.all_eq_true]
      exact hitems
    refine forall_fields (fun _ _ _ => rfl) rfl (harray _ ?_) (harray _ ?_) (harray _ ?_)
    · exact List.forall_mem_map.mpr fun _ _ => rfl
    · exact List.forall_mem_map.mpr fun _ _ => rfl
    · exact List.forall_mem_map.mpr fun _ _ => rfl

theorem addressesAs_iff {addresses : List L.Multiaddr} (hcount : addresses.length ≤ maxAddresses)
    {texts : List (List Char)} : AddressesAs J (some (addressItem addresses)) texts ↔
      ∃ read, List.Forall₂ (fun a text => AddressAs J (.text (L.addrString a)) text) addresses read ∧
        texts = sortSet read := by
  constructor
  · rintro (⟨hnullish, -⟩ | ⟨items, read, heq, -, hread, htexts⟩)
    · cases hnullish
    · cases heq
      exact ⟨read, List.forall₂_map_left_iff.mp hread, htexts⟩
  · rintro ⟨read, hread, htexts⟩
    exact .inr ⟨_, read, rfl, by rwa [List.length_map], List.forall₂_map_left_iff.mpr hread, htexts⟩

theorem Normal.services_inScript (h : r.Normal) :
    r.inScript.services.dedup.insertionSort (· ≤ ·) = r.inScript.services := by
  have hnodup : r.inScript.services.Nodup := by
    refine h.distinct.map_on ?_
    intro a _ b _ heq
    exact UInt16.toNat_inj.mp (Int.ofNat.inj heq)
  have hordered : r.inScript.services.Pairwise (· ≤ ·) := by
    refine List.pairwise_map.mpr (h.ordered.imp ?_)
    intro a b hle
    exact Int.ofNat_le.mpr hle
  rw [hnodup.dedup, List.Pairwise.insertionSort_eq hordered]

theorem number_service (service : UInt16) :
    number J.toEngine (some (.uint service.toNat)) = some (service.toNat : Int) := by
  refine number_uint J.toEngine (Nat.le_trans (Nat.le_of_lt service.toNat_lt) ?_)
  decide

theorem Normal.services_read (h : r.Normal)
    (hread : ReadAs J dateNow r.fields j) : j.services = r.inScript.services := by
  obtain ⟨items, read, heq, -, -, hnumbers, hservices⟩ := hread.services
  cases heq
  have hsame : r.inScript.services = read := by
    rw [← List.forall₂_eq_eq_eq]
    refine List.forall₂_map_left_iff.mpr ((List.forall₂_map_left_iff.mp hnumbers).imp ?_)
    intro service n hn
    rw [number_service] at hn
    exact Option.some.inj hn.1
  rw [hservices, ← hsame, h.services_inScript]

theorem Normal.capabilities_lt (h : r.Normal) : r.capabilities.toNat < 128 := by
  have hnat := congrArg UInt64.toNat h.capabilities
  have hmask : (~~~allCapabilities).toNat = 2 ^ (57 + 7) - 128 := by decide
  rw [UInt64.toNat_and, hmask, UInt64.toNat_zero] at hnat
  exact (and_high_eq_zero_iff r.capabilities.toNat_lt).mp hnat

theorem le_of_number {n : Nat} {m : Int} (h : number J.toEngine (some (.uint n)) = some m) :
    n ≤ maxSafeInteger := by
  by_contra hlarge
  rw [number, if_neg hlarge] at h
  cases h

theorem Documented.readAs_iff (h : r.Documented) :
    ReadAs J dateNow r.fields r.inScript ↔ r.Portable J := by
  have hnormal := h.normal
  constructor
  · intro hread
    exact
      { peerID := ⟨hread.peerId.1.symm, hread.peerId.2⟩
        sequence := le_of_number hread.sequence.2
        expiresAt := le_of_number hread.expiresAt
        addresses := (addressesAs_iff hnormal.addresses.count).mp hread.addresses
        relayReservations :=
          (addressesAs_iff hnormal.relayReservations.count).mp hread.relayReservations }
  · intro hportable
    have htimes : r.issuedAt.toNat < r.expiresAt.toNat := hnormal.times
    have hissued : r.issuedAt.toNat ≤ maxSafeInteger :=
      Nat.le_trans (Nat.le_of_lt htimes) hportable.expiresAt
    have hcapabilities := hnormal.capabilities_lt
    have hversion : r.version.toNat = 1 := by
      rw [hnormal.version]
      rfl
    exact
      { version := ⟨congrArg Int.ofNat hversion, .inr
          ((number_uint J.toEngine (hversion ▸ by decide)).trans
            (congrArg (fun n : Nat => some (n : Int)) hversion))⟩
        peerId := ⟨hportable.peerID.1.symm, hportable.peerID.2⟩
        sequence := ⟨Int.natCast_nonneg _, number_uint J.toEngine hportable.sequence⟩
        issuedAt := number_uint J.toEngine hissued
        expiresAt := number_uint J.toEngine hportable.expiresAt
        times := ⟨Int.natCast_nonneg _, Int.ofNat_lt.mpr htimes⟩
        services := by
          refine ⟨_, r.inScript.services, rfl, ?_, ?_, ?_, hnormal.services_inScript.symm⟩
          · rw [List.length_map]
            exact List.length_pos_iff.mpr hnormal.nonempty
          · rw [List.length_map]
            exact hnormal.count
          · refine List.forall₂_map_left_iff.mpr (List.forall₂_map_right_iff.mpr ?_)
            refine List.forall₂_same.mpr fun service hmem => ⟨number_service service, ?_⟩
            have hlt := service.toNat_lt
            have hne : service.toNat ≠ 0 := fun heq =>
              hnormal.nonzero service hmem (UInt16.toNat_inj.mp heq)
            omega
        addresses := (addressesAs_iff hnormal.addresses.count).mpr hportable.addresses
        relayReservations :=
          (addressesAs_iff hnormal.relayReservations.count).mpr hportable.relayReservations
        capabilities := by
          refine ⟨number_uint J.toEngine (Nat.le_trans (Nat.le_of_lt hcapabilities) (by decide)),
            Int.natCast_nonneg _, ?_⟩
          have hsmall : r.capabilities.toNat % 2 ^ 32 < 128 := by omega
          exact hsmall }

end Record

namespace Options
variable {j : ScriptRecord} {r : Record L}

theorem checkPeerId_iff (hL : L.Lawful) (o : Options L) (h : r.Documented)
    (hpeer : j.peerId = ofUtf8 (L.idString r.peerID)) :
    o.forScript.checkPeerId j = .ok () ↔
      ¬ (o.forGo.expectedPeerID ≠ [] ∧ r.peerID ≠ o.forGo.expectedPeerID) := by
  simp only [ScriptOptions.checkPeerId, forScript, forGo]
  cases o.expectedPeerID with
  | none => simp
  | some id =>
    -- The text of a PeerId determines it.
    have hid : j.peerId = ofUtf8 (L.idString id.val) ↔ r.peerID = id.val := by
      rw [hpeer]
      constructor
      · intro heq
        have hutf8 := congrArg Utf8.encode heq
        rw [encode_ofUtf8 (hL.idString_valid h.peerID),
          encode_ofUtf8 (hL.idString_valid id.property.2)] at hutf8
        have hdecode := h.peerID
        rw [hutf8, id.property.2] at hdecode
        exact (Except.ok.inj hdecode).symm
      · intro heq
        rw [heq]
    simp [hid, id.property.1]

theorem checkService_iff (o : Options L) (hservices : j.services = r.inScript.services) :
    o.forScript.checkService J j = .ok () ↔
      ¬ (o.forGo.expectedService ≠ 0 ∧ o.forGo.expectedService ∉ r.services) := by
  simp only [ScriptOptions.checkService, forScript, forGo]
  cases o.expectedService with
  | none => simp
  | some service =>
    have hmem : (service.val.toNat : Int) ∈ j.services ↔ service.val ∈ r.services := by
      rw [hservices]
      constructor
      · intro hmem
        obtain ⟨other, hother, heq⟩ := List.mem_map.mp hmem
        rw [← UInt16.toNat_inj.mp (Int.ofNat.inj heq)]
        exact hother
      · exact fun hmem => List.mem_map_of_mem hmem
    have hnormal : normalizeService J (some (.uint service.val.toNat)) =
        .ok (service.val.toNat : Int) := by
      have hlt := service.val.toNat_lt
      have hne : service.val.toNat ≠ 0 := fun heq => service.property (UInt16.toNat_inj.mp heq)
      exact normalizeService_ok_iff.mpr ⟨Record.number_service service.val, by omega, by omega⟩
    simp [hnormal, bind, Except.bind, hmem, service.property]

theorem checkExpected_iff (hL : L.Lawful) (o : Options L) (h : r.Documented)
    (hpeer : j.peerId = ofUtf8 (L.idString r.peerID))
    (hservices : j.services = r.inScript.services) :
    o.forScript.checkExpected J j = .ok () ↔ o.forGo.checkExpected r = .ok () := by
  rw [ScriptOptions.checkExpected, bind_eq_ok, VerifyOptions.checkExpected, ite_error_eq_ok,
    ite_error_eq_ok, ← o.checkPeerId_iff hL h hpeer, ← o.checkService_iff (J := J) hservices]
  constructor
  · rintro ⟨_, hid, hservice⟩
    exact ⟨hid, hservice, rfl⟩
  · rintro ⟨hid, hservice, -⟩
    exact ⟨(), hid, hservice⟩

/-- With a skew and an instant of its own, both check the same window of seconds. -/
theorem checkTime_iff (o : Options L) (hskew : 0 < o.skew) (hnow : o.now.natAbs ≤ maxSafeInteger)
    (hzero : o.now ≠ -unixToInternal) (clock : Time)
    (hissued : r.issuedAt.toNat ≤ maxSafeInteger) (hexpires : r.expiresAt.toNat ≤ maxSafeInteger) :
    o.forScript.checkTime r.inScript = .ok () ↔ o.forGo.checkTime clock r = .ok () := by
  have hsafe : maxSafeInteger = 2 ^ 53 - 1 := rfl
  have hrange := o.skew_range
  have hgiven : (unix o.now).isZero = false := by
    have hsec : wrap64 (o.now + unixToInternal) = o.now + unixToInternal :=
      wrap64_of_range (by rw [unixToInternal]; omega)
    simp only [Time.isZero, unix, hsec, decide_eq_false_iff_not]
    omega
  have hnegated : wrap64 (-(o.skew * second)) = -o.skew * second := by
    rw [wrap64_of_range (by rw [second]; omega), Int.neg_mul]
  have hgo : o.forGo.checkTime clock r = .ok () ↔
      (r.issuedAt.toNat : Int) ≤ o.now + o.skew ∧ o.now + -o.skew ≤ r.expiresAt.toNat := by
    have hnonzero : o.forGo.clockSkew ≠ 0 := by
      simp only [forGo, second]
      omega
    have hnow : ¬ o.forGo.now.isZero = true := by
      simp only [forGo, hgiven, Bool.false_eq_true, not_false_eq_true]
    rw [VerifyOptions.checkTime, if_neg hnonzero, if_neg hnow]
    simp only [forGo, hnegated]
    rw [unix_add (by omega) (by omega), unix_add (by omega) (by omega), ite_error_eq_ok,
      ite_error_eq_ok, Time.after, wrap64_of_range (by omega), wrap64_of_range (by omega),
      before_unix (by omega) (by omega), before_unix (by omega) (by omega)]
    simp only [Int.not_lt, and_true]
  have hnumber : ∀ (value : Int) label, value.natAbs ≤ maxSafeInteger →
      safeNumber value label = .ok value := fun _ _ h => if_pos h
  rw [hgo, ScriptOptions.checkTime]
  simp only [forScript, hnumber _ _ hnow, hnumber o.skew _ (by omega)]
  change (if o.skew < 0 then _ else _) = _ ↔ _
  rw [ite_error_eq_ok, ite_error_eq_ok, ite_error_eq_ok]
  simp only [Record.inScript, and_true]
  omega

end Options

def Agree (J : ScriptLibraries L) (K : Keys) (clock : Time) (dateNow : Int) (envelope : Bytes)
    (o : Options L) : Prop :=
  match verify L K clock envelope o.forGo, verifyRouteRecord J K dateNow envelope o.forScript with
  | .ok r, .ok j => j = r.inScript
  | .error _, .error _ => True
  | _, _ => False

structure Shared (J : ScriptLibraries L) (K : Keys) (clock : Time) (dateNow : Int)
    (envelope : Bytes) (o : Options L) : Prop where
  portable : ∀ (r : Record L) publicBytes signature key,
    Signed K envelope r publicBytes signature key → o.forGo.checkExpected r = .ok () →
    o.forGo.checkTime clock r = .ok () →
    publicBytes ≠ none ∧ signature ≠ none ∧ r.Portable J ∧
      o.forScript.checkTime r.inScript = .ok ()
  documented : ∀ payload publicKeyBytes signature key fields j,
    Taken J K dateNow envelope payload publicKeyBytes signature key fields j →
    o.forScript.checkExpected J j = .ok () → o.forScript.checkTime j = .ok () →
    ∃ r : Record L, payload = r.payload ∧ r.Documented ∧ K.idFromPublicKey key = .ok r.peerID ∧
      o.forGo.checkTime clock r = .ok ()

variable {key : K.PublicKey}

theorem Signed.written {r : Record L} {publicBytes signature : Bytes}
    (h : Signed K envelope r (some publicBytes) (some signature) key) (E : Engine) :
    Written E 3 envelope (envelopeFields r.payload (some publicBytes) (some signature)) where
  decoded := h.decoded
  encoded := h.encoded
  ordered := by
    have hkeys : (envelopeFields r.payload (some publicBytes) (some signature)).map Prod.fst =
        List.range 4 := rfl
    rw [hkeys]
    exact List.pairwise_lt_range
  known := by simp [envelopeFields]
  settled := by simp [envelopeFields, Cbor.ofSlice, deterministic]

theorem Signed.taken (hL : L.Lawful) {r : Record L}
    {publicBytes signature : Bytes}
    (h : Signed K envelope r (some publicBytes) (some signature) key) (hportable : r.Portable J)
    (dateNow : Int) :
    Taken J K dateNow envelope r.payload publicBytes signature key r.fields r.inScript where
  envelope := h.written J.toEngine
  size := by
    have hpos : 0 < r.payload.length := Cbor.length_encode_pos r.item
    have hsize := h.documented.size
    omega
  unmarshaled := h.unmarshaled
  verified := h.verified
  payload := h.documented.written hL J.toEngine
  record := h.documented.readAs_iff.mpr hportable
  author := ⟨r.peerID, h.author, rfl⟩

theorem Taken.signed {r : Record L}
    {publicKeyBytes signature : Bytes} {fields : List (Nat × Cbor.Item)}
    {j : ScriptRecord}
    (h : Taken J K dateNow envelope r.payload publicKeyBytes signature key fields j)
    (hdocumented : r.Documented) (hauthor : K.idFromPublicKey key = .ok r.peerID) :
    Signed K envelope r (some publicKeyBytes) (some signature) key where
  decoded := h.envelope.decoded
  encoded := h.envelope.encoded
  documented := hdocumented
  unmarshaled := h.unmarshaled
  verified := h.verified
  author := hauthor

/-- The two verifiers agree on an envelope exactly when every signed record in it that `Verify`
takes is portable, and all that JavaScript takes in it is such a record. -/
theorem verifiers_agree_iff (hL : L.Lawful) {K : Keys} {clock : Time} {dateNow : Int}
    {envelope : Bytes} {o : Options L} :
    Agree J K clock dateNow envelope o ↔ Shared J K clock dateNow envelope o := by
  constructor
  · intro h
    rw [Agree] at h
    constructor
    · intro r publicBytes signature key hsigned hexpected htime
      rw [(verify_ok_iff hL).mpr ⟨⟨publicBytes, signature, key, hsigned⟩, hexpected, htime⟩] at h
      cases hscript : verifyRouteRecord J K dateNow envelope o.forScript with
      | error err =>
        rw [hscript] at h
        exact h.elim
      | ok j =>
        rw [hscript] at h
        obtain rfl : j = r.inScript := h
        obtain ⟨⟨payload, publicKeyBytes, signed, other, fields, htaken⟩, -, hscriptTime⟩ :=
          verifyRouteRecord_ok_iff.mp hscript
        have hsame := htaken.envelope.unique hsigned.decoded
        simp only [envelopeFields, List.cons.injEq, Prod.mk.injEq, Cbor.Item.bytes.injEq,
          true_and, and_true] at hsame
        obtain ⟨rfl, hpublic, hsignature⟩ := hsame
        obtain rfl := htaken.payload.unique (hsigned.documented.decode_payload hL)
        refine ⟨?_, ?_, hsigned.documented.readAs_iff.mp htaken.record, hscriptTime⟩
        · rintro rfl
          cases hpublic
        · rintro rfl
          cases hsignature
    · intro payload publicKeyBytes signature key fields j htaken hexpected htime
      rw [verifyRouteRecord_ok_iff.mpr
        ⟨⟨payload, publicKeyBytes, signature, key, fields, htaken⟩, hexpected, htime⟩] at h
      cases hgo : verify L K clock envelope o.forGo with
      | error err =>
        rw [hgo] at h
        exact h.elim
      | ok r =>
        obtain ⟨⟨publicBytes, signed, other, hsigned⟩, -, hgoTime⟩ := (verify_ok_iff hL).mp hgo
        have hsame := htaken.envelope.unique hsigned.decoded
        simp only [envelopeFields, List.cons.injEq, Prod.mk.injEq, Cbor.Item.bytes.injEq,
          true_and, and_true] at hsame
        obtain ⟨rfl, hpublic, hsignature⟩ := hsame
        cases publicBytes with
        | none => cases hpublic
        | some publicBytes =>
          cases hpublic
          obtain rfl : other = key :=
            Except.ok.inj (hsigned.unmarshaled.symm.trans htaken.unmarshaled)
          exact ⟨r, rfl, hsigned.documented, hsigned.author, hgoTime⟩
  · intro h
    cases hgo : verify L K clock envelope o.forGo with
    | ok r =>
      obtain ⟨⟨publicBytes, signature, key, hsigned⟩, hexpected, htime⟩ := (verify_ok_iff hL).mp hgo
      obtain ⟨hpublic, hsignature, hportable, hscriptTime⟩ :=
        h.portable r publicBytes signature key hsigned hexpected htime
      obtain ⟨publicBytes, rfl⟩ := Option.ne_none_iff_exists'.mp hpublic
      obtain ⟨signature, rfl⟩ := Option.ne_none_iff_exists'.mp hsignature
      have hscript : verifyRouteRecord J K dateNow envelope o.forScript = .ok r.inScript :=
        verifyRouteRecord_ok_iff.mpr ⟨⟨r.payload, publicBytes, signature, key, r.fields,
          hsigned.taken hL hportable dateNow⟩,
          (o.checkExpected_iff hL hsigned.documented rfl rfl).mpr hexpected, hscriptTime⟩
      rw [Agree, hgo, hscript]
    | error err =>
      rw [Agree, hgo]
      cases hscript : verifyRouteRecord J K dateNow envelope o.forScript with
      | error other => trivial
      | ok j =>
        obtain ⟨⟨payload, publicKeyBytes, signature, key, fields, htaken⟩, hexpected, htime⟩ :=
          verifyRouteRecord_ok_iff.mp hscript
        obtain ⟨r, rfl, hdocumented, hauthor, hgoTime⟩ :=
          h.documented payload publicKeyBytes signature key fields j htaken hexpected htime
        obtain rfl := htaken.payload.unique (hdocumented.decode_payload hL)
        obtain ⟨id, hid, hpeer⟩ := htaken.author
        obtain rfl : id = r.peerID := Except.ok.inj (hid.symm.trans hauthor)
        have hservices := hdocumented.normal.services_read htaken.record
        rw [(verify_ok_iff hL).mpr ⟨⟨some publicKeyBytes, some signature, key,
          htaken.signed hdocumented hauthor⟩,
          (o.checkExpected_iff hL hdocumented hpeer hservices).mp hexpected, hgoTime⟩] at hgo
        cases hgo

def plainKeys : Keys where
  PublicKey := Bytes
  unmarshalPublicKey := fun key => .ok key
  verify := fun key payload signature => .ok (signature = key ++ payload)
  idFromPublicKey := plainID

def plainEnvelope (fields : List (Nat × Cbor.Item)) : Bytes :=
  let payload := Cbor.encode (.map (Cbor.uintPairs fields))
  let key := ascii "12D3KooWQ3uxpHgjDKE6vGmvzKS8RPbxUDLwJ7XCLaD6YXdUfbR9"
  Cbor.encode (.map (Cbor.uintPairs (envelopeFields payload (some key) (some (key ++ payload)))))

def plainRecord : Record plainLibraries where
  version := 1
  peerID := ascii "12D3KooWQ3uxpHgjDKE6vGmvzKS8RPbxUDLwJ7XCLaD6YXdUfbR9"
  sequence := 7
  issuedAt := 1700000000
  expiresAt := 1700000180
  services := [80, 8080]
  addresses := [ascii "dns4/a/tcp/4001", ascii "dns4/b/tcp/4001"]
  relayReservations := []
  capabilities := 5

def plainOptions (skew : Int) (h : -9223372036 ≤ skew ∧ skew ≤ 9223372036) :
    Options plainLibraries where
  expectedPeerID := some ⟨ascii "12D3KooWQ3uxpHgjDKE6vGmvzKS8RPbxUDLwJ7XCLaD6YXdUfbR9", by decide, by decide⟩
  expectedService := some ⟨8080, by decide⟩
  now := 1699999990
  skew := skew
  now_range := by decide
  skew_range := h

theorem checkTime_iff_example :
    (plainOptions 30 (by decide)).forGo.checkTime (unix 0) plainRecord = .ok () ∧
      (plainOptions 30 (by decide)).forScript.checkTime plainRecord.inScript = .ok () := by
  have hgo : (plainOptions 30 (by decide)).forGo.checkTime (unix 0) plainRecord = .ok () := by
    decide +kernel
  exact ⟨hgo, (Options.checkTime_iff _ (by decide) (by decide) (by decide) _ (by decide)
    (by decide)).mpr hgo⟩

theorem agree_iff_toOption {clock : Time}
    {o : Options L} : Agree J K clock dateNow envelope o ↔
      (verify L K clock envelope o.forGo).toOption.map Record.inScript =
        (verifyRouteRecord J K dateNow envelope o.forScript).toOption := by
  rw [Agree]
  cases verify L K clock envelope o.forGo with
  | ok r =>
    cases verifyRouteRecord J K dateNow envelope o.forScript with
    | ok j => exact ⟨fun h => congrArg some h.symm, fun h => (Option.some.inj h).symm⟩
    | error err => exact ⟨False.elim, fun h => nomatch h⟩
  | error err =>
    cases verifyRouteRecord J K dateNow envelope o.forScript with
    | ok j => exact ⟨False.elim, fun h => nomatch h⟩
    | error other => exact ⟨fun _ => rfl, fun _ => trivial⟩

theorem verifiers_agree_iff_example : ∃ (envelope : Bytes) (o : Options plainLibraries),
    (verify plainLibraries plainKeys (unix 0) envelope o.forGo).toOption.isSome = true ∧
    Agree plainScript plainKeys (unix 0) 0 envelope o ∧
    Shared plainScript plainKeys (unix 0) 0 envelope o := by
  obtain ⟨envelope, o, htaken, hagree⟩ : ∃ (envelope : Bytes) (o : Options plainLibraries),
      (verify plainLibraries plainKeys (unix 0) envelope o.forGo).toOption.isSome = true ∧
      Agree plainScript plainKeys (unix 0) 0 envelope o := by
    refine ⟨plainEnvelope plainRecord.fields, plainOptions 30 (by decide), ?_, ?_⟩
    · decide +kernel
    · rw [agree_iff_toOption]
      decide +kernel
  exact ⟨envelope, o, htaken, hagree, (verifiers_agree_iff plainLibraries_lawful).mp hagree⟩

def unknownCapability : Bytes := plainEnvelope { plainRecord with capabilities := 4294967296 }.fields

def unversioned : Bytes := plainEnvelope (plainRecord.fields.filter fun field =>
  field.1 ≠ 0 ∧ field.1 ≠ 2)

def longLived : Bytes := plainEnvelope { plainRecord with sequence := 9007199254740992 }.fields

theorem verifiers_disagree : ∃ o p : Options plainLibraries,
    (verifyRouteRecord plainScript plainKeys 0 unknownCapability o.forScript).toOption.isSome =
        true ∧
      ¬ Agree plainScript plainKeys (unix 0) 0 unknownCapability o ∧
    (verifyRouteRecord plainScript plainKeys 0 unversioned o.forScript).toOption.isSome = true ∧
      ¬ Agree plainScript plainKeys (unix 0) 0 unversioned o ∧
    (verify plainLibraries plainKeys (unix 0) longLived o.forGo).toOption.isSome = true ∧
      ¬ Agree plainScript plainKeys (unix 0) 0 longLived o ∧
    p.skew = 0 ∧ ¬ Agree plainScript plainKeys (unix 0) 0 (plainEnvelope plainRecord.fields) p := by
  refine ⟨plainOptions 30 (by decide), plainOptions 0 (by decide), ?_⟩
  simp only [agree_iff_toOption]
  decide +kernel

end P2PNetcat.RouteRecord
