import P2PNetcat.Protocol.PairingRoundTrip
import P2PNetcat.Protocol.RouteRecordCodec
import Mathlib.Data.List.AList

/-!
# Signing route records

`Sign` completes a record, encodes it and signs the payload. Which of the
envelopes it returns `Verify` takes, what the time window of `Verify` says of
the numbers in the record, and that the payload depends on neither the order
nor the repetition of what the record lists, for any order in which Go iterates
over a map and for any sort.
-/

namespace P2PNetcat.RouteRecord
open List ByteCodec Fallible GoTime
open P2PNetcat.Pairing (PeerID Libraries plainID plainLibraries plainLibraries_lawful plainID_ok)
open P2PNetcat.Pairing.Token (stringSize stringSize_eq length_encodeItems_texts)

variable {L : Libraries}

/-- What `Sign` calls beyond what `Verify` does. A nil slice is `none`. -/
structure Signer extends Keys where
  PrivateKey : Type
  getPublic : PrivateKey → PublicKey
  sign : PrivateKey → Bytes → Except String (Option Bytes)
  marshalPublicKey : PublicKey → Except String (Option Bytes)

/-- A key verifies what it signed and is read back as it was written, the PeerId of a key is read
back from its text, and all slices have a length. -/
structure Signer.Lawful (S : Signer) (L : Libraries) : Prop where
  verify_sign : ∀ {key payload signature}, S.sign key payload = .ok signature →
    S.verify (S.getPublic key) payload (signature.getD []) = .ok true
  unmarshal_marshal : ∀ {key bytes}, S.marshalPublicKey key = .ok bytes →
    S.unmarshalPublicKey (bytes.getD []) = .ok key
  decodeID_author : ∀ {key id}, S.idFromPublicKey key = .ok id →
    L.decodeID (L.idString id) = .ok id
  sign_length : ∀ {key payload signature}, S.sign key payload = .ok signature →
    payload.length < 2 ^ 63 ∧ (signature.getD []).length < 2 ^ 63
  marshal_length : ∀ {key bytes}, S.marshalPublicKey key = .ok bytes →
    (bytes.getD []).length < 2 ^ 63

def defaultTTL : Int := 180 * second

/-- The record with the PeerId of the key and the defaults of `Sign` at the time `now`. -/
def Record.withDefaults (r : Record L) (peerID : PeerID) (now : Time) : Record L :=
  { r with
    peerID
    version := if r.version = 0 then recordVersion else r.version
    issuedAt := if r.issuedAt = 0 then UInt64.ofInt now.toUnix else r.issuedAt
    expiresAt := if r.expiresAt = 0 then UInt64.ofInt (now.add defaultTTL).toUnix else r.expiresAt }

def sign (S : Signer) (clock : Time) (privateKey : S.PrivateKey) (record : Record L) :
    Except String Bytes := do
  let publicKey := S.getPublic privateKey
  let peerID ← S.idFromPublicKey publicKey
  let payload ← encodePayload (record.withDefaults peerID clock)
  let signature ← S.sign privateKey payload
  let publicBytes ← S.marshalPublicKey publicKey
  .ok (Cbor.encode (.map (Cbor.uintPairs (envelopeFields payload publicBytes signature))))

namespace Record

def textsSize (texts : List Bytes) : Nat :=
  Cbor.headSize texts.length + (texts.map fun text => stringSize text.length).sum

def payloadSize (r : Record L) : Nat :=
  let services := (r.services.filter fun service => service ≠ 0).dedup
  1 + (1 + Cbor.headSize r.version.toNat) + (1 + stringSize (L.idString r.peerID).length) +
    (1 + Cbor.headSize r.sequence.toNat) + (1 + Cbor.headSize r.issuedAt.toNat) +
    (1 + Cbor.headSize r.expiresAt.toNat) +
    (1 + Cbor.headSize services.length +
      (services.map fun service => Cbor.headSize service.toNat).sum) +
    (1 + textsSize (distinctTexts L r.addresses)) +
    (1 + textsSize (distinctTexts L r.relayReservations)) +
    (1 + Cbor.headSize r.capabilities.toNat)

theorem length_addressItem (values : List L.Multiaddr) :
    (Cbor.encode (addressItem (uniqueAddresses values))).length =
      textsSize (distinctTexts L values) := by
  have hmap : (uniqueAddresses values).map (fun a => Cbor.Item.text (L.addrString a)) =
      ((distinctTexts L values).insertionSort (· ≤ ·)).map .text := by
    rw [← map_uniqueAddresses, map_map]
    rfl
  have hperm : ((distinctTexts L values).insertionSort (· ≤ ·)).Perm (distinctTexts L values) :=
    perm_insertionSort ..
  rw [addressItem, hmap, Cbor.encode, length_append, Cbor.length_head,
    length_encodeItems_texts, length_map, hperm.length_eq, (hperm.map _).sum_nat, textsSize]

theorem length_encodeItems_services (services : List UInt16) :
    (Cbor.encodeItems (services.map fun service => .uint service.toNat)).length =
      (services.map fun service => Cbor.headSize service.toNat).sum := by
  induction services with
  | nil => rfl
  | cons service services ih =>
    simp only [map_cons, Cbor.encodeItems, Cbor.encode, length_append, Cbor.length_head,
      ih, sum_cons]

theorem length_payload_tidy (r : Record L) : r.tidy.payload.length = r.payloadSize := by
  have hperm := uniqueServices_perm r.services
  rw [payload, item, Cbor.encode, length_append, Cbor.length_head, Cbor.length_uintPairs,
    Cbor.length_encodePairs_uint]
  simp (disch := decide) only [fields, tidy, payloadSize, map_cons, map_nil,
    length_cons, length_nil, sum_cons, sum_nil, length_addressItem, Cbor.encode,
    length_append, length_map, Cbor.length_head, length_encodeItems_services,
    hperm.length_eq, (hperm.map _).sum_nat, Cbor.headSize_of_lt, ← stringSize_eq]
  omega

end Record

namespace VerifyOptions

def time (options : VerifyOptions) (clock : Time) : Time :=
  if options.now.isZero then clock else options.now

def skew (options : VerifyOptions) : Int :=
  if options.clockSkew = 0 then 30 * second else options.clockSkew

theorem checkTime_ok_iff {options : VerifyOptions} {clock : Time} {r : Record L}
    (hskew : 0 ≤ options.skew ∧ options.skew < 2 ^ 63) (hnow : 0 ≤ (options.time clock).nanos) :
    options.checkTime clock r = .ok () ↔
      (unix (wrap64 r.issuedAt.toNat)).nanos ≤ (options.time clock).nanos + options.skew ∧
        (options.time clock).nanos - options.skew ≤ (unix (wrap64 r.expiresAt.toNat)).nanos := by
  have hwrap : wrap64 (-options.skew) = -options.skew := wrap64_of_range (by omega)
  have hdef : options.checkTime clock r =
      if (unix (wrap64 r.issuedAt.toNat)).after ((options.time clock).add options.skew) then
        .error "route record was issued in the future"
      else if (unix (wrap64 r.expiresAt.toNat)).before
          ((options.time clock).add (wrap64 (-options.skew))) then
        .error "route record has expired"
      else .ok () := rfl
  rw [hdef, ite_error_eq_ok, ite_error_eq_ok, hwrap, Time.after_add rfl hskew.1,
    Time.before_add rfl hskew.1 (by omega)]
  simp only [and_true, Int.not_lt]

end VerifyOptions

theorem normalize_of_decodePayload {payload : Bytes} {r : Record L}
    (h : decodePayload L payload = .ok r) : ∃ raw, normalize raw = .ok r := by
  simp only [decodePayload, bind_eq_ok] at h
  obtain ⟨fields, -, version, -, peerText, -, sequence, -, issuedAt, -, expiresAt, -, numbers, -,
    texts, -, relays, -, capabilities, -, peerID, -, services, -, addresses, -, reservations, -,
    record, hrecord, h⟩ := h
  split at h
  · split at h
    · cases h
      exact ⟨_, hrecord⟩
    · cases h
  · cases h

variable {options : VerifyOptions}

theorem times_of_verify {K : Keys} {clock : Time} {envelope : Bytes}
    {r : Record L} (h : verify L K clock envelope options = .ok r) :
    r.issuedAt < r.expiresAt ∧ options.checkTime clock r = .ok () := by
  obtain ⟨fields, hfields, h⟩ := bind_eq_ok.mp h
  simp only [bind_eq_ok, ite_error_eq_ok] at h
  obtain ⟨version, hversion, -, payload, hpayload, -, publicBytes, hpublic, signature, hsignature,
    key, hkey, h⟩ := h
  split at h
  · obtain ⟨record, hrecord, h⟩ := bind_eq_ok.mp h
    simp only [bind_eq_ok, ite_error_eq_ok] at h
    obtain ⟨id, hid, -, _, hexpected, _, htime, -, h⟩ := h
    cases h
    obtain ⟨raw, hraw⟩ := normalize_of_decodePayload hrecord
    obtain ⟨-, hlt, rfl⟩ := normalize_ok hraw
    exact ⟨hlt, htime⟩
  · cases h

/-- Options that ask for the record's own PeerId and one of its services or none, at a time
between its two. -/
structure VerifyOptions.Matches (options : VerifyOptions) (clock : Time) (r : Record L) : Prop where
  peerID : options.expectedPeerID = r.peerID
  service : options.expectedService = 0 ∨ options.expectedService ∈ r.services
  skew : 0 ≤ options.clockSkew ∧ options.clockSkew < 2 ^ 63
  issued : (r.issuedAt.toNat : Int) * second ≤ (options.time clock).nanos
  expires : (options.time clock).nanos ≤ (r.expiresAt.toNat : Int) * second

/-- `Verify` gives the record back, tidied up, for all such options. -/
def Verifies (K : Keys) (envelope : Bytes) (r : Record L) : Prop :=
  ∀ clock options, VerifyOptions.Matches options clock r →
    verify L K clock envelope options = .ok r.tidy

structure Record.Verifiable (r : Record L) : Prop where
  service : ∃ service ∈ r.services, service ≠ 0
  valid : ∀ a ∈ r.addresses ++ r.relayReservations, L.isNil a = false →
    Utf8.valid (L.addrString a) = true
  size : r.payloadSize ≤ maxPayloadBytes
  expiresAt : (r.expiresAt.toNat : Int) < unixEnd

theorem VerifyOptions.skew_range
    (h : 0 ≤ options.clockSkew ∧ options.clockSkew < 2 ^ 63) :
    0 ≤ options.skew ∧ options.skew < 2 ^ 63 := by
  rw [VerifyOptions.skew]
  split
  · decide
  · exact h

structure SignedAs (S : Signer) (key : S.PrivateKey) (envelope : Bytes) (r : Record L)
    (publicBytes signature : Option Bytes) : Prop where
  normalized : normalize r = .ok r.tidy
  author : S.idFromPublicKey (S.getPublic key) = .ok r.peerID
  signed : S.sign key r.tidy.payload = .ok signature
  marshaled : S.marshalPublicKey (S.getPublic key) = .ok publicBytes
  encoded : envelope =
    Cbor.encode (.map (Cbor.uintPairs (envelopeFields r.tidy.payload publicBytes signature)))

theorem signedAs_of_sign {S : Signer} {clock : Time} {key : S.PrivateKey} {record : Record L}
    {envelope : Bytes} {peerID : PeerID} (hid : S.idFromPublicKey (S.getPublic key) = .ok peerID)
    (h : sign S clock key record = .ok envelope) :
    ∃ publicBytes signature,
      SignedAs S key envelope (record.withDefaults peerID clock) publicBytes signature := by
  obtain ⟨id, hauthor, h⟩ := bind_eq_ok.mp h
  obtain rfl : id = peerID := Except.ok.inj (hauthor.symm.trans hid)
  obtain ⟨payload, hpayload, h⟩ := bind_eq_ok.mp h
  obtain ⟨signature, hsignature, h⟩ := bind_eq_ok.mp h
  obtain ⟨publicBytes, hpublic, h⟩ := bind_eq_ok.mp h
  obtain ⟨normalized, hnormalized, heq⟩ := bind_eq_ok.mp hpayload
  obtain ⟨-, -, rfl⟩ := normalize_ok hnormalized
  cases heq
  exact ⟨publicBytes, signature, hnormalized, hauthor, hsignature, hpublic,
    (Except.ok.inj h).symm⟩

namespace SignedAs
variable {S : Signer} {key : S.PrivateKey} {envelope : Bytes} {r : Record L}
  {publicBytes signature : Option Bytes}

theorem decoded (hS : S.Lawful L) (h : SignedAs S key envelope r publicBytes signature) :
    Cbor.decode envelope = some (.map (Cbor.uintPairs
      (envelopeFields r.tidy.payload publicBytes signature))) := by
  have hslice : ∀ slice : Option Bytes, (slice.getD []).length < 2 ^ 63 →
      Cbor.Bounded (Cbor.ofSlice slice) := by
    intro slice hlength
    cases slice with
    | none => exact .inl (by decide)
    | some bytes =>
      rw [Option.getD_some] at hlength
      have hshort : bytes.length < 2 ^ 64 := by omega
      exact hshort
  obtain ⟨hpayload, hsignature⟩ := hS.sign_length h.signed
  rw [h.encoded]
  exact decode_envelope (by omega) (hslice _ (hS.marshal_length h.marshaled)) (hslice _ hsignature)

/-- `Verify` takes the envelope as the tidied record exactly if that is documented and the options
are met. -/
theorem verify_ok_iff (hL : L.Lawful) (hS : S.Lawful L)
    (h : SignedAs S key envelope r publicBytes signature) {clock : Time} :
    verify L S.toKeys clock envelope options = .ok r.tidy ↔ r.tidy.Documented ∧
      options.checkExpected r.tidy = .ok () ∧ options.checkTime clock r.tidy = .ok () := by
  rw [RouteRecord.verify_ok_iff hL]
  refine and_congr_left fun _ => ?_
  constructor
  · rintro ⟨_, _, _, hsigned⟩
    exact hsigned.documented
  · intro hdocumented
    exact ⟨publicBytes, signature, S.getPublic key, h.decoded hS, h.encoded.symm, hdocumented,
      hS.unmarshal_marshal h.marshaled, hS.verify_sign h.signed, h.author⟩

theorem documented_iff (hS : S.Lawful L) (h : SignedAs S key envelope r publicBytes signature) :
    r.tidy.Documented ↔ (∃ service ∈ r.services, service ≠ 0) ∧
      (∀ a ∈ r.addresses ++ r.relayReservations, L.isNil a = false →
        Utf8.valid (L.addrString a) = true) ∧ r.payloadSize ≤ maxPayloadBytes := by
  have htexts : ∀ {values : List L.Multiaddr} {a : L.Multiaddr}, a ∈ values → L.isNil a = false →
      ∃ b ∈ uniqueAddresses values, L.addrString b = L.addrString a := by
    intro values a hmem hnil
    have hin : L.addrString a ∈ (uniqueAddresses values).map L.addrString := by
      rw [map_uniqueAddresses, mem_insertionSort, mem_distinctTexts]
      exact ⟨a, hmem, hnil, rfl⟩
    exact mem_map.mp hin
  rw [← Record.length_payload_tidy]
  constructor
  · intro hdocumented
    refine ⟨?_, ?_, hdocumented.size⟩
    · obtain ⟨service, hmem⟩ := exists_mem_of_ne_nil _ hdocumented.normal.nonempty
      exact ⟨service, mem_uniqueServices.mp hmem⟩
    · intro a hmem hnil
      rcases mem_append.mp hmem with hmem | hmem
      · obtain ⟨b, hb, htext⟩ := htexts hmem hnil
        exact htext ▸ hdocumented.valid b (mem_append_left _ hb)
      · obtain ⟨b, hb, htext⟩ := htexts hmem hnil
        exact htext ▸ hdocumented.valid b (mem_append_right _ hb)
  · rintro ⟨hservice, hvalid, hsize⟩
    refine ⟨normal_of_normalize hservice h.normalized, hS.decodeID_author h.author, ?_, hsize⟩
    intro a hmem
    rcases mem_append.mp hmem with hmem | hmem
    · obtain ⟨ha, hnil⟩ := mem_of_mem_uniqueAddresses hmem
      exact hvalid a (mem_append_left _ ha) hnil
    · obtain ⟨ha, hnil⟩ := mem_of_mem_uniqueAddresses hmem
      exact hvalid a (mem_append_right _ ha) hnil

end SignedAs

namespace VerifyOptions.Matches
variable {options : VerifyOptions} {clock : Time} {r : Record L}

theorem checkExpected (h : Matches options clock r) :
    options.checkExpected r.tidy = .ok () := by
  refine ite_error_eq_ok.mpr ⟨fun hpeer => hpeer.2 h.peerID.symm, ?_⟩
  refine ite_error_eq_ok.mpr ⟨?_, rfl⟩
  rintro ⟨hgiven, hmissing⟩
  exact hmissing (mem_uniqueServices.mpr ⟨h.service.resolve_left hgiven, hgiven⟩)

theorem checkTime (h : Matches options clock r) (hend : (r.expiresAt.toNat : Int) < unixEnd)
    (horder : r.issuedAt < r.expiresAt) : options.checkTime clock r.tidy = .ok () := by
  have hskew := skew_range h.skew
  have hissued := h.issued
  have hexpires := h.expires
  have hlt : r.issuedAt.toNat < r.expiresAt.toNat := horder
  have hrange := r.expiresAt.toNat_lt
  have hnow : 0 ≤ (options.time clock).nanos := by
    rw [second] at hissued
    omega
  refine (checkTime_ok_iff hskew hnow).mpr ?_
  simp only [Record.tidy]
  rw [(nanos_unix (n := r.expiresAt.toNat) (by omega)).1 hend,
    (nanos_unix (n := r.issuedAt.toNat) (by omega)).1 (by omega)]
  omega

end VerifyOptions.Matches

def lastSecond : Time := ⟨2 ^ 63 - 1, 0, by decide, nsec_zero⟩

def VerifyOptions.at (r : Record L) (now : Time) : VerifyOptions := ⟨r.peerID, 0, now, 0⟩

theorem matches_at (r : Record L) (now clock : Time)
    (hissued : (r.issuedAt.toNat : Int) * second ≤ now.nanos)
    (hexpires : now.nanos ≤ (r.expiresAt.toNat : Int) * second) :
    (VerifyOptions.at r now).time clock = now ∧
      VerifyOptions.Matches (VerifyOptions.at r now) clock r := by
  have hnow : 0 ≤ now.nanos := by
    rw [second] at hissued
    omega
  have htime : (VerifyOptions.at r now).time clock = now := by
    simp only [VerifyOptions.time, VerifyOptions.at, Time.isZero_of_nonneg hnow, Bool.false_eq_true,
      if_false]
  exact ⟨htime, rfl, .inl rfl, ⟨Int.le_refl 0, (show (0 : Int) < 2 ^ 63 by decide)⟩, by rwa [htime],
    by rwa [htime]⟩

/-- `Verify` gives back what `Sign` signed exactly if no clock reaches the record's time or the
record is verifiable. -/
theorem signed_record_verifies_iff (hL : L.Lawful) {S : Signer} (hS : S.Lawful L) {clock : Time}
    {key : S.PrivateKey} {record : Record L} {envelope : Bytes} {peerID : PeerID}
    (hid : S.idFromPublicKey (S.getPublic key) = .ok peerID)
    (hsign : sign S clock key record = .ok envelope) :
    Verifies S.toKeys envelope (record.withDefaults peerID clock) ↔
      unixEnd ≤ ((record.withDefaults peerID clock).issuedAt.toNat : Int) ∨
        (record.withDefaults peerID clock).Verifiable := by
  obtain ⟨publicBytes, signature, h⟩ := signedAs_of_sign hid hsign
  generalize record.withDefaults peerID clock = r at h ⊢
  have horder : r.issuedAt < r.expiresAt := (normalize_ok h.normalized).2.1
  have hlt : r.issuedAt.toNat < r.expiresAt.toNat := horder
  have hrange := r.expiresAt.toNat_lt
  constructor
  · intro hverifies
    refine or_iff_not_imp_left.mpr fun hreached => ?_
    rw [Int.not_le] at hreached
    have hend : (r.expiresAt.toNat : Int) < unixEnd := by
      by_contra hlarge
      have hlast : lastSecond.nanos = (unixEnd - 1) * second := by decide
      obtain ⟨htime, hmatches⟩ := matches_at r lastSecond clock
        (by rw [hlast, second]; omega) (by rw [hlast, second]; omega)
      have hchecked := (times_of_verify (hverifies clock _ hmatches)).2
      rw [VerifyOptions.checkTime_ok_iff (VerifyOptions.skew_range hmatches.skew)
        (by rw [htime, hlast]; decide), htime, hlast] at hchecked
      have hbefore := (nanos_unix (n := r.expiresAt.toNat) (by omega)).2 (by omega)
      have hlate := hchecked.2
      simp only [VerifyOptions.skew, VerifyOptions.at, if_true, unixEnd, unixToInternal, second,
        Record.tidy] at hlate
      omega
    have hissued := (nanos_unix (n := r.issuedAt.toNat) (by omega)).1 hreached
    obtain ⟨-, hmatches⟩ := matches_at r (unix (wrap64 r.issuedAt.toNat)) clock
      (by rw [hissued]) (by rw [hissued, second]; omega)
    have hdocumented := ((h.verify_ok_iff hL hS).mp (hverifies clock _ hmatches)).1
    obtain ⟨hservice, hvalid, hsize⟩ := (h.documented_iff hS).mp hdocumented
    exact ⟨hservice, hvalid, hsize, hend⟩
  · rintro (hunreached | hverifiable) now options hmatches
    · have hissued := hmatches.issued
      have hnanos := (options.time now).nanos_lt
      rw [second] at hissued hnanos
      omega
    · exact (h.verify_ok_iff hL hS).mpr ⟨(h.documented_iff hS).mpr
        ⟨hverifiable.service, hverifiable.valid, hverifiable.size⟩, hmatches.checkExpected,
        hmatches.checkTime hverifiable.expiresAt horder⟩

def plainSigner : Signer where
  PublicKey := Bytes
  unmarshalPublicKey := fun key => .ok key
  verify := fun key payload signature => .ok (signature = key ++ payload)
  idFromPublicKey := plainID
  PrivateKey := Bytes
  getPublic := id
  sign := fun key payload =>
    if (key ++ payload).length < 2 ^ 63 then .ok (some (key ++ payload)) else .error "too long"
  marshalPublicKey := fun key => if key.length < 2 ^ 63 then .ok (some key) else .error "too long"

theorem plainSigner_lawful : plainSigner.Lawful plainLibraries where
  verify_sign := by
    intro key payload signature h
    simp only [plainSigner] at h
    split at h
    · cases h
      exact congrArg Except.ok (decide_eq_true rfl)
    · cases h
  unmarshal_marshal := by
    intro key bytes h
    simp only [plainSigner] at h
    split at h
    · cases h
      rfl
    · cases h
  decodeID_author := by
    intro key id h
    obtain rfl := (plainID_ok h).1
    exact h
  sign_length := by
    intro key payload signature h
    simp only [plainSigner] at h
    split at h
    next hshort =>
      cases h
      have hlength : ∀ a b : Bytes, (a ++ b).length = a.length + b.length :=
        fun _ _ => length_append
      have hkey := hlength key payload
      exact ⟨by omega, hshort⟩
    · cases h
  marshal_length := by
    intro key bytes h
    simp only [plainSigner] at h
    split at h
    next hshort =>
      cases h
      exact hshort
    · cases h

def advertised (services : List UInt16) : Record plainLibraries where
  version := 0
  peerID := []
  sequence := 7
  issuedAt := 1700000000
  expiresAt := 1700000180
  services
  addresses := [ascii "dns4/b/tcp/4001", ascii "dns4/a/tcp/4001", ascii "dns4/b/tcp/4001"]
  relayReservations := []
  capabilities := 5

def plainKey : Bytes := ascii "12D3KooWQ3uxpHgjDKE6vGmvzKS8RPbxUDLwJ7XCLaD6YXdUfbR9"

theorem signed_record_verifies_iff_example :
    ∃ envelope, sign plainSigner (unix 1700000000) plainKey (advertised [8080, 80, 0, 80]) =
        .ok envelope ∧
      Verifies plainSigner.toKeys envelope
        ((advertised [8080, 80, 0, 80]).withDefaults plainKey (unix 1700000000)) := by
  have hsigned : (sign plainSigner (unix 1700000000) plainKey
      (advertised [8080, 80, 0, 80])).toOption.isSome = true := by decide +kernel
  have hid : plainSigner.idFromPublicKey (plainSigner.getPublic plainKey) = .ok plainKey := by
    decide +kernel
  obtain ⟨envelope, hsign⟩ := exists_of_isSome hsigned
  have hvalid : (advertised [8080, 80, 0, 80]).addresses.all
      (fun a => Utf8.valid (plainLibraries.addrString a)) = true := by decide +kernel
  refine ⟨envelope, hsign, (signed_record_verifies_iff plainLibraries_lawful plainSigner_lawful hid
    hsign).mpr (.inr ⟨⟨80, by decide, by decide⟩, ?_, by decide +kernel, by decide⟩)⟩
  intro a ha _
  rcases mem_append.mp ha with ha | ha
  · exact all_eq_true.mp hvalid a ha
  · cases ha

theorem zero_service_refused :
    ∃ envelope, sign plainSigner (unix 1700000000) plainKey (advertised [0]) = .ok envelope ∧
      verify plainLibraries plainSigner.toKeys (unix 1700000001) envelope
        ⟨plainKey, 0, unix 1700000001, 0⟩ = .error "route record must contain 1..64 services" := by
  have hrun : ((sign plainSigner (unix 1700000000) plainKey (advertised [0])).toOption.bind
      fun envelope => failure (verify plainLibraries plainSigner.toKeys (unix 1700000001) envelope
        ⟨plainKey, 0, unix 1700000001, 0⟩)) = some "route record must contain 1..64 services" := by
    decide +kernel
  cases hsign : sign plainSigner (unix 1700000000) plainKey (advertised [0]) with
  | error err =>
    rw [hsign] at hrun
    cases hrun
  | ok envelope =>
    rw [hsign] at hrun
    exact ⟨envelope, rfl, failure_eq_some hrun⟩

/-- The times of a record that `Verify` takes, as natural numbers: the window in nanoseconds. -/
theorem verified_record_fresh {K : Keys} {clock : Time} {envelope : Bytes}
    {options : VerifyOptions} {r : Record L} (h : verify L K clock envelope options = .ok r)
    (hskew : 0 < options.skew ∧ options.skew < 2 ^ 63)
    (hnow : options.skew ≤ (options.time clock).nanos) :
    r.issuedAt.toNat < r.expiresAt.toNat ∧
      (r.issuedAt.toNat : Int) * second ≤ (options.time clock).nanos + options.skew ∧
      (options.time clock).nanos - options.skew ≤ (r.expiresAt.toNat : Int) * second := by
  obtain ⟨horder, htime⟩ := times_of_verify h
  have hlt : r.issuedAt.toNat < r.expiresAt.toNat := horder
  obtain ⟨hissued, hexpires⟩ :=
    (VerifyOptions.checkTime_ok_iff ⟨by omega, hskew.2⟩ (by omega)).mp htime
  have hrange := r.expiresAt.toNat_lt
  -- An expiry beyond the end of the instants lies before the epoch, and so before the window.
  have hend : (r.expiresAt.toNat : Int) < unixEnd := by
    by_contra hlarge
    have := (nanos_unix (n := r.expiresAt.toNat) (by omega)).2 (by omega)
    omega
  rw [(nanos_unix (n := r.expiresAt.toNat) (by omega)).1 hend] at hexpires
  rw [(nanos_unix (n := r.issuedAt.toNat) (by omega)).1 (by omega)] at hissued
  exact ⟨hlt, hissued, hexpires⟩

theorem verified_record_fresh_example :
    ∃ (envelope : Bytes) (r : Record plainLibraries),
      verify plainLibraries plainSigner.toKeys (unix 0) envelope
        ⟨plainKey, 8080, unix 1699999990, 20 * second⟩ = .ok r ∧
      r.issuedAt.toNat < r.expiresAt.toNat ∧
      (r.issuedAt.toNat : Int) * second ≤ (unix 1699999990).nanos + 20 * second ∧
      (unix 1699999990).nanos - 20 * second ≤ (r.expiresAt.toNat : Int) * second := by
  have hrun : ((sign plainSigner (unix 0) plainKey (advertised [80, 8080])).toOption.bind
      fun envelope => (verify plainLibraries plainSigner.toKeys (unix 0) envelope
        ⟨plainKey, 8080, unix 1699999990, 20 * second⟩).toOption).isSome = true := by
    decide +kernel
  obtain ⟨r, hr⟩ := Option.isSome_iff_exists.mp hrun
  obtain ⟨envelope, -, hr⟩ := Option.bind_eq_some_iff.mp hr
  obtain ⟨r, hr⟩ := exists_of_isSome (Option.isSome_of_eq_some hr)
  exact ⟨envelope, r, hr, verified_record_fresh hr (by decide) (by decide)⟩

/-- What Go leaves open: the order of a loop over a map, and how `sort.Slice` and `sort.Strings`
work. -/
structure Runtime where
  rangeMap : List Bytes → List Bytes
  sortSlice : List UInt16 → List UInt16
  sortStrings : List Bytes → List Bytes

structure Runtime.Lawful (G : Runtime) : Prop where
  rangeMap_perm : ∀ keys, (G.rangeMap keys).Perm keys
  sortSlice_perm : ∀ values, (G.sortSlice values).Perm values
  sortSlice_ordered : ∀ values, (G.sortSlice values).Pairwise (· ≤ ·)
  sortStrings_perm : ∀ keys, (G.sortStrings keys).Perm keys
  sortStrings_ordered : ∀ keys, (G.sortStrings keys).Pairwise (· ≤ ·)

/-- The loop of `uniqueServices`; the set `seen` is that of the values in `result`. -/
def collectServices (result : List UInt16) : List UInt16 → List UInt16
  | [] => result
  | value :: values =>
    if value = 0 then collectServices result values
    else if value ∈ result then collectServices result values
    else collectServices (result ++ [value]) values

def uniqueServicesIn (G : Runtime) (values : List UInt16) : List UInt16 :=
  G.sortSlice (collectServices [] values)

def collectAddresses (seen : AList fun _ : Bytes => L.Multiaddr) :
    List L.Multiaddr → AList fun _ : Bytes => L.Multiaddr
  | [] => seen
  | value :: values =>
    if L.isNil value then collectAddresses seen values
    else collectAddresses (seen.insert (L.addrString value) value) values

def uniqueAddressesIn (G : Runtime) (values : List L.Multiaddr) : List L.Multiaddr :=
  let seen := collectAddresses ∅ values
  (G.sortStrings (G.rangeMap seen.keys)).filterMap seen.lookup

theorem nodup_collectServices {result : List UInt16} (h : result.Nodup) (values : List UInt16) :
    (collectServices result values).Nodup := by
  induction values generalizing result with
  | nil => exact h
  | cons value values ih =>
    rw [collectServices]
    split
    · exact ih h
    split
    · exact ih h
    rename_i hnew
    refine ih (nodup_append.mpr ⟨h, nodup_singleton _, ?_⟩)
    intro a ha b hb
    rintro rfl
    exact hnew (mem_singleton.mp hb ▸ ha)

theorem mem_collectServices {result values : List UInt16} {service : UInt16} :
    service ∈ collectServices result values ↔
      service ∈ result ∨ service ∈ values ∧ service ≠ 0 := by
  induction values generalizing result with
  | nil => simp [collectServices]
  | cons value values ih =>
    rw [collectServices]
    split
    next hzero =>
      rw [ih, mem_cons]
      constructor
      · rintro (h | h)
        · exact .inl h
        · exact .inr ⟨.inr h.1, h.2⟩
      · rintro (h | ⟨rfl | h, hne⟩)
        · exact .inl h
        · exact absurd hzero hne
        · exact .inr ⟨h, hne⟩
    · split
      next hold =>
        rw [ih, mem_cons]
        constructor
        · rintro (h | h)
          · exact .inl h
          · exact .inr ⟨.inr h.1, h.2⟩
        · rintro (h | ⟨rfl | h, hne⟩)
          · exact .inl h
          · exact .inl hold
          · exact .inr ⟨h, hne⟩
      next hzero _ =>
        rw [ih, mem_append, mem_singleton, mem_cons]
        constructor
        · rintro ((h | rfl) | h)
          · exact .inl h
          · exact .inr ⟨.inl rfl, hzero⟩
          · exact .inr ⟨.inr h.1, h.2⟩
        · rintro (h | ⟨rfl | h, hne⟩)
          · exact .inl (.inl h)
          · exact .inl (.inr rfl)
          · exact .inr ⟨h, hne⟩

theorem eq_of_mem_iff {A : Type} {r : A → A → Prop} [Std.Antisymm r] {l k : List A}
    (hl : l.Nodup) (hk : k.Nodup) (hlo : l.Pairwise r) (hko : k.Pairwise r)
    (h : ∀ a, a ∈ l ↔ a ∈ k) : l = k :=
  ((perm_ext_iff_of_nodup hl hk).mpr h).eq_of_pairwise' hlo hko

theorem nodup_uniqueServices (services : List UInt16) : (uniqueServices services).Nodup :=
  (uniqueServices_perm services).nodup_iff.mpr (nodup_dedup _)

theorem uniqueServices_congr {services others : List UInt16}
    (h : ∀ service, service ≠ 0 → (service ∈ services ↔ service ∈ others)) :
    uniqueServices services = uniqueServices others := by
  apply eq_of_mem_iff (r := (· ≤ ·))
  · exact nodup_uniqueServices services
  · exact nodup_uniqueServices others
  · exact pairwise_insertionSort ..
  · exact pairwise_insertionSort ..
  · intro service
    rw [mem_uniqueServices, mem_uniqueServices]
    exact and_congr_left (h service)

theorem uniqueServicesIn_eq {G : Runtime} (hG : G.Lawful) (services : List UInt16) :
    uniqueServicesIn G services = uniqueServices services := by
  have hperm := hG.sortSlice_perm (collectServices [] services)
  apply eq_of_mem_iff (r := (· ≤ ·))
  · exact hperm.nodup_iff.mpr (nodup_collectServices nodup_nil services)
  · exact nodup_uniqueServices services
  · exact hG.sortSlice_ordered _
  · exact pairwise_insertionSort ..
  · intro service
    rw [uniqueServicesIn, hperm.mem_iff, mem_collectServices, mem_uniqueServices]
    simp

theorem lookup_collectAddresses (seen : AList fun _ : Bytes => L.Multiaddr)
    (values : List L.Multiaddr) (key : Bytes) :
    (collectAddresses seen values).lookup key =
      ((values.filter fun value => !L.isNil value).reverse.find?
        fun value => L.addrString value = key).or (seen.lookup key) := by
  induction values generalizing seen with
  | nil => rfl
  | cons value values ih =>
    rw [collectAddresses]
    split
    next hnil =>
      rw [ih, filter_cons_of_neg (by simp [hnil])]
    rename_i hpresent
    rw [ih, filter_cons_of_pos (by simp [hpresent]), reverse_cons, find?_append,
      Option.or_assoc]
    congr 1
    by_cases hkey : L.addrString value = key
    · subst hkey
      rw [AList.lookup_insert, find?_cons_of_pos (by simp), Option.some_or]
    · rw [AList.lookup_insert_ne (Ne.symm hkey), find?_cons_of_neg (by simpa using hkey)]
      rfl

theorem keys_collectAddresses (values : List L.Multiaddr) :
    (collectAddresses ∅ values).keys.Perm (distinctTexts L values) := by
  apply (perm_ext_iff_of_nodup (AList.keys_nodup _) (nodup_dedup _)).mpr
  intro key
  rw [← AList.mem_keys, ← AList.lookup_isSome, lookup_collectAddresses, AList.lookup_empty,
    Option.or_none, find?_isSome, mem_dedup, mem_map]
  simp only [mem_reverse, decide_eq_true_eq]

theorem uniqueAddressesIn_eq {G : Runtime} (hG : G.Lawful) (values : List L.Multiaddr) :
    uniqueAddressesIn G values = uniqueAddresses values := by
  have hkeys : G.sortStrings (G.rangeMap (collectAddresses ∅ values).keys) =
      (distinctTexts L values).insertionSort (· ≤ ·) := by
    apply List.Perm.eq_of_pairwise' (hG.sortStrings_ordered _) (pairwise_insertionSort ..)
    have hrange := (hG.rangeMap_perm _).trans (keys_collectAddresses values)
    exact ((hG.sortStrings_perm _).trans hrange).trans (perm_insertionSort ..).symm
  have hlookup : (collectAddresses (∅ : AList fun _ : Bytes => L.Multiaddr) values).lookup =
      fun key => (values.filter fun value => !L.isNil value).reverse.find?
        fun value => L.addrString value = key := by
    funext key
    rw [lookup_collectAddresses, AList.lookup_empty, Option.or_none]
  rw [uniqueAddressesIn, hkeys, hlookup]
  rfl

/-- Two records that list the same, but for order, repetition, services that are 0 and addresses
that are nil. -/
structure Record.SameLists (r s : Record L) : Prop where
  version : r.version = s.version
  peerID : r.peerID = s.peerID
  sequence : r.sequence = s.sequence
  issuedAt : r.issuedAt = s.issuedAt
  expiresAt : r.expiresAt = s.expiresAt
  services : ∀ service, service ≠ 0 → (service ∈ r.services ↔ service ∈ s.services)
  addresses : ∀ a, L.isNil a = false → (a ∈ r.addresses ↔ a ∈ s.addresses)
  relayReservations : ∀ a, L.isNil a = false →
    (a ∈ r.relayReservations ↔ a ∈ s.relayReservations)
  capabilities : r.capabilities = s.capabilities

theorem texts_congr {values others : List L.Multiaddr}
    (h : ∀ a, L.isNil a = false → (a ∈ values ↔ a ∈ others)) :
    (uniqueAddresses values).map L.addrString = (uniqueAddresses others).map L.addrString := by
  have hperm : (distinctTexts L values).Perm (distinctTexts L others) := by
    apply (perm_ext_iff_of_nodup (nodup_dedup _) (nodup_dedup _)).mpr
    intro text
    constructor
    · intro hmem
      obtain ⟨a, ha, hnil, htext⟩ := mem_distinctTexts.mp hmem
      exact mem_distinctTexts.mpr ⟨a, (h a hnil).mp ha, hnil, htext⟩
    · intro hmem
      obtain ⟨a, ha, hnil, htext⟩ := mem_distinctTexts.mp hmem
      exact mem_distinctTexts.mpr ⟨a, (h a hnil).mpr ha, hnil, htext⟩
  rw [map_uniqueAddresses, map_uniqueAddresses]
  apply List.Perm.eq_of_pairwise' (pairwise_insertionSort ..) (pairwise_insertionSort ..)
  exact ((perm_insertionSort ..).trans hperm).trans (perm_insertionSort ..).symm

theorem addressItem_congr {values others : List L.Multiaddr}
    (h : ∀ a, L.isNil a = false → (a ∈ values ↔ a ∈ others)) :
    Record.addressItem (uniqueAddresses values) = Record.addressItem (uniqueAddresses others) := by
  have htexts := congrArg (fun texts : List Bytes => Cbor.Item.array (texts.map .text))
    (texts_congr h)
  simp only [map_map] at htexts
  exact htexts

theorem Record.SameLists.payload_eq {r s : Record L} (h : r.SameLists s) :
    r.tidy.payload = s.tidy.payload := by
  have hfields : r.tidy.fields = s.tidy.fields := by
    simp only [fields, tidy, h.version, h.peerID, h.sequence, h.issuedAt, h.expiresAt,
      h.capabilities, uniqueServices_congr h.services, addressItem_congr h.addresses,
      addressItem_congr h.relayReservations]
  rw [payload, payload, item, item, hfields]

theorem encodePayload_eq_tidy {r : Record L} {bytes : Bytes} (h : encodePayload r = .ok bytes) :
    bytes = r.tidy.payload := by
  obtain ⟨s, hs, heq⟩ := bind_eq_ok.mp h
  obtain ⟨-, -, rfl⟩ := normalize_ok hs
  exact (Except.ok.inj heq).symm

theorem Listed.increasing {addresses : List L.Multiaddr} (h : Listed L addresses) :
    (addresses.map L.addrString).Pairwise (· < ·) :=
  (h.ordered.and h.distinct).imp fun hpair =>
    (List.le_iff_lt_or_eq.mp hpair.1).resolve_right hpair.2

theorem Record.Normal.services_increasing {r : Record L} (h : r.Normal) :
    r.services.Pairwise (· < ·) :=
  (h.ordered.and h.distinct).imp fun hpair => UInt16.lt_of_le_of_ne hpair.1 hpair.2

/-- Whatever order the runtime iterates and sorts in, the lists come out the same; a payload does
not depend on order, repetition, zero services or nil addresses; and `normalize` leaves what it
returned as it is, in increasing order. -/
theorem payload_order_independent (L : Libraries) :
    (∀ G : Runtime, G.Lawful → (∀ services, uniqueServicesIn G services = uniqueServices services) ∧
      ∀ values : List L.Multiaddr, uniqueAddressesIn G values = uniqueAddresses values) ∧
    (∀ (r s : Record L) (bytes others : Bytes), r.SameLists s → encodePayload r = .ok bytes →
      encodePayload s = .ok others → bytes = others) ∧
    ∀ r : Record L, (∃ service ∈ r.services, service ≠ 0) →
      (normalize r >>= normalize) = normalize r ∧
      ∀ s, normalize r = .ok s → s.services.Pairwise (· < ·) ∧
        (s.addresses.map L.addrString).Pairwise (· < ·) ∧
        (s.relayReservations.map L.addrString).Pairwise (· < ·) := by
  refine ⟨?_, ?_, ?_⟩
  · intro G hG
    exact ⟨uniqueServicesIn_eq hG, uniqueAddressesIn_eq hG⟩
  · intro r s bytes others hsame hr hs
    rw [encodePayload_eq_tidy hr, encodePayload_eq_tidy hs, hsame.payload_eq]
  · intro r hservice
    constructor
    · cases hnormalized : normalize r with
      | error err => rfl
      | ok s => exact (normal_of_normalize hservice hnormalized).normalize
    · intro s hnormalized
      have hnormal := normal_of_normalize hservice hnormalized
      exact ⟨hnormal.services_increasing, hnormal.addresses.increasing,
        hnormal.relayReservations.increasing⟩

def plainRuntime : Runtime where
  rangeMap := reverse
  sortSlice := fun values => values.insertionSort (· ≤ ·)
  sortStrings := fun keys => keys.insertionSort (· ≤ ·)

theorem plainRuntime_lawful : plainRuntime.Lawful where
  rangeMap_perm := reverse_perm
  sortSlice_perm := fun _ => perm_insertionSort ..
  sortSlice_ordered := fun _ => pairwise_insertionSort ..
  sortStrings_perm := fun _ => perm_insertionSort ..
  sortStrings_ordered := fun _ => pairwise_insertionSort ..

theorem payload_order_independent_example :
    let r := (advertised [8080, 80, 0, 80]).withDefaults plainKey (unix 0)
    let s := { r with services := [80, 8080], addresses := r.addresses.reverse }
    uniqueAddressesIn plainRuntime r.addresses = uniqueAddresses r.addresses ∧
      (∃ bytes, encodePayload r = .ok bytes ∧ encodePayload s = .ok bytes) ∧
      (normalize r >>= normalize) = normalize r := by
  intro r s
  have hsame : r.SameLists s :=
    { version := rfl
      peerID := rfl
      sequence := rfl
      issuedAt := rfl
      expiresAt := rfl
      services := by
        intro service hne
        have hmem : service ∈ ([8080, 80, 0, 80] : List UInt16) ↔
            service ∈ ([80, 8080] : List UInt16) := by
          simp only [mem_cons, not_mem_nil, hne, or_false, false_or]
          tauto
        exact hmem
      addresses := fun a _ => mem_reverse.symm
      relayReservations := fun _ _ => Iff.rfl
      capabilities := rfl }
  obtain ⟨hruntime, hpayload, hnormalize⟩ := payload_order_independent plainLibraries
  obtain ⟨bytes, hr⟩ := exists_of_isSome (x := encodePayload r) (by decide +kernel)
  obtain ⟨others, hs⟩ := exists_of_isSome (x := encodePayload s) (by decide +kernel)
  refine ⟨(hruntime plainRuntime plainRuntime_lawful).2 _, ⟨bytes, hr, ?_⟩,
    (hnormalize r ⟨80, by decide, by decide⟩).1⟩
  rw [hpayload r s bytes others hsame hr hs, hs]

end P2PNetcat.RouteRecord
