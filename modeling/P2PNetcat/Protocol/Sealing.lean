import P2PNetcat.Protocol.Pairing

/-!
# Sealing under a pairing token

AES-GCM with a key derived from the secret, in a deterministic CBOR envelope.
The cipher is a parameter.
-/

namespace P2PNetcat.Pairing
open List ByteCodec Fallible Hmac

/-- What the package calls of the AES-GCM implementation: the key, the nonce, the text and the
additional data. -/
structure Aead where
  sealText : Bytes → Bytes → Bytes → Bytes → Bytes
  openText : Bytes → Bytes → Bytes → Bytes → Option Bytes

def tagSize : Nat := 16
def gcmNonceSize : Nat := 12

structure Aead.Lawful (A : Aead) : Prop where
  open_seal : ∀ key nonce text additional,
    A.openText key nonce (A.sealText key nonce text additional) additional = some text
  length_seal : ∀ key nonce text additional,
    (A.sealText key nonce text additional).length = text.length + tagSize

abbrev GcmNonce := { b : Bytes // b.length = gcmNonceSize }

variable {L : Libraries}

def sealedFields (nonce ciphertext : Bytes) : List (Nat × Cbor.Item) :=
  [(0, .uint 1), (1, .bytes nonce), (2, .bytes ciphertext)]

def sealedEnvelope (nonce ciphertext : Bytes) : Bytes :=
  Cbor.encode (.map (Cbor.uintPairs (sealedFields nonce ciphertext)))

variable {nonce ciphertext : Bytes}

theorem length_sealedEnvelope (h : nonce.length = gcmNonceSize) :
    (sealedEnvelope nonce ciphertext).length =
      18 + Cbor.headSize ciphertext.length + ciphertext.length := by
  have hsmall : Cbor.headSize 3 = 1 ∧ Cbor.headSize 0 = 1 ∧ Cbor.headSize 1 = 1 ∧
      Cbor.headSize 2 = 1 ∧ Cbor.headSize 12 = 1 := by decide
  rw [sealedEnvelope, Cbor.encode, length_append, Cbor.length_head,
    Cbor.length_encodePairs_uint]
  simp only [sealedFields, Cbor.uintPairs, map_cons, map_nil, length_cons,
    length_nil, sum_cons, sum_nil, Cbor.encode, Cbor.length_head, length_append,
    h, gcmNonceSize, hsmall]
  omega

theorem sealedEnvelope_injective {nonce nonce' ciphertext ciphertext' : Bytes}
    (hnonce : nonce.length = gcmNonceSize) (hnonce' : nonce'.length = gcmNonceSize)
    (h : sealedEnvelope nonce ciphertext = sealedEnvelope nonce' ciphertext') :
    nonce = nonce' ∧ ciphertext = ciphertext' := by
  have hlength := congrArg length h
  rw [length_sealedEnvelope hnonce, length_sealedEnvelope hnonce', Cbor.headSize,
    Cbor.headSize] at hlength
  have hsize : ciphertext.length = ciphertext'.length := by
    repeat' split at hlength
    all_goals omega
  simp only [sealedEnvelope, sealedFields, Cbor.uintPairs, map_cons, map_nil, Cbor.encode,
    Cbor.encodePairs, append_nil, append_assoc, length_cons, length_nil, hnonce,
    hnonce', hsize, append_cancel_left_eq] at h
  obtain ⟨hnonces, htail⟩ := append_inj h (hnonce.trans hnonce'.symm)
  exact ⟨hnonces, append_cancel_left (append_cancel_left htail)⟩

namespace Token
variable {A : Aead} {plaintext additionalData : Bytes}

def sealPayload (t : Token L) (A : Aead) (purpose : String) (plaintext additionalData : Bytes)
    (nonce : Option Bytes) (random : Except String GcmNonce) : Except String Bytes := do
  let key ← t.deriveKey purpose
  let nonce ← match nonce with
    | some nonce => .ok nonce
    | none => random.map Subtype.val
  if nonce.length ≠ gcmNonceSize then .error "AES-GCM nonce must contain exactly 12 bytes"
  else .ok (sealedEnvelope nonce (A.sealText key nonce plaintext additionalData))

def openPayload (t : Token L) (A : Aead) (purpose : String) (envelope additionalData : Bytes) :
    Except String Bytes :=
  match (Cbor.unmarshal limits envelope).bind Cbor.asUintMap with
  | none => .error ("invalid AES-GCM envelope: " ++ L.cborError envelope)
  | some fields =>
    if fields.length ≠ 3 ∨ ¬ [0, 1, 2].all fun key => (fields.lookup key).isSome then
      .error "AES-GCM envelope contains unknown or missing fields"
    else do
      let versionError := "unsupported AES-GCM envelope version"
      let version ← orError (unmarshalField L Cbor.asUint fields 0) fun _ => versionError
      if version ≠ 1 then .error versionError
      else do
        let nonceError := "AES-GCM nonce must contain exactly 12 bytes"
        let nonce ← orError (unmarshalField L Cbor.asBytes fields 1) fun _ => nonceError
        if nonce.length ≠ gcmNonceSize then .error nonceError
        else do
          let tagError := "AES-GCM ciphertext is shorter than the authentication tag"
          let ciphertext ← orError (unmarshalField L Cbor.asBytes fields 2) fun _ => tagError
          if ciphertext.length < tagSize then .error tagError
          else do
            let key ← t.deriveKey purpose
            match A.openText key nonce ciphertext additionalData with
            | none => .error "pairing payload authentication failed"
            | some plaintext =>
              if sealedEnvelope nonce ciphertext ≠ envelope then
                .error "AES-GCM envelope is not deterministic RFC 8949 CBOR"
              else .ok plaintext

def signalingKey (t : Token L) : Bytes :=
  hkdf t.secret (ascii "p2p-netcat/pairing/v1") (ascii ("p2p-netcat/" ++ "signaling" ++ "/v1"))

theorem deriveKey_signaling (t : Token L) : t.deriveKey "signaling" = .ok t.signalingKey :=
  if_pos (by simp)

theorem sealPayload_ok_iff {t : Token L} {envelope : Bytes} {random : Except String GcmNonce} :
    t.sealPayload A "signaling" plaintext additionalData none random = .ok envelope ↔
      ∃ nonce : GcmNonce, random = .ok nonce ∧
        envelope = sealedEnvelope nonce.val
          (A.sealText t.signalingKey nonce.val plaintext additionalData) := by
  rw [sealPayload, deriveKey_signaling]
  cases random with
  | error err =>
    constructor
    · intro h
      cases h
    · rintro ⟨nonce, hnonce, -⟩
      cases hnonce
  | ok nonce =>
    constructor
    · intro h
      obtain ⟨_, hkey, h⟩ := bind_eq_ok.mp h
      cases hkey
      obtain ⟨_, hnonce, h⟩ := bind_eq_ok.mp h
      cases hnonce
      rw [ite_error_eq_ok] at h
      exact ⟨nonce, rfl, (Except.ok.inj h.2).symm⟩
    · rintro ⟨_, hnonce, rfl⟩
      cases hnonce
      refine bind_eq_ok.mpr ⟨_, rfl, bind_eq_ok.mpr ⟨_, rfl, ?_⟩⟩
      exact ite_error_eq_ok.mpr ⟨fun hlength => hlength nonce.property, rfl⟩

theorem openPayload_ok {t : Token L} {envelope : Bytes}
    (h : t.openPayload A "signaling" envelope additionalData = .ok plaintext) :
    ∃ nonce ciphertext, envelope = sealedEnvelope nonce ciphertext ∧
      nonce.length = gcmNonceSize ∧
      A.openText t.signalingKey nonce ciphertext additionalData = some plaintext := by
  rw [openPayload] at h
  split at h
  · cases h
  obtain ⟨-, h⟩ := ite_error_eq_ok.mp h
  obtain ⟨version, -, h⟩ := bind_eq_ok.mp h
  obtain ⟨-, h⟩ := ite_error_eq_ok.mp h
  obtain ⟨nonce, -, h⟩ := bind_eq_ok.mp h
  obtain ⟨hnonce, h⟩ := ite_error_eq_ok.mp h
  obtain ⟨ciphertext, -, h⟩ := bind_eq_ok.mp h
  obtain ⟨-, h⟩ := ite_error_eq_ok.mp h
  rw [deriveKey_signaling] at h
  obtain ⟨key, hkey, h⟩ := bind_eq_ok.mp h
  cases hkey
  split at h
  · cases h
  rename_i opened hopened
  obtain ⟨hsame, h⟩ := ite_error_eq_ok.mp h
  cases h
  exact ⟨nonce, ciphertext, (not_not.mp hsame).symm, not_not.mp hnonce, hopened⟩

theorem unmarshal_sealedEnvelope (hnonce : nonce.length = gcmNonceSize)
    (hbound : ciphertext.length < 2 ^ 64) :
    (Cbor.unmarshal limits (sealedEnvelope nonce ciphertext)).bind Cbor.asUintMap =
      some (sealedFields nonce ciphertext) := by
  have hbounded : Cbor.Bounded (.map (Cbor.uintPairs (sealedFields nonce ciphertext))) := by
    refine ⟨(show 3 < 2 ^ 64 by decide), Cbor.boundedPairs_uint ?_⟩
    have hshort : nonce.length < 2 ^ 64 := by
      rw [hnonce, gcmNonceSize]
      decide
    simp only [sealedFields, forall_mem_cons]
    exact ⟨⟨by decide, (show 1 < 2 ^ 64 by decide)⟩, ⟨by decide, hshort⟩, ⟨by decide, hbound⟩,
      fun _ h => absurd h not_mem_nil⟩
  have hkeys : (sealedFields nonce ciphertext).map Prod.fst = [0, 1, 2] := rfl
  rw [sealedEnvelope, Cbor.unmarshal_encode hbounded rfl]
  refine Cbor.asUintMap_uints (sealedFields nonce ciphertext) ?_
  rw [hkeys]
  decide

theorem openPayload_sealed (t : Token L)
    (hnonce : nonce.length = gcmNonceSize) (hlength : tagSize ≤ ciphertext.length)
    (hbound : ciphertext.length < 2 ^ 64)
    (hopen : A.openText t.signalingKey nonce ciphertext additionalData = some plaintext) :
    t.openPayload A "signaling" (sealedEnvelope nonce ciphertext) additionalData =
      .ok plaintext := by
  have hversion : unmarshalField L Cbor.asUint (sealedFields nonce ciphertext) 0 = .ok 1 := rfl
  have hfirst : unmarshalField L Cbor.asBytes (sealedFields nonce ciphertext) 1 = .ok nonce := rfl
  have hsecond : unmarshalField L Cbor.asBytes (sealedFields nonce ciphertext) 2 =
      .ok ciphertext := rfl
  have hpresent : ¬ ((sealedFields nonce ciphertext).length ≠ 3 ∨
      ¬ [0, 1, 2].all fun key => ((sealedFields nonce ciphertext).lookup key).isSome) := by
    rintro (hthree | hall)
    · exact hthree rfl
    · exact hall rfl
  rw [openPayload, unmarshal_sealedEnvelope hnonce hbound]
  refine ite_error_eq_ok.mpr ⟨hpresent, bind_eq_ok.mpr ⟨_, orError_ok_iff.mpr hversion, ?_⟩⟩
  refine ite_error_eq_ok.mpr ⟨not_not.mpr rfl, bind_eq_ok.mpr ⟨_, orError_ok_iff.mpr hfirst, ?_⟩⟩
  refine ite_error_eq_ok.mpr ⟨not_not.mpr hnonce, bind_eq_ok.mpr ⟨_, orError_ok_iff.mpr hsecond, ?_⟩⟩
  refine ite_error_eq_ok.mpr ⟨Nat.not_lt.mpr hlength, bind_eq_ok.mpr ⟨_, deriveKey_signaling t, ?_⟩⟩
  rw [hopen]
  exact ite_error_eq_ok.mpr ⟨not_not.mpr rfl, rfl⟩

end Token

end P2PNetcat.Pairing
