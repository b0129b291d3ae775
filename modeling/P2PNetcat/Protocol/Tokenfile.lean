import P2PNetcat.Protocol.PairingSpelling

/-!
# Encrypted token files

A token text under a password: Argon2id derives the key, AES-256-GCM seals the
text, and a deterministic CBOR map holds what is needed to open it again. The
key derivation and the cipher are parameters.
-/

namespace P2PNetcat.Tokenfile
open List ByteCodec Fallible GoText Pairing
variable {salt password ciphertext nonce : Bytes} {x : List Char}

def envelopePrefix : List Char := "pnc1e_".toList
def version : Nat := 1
def minimumPasswordSize : Nat := 8
def maximumPasswordSize : Nat := 1024
def maxEnvelopeSize : Nat := 64 * 1024

def argonTime : Nat := 3
def argonMemory : Nat := 64 * 1024
def argonThreads : Nat := 4
def saltSize : Nat := 16
def keySize : Nat := 32
def nonceSize : Nat := 12

def keyVersion : Nat := 0
def keyKDF : Nat := 1
def keyKDFTime : Nat := 2
def keyKDFMemory : Nat := 3
def keyKDFThreads : Nat := 4
def keySalt : Nat := 5
def keyCipher : Nat := 6
def keyNonce : Nat := 7
def keyCiphertext : Nat := 8

def kdfName : Bytes := ascii "argon2id"
def cipherName : Bytes := ascii "aes-256-gcm"

def limits : Cbor.Limits := ⟨8, 16, 16⟩

def additionalData : Bytes :=
  ascii "p2p-netcat/encrypted-pairing-token/v1\x00argon2id\x00aes-256-gcm"

abbrev Salt := { b : Bytes // b.length = saltSize }
abbrev Nonce := { b : Bytes // b.length = nonceSize }

/-- What the package calls of the cryptographic packages, and what the CBOR library makes of an
array, a map or a float where no type is given. -/
structure Platform where
  idKey : (password salt : Bytes) → (time memory threads keyLen : Nat) → Bytes
  aead : Aead
  anyOther : Cbor.Item → Option Cbor.Item

variable {L : Libraries} {P : Platform}

def validatePassword (password : Bytes) : Except String Unit :=
  if password.length < minimumPasswordSize then
    .error ("token password must contain at least " ++ toString minimumPasswordSize ++ " bytes")
  else if password.length > maximumPasswordSize then
    .error ("token password must contain at most " ++ toString maximumPasswordSize ++ " bytes")
  else .ok ()

def deriveKey (P : Platform) (password salt : Bytes) : Bytes :=
  P.idKey password salt argonTime argonMemory argonThreads keySize

def newAEAD (P : Platform) (key : Bytes) : Except String Aead :=
  if key.length ∈ [16, 24, 32] then .ok P.aead
  else
    .error ("create encrypted token cipher: crypto/aes: invalid key size " ++ toString key.length)

def envelopeFields (salt nonce ciphertext : Bytes) : List (Nat × Cbor.Item) :=
  [(keyVersion, .uint version), (keyKDF, .text kdfName), (keyKDFTime, .uint argonTime),
    (keyKDFMemory, .uint argonMemory), (keyKDFThreads, .uint argonThreads), (keySalt, .bytes salt),
    (keyCipher, .text cipherName), (keyNonce, .bytes nonce), (keyCiphertext, .bytes ciphertext)]

def marshal (fields : Option (List (Nat × Cbor.Item))) : Bytes := Cbor.encode (Cbor.ofAnyMap fields)

/-- `Encrypt`, given what the random source returned for the salt and for the nonce. -/
def encrypt (L : Libraries) (P : Platform) (tokenText : List Char) (password : Bytes)
    (salt : Except String Salt) (nonce : Except String Nonce) : Except String (List Char) := do
  let tokenText := trimSpace tokenText
  let _ ← orError (Pairing.decode L tokenText) ("encrypt pairing token: " ++ ·)
  validatePassword password
  let salt ← orError salt ("create encrypted token salt: " ++ ·)
  let nonce ← orError nonce ("create encrypted token nonce: " ++ ·)
  let key := deriveKey P password salt.val
  let aead ← newAEAD P key
  let ciphertext := aead.sealText key nonce.val (Utf8.encode tokenText) additionalData
  let payload := marshal (some (envelopeFields salt.val nonce.val ciphertext))
  .ok (envelopePrefix ++ Base64Url.encode payload)

def decodeEnvelope (L : Libraries) (P : Platform) (text : List Char) :
    Except String (Bytes × Option (List (Nat × Cbor.Item))) :=
  let text := trimSpace text
  match envelopePrefix.isPrefixOf? text with
  | none => .error "encrypted pairing token must start with pnc1e_"
  | some data =>
    match Base64Url.decode true (data.filter fun c => !isNewline c) with
    | none => .error ("invalid encrypted pairing token base64url data: " ++ L.base64Error data)
    | some payload =>
      if payload.length = 0 ∨ payload.length > maxEnvelopeSize then
        .error ("encrypted pairing token must contain 1.." ++ toString maxEnvelopeSize ++ " bytes")
      else
        match (Cbor.unmarshal limits payload).bind (Cbor.asAnyMap P.anyOther) with
        | none => .error ("invalid encrypted pairing token CBOR: " ++ L.cborError payload)
        | some fields => .ok (payload, fields)

def fieldAt (fields : List (Nat × Cbor.Item)) (key : Nat) : Cbor.Item :=
  (fields.lookup key).getD .null

def unsignedInteger : Cbor.Item → Option Nat
  | .uint n => some n
  | _ => none

def stringValue : Cbor.Item → Option Bytes
  | .text utf8 => some utf8
  | _ => none

def bytesValue : Cbor.Item → Option Bytes
  | .bytes value => some value
  | _ => none

def require (passed : Bool) (err : String) : Except String Unit :=
  if passed then .ok () else .error err

/-- Of several unknown keys the first is reported, where Go takes any. -/
def validateEnvelopeFields (fields : List (Nat × Cbor.Item)) : Except String Unit :=
  if fields.length ≠ keyCiphertext + 1 then
    .error "encrypted pairing token must contain exactly nine fields"
  else
    match fields.find? fun field => field.1 > keyCiphertext with
    | some field => .error ("unknown encrypted pairing token field: " ++ toString field.1)
    | none => do
      require (unsignedInteger (fieldAt fields keyVersion) = some version)
        "unsupported encrypted pairing token version"
      require (stringValue (fieldAt fields keyKDF) = some kdfName)
        "unsupported encrypted pairing token KDF"
      require (unsignedInteger (fieldAt fields keyKDFTime) = some argonTime)
        "unsupported encrypted pairing token Argon2 time cost"
      require (unsignedInteger (fieldAt fields keyKDFMemory) = some argonMemory)
        "unsupported encrypted pairing token Argon2 memory cost"
      require (unsignedInteger (fieldAt fields keyKDFThreads) = some argonThreads)
        "unsupported encrypted pairing token Argon2 parallelism"
      require ((bytesValue (fieldAt fields keySalt)).any fun value => value.length = saltSize)
        ("encrypted pairing token salt must contain exactly " ++ toString saltSize ++ " bytes")
      require (stringValue (fieldAt fields keyCipher) = some cipherName)
        "unsupported encrypted pairing token cipher"
      require ((bytesValue (fieldAt fields keyNonce)).any fun value => value.length = nonceSize)
        ("encrypted pairing token nonce must contain exactly " ++ toString nonceSize ++ " bytes")
      require ((bytesValue (fieldAt fields keyCiphertext)).any fun value => 16 ≤ value.length)
        "encrypted pairing token ciphertext is too short"

def bytesAt (fields : List (Nat × Cbor.Item)) (key : Nat) : Bytes :=
  (bytesValue (fieldAt fields key)).getD []

def openEnvelope (L : Libraries) (P : Platform) (fields : List (Nat × Cbor.Item))
    (password : Bytes) : Except String (List Char) := do
  let key := deriveKey P password (bytesAt fields keySalt)
  let aead ← newAEAD P key
  match aead.openText key (bytesAt fields keyNonce) (bytesAt fields keyCiphertext)
      additionalData with
  | none =>
    .error "decrypt encrypted pairing token: password is incorrect or data is corrupted"
  | some plaintext => do
    let tokenText := Utf8.runes plaintext
    let _ ← orError (Pairing.decode L tokenText) ("decrypted pairing token is invalid: " ++ ·)
    .ok tokenText

def decrypt (L : Libraries) (P : Platform) (encryptedText : List Char) (password : Bytes) :
    Except String (List Char) := do
  validatePassword password
  let (payload, fields) ← decodeEnvelope L P encryptedText
  if payload ≠ marshal fields then
    .error "encrypted pairing token is not deterministic RFC 8949 CBOR"
  else do
    validateEnvelopeFields (fields.getD [])
    openEnvelope L P (fields.getD []) password

def envelope (salt nonce ciphertext : Bytes) : Bytes :=
  Cbor.encode (.map (Cbor.uintPairs (envelopeFields salt nonce ciphertext)))

theorem keys_envelopeFields (salt nonce ciphertext : Bytes) :
    (envelopeFields salt nonce ciphertext).map Prod.fst = range 9 := rfl

theorem marshal_envelopeFields (salt nonce ciphertext : Bytes) :
    marshal (some (envelopeFields salt nonce ciphertext)) = envelope salt nonce ciphertext := by
  have hsorted : (envelopeFields salt nonce ciphertext).Pairwise fun a b => a.1 ≤ b.1 := by
    rw [← pairwise_map, keys_envelopeFields]
    decide
  rw [marshal, Cbor.ofAnyMap, List.Pairwise.insertionSort_eq hsorted, envelope]

theorem length_envelope (hsalt : salt.length = saltSize)
    (hnonce : nonce.length = nonceSize) (ciphertext : Bytes) :
    (envelope salt nonce ciphertext).length =
      69 + Cbor.headSize ciphertext.length + ciphertext.length := by
  have hsizes : kdfName.length = 8 ∧ cipherName.length = 11 := by decide
  have hheads : Cbor.headSize 9 = 1 ∧ Cbor.headSize 0 = 1 ∧ Cbor.headSize 1 = 1 ∧
      Cbor.headSize 2 = 1 ∧ Cbor.headSize 3 = 1 ∧ Cbor.headSize 4 = 1 ∧ Cbor.headSize 5 = 1 ∧
      Cbor.headSize 6 = 1 ∧ Cbor.headSize 7 = 1 ∧ Cbor.headSize 8 = 1 ∧ Cbor.headSize 11 = 1 ∧
      Cbor.headSize 12 = 1 ∧ Cbor.headSize 16 = 1 ∧ Cbor.headSize (64 * 1024) = 5 := by decide
  rw [envelope, Cbor.encode, length_append, Cbor.length_head, Cbor.length_encodePairs_uint]
  simp only [envelopeFields, Cbor.uintPairs, map_cons, map_nil, length_cons,
    length_nil, sum_cons, sum_nil, Cbor.encode, Cbor.length_head, length_append,
    hsalt, hnonce, hsizes, keyVersion, keyKDF, keyKDFTime, keyKDFMemory, keyKDFThreads, keySalt,
    keyCipher, keyNonce, keyCiphertext, version, argonTime, argonMemory, argonThreads, saltSize,
    nonceSize, hheads]
  omega

theorem unmarshal_envelope (P : Platform)
    (hsalt : salt.length = saltSize) (hnonce : nonce.length = nonceSize)
    (hbound : ciphertext.length < 2 ^ 64) :
    (Cbor.unmarshal limits (envelope salt nonce ciphertext)).bind (Cbor.asAnyMap P.anyOther) =
      some (some (envelopeFields salt nonce ciphertext)) := by
  have hbounded : Cbor.Bounded (.map (Cbor.uintPairs (envelopeFields salt nonce ciphertext))) := by
    refine ⟨(show 9 < 2 ^ 64 by decide), Cbor.boundedPairs_uint ?_⟩
    have hshort : salt.length < 2 ^ 64 ∧ nonce.length < 2 ^ 64 := by
      rw [hsalt, hnonce]
      decide
    have hnumber : ∀ n, n < 2 ^ 64 → Cbor.Bounded (.uint n) := fun _ h => h
    have hname : Cbor.Bounded (.text kdfName) ∧ Cbor.Bounded (.text cipherName) := by
      constructor
      · show kdfName.length < 2 ^ 64
        decide
      · show cipherName.length < 2 ^ 64
        decide
    simp only [envelopeFields, forall_mem_cons]
    exact ⟨⟨by decide, hnumber _ (by decide)⟩, ⟨by decide, hname.1⟩,
      ⟨by decide, hnumber _ (by decide)⟩, ⟨by decide, hnumber _ (by decide)⟩,
      ⟨by decide, hnumber _ (by decide)⟩, ⟨by decide, hshort.1⟩, ⟨by decide, hname.2⟩,
      ⟨by decide, hshort.2⟩, ⟨by decide, hbound⟩, fun _ h => absurd h not_mem_nil⟩
  rw [envelope, Cbor.unmarshal_encode hbounded rfl]
  refine Cbor.asAnyMap_uints ?_ ?_
  · rw [keys_envelopeFields]
    exact nodup_range
  · simp only [envelopeFields, forall_mem_cons]
    exact ⟨rfl, rfl, rfl, rfl, rfl, rfl, rfl, rfl, rfl, fun _ h => absurd h not_mem_nil⟩

def envelopeText (salt nonce ciphertext : Bytes) : List Char :=
  envelopePrefix ++ Base64Url.encode (envelope salt nonce ciphertext)

theorem trimSpace_envelopeText (salt nonce ciphertext : Bytes) :
    trimSpace (envelopeText salt nonce ciphertext) = envelopeText salt nonce ciphertext := by
  refine trimSpace_of_graphic ?_
  intro c hc
  rcases mem_append.mp hc with hc | hc
  · have hall : envelopePrefix.all (fun c => 32 < c.toNat && c.toNat < 127) = true := rfl
    simpa using all_eq_true.mp hall c hc
  · exact graphic_encode hc

theorem decodeEnvelope_envelopeText (L : Libraries) (P : Platform)
    (hsalt : salt.length = saltSize) (hnonce : nonce.length = nonceSize) :
    decodeEnvelope L P (envelopeText salt nonce ciphertext) =
      if maxEnvelopeSize < (envelope salt nonce ciphertext).length then
        .error ("encrypted pairing token must contain 1.." ++ toString maxEnvelopeSize ++ " bytes")
      else
        .ok (envelope salt nonce ciphertext, some (envelopeFields salt nonce ciphertext)) := by
  have hlength := length_envelope hsalt hnonce ciphertext
  have hsplit : envelopePrefix.isPrefixOf? (envelopeText salt nonce ciphertext) =
      some (Base64Url.encode (envelope salt nonce ciphertext)) :=
    isPrefixOf?_eq_some_iff_append_eq.mpr rfl
  simp only [decodeEnvelope, trimSpace_envelopeText, hsplit, filter_isNewline_encode,
    Base64Url.decode_encode]
  by_cases hlong : maxEnvelopeSize < (envelope salt nonce ciphertext).length
  · rw [if_pos (.inr hlong), if_pos hlong]
  have hfits : ¬ ((envelope salt nonce ciphertext).length = 0 ∨
      (envelope salt nonce ciphertext).length > maxEnvelopeSize) := by
    rintro (hzero | hlarge)
    · omega
    · exact hlong hlarge
  have hbound : ciphertext.length < 2 ^ 64 := by
    rw [maxEnvelopeSize] at hlong
    omega
  rw [if_neg hfits, if_neg hlong, unmarshal_envelope P hsalt hnonce hbound]

theorem validate_envelopeFields (hsalt : salt.length = saltSize)
    (hnonce : nonce.length = nonceSize) (htag : tagSize ≤ ciphertext.length) :
    validateEnvelopeFields (envelopeFields salt nonce ciphertext) = .ok () := by
  have hrequire : ∀ {passed : Bool} {err : String}, passed = true →
      require passed err = .ok () := fun h => if_pos h
  have hbytes : ∀ {value : Bytes} {p : Bytes → Bool}, p value = true →
      (bytesValue (.bytes value)).any p = true := fun h => h
  have hnine : (envelopeFields salt nonce ciphertext).length = keyCiphertext + 1 := rfl
  have hunknown : (envelopeFields salt nonce ciphertext).find?
      (fun field => field.1 > keyCiphertext) = none := rfl
  rw [validateEnvelopeFields, if_neg (not_not.mpr hnine), hunknown]
  refine bind_eq_ok.mpr ⟨(), hrequire rfl, bind_eq_ok.mpr ⟨(), hrequire rfl, ?_⟩⟩
  refine bind_eq_ok.mpr ⟨(), hrequire rfl, bind_eq_ok.mpr ⟨(), hrequire rfl, ?_⟩⟩
  refine bind_eq_ok.mpr ⟨(), hrequire rfl, bind_eq_ok.mpr ⟨(), hrequire ?_, ?_⟩⟩
  · exact hbytes (decide_eq_true hsalt)
  refine bind_eq_ok.mpr ⟨(), hrequire rfl, bind_eq_ok.mpr ⟨(), hrequire ?_, ?_⟩⟩
  · exact hbytes (decide_eq_true hnonce)
  · exact hrequire (hbytes (decide_eq_true htag))

theorem decrypt_envelopeText (L : Libraries) (P : Platform)
    (hsalt : salt.length = saltSize) (hnonce : nonce.length = nonceSize)
    (htag : tagSize ≤ ciphertext.length) (password : Bytes) :
    decrypt L P (envelopeText salt nonce ciphertext) password =
      validatePassword password >>= fun _ =>
        if maxEnvelopeSize < (envelope salt nonce ciphertext).length then
          .error ("encrypted pairing token must contain 1.." ++ toString maxEnvelopeSize ++ " bytes")
        else openEnvelope L P (envelopeFields salt nonce ciphertext) password := by
  rw [decrypt, decodeEnvelope_envelopeText L P hsalt hnonce]
  congr 1
  funext _
  split
  · rfl
  have hsame : ¬ envelope salt nonce ciphertext ≠
      marshal (some (envelopeFields salt nonce ciphertext)) :=
    not_not.mpr (marshal_envelopeFields salt nonce ciphertext).symm
  simp only [bind, Except.bind]
  rw [if_neg hsame, Option.getD_some, validate_envelopeFields hsalt hnonce htag]

def sealedText (P : Platform) (password salt nonce : Bytes) (text : List Char) : Bytes :=
  P.aead.sealText (deriveKey P password salt) nonce (Utf8.encode text) additionalData

/-- An ideal derivation and an ideal cipher, from the side of one call of `Encrypt`. -/
-- Over all calls at once nothing of the kind exists: there are more passwords than keys of 32
-- bytes, and more keys than tags of 16.
structure Platform.Ideal (P : Platform) (password salt nonce : Bytes) (text : List Char) : Prop where
  lawful : P.aead.Lawful
  key_length : ∀ password salt, (deriveKey P password salt).length = keySize
  key_distinct : ∀ other, other ≠ password → deriveKey P other salt ≠ deriveKey P password salt
  authentic : ∀ key, key ≠ deriveKey P password salt →
    P.aead.openText key nonce (sealedText P password salt nonce text) additionalData = none

theorem newAEAD_of_length {key : Bytes} (h : key.length = keySize) : newAEAD P key = .ok P.aead := by
  refine if_pos ?_
  rw [h]
  decide

theorem encrypt_ok_iff {salt : Salt} {nonce : Nonce}
    {text : List Char} (hkey : (deriveKey P password salt.val).length = keySize) :
    encrypt L P x password (.ok salt) (.ok nonce) = .ok text ↔
      (∃ token, Pairing.decode L x = .ok token) ∧ validatePassword password = .ok () ∧
      text = envelopeText salt.val nonce.val
        (sealedText P password salt.val nonce.val (trimSpace x)) := by
  have hnew : newAEAD P (deriveKey P password salt.val) = .ok P.aead := newAEAD_of_length hkey
  simp only [encrypt, bind_eq_ok, orError_ok_iff, decode_trimSpace, marshal_envelopeFields,
    Except.ok.injEq]
  constructor
  · rintro ⟨token, htoken, _, hpassword, _, rfl, _, rfl, aead, haead, htext⟩
    obtain rfl := Except.ok.inj (hnew.symm.trans haead)
    exact ⟨⟨token, htoken⟩, hpassword, htext.symm⟩
  · rintro ⟨⟨token, htoken⟩, hpassword, htext⟩
    exact ⟨token, htoken, (), hpassword, salt, rfl, nonce, rfl, P.aead, hnew, htext.symm⟩

theorem openEnvelope_sealed {salt : Salt} {nonce : Nonce}
    (hideal : P.Ideal password salt.val nonce.val (trimSpace x)) {token : Token L}
    (htoken : Pairing.decode L x = .ok token) :
    openEnvelope L P (envelopeFields salt.val nonce.val
      (sealedText P password salt.val nonce.val (trimSpace x))) password = .ok (trimSpace x) := by
  have hopened := hideal.lawful.open_seal (deriveKey P password salt.val) nonce.val
    (Utf8.encode (trimSpace x)) additionalData
  refine bind_eq_ok.mpr ⟨P.aead, newAEAD_of_length (hideal.key_length _ _), ?_⟩
  show (match P.aead.openText (deriveKey P password salt.val) nonce.val
    (sealedText P password salt.val nonce.val (trimSpace x)) additionalData with
    | none => _
    | some plaintext => _) = _
  rw [sealedText, hopened]
  simp only [Utf8.runes_encode, decode_trimSpace, htoken]
  rfl

theorem openEnvelope_other {other : Bytes} {salt : Salt} {nonce : Nonce}
    (hideal : P.Ideal password salt.val nonce.val (trimSpace x)) (h : other ≠ password) :
    openEnvelope L P (envelopeFields salt.val nonce.val
      (sealedText P password salt.val nonce.val (trimSpace x))) other =
      .error "decrypt encrypted pairing token: password is incorrect or data is corrupted" := by
  have hrefused := hideal.authentic _ (hideal.key_distinct other h)
  rw [openEnvelope, newAEAD_of_length (hideal.key_length _ _)]
  show (match P.aead.openText (deriveKey P other salt.val) nonce.val
    (sealedText P password salt.val nonce.val (trimSpace x)) additionalData with
    | none => _
    | some plaintext => _) = _
  rw [hrefused]

def maxSealedSize : Nat := maxEnvelopeSize - 88

/-- The fields around the text, its tag and the head of the ciphertext take 88 bytes. -/
theorem length_envelope_le_iff (hsalt : salt.length = saltSize)
    (hnonce : nonce.length = nonceSize) {size : Nat} (hsize : ciphertext.length = size + tagSize) :
    (envelope salt nonce ciphertext).length ≤ maxEnvelopeSize ↔ size ≤ maxSealedSize := by
  rw [length_envelope hsalt hnonce, hsize, Cbor.headSize, maxSealedSize, maxEnvelopeSize, tagSize]
  repeat' split
  all_goals omega

section Reopening
variable {x text : List Char} {password : Bytes} {salt : Salt} {nonce : Nonce}

section
variable (hideal : P.Ideal password salt.val nonce.val (trimSpace x))
include hideal

theorem length_sealed_le_iff :
    (envelope salt.val nonce.val
      (sealedText P password salt.val nonce.val (trimSpace x))).length ≤ maxEnvelopeSize ↔
    (Utf8.encode (trimSpace x)).length ≤ maxSealedSize :=
  length_envelope_le_iff salt.property nonce.property (hideal.lawful.length_seal ..)

theorem decrypt_of_encrypt
    (hencrypt : encrypt L P x password (.ok salt) (.ok nonce) = .ok text) (other : Bytes) :
    decrypt L P text other = validatePassword other >>= fun _ =>
      if maxSealedSize < (Utf8.encode (trimSpace x)).length then
        .error ("encrypted pairing token must contain 1.." ++ toString maxEnvelopeSize ++ " bytes")
      else openEnvelope L P (envelopeFields salt.val nonce.val
        (sealedText P password salt.val nonce.val (trimSpace x))) other := by
  obtain ⟨-, -, rfl⟩ := (encrypt_ok_iff (hideal.key_length _ _)).mp hencrypt
  have hsize : (sealedText P password salt.val nonce.val (trimSpace x)).length =
      (Utf8.encode (trimSpace x)).length + tagSize := hideal.lawful.length_seal ..
  rw [decrypt_envelopeText L P salt.property nonce.property (hsize ▸ Nat.le_add_left tagSize _)]
  simp only [← Nat.not_le, length_sealed_le_iff hideal]

theorem decrypt_long
    (hencrypt : encrypt L P x password (.ok salt) (.ok nonce) = .ok text)
    (hlong : maxSealedSize < (Utf8.encode (trimSpace x)).length) :
    decrypt L P text password =
      .error ("encrypted pairing token must contain 1.." ++ toString maxEnvelopeSize ++
        " bytes") := by
  obtain ⟨-, hpassword, -⟩ := (encrypt_ok_iff (hideal.key_length _ _)).mp hencrypt
  rw [decrypt_of_encrypt hideal hencrypt, hpassword, if_pos hlong]
  rfl

end

theorem decrypt_reopens_iff (hideal : P.Ideal password salt.val nonce.val (trimSpace x))
    (hencrypt : encrypt L P x password (.ok salt) (.ok nonce) = .ok text) :
    (decrypt L P text password = .ok (trimSpace x) ∧
      ∀ other, other ≠ password → ∃ err, decrypt L P text other = .error err) ↔
    (Utf8.encode (trimSpace x)).length ≤ maxSealedSize := by
  constructor
  · rintro ⟨hopen, -⟩
    by_contra hlong
    rw [decrypt_long hideal hencrypt (Nat.not_le.mp hlong)] at hopen
    cases hopen
  · intro hfits
    obtain ⟨⟨token, htoken⟩, hpassword, -⟩ :=
      (encrypt_ok_iff (hideal.key_length _ _)).mp hencrypt
    constructor
    · rw [decrypt_of_encrypt hideal hencrypt, hpassword, if_neg (Nat.not_lt.mpr hfits)]
      exact openEnvelope_sealed hideal htoken
    · intro other hother
      rw [decrypt_of_encrypt hideal hencrypt, if_neg (Nat.not_lt.mpr hfits),
        openEnvelope_other hideal hother]
      cases validatePassword other with
      | error err => exact ⟨err, rfl⟩
      | ok => exact ⟨_, rfl⟩

end Reopening

theorem length_le_of_unbroken (hL : L.Lawful) (s : TokenText L) (h : Unbroken (trimSpace s.text)) :
    (Utf8.encode (trimSpace s.text)).length ≤ maxSealedSize :=
  Nat.le_trans (s.length_of_unbroken hL h) (by decide)

def toyTag (key : Bytes) : Bytes :=
  if key = replicate keySize 1 then replicate tagSize 1 else replicate tagSize 0

def toyAead : Aead where
  sealText key _ text _ := text ++ toyTag key
  openText key _ sealed _ :=
    if sealed.drop (sealed.length - tagSize) = toyTag key then
      some (sealed.take (sealed.length - tagSize))
    else none

def toyPlatform (password : Bytes) : Platform where
  idKey given _ _ _ _ keyLen :=
    if given = password then replicate keyLen 1 else replicate keyLen 0
  aead := toyAead
  anyOther := fun _ => none

theorem length_toyTag (key : Bytes) : (toyTag key).length = tagSize := by
  rw [toyTag]
  split
  · exact length_replicate
  · exact length_replicate

theorem toyAead_open (key other nonce text additional : Bytes) :
    toyAead.openText other nonce (toyAead.sealText key nonce text additional) additional =
      if toyTag key = toyTag other then some text else none := by
  have hends : (text ++ toyTag key).length - tagSize = text.length := by
    rw [length_append, length_toyTag, Nat.add_sub_cancel]
  simp only [toyAead, hends, drop_left, take_left]

theorem toyPlatform_ideal (password salt nonce : Bytes) (text : List Char) :
    (toyPlatform password).Ideal password salt nonce text := by
  have hkey : ∀ other salt, deriveKey (toyPlatform password) other salt =
      if other = password then replicate keySize 1 else replicate keySize 0 :=
    fun _ _ => rfl
  have hown : deriveKey (toyPlatform password) password salt = replicate keySize 1 := if_pos rfl
  refine ⟨⟨?_, ?_⟩, ?_, ?_, ?_⟩
  · intro key nonce plain additional
    exact (toyAead_open key key nonce plain additional).trans (if_pos rfl)
  · intro key nonce plain additional
    exact length_append.trans (congrArg _ (length_toyTag key))
  · intro other salt
    rw [hkey]
    split
    · exact length_replicate
    · exact length_replicate
  · intro other hother
    rw [hown, hkey, if_neg hother]
    decide
  · intro key hne
    rw [hown] at hne
    have htags : toyTag (replicate keySize 1) ≠ toyTag key := by
      rw [toyTag, toyTag, if_pos rfl, if_neg hne]
      decide
    rw [sealedText, hown]
    exact (toyAead_open ..).trans (if_neg htags)

def toyPassword : Bytes := ascii "correct horse battery staple"
def toySalt : Salt := ⟨replicate 16 7, rfl⟩
def toyNonce : Nonce := ⟨replicate 12 9, rfl⟩

theorem encrypt_toy (s : TokenText plainLibraries) :
    encrypt plainLibraries (toyPlatform toyPassword) s.text toyPassword (.ok toySalt)
      (.ok toyNonce) = .ok (envelopeText toySalt.val toyNonce.val
        (sealedText (toyPlatform toyPassword) toyPassword toySalt.val toyNonce.val
          (trimSpace s.text))) :=
  (encrypt_ok_iff ((toyPlatform_ideal toyPassword [] [] []).key_length _ _)).mpr
    ⟨⟨s.token, s.decoded⟩, by decide, rfl⟩

theorem decrypt_reopens_iff_example :
    (toyPlatform toyPassword).Ideal toyPassword toySalt.val toyNonce.val
      (trimSpace TokenText.padded.text) ∧
    ∃ text, encrypt plainLibraries (toyPlatform toyPassword) TokenText.padded.text toyPassword
        (.ok toySalt) (.ok toyNonce) = .ok text ∧
      decrypt plainLibraries (toyPlatform toyPassword) text toyPassword =
        .ok (trimSpace TokenText.padded.text) ∧
      ∀ other, other ≠ toyPassword →
        ∃ err, decrypt plainLibraries (toyPlatform toyPassword) text other = .error err := by
  refine ⟨toyPlatform_ideal .., _, encrypt_toy TokenText.padded, ?_⟩
  exact (decrypt_reopens_iff (toyPlatform_ideal ..) (encrypt_toy TokenText.padded)).mpr
    (length_le_of_unbroken plainLibraries_lawful _ TokenText.unbroken_padded)

def wrapped (n : Nat) : TokenText plainLibraries :=
  TokenText.spelled [] (replicate n '\n') []
    (fun _ h => eq_of_mem_replicate h ▸ rfl) TokenText.no_margins

theorem length_wrapped (n : Nat) : n ≤ (Utf8.encode (trimSpace (wrapped n).text)).length := by
  refine Nat.le_trans ?_ (Utf8.length_le_encode _)
  rw [wrapped, TokenText.trimSpace_spelled, length_append, length_append,
    length_replicate]
  omega

/-- `Encrypt` takes a wrapped text whose envelope `Decrypt` finds too long. -/
theorem wrapped_text_lost :
    ∃ text, encrypt plainLibraries (toyPlatform toyPassword) (wrapped maxEnvelopeSize).text
        toyPassword (.ok toySalt) (.ok toyNonce) = .ok text ∧
      decrypt plainLibraries (toyPlatform toyPassword) text toyPassword =
        .error ("encrypted pairing token must contain 1.." ++ toString maxEnvelopeSize ++
          " bytes") := by
  refine ⟨_, encrypt_toy _, decrypt_long (toyPlatform_ideal ..) (encrypt_toy _) ?_⟩
  exact Nat.lt_of_lt_of_le (by decide) (length_wrapped maxEnvelopeSize)

end P2PNetcat.Tokenfile
