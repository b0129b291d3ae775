import P2PNetcat.Protocol.PairingRoundTrip

/-!
# The admission handshake

One frame of 62 bytes in each direction, authenticated with a key derived from
the pairing secret.
-/

namespace P2PNetcat.Admission
open List ByteCodec Fallible GoTime Hmac Pairing
variable {f : Bytes} {now : Time}

def version : UInt8 := 1
def clientHello : UInt8 := 1
def serverAck : UInt8 := 2
def nonceSize : Nat := 16
def macSize : Nat := 32
def frameSize : Nat := 62
def maxClockSkew : Int := 120 * second

def magic : Bytes := ascii "PNCA"

abbrev Block (size : Nat) := { value : Bytes // value.length = size }

structure Hello where
  timestamp : UInt64
  clientNonce : Block nonceSize
  deriving DecidableEq

structure Frame where
  kind : UInt8
  timestamp : UInt64
  nonce : Block nonceSize
  mac : Block macSize
  deriving DecidableEq

def encode (kind : UInt8) (timestamp : UInt64) (nonce : Block nonceSize) (mac : Block macSize) :
    Bytes :=
  magic ++ ([version, kind] ++ (bigEndian 8 timestamp.toNat ++ (nonce.val ++ mac.val)))

def decode (encoded : Bytes) (expectedKind : UInt8) : Except String Frame :=
  if h : encoded.length = frameSize then
    let kind := (encoded.drop 5).headD 0
    if encoded.take 4 ≠ magic then .error "invalid admission frame signature"
    else if (encoded.drop 4).headD 0 ≠ version then
      .error ("unsupported admission version: " ++ toString ((encoded.drop 4).headD 0).toNat)
    else if kind ≠ expectedKind then
      .error ("unexpected admission frame type: " ++ toString kind.toNat)
    else .ok {
      kind
      timestamp := (bigEndianValue ((encoded.drop 6).take 8)).toUInt64
      nonce := ⟨(encoded.drop 14).take nonceSize, by simp [h, nonceSize, frameSize]⟩
      mac := ⟨(encoded.drop 30).take macSize, by simp [h, macSize, frameSize]⟩ }
  else .error ("admission frame must contain exactly " ++ toString frameSize ++ " bytes")

variable {L : Libraries}

def calculateMAC (token : Token L) (message : Bytes) : Except String (Block macSize) := do
  let key ← token.deriveKey "admission"
  .ok ⟨hmac key message, length_hmac ..⟩

def macInput (role : String) (token : Token L) (timestamp : UInt64)
    (clientNonce serverNonce : Bytes) : Bytes :=
  ascii "p2p-netcat/session-auth/v1" ++ 0 :: (ascii role ++ 0 :: (L.idString token.peerID ++
    0 :: (decimal token.service.toNat ++ 0 :: (decimal timestamp.toNat ++
      0 :: (clientNonce ++ serverNonce)))))

def fillNonce (source : Option Bytes) (random : Except String (Block nonceSize)) :
    Except String (Block nonceSize) :=
  match source with
  | none => random
  | some value =>
    if h : value.length = nonceSize then .ok ⟨value, h⟩
    else .error ("admission nonce must contain exactly " ++ toString nonceSize ++ " bytes")

def toUInt64 (n : Int) : UInt64 := (n % 2 ^ 64).toNat.toUInt64

def createHello (token : Token L) (now : Time) (nonce : Option Bytes)
    (random : Except String (Block nonceSize)) : Except String (Bytes × Hello) := do
  token.validate now
  let timestamp := toUInt64 now.toUnix
  let clientNonce ← fillNonce nonce random
  let mac ← calculateMAC token (macInput "client" token timestamp clientNonce.val [])
  .ok (encode clientHello timestamp clientNonce mac, ⟨timestamp, clientNonce⟩)

def verifyHello (token : Token L) (encoded : Bytes) (now : Time) (maxSkew : Int) :
    Except String Hello := do
  token.validate now
  let value ← decode encoded clientHello
  let timestamp := unix (wrap64 value.timestamp.toNat)
  if maxSkew < 0 ∨ timestamp.before (now.add (-maxSkew)) ∨ timestamp.after (now.add maxSkew) then
    .error "admission handshake timestamp is outside the allowed window"
  else do
    let expected ← calculateMAC token (macInput "client" token value.timestamp value.nonce.val [])
    if expected ≠ value.mac then .error "pairing-token authentication failed"
    else .ok ⟨value.timestamp, value.nonce⟩

def createAck (token : Token L) (hello : Hello) (nonce : Option Bytes)
    (random : Except String (Block nonceSize)) : Except String Bytes := do
  let serverNonce ← fillNonce nonce random
  let mac ← calculateMAC token
    (macInput "server" token hello.timestamp hello.clientNonce.val serverNonce.val)
  .ok (encode serverAck hello.timestamp serverNonce mac)

def verifyAck (token : Token L) (hello : Hello) (encoded : Bytes) : Except String Unit := do
  let value ← decode encoded serverAck
  if value.timestamp ≠ hello.timestamp then .error "admission handshake timestamp changed"
  else do
    let expected ← calculateMAC token
      (macInput "server" token hello.timestamp hello.clientNonce.val value.nonce.val)
    if expected ≠ value.mac then .error "server pairing-token confirmation failed"
    else .ok ()

/-- What one incoming stream gave to `AuthenticateServer`: the frame read from it, the clock, the
random source and the write of the acknowledgement. -/
structure Incoming where
  read : Except String Bytes
  now : Time
  random : Except String (Block nonceSize)
  written : Except String Unit

def authenticateServer (token : Token L) (x : Incoming) : Except String Unit := do
  let encoded ← orError x.read ("read admission hello: " ++ ·)
  let hello ← verifyHello token encoded x.now maxClockSkew
  let _ ← createAck token hello none x.random
  orError x.written ("send admission acknowledgement: " ++ ·)

theorem length_encode (kind : UInt8) (timestamp : UInt64) (nonce : Block nonceSize)
    (mac : Block macSize) : (encode kind timestamp nonce mac).length = frameSize := by
  have hmagic : magic.length = 4 := rfl
  simp only [encode, length_append, bigEndian_length, nonce.property, mac.property, hmagic,
    length_cons, length_nil]
  rfl

theorem take_succ_drop {n k : Nat} (h : n < f.length) :
    (f.drop n).take (k + 1) = (f.drop n).headD 0 :: (f.drop (n + 1)).take k := by
  rw [drop_eq_getElem_cons h, take_succ_cons, headD_cons]

theorem slices (h : f.length = frameSize) :
    f = f.take 4 ++ ([(f.drop 4).headD 0, (f.drop 5).headD 0] ++ ((f.drop 6).take 8 ++
      ((f.drop 14).take nonceSize ++ (f.drop 30).take macSize))) := by
  rw [frameSize] at h
  have hpair : [(f.drop 4).headD 0, (f.drop 5).headD 0] = (f.drop 4).take 2 := by
    rw [take_succ_drop (by omega), take_succ_drop (by omega), take_zero]
  have hmac : (f.drop 30).take macSize = f.drop 30 := take_of_length_le (by simp [h, macSize])
  have hsplit : ∀ n k, f.drop n = (f.drop n).take k ++ f.drop (n + k) := by
    intro n k
    rw [← drop_drop, take_append_drop]
  rw [hpair, hmac]
  calc f = f.take 4 ++ f.drop 4 := (take_append_drop 4 f).symm
    _ = f.take 4 ++ ((f.drop 4).take 2 ++ f.drop 6) := by rw [← hsplit 4 2]
    _ = f.take 4 ++ ((f.drop 4).take 2 ++ ((f.drop 6).take 8 ++ f.drop 14)) := by
      rw [← hsplit 6 8]
    _ = f.take 4 ++ ((f.drop 4).take 2 ++ ((f.drop 6).take 8 ++
        ((f.drop 14).take nonceSize ++ f.drop 30))) := by
      have hlast : f.drop 14 = (f.drop 14).take nonceSize ++ f.drop 30 := hsplit 14 nonceSize
      rw [← hlast]

theorem slices_eq {a ts nonce mac : Bytes} {v k : UInt8}
    (hf : f = a ++ ([v, k] ++ (ts ++ (nonce ++ mac)))) (ha : a.length = 4) (hts : ts.length = 8)
    (hnonce : nonce.length = nonceSize) (hmac : mac.length = macSize) :
    f.take 4 = a ∧ (f.drop 4).headD 0 = v ∧ (f.drop 5).headD 0 = k ∧ (f.drop 6).take 8 = ts ∧
      (f.drop 14).take nonceSize = nonce ∧ (f.drop 30).take macSize = mac := by
  have hlength : f.length = frameSize := by
    rw [hf]
    simp [ha, hts, hnonce, hmac, nonceSize, macSize, frameSize]
  have heq := (slices hlength).symm.trans hf
  obtain ⟨h4, heq⟩ := append_inj heq (by simp [hlength, frameSize, ha])
  obtain ⟨hpair, heq⟩ := append_inj heq rfl
  obtain ⟨h8, heq⟩ := append_inj heq (by simp [hlength, frameSize, hts])
  obtain ⟨h16, h32⟩ := append_inj heq (by simp [hlength, frameSize, nonceSize, hnonce])
  obtain ⟨hv, hpair⟩ := cons.inj hpair
  exact ⟨h4, hv, (cons.inj hpair).1, h8, h16, h32⟩

theorem bigEndian_timestamp (h : f.length = frameSize) :
    bigEndian 8 (bigEndianValue ((f.drop 6).take 8)).toUInt64.toNat = (f.drop 6).take 8 := by
  have hlength : ((f.drop 6).take 8).length = 8 := by simp [h, frameSize]
  have hlt := bigEndianValue_lt ((f.drop 6).take 8)
  have hvalue := bigEndian_bigEndianValue ((f.drop 6).take 8)
  rw [hlength] at hlt hvalue
  have hnat : (bigEndianValue ((f.drop 6).take 8)).toUInt64.toNat =
      bigEndianValue ((f.drop 6).take 8) := UInt64.toNat_ofNat_of_lt' hlt
  rw [hnat, hvalue]

theorem decode_ok_iff {kind : UInt8} {value : Frame} :
    decode f kind = .ok value ↔
      value.kind = kind ∧ f = encode kind value.timestamp value.nonce value.mac := by
  constructor
  · intro h
    rw [decode] at h
    split at h
    next hlength =>
      simp only [ite_error_eq_ok, ne_eq, not_not] at h
      obtain ⟨hmagic, hversion, hkind, h⟩ := h
      cases h
      refine ⟨hkind, ?_⟩
      rw [encode, bigEndian_timestamp hlength, ← hmagic, ← hversion, ← hkind]
      exact slices hlength
    · cases h
  · rintro ⟨rfl, hf⟩
    obtain ⟨kind, timestamp, nonce, mac⟩ := value
    have hlength : f.length = frameSize := hf ▸ length_encode ..
    obtain ⟨h4, hv, hk, h8, h16, h32⟩ :=
      slices_eq hf rfl (bigEndian_length ..) nonce.property mac.property
    have hts : (bigEndianValue ((f.drop 6).take 8)).toUInt64 = timestamp := by
      rw [h8, bigEndianValue_bigEndian 8 _ timestamp.toNat_lt]
      exact UInt64.ofNat_toNat
    have hmac : (⟨(f.drop 30).take macSize, by simp [hlength, macSize, frameSize]⟩ : Block macSize) =
      mac := Subtype.ext h32
    have hnonce : (⟨(f.drop 14).take nonceSize, by simp [hlength, nonceSize, frameSize]⟩ :
      Block nonceSize) = nonce := Subtype.ext h16
    simp only [decode, dif_pos hlength, h4, hv, hk, hts, hnonce, hmac, ne_eq, not_true_eq_false,
      if_false]

def admissionKey (secret : Bytes) : Bytes :=
  hkdf secret (ascii "p2p-netcat/pairing/v1") (ascii ("p2p-netcat/" ++ "admission" ++ "/v1"))

theorem deriveKey_admission (token : Token L) :
    token.deriveKey "admission" = .ok (admissionKey token.secret) :=
  if_pos (by simp)

def mac (token : Token L) (message : Bytes) : Block macSize :=
  ⟨hmac (admissionKey token.secret) message, length_hmac ..⟩

theorem calculateMAC_eq (token : Token L) (message : Bytes) :
    calculateMAC token message = .ok (mac token message) := by
  rw [calculateMAC, deriveKey_admission]
  rfl

def helloFrame (token : Token L) (hello : Hello) : Bytes :=
  encode clientHello hello.timestamp hello.clientNonce
    (mac token (macInput "client" token hello.timestamp hello.clientNonce.val []))

def ackFrame (token : Token L) (hello : Hello) (serverNonce : Block nonceSize) : Bytes :=
  encode serverAck hello.timestamp serverNonce (mac token
    (macInput "server" token hello.timestamp hello.clientNonce.val serverNonce.val))

def Hello.nanos (hello : Hello) : Int := hello.timestamp.toNat * second

variable {token : Token L} {hello : Hello}

theorem verifyHello_ok {maxSkew : Int} :
    verifyHello token f now maxSkew = .ok hello ↔ token.validate now = .ok () ∧
      f = helloFrame token hello ∧
      ¬ (maxSkew < 0 ∨ (unix (wrap64 hello.timestamp.toNat)).before (now.add (-maxSkew)) ∨
        (unix (wrap64 hello.timestamp.toNat)).after (now.add maxSkew)) := by
  rw [verifyHello, bind_eq_ok]
  constructor
  · rintro ⟨_, hvalid, h⟩
    obtain ⟨value, hvalue, h⟩ := bind_eq_ok.mp h
    obtain ⟨hwindow, h⟩ := ite_error_eq_ok.mp h
    rw [calculateMAC_eq] at h
    obtain ⟨hmac, hhello⟩ := ite_error_eq_ok.mp h
    obtain ⟨-, hf⟩ := decode_ok_iff.mp hvalue
    cases hhello
    refine ⟨hvalid, ?_, hwindow⟩
    rw [helloFrame, not_not.mp hmac]
    exact hf
  · rintro ⟨hvalid, rfl, hwindow⟩
    have hdecode : decode (helloFrame token hello) clientHello = .ok ⟨clientHello, hello.timestamp,
        hello.clientNonce,
        mac token (macInput "client" token hello.timestamp hello.clientNonce.val [])⟩ :=
      decode_ok_iff.mpr ⟨rfl, rfl⟩
    refine ⟨(), hvalid, bind_eq_ok.mpr ⟨_, hdecode, ?_⟩⟩
    refine ite_error_eq_ok.mpr ⟨hwindow, bind_eq_ok.mpr ⟨_, calculateMAC_eq .., ?_⟩⟩
    simp only [ne_eq, not_true_eq_false, if_false]

theorem window_iff {maxSkew : Int} (hskew : 0 ≤ maxSkew)
    (hnow : maxSkew ≤ now.nanos) :
    ¬ (maxSkew < 0 ∨ (unix (wrap64 hello.timestamp.toNat)).before (now.add (-maxSkew)) ∨
        (unix (wrap64 hello.timestamp.toNat)).after (now.add maxSkew)) ↔
      now.nanos - maxSkew ≤ hello.nanos ∧ hello.nanos ≤ now.nanos + maxSkew ∧
        hello.timestamp.toNat < unixEnd := by
  have hlt := hello.timestamp.toNat_lt
  obtain ⟨hshort, hlong⟩ := nanos_unix (n := hello.timestamp.toNat) (by omega)
  rw [Time.before_add rfl hskew (by omega), Time.after_add rfl hskew, Hello.nanos]
  by_cases hend : (hello.timestamp.toNat : Int) < unixEnd
  · rw [hshort hend]
    omega
  · have := hlong (by omega)
    omega

theorem validate_now_iff (hsound : token.Sound)
    (hnow : 0 ≤ now.nanos) : token.validate now = .ok () ↔
      ∀ expires, token.expiresAt = some expires → now.nanos / second ≤ expires.toNat := by
  have hrange := now.sec_range
  have hseconds : now.nanos / second % 2 ^ 64 = now.nanos / second := by
    have hnsec := now.nsec_range
    simp only [Time.nanos, second, unixToInternal] at *
    omega
  rw [Token.validate_ok_iff, Time.toUnix_of_nonneg hnow, hseconds]
  constructor
  · rintro ⟨-, h⟩ expires hexpires
    exact h expires hexpires (Time.isZero_of_nonneg hnow)
  · intro h
    exact ⟨hsound, fun expires hexpires _ => h expires hexpires⟩

theorem createAck_some {value : Bytes}
    {random : Except String (Block nonceSize)} {g : Bytes} :
    createAck token hello (some value) random = .ok g ↔
      ∃ n : Block nonceSize, n.val = value ∧ g = ackFrame token hello n := by
  rw [createAck, bind_eq_ok, fillNonce]
  constructor
  · rintro ⟨n, hn, h⟩
    rw [calculateMAC_eq] at h
    split at hn
    · cases hn
      cases h
      exact ⟨_, rfl, rfl⟩
    · cases hn
  · rintro ⟨n, rfl, rfl⟩
    refine ⟨n, dif_pos n.property, ?_⟩
    rw [calculateMAC_eq]
    rfl

theorem createAck_drawn {nonce : Block nonceSize} :
    createAck token hello none (.ok nonce) = .ok (ackFrame token hello nonce) := by
  refine bind_eq_ok.mpr ⟨nonce, rfl, bind_eq_ok.mpr ⟨_, calculateMAC_eq .., ?_⟩⟩
  rw [ackFrame]

def nonceOf (g : Bytes) : Bytes := (g.drop 14).take nonceSize

theorem nonceOf_ackFrame (token : Token L) (hello : Hello) (n : Block nonceSize) :
    nonceOf (ackFrame token hello n) = n.val := by
  obtain ⟨-, -, -, -, h, -⟩ := slices_eq (f := ackFrame token hello n) (a := magic) rfl rfl
    (bigEndian_length ..) n.property
    (mac token (macInput "server" token hello.timestamp hello.clientNonce.val n.val)).property
  exact h

theorem verifyAck_ok {g : Bytes} :
    verifyAck token hello g = .ok () ↔ ∃ n, g = ackFrame token hello n := by
  rw [verifyAck, bind_eq_ok]
  constructor
  · rintro ⟨value, hvalue, h⟩
    obtain ⟨-, hg⟩ := decode_ok_iff.mp hvalue
    obtain ⟨htimestamp, h⟩ := ite_error_eq_ok.mp h
    rw [calculateMAC_eq] at h
    obtain ⟨hmac, -⟩ := ite_error_eq_ok.mp h
    refine ⟨value.nonce, ?_⟩
    rw [ackFrame, not_not.mp hmac, ← not_not.mp htimestamp]
    exact hg
  · rintro ⟨n, rfl⟩
    have hdecode : decode (ackFrame token hello n) serverAck = .ok ⟨serverAck, hello.timestamp, n,
        mac token (macInput "server" token hello.timestamp hello.clientNonce.val n.val)⟩ :=
      decode_ok_iff.mpr ⟨rfl, rfl⟩
    refine ⟨_, hdecode, ite_error_eq_ok.mpr ⟨not_not.mpr rfl, ?_⟩⟩
    refine bind_eq_ok.mpr ⟨_, calculateMAC_eq .., ?_⟩
    simp only [ne_eq, not_true_eq_false, if_false]

theorem helloFrame_ne_ackFrame {token other : Token L} {hello hello' : Hello} {n : Block nonceSize} :
    helloFrame token hello ≠ ackFrame other hello' n := by
  intro heq
  obtain ⟨-, h⟩ := append_inj heq rfl
  obtain ⟨h, -⟩ := append_inj h rfl
  exact absurd h (by decide)

/-- `VerifyHello` accepts exactly the fresh hellos of an unexpired token, `VerifyAck` exactly the
acknowledgements of a hello, and no frame is both. -/
theorem admission_exact {token : Token L} (hsound : token.Sound) {now : Time} {maxSkew : Int}
    (hskew : 0 ≤ maxSkew) (hnow : maxSkew ≤ now.nanos) :
    (∀ f hello, verifyHello token f now maxSkew = .ok hello ↔
      (∀ expires, token.expiresAt = some expires → now.nanos / second ≤ expires.toNat) ∧
      f = helloFrame token hello ∧ now.nanos - maxSkew ≤ hello.nanos ∧
      hello.nanos ≤ now.nanos + maxSkew ∧ hello.timestamp.toNat < unixEnd) ∧
    (∀ hello g random, verifyAck token hello g = .ok () ↔
      createAck token hello (some (nonceOf g)) random = .ok g) ∧
    ∀ f hello hello', ¬ (verifyHello token f now maxSkew = .ok hello ∧
      verifyAck token hello' f = .ok ()) := by
  refine ⟨?_, ?_, ?_⟩
  · intro f hello
    rw [verifyHello_ok, validate_now_iff hsound (Int.le_trans hskew hnow), window_iff hskew hnow]
  · intro hello g random
    rw [verifyAck_ok, createAck_some]
    constructor
    · rintro ⟨n, rfl⟩
      exact ⟨n, (nonceOf_ackFrame token hello n).symm, rfl⟩
    · rintro ⟨n, -, hg⟩
      exact ⟨n, hg⟩
  · rintro f hello hello' ⟨hhello, hack⟩
    obtain ⟨-, hf, -⟩ := verifyHello_ok.mp hhello
    obtain ⟨n, hn⟩ := verifyAck_ok.mp hack
    exact helloFrame_ne_ackFrame (hf.symm.trans hn)

def nonceOfByte (b : UInt8) : Block nonceSize := ⟨replicate nonceSize b, rfl⟩

theorem sound_forRelays_nil : (Token.forRelays []).Sound := by
  have hvalid : (Token.forRelays []).validate zeroTime = .ok () := by decide
  exact (Token.validate_ok_iff.mp hvalid).1

theorem authenticateServer_ok {x : Incoming} {encoded : Bytes} {nonce : Block nonceSize}
    (hread : x.read = .ok encoded)
    (hhello : verifyHello token encoded x.now maxClockSkew = .ok hello)
    (hnonce : x.random = .ok nonce) (hwritten : x.written = .ok ()) :
    authenticateServer token x = .ok () := by
  rw [authenticateServer, hread, hnonce, hwritten]
  refine bind_eq_ok.mpr ⟨encoded, rfl, bind_eq_ok.mpr ⟨hello, hhello, ?_⟩⟩
  exact bind_eq_ok.mpr ⟨_, createAck_drawn, rfl⟩

theorem exists_admitted (h : token.Sound) :
    ∃ x, authenticateServer token x = .ok () := by
  have hvalid : token.validate (unix 0) = .ok () := by
    refine Token.validate_ok_iff.mpr ⟨h, ?_⟩
    intro expires _ _
    exact Int.natCast_nonneg _
  have hhello : verifyHello token (helloFrame token ⟨0, nonceOfByte 1⟩) (unix 0) maxClockSkew =
      .ok ⟨0, nonceOfByte 1⟩ := verifyHello_ok.mpr ⟨hvalid, rfl, by decide⟩
  exact ⟨⟨.ok (helloFrame token ⟨0, nonceOfByte 1⟩), unix 0, .ok (nonceOfByte 2), .ok ()⟩,
    authenticateServer_ok rfl hhello rfl rfl⟩

theorem admission_exact_example : ∃ (token : Token plainLibraries) (now : Time),
    token.Sound ∧ maxClockSkew ≤ now.nanos ∧
    (∀ f hello, verifyHello token f now maxClockSkew = .ok hello ↔
      (∀ expires, token.expiresAt = some expires → now.nanos / second ≤ expires.toNat) ∧
      f = helloFrame token hello ∧ now.nanos - maxClockSkew ≤ hello.nanos ∧
      hello.nanos ≤ now.nanos + maxClockSkew ∧ hello.timestamp.toNat < unixEnd) ∧
    (∀ hello g random, verifyAck token hello g = .ok () ↔
      createAck token hello (some (nonceOf g)) random = .ok g) ∧
    ∀ f hello hello', ¬ (verifyHello token f now maxClockSkew = .ok hello ∧
      verifyAck token hello' f = .ok ()) :=
  ⟨Token.forRelays [], unix 1800000000, sound_forRelays_nil, by decide,
    admission_exact sound_forRelays_nil (by decide) (by decide)⟩

/-- The last second an instant can hold, and a timestamp one second later. -/
theorem late_timestamp_refused : ∃ (token : Token plainLibraries) (now : Time) (hello : Hello),
    token.Sound ∧ token.expiresAt = none ∧ second ≤ now.nanos ∧
    now.nanos - second ≤ hello.nanos ∧ hello.nanos ≤ now.nanos + second ∧
    verifyHello token (helloFrame token hello) now second ≠ .ok hello := by
  have hvalid : Token.validate { Token.forRelays [] with expiresAt := none } zeroTime = .ok () := by
    decide
  have hsound := (Token.validate_ok_iff.mp hvalid).1
  refine ⟨{ Token.forRelays [] with expiresAt := none }, unix (2 ^ 63 - 1 - unixToInternal),
    ⟨(2 ^ 63 - 62135596800 : Nat).toUInt64, nonceOfByte 1⟩, hsound, rfl, by decide, by decide,
    by decide, ?_⟩
  rw [Ne, verifyHello_ok]
  rintro ⟨-, -, hwindow⟩
  exact hwindow (.inr (.inl (by decide)))

end P2PNetcat.Admission
