import P2PNetcat.Library.StepSystem
import P2PNetcat.NativeWebRTC.Signaling
import P2PNetcat.Protocol.PairingRoundTrip

/-!
# What is published can be received

Which prepared signals a peer with the same topic and token takes, and with the
same contents. The sender limits the description and the candidate, the receiver
the text of the sealed payload.

Then any number of holders of tokens publish and receive over hostile relays, which
hand a receiver any signal at any time. The cipher is ideal: it opens only what was
sealed under the key, with the nonce and the additional data it was sealed with.
-/

namespace P2PNetcat.NativeWebRTC.Signaling
open List ByteCodec Fallible GoTime Json StepSystem
open P2PNetcat.Pairing (Libraries Token Aead GcmNonce isNewline sealedEnvelope
  length_sealedEnvelope gcmNonceSize tagSize sealedEnvelope_injective plainLibraries)

variable {F : Floats} {L : Libraries} {A : Aead}

theorem decodeEncrypted_encode (envelope : Bytes) :
    decodeEncrypted ((Base64Url.encode envelope).map byteOf) = some envelope := by
  have hgraphic : ∀ c ∈ Base64Url.encode envelope, 32 < c.toNat ∧ c.toNat < 127 := fun c hc =>
    Base64Url.graphic_of_value (Base64Url.value_of_encode envelope c hc)
  have hchars : ((Base64Url.encode envelope).map byteOf).map charOf = Base64Url.encode envelope := by
    rw [map_map]
    conv_rhs => rw [← map_id (Base64Url.encode envelope)]
    refine map_congr_left fun c hc => charOf_byteOf_of_lt ?_
    have := hgraphic c hc
    omega
  have hlines : (Base64Url.encode envelope).filter (fun c => !isNewline c) =
      Base64Url.encode envelope := by
    refine filter_eq_self.mpr fun c hc => ?_
    have hlow := (hgraphic c hc).1
    have hline : ¬ (c = '\n' ∨ c = '\r') := by
      rintro (rfl | rfl)
      · exact absurd hlow (by decide)
      · exact absurd hlow (by decide)
    rw [isNewline, decide_eq_false hline]
    rfl
  rw [decodeEncrypted, hchars, hlines, Base64Url.decode_encode]

def maxPayloadBytes : Nat := 393177

theorem length_encrypted_le_iff {nonce ciphertext plaintext : Bytes}
    (hnonce : nonce.length = gcmNonceSize)
    (hciphertext : ciphertext.length = plaintext.length + tagSize) :
    ((Base64Url.encode (sealedEnvelope nonce ciphertext)).map byteOf).length ≤
      maxEncryptedSignalBytes ↔ plaintext.length ≤ maxPayloadBytes := by
  rw [length_map, Base64Url.length_encode, length_sealedEnvelope hnonce, hciphertext, tagSize,
    maxEncryptedSignalBytes, maxPayloadBytes, Cbor.headSize]
  split
  · omega
  split
  · omega
  split
  · omega
  split
  · omega
  · omega

variable {signal : Signal F}

/-- What a receiver with the token finds in a prepared signal that is not too long. -/
theorem openSealed_withSealed (hF : F.Lawful) (hA : A.Lawful)
    {plaintext : Bytes} (hplaintext : marshalPayload signal = .ok plaintext)
    (hshort : plaintext.length ≤ maxPayloadBytes) (stamped : Signal F) (token : Token L)
    (nonce : GcmNonce) :
    openSealed A (stamped.withSealed (sealedEnvelope nonce.val
        (A.sealText token.signalingKey nonce.val plaintext (signalAdditionalData stamped)))) token =
      if payloadDepth signal.candidate ≤ maxNestingDepth then
        some ⟨Utf8.coerce signal.sdp, sealedCandidate signal.candidate⟩
      else none := by
  have hlength := hA.length_seal token.signalingKey nonce.val plaintext
    (signalAdditionalData stamped)
  have hopen := Token.openPayload_sealed token nonce.property (by omega)
    (by rw [hlength, tagSize]; rw [maxPayloadBytes] at hshort; omega)
    (hA.open_seal token.signalingKey nonce.val plaintext (signalAdditionalData stamped))
  have hne : (stamped.withSealed (sealedEnvelope nonce.val (A.sealText token.signalingKey nonce.val
      plaintext (signalAdditionalData stamped)))).encrypted ≠ [] := by
    intro hempty
    have hsize := congrArg length hempty
    rw [Signal.withSealed, length_map, Base64Url.length_encode,
      length_sealedEnvelope nonce.property, length_nil] at hsize
    omega
  rw [openSealed, if_neg hne, ← unmarshal_marshalPayload hF hplaintext]
  simp only [Signal.withSealed, decodeEncrypted_encode, Option.bind_eq_bind, Option.bind_some]
  change Option.bind (Token.openPayload token A "signaling" _ (signalAdditionalData stamped)).toOption
    _ = _
  rw [hopen]
  rfl

def SameJson {N : Type} (a b : Option (Object N)) : Prop := a.map Object.reread = b.map Object.reread

structure Delivered (signal opened : Signal F) (peerID : Bytes) : Prop where
  type : opened.type = signal.type
  sessionID : opened.sessionID = signal.sessionID
  fromID : opened.fromID = peerID
  toID : opened.toID = signal.toID
  sdp : opened.sdp = signal.sdp
  candidate : SameJson opened.candidate signal.candidate

/-- A signal a receiver can take: without a token, what already stands in `encrypted` is not too
long; with one, the description is UTF-8, the candidate is no empty map and not nested too deeply,
and the text of both is not too long. -/
def Signal.Fits (signal : Signal F) : Option (Token L) → Prop
  | none => signal.encrypted.length ≤ maxEncryptedSignalBytes
  | some _ => Utf8.valid signal.sdp = true ∧ (∀ c ∈ signal.candidate, c.members ≠ []) ∧
      payloadDepth signal.candidate ≤ maxNestingDepth ∧
      ∀ plaintext, marshalPayload signal = .ok plaintext → plaintext.length ≤ maxPayloadBytes

theorem Object.reread_reread {N : Type} (o : Object N) : o.reread.reread = o.reread :=
  Object.reread_of_valid (valid_reread o.tree)

theorem sealedCandidate_of_nonempty {candidate : Option (Object F.Float)}
    (h : ∀ c ∈ candidate, c.members ≠ []) : sealedCandidate candidate = candidate.map Object.reread := by
  cases candidate with
  | none => rfl
  | some c =>
    have hempty : ¬ c.members.isEmpty = true := fun hnil => h c rfl (isEmpty_iff.mp hnil)
    rw [sealedCandidate, if_neg hempty]
    rfl

theorem sameJson_sealedCandidate_iff {candidate : Option (Object F.Float)} :
    SameJson (sealedCandidate candidate) candidate ↔ ∀ c ∈ candidate, c.members ≠ [] := by
  constructor
  · rintro h c rfl hempty
    rw [sealedCandidate, if_pos (isEmpty_iff.mpr hempty)] at h
    cases h
  · intro h
    rw [sealedCandidate_of_nonempty h, SameJson, Option.map_map]
    cases candidate with
    | none => rfl
    | some c => exact congrArg some (Object.reread_reread c)

variable {signal opened : Signal F}

theorem validateSignalPayloadSizes_reread
    (h : validateSignalPayloadSizes signal = .ok ()) (hsdp : opened.sdp = signal.sdp)
    (hcandidate : opened.candidate = signal.candidate.map Object.reread) :
    validateSignalPayloadSizes opened = .ok () := by
  obtain ⟨hshort, h⟩ := ite_error_eq_ok.mp h
  rw [validateSignalPayloadSizes, hsdp, hcandidate, ite_error_eq_ok]
  refine ⟨hshort, ?_⟩
  cases hheld : signal.candidate with
  | none => rfl
  | some c =>
    rw [hheld] at h
    simp only [marshal] at h
    cases htext : toText F.format c.tree with
    | error err =>
      rw [htext] at h
      cases h
    | ok text =>
      rw [htext] at h
      obtain ⟨hsize, -⟩ := ite_error_eq_ok.mp h
      have hreread : toText F.format c.reread.tree = .ok text.reread := toText_reread c.tree htext
      have hle := size_reread_le text
      simp only [Option.map_some, marshal, hreread]
      exact ite_error_eq_ok.mpr ⟨fun hlarge => hsize (Nat.lt_of_lt_of_le hlarge hle), rfl⟩

theorem checkContent_congr (htype : opened.type = signal.type)
    (hsdp : opened.sdp = signal.sdp) (hcandidate : opened.candidate.isNone = signal.candidate.isNone) :
    checkContent opened = checkContent signal := by
  rw [checkContent, checkContent, htype, hsdp, hcandidate]

theorem Signal.Sendable.acceptable {topic peerID other : Bytes} {now : Time}
    (h : signal.Sendable peerID) (hversion : opened.version = signalVersion)
    (hroom : opened.room = topic) (hcreated : absDuration (now.sub (ofUnixMilli opened.createdAt)) ≤
      signalTTL) (hother : other ≠ peerID) (hto : signal.toID = [] ∨ signal.toID = other)
    (hdelivered : Delivered signal opened peerID) (hsizes : validateSignalPayloadSizes opened = .ok ())
    (hpresent : opened.candidate.isNone = signal.candidate.isNone) :
    opened.Acceptable topic other now where
  version := hversion
  room := hroom
  other := by
    rw [hdelivered.fromID]
    exact hother.symm
  toID := by
    rw [hdelivered.toID]
    exact hto
  named := by
    rw [hdelivered.sessionID, hdelivered.fromID]
    constructor
    · intro hempty
      have := h.sessionID.1
      rw [hempty] at this
      exact absurd this (by decide)
    · intro hempty
      have := h.peerID
      rw [hempty] at this
      exact absurd this (by decide)
  recent := hcreated
  content := by
    rw [checkContent_congr hdelivered.type hdelivered.sdp hpresent]
    exact h.content
  sizes := hsizes

def Recent (signal : Signal F) (now : Time) : Prop :=
  (now.nanos - signal.createdAt * 1000000).natAbs ≤ signalTTL

theorem recent_iff (h : -2 ^ 63 ≤ signal.createdAt ∧ signal.createdAt < 2 ^ 63)
    {now : Time} :
    absDuration (now.sub (ofUnixMilli signal.createdAt)) ≤ signalTTL ↔ Recent signal now := by
  rw [absDuration_sub_le (by decide), nanos_ofUnixMilli h, Recent]

theorem Signal.Sendable.wellFormed {signal outgoing : Signal F} {peerID : Bytes}
    (h : signal.Sendable peerID) (hsession : outgoing.sessionID = signal.sessionID)
    (hfrom : outgoing.fromID = peerID) (hto : outgoing.toID = signal.toID)
    (hencrypted : outgoing.encrypted.length ≤ maxEncryptedSignalBytes) : outgoing.WellFormed where
  encrypted := hencrypted
  sessionID := by
    rw [hsession]
    exact h.sessionID
  fromID := by
    rw [hfrom]
    exact h.peerID
  toID := by
    rw [hto]
    exact h.toID

theorem openIncoming_of_fits (hF : F.Lawful) (hA : A.Lawful)
    {peerID other plaintext : Bytes} {token : Token L} {clock now : Time}
    (hsend : signal.Sendable peerID) (hplaintext : marshalPayload signal = .ok plaintext)
    (hother : other ≠ peerID) (hto : signal.toID = [] ∨ signal.toID = other)
    (hrecent : absDuration (now.sub (ofUnixMilli clock.unixMilli)) ≤ signalTTL)
    (hfits : signal.Fits (some token)) (topic : Bytes) (nonce : GcmNonce) :
    ∃ opened, openIncoming A ((signal.stamp topic peerID clock).withSealed (sealedEnvelope nonce.val
        (A.sealText token.signalingKey nonce.val plaintext
          (signalAdditionalData (signal.stamp topic peerID clock))))) topic other (some token) now =
      some opened ∧ Delivered signal opened peerID := by
  obtain ⟨hvalid, hnonempty, hdepth, hshort⟩ := hfits
  have hplain := hshort plaintext hplaintext
  have hsize := length_encrypted_le_iff nonce.property
    (hA.length_seal token.signalingKey nonce.val plaintext
      (signalAdditionalData (signal.stamp topic peerID clock)))
  have hpayload := openSealed_withSealed hF hA hplaintext hplain (signal.stamp topic peerID clock)
    token nonce
  rw [if_pos hdepth, Utf8.coerce_of_valid hvalid, sealedCandidate_of_nonempty hnonempty] at hpayload
  have hsame : SameJson (signal.candidate.map Object.reread) signal.candidate := by
    rw [← sealedCandidate_of_nonempty hnonempty]
    exact sameJson_sealedCandidate_iff.mpr hnonempty
  refine ⟨_, openIncoming_some_iff.mpr ⟨hsend.wellFormed rfl rfl rfl (hsize.mpr hplain), _,
    hpayload, rfl, ?_⟩, ⟨rfl, rfl, rfl, rfl, rfl, hsame⟩⟩
  exact hsend.acceptable rfl rfl hrecent hother hto ⟨rfl, rfl, rfl, rfl, rfl, hsame⟩
    (validateSignalPayloadSizes_reread hsend.sizes rfl rfl) Option.isNone_map

/-- A prepared signal is received by another peer with the same topic and token, to whom it is
addressed and in time, and with the same contents, exactly if it fits. -/
theorem published_received_iff (hF : F.Lawful) (hA : A.Lawful) {signal outgoing : Signal F}
    {topic peerID other : Bytes} {token : Option (Token L)} {clock now : Time}
    {random : Except String GcmNonce}
    (hsent : prepareOutgoing A signal topic peerID token clock random = .ok outgoing)
    (hother : other ≠ peerID) (hto : signal.toID = [] ∨ signal.toID = other)
    (hrecent : Recent outgoing now) :
    (∃ opened, openIncoming A outgoing topic other token now = some opened ∧
      Delivered signal opened peerID) ↔ signal.Fits token := by
  obtain ⟨hsend, hout⟩ := prepareOutgoing_ok_iff.mp hsent
  have hstamp := wrap64_range (clock.toUnix * 1000 + clock.nsec / 1000000)
  cases token with
  | none =>
    obtain rfl := hout
    have hcreated := (recent_iff hstamp).mpr hrecent
    rw [Signal.Fits]
    constructor
    · rintro ⟨opened, hopened, -⟩
      exact (openIncoming_plain_iff.mp hopened).1.encrypted
    · intro hfits
      have hdelivered : Delivered signal (signal.stamp topic peerID clock) peerID :=
        ⟨rfl, rfl, rfl, rfl, rfl, rfl⟩
      exact ⟨_, openIncoming_plain_iff.mpr ⟨hsend.wellFormed rfl rfl rfl hfits, rfl,
        hsend.acceptable rfl rfl hcreated hother hto hdelivered hsend.sizes rfl⟩, hdelivered⟩
  | some token =>
    obtain ⟨plaintext, nonce, hplaintext, -, rfl⟩ := hout
    have hcreated := (recent_iff hstamp).mpr hrecent
    have hsize := length_encrypted_le_iff nonce.property
      (hA.length_seal token.signalingKey nonce.val plaintext
        (signalAdditionalData (signal.stamp topic peerID clock)))
    rw [Signal.Fits]
    constructor
    · rintro ⟨opened, hopened, hdelivered⟩
      obtain ⟨hwell, payload, hpayload, rfl, -⟩ := openIncoming_some_iff.mp hopened
      have hshort := hsize.mp hwell.encrypted
      rw [openSealed_withSealed hF hA hplaintext hshort] at hpayload
      split at hpayload
      next hdepth =>
        cases hpayload
        refine ⟨?_, sameJson_sealedCandidate_iff.mp hdelivered.candidate, hdepth, ?_⟩
        · rw [← hdelivered.sdp]
          exact Utf8.valid_coerce signal.sdp
        · intro text htext
          rw [hplaintext] at htext
          cases htext
          exact hshort
      · cases hpayload
    · intro hfits
      exact openIncoming_of_fits hF hA hsend hplaintext hother hto hcreated hfits topic nonce

def plainFloats : Floats where
  Float := Fin 10
  format digit := .ok [Nat.digitChar digit.val]
  parse literal := (finRange 10).find? fun digit => literal = [Nat.digitChar digit.val]

theorem plainFloats_lawful : plainFloats.Lawful where
  number {x literal} h := by
    have hall : ∀ x : Fin 10, isNumber [Nat.digitChar x.val] = true := by decide
    cases h
    exact hall x
  parse_format {x literal} h := by
    have hall : ∀ x : Fin 10, (finRange 10).find?
        (fun digit => [Nat.digitChar x.val] = [Nat.digitChar digit.val]) = some x := by decide
    cases h
    exact hall x

def plainTag (key nonce text additional : Bytes) : Bytes :=
  (Hmac.hmac key (lengthDelimited [nonce, additional, text])).take tagSize

def plainAead : Aead where
  sealText key nonce text additional := text ++ plainTag key nonce text additional
  openText key nonce ciphertext additional :=
    let text := ciphertext.take (ciphertext.length - tagSize)
    if ciphertext = text ++ plainTag key nonce text additional then some text else none

theorem plainAead_lawful : plainAead.Lawful := by
  have hlength : ∀ key nonce text additional, (plainTag key nonce text additional).length =
      tagSize := by
    intro key nonce text additional
    rw [plainTag, length_take, Hmac.length_hmac, tagSize]
    rfl
  constructor
  · intro key nonce text additional
    have htake : (text ++ plainTag key nonce text additional).take
        ((text ++ plainTag key nonce text additional).length - tagSize) = text := by
      rw [length_append, hlength, Nat.add_sub_cancel, take_left]
    simp only [plainAead, htake, if_true]
  · intro key nonce text additional
    rw [plainAead, length_append, hlength]

def plainSignal (type sdp : Bytes) (candidate : Option (Object plainFloats.Float)) :
    Signal plainFloats where
  version := 0
  room := []
  type := type
  sessionID := ascii "0123456789abcdef"
  fromID := []
  toID := []
  createdAt := 0
  sdp := sdp
  candidate := candidate
  encrypted := []

def plainSender : Bytes := ascii "0123456789AbCdEfGhIj"
def plainReceiver : Bytes := ascii "JihGfEdCbA9876543210"
def plainNonce : GcmNonce := ⟨replicate 12 7, rfl⟩

theorem plainSignal_sendable {type sdp : Bytes} {candidate : Option (Object plainFloats.Float)}
    (hcontent : checkContent (plainSignal type sdp candidate) = .ok ())
    (hsizes : validateSignalPayloadSizes (plainSignal type sdp candidate) = .ok ()) :
    (plainSignal type sdp candidate).Sendable plainSender :=
  ⟨by decide, hcontent, hsizes, (by decide : 8 ≤ 16 ∧ 16 ≤ 128), Or.inl rfl⟩

theorem recent_stamp (signal : Signal plainFloats) (topic peerID envelope : Bytes) :
    Recent ((signal.stamp topic peerID (unix 1800000000)).withSealed envelope) (unix 1800000060) := by
  change ((unix 1800000060).nanos - (unix 1800000000).unixMilli * 1000000).natAbs ≤ signalTTL
  decide +kernel

theorem plainSignal_fits :
    (plainSignal (ascii "offer") (ascii "v=0") none).Fits (some (Token.forRelays [])) := by
  refine ⟨by decide, fun c hc => (nomatch hc), by decide, ?_⟩
  intro plaintext hplaintext
  cases hplaintext
  decide

theorem published_received_iff_example : ∃ (signal outgoing opened : Signal plainFloats)
    (token : Token Pairing.plainLibraries),
    prepareOutgoing plainAead signal (ascii "topic") plainSender (some token) (unix 1800000000)
      (.ok plainNonce) = .ok outgoing ∧
    openIncoming plainAead outgoing (ascii "topic") plainReceiver (some token)
      (unix 1800000060) = some opened ∧ Delivered signal opened plainSender := by
  have hsend : (plainSignal (ascii "offer") (ascii "v=0") none).Sendable plainSender :=
    plainSignal_sendable (by decide) (by decide)
  have hsent := prepareOutgoing_sealed plainAead hsend rfl (ascii "topic") (Token.forRelays [])
    (unix 1800000000) plainNonce
  obtain ⟨opened, hopened, hdelivered⟩ := (published_received_iff plainFloats_lawful
    plainAead_lawful hsent (show plainReceiver ≠ plainSender by decide) (Or.inl rfl)
    (recent_stamp _ _ _ _)).mpr plainSignal_fits
  exact ⟨_, _, opened, Token.forRelays [], hsent, hopened, hdelivered⟩

theorem openIncoming_long (hA : A.Lawful) {stamped : Signal F} {plaintext : Bytes} {token : Token L}
    (hlong : maxPayloadBytes < plaintext.length) (nonce : GcmNonce) (topic other : Bytes)
    (now : Time) :
    openIncoming A (stamped.withSealed (sealedEnvelope nonce.val (A.sealText token.signalingKey
      nonce.val plaintext (signalAdditionalData stamped)))) topic other (some token) now = none := by
  rw [Option.eq_none_iff_forall_ne_some]
  intro opened hopened
  have hwell := (openIncoming_some_iff.mp hopened).1
  have hshort := (length_encrypted_le_iff nonce.property (hA.length_seal _ _ _ _)).mp
    hwell.encrypted
  omega

def escapedSdp (n : Nat) : Bytes := replicate n (byteOf '<')

theorem units_escapedSdp (n : Nat) : Utf8.units (escapedSdp n) = replicate n (some '<') := by
  have hencode : Utf8.encode (replicate n '<') = escapedSdp n := by
    rw [Utf8.encode, flatMap_replicate, escapedSdp]
    exact flatten_replicate_singleton
  rw [← hencode, Utf8.units_encode, map_replicate]

theorem size_escapedSdp (n : Nat) : 6 * n ≤ size (quote (escapedSdp n)) := by
  have hescape : ∀ m : Nat, size ((replicate m (some '<')).flatMap escape) = 6 * m := by
    intro m
    induction m with
    | zero => rfl
    | succ m ih =>
      have hone : size (escape (some '<')) = 6 := by decide
      rw [replicate_succ, flatMap_cons, size_append, ih, hone]
      omega
  rw [quote, units_escapedSdp, size_cons, size_append, hescape]
  omega

theorem escapedSdp_sendable {n : Nat} (hpos : n ≠ 0) (hle : n ≤ maxSDPBytes) :
    (plainSignal (ascii "offer") (escapedSdp n) none).Sendable plainSender := by
  have hne : escapedSdp n ≠ [] := by
    rw [escapedSdp, ne_eq, replicate_eq_nil_iff]
    exact hpos
  refine plainSignal_sendable ?_ ?_
  · simp only [checkContent, plainSignal, true_or, if_true]
    exact ite_error_eq_ok.mpr ⟨hne, rfl⟩
  · refine ite_error_eq_ok.mpr ⟨?_, rfl⟩
    rw [plainSignal, escapedSdp, length_replicate]
    omega

theorem marshal_escapedSdp {n : Nat} (hpos : n ≠ 0) :
    marshalPayload (plainSignal (ascii "offer") (escapedSdp n) none) =
      .ok (Utf8.encode (render (.object [(ascii "sdp", .string (escapedSdp n))]))) := by
  have hne : escapedSdp n ≠ [] := by
    rw [escapedSdp, ne_eq, replicate_eq_nil_iff]
    exact hpos
  rw [marshalPayload, plainSignal, sdpMember, if_neg hne]
  rfl

theorem lt_length_escapedSdp {n : Nat} (h : maxPayloadBytes < 6 * n) : maxPayloadBytes <
    (Utf8.encode (render (.object [(ascii "sdp", .string (escapedSdp n))]))).length := by
  have hsize := size_escapedSdp n
  change maxPayloadBytes < size _
  rw [size_object, membersSize, map_cons, sum_cons, memberSize, render]
  omega

/-- A candidate that is an empty map, and a description with many characters that JSON escapes. -/
theorem signals_lost : ∃ (token : Token Pairing.plainLibraries) (held large : Signal plainFloats),
    prepareOutgoing plainAead (plainSignal (ascii "candidate") [] (some .empty)) (ascii "topic")
      plainSender (some token) (unix 1800000000) (.ok plainNonce) = .ok held ∧
    Recent held (unix 1800000060) ∧
    openIncoming plainAead held (ascii "topic") plainReceiver (some token) (unix 1800000060) =
      none ∧
    prepareOutgoing plainAead (plainSignal (ascii "offer") (escapedSdp 65536) none) (ascii "topic")
      plainSender (some token) (unix 1800000000) (.ok plainNonce) = .ok large ∧
    Recent large (unix 1800000060) ∧
    openIncoming plainAead large (ascii "topic") plainReceiver (some token) (unix 1800000060) =
      none := by
  have hheld : (plainSignal (ascii "candidate") [] (some .empty)).Sendable plainSender :=
    plainSignal_sendable (by decide) (by decide)
  have hempty : marshalPayload (plainSignal (ascii "candidate") [] (some .empty)) =
      .ok (Utf8.encode (render (.object []))) := rfl
  have hlarge := escapedSdp_sendable (show 65536 ≠ 0 by decide) (by decide)
  have hmarshal := marshal_escapedSdp (show 65536 ≠ 0 by decide)
  have hlong := lt_length_escapedSdp (show maxPayloadBytes < 6 * 65536 by decide)
  refine ⟨Token.forRelays [], _, _, prepareOutgoing_sealed plainAead hheld hempty .., ?_, ?_,
    prepareOutgoing_sealed plainAead hlarge hmarshal .., ?_, ?_⟩
  · exact recent_stamp _ _ _ _
  · rw [Option.eq_none_iff_forall_ne_some]
    intro opened hopened
    obtain ⟨-, payload, hpayload, rfl, haccept⟩ := openIncoming_some_iff.mp hopened
    rw [openSealed_withSealed plainFloats_lawful plainAead_lawful hempty (by decide)] at hpayload
    cases hpayload
    cases haccept.content
  · exact recent_stamp _ _ _ _
  · exact openIncoming_long plainAead_lawful hlong _ _ _ _

structure Signal.Valid (signal : Signal F) : Prop where
  room : Utf8.valid signal.room = true
  type : Utf8.valid signal.type = true
  sessionID : Utf8.valid signal.sessionID = true
  fromID : Utf8.valid signal.fromID = true
  toID : Utf8.valid signal.toID = true

def Signal.ValidPayload (signal : Signal F) : Prop :=
  Utf8.valid signal.sdp = true ∧ ∀ c ∈ signal.candidate, c.tree.All ValidTexts

structure SameMetadata (signal other : Signal F) : Prop where
  room : signal.room = other.room
  type : signal.type = other.type
  sessionID : signal.sessionID = other.sessionID
  fromID : signal.fromID = other.fromID
  toID : signal.toID = other.toID
  createdAt : signal.createdAt = other.createdAt

/-- The metadata of a valid signal can be read back from what is authenticated. -/
theorem signalAdditionalData_injective {signal other : Signal F} (hvalid : signal.Valid)
    (h : signalAdditionalData signal = signalAdditionalData other) : SameMetadata signal other := by
  have htext := congrArg Utf8.decode h
  rw [signalAdditionalData, signalAdditionalData, Utf8.decode_encode, Utf8.decode_encode,
    Option.some.injEq] at htext
  simp only [render, renderItems] at htext
  have htext := append_cancel_left (cons.inj htext).2
  obtain ⟨hroom, htext⟩ := quote_append_inj hvalid.room (cons.inj htext).2
  obtain ⟨htype, htext⟩ := quote_append_inj hvalid.type (cons.inj htext).2
  obtain ⟨hsession, htext⟩ := quote_append_inj hvalid.sessionID (cons.inj htext).2
  obtain ⟨hfrom, htext⟩ := quote_append_inj hvalid.fromID (cons.inj htext).2
  obtain ⟨hto, htext⟩ := quote_append_inj hvalid.toID (cons.inj htext).2
  have hcreated := integer_injective (append_cancel_right (cons.inj htext).2)
  exact ⟨hroom, htype, hsession, hfrom, hto, hcreated⟩

def presentCandidate (candidate : Option (Object F.Float)) : Option (Object F.Float) :=
  candidate.filter fun c => !c.members.isEmpty

theorem sealedCandidate_of_valid {candidate : Option (Object F.Float)}
    (h : ∀ c ∈ candidate, c.tree.All ValidTexts) :
    sealedCandidate candidate = presentCandidate candidate := by
  cases candidate with
  | none => rfl
  | some c =>
    rw [sealedCandidate, presentCandidate, Option.filter_some, Object.reread_of_valid (h c rfl)]
    cases c.members.isEmpty <;> rfl

structure Published (F : Floats) (L : Libraries) (A : Aead) where
  token : Token L
  signal : Signal F
  topic : Bytes
  peerID : Bytes
  clock : Time
  nonce : GcmNonce
  outgoing : Signal F
  prepared : prepareOutgoing A signal topic peerID (some token) clock (.ok nonce) = .ok outgoing

structure Received (F : Floats) (L : Libraries) (A : Aead) where
  token : Token L
  signal : Signal F
  topic : Bytes
  peerID : Bytes
  now : Time
  opened : Signal F
  accepted : openIncoming A signal topic peerID (some token) now = some opened

inductive Entry (F : Floats) (L : Libraries) (A : Aead) where
  | published (p : Published F L A)
  | received (r : Received F L A)

inductive Event (F : Floats) (L : Libraries) where
  | publish (token : Token L) (signal : Signal F) (topic peerID : Bytes) (clock : Time)
      (random : Except String GcmNonce)
  | receive (token : Token L) (signal : Signal F) (topic peerID : Bytes) (now : Time)

abbrev Log (F : Floats) (L : Libraries) (A : Aead) := List (Entry F L A)

namespace Log
variable {s : Log F L A}

def publish (s : Log F L A) (token : Token L) (signal : Signal F) (topic peerID : Bytes)
    (clock : Time) (nonce : GcmNonce) : Log F L A :=
  match h : prepareOutgoing A signal topic peerID (some token) clock (.ok nonce) with
  | .error _ => s
  | .ok outgoing => .published ⟨token, signal, topic, peerID, clock, nonce, outgoing, h⟩ :: s

def receive (s : Log F L A) (token : Token L) (signal : Signal F) (topic peerID : Bytes)
    (now : Time) : Log F L A :=
  match h : openIncoming A signal topic peerID (some token) now with
  | none => s
  | some opened => .received ⟨token, signal, topic, peerID, now, opened, h⟩ :: s

def step (s : Log F L A) : Event F L → Option (Log F L A)
  | .publish token signal topic peerID clock random =>
    match random with
    | .error _ => some s
    | .ok nonce => some (s.publish token signal topic peerID clock nonce)
  | .receive token signal topic peerID now => some (s.receive token signal topic peerID now)

/-- A text that opens was sealed by some call under the same key, and different secrets give
different keys. -/
def Ideal (s : Log F L A) : Event F L → Prop
  | .publish .. => True
  | .receive token signal _ _ _ =>
    (∀ nonce ciphertext plaintext,
      decodeEncrypted signal.encrypted = some (sealedEnvelope nonce ciphertext) →
      nonce.length = gcmNonceSize →
      A.openText token.signalingKey nonce ciphertext (signalAdditionalData signal) =
        some plaintext →
      ∃ p : Published F L A, .published p ∈ s ∧ p.token.signalingKey = token.signalingKey ∧
        ∃ sealed, marshalPayload p.signal = .ok sealed ∧
          signalAdditionalData signal = signalAdditionalData p.outgoing ∧
          nonce = p.nonce.val ∧ ciphertext = A.sealText token.signalingKey p.nonce.val sealed
            (signalAdditionalData p.outgoing)) ∧
    ∀ p : Published F L A, .published p ∈ s → p.token.signalingKey = token.signalingKey →
      p.token.secret = token.secret

structure Origin (p : Published F L A) (r : Received F L A) : Prop where
  holder : p.token.secret = r.token.secret
  authenticated : signalAdditionalData r.signal = signalAdditionalData p.outgoing
  opened : r.opened = { r.signal with
    sdp := Utf8.coerce p.signal.sdp, candidate := sealedCandidate p.signal.candidate }

def Authentic (s : Log F L A) : Prop :=
  ∀ later r earlier, s = later ++ .received r :: earlier →
    ∃ p, .published p ∈ earlier ∧ Origin p r

theorem Authentic.cons_published (h : s.Authentic) (p : Published F L A) :
    Authentic (.published p :: s) := by
  intro later r earlier heq
  cases later with
  | nil => cases heq
  | cons entry later => exact h later r earlier (cons.inj heq).2

theorem Authentic.cons_received (h : s.Authentic) {r : Received F L A}
    (hr : ∃ p, .published p ∈ s ∧ Origin p r) : Authentic (.received r :: s) := by
  intro later other earlier heq
  cases later with
  | nil =>
    cases heq
    exact hr
  | cons entry later => exact h later other earlier (cons.inj heq).2

section Assumptions
variable (hF : F.Lawful) (hA : A.Lawful)
include hF hA

theorem origin_of_ideal {s : Log F L A} (r : Received F L A)
    (hideal : s.Ideal (.receive r.token r.signal r.topic r.peerID r.now)) :
    ∃ p, .published p ∈ s ∧ Origin p r := by
  obtain ⟨-, payload, hpayload, hopened, -⟩ := openIncoming_some_iff.mp r.accepted
  obtain ⟨nonce, ciphertext, plaintext, hdecoded, hnonce, hopen, hread⟩ := openSealed_some hpayload
  obtain ⟨p, hmem, hkey, sealed, hsealed, hdata, rfl, rfl⟩ :=
    hideal.1 nonce ciphertext plaintext hdecoded hnonce hopen
  refine ⟨p, hmem, hideal.2 p hmem hkey, hdata, ?_⟩
  rw [hdata, hA.open_seal] at hopen
  cases hopen
  rw [unmarshal_marshalPayload hF hsealed] at hread
  split at hread
  · cases hread
    exact hopened
  · cases hread

theorem Authentic.step {s t : Log F L A} {e : Event F L} (hs : s.Authentic) (hideal : s.Ideal e)
    (h : s.step e = some t) : t.Authentic := by
  cases e with
  | publish token signal topic peerID clock random =>
    cases random with
    | error err =>
      cases h
      exact hs
    | ok nonce =>
      cases h
      rw [publish]
      split
      · exact hs
      · exact hs.cons_published _
  | receive token signal topic peerID now =>
    cases h
    rw [receive]
    split
    · exact hs
    · exact hs.cons_received (origin_of_ideal hF hA _ hideal)

/-- In every run, a signal that `openIncoming` takes with a token was sealed by an earlier
`prepareOutgoing` call of a holder of the secret, with the same metadata, and its description and
candidate are the sealed ones. Nothing is taken without a sealed payload, and what stands beside it
in clear text has no influence. -/
theorem signaling_authentic {es : List (Event F L)} {s : Log F L A}
    (hrun : Run step Ideal [] es s) :
    (∀ later r earlier, s = later ++ .received r :: earlier → r.signal.Valid →
      ∃ p : Published F L A, .published p ∈ earlier ∧ p.token.secret = r.token.secret ∧
        SameMetadata r.signal p.outgoing ∧
        r.opened = { r.signal with
          sdp := Utf8.coerce p.signal.sdp, candidate := sealedCandidate p.signal.candidate } ∧
        (p.signal.ValidPayload → r.opened.sdp = p.signal.sdp ∧
          r.opened.candidate = presentCandidate p.signal.candidate)) ∧
    ∀ (signal : Signal F) (topic peerID : Bytes) (token : Token L) (now : Time),
      (signal.encrypted = [] → openIncoming A signal topic peerID (some token) now = none) ∧
      ∀ sdp candidate, openIncoming A { signal with sdp := sdp, candidate := candidate } topic peerID
        (some token) now = openIncoming A signal topic peerID (some token) now := by
  have hs : s.Authentic :=
    hrun.invariant (fun hi hideal hst => hi.step hF hA hideal hst) fun later r earlier heq => by
      cases later <;> cases heq
  constructor
  · intro later r earlier heq hvalid
    obtain ⟨p, hmem, horigin⟩ := hs later r earlier heq
    refine ⟨p, hmem, horigin.holder, signalAdditionalData_injective hvalid horigin.authenticated,
      horigin.opened, ?_⟩
    rintro ⟨hsdp, hcandidate⟩
    rw [horigin.opened]
    exact ⟨Utf8.coerce_of_valid hsdp, sealedCandidate_of_valid hcandidate⟩
  · intro signal topic peerID token now
    constructor
    · intro hempty
      rw [openIncoming, openSealed, if_pos hempty]
      split <;> rfl
    · intro sdp candidate
      rfl

end Assumptions

theorem publish_eq (p : Published F L A) :
    s.publish p.token p.signal p.topic p.peerID p.clock p.nonce = .published p :: s := by
  rw [publish]
  split
  next hfailed =>
    rw [p.prepared] at hfailed
    cases hfailed
  next outgoing hprepared =>
    have hsame := p.prepared
    rw [hprepared] at hsame
    cases hsame
    rfl

theorem receive_eq (r : Received F L A) :
    s.receive r.token r.signal r.topic r.peerID r.now = .received r :: s := by
  rw [receive]
  split
  next hrefused =>
    rw [r.accepted] at hrefused
    cases hrefused
  next opened haccepted =>
    have hsame := r.accepted
    rw [haccepted] at hsame
    cases hsame
    rfl

theorem run_of_delivered {p : Published F L A} {r : Received F L A} (htoken : r.token = p.token)
    (hsignal : r.signal = p.outgoing) :
    Run step Ideal ([] : Log F L A)
      [.publish p.token p.signal p.topic p.peerID p.clock (.ok p.nonce),
        .receive r.token r.signal r.topic r.peerID r.now] [.received r, .published p] := by
  obtain ⟨-, plaintext, nonce, hplaintext, hnonce, hout⟩ := prepareOutgoing_ok_iff.mp p.prepared
  cases hnonce
  refine .cons trivial (congrArg some (publish_eq p))
    (.cons ⟨?_, ?_⟩ (congrArg some (receive_eq r)) (.nil _))
  · intro drawn ciphertext opened hdecoded hlength _
    rw [hsignal, hout, Signal.withSealed, decodeEncrypted_encode] at hdecoded
    obtain ⟨rfl, rfl⟩ := sealedEnvelope_injective p.nonce.property hlength
      (Option.some.inj hdecoded)
    refine ⟨p, mem_cons_self, by rw [htoken], plaintext, hplaintext, by rw [hsignal], rfl, ?_⟩
    rw [htoken, hout]
    rfl
  · intro other hother _
    cases mem_singleton.mp hother
    rw [htoken]

theorem signaling_authentic_example : ∃ (p : Published plainFloats plainLibraries plainAead)
    (r : Received plainFloats plainLibraries plainAead) (es : List (Event plainFloats plainLibraries)),
    Run step Ideal [] es [.received r, .published p] ∧ r.signal.Valid ∧
      p.token.secret = r.token.secret ∧ SameMetadata r.signal p.outgoing ∧
      r.opened.sdp = p.signal.sdp := by
  have hsend : (plainSignal (ascii "offer") (ascii "v=0") none).Sendable plainSender :=
    plainSignal_sendable (by decide) (by decide)
  have hprepared := prepareOutgoing_sealed plainAead hsend rfl (ascii "topic") (Token.forRelays [])
    (unix 1800000000) plainNonce
  obtain ⟨opened, haccepted, -⟩ := openIncoming_of_fits plainFloats_lawful plainAead_lawful hsend rfl
    (show plainReceiver ≠ plainSender by decide) (.inl rfl)
    (show absDuration ((unix 1800000060).sub (ofUnixMilli (unix 1800000000).unixMilli)) ≤ signalTTL
      by decide +kernel) plainSignal_fits (ascii "topic") plainNonce
  let p : Published plainFloats plainLibraries plainAead := ⟨_, _, _, _, _, _, _, hprepared⟩
  let r : Received plainFloats plainLibraries plainAead := ⟨_, _, _, _, _, opened, haccepted⟩
  have hvalid : r.signal.Valid :=
    ⟨show Utf8.valid (ascii "topic") = true by decide,
      show Utf8.valid (ascii "offer") = true by decide,
      show Utf8.valid (ascii "0123456789abcdef") = true by decide,
      show Utf8.valid plainSender = true by decide, rfl⟩
  have hrun := run_of_delivered (p := p) (r := r) rfl rfl
  obtain ⟨q, hmem, hholder, hsame, -, hpayload⟩ :=
    (signaling_authentic plainFloats_lawful plainAead_lawful hrun).1 [] r [.published p] rfl hvalid
  obtain rfl : q = p := by
    cases mem_singleton.mp hmem
    rfl
  exact ⟨p, r, _, hrun, hvalid, hholder, hsame,
    (hpayload ⟨show Utf8.valid (ascii "v=0") = true by decide, fun c hc => (nomatch hc)⟩).1⟩

end Log

end P2PNetcat.NativeWebRTC.Signaling
