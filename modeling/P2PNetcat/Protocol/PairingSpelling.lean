import P2PNetcat.Protocol.PairingScript

/-!
# Spellings of a token

The texts in which the Go and the JavaScript decoder find a payload, and the
tokens that `Decode` takes. Where the text is the one that `Encode` writes, texts
can be compared in place of tokens.
-/

namespace P2PNetcat.Pairing
open List ByteCodec Fallible GoText Script Trim
variable {x : List Char} {payload : Bytes} {c : Char}

variable {L : Libraries}

/-- The text is, up to white space around it and line ends in it, the base64url of the payload. -/
def GoSpelling (x : List Char) (payload : Bytes) : Prop :=
  ∃ before body after, x = before ++ (tokenPrefix ++ body) ++ after ∧
    (∀ c ∈ before ++ after, isSpace c = true) ∧
    body.filter (fun c => !isNewline c) = Base64Url.encode payload

/-- The text is, up to white space around it and after the prefix, a base64url text of the payload,
whatever the bits after its last byte are. -/
def ScriptSpelling (x : List Char) (payload : Bytes) : Prop :=
  ∃ before gap body after, x = before ++ (tokenPrefix ++ (gap ++ body)) ++ after ∧
    (∀ c ∈ before ++ gap ++ after, isWhite c = true) ∧ Base64Url.decode false body = some payload

theorem isWhite_of_graphic (h : 32 < c.toNat ∧ c.toNat < 127) : isWhite c = false := by
  simp only [isWhite, Bool.or_eq_false_iff, Bool.and_eq_false_iff, decide_eq_false_iff_not,
    beq_eq_false_iff_ne]
  omega

theorem isSpace_of_isNewline (h : isNewline c = true) : isSpace c = true := by
  simp only [isNewline, decide_eq_true_eq] at h
  rcases h with rfl | rfl <;> rfl

theorem trimBy_tokenPrefix {p : Char → Bool} (hfirst : p 'p' = false) (hlast : p '_' = false)
    {before after : List Char} (h : ∀ c ∈ before ++ after, p c = true) (body : List Char) :
    trimBy p (before ++ (tokenPrefix ++ body) ++ after) = tokenPrefix ++ body.rdropWhile p := by
  have happend : tokenPrefix ++ body = 'p' :: ("nc1".toList ++ '_' :: body) := rfl
  rw [happend, trimBy_margins hfirst h, rdropWhile_append_cons hlast]
  rfl

theorem goSpelling_iff :
    GoSpelling x payload ↔ ∃ body, trimSpace x = tokenPrefix ++ body ∧
      body.filter (fun c => !isNewline c) = Base64Url.encode payload := by
  constructor
  · rintro ⟨before, body, after, rfl, hmargins, hbody⟩
    refine ⟨body.rdropWhile isSpace, trimBy_tokenPrefix rfl rfl hmargins body, ?_⟩
    -- What trimming takes from the end of the body are line ends, which do not count anyway.
    have hparts := rdropWhile_append_rtakeWhile (p := isSpace) (l := body)
    have hnil : (body.rtakeWhile isSpace).filter (fun c => !isNewline c) = [] := by
      rw [filter_eq_nil_iff]
      intro c hc hnew
      have hmem : c ∈ Base64Url.encode payload := by
        rw [← hbody, ← hparts, filter_append]
        exact mem_append_right _ (mem_filter.mpr ⟨hc, hnew⟩)
      have hspace := isSpace_of_graphic (graphic_encode hmem)
      rw [mem_rtakeWhile_imp hc] at hspace
      cases hspace
    rw [← hbody]
    conv_rhs => rw [← hparts, filter_append, hnil, append_nil]
  · rintro ⟨body, htrim, hbody⟩
    obtain ⟨before, after, hx, hmargins⟩ := exists_margins (p := isSpace) x
    have hmiddle : trimBy isSpace x = tokenPrefix ++ body := htrim
    rw [hmiddle] at hx
    exact ⟨before, body, after, hx, hmargins, hbody⟩

theorem decodePayload_ok_iff :
    decodePayload L x = .ok payload ↔
      GoSpelling x payload ∧ ¬ (payload.length = 0 ∨ payload.length > maxTokenSize) := by
  rw [goSpelling_iff]
  constructor
  · intro h
    simp only [decodePayload] at h
    split at h
    · cases h
    rename_i data hdata
    split at h
    · cases h
    rename_i value hvalue
    obtain ⟨hsize, heq⟩ := ite_error_eq_ok.mp h
    cases heq
    have htrim := isPrefixOf?_eq_some_iff_append_eq.mp hdata
    exact ⟨⟨data, htrim.symm, (Base64Url.encode_of_decode hvalue).symm⟩, hsize⟩
  · rintro ⟨⟨body, htrim, hbody⟩, hsize⟩
    have hsplit : tokenPrefix.isPrefixOf? (tokenPrefix ++ body) = some body :=
      isPrefixOf?_eq_some_iff_append_eq.mpr rfl
    simp only [decodePayload, htrim, hsplit, hbody, Base64Url.decode_encode, if_neg hsize]

theorem graphic_of_decode {strict : Bool} {body : List Char}
    (h : Base64Url.decode strict body = some payload) :
    ∀ c ∈ body, 32 < c.toNat ∧ c.toNat < 127 := fun c hc =>
  Base64Url.graphic_of_value (Base64Url.value_of_decode h c hc)

theorem scriptPayload_ok_iff :
    scriptPayload x = .ok payload ↔
      ScriptSpelling x payload ∧ ¬ (payload.length = 0 ∨ payload.length > maxTokenSize) := by
  constructor
  · intro h
    simp only [scriptPayload] at h
    split at h
    · cases h
    rename_i data hdata
    obtain ⟨value, hvalue, h⟩ := bind_eq_ok.mp h
    obtain ⟨hsize, heq⟩ := ite_error_eq_ok.mp h
    cases heq
    rw [base64UrlDecode] at hvalue
    split at hvalue
    next bytes hdecode =>
      cases hvalue
      obtain ⟨before, after, hx, hmargins⟩ := exists_margins (p := isWhite) x
      obtain ⟨gap, tail, hd, hgap⟩ := exists_margins (p := isWhite) data
      have htrim : trimBy isWhite x = tokenPrefix ++ data :=
        (isPrefixOf?_eq_some_iff_append_eq.mp hdata).symm
      refine ⟨⟨before, gap, trim data, tail ++ after, ?_, ?_, hdecode⟩, hsize⟩
      · calc x = before ++ (tokenPrefix ++ data) ++ after := htrim ▸ hx
          _ = before ++ (tokenPrefix ++ (gap ++ trim data ++ tail)) ++ after := by rw [trim, ← hd]
          _ = _ := by simp only [append_assoc]
      · intro c hc
        simp only [mem_append] at hc hmargins hgap
        rcases hc with (hc | hc) | hc | hc
        · exact hmargins c (.inl hc)
        · exact hgap c (.inl hc)
        · exact hgap c (.inr hc)
        · exact hmargins c (.inr hc)
    · cases hvalue
  · rintro ⟨⟨before, gap, body, after, rfl, hmargins, hbody⟩, hsize⟩
    have hwhite : ∀ c ∈ body, isWhite c = false := fun c hc =>
      isWhite_of_graphic (graphic_of_decode hbody c hc)
    have htrim : trim (before ++ (tokenPrefix ++ (gap ++ body)) ++ after) =
        tokenPrefix ++ (gap ++ body).rdropWhile isWhite := by
      refine trimBy_tokenPrefix rfl rfl ?_ _
      intro c hc
      apply hmargins
      simp only [mem_append] at hc ⊢
      tauto
    have hsplit : tokenPrefix.isPrefixOf? (tokenPrefix ++ (gap ++ body).rdropWhile isWhite) =
        some ((gap ++ body).rdropWhile isWhite) := isPrefixOf?_eq_some_iff_append_eq.mpr rfl
    have hgap : trim ((gap ++ body).rdropWhile isWhite) = body := by
      refine trimBy_rdropWhile ?_ hwhite
      intro c hc
      apply hmargins
      simp only [mem_append]
      tauto
    simp only [scriptPayload, htrim, hsplit, base64UrlDecode, hgap, hbody, bind, Except.bind,
      if_neg hsize]

def isGraphic (c : Char) : Bool := 32 < c.toNat && c.toNat < 127

theorem isGraphic_iff : isGraphic c = true ↔ 32 < c.toNat ∧ c.toNat < 127 := by
  rw [isGraphic, Bool.and_eq_true, decide_eq_true_eq, decide_eq_true_eq]

theorem filter_tokenPrefix (body : List Char) :
    (tokenPrefix ++ body).filter isGraphic = tokenPrefix ++ body.filter isGraphic := rfl

theorem filter_of_graphic {body : List Char} (h : ∀ c ∈ body, 32 < c.toNat ∧ c.toNat < 127) :
    body.filter isGraphic = body :=
  filter_eq_self.mpr fun c hc => isGraphic_iff.mpr (h c hc)

theorem GoSpelling.filter_eq (h : GoSpelling x payload) :
    x.filter isGraphic = tokenPrefix ++ Base64Url.encode payload := by
  obtain ⟨before, body, after, rfl, hmargins, hbody⟩ := h
  have hspace : ∀ c, isGraphic c = true → isSpace c = false := fun c hc =>
    isSpace_of_graphic (isGraphic_iff.mp hc)
  have hnewlines : body.filter isGraphic =
      (body.filter fun c => !isNewline c).filter isGraphic := by
    rw [filter_filter]
    refine filter_congr ?_
    intro c _
    cases hc : isGraphic c with
    | false => rfl
    | true =>
      cases hnew : isNewline c with
      | false => rfl
      | true =>
        have hfalse := hspace c hc
        rw [isSpace_of_isNewline hnew] at hfalse
        cases hfalse
  rw [filter_margins hspace hmargins, filter_tokenPrefix, hnewlines, hbody,
    filter_of_graphic fun c hc => graphic_encode hc]

theorem ScriptSpelling.filter_eq (h : ScriptSpelling x payload) :
    ∃ body, x.filter isGraphic = tokenPrefix ++ body ∧
      Base64Url.decode false body = some payload := by
  obtain ⟨before, gap, body, after, rfl, hmargins, hbody⟩ := h
  have hwhite : ∀ c, isGraphic c = true → isWhite c = false := fun c hc =>
    isWhite_of_graphic (isGraphic_iff.mp hc)
  simp only [mem_append] at hmargins
  have hgap : gap.filter isGraphic = [] :=
    filter_eq_nil_of_margin hwhite fun c hc => hmargins c (.inl (.inr hc))
  have houter : ∀ c ∈ before ++ after, isWhite c = true := by
    intro c hc
    rcases mem_append.mp hc with hc | hc
    · exact hmargins c (.inl (.inl hc))
    · exact hmargins c (.inr hc)
  refine ⟨body, ?_, hbody⟩
  rw [filter_margins hwhite houter, filter_tokenPrefix, filter_append, hgap, nil_append,
    filter_of_graphic (graphic_of_decode hbody)]

theorem GoSpelling.eq_payload {other : Bytes} (h : GoSpelling x payload)
    (h' : ScriptSpelling x other) : other = payload := by
  obtain ⟨body, hfilter, hbody⟩ := h'.filter_eq
  rw [h.filter_eq] at hfilter
  rw [← append_cancel_left hfilter, Base64Url.decode_encode] at hbody
  exact (Option.some.inj hbody).symm

theorem goSpelling_encode (payload : Bytes) :
    GoSpelling (tokenPrefix ++ Base64Url.encode payload) payload :=
  ⟨[], Base64Url.encode payload, [], (append_nil _).symm, fun _ h => absurd h not_mem_nil,
    filter_isNewline_encode payload⟩

theorem scriptSpelling_encode (payload : Bytes) :
    ScriptSpelling (tokenPrefix ++ Base64Url.encode payload) payload :=
  ⟨[], [], Base64Url.encode payload, [], (append_nil _).symm,
    fun _ h => absurd h not_mem_nil, Base64Url.decode_encode false payload⟩

namespace Token

/-- What the protocol documents: the checks of `Validate`, a payload that fits, and the relay hints
in order. -/
structure Documented (t : Token L) : Prop where
  sound : t.Sound
  fits : t.Fits
  ordered : t.relayHints.Pairwise fun a b => L.addrString a ≤ L.addrString b

theorem Documented.sorted_eq {t : Token L} (h : t.Documented) : t.sorted = t := by
  have hsort := List.Pairwise.insertionSort_eq h.ordered
  rw [sorted, hsort]

theorem sorted_ordered (t : Token L) :
    t.sorted.relayHints.Pairwise fun a b => L.addrString a ≤ L.addrString b := by
  have hsorted : t.hintTexts.Pairwise (· ≤ ·) := pairwise_insertionSort ..
  rw [← t.map_sorted] at hsorted
  exact pairwise_map.mp hsorted

theorem Fits.length_payload {t : Token L} (h : t.Fits) :
    ¬ (t.payload.length = 0 ∨ t.payload.length > maxTokenSize) := by
  have hpos : 0 < t.payloadSize := by
    rw [payloadSize]
    omega
  have hle := h.1
  rw [t.length_payload]
  omega

end Token

theorem decode_ok_iff (hL : L.Lawful) {t : Token L} :
    decode L x = .ok t ↔ GoSpelling x t.payload ∧ t.Documented := by
  constructor
  · intro h
    obtain ⟨payload, hpayload, hrest⟩ := bind_eq_ok.mp h
    obtain ⟨hspelling, hsize⟩ := decodePayload_ok_iff.mp hpayload
    obtain ⟨raw, hraw, hrest⟩ := bind_eq_ok.mp hrest
    simp only [bind_eq_ok, ite_error_eq_ok] at hrest
    obtain ⟨token, htoken, _, hvalid, reencoded, hencode, hsame, heq⟩ := hrest
    obtain rfl := Except.ok.inj heq
    have hsound := (Token.validate_ok_iff.mp hvalid).1
    rw [hsound.encode] at hencode
    obtain rfl := Except.ok.inj hencode
    -- Equal texts are equal payloads, so the token can be read back from its own text.
    have htext := append_cancel_left (not_not.mp hsame)
    have hbytes := congrArg (Base64Url.decode true) htext
    rw [Base64Url.decode_encode, Base64Url.decode_encode] at hbytes
    obtain rfl := Option.some.inj hbytes
    have hcanonical : decode L (tokenPrefix ++ Base64Url.encode token.payload) = .ok token := by
      rw [← h, decode, decode, hpayload, decodePayload_encode, if_neg hsize]
    have hfits := hsound.fits_of_decode hL hcanonical
    rw [hsound.decode_encode hL hfits] at hcanonical
    refine ⟨hspelling, hsound, hfits, ?_⟩
    rw [← Except.ok.inj hcanonical]
    exact token.sorted_ordered
  · rintro ⟨hspelling, hdocumented⟩
    have hsize := hdocumented.fits.length_payload
    have hpayload : decodePayload L x = .ok t.payload := decodePayload_ok_iff.mpr ⟨hspelling, hsize⟩
    have hcanonical := hdocumented.sound.decode_encode hL hdocumented.fits
    rw [hdocumented.sorted_eq] at hcanonical
    rw [← hcanonical, decode, decode, hpayload, decodePayload_encode, if_neg hsize]

def Unbroken (text : List Char) : Prop := ∀ c ∈ text, isNewline c = false

theorem trimSpace_trimSpace (x : List Char) : trimSpace (trimSpace x) = trimSpace x :=
  trimBy_trimBy x

theorem decode_trimSpace (L : Libraries) (x : List Char) : decode L (trimSpace x) = decode L x := by
  have hpayload : decodePayload L (trimSpace x) = decodePayload L x := by
    simp only [decodePayload, trimSpace_trimSpace]
  rw [decode, decode, hpayload]

theorem unbroken_tokenText (payload : Bytes) :
    Unbroken (tokenPrefix ++ Base64Url.encode payload) := by
  intro c hc
  rcases mem_append.mp hc with hc | hc
  · have hall : tokenPrefix.all (fun c => !isNewline c) = true := rfl
    simpa using all_eq_true.mp hall c hc
  · rw [← filter_isNewline_encode] at hc
    simpa using (mem_filter.mp hc).2

variable {payload : Bytes}

theorem GoSpelling.trimSpace_eq_iff {x : List Char} (h : GoSpelling x payload) :
    trimSpace x = tokenPrefix ++ Base64Url.encode payload ↔ Unbroken (trimSpace x) := by
  constructor
  · intro heq
    rw [heq]
    exact unbroken_tokenText payload
  · intro hunbroken
    obtain ⟨body, htrim, hbody⟩ := goSpelling_iff.mp h
    have hself : body.filter (fun c => !isNewline c) = body := by
      rw [filter_eq_self]
      intro c hc
      rw [hunbroken c (by rw [htrim]; exact mem_append_right _ hc)]
      rfl
    rw [htrim, ← hbody, hself]

structure TokenText (L : Libraries) where
  text : List Char
  token : Token L
  decoded : decode L text = .ok token

namespace TokenText

theorem ascii_tokenText {c : Char}
    (h : c ∈ tokenPrefix ++ Base64Url.encode payload) : c.toNat < 0x80 := by
  rcases mem_append.mp h with hc | hc
  · have hall : tokenPrefix.all (fun c => c.toNat < 0x80) = true := rfl
    exact of_decide_eq_true (all_eq_true.mp hall c hc)
  · exact Nat.lt_of_lt_of_le (graphic_encode hc).2 (by decide)

theorem length_of_unbroken (hL : L.Lawful) (s : TokenText L) (h : Unbroken (trimSpace s.text)) :
    (Utf8.encode (trimSpace s.text)).length ≤ 5 + (4 * maxTokenSize + 2) / 3 := by
  obtain ⟨hspelling, hdocumented⟩ := (decode_ok_iff hL).mp s.decoded
  have hsize := hdocumented.fits.length_payload
  rw [hspelling.trimSpace_eq_iff.mpr h, Utf8.length_encode_ascii fun c hc => ascii_tokenText hc,
    length_append, Base64Url.length_encode]
  have hstart : tokenPrefix.length = 5 := rfl
  omega

theorem trimSpace_ne_nil (hL : L.Lawful) (s : TokenText L) : trimSpace s.text ≠ [] := by
  obtain ⟨body, htrim, -⟩ := goSpelling_iff.mp ((decode_ok_iff hL).mp s.decoded).1
  rw [htrim]
  exact cons_ne_nil _ _

theorem encode_eq_iff (hL : L.Lawful) (s : TokenText L) :
    s.token.encode = .ok (trimSpace s.text) ↔ Unbroken (trimSpace s.text) := by
  obtain ⟨hspelling, hdocumented⟩ := (decode_ok_iff hL).mp s.decoded
  rw [hdocumented.sound.encode, ← hspelling.trimSpace_eq_iff]
  constructor
  · intro h
    exact (Except.ok.inj h).symm
  · intro h
    rw [h]

theorem token_eq_of_text {s s' : TokenText L} (h : trimSpace s.text = trimSpace s'.text) :
    s.token = s'.token := by
  have hdecoded := s.decoded
  rw [← decode_trimSpace, h, decode_trimSpace, s'.decoded] at hdecoded
  exact (Except.ok.inj hdecoded).symm

theorem text_eq_iff (hL : L.Lawful) {s s' : TokenText L} (h : Unbroken (trimSpace s.text))
    (h' : Unbroken (trimSpace s'.text)) :
    trimSpace s.text = trimSpace s'.text ↔ s.token = s'.token := by
  refine ⟨token_eq_of_text, ?_⟩
  intro htoken
  have hencode := (s.encode_eq_iff hL).mpr h
  rw [htoken, (s'.encode_eq_iff hL).mpr h'] at hencode
  exact (Except.ok.inj hencode).symm

theorem documented_forRelays : (Token.forRelays []).Documented where
  sound := by
    have hvalid : (Token.forRelays []).validate zeroTime = .ok () := by decide
    exact (Token.validate_ok_iff.mp hvalid).1
  fits := ⟨by decide, fun _ h => absurd h not_mem_nil⟩
  ordered := List.Pairwise.nil

theorem trimSpace_wrapped {before after : List Char} (gap : List Char)
    (h : ∀ c ∈ before ++ after, isSpace c = true) (hpayload : payload ≠ []) :
    trimSpace (before ++ (tokenPrefix ++ (gap ++ Base64Url.encode payload)) ++ after) =
      tokenPrefix ++ (gap ++ Base64Url.encode payload) := by
  have hgraphic : ∀ c ∈ Base64Url.encode payload, isSpace c = false := fun c hc =>
    isSpace_of_graphic (graphic_encode hc)
  have htrim : trimSpace (before ++ (tokenPrefix ++ (gap ++ Base64Url.encode payload)) ++ after) =
      tokenPrefix ++ (gap ++ Base64Url.encode payload).rdropWhile isSpace :=
    trimBy_tokenPrefix rfl rfl h _
  cases hencode : Base64Url.encode payload with
  | nil =>
    have hdecode := Base64Url.decode_encode true payload
    rw [hencode] at hdecode
    exact absurd (Option.some.inj hdecode).symm hpayload
  | cons c rest =>
    rw [hencode] at htrim hgraphic
    obtain ⟨hc, hrest⟩ := forall_mem_cons.mp hgraphic
    rw [htrim, rdropWhile_append_cons hc, rdropWhile_eq_self hrest]

def spelled (before gap after : List Char) (hgap : ∀ c ∈ gap, isNewline c = true)
    (hmargins : ∀ c ∈ before ++ after, isSpace c = true) : TokenText plainLibraries where
  text := before ++ (tokenPrefix ++ (gap ++ Base64Url.encode (Token.forRelays []).payload)) ++ after
  token := Token.forRelays []
  decoded := by
    refine (decode_ok_iff plainLibraries_lawful).mpr
      ⟨⟨before, _, after, rfl, hmargins, ?_⟩, documented_forRelays⟩
    have hnil : gap.filter (fun c => !isNewline c) = [] := by
      rw [filter_eq_nil_iff]
      intro c hc
      rw [hgap c hc]
      exact Bool.false_ne_true
    rw [filter_append, hnil, filter_isNewline_encode, nil_append]

theorem trimSpace_spelled {before gap after : List Char} (hgap : ∀ c ∈ gap, isNewline c = true)
    (hmargins : ∀ c ∈ before ++ after, isSpace c = true) :
    trimSpace (spelled before gap after hgap hmargins).text =
      tokenPrefix ++ (gap ++ Base64Url.encode (Token.forRelays []).payload) :=
  trimSpace_wrapped gap hmargins (ne_nil_of_length_pos (by decide))

theorem no_margins : ∀ c ∈ ([] ++ [] : List Char), isSpace c = true := forall_mem_nil _

def whole : TokenText plainLibraries := spelled [] [] [] (forall_mem_nil _) no_margins

def padded : TokenText plainLibraries :=
  spelled [' '] [] ['\n'] (forall_mem_nil _)
    (forall_mem_cons.mpr ⟨rfl, forall_mem_singleton.mpr rfl⟩)

def broken : TokenText plainLibraries :=
  spelled [] ['\n'] [] (forall_mem_singleton.mpr rfl) no_margins

theorem unbroken_whole : Unbroken (trimSpace whole.text) := by
  rw [whole, trimSpace_spelled, nil_append]
  exact unbroken_tokenText _

theorem unbroken_padded : Unbroken (trimSpace padded.text) := by
  rw [padded, trimSpace_spelled, nil_append]
  exact unbroken_tokenText _

theorem not_unbroken_broken : ¬ Unbroken (trimSpace broken.text) := by
  rw [broken, trimSpace_spelled]
  intro h
  exact absurd (h '\n' (mem_append_right _ mem_cons_self)) (by decide)

end TokenText

end P2PNetcat.Pairing
