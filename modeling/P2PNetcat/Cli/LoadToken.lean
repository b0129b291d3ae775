import P2PNetcat.Protocol.PairingSpelling
import P2PNetcat.Tunnels.Server

/-!
# The token of the command line

A pairing token can come from a flag, from a file and from the environment.
`loadToken` compares the texts of the sources before it decodes one of them.
-/

namespace P2PNetcat.Cli
open List GoText GoTime Fallible Pairing Tunnels
variable {order : List (String × List Char)}

/-- What `loadToken` meets: the files, the value of `P2P_NETCAT_TOKEN`, the clock, and the order in
which Go walks a map. -/
structure TokenWorld where
  file : List Char → TokenFile
  tokenVariable : String
  now : Time
  order : List (String × List Char) → List (String × List Char)
  order_perm : ∀ sources, (order sources).Perm sources

def readPairingTokenFile (file : TokenFile) : Except String (List Char) := readTokenFile file

variable {L : Libraries}

def source (label : String) (value : List Char) : List (String × List Char) :=
  if value ≠ [] then [(label, value)] else []

def fileSource (path : List Char) (w : TokenWorld) : Except String (List (String × List Char)) :=
  if path ≠ [] then do
    let data ← readPairingTokenFile (w.file path)
    .ok [("--pairing-token-file", trimSpace data)]
  else .ok []

def sources (opts : Options) (w : TokenWorld) : Except String (List (String × List Char)) := do
  let file ← fileSource (trimSpace opts.pairingTokenFile.toList) w
  .ok (source "--pairing-token" (trimSpace opts.pairingToken.toList) ++ file ++
    source "P2P_NETCAT_TOKEN" (trimSpace w.tokenVariable.toList))

def differs (label : String) : String :=
  "pairing token differs between sources, including " ++ label

def selectSource : List Char → List (String × List Char) → Except String (List Char)
  | selected, [] => .ok selected
  | selected, (label, value) :: rest =>
    if selected ≠ [] ∧ selected ≠ value then .error (differs label) else selectSource value rest

def loadToken (L : Libraries) (opts : Options) (w : TokenWorld) :
    Except String (Option (Token L)) := do
  let sources ← sources opts w
  if sources.length = 0 then .ok none
  else do
    let selected ← selectSource [] (w.order sources)
    let token ← decode L selected
    token.validate w.now
    .ok (some token)

theorem selectSource_ok_iff {selected text : List Char} (h : selected ≠ []) :
    selectSource selected order = .ok text ↔ text = selected ∧ ∀ s ∈ order, s.2 = selected := by
  induction order generalizing selected with
  | nil =>
    rw [selectSource]
    simp [eq_comm]
  | cons s rest ih =>
    obtain ⟨label, value⟩ := s
    rw [selectSource, ite_error_eq_ok, forall_mem_cons]
    by_cases hvalue : value = selected
    · obtain rfl := hvalue
      rw [ih h]
      simp
    · have hrefused : ¬ ¬ (selected ≠ [] ∧ selected ≠ value) := not_not.mpr ⟨h, Ne.symm hvalue⟩
      simp [hrefused, hvalue]

theorem selectSource_nil_ok_iff {text : List Char}
    (hne : order ≠ []) (htexts : ∀ s ∈ order, s.2 ≠ []) :
    selectSource [] order = .ok text ↔ ∀ s ∈ order, s.2 = text := by
  cases order with
  | nil => exact absurd rfl hne
  | cons s rest =>
    have hfirst : selectSource [] (s :: rest) = selectSource s.2 rest :=
      if_neg fun h => h.1 rfl
    rw [hfirst, selectSource_ok_iff (htexts s mem_cons_self), forall_mem_cons]
    constructor
    · rintro ⟨rfl, hrest⟩
      exact ⟨rfl, hrest⟩
    · rintro ⟨rfl, hrest⟩
      exact ⟨rfl, hrest⟩

theorem selectSource_error {selected : List Char} {err : String}
    (h : selectSource selected order = .error err) : ∃ s ∈ order, err = differs s.1 := by
  induction order generalizing selected with
  | nil => cases h
  | cons s rest ih =>
    rw [selectSource] at h
    split at h
    · exact ⟨s, mem_cons_self, (Except.error.inj h).symm⟩
    · obtain ⟨other, hmem, herr⟩ := ih h
      exact ⟨other, mem_cons_of_mem _ hmem, herr⟩

/-- Of the checks of `Validate` only the clock can refuse a token that `Decode` took. -/
theorem validate_eq_checkExpiry {t : Token L} (h : t.Sound) (now : Time) :
    t.validate now = checkExpiry t.expiresAt now := by
  obtain ⟨id, hid⟩ := h.peerID
  have hchecked : checkHints L [] t.relayHints = .ok () := checkHints_ok_iff.mpr
    ⟨fun hint hmem => ⟨h.hints hint hmem, not_mem_nil⟩, h.distinct⟩
  rw [Token.validate, if_neg (not_not.mpr h.version), hid]
  simp only
  rw [if_neg h.service, if_neg (Nat.not_lt.mpr h.count), hchecked]
  rfl

theorem expired_ne_differs (time label : String) :
    "pairing token expired at Unix time " ++ time ≠ differs label := by
  intro htext
  have hlists : "pairing token expired at Unix time ".toList ++ time.toList =
      "pairing token differs between sources, including ".toList ++ label.toList := by
    rw [← String.toList_append, ← String.toList_append]
    exact congrArg String.toList htext
  have hfirst := congrArg (take 15) hlists
  rw [take_append_of_le_length (by decide), take_append_of_le_length (by decide)]
    at hfirst
  exact absurd hfirst (by decide)

theorem validate_ne_differs {t : Token L} (h : t.Sound) (now : Time) (label : String) :
    t.validate now ≠ .error (differs label) := by
  rw [validate_eq_checkExpiry h]
  unfold checkExpiry
  split
  · nofun
  rename_i expires hexpires
  rw [if_neg fun hzero => h.expiry (hexpires.trans (congrArg some hzero))]
  split
  · intro herr
    exact expired_ne_differs _ label (Except.error.inj herr)
  · nofun

def asSources (found : List (String × TokenText L)) : List (String × List Char) :=
  found.map fun s => (s.1, trimSpace s.2.text)

theorem mem_asSources {found : List (String × TokenText L)} {w : TokenWorld}
    {s : String × List Char} :
    s ∈ w.order (asSources found) ↔ ∃ given ∈ found, (given.1, trimSpace given.2.text) = s := by
  rw [(w.order_perm _).mem_iff, asSources, mem_map]

variable {w : TokenWorld}

theorem loadToken_differs_iff (hL : L.Lawful) {opts : Options}
    {found : List (String × TokenText L)} (hsources : sources opts w = .ok (asSources found)) :
    (∃ label, loadToken L opts w = .error (differs label)) ↔
      ∃ s ∈ found, ∃ s' ∈ found, trimSpace s.2.text ≠ trimSpace s'.2.text := by
  cases found with
  | nil =>
    have hnone : loadToken L opts w = .ok none := by
      rw [loadToken, hsources]
      rfl
    rw [hnone]
    simp
  | cons first rest =>
    generalize hfound : first :: rest = found at hsources ⊢
    have hfirst : first ∈ found := hfound ▸ mem_cons_self
    have hlength : (asSources found).length ≠ 0 := by
      rw [← hfound]
      exact Nat.succ_ne_zero _
    have hload : loadToken L opts w = selectSource [] (w.order (asSources found)) >>=
        fun selected => decode L selected >>=
          fun token => token.validate w.now >>= fun _ => .ok (some token) := by
      rw [loadToken, hsources]
      exact if_neg hlength
    have hne : w.order (asSources found) ≠ [] :=
      ne_nil_of_mem (mem_asSources.mpr ⟨first, hfirst, rfl⟩)
    have htexts : ∀ s ∈ w.order (asSources found), s.2 ≠ [] := by
      intro s hs
      obtain ⟨given, -, rfl⟩ := mem_asSources.mp hs
      exact given.2.trimSpace_ne_nil hL
    have hselect : ∀ text, selectSource [] (w.order (asSources found)) = .ok text ↔
        ∀ s ∈ w.order (asSources found), s.2 = text := fun _ => selectSource_nil_ok_iff hne htexts
    rw [hload]
    cases hselected : selectSource [] (w.order (asSources found)) with
    | error err =>
      obtain ⟨s, -, rfl⟩ := selectSource_error hselected
      refine iff_of_true ⟨s.1, rfl⟩ ?_
      by_contra hsame
      push Not at hsame
      have hok := (hselect (trimSpace first.2.text)).mpr (by
        intro s hs
        obtain ⟨given, hgiven, rfl⟩ := mem_asSources.mp hs
        exact hsame given hgiven first hfirst)
      rw [hselected] at hok
      cases hok
    | ok text =>
      have hall : ∀ s ∈ found, trimSpace s.2.text = text := fun s hs =>
        (hselect text).mp hselected _ (mem_asSources.mpr ⟨s, hs, rfl⟩)
      have hdecoded : decode L text = .ok first.2.token := by
        rw [← hall first hfirst, decode_trimSpace]
        exact first.2.decoded
      have hsound := ((decode_ok_iff hL).mp hdecoded).2.sound
      refine iff_of_false ?_ ?_
      · rintro ⟨label, h⟩
        refine validate_ne_differs hsound w.now label ?_
        simp only [hdecoded, bind, Except.bind] at h
        split at h
        next err herr =>
          rw [herr]
          exact congrArg Except.error (Except.error.inj h)
        · cases h
      · rintro ⟨s, hs, s', hs', hdiff⟩
        exact hdiff ((hall s hs).trans (hall s' hs').symm)

theorem source_eq_nil_iff {label : String} {value : List Char} :
    source label value = [] ↔ value = [] := by
  by_cases h : value = []
  · simp [source, h]
  · simp [source, h]

theorem fileSource_nil_iff {path : List Char} :
    fileSource path w = .ok [] ↔ path = [] := by
  by_cases h : path = []
  · simp [fileSource, h]
  · rw [fileSource, if_pos h, bind_eq_ok]
    simp [h]

theorem loadToken_eq_none_iff {opts : Options} :
    loadToken L opts w = .ok none ↔ pairingTokenConfigured opts w.tokenVariable = false := by
  simp only [pairingTokenConfigured, given, Bool.or_eq_false_iff, decide_eq_false_iff_not, not_not]
  constructor
  · intro h
    obtain ⟨found, hfound, h⟩ := bind_eq_ok.mp h
    obtain ⟨file, hfile, hlist⟩ := bind_eq_ok.mp hfound
    cases hlist
    split at h
    next hempty =>
      have hnil := eq_nil_of_length_eq_zero hempty
      simp only [append_eq_nil_iff, source_eq_nil_iff] at hnil
      rw [hnil.1.2] at hfile
      exact ⟨⟨hnil.1.1, fileSource_nil_iff.mp hfile⟩, hnil.2⟩
    · obtain ⟨_, -, h⟩ := bind_eq_ok.mp h
      obtain ⟨_, -, h⟩ := bind_eq_ok.mp h
      obtain ⟨_, -, h⟩ := bind_eq_ok.mp h
      cases h
  · rintro ⟨⟨hflag, hpath⟩, hvariable⟩
    have hnone : sources opts w = .ok [] := by
      rw [sources, fileSource_nil_iff.mpr hpath, source_eq_nil_iff.mpr hflag,
        source_eq_nil_iff.mpr hvariable]
      rfl
    rw [loadToken, hnone]
    rfl

/-- A privileged listener that has not opted out never goes on without a token. -/
theorem privileged_listener_has_token {opts : Options} {args : List String}
    (h : validateOptions opts w.tokenVariable args = .ok ()) (hlisten : opts.listen = true)
    (hmode : privilegedListenerMode opts = true)
    (hclosed : opts.allowUnauthenticatedListener = false) : loadToken L opts w ≠ .ok none := by
  intro hnone
  have hall := validateOptions_ok_iff.mp h
  simp only [refusals, forall_mem_cons] at hall
  obtain ⟨-, -, -, -, -, -, -, -, -, -, -, -, -, -, -, -, -, -, -, -, -, -, -, hguard, -⟩ := hall
  rw [hlisten, hmode, hclosed, loadToken_eq_none_iff.mp hnone] at hguard
  cases hguard

theorem privileged_listener_has_token_example :
    loadToken plainLibraries { listen := true, exec := "sh", pairingTokenFile := "tokens/db" }
      ⟨fun _ => ⟨.ok (), .ok true, .ok (), .ok []⟩, "", unix 0, id, fun _ => .refl _⟩ ≠ .ok none :=
  privileged_listener_has_token (show validateOptions _ _ [] = _ from rfl) rfl rfl rfl

theorem sources_two (hL : L.Lawful) (s s' : TokenText L)
    (hvariable : w.tokenVariable = String.ofList s'.text) :
    sources { pairingToken := String.ofList s.text } w =
      .ok (asSources [("--pairing-token", s), ("P2P_NETCAT_TOKEN", s')]) := by
  have hfile : fileSource (trimSpace "".toList) w = .ok [] := fileSource_nil_iff.mpr rfl
  have hsource : ∀ (label : String) (t : TokenText L),
      source label (trimSpace (String.ofList t.text).toList) = [(label, trimSpace t.text)] := by
    intro label t
    rw [String.toList_ofList]
    exact if_pos (t.trimSpace_ne_nil hL)
  rw [sources, hfile, hvariable, hsource, hsource]
  rfl

theorem token_texts_canonical_iff (hL : L.Lawful) (found : List (String × TokenText L)) :
    ((∀ s ∈ found, s.2.token.encode = .ok (trimSpace s.2.text)) ∧
      (∀ s ∈ found, ∀ s' ∈ found,
        (trimSpace s.2.text = trimSpace s'.2.text ↔ s.2.token = s'.2.token)) ∧
      ∀ opts w, sources opts w = .ok (asSources found) →
        ((∃ label, loadToken L opts w = .error (differs label)) ↔
          ∃ s ∈ found, ∃ s' ∈ found, s.2.token ≠ s'.2.token)) ↔
    ∀ s ∈ found, Unbroken (trimSpace s.2.text) := by
  constructor
  · rintro ⟨hcanonical, -⟩ s hs
    exact (s.2.encode_eq_iff hL).mp (hcanonical s hs)
  · intro hunbroken
    have htexts : ∀ s ∈ found, ∀ s' ∈ found,
        (trimSpace s.2.text = trimSpace s'.2.text ↔ s.2.token = s'.2.token) := fun s hs s' hs' =>
      TokenText.text_eq_iff hL (hunbroken s hs) (hunbroken s' hs')
    refine ⟨fun s hs => (s.2.encode_eq_iff hL).mpr (hunbroken s hs), htexts, ?_⟩
    intro opts w hsources
    rw [loadToken_differs_iff hL hsources]
    constructor
    · rintro ⟨s, hs, s', hs', hdiff⟩
      exact ⟨s, hs, s', hs', fun h => hdiff ((htexts s hs s' hs').mpr h)⟩
    · rintro ⟨s, hs, s', hs', hdiff⟩
      exact ⟨s, hs, s', hs', fun h => hdiff ((htexts s hs s' hs').mp h)⟩

theorem token_texts_canonical_iff_example :
    plainLibraries.Lawful ∧
    (∀ s ∈ [("--pairing-token", TokenText.whole), ("P2P_NETCAT_TOKEN", TokenText.padded)],
      s.2.token.encode = .ok (trimSpace s.2.text)) ∧
    (∀ w : TokenWorld, w.tokenVariable = String.ofList TokenText.padded.text →
      ¬ ∃ label, loadToken plainLibraries { pairingToken := String.ofList TokenText.whole.text } w =
        .error (differs label)) := by
  have hcanonical := (token_texts_canonical_iff plainLibraries_lawful
    [("--pairing-token", TokenText.whole), ("P2P_NETCAT_TOKEN", TokenText.padded)]).mpr
    (forall_mem_cons.mpr ⟨TokenText.unbroken_whole,
      forall_mem_singleton.mpr TokenText.unbroken_padded⟩)
  refine ⟨plainLibraries_lawful, hcanonical.1, ?_⟩
  intro w hvariable
  rw [hcanonical.2.2 _ w (sources_two plainLibraries_lawful _ _ hvariable)]
  rintro ⟨s, hs, s', hs', hdiff⟩
  simp only [mem_cons, not_mem_nil, or_false] at hs hs'
  rcases hs with rfl | rfl <;> rcases hs' with rfl | rfl <;> exact hdiff rfl

theorem wrapped_text_differs :
    TokenText.broken.token = TokenText.whole.token ∧
    TokenText.broken.token.encode ≠ .ok (trimSpace TokenText.broken.text) ∧
    trimSpace TokenText.broken.text ≠ trimSpace TokenText.whole.text ∧
    ∀ w : TokenWorld, w.tokenVariable = String.ofList TokenText.broken.text →
      ∃ label, loadToken plainLibraries { pairingToken := String.ofList TokenText.whole.text } w =
        .error (differs label) := by
  have hdiff : trimSpace TokenText.broken.text ≠ trimSpace TokenText.whole.text := by
    intro h
    have hbroken := TokenText.not_unbroken_broken
    rw [h] at hbroken
    exact hbroken TokenText.unbroken_whole
  refine ⟨rfl, ?_, hdiff, ?_⟩
  · rw [ne_eq, TokenText.encode_eq_iff plainLibraries_lawful]
    exact TokenText.not_unbroken_broken
  · intro w hvariable
    rw [loadToken_differs_iff plainLibraries_lawful
      (sources_two plainLibraries_lawful TokenText.whole TokenText.broken hvariable)]
    exact ⟨_, mem_cons_self, _, mem_cons_of_mem _ mem_cons_self, hdiff.symm⟩

end P2PNetcat.Cli
