import P2PNetcat.Cli.Options
import P2PNetcat.Library.OptionWords
import P2PNetcat.Library.Utf8
import Mathlib.Data.List.DropRight

/-!
# The arguments of the root command

The flags of the root command as its parser reads them, and the scan of the
arguments for `-T` and `-q` that runs before the parser.
-/

namespace P2PNetcat.Cli
open List ByteCodec OptionWords

inductive Flag where
  | listen | keepOpen | timeout | quitDelay | destination | port | quiet | socks | tor
  | upstreamSOCKS | interactive | zero | exec | udp | udpIdleTimeout | transportPort | ipv4 | ipv6
  | identity | relay | bootstrap | announce | noDHT | noMDNS | noPubsub | noQUIC | noWebRTC
  | allowUnauthenticatedListener | allowUnauthenticatedNativeWebRTC | pairingToken
  | pairingTokenFile | bind | json | verbose | help | version
  deriving DecidableEq

inductive Kind where
  | bool | int | string | stringSlice
  deriving DecidableEq

structure FlagSpec where
  name : String
  letter : Option Char := none
  kind : Kind := .bool

def Flag.spec : Flag → FlagSpec
  | .listen => { name := "listen", letter := 'l' }
  | .keepOpen => { name := "keep-open", letter := 'k' }
  | .timeout => { name := "timeout", letter := 'w', kind := .int }
  | .quitDelay => { name := "quit-delay", kind := .int }
  | .destination => { name := "destination", letter := 'd', kind := .string }
  | .port => { name := "port", letter := 'p', kind := .int }
  | .quiet => { name := "quiet", letter := 'q' }
  | .socks => { name := "socks", letter := 'S' }
  | .tor => { name := "tor", letter := 'T' }
  | .upstreamSOCKS => { name := "upstream-socks", kind := .string }
  | .interactive => { name := "interactive", letter := 'i' }
  | .zero => { name := "zero", letter := 'z' }
  | .exec => { name := "exec", letter := 'e', kind := .string }
  | .udp => { name := "udp", letter := 'u' }
  | .udpIdleTimeout => { name := "udp-idle-timeout", kind := .int }
  | .transportPort => { name := "transport-port", kind := .int }
  | .ipv4 => { name := "ipv4", letter := '4' }
  | .ipv6 => { name := "ipv6", letter := '6' }
  | .identity => { name := "identity", letter := 'I', kind := .string }
  | .relay => { name := "relay", kind := .stringSlice }
  | .bootstrap => { name := "bootstrap", kind := .stringSlice }
  | .announce => { name := "announce", kind := .stringSlice }
  | .noDHT => { name := "no-dht" }
  | .noMDNS => { name := "no-mdns" }
  | .noPubsub => { name := "no-pubsub" }
  | .noQUIC => { name := "no-quic" }
  | .noWebRTC => { name := "no-webrtc" }
  | .allowUnauthenticatedListener => { name := "allow-unauthenticated-listener" }
  | .allowUnauthenticatedNativeWebRTC => { name := "allow-unauthenticated-native-webrtc" }
  | .pairingToken => { name := "pairing-token", kind := .string }
  | .pairingTokenFile => { name := "pairing-token-file", kind := .string }
  | .bind => { name := "bind", kind := .string }
  | .json => { name := "json" }
  | .verbose => { name := "verbose", letter := 'v' }
  | .help => { name := "help", letter := 'h' }
  -- the letter of `version` is set after the flag was added, so the parser does not know it
  | .version => { name := "version" }

def flags : List Flag :=
  [.listen, .keepOpen, .timeout, .quitDelay, .destination, .port, .quiet, .socks, .tor,
    .upstreamSOCKS, .interactive, .zero, .exec, .udp, .udpIdleTimeout, .transportPort, .ipv4,
    .ipv6, .identity, .relay, .bootstrap, .announce, .noDHT, .noMDNS, .noPubsub, .noQUIC,
    .noWebRTC, .allowUnauthenticatedListener, .allowUnauthenticatedNativeWebRTC, .pairingToken,
    .pairingTokenFile, .bind, .json, .verbose, .help, .version]

def parseBool (text : Bytes) : Option Bool :=
  if text ∈ ["1", "t", "T", "true", "TRUE", "True"].map ascii then some true
  else if text ∈ ["0", "f", "F", "false", "FALSE", "False"].map ascii then some false
  else none

structure Values where
  int : Bytes → Option Int
  stringSlice : Bytes → Option (List String)

def rootFlags (V : Values) : FlagSet Flag where
  long name := flags.find? fun f => ascii f.spec.name = name
  short c := flags.find? fun f => f.spec.letter.map byteOf = some c
  implied f := if f.spec.kind = .bool then some (ascii "true") else none
  accepts f value :=
    match f.spec.kind with
    | .bool => (parseBool value).isSome
    | .int => (V.int value).isSome
    | .string => true
    | .stringSlice => (V.stringSlice value).isSome

def goText (text : Bytes) : String := String.ofList ((Utf8.decode text).getD (text.map charOf))

/-- `Value.Set` of the flag's variable; flags whose variable no modelled function reads are left
out. -/
def Options.set (V : Values) (opts : Options) (setting : Flag × Bytes) : Options :=
  let value := setting.2
  let bool (old : Bool) := (parseBool value).getD old
  let int (old : Int) := (V.int value).getD old
  match setting.1 with
  | .listen => { opts with listen := bool opts.listen }
  | .keepOpen => { opts with keepOpen := bool opts.keepOpen }
  | .timeout => { opts with timeout := int opts.timeout }
  | .quitDelay => { opts with quitDelay := int opts.quitDelay }
  | .destination => { opts with destination := goText value }
  | .port => { opts with port := int opts.port, portChanged := true }
  | .quiet => { opts with quiet := bool opts.quiet }
  | .socks => { opts with socks := bool opts.socks }
  | .tor => { opts with tor := bool opts.tor }
  | .upstreamSOCKS => { opts with upstreamSOCKS := goText value }
  | .interactive => { opts with interactive := bool opts.interactive }
  | .zero => { opts with zero := bool opts.zero }
  | .exec => { opts with exec := goText value }
  | .udp => { opts with udp := bool opts.udp }
  | .udpIdleTimeout =>
    { opts with udpIdleTimeout := int opts.udpIdleTimeout, udpIdleTimeoutChanged := true }
  | .transportPort => { opts with transportPort := int opts.transportPort }
  | .ipv4 => { opts with ipv4 := bool opts.ipv4 }
  | .ipv6 => { opts with ipv6 := bool opts.ipv6 }
  | .relay => { opts with relays := opts.relays ++ (V.stringSlice value).getD [] }
  | .noWebRTC => { opts with noWebRTC := bool opts.noWebRTC }
  | .allowUnauthenticatedListener =>
    { opts with allowUnauthenticatedListener := bool opts.allowUnauthenticatedListener }
  | .allowUnauthenticatedNativeWebRTC =>
    { opts with allowUnauthenticatedNativeWebRTC := bool opts.allowUnauthenticatedNativeWebRTC }
  | .pairingToken => { opts with pairingToken := goText value }
  | .pairingTokenFile => { opts with pairingTokenFile := goText value }
  | _ => opts

def optionsOf (V : Values) (reading : Reading Flag) : Options :=
  (settings reading).foldl (Options.set V) {}

def valueWords : List Bytes :=
  ["-I", "-w", "-d", "-p", "-e", "--identity", "--timeout", "--destination", "--port",
    "--exec"].map ascii

/-- The letters at which the scan takes a cluster for an option with its value. -/
def valueLetters : Bytes := ascii "Iwdpe"

/-- The loop of `booleanShortOptionRequested`. -/
def scan (shorthand : UInt8) (longhand : String) : Bool → List Bytes → Bool
  | _, [] => false
  | true, _ :: rest => scan shorthand longhand false rest
  | false, value :: rest =>
    if value = ascii "--" ++ ascii longhand ∨ value = [dash, shorthand] then true
    else if value ∈ valueWords then scan shorthand longhand true rest
    else if value.length < 3 ∨ ¬ ascii "-" <+: value ∨ ascii "--" <+: value then
      scan shorthand longhand false rest
    else if value.tail.head?.any (· ∈ valueLetters) then scan shorthand longhand false rest
    else if shorthand ∈ value.tail then true
    else scan shorthand longhand false rest

def booleanShortOptionRequested (args : List Bytes) (shorthand : UInt8) (longhand : String) : Bool :=
  scan shorthand longhand false args

def quietRequested (args : List Bytes) : Bool :=
  booleanShortOptionRequested args (byteOf 'q') "quiet"

def torRequested (args : List Bytes) : Bool :=
  booleanShortOptionRequested args (byteOf 'T') "tor"

section Scan
variable {shorthand : UInt8} {longhand : String}

def Telling (shorthand : UInt8) (longhand : String) (w : Bytes) : Prop :=
  (w = ascii "--" ++ ascii longhand ∨ w = [dash, shorthand]) ∨
    ¬ (w.length < 3 ∨ ¬ ascii "-" <+: w ∨ ascii "--" <+: w) ∧
      w.tail.head?.any (· ∈ valueLetters) = false ∧ shorthand ∈ w.tail

instance (w : Bytes) : Decidable (Telling shorthand longhand w) :=
  inferInstanceAs (Decidable (_ ∨ _))

section
variable (hwords : ∀ w ∈ valueWords, ¬ Telling shorthand longhand w)
include hwords

theorem scan_false_cons (w : Bytes)
    (rest : List Bytes) : scan shorthand longhand false (w :: rest) =
      if Telling shorthand longhand w then true
      else scan shorthand longhand (w ∈ valueWords) rest := by
  by_cases hword : w ∈ valueWords
  · have htelling := hwords w hword
    have hflag : ¬ (w = ascii "--" ++ ascii longhand ∨ w = [dash, shorthand]) := fun h =>
      htelling (.inl h)
    rw [scan, if_neg hflag, if_pos hword, if_neg htelling, decide_eq_true hword]
  · rw [decide_eq_false hword, scan, if_neg hword]
    by_cases hflag : w = ascii "--" ++ ascii longhand ∨ w = [dash, shorthand]
    · have htelling : Telling shorthand longhand w := .inl hflag
      rw [if_pos hflag, if_pos htelling]
    rw [if_neg hflag]
    by_cases hcluster : w.length < 3 ∨ ¬ ascii "-" <+: w ∨ ascii "--" <+: w
    · have htelling : ¬ Telling shorthand longhand w := by
        rintro (h | h)
        · exact hflag h
        · exact h.1 hcluster
      rw [if_pos hcluster, if_neg htelling]
    · rw [if_neg hcluster]
      cases hvalue : w.tail.head?.any (· ∈ valueLetters) with
      | true =>
        have htelling : ¬ Telling shorthand longhand w := by
          rintro (h | h)
          · exact hflag h
          · cases hvalue.symm.trans h.2.1
        rw [if_pos rfl, if_neg htelling]
      | false =>
        have htelling : Telling shorthand longhand w ↔ shorthand ∈ w.tail := by
          constructor
          · rintro (h | h)
            · exact absurd h hflag
            · exact h.2.2
          · intro h
            exact .inr ⟨hcluster, hvalue, h⟩
        simp only [htelling, Bool.false_eq_true, if_false]

end

/-- The number of words directly before the end that each make the scan pass over the next. -/
def wordsBefore (before : List Bytes) : Nat := (before.rtakeWhile (· ∈ valueWords)).length

theorem wordsBefore_concat (before : List Bytes) (w : Bytes) :
    wordsBefore (before ++ [w]) = if w ∈ valueWords then wordsBefore before + 1 else 0 := by
  rw [wordsBefore, rtakeWhile_concat]
  by_cases h : w ∈ valueWords
  · simp [h, wordsBefore]
  · simp [h]

/-- The scan takes the word at `i` for the flag. -/
def ToldAt (shorthand : UInt8) (longhand : String) (args : List Bytes) (i : Nat)
    (h : i < args.length) : Prop :=
  Telling shorthand longhand args[i] ∧ Even (wordsBefore (args.take i))

variable (hwords : ∀ w ∈ valueWords, ¬ Telling shorthand longhand w)
include hwords

theorem scan_iff (args seen : List Bytes) :
    scan shorthand longhand (¬ Even (wordsBefore seen)) args = true ↔
      ∃ (i : Nat) (h : i < args.length), Telling shorthand longhand args[i] ∧
        Even (wordsBefore (seen ++ args.take i)) := by
  induction args generalizing seen with
  | nil => simp [scan]
  | cons v rest ih =>
    have hsplit : (∃ (i : Nat) (h : i < (v :: rest).length),
        Telling shorthand longhand (v :: rest)[i] ∧
          Even (wordsBefore (seen ++ (v :: rest).take i))) ↔
        (Telling shorthand longhand v ∧ Even (wordsBefore seen)) ∨
          ∃ (i : Nat) (h : i < rest.length), Telling shorthand longhand rest[i] ∧
            Even (wordsBefore ((seen ++ [v]) ++ rest.take i)) := by
      constructor
      · rintro ⟨_ | i, h, htelling, heven⟩
        · exact .inl ⟨htelling, by simpa using heven⟩
        · exact .inr ⟨i, Nat.lt_of_succ_lt_succ h, htelling, by simpa using heven⟩
      · rintro (⟨htelling, heven⟩ | ⟨i, h, htelling, heven⟩)
        · exact ⟨0, Nat.zero_lt_succ _, htelling, by simpa using heven⟩
        · exact ⟨i + 1, Nat.succ_lt_succ h, htelling, by simpa using heven⟩
    rw [hsplit, ← ih (seen ++ [v]), wordsBefore_concat]
    by_cases heven : Even (wordsBefore seen)
    · have hskip : decide (¬ Even (wordsBefore seen)) = false := by simp [heven]
      rw [hskip, scan_false_cons hwords]
      by_cases htelling : Telling shorthand longhand v
      · simp [htelling, heven]
      by_cases hword : v ∈ valueWords
      · simp [htelling, hword, heven, Nat.even_add_one]
      · simp [htelling, hword]
    · have hskip : decide (¬ Even (wordsBefore seen)) = true := by simp [heven]
      rw [hskip, scan]
      by_cases hword : v ∈ valueWords
      · simp [hword, heven, Nat.even_add_one]
      · simp [hword, heven]

theorem requested_iff_told (args : List Bytes) :
    booleanShortOptionRequested args shorthand longhand = true ↔
      ∃ i h, ToldAt shorthand longhand args i h := by
  have h := scan_iff hwords args []
  simpa [ToldAt, booleanShortOptionRequested, wordsBefore] using h

end Scan

section Settings
variable {V : Values} {f : Flag}

theorem long_eq_some {name : Bytes} (h : (rootFlags V).long name = some f) :
    name = ascii f.spec.name := by
  have hfound := find?_some (p := fun g : Flag => decide (ascii g.spec.name = name)) h
  exact (of_decide_eq_true hfound).symm

theorem short_eq_some {c : UInt8} (h : (rootFlags V).short c = some f) :
    f.spec.letter.map byteOf = some c := by
  have hfound := find?_some (p := fun g : Flag => decide (g.spec.letter.map byteOf = some c)) h
  exact of_decide_eq_true hfound

theorem short_valueLetter {c : UInt8} (h : c ∈ valueLetters) :
    ∃ g, (rootFlags V).short c = some g ∧ (rootFlags V).implied g = none := by
  have hall : valueLetters.all (fun c => ((rootFlags V).short c).any fun g =>
      ((rootFlags V).implied g).isNone) = true := rfl
  have hany := all_eq_true.mp hall c h
  cases hshort : (rootFlags V).short c with
  | none =>
    rw [hshort] at hany
    cases hany
  | some g =>
    rw [hshort] at hany
    exact ⟨g, rfl, Option.isNone_iff_eq_none.mp hany⟩

/-- What the last setting of the flag says. -/
def lastValue (f : Flag) (settings : List (Flag × Bytes)) : Option Bool :=
  (settings.filterMap fun s => if s.1 = f then parseBool s.2 else none).getLast?

theorem lastValue_append (f : Flag) (before after : List (Flag × Bytes)) :
    lastValue f (before ++ after) = (lastValue f after).or (lastValue f before) := by
  rw [lastValue, filterMap_append, getLast?_append]
  rfl

theorem lastValue_of_ne {settings : List (Flag × Bytes)} (h : ∀ s ∈ settings, s.1 ≠ f) :
    lastValue f settings = none := by
  have hnil : (settings.filterMap fun s => if s.1 = f then parseBool s.2 else none) = [] := by
    rw [filterMap_eq_nil_iff]
    intro s hs
    rw [if_neg (h s hs)]
  rw [lastValue, hnil]
  rfl

theorem foldl_set {get : Options → Bool} (hget : ∀ opts setting, get (opts.set V setting) =
        if setting.1 = f then (parseBool setting.2).getD (get opts) else get opts)
    (settings : List (Flag × Bytes)) (opts : Options) :
    get (settings.foldl (Options.set V) opts) = (lastValue f settings).getD (get opts) := by
  induction settings generalizing opts with
  | nil => rfl
  | cons setting rest ih =>
    have hcons := lastValue_append f [setting] rest
    rw [singleton_append] at hcons
    rw [foldl_cons, ih, hget, hcons]
    cases lastValue f rest with
    | some value => rfl
    | none =>
      by_cases hf : setting.1 = f
      · cases hvalue : parseBool setting.2 <;> simp [lastValue, hf, hvalue]
      · simp [lastValue, hf]

/-- What a word sets last it sets with its own role; the vector's last value is one of those. -/
theorem lastValue_settings {reading : Reading Flag} {value : Bool}
    (h : lastValue f (settings reading) = some value) :
    ∃ entry ∈ reading, lastValue f (entry.2.sets entry.1) = some value := by
  induction reading with
  | nil => cases h
  | cons entry rest ih =>
    rw [settings, flatMap_cons, lastValue_append, Option.or_eq_some_iff] at h
    rcases h with h | ⟨-, h⟩
    · obtain ⟨other, hmem, hother⟩ := ih h
      exact ⟨other, mem_cons_of_mem _ hmem, hother⟩
    · exact ⟨entry, mem_cons_self, h⟩

theorem tor_set (opts : Options) (setting : Flag × Bytes) : (opts.set V setting).tor =
    if setting.1 = .tor then (parseBool setting.2).getD opts.tor else opts.tor := by
  obtain ⟨f, value⟩ := setting
  cases f <;> rfl

theorem quiet_set (opts : Options) (setting : Flag × Bytes) : (opts.set V setting).quiet =
    if setting.1 = .quiet then (parseBool setting.2).getD opts.quiet else opts.quiet := by
  obtain ⟨f, value⟩ := setting
  cases f <;> rfl

end Settings

section Words
variable {V : Values} {f : Flag} {letter : Char} {reading : Reading Flag} {args : List Bytes}

/-- Word by word the scan and the parser mean the same: the flag is not set by `--name=value`, which
the scan does not know, and a word that looks like the flag sets it just in case it stands where
the scan looks. -/
structure WordByWord (f : Flag) (letter : Char) (reading : Reading Flag) : Prop where
  long : ∀ entry ∈ reading, ascii "--" ++ ascii f.spec.name ++ [equals] <+: entry.1 →
    lastValue f (entry.2.sets entry.1) ≠ some true
  telling : ∀ (i : Nat) (h : i < reading.length), Telling (byteOf letter) f.spec.name reading[i].1 →
    (Even (wordsBefore ((reading.take i).map Prod.fst)) ↔
      lastValue f (reading[i].2.sets reading[i].1) = some true)

/-- No later word takes back what a word has set. -/
def Lasting (f : Flag) (reading : Reading Flag) : Prop :=
  (∃ entry ∈ reading, lastValue f (entry.2.sets entry.1) = some true) →
    lastValue f (settings reading) = some true

instance : Decidable (Lasting f reading) := inferInstanceAs (Decidable (_ → _))

/-- A word with which the parser sets the flag looks like the flag to the scan, unless it is
`--name=value`. -/
theorem telling_of_sets (hletter : f.spec.letter = some letter) (hkind : f.spec.kind = .bool)
    {text value : Bytes} {effect : Effect Flag} (hread : readOption (rootFlags V) text = some effect)
    (hs : (f, value) ∈ effect.sets) : Telling (byteOf letter) f.spec.name (dash :: text) ∨
      ascii "--" ++ ascii f.spec.name ++ [equals] <+: dash :: text := by
  have himplied : (rootFlags V).implied f ≠ none := by simp [rootFlags, hkind]
  cases text with
  | nil => cases hread
  | cons c rest =>
    rw [readOption] at hread
    split at hread
    next hdash =>
      rcases name_of_long hread hs with hname | ⟨name, hname, heq⟩
      · exact .inl (.inl (.inl (by rw [hdash, long_eq_some hname]; rfl)))
      · refine .inr ⟨value, ?_⟩
        rw [heq, hdash, long_eq_some hname, append_assoc]
        rfl
    next hdash =>
      refine .inl ?_
      obtain ⟨b, hb, hshort⟩ := letter_of_cluster hread hs
      have hbyte := short_eq_some hshort
      rw [hletter] at hbyte
      obtain rfl : byteOf letter = b := Option.some.inj hbyte
      cases rest with
      | nil => exact .inl (.inr (by rw [mem_singleton.mp hb]))
      | cons d rest =>
        have hcluster : ¬ ((dash :: c :: d :: rest).length < 3 ∨
            ¬ ascii "-" <+: dash :: c :: d :: rest ∨ ascii "--" <+: dash :: c :: d :: rest) := by
          rintro (h | h | h)
          · simp only [length_cons] at h
            omega
          · exact h ⟨c :: d :: rest, rfl⟩
          · obtain ⟨more, hmore⟩ := h
            exact hdash (cons.inj (cons.inj hmore).2).1.symm
        have hvalue : c ∉ valueLetters := by
          intro hc
          obtain ⟨v, hv, hnone⟩ := short_valueLetter (V := V) hc
          exact cluster_of_value hread hv hnone himplied hs
        exact .inr ⟨hcluster, decide_eq_false hvalue, hb⟩

theorem sets_of_lastValue {settings : List (Flag × Bytes)} {value : Bool}
    (h : lastValue f settings = some value) : ∃ text, (f, text) ∈ settings := by
  by_contra hnone
  rw [lastValue_of_ne] at h
  · cases h
  · rintro ⟨g, text⟩ hs rfl
    exact hnone ⟨text, hs⟩

/-- Only an option can set the flag, and one that is not spelled `--name=value` is telling. -/
theorem WordByWord.told (hletter : f.spec.letter = some letter) (hkind : f.spec.kind = .bool)
    (hread : read (rootFlags V) args = some reading) (hwords : WordByWord f letter reading)
    {entry : Bytes × Role Flag} (hmem : entry ∈ reading)
    (htrue : lastValue f (entry.2.sets entry.1) = some true) :
    Telling (byteOf letter) f.spec.name entry.1 := by
  obtain ⟨w, role⟩ := entry
  obtain ⟨value, hs⟩ := sets_of_lastValue htrue
  have hentry := (reads_of_readFrom hread).entry nofun hmem
  cases role with
  | option effect =>
    obtain ⟨text, rfl, heffect⟩ := hentry
    refine (telling_of_sets hletter hkind heffect hs).resolve_right fun hlong => ?_
    exact hwords.long _ hmem hlong htrue
  | value g =>
    obtain ⟨rfl, -⟩ := Prod.mk.inj (mem_singleton.mp hs)
    simp [Role.Fits, rootFlags, hkind] at hentry
  | positional | terminator | operand => cases hs

theorem WordByWord.told_iff (hletter : f.spec.letter = some letter) (hkind : f.spec.kind = .bool)
    (hread : read (rootFlags V) args = some reading) (hwords : WordByWord f letter reading) :
    (∃ i h, ToldAt (byteOf letter) f.spec.name args i h) ↔
      ∃ entry ∈ reading, lastValue f (entry.2.sets entry.1) = some true := by
  obtain rfl : reading.map Prod.fst = args := (reads_of_readFrom hread).words
  constructor
  · rintro ⟨i, h, htelling, heven⟩
    rw [length_map] at h
    rw [getElem_map] at htelling
    rw [← map_take] at heven
    exact ⟨reading[i], getElem_mem h, (hwords.telling i h htelling).mp heven⟩
  · rintro ⟨entry, hmem, htrue⟩
    have htelling := hwords.told hletter hkind hread hmem htrue
    obtain ⟨i, h, rfl⟩ := getElem_of_mem hmem
    refine ⟨i, by rwa [length_map], by rwa [getElem_map], ?_⟩
    rw [← map_take]
    exact (hwords.telling i h htelling).mpr htrue

end Words

section Agreement
variable {V : Values}

theorem valueWords_not_telling_tor : ∀ w ∈ valueWords, ¬ Telling (byteOf 'T') "tor" w := by
  have hall : valueWords.all (fun w => ¬ Telling (byteOf 'T') "tor" w) = true := rfl
  simpa using hall

theorem valueWords_not_telling_quiet : ∀ w ∈ valueWords, ¬ Telling (byteOf 'q') "quiet" w := by
  have hall : valueWords.all (fun w => ¬ Telling (byteOf 'q') "quiet" w) = true := rfl
  simpa using hall

section
variable {f : Flag} {letter : Char} {get : Options → Bool} {args : List Bytes}
  {reading : Reading Flag}
variable (hget : ∀ opts setting, get (opts.set V setting) =
    if setting.1 = f then (parseBool setting.2).getD (get opts) else get opts)
  (hdefault : get {} = false)
  (htelling : ∀ w ∈ valueWords, ¬ Telling (byteOf letter) f.spec.name w)
  (hread : read (rootFlags V) args = some reading)
include hget hdefault htelling

theorem agree_iff_told : booleanShortOptionRequested args (byteOf letter) f.spec.name =
    get (optionsOf V reading) ↔ ((∃ i h, ToldAt (byteOf letter) f.spec.name args i h) ↔
      lastValue f (settings reading) = some true) := by
  rw [Bool.eq_iff_iff, requested_iff_told htelling, optionsOf, foldl_set hget, hdefault]
  cases lastValue f (settings reading) <;> simp

include hread

theorem agree_iff (hletter : f.spec.letter = some letter) (hkind : f.spec.kind = .bool)
    (hwords : WordByWord f letter reading) :
    booleanShortOptionRequested args (byteOf letter) f.spec.name = get (optionsOf V reading) ↔
      Lasting f reading := by
  rw [agree_iff_told hget hdefault htelling, hwords.told_iff hletter hkind hread]
  exact ⟨Iff.mp, fun hlasting => ⟨hlasting, lastValue_settings⟩⟩

end

def plainValues : Values where
  int := fun text => parseInt (text.map charOf)
  stringSlice := fun text => some [goText text]

end Agreement

end P2PNetcat.Cli
