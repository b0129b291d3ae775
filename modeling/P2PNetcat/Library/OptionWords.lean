import P2PNetcat.Library.ByteCodec
import Mathlib.Data.List.TakeWhile

/-!
# Option words

How a flag set reads an argument vector in the POSIX and GNU manner: long
options with `=` or a following value, clusters of shorthands, a shorthand
that takes the rest of its cluster, and the word that ends the options.
-/

namespace OptionWords
open List Function ByteCodec

variable {F : Type}

structure FlagSet (F : Type) where
  long : Bytes → Option F
  short : UInt8 → Option F
  /-- The value of a flag that may stand without one. -/
  implied : F → Option Bytes
  accepts : F → Bytes → Bool

def dash : UInt8 := byteOf '-'
def equals : UInt8 := byteOf '='

structure Effect (F : Type) where
  sets : List (F × Bytes)
  waiting : Option F

def bare (fs : FlagSet F) (f : F) : Effect F :=
  match fs.implied f with
  | some value => ⟨[(f, value)], none⟩
  | none => ⟨[], some f⟩

def readLong (fs : FlagSet F) (text : Bytes) : Option (Effect F) :=
  if text.head? = some dash ∨ text.head? = some equals then none
  else do
    let f ← fs.long (text.takeWhile (· ≠ equals))
    match text.dropWhile (· ≠ equals) with
    | _ :: value => some ⟨[(f, value)], none⟩
    | [] => some (bare fs f)

def readCluster (fs : FlagSet F) : Bytes → Option (Effect F)
  | [] => some ⟨[], none⟩
  | c :: rest => do
    let f ← fs.short c
    if rest.head? = some equals ∧ 1 < rest.length then some ⟨[(f, rest.tail)], none⟩
    else
      match fs.implied f with
      | some value => do
        let effect ← readCluster fs rest
        some ⟨(f, value) :: effect.sets, effect.waiting⟩
      | none => if rest = [] then some ⟨[], some f⟩ else some ⟨[(f, rest)], none⟩

def readOption (fs : FlagSet F) : Bytes → Option (Effect F)
  | [] => none
  | c :: rest => if c = dash then readLong fs rest else readCluster fs (c :: rest)

inductive Role (F : Type) where
  | option (effect : Effect F)
  | value (f : F)
  | positional
  | terminator
  | operand

abbrev Reading (F : Type) := List (Bytes × Role F)

/-- The words with the part each of them plays; `waiting` is a flag still without its value. -/
def readFrom (fs : FlagSet F) : Option F → List Bytes → Option (Reading F)
  | none, [] => some []
  | some _, [] => none
  | some f, w :: rest =>
    if fs.accepts f w then (readFrom fs none rest).map ((w, .value f) :: ·) else none
  | none, w :: rest =>
    if w = [dash, dash] then some ((w, .terminator) :: rest.map fun v => (v, .operand))
    else
      match w with
      | c :: d :: text =>
        if c = dash then
          match readOption fs (d :: text) with
          | none => none
          | some effect =>
            if effect.sets.all fun s => fs.accepts s.1 s.2 then
              (readFrom fs effect.waiting rest).map ((w, .option effect) :: ·)
            else none
        else (readFrom fs none rest).map ((w, .positional) :: ·)
      | _ => (readFrom fs none rest).map ((w, .positional) :: ·)

def read (fs : FlagSet F) (args : List Bytes) : Option (Reading F) := readFrom fs none args

def Role.sets (role : Role F) (w : Bytes) : List (F × Bytes) :=
  match role with
  | .option effect => effect.sets
  | .value f => [(f, w)]
  | _ => []

def settings (reading : Reading F) : List (F × Bytes) :=
  reading.flatMap fun entry => entry.2.sets entry.1

section Lemmas
variable {fs : FlagSet F}
variable {f g : F} {text implied value : Bytes} {effect : Effect F} {reading : Reading F}
  {waiting : Option F} {args : List Bytes}

theorem implied_of_bare (h : (bare fs f).waiting = some g) : fs.implied g = none := by
  rw [bare] at h
  split at h
  · cases h
  rename_i hnone
  cases h
  exact hnone

theorem implied_of_cluster (h : readCluster fs text = some effect) (hg : effect.waiting = some g) :
    fs.implied g = none := by
  induction text generalizing effect with
  | nil =>
    cases h
    cases hg
  | cons c rest ih =>
    rw [readCluster] at h
    obtain ⟨f, -, h⟩ := Option.bind_eq_some_iff.mp h
    split at h
    · cases h
      cases hg
    split at h
    · obtain ⟨tail, htail, h⟩ := Option.bind_eq_some_iff.mp h
      cases h
      exact ih htail hg
    next hnone =>
      split at h <;> cases h
      · cases hg
        exact hnone
      · cases hg

theorem implied_of_waiting (h : readOption fs text = some effect) (hg : effect.waiting = some g) :
    fs.implied g = none := by
  cases text with
  | nil => cases h
  | cons c rest =>
    rw [readOption] at h
    split at h
    · rw [readLong] at h
      obtain ⟨-, h⟩ := Option.ite_none_left_eq_some.mp h
      obtain ⟨f, -, h⟩ := Option.bind_eq_some_iff.mp h
      split at h <;> cases h
      · cases hg
      · exact implied_of_bare hg
    · exact implied_of_cluster h hg

theorem letter_of_cluster (h : readCluster fs text = some effect)
    (hset : (f, value) ∈ effect.sets) : ∃ c ∈ text, fs.short c = some f := by
  induction text generalizing effect with
  | nil =>
    cases h
    cases hset
  | cons c rest ih =>
    rw [readCluster] at h
    obtain ⟨g, hg, h⟩ := Option.bind_eq_some_iff.mp h
    have hhead : f = g → ∃ c' ∈ c :: rest, fs.short c' = some f := by
      intro heq
      exact ⟨c, mem_cons_self, heq ▸ hg⟩
    split at h
    · cases h
      exact hhead (Prod.mk.inj (mem_singleton.mp hset)).1
    split at h
    · obtain ⟨tail, htail, h⟩ := Option.bind_eq_some_iff.mp h
      cases h
      rcases mem_cons.mp hset with heq | hset
      · exact hhead (Prod.mk.inj heq).1
      · obtain ⟨c', hmem, hc'⟩ := ih htail hset
        exact ⟨c', mem_cons_of_mem _ hmem, hc'⟩
    · split at h <;> cases h
      · cases hset
      · exact hhead (Prod.mk.inj (mem_singleton.mp hset)).1

theorem cluster_of_value {c : UInt8} {rest : Bytes}
    (h : readCluster fs (c :: rest) = some effect) (hg : fs.short c = some g)
    (hnone : fs.implied g = none) (hf : fs.implied f ≠ none) : (f, value) ∉ effect.sets := by
  have hne : f ≠ g := by
    rintro rfl
    exact hf hnone
  intro hset
  rw [readCluster] at h
  obtain ⟨g', hg', h⟩ := Option.bind_eq_some_iff.mp h
  obtain rfl := Option.some.inj (hg.symm.trans hg')
  split at h
  · cases h
    exact hne (Prod.mk.inj (mem_singleton.mp hset)).1
  rw [hnone] at h
  simp only at h
  split at h <;> cases h
  · cases hset
  · exact hne (Prod.mk.inj (mem_singleton.mp hset)).1

/-- A long option that sets a flag names it, alone or before the `=`. -/
theorem name_of_long (h : readLong fs text = some effect) (hset : (f, value) ∈ effect.sets) :
    fs.long text = some f ∨ ∃ name, fs.long name = some f ∧ text = name ++ equals :: value := by
  rw [readLong] at h
  obtain ⟨-, h⟩ := Option.ite_none_left_eq_some.mp h
  obtain ⟨g, hg, h⟩ := Option.bind_eq_some_iff.mp h
  have hsplit := takeWhile_append_dropWhile (p := fun b => decide (b ≠ equals)) (l := text)
  split at h
  next b rest hdrop =>
    cases h
    obtain ⟨rfl, rfl⟩ := Prod.mk.inj (mem_singleton.mp hset)
    have hhead := head?_dropWhile_not (fun b => decide (b ≠ equals)) text
    rw [hdrop] at hhead hsplit
    obtain rfl : b = equals := by simpa using hhead
    exact .inr ⟨_, hg, hsplit.symm⟩
  next hdrop =>
    cases h
    rw [hdrop, append_nil] at hsplit
    rw [bare] at hset
    split at hset
    · rw [hsplit] at hg
      rw [(Prod.mk.inj (mem_singleton.mp hset)).1]
      exact .inl hg
    · cases hset

inductive Reads (fs : FlagSet F) : Option F → List Bytes → Reading F → Prop where
  | done : Reads fs none [] []
  | value {f : F} {w : Bytes} {rest : List Bytes} {reading : Reading F} :
      fs.accepts f w = true → Reads fs none rest reading →
      Reads fs (some f) (w :: rest) ((w, .value f) :: reading)
  | terminator (rest : List Bytes) : Reads fs none ([dash, dash] :: rest)
      (([dash, dash], .terminator) :: rest.map fun v => (v, .operand))
  | option {text : Bytes} {effect : Effect F} {rest : List Bytes} {reading : Reading F} :
      readOption fs text = some effect → (∀ s ∈ effect.sets, fs.accepts s.1 s.2 = true) →
      Reads fs effect.waiting rest reading →
      Reads fs none ((dash :: text) :: rest) ((dash :: text, .option effect) :: reading)
  | positional (w : Bytes) {rest : List Bytes} {reading : Reading F} :
      Reads fs none rest reading → Reads fs none (w :: rest) ((w, .positional) :: reading)

theorem reads_of_readFrom
    (h : readFrom fs waiting args = some reading) : Reads fs waiting args reading := by
  induction args generalizing waiting reading with
  | nil =>
    cases waiting with
    | none =>
      cases h
      exact .done
    | some f => cases h
  | cons w rest ih =>
    cases waiting with
    | some f =>
      obtain ⟨haccepts, h⟩ := Option.ite_none_right_eq_some.mp h
      obtain ⟨tail, htail, rfl⟩ := Option.map_eq_some_iff.mp h
      exact .value haccepts (ih htail)
    | none =>
      rw [readFrom.eq_def] at h
      simp only at h
      split at h
      next hterminator =>
        subst hterminator
        cases h
        exact .terminator rest
      · split at h
        · split at h
          next hdash =>
            subst hdash
            split at h
            · cases h
            rename_i effect heffect
            obtain ⟨haccepts, h⟩ := Option.ite_none_right_eq_some.mp h
            obtain ⟨tail, htail, rfl⟩ := Option.map_eq_some_iff.mp h
            exact .option heffect (all_eq_true.mp haccepts) (ih htail)
          · obtain ⟨tail, htail, rfl⟩ := Option.map_eq_some_iff.mp h
            exact .positional _ (ih htail)
        · obtain ⟨tail, htail, rfl⟩ := Option.map_eq_some_iff.mp h
          exact .positional _ (ih htail)

theorem Reads.words (h : Reads fs waiting args reading) : reading.map Prod.fst = args := by
  induction h with
  | done => rfl
  | value _ _ ih | option _ _ _ ih | positional _ _ ih => rw [map_cons, ih]
  | terminator rest => simp [comp_def]

/-- An option word is read as one, and only flags without an implied value take the next word. -/
def Role.Fits (fs : FlagSet F) (w : Bytes) : Role F → Prop
  | .option effect => ∃ text, w = dash :: text ∧ readOption fs text = some effect
  | .value g => fs.implied g = none
  | _ => True

theorem Reads.entry (h : Reads fs waiting args reading)
    (hwaiting : ∀ g, waiting = some g → fs.implied g = none) {w : Bytes} {role : Role F}
    (hmem : (w, role) ∈ reading) : role.Fits fs w := by
  induction h with
  | done => cases hmem
  | value _ _ ih =>
    rcases mem_cons.mp hmem with heq | hmem
    · cases heq
      exact hwaiting _ rfl
    · exact ih nofun hmem
  | terminator rest =>
    rcases mem_cons.mp hmem with heq | hmem
    · cases heq
      trivial
    · obtain ⟨v, -, heq⟩ := mem_map.mp hmem
      cases heq
      trivial
  | option heffect _ _ ih =>
    rcases mem_cons.mp hmem with heq | hmem
    · cases heq
      exact ⟨_, rfl, heffect⟩
    · exact ih (fun g hg => implied_of_waiting heffect hg) hmem
  | positional w _ ih =>
    rcases mem_cons.mp hmem with heq | hmem
    · cases heq
      trivial
    · exact ih nofun hmem

end Lemmas

end OptionWords
