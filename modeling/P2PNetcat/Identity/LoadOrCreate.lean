import P2PNetcat.Library.ByteCodec
import P2PNetcat.Library.FileSystem
import P2PNetcat.Library.StepSystem
import Mathlib.Data.List.Range

/-!
# The private key of a node

`LoadOrCreate` as the sequence of its system calls. A call of several processes
on one path interleaves these steps; a call on its own takes them one after the
other.
-/

namespace P2PNetcat.Identity
open List Posix StepSystem ByteCodec

structure KeyLibrary (K : Type) where
  marshalPrivateKey : K → Except String Bytes
  unmarshalPrivateKey : Bytes → Except String K

/-- A path as `filepath.Abs` returns it. -/
structure CleanPath where
  names : Path
  proper : ∀ name ∈ names, Proper name

def maxIdentityFileSize : Nat := 64 * 1024

def pathText (path : Path) : String := "/" ++ String.intercalate "/" path.reverse

def pathError (op : String) (path : Path) (err : Errno) : String :=
  op ++ " " ++ pathText path ++ ": " ++ err.text

inductive Phase (K : Type) where
  | opening
  | inspecting (file : Path)
  | reading (file : Path)
  | making
  | creating (key : K) (encoded : Bytes)
  | writing (file : Path) (key : K) (encoded : Bytes)
  | protecting (file : Path) (key : K)
  | closing (key : K)
  | returned (result : Except String K)

structure Process (K : Type) where
  path : Path
  phase : Phase K
  draws : Nat := 0

structure Answers where
  stat : Except String Unit := .ok ()
  read : Except String Unit := .ok ()
  write : Except String Unit := .ok ()
  protect : Except String Unit := .ok ()
  close : Except String Unit := .ok ()

/-- `secretfile.CheckPermissions` on a system with file modes. -/
def checkPermissions (mode : Nat) : Except String Unit :=
  if mode &&& 0o077 ≠ 0 then .error "permissions must not grant group or other access" else .ok ()

section Steps
variable {K : Type} (lib : KeyLibrary K) (keys : Nat → Except String K)

def drawn (n : Nat) : Except String (K × Bytes) :=
  match keys n with
  | .error err => .error ("create Ed25519 identity: " ++ err)
  | .ok key =>
    match lib.marshalPrivateKey key with
    | .error err => .error err
    | .ok encoded => .ok (key, encoded)

def inspect (fs : FileSystem) (path file : Path) (answers : Answers) : Phase K :=
  match answers.stat with
  | .error err => .returned (.error ("inspect private key " ++ pathText path ++ ": " ++ err))
  | .ok () =>
    match fs.node file with
    | some (.file _ mode) =>
      match checkPermissions mode with
      | .error err =>
        .returned (.error ("private key " ++ pathText path ++ " is not private: " ++ err))
      | .ok () => .reading file
    | _ => .returned (.error ("private key " ++ pathText path ++ " must be a regular file"))

def contents (fs : FileSystem) (file : Path) : Bytes :=
  match fs.node file with
  | some (.file data _) => data
  | _ => []

def readKey (fs : FileSystem) (path file : Path) (answers : Answers) : Except String K :=
  let data := (contents fs file).take (maxIdentityFileSize + 1)
  match answers.read with
  | .error err => .error ("read private key " ++ pathText path ++ ": " ++ err)
  | .ok () =>
    match answers.close with
    | .error err => .error ("close private key " ++ pathText path ++ ": " ++ err)
    | .ok () =>
      if data.length > maxIdentityFileSize then
        .error ("private key " ++ pathText path ++ " exceeds " ++
          toString maxIdentityFileSize ++ " bytes")
      else
        match lib.unmarshalPrivateKey data with
        | .error err => .error ("read private key " ++ pathText path ++ ": " ++ err)
        | .ok key => .ok key

namespace Process

def fail (p : Process K) (err : String) : Process K := { p with phase := .returned (.error err) }

def openFile (p : Process K) (fs : FileSystem) : Phase K :=
  match fs.openRead p.path with
  | .ok file => .inspecting file
  | .error .noent => .making
  | .error err => .returned
      (.error ("read private key " ++ pathText p.path ++ ": " ++ pathError "open" p.path err))

def make (p : Process K) (fs : FileSystem) : Process K × FileSystem :=
  match fs.mkdirAll p.path.tail with
  | .error (path, err) =>
    (p.fail ("create identity directory: " ++ pathError "mkdir" path err), fs)
  | .ok fs =>
    match drawn lib keys p.draws with
    | .error err => (p.fail err, fs)
    | .ok (key, encoded) =>
      ({ p with phase := .creating key encoded, draws := p.draws + 1 }, fs)

def create (p : Process K) (key : K) (encoded : Bytes) (fs : FileSystem) :
    Process K × FileSystem :=
  match fs.openExclusive p.path 0o600 with
  | .ok (file, fs) => ({ p with phase := .writing file key encoded }, fs)
  | .error .exist => ({ p with phase := .opening }, fs)
  | .error err =>
    (p.fail ("create identity " ++ pathText p.path ++ ": " ++ pathError "open" p.path err), fs)

def abandon (p : Process K) (err : String) (fs : FileSystem) : Process K × FileSystem :=
  (p.fail err, fs.remove p.path)

def step (p : Process K) (answers : Answers) (fs : FileSystem) :
    Option (Process K × FileSystem) :=
  match p.phase with
  | .opening => some ({ p with phase := p.openFile fs }, fs)
  | .inspecting file => some ({ p with phase := inspect fs p.path file answers }, fs)
  | .reading file =>
    some ({ p with phase := .returned (readKey lib fs p.path file answers) }, fs)
  | .making => some (p.make lib keys fs)
  | .creating key encoded => some (p.create key encoded fs)
  | .writing file key encoded =>
    match answers.write with
    | .error err => some (p.abandon ("write identity " ++ pathText p.path ++ ": " ++ err) fs)
    | .ok () => some ({ p with phase := .protecting file key }, fs.write file encoded)
  | .protecting file key =>
    match answers.protect with
    | .error err => some (p.abandon ("protect identity " ++ pathText p.path ++ ": " ++ err) fs)
    | .ok () => some ({ p with phase := .closing key }, fs.chmod file 0o600)
  | .closing key =>
    match answers.close with
    | .error err => some (p.abandon err fs)
    | .ok () => some ({ p with phase := .returned (.ok key) }, fs)
  | .returned _ => none

/-- What one step of a call does, by what the file system and the open file answer. -/
inductive Took (p : Process K) (answers : Answers) (fs : FileSystem) :
    Process K → FileSystem → Prop where
  | opened (file : Path) (hphase : p.phase = .opening) (hopen : fs.openRead p.path = .ok file) :
      Took p answers fs { p with phase := .inspecting file } fs
  | absent (hphase : p.phase = .opening) (hopen : fs.openRead p.path = .error .noent) :
      Took p answers fs { p with phase := .making } fs
  | unopened (err : Errno) (text : String) (hphase : p.phase = .opening)
      (hopen : fs.openRead p.path = .error err) (herr : err ≠ .noent) :
      Took p answers fs (p.fail text) fs
  | inspected (file : Path) (data : Bytes) (mode : Nat) (hphase : p.phase = .inspecting file)
      (hnode : fs.node file = some (.file data mode)) :
      Took p answers fs { p with phase := .reading file } fs
  | uninspected (file : Path) (text : String) (hphase : p.phase = .inspecting file)
      (hbad : answers.stat = .ok () → ∀ data mode, fs.node file = some (.file data mode) →
        mode &&& 0o077 ≠ 0) : Took p answers fs (p.fail text) fs
  | read (file : Path) (hphase : p.phase = .reading file) :
      Took p answers fs { p with phase := .returned (readKey lib fs p.path file answers) } fs
  | unmade (err : Path × Errno) (text : String) (hphase : p.phase = .making)
      (hmkdir : fs.mkdirAll p.path.tail = .error err) : Took p answers fs (p.fail text) fs
  | undrawn (fs' : FileSystem) (text : String) (hphase : p.phase = .making)
      (hmkdir : fs.mkdirAll p.path.tail = .ok fs') (hdrawn : drawn lib keys p.draws = .error text) :
      Took p answers fs (p.fail text) fs'
  | made (fs' : FileSystem) (key : K) (encoded : Bytes) (hphase : p.phase = .making)
      (hmkdir : fs.mkdirAll p.path.tail = .ok fs')
      (hdrawn : drawn lib keys p.draws = .ok (key, encoded)) :
      Took p answers fs { p with phase := .creating key encoded, draws := p.draws + 1 } fs'
  | created (fs' : FileSystem) (file : Path) (key : K) (encoded : Bytes)
      (hphase : p.phase = .creating key encoded)
      (hcreate : fs.openExclusive p.path 0o600 = .ok (file, fs')) :
      Took p answers fs { p with phase := .writing file key encoded } fs'
  | existed (key : K) (encoded : Bytes) (hphase : p.phase = .creating key encoded)
      (hcreate : fs.openExclusive p.path 0o600 = .error .exist) :
      Took p answers fs { p with phase := .opening } fs
  | uncreated (err : Errno) (text : String) (key : K) (encoded : Bytes)
      (hphase : p.phase = .creating key encoded)
      (hcreate : fs.openExclusive p.path 0o600 = .error err) (herr : err ≠ .exist) :
      Took p answers fs (p.fail text) fs
  | wrote (file : Path) (key : K) (encoded : Bytes) (hphase : p.phase = .writing file key encoded) :
      Took p answers fs { p with phase := .protecting file key } (fs.write file encoded)
  | guarded (file : Path) (key : K) (hphase : p.phase = .protecting file key) :
      Took p answers fs { p with phase := .closing key } (fs.chmod file 0o600)
  | closed (key : K) (hphase : p.phase = .closing key) :
      Took p answers fs { p with phase := .returned (.ok key) } fs
  | abandoned (text : String)
      (hphase : (∃ file key encoded, p.phase = .writing file key encoded) ∨
        (∃ file key, p.phase = .protecting file key) ∨ ∃ key, p.phase = .closing key)
      (hbad : answers ≠ {}) : Took p answers fs (p.fail text) (fs.remove p.path)

theorem took_of_step {p p' : Process K} {answers : Answers} {fs fs' : FileSystem}
    (hstep : p.step lib keys answers fs = some (p', fs')) : Took lib keys p answers fs p' fs' := by
  unfold step at hstep
  cases hphase : p.phase with
  | opening =>
    simp only [hphase, Option.some.injEq, Prod.mk.injEq] at hstep
    obtain ⟨rfl, rfl⟩ := hstep
    unfold openFile
    split
    next file hopen =>
      exact .opened file hphase hopen
    next hopen =>
      exact .absent hphase hopen
    next err herr hopen =>
      exact .unopened err _ hphase hopen herr
  | inspecting file =>
    simp only [hphase, Option.some.injEq, Prod.mk.injEq] at hstep
    obtain ⟨rfl, rfl⟩ := hstep
    unfold inspect
    split
    next err hstat =>
      exact .uninspected file _ hphase fun hok => nomatch hstat.symm.trans hok
    split
    next data mode hnode =>
      unfold checkPermissions
      by_cases hmode : mode &&& 0o077 = 0
      · rw [if_neg (Classical.not_not.mpr hmode)]
        exact .inspected file data mode hphase hnode
      rw [if_pos hmode]
      refine .uninspected file _ hphase fun _ data' mode' hnode' => ?_
      cases hnode.symm.trans hnode'
      exact hmode
    next hnode =>
      exact .uninspected file _ hphase fun _ data mode hfile => absurd hfile (hnode data mode)
  | reading file =>
    simp only [hphase, Option.some.injEq, Prod.mk.injEq] at hstep
    obtain ⟨rfl, rfl⟩ := hstep
    exact .read file hphase
  | making =>
    simp only [hphase, Option.some.injEq] at hstep
    unfold make at hstep
    split at hstep
    next path err hmkdir =>
      cases hstep
      exact .unmade (path, err) _ hphase hmkdir
    next fs₁ hmkdir =>
      split at hstep
      next err hdrawn =>
        cases hstep
        exact .undrawn _ err hphase hmkdir hdrawn
      next key encoded hdrawn =>
        cases hstep
        exact .made _ key encoded hphase hmkdir hdrawn
  | creating key encoded =>
    simp only [hphase, Option.some.injEq] at hstep
    unfold create at hstep
    split at hstep
    next file fs₁ hcreate =>
      cases hstep
      exact .created _ file key encoded hphase hcreate
    next hcreate =>
      cases hstep
      exact .existed key encoded hphase hcreate
    next err herr hcreate =>
      cases hstep
      exact .uncreated err _ key encoded hphase hcreate herr
  | writing file key encoded =>
    simp only [hphase] at hstep
    split at hstep
    next err hwrite =>
      cases hstep
      exact .abandoned _ (.inl ⟨file, key, encoded, hphase⟩) (by rintro rfl; cases hwrite)
    · cases hstep
      exact .wrote file key encoded hphase
  | protecting file key =>
    simp only [hphase] at hstep
    split at hstep
    next err hprotect =>
      cases hstep
      exact .abandoned _ (.inr (.inl ⟨file, key, hphase⟩)) (by rintro rfl; cases hprotect)
    · cases hstep
      exact .guarded file key hphase
  | closing key =>
    simp only [hphase] at hstep
    split at hstep
    next err hclose =>
      cases hstep
      exact .abandoned _ (.inr (.inr ⟨key, hphase⟩)) (by rintro rfl; cases hclose)
    · cases hstep
      exact .closed key hphase
  | returned result =>
    simp only [hphase] at hstep
    cases hstep

theorem exists_step {p : Process K} (h : ∀ result, p.phase ≠ .returned result)
    (answers : Answers) (fs : FileSystem) : ∃ p' fs', p.step lib keys answers fs = some (p', fs') := by
  unfold step
  cases hphase : p.phase with
  | returned result => exact absurd hphase (h result)
  | opening | inspecting | reading | making | creating => exact ⟨_, _, rfl⟩
  | writing => cases answers.write <;> exact ⟨_, _, rfl⟩
  | protecting => cases answers.protect <;> exact ⟨_, _, rfl⟩
  | closing => cases answers.close <;> exact ⟨_, _, rfl⟩

end Process

def loadOrCreate (abs : String → Except String CleanPath) (path : String) : Process K :=
  if path = "" then { path := [], phase := .returned (keys 0) }
  else
    match abs path with
    | .error err => { path := [], phase := .returned (.error err) }
    | .ok absolute => { path := absolute.names, phase := .opening }

structure Alone (K : Type) where
  process : Process K
  fs : FileSystem

def Alone.step (s : Alone K) (answers : Answers) : Option (Alone K) :=
  match s.process.step lib keys answers s.fs with
  | none => none
  | some (process, fs) => some ⟨process, fs⟩

def Returns (s : Alone K) : Prop :=
  ∀ answers : Nat → Answers, ∃ n t result,
    Run (Alone.step lib keys) Any s ((range n).map answers) t ∧
      t.process.phase = .returned result

variable {lib keys} {s t : Alone K}

theorem returns_of_returned {result : Except String K} (h : s.process.phase = .returned result) :
    Returns lib keys s :=
  fun _ => ⟨0, s, result, .nil s, h⟩

theorem returns_of_step
    (h : ∀ answers, ∃ t, s.step lib keys answers = some t ∧ Returns lib keys t) :
    Returns lib keys s := by
  intro answers
  obtain ⟨t, hstep, ht⟩ := h (answers 0)
  obtain ⟨n, u, result, hrun, hresult⟩ := ht fun n => answers (n + 1)
  refine ⟨n + 1, u, result, ?_, hresult⟩
  rw [range_succ_eq_map, map_cons, map_map]
  exact .cons trivial hstep hrun

def Phase.rank : Phase K → Nat
  | .opening => 6
  | .making => 5
  | .creating .. => 4
  | .writing .. => 3
  | .protecting .. | .inspecting _ => 2
  | .closing _ | .reading _ => 1
  | .returned _ => 0

/-- The exclusive creation that the process comes to will not find the file. -/
def Ahead (s : Alone K) : Prop :=
  (∀ name ∈ s.process.path, Proper name) ∧
  match s.process.phase with
  | .opening => ¬ s.fs.Dangling s.process.path
  | .making => ¬ s.fs.Dangling s.process.path ∧ s.fs.stat s.process.path = .error .noent
  | .creating .. => ∀ new, s.fs.create s.process.path new ≠ .error .exist
  | _ => True

theorem Ahead.step (h : Ahead s) {answers : Answers}
    (hstep : s.step lib keys answers = some t) :
    Ahead t ∧ t.process.phase.rank < s.process.phase.rank := by
  obtain ⟨hproper, hahead⟩ := h
  unfold Alone.step at hstep
  split at hstep
  · cases hstep
  rename_i process fs htook
  cases hstep
  cases Process.took_of_step lib keys htook with
  | opened _ hphase | inspected _ _ _ hphase | created _ _ _ _ hphase | wrote _ _ _ hphase
  | guarded _ _ hphase | unopened _ _ hphase | uninspected _ _ hphase | read _ hphase
  | unmade _ _ hphase | undrawn _ _ hphase | uncreated _ _ _ _ hphase
  | closed _ hphase =>
    rw [hphase]
    exact ⟨⟨hproper, trivial⟩, by simp [Phase.rank, Process.fail]⟩
  | abandoned _ hphase =>
    refine ⟨⟨hproper, trivial⟩, ?_⟩
    rcases hphase with ⟨_, _, _, hphase⟩ | ⟨_, _, hphase⟩ | ⟨_, hphase⟩ <;>
      simp [hphase, Phase.rank, Process.fail]
  | absent hphase hopen =>
    simp only [hphase] at hahead ⊢
    exact ⟨⟨hproper, hahead, FileSystem.openRead_eq_noent.mp hopen⟩, Nat.lt_succ_self 5⟩
  | made _ key encoded hphase hmkdir =>
    simp only [hphase] at hahead ⊢
    exact ⟨⟨hproper, FileSystem.create_ne_exist hproper hahead.2 hahead.1 hmkdir⟩,
      Nat.lt_succ_self 4⟩
  | existed key encoded hphase hcreate =>
    simp only [hphase] at hahead
    exact absurd hcreate (hahead _)

theorem Ahead.returns (h : Ahead s) : Returns lib keys s := by
  induction hrank : s.process.phase.rank using Nat.strongRecOn generalizing s with
  | _ rank ih =>
    by_cases hreturned : ∃ result, s.process.phase = .returned result
    · obtain ⟨result, hresult⟩ := hreturned
      exact returns_of_returned hresult
    refine returns_of_step fun answers => ?_
    obtain ⟨p, fs, htook⟩ := Process.exists_step lib keys
      (fun result hresult => hreturned ⟨result, hresult⟩) answers s.fs
    have hstep : s.step lib keys answers = some ⟨p, fs⟩ := by rw [Alone.step, htook]
    obtain ⟨ht, hlt⟩ := h.step hstep
    exact ⟨_, hstep, ih _ (hrank ▸ hlt) ht rfl⟩

section Dangling
variable {path : Path} {fs : FileSystem} (hproper : ∀ name ∈ path, Proper name)
  (hdangling : fs.Dangling path)
include hproper hdangling

theorem dangling_opening (n : Nat) (answers : Answers) :
    Alone.step lib keys ⟨⟨path, .opening, n⟩, fs⟩ answers = some ⟨⟨path, .making, n⟩, fs⟩ := by
  simp only [Alone.step, Process.step, Process.openFile, (hdangling.calls hproper).1]

theorem dangling_making (n : Nat) (answers : Answers) :
    Alone.step lib keys ⟨⟨path, .making, n⟩, fs⟩ answers =
      match drawn lib keys n with
      | .error err => some ⟨⟨path, .returned (.error err), n⟩, fs⟩
      | .ok (key, encoded) => some ⟨⟨path, .creating key encoded, n + 1⟩, fs⟩ := by
  simp only [Alone.step, Process.step, Process.make, (hdangling.calls hproper).2.1]
  cases drawn lib keys n <;> rfl

theorem dangling_creating (key : K) (encoded : Bytes) (n : Nat) (answers : Answers) :
    Alone.step lib keys ⟨⟨path, .creating key encoded, n⟩, fs⟩ answers =
      some ⟨⟨path, .opening, n⟩, fs⟩ := by
  simp only [Alone.step, Process.step, Process.create, FileSystem.openExclusive,
    (hdangling.calls hproper).2.2]

theorem dangling_round {n : Nat}
    (hnext : ∀ key encoded, drawn lib keys n = .ok (key, encoded) →
      Returns lib keys ⟨⟨path, .opening, n + 1⟩, fs⟩) :
    Returns lib keys ⟨⟨path, .opening, n⟩, fs⟩ := by
  refine returns_of_step fun answers => ⟨_, dangling_opening hproper hdangling n answers, ?_⟩
  refine returns_of_step fun answers => ?_
  rw [dangling_making hproper hdangling n answers]
  cases hdrawn : drawn lib keys n with
  | error err => exact ⟨_, rfl, returns_of_returned rfl⟩
  | ok pair =>
    refine ⟨_, rfl, returns_of_step fun answers => ?_⟩
    exact ⟨_, dangling_creating hproper hdangling pair.1 pair.2 (n + 1) answers,
      hnext pair.1 pair.2 hdrawn⟩

theorem dangling_returns {n k : Nat} {err : String}
    (hfails : drawn lib keys (n + k) = .error err) :
    Returns lib keys ⟨⟨path, .opening, n⟩, fs⟩ := by
  induction k generalizing n with
  | zero =>
    refine dangling_round hproper hdangling fun key encoded hdrawn => ?_
    cases hfails.symm.trans hdrawn
  | succ k ih =>
    refine dangling_round hproper hdangling fun key encoded _ => ih ?_
    rw [Nat.add_assoc, Nat.add_comm 1]
    exact hfails

variable (hdraws : ∀ n, ∃ pair, drawn lib keys n = .ok pair)
include hdraws

theorem dangling_run {es : List Answers}
    (hrun : Run (Alone.step lib keys) Any ⟨⟨path, .opening, 0⟩, fs⟩ es t) :
    t.process.path = path ∧ t.fs = fs ∧ (t.process.phase = .opening ∨ t.process.phase = .making ∨
      ∃ key encoded, t.process.phase = .creating key encoded) := by
  refine hrun.invariant (I := fun t : Alone K => t.process.path = path ∧ t.fs = fs ∧
    (t.process.phase = .opening ∨ t.process.phase = .making ∨
      ∃ key encoded, t.process.phase = .creating key encoded)) ?_ ⟨rfl, rfl, .inl rfl⟩
  rintro ⟨⟨_, phase, n⟩, _⟩ answers t ⟨rfl, rfl, hphase⟩ _ hstep
  rcases hphase with hphase | hphase | ⟨key, encoded, hphase⟩ <;> simp only at hphase <;>
    subst hphase
  · rw [dangling_opening hproper hdangling] at hstep
    cases hstep
    exact ⟨rfl, rfl, .inr (.inl rfl)⟩
  · rw [dangling_making hproper hdangling] at hstep
    obtain ⟨pair, hdrawn⟩ := hdraws n
    rw [hdrawn] at hstep
    cases hstep
    exact ⟨rfl, rfl, .inr (.inr ⟨pair.1, pair.2, rfl⟩)⟩
  · rw [dangling_creating hproper hdangling] at hstep
    cases hstep
    exact ⟨rfl, rfl, .inl rfl⟩

theorem dangling_not_returned
    {es : List Answers} (hrun : Run (Alone.step lib keys) Any ⟨⟨path, .opening, 0⟩, fs⟩ es t)
    (result : Except String K) : t.process.phase ≠ .returned result := by
  intro hresult
  obtain ⟨-, -, hphase⟩ := dangling_run hproper hdangling hdraws hrun
  rw [hresult] at hphase
  rcases hphase with hphase | hphase | ⟨_, _, hphase⟩ <;> cases hphase

end Dangling

/-- `LoadOrCreate` returns exactly if its path is not a symbolic link to nothing, or one of its
draws of a key fails. -/
theorem loadOrCreate_returns_iff (lib : KeyLibrary K) (keys : Nat → Except String K)
    (abs : String → Except String CleanPath) (path : String) (fs : FileSystem) :
    Returns lib keys ⟨loadOrCreate keys abs path, fs⟩ ↔
      ∀ absolute, path ≠ "" → abs path = .ok absolute → fs.Dangling absolute.names →
        ∃ n err, drawn lib keys n = .error err := by
  unfold loadOrCreate
  split
  next hempty =>
    refine ⟨fun _ _ hne => absurd hempty hne, fun _ => returns_of_returned rfl⟩
  rename_i hne
  split
  next err habs =>
    refine ⟨fun _ absolute _ hok => ?_, fun _ => returns_of_returned rfl⟩
    cases habs.symm.trans hok
  next absolute habs =>
    constructor
    · intro hreturns absolute' _ habs' hdangling
      obtain rfl := Except.ok.inj (habs.symm.trans habs')
      refine Classical.byContradiction fun hno => ?_
      have hdraws : ∀ n, ∃ pair, drawn lib keys n = .ok pair := by
        intro n
        cases hdrawn : drawn lib keys n with
        | error err => exact absurd ⟨n, err, hdrawn⟩ hno
        | ok pair => exact ⟨pair, rfl⟩
      obtain ⟨n, t, result, hrun, hresult⟩ := hreturns fun _ => {}
      exact dangling_not_returned absolute.proper hdangling hdraws hrun result hresult
    · intro hfails
      by_cases hdangling : fs.Dangling absolute.names
      · obtain ⟨n, err, hdrawn⟩ := hfails absolute hne habs hdangling
        rw [← Nat.zero_add n] at hdrawn
        exact dangling_returns absolute.proper hdangling hdrawn
      · exact Ahead.returns ⟨absolute.proper, hdangling⟩

end Steps

section Example

def byteKeys : KeyLibrary UInt8 where
  marshalPrivateKey := fun key => .ok [key]
  unmarshalPrivateKey := fun data =>
    match data with
    | [key] => .ok key
    | _ => .error "proto: required field missing"

def keyPath : CleanPath where
  names := ["identity.key"]
  proper := by
    intro name hname
    obtain rfl := mem_singleton.mp hname
    exact ⟨by decide, by decide⟩

def brokenLink : FileSystem where
  node := fun path =>
    if path = [] then some .directory
    else if path = ["identity.key"] then some (.symlink ⟨false, ["missing.key"]⟩)
    else none
  allows := fun _ _ => true
  maxLinks := 40
  root := rfl
  parent := by
    intro name dir hnode
    rw [if_neg (cons_ne_nil name dir)] at hnode
    split at hnode
    next heq =>
      obtain ⟨-, rfl⟩ := cons.inj heq
      rfl
    · exact absurd rfl hnode

theorem load_through_broken_link :
    brokenLink.Dangling keyPath.names ∧ ∀ es t result,
      Run (Alone.step byteKeys fun _ => .ok 7) Any
        ⟨loadOrCreate (fun _ => .ok 7) (fun _ => .ok keyPath) "/identity.key", brokenLink⟩ es t →
      t.process.phase ≠ .returned result := by
  have hdangling : brokenLink.Dangling keyPath.names := ⟨⟨_, rfl⟩, rfl⟩
  refine ⟨hdangling, fun es t result hrun => ?_⟩
  exact dangling_not_returned keyPath.proper hdangling (fun n => ⟨_, rfl⟩) hrun result

end Example

end P2PNetcat.Identity
