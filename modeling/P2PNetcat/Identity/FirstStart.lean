import P2PNetcat.Identity.LoadOrCreate

/-!
# First starts at the same time

Any number of processes call `LoadOrCreate` on one path that does not exist yet.
Their system calls interleave in any order, and none of them fails.
-/

namespace P2PNetcat.Identity
open List Function Posix FileSystem StepSystem ByteCodec

structure KeyLibrary.Laws {K : Type} (lib : KeyLibrary K) : Prop where
  unmarshal_marshal : ∀ key encoded, lib.marshalPrivateKey key = .ok encoded →
    lib.unmarshalPrivateKey encoded = .ok key
  /-- Both fields of the encoding are required. -/
  unmarshal_nil : ∃ err, lib.unmarshalPrivateKey [] = .error err
  length_marshal : ∀ key encoded, lib.marshalPrivateKey key = .ok encoded →
    encoded.length ≤ maxIdentityFileSize

/-- What the calls of the processes find before and after the file is created. -/
structure Site (fs₀ fs₁ : FileSystem) (path file : Path) : Prop where
  absent : fs₀.openRead path = .error .noent
  made : fs₀.mkdirAll path.tail = .ok fs₁
  stillAbsent : fs₁.openRead path = .error .noent
  stillMade : fs₁.mkdirAll path.tail = .ok fs₁
  created : ∃ fs, fs₁.openExclusive path 0o600 = .ok (file, fs) ∧
    Replaces fs₁ file (.file [] 0o600) fs
  opened : ∀ {data fs}, Replaces fs₁ file (.file data 0o600) fs → fs.openRead path = .ok file
  madeLater : ∀ {data fs}, Replaces fs₁ file (.file data 0o600) fs →
    fs.mkdirAll path.tail = .ok fs
  existed : ∀ {data fs}, Replaces fs₁ file (.file data 0o600) fs →
    fs.openExclusive path 0o600 = .error .exist

theorem exists_site {fs₀ fs₁ : FileSystem} (path : CleanPath)
    (hrights : ∀ dir right, fs₀.allows dir right = true)
    (habsent : fs₀.lstat path.names = .error .noent)
    (hmade : fs₀.mkdirAll path.names.tail = .ok fs₁) :
    ∃ file, Site fs₀ fs₁ path.names file := by
  obtain ⟨names, hproper⟩ := path
  simp only at habsent hmade ⊢
  cases names with
  | nil => cases habsent.symm.trans (entry_nil false)
  | cons name dir =>
    obtain ⟨hname, hdir⟩ := forall_mem_cons.mp hproper
    have hallows : ∀ dir right, fs₁.allows dir right = true := by
      rw [mkdirAll_allows hmade]
      exact hrights
    have hnot : ∀ node, fs₁.lstat (name :: dir) ≠ .ok node := by
      intro node hnode
      rcases mkdirAll_eq_ok hdir hmade with rfl | hempty
      · cases habsent.symm.trans hnode
      · exact hempty name node hname hnode
    have hstat := stat_mkdirAll hmade
    obtain ⟨d, hparent, hd⟩ := entry_eq_ok.mp hstat
    have hlocate : fs₁.locate false (name :: dir) = .ok (name :: d) := by
      rw [locate_eq_ok, reverse_cons]
      exact (locate_eq_ok.mp hparent).snoc ⟨hd, hallows _ _⟩ hname fun _ _ => .inr rfl
    have hnone : fs₁.node (name :: d) = none := by
      refine Option.eq_none_iff_forall_ne_some.mpr ?_
      intro node hnode
      exact hnot node (entry_eq_ok.mpr ⟨_, hlocate, hnode⟩)
    have hfound : ∀ {data fs}, Replaces fs₁ (name :: d) (.file data 0o600) fs →
        fs.locate false (name :: dir) = .ok (name :: d) ∧
          fs.node (name :: d) = some (.file data 0o600) := by
      intro data fs hnew
      refine ⟨locate_new hlocate hnone hnew rfl, ?_⟩
      rw [hnew.node, update_self]
    refine ⟨name :: d, ⟨?_, hmade, ?_, mkdirAll_of_stat hstat, ?_, ?_, ?_, ?_⟩⟩
    · exact openRead_eq_noent.mpr (stat_of_lstat_noent habsent)
    · have hempty : ∀ node, fs₁.node (name :: d) = some node → node.link? = none := by
        intro node hnode
        rw [hnone] at hnode
        cases hnode
      rw [openRead, locate_follow hlocate hempty]
      simp only [hnone]
    · have hcreate : fs₁.openExclusive (name :: dir) 0o600 =
          .ok (name :: d, fs₁.set name d (some (.file [] 0o600))) := by
        rw [openExclusive, FileSystem.create, hlocate]
        simp only [hnone, ne_eq, not_true_eq_false, if_false, hallows, if_true]
      exact ⟨_, hcreate, (create_eq_ok hcreate).2.2⟩
    · intro data fs hnew
      obtain ⟨hlocate', hnode⟩ := hfound hnew
      have hfollow := locate_follow hlocate' fun node hnode' => by
        obtain rfl := Option.some.inj (hnode.symm.trans hnode')
        rfl
      rw [openRead, hfollow]
      simp only [hnode, hnew.allows, hallows, reduceCtorEq, if_false]
    · intro data fs hnew
      refine mkdirAll_of_stat (stat_extend (hnew.extends fun old hold => ?_) hstat)
      cases hnone.symm.trans hold
    · intro data fs hnew
      obtain ⟨hlocate', hnode⟩ := hfound hnew
      exact create_of_lstat (entry_eq_ok.mpr ⟨_, hlocate', hnode⟩)

structure FirstStart (K : Type) where
  procs : Nat → Process K
  fs : FileSystem

section Runs
variable {K : Type} (lib : KeyLibrary K) (keys : Nat → Nat → Except String K)
variable {answers : Answers} {encoded : Bytes} {fs : FileSystem} {key : K} {i : Nat} {p : Process K}

namespace FirstStart

def initial (path : CleanPath) (fs : FileSystem) : FirstStart K where
  procs := fun _ => { path := path.names, phase := .opening }
  fs := fs

def step (s : FirstStart K) (e : Nat × Answers) : Option (FirstStart K) :=
  match (s.procs e.1).step lib (keys e.1) e.2 s.fs with
  | none => none
  | some (process, fs) => some ⟨update s.procs e.1 process, fs⟩

def Fine (_ : FirstStart K) (e : Nat × Answers) : Prop := e.2 = {}

/-- Whoever reads the file reads it when its creator has written it. -/
def AfterWrite (s : FirstStart K) (e : Nat × Answers) : Prop :=
  ∀ file, (s.procs e.1).phase = .reading file → contents s.fs file ≠ []

def Agree (s : FirstStart K) : Prop := ∀ i j result result',
  (s.procs i).phase = .returned result → (s.procs j).phase = .returned result' →
  result = result' ∧ ∃ key, result = .ok key

end FirstStart

def Early : Phase K → Prop
  | .opening | .making => True
  | .creating key encoded => lib.marshalPrivateKey key = .ok encoded
  | _ => False

def Bystander (file : Path) : Phase K → Prop
  | .opening | .making | .creating .. | .returned _ => True
  | .inspecting opened | .reading opened => opened = file
  | .writing .. | .protecting .. | .closing _ => False

def Creator (file : Path) (key : K) (encoded data : Bytes) : Phase K → Prop
  | .writing opened mine text => opened = file ∧ mine = key ∧ text = encoded ∧ data = []
  | .protecting opened mine => opened = file ∧ mine = key ∧ data = encoded
  | .closing mine => mine = key ∧ data = encoded
  | .returned result => result = .ok key ∧ data = encoded
  | _ => False

/-- The file exists. In the good runs, all that has returned is the creator's key. -/
inductive Present (fs₁ : FileSystem) (file : Path) (good : Prop) (s : FirstStart K) : Prop where
  | intro (creator : Nat) (key : K) (encoded data : Bytes)
      (hmarshal : lib.marshalPrivateKey key = .ok encoded)
      (hfs : Replaces fs₁ file (.file data 0o600) s.fs)
      (hcreator : Creator file key encoded data (s.procs creator).phase)
      (hothers : ∀ i, i ≠ creator → Bystander file (s.procs i).phase)
      (hgood : good → ∀ i result, (s.procs i).phase = .returned result → result = .ok key)

inductive Stage (fs₀ fs₁ : FileSystem) (file : Path) (good : Prop) (s : FirstStart K) : Prop where
  | before (hphases : ∀ i, Early lib (s.procs i).phase)
      (hfs : s.fs = fs₁ ∨ s.fs = fs₀ ∧ ∀ i key encoded, (s.procs i).phase ≠ .creating key encoded)
  | after (h : Present lib fs₁ file good s)

variable {lib keys} {fs₀ fs₁ : FileSystem} {path file : Path} {good : Prop} {s t : FirstStart K}

theorem marshal_of_drawn {draws : Nat → Except String K} {n : Nat}
    (h : drawn lib draws n = .ok (key, encoded)) : lib.marshalPrivateKey key = .ok encoded := by
  rw [drawn] at h
  split at h
  · cases h
  split at h
  · cases h
  rename_i hmarshal
  cases h
  exact hmarshal

theorem Early.bystander {phase : Phase K} (h : Early lib phase) : Bystander file phase := by
  cases phase with
  | opening | making | creating => trivial
  | inspecting | reading | writing | protecting | closing | returned =>
    exact absurd h id

theorem Creator.data_eq {data : Bytes} {phase : Phase K}
    (h : Creator file key encoded data phase) : data = [] ∨ data = encoded := by
  cases phase with
  | writing => exact .inl h.2.2.2
  | protecting => exact .inr h.2.2
  | closing | returned => exact .inr h.2
  | opening | making | creating | inspecting | reading => exact absurd h id

theorem readKey_of_written (hlaws : lib.Laws) {mode : Nat}
    (hmarshal : lib.marshalPrivateKey key = .ok encoded)
    (hnode : fs.node file = some (.file encoded mode)) (path : Path) :
    readKey lib fs path file {} = .ok key := by
  have hlength := hlaws.length_marshal key encoded hmarshal
  have htake : (contents fs file).take (maxIdentityFileSize + 1) = encoded := by
    rw [contents, hnode]
    exact take_of_length_le (Nat.le_succ_of_le hlength)
  simp only [readKey, htake, if_neg (Nat.not_lt.mpr hlength),
    hlaws.unmarshal_marshal key encoded hmarshal]

theorem readKey_of_empty (hlaws : lib.Laws) (hempty : contents fs file = [])
    (path : Path) : ∃ err, readKey lib fs path file {} = .error err := by
  obtain ⟨err, herr⟩ := hlaws.unmarshal_nil
  refine ⟨"read private key " ++ pathText path ++ ": " ++ err, ?_⟩
  simp only [readKey, hempty, take_nil, length_nil, if_neg (Nat.not_lt_zero _), herr]

theorem phase_update {P : Nat → Phase K → Prop}
    (hself : P i p.phase) (hothers : ∀ j, j ≠ i → P j (s.procs j).phase) (j : Nat) :
    P j (update s.procs i p j).phase := by
  by_cases heq : j = i
  · subst heq
    rw [update_self]
    exact hself
  · rw [update_of_ne heq]
    exact hothers j heq

theorem Stage.took_before (hsite : Site fs₀ fs₁ path file)
    (hdraws : ∀ i n, ∃ pair, drawn lib (keys i) n = .ok pair)
    (hphases : ∀ i, Early lib (s.procs i).phase)
    (hfs : s.fs = fs₁ ∨ s.fs = fs₀ ∧ ∀ i key encoded, (s.procs i).phase ≠ .creating key encoded)
    (hpath : (s.procs i).path = path)
    (htook : Process.Took lib (keys i) (s.procs i) answers s.fs p fs) :
    Stage lib fs₀ fs₁ file good ⟨update s.procs i p, fs⟩ := by
  have hearly := hphases i
  have habsent : s.fs.openRead (s.procs i).path = .error .noent := by
    rw [hpath]
    rcases hfs with hfs | ⟨hfs, -⟩ <;> rw [hfs]
    · exact hsite.stillAbsent
    · exact hsite.absent
  have hmade : s.fs.mkdirAll (s.procs i).path.tail = .ok fs₁ := by
    rw [hpath]
    rcases hfs with hfs | ⟨hfs, -⟩ <;> rw [hfs]
    · exact hsite.stillMade
    · exact hsite.made
  have hcreatable : ∀ {key encoded}, (s.procs i).phase = .creating key encoded → s.fs = fs₁ := by
    intro key encoded hphase
    refine hfs.resolve_right ?_
    rintro ⟨-, hnone⟩
    exact hnone i key encoded hphase
  obtain ⟨fs', hcreated, hnew⟩ := hsite.created
  cases htook with
  | opened _ _ hopen => cases habsent.symm.trans hopen
  | absent =>
    refine .before (phase_update (P := fun _ => Early lib) trivial fun j _ => hphases j) ?_
    refine hfs.imp_right fun h => ⟨h.1, ?_⟩
    exact phase_update (P := fun _ phase => ∀ key encoded, phase ≠ .creating key encoded) nofun
      fun j _ => h.2 j
  | unopened err _ _ hopen herr => exact absurd (Except.error.inj (hopen.symm.trans habsent)) herr
  | inspected _ _ _ hphase | uninspected _ _ hphase | read _ hphase | wrote _ _ _ hphase
  | guarded _ _ hphase | closed _ hphase =>
    rw [hphase] at hearly
    exact absurd hearly id
  | abandoned _ hphase =>
    rcases hphase with ⟨_, _, _, hphase⟩ | ⟨_, _, hphase⟩ | ⟨_, hphase⟩ <;>
      · rw [hphase] at hearly
        exact absurd hearly id
  | unmade _ _ _ hmkdir => cases hmade.symm.trans hmkdir
  | undrawn _ _ _ _ hfails =>
    obtain ⟨pair, hdrawn⟩ := hdraws i (s.procs i).draws
    cases hfails.symm.trans hdrawn
  | made _ key encoded _ hmkdir hdrawn =>
    obtain rfl := Except.ok.inj (hmkdir.symm.trans hmade)
    exact .before (phase_update (P := fun _ => Early lib) (marshal_of_drawn hdrawn)
      fun j _ => hphases j) (.inl rfl)
  | created _ opened key encoded hphase hcreate =>
    rw [hcreatable hphase, hpath] at hcreate
    obtain ⟨rfl, rfl⟩ := Prod.mk.inj (Except.ok.inj (hcreate.symm.trans hcreated))
    rw [hphase] at hearly
    refine .after (.intro i key encoded [] hearly hnew ?_ ?_ ?_)
    · simp only [update_self]
      exact ⟨rfl, rfl, rfl, rfl⟩
    · intro j hne
      simp only [update_of_ne hne]
      exact (hphases j).bystander
    · intro _ j result
      refine phase_update (P := fun _ phase => phase = .returned result → result = .ok key)
        (fun h => by cases h) ?_ j
      intro k _ hreturned
      have hk := hphases k
      rw [hreturned] at hk
      exact absurd hk id
  | existed key encoded hphase hcreate | uncreated _ _ key encoded hphase hcreate =>
    rw [hcreatable hphase, hpath] at hcreate
    cases hcreated.symm.trans hcreate

section After
variable {creator : Nat} {key : K} {encoded data : Bytes}
  (hmarshal : lib.marshalPrivateKey key = .ok encoded)
  (hfs : Replaces fs₁ file (.file data 0o600) s.fs)
  (hcreator : Creator file key encoded data (s.procs creator).phase)
  (hothers : ∀ i, i ≠ creator → Bystander file (s.procs i).phase)
  (hgood : good → ∀ i result, (s.procs i).phase = .returned result → result = .ok key)
include hmarshal hfs hcreator hothers hgood

theorem Present.bystander_moved {i : Nat} (hne : i ≠ creator) {p : Process K}
    (hp : Bystander file p.phase)
    (hresult : good → ∀ result, p.phase = .returned result → result = .ok key) :
    Present lib fs₁ file good ⟨update s.procs i p, s.fs⟩ := by
  refine .intro creator key encoded data hmarshal hfs ?_ ?_ ?_
  · simp only [update_of_ne hne.symm]
    exact hcreator
  · exact phase_update (P := fun j phase => j ≠ creator → Bystander file phase) (fun _ => hp)
      fun j _ => hothers j
  · intro hg
    exact phase_update (P := fun _ phase => ∀ result, phase = .returned result → result = .ok key)
      (hresult hg) fun j _ => hgood hg j

omit hcreator in
theorem Present.creator_moved {p : Process K} {fs : FileSystem} {data' : Bytes}
    (hfs' : Replaces s.fs file (.file data' 0o600) fs)
    (hp : Creator file key encoded data' p.phase) :
    Present lib fs₁ file good ⟨update s.procs creator p, fs⟩ := by
  refine .intro creator key encoded data' hmarshal (hfs.trans hfs') ?_ ?_ ?_
  · simp only [update_self]
    exact hp
  · exact phase_update (P := fun j phase => j ≠ creator → Bystander file phase)
      (fun hne => absurd rfl hne) fun j _ => hothers j
  · intro hg
    refine phase_update (P := fun _ phase => ∀ result, phase = .returned result → result = .ok key)
      ?_ fun j _ => hgood hg j
    intro result hreturned
    rw [hreturned] at hp
    exact hp.1

end After

theorem Present.took (h : Present lib fs₁ file good s) (hsite : Site fs₀ fs₁ path file)
    (hlaws : lib.Laws) (hdraws : ∀ i n, ∃ pair, drawn lib (keys i) n = .ok pair)
    (hpath : (s.procs i).path = path) (hfine : answers = {})
    (hafter : good → s.AfterWrite (i, answers))
    (htook : Process.Took lib (keys i) (s.procs i) answers s.fs p fs) :
    Present lib fs₁ file good ⟨update s.procs i p, fs⟩ := by
  obtain ⟨creator, key, encoded, data, hmarshal, hfs, hcreator, hothers, hgood⟩ := h
  have hopened := hsite.opened hfs
  have hmade := hsite.madeLater hfs
  have hexisted := hsite.existed hfs
  rw [← hpath] at hopened hmade hexisted
  have hnode : s.fs.node file = some (.file data 0o600) := by rw [hfs.node, update_self]
  by_cases hself : i = creator
  · subst hself
    cases htook with
    | opened _ hphase | absent hphase | unopened _ _ hphase | inspected _ _ _ hphase
    | uninspected _ _ hphase | read _ hphase | unmade _ _ hphase | undrawn _ _ hphase
    | made _ _ _ hphase | created _ _ _ _ hphase | existed _ _ hphase
    | uncreated _ _ _ _ hphase =>
      rw [hphase] at hcreator
      exact absurd hcreator id
    | wrote opened mine text hphase =>
      rw [hphase] at hcreator
      obtain ⟨rfl, rfl, rfl, rfl⟩ := hcreator
      have hwrite := replaces_setFile hnode fun old mode => .file (text ++ old.drop text.length) mode
      rw [drop_nil, append_nil] at hwrite
      exact .creator_moved hmarshal hfs hothers hgood hwrite ⟨rfl, rfl, rfl⟩
    | guarded opened mine hphase =>
      rw [hphase] at hcreator
      obtain ⟨rfl, rfl, rfl⟩ := hcreator
      exact .creator_moved hmarshal hfs hothers hgood
        (replaces_setFile hnode fun data _ => .file data 0o600) ⟨rfl, rfl⟩
    | closed mine hphase =>
      rw [hphase] at hcreator
      obtain ⟨rfl, rfl⟩ := hcreator
      exact .creator_moved hmarshal hfs hothers hgood (.refl hnode) ⟨rfl, rfl⟩
    | abandoned _ _ hbad => exact absurd hfine hbad
  · have hother := hothers i hself
    cases htook with
    | opened opened hphase hopen =>
      obtain rfl := Except.ok.inj (hopen.symm.trans hopened)
      exact .bystander_moved hmarshal hfs hcreator hothers hgood hself rfl nofun
    | absent _ hopen | unopened _ _ _ hopen => cases hopened.symm.trans hopen
    | inspected opened _ _ hphase =>
      rw [hphase] at hother
      exact .bystander_moved hmarshal hfs hcreator hothers hgood hself hother nofun
    | uninspected opened _ hphase hbad =>
      rw [hphase] at hother
      obtain rfl : opened = file := hother
      exact absurd (by decide) (hbad (by rw [hfine]) data 0o600 hnode)
    | read opened hphase =>
      rw [hphase] at hother
      obtain rfl : opened = file := hother
      refine .bystander_moved hmarshal hfs hcreator hothers hgood hself trivial ?_
      intro hg result hresult
      obtain rfl := Phase.returned.inj hresult
      have hwritten := hafter hg opened hphase
      rw [contents, hnode] at hwritten
      obtain rfl := hcreator.data_eq.resolve_left hwritten
      rw [hfine]
      exact readKey_of_written hlaws hmarshal hnode (s.procs i).path
    | unmade _ _ _ hmkdir => cases hmade.symm.trans hmkdir
    | undrawn _ _ _ _ hfails =>
      obtain ⟨pair, hdrawn⟩ := hdraws i (s.procs i).draws
      cases hfails.symm.trans hdrawn
    | made _ mine text _ hmkdir =>
      obtain rfl := Except.ok.inj (hmkdir.symm.trans hmade)
      exact .bystander_moved hmarshal hfs hcreator hothers hgood hself trivial nofun
    | created _ _ _ _ _ hcreate => cases hexisted.symm.trans hcreate
    | existed =>
      exact .bystander_moved hmarshal hfs hcreator hothers hgood hself trivial nofun
    | uncreated err _ _ _ _ hcreate herr =>
      exact absurd (Except.error.inj (hcreate.symm.trans hexisted)) herr
    | wrote _ _ _ hphase | guarded _ _ hphase | closed _ hphase =>
      rw [hphase] at hother
      exact absurd hother id
    | abandoned _ _ hbad => exact absurd hfine hbad

/-- What every run keeps: the processes work on the one path, at one of the two stages. -/
structure Starting (lib : KeyLibrary K) (fs₀ fs₁ : FileSystem) (path file : Path) (good : Prop)
    (s : FirstStart K) : Prop where
  path_eq : ∀ i, (s.procs i).path = path
  stage : Stage lib fs₀ fs₁ file good s

theorem Process.Took.path_eq {draws : Nat → Except String K} {p' : Process K}
    {fs' : FileSystem} (h : p.Took lib draws answers fs p' fs') :
    p'.path = p.path := by
  cases h <;> rfl

variable {e : Nat × Answers}

theorem FirstStart.exists_took (hstep : s.step lib keys e = some t) :
    ∃ p fs, Process.Took lib (keys e.1) (s.procs e.1) e.2 s.fs p fs ∧
      t = ⟨update s.procs e.1 p, fs⟩ := by
  rw [step] at hstep
  split at hstep
  · cases hstep
  next p fs hp =>
    exact ⟨p, fs, Process.took_of_step lib (keys e.1) hp, (Option.some.inj hstep).symm⟩

section Invariant
variable (hsite : Site fs₀ fs₁ path file) (hlaws : lib.Laws)
  (hdraws : ∀ i n, ∃ pair, drawn lib (keys i) n = .ok pair)
include hsite hlaws hdraws

theorem Starting.step (h : Starting lib fs₀ fs₁ path file good s)
    (hfine : s.Fine e) (hafter : good → s.AfterWrite e) (hstep : s.step lib keys e = some t) :
    Starting lib fs₀ fs₁ path file good t := by
  obtain ⟨p, fs, htook, rfl⟩ := FirstStart.exists_took hstep
  refine ⟨?_, ?_⟩
  · intro i
    by_cases heq : i = e.1
    · subst heq
      simp only [update_self]
      rw [htook.path_eq]
      exact h.path_eq e.1
    · simp only [update_of_ne heq]
      exact h.path_eq i
  · cases h.stage with
    | before hphases hfs => exact .took_before hsite hdraws hphases hfs (h.path_eq e.1) htook
    | after hpresent =>
      exact .after (hpresent.took hsite hlaws hdraws (h.path_eq e.1) hfine hafter htook)

theorem Starting.run {es : List (Nat × Answers)} (h : Starting lib fs₀ fs₁ path file good s)
    (hrun : Run (FirstStart.step lib keys)
      (fun s e => s.Fine e ∧ (good → s.AfterWrite e)) s es t) :
    Starting lib fs₀ fs₁ path file good t :=
  hrun.invariant (fun hs hok hstep => hs.step hsite hlaws hdraws hok.1 hok.2 hstep) h

omit hlaws hdraws in
theorem Starting.present_of_openRead (h : Starting lib fs₀ fs₁ path file good s) {opened : Path}
    (hopen : s.fs.openRead path = .ok opened) : Present lib fs₁ file good s := by
  cases h.stage with
  | before _ hfs =>
    rcases hfs with hfs | ⟨hfs, -⟩ <;> rw [hfs] at hopen
    · cases hsite.stillAbsent.symm.trans hopen
    · cases hsite.absent.symm.trans hopen
  | after hpresent => exact hpresent

omit hlaws hdraws in
theorem Present.openRead (h : Present lib fs₁ file good s) : s.fs.openRead path = .ok file := by
  obtain ⟨_, _, _, _, _, hfs, _, _, _⟩ := h
  exact hsite.opened hfs

omit hlaws hdraws in
theorem Starting.present_of_exist (h : Starting lib fs₀ fs₁ path file good s) {i : Nat} {key : K}
    {encoded : Bytes} (hphase : (s.procs i).phase = .creating key encoded)
    (hcreate : s.fs.openExclusive path 0o600 = .error .exist) : Present lib fs₁ file good s := by
  cases h.stage with
  | before _ hfs =>
    rcases hfs with hfs | ⟨-, hnone⟩
    · obtain ⟨fs, hcreated, -⟩ := hsite.created
      rw [hfs] at hcreate
      cases hcreated.symm.trans hcreate
    · exact absurd hphase (hnone i key encoded)
  | after hpresent => exact hpresent

def FirstStart.rank (path : Path) (s : FirstStart K) (i : Nat) : Nat :=
  match (s.procs i).phase with
  | .opening =>
    match s.fs.openRead path with
    | .ok _ => 3
    | .error _ => 6
  | phase => phase.rank

variable (h : Starting lib fs₀ fs₁ path file good s)
include h

theorem Starting.rank_step
    (hfine : s.Fine e) (hafter : good → s.AfterWrite e) (hstep : s.step lib keys e = some t) :
    t.rank path e.1 < s.rank path e.1 ∧ ∀ j, j ≠ e.1 → t.rank path j ≤ s.rank path j := by
  obtain ⟨p, fs, htook, rfl⟩ := FirstStart.exists_took hstep
  refine ⟨?_, ?_⟩
  · have hpath := h.path_eq e.1
    simp only [FirstStart.rank, update_self]
    cases htook with
    | opened _ hphase hopen | absent hphase hopen =>
      rw [hpath] at hopen
      simp only [hphase, hopen, Phase.rank]
      decide
    | existed _ _ hphase hcreate =>
      rw [hpath] at hcreate
      simp only [hphase, (h.present_of_exist hsite hphase hcreate).openRead hsite, Phase.rank]
      decide
    | unopened err _ hphase hopen =>
      rw [hpath] at hopen
      simp only [hphase, hopen, Phase.rank, Process.fail]
      decide
    | inspected _ _ _ hphase | uninspected _ _ hphase | read _ hphase | unmade _ _ hphase
    | undrawn _ _ hphase | made _ _ _ hphase | created _ _ _ _ hphase
    | uncreated _ _ _ _ hphase | wrote _ _ _ hphase | guarded _ _ hphase | closed _ hphase =>
      simp only [hphase, Phase.rank, Process.fail]
      decide
    | abandoned _ _ hbad => exact absurd hfine hbad
  · intro j hne
    simp only [FirstStart.rank, update_of_ne hne]
    split
    · cases hbefore : s.fs.openRead path with
      | error err =>
        cases fs.openRead path with
        | error err' => exact Nat.le_refl 6
        | ok opened => exact Nat.le_add_right 3 3
      | ok opened =>
        -- the file does not go away
        have hpresent := (h.present_of_openRead hsite hbefore).took hsite hlaws hdraws
          (h.path_eq e.1) hfine hafter htook
        have hopen : fs.openRead path = .ok file := hpresent.openRead hsite
        simp only [hopen]
        decide
    · exact Nat.le_refl _

theorem Starting.count_le {es : List (Nat × Answers)}
    (hrun : Run (FirstStart.step lib keys)
      (fun s e => s.Fine e ∧ (good → s.AfterWrite e)) s es t) (i : Nat) :
    es.countP (fun e => e.1 == i) + t.rank path i ≤ s.rank path i := by
  induction hrun with
  | nil s => exact Nat.le_of_eq (Nat.zero_add _)
  | @cons s u t e es hok hstep _ ih =>
    obtain ⟨hself, hothers⟩ := h.rank_step hsite hlaws hdraws hok.1 hok.2 hstep
    have hrest := ih (h.step hsite hlaws hdraws hok.1 hok.2 hstep)
    rw [countP_cons]
    by_cases heq : e.1 = i
    · subst heq
      simp only [beq_self_eq_true, if_true]
      omega
    · have := hothers i (Ne.symm heq)
      simp only [beq_eq_false_iff_ne.mpr heq, Bool.false_eq_true, if_false]
      omega

end Invariant

theorem FirstStart.returned_of_run {ok : FirstStart K → Nat × Answers → Prop}
    {es : List (Nat × Answers)} (hrun : Run (step lib keys) ok s es t)
    {result : Except String K} (h : (s.procs i).phase = .returned result) :
    (t.procs i).phase = .returned result := by
  refine hrun.invariant (I := fun s => (s.procs i).phase = .returned result) ?_ h
  intro s e t hs _ hstep
  rw [step] at hstep
  split at hstep
  · cases hstep
  rename_i p fs hp
  cases hstep
  simp only
  rw [update_of_ne]
  · exact hs
  · rintro rfl
    rw [Process.step, hs] at hp
    cases hp

theorem FirstStart.early_read (hlaws : lib.Laws) {es : List (Nat × Answers)}
    (hrun : Run (step lib keys) Fine s es t) :
    Run (step lib keys) (fun s e => s.Fine e ∧ s.AfterWrite e) s es t ∨
      ∃ i err, (t.procs i).phase = .returned (.error err) := by
  induction hrun with
  | nil s => exact .inl (.nil s)
  | @cons s u t e es hfine hstep hrest ih =>
    by_cases hafter : s.AfterWrite e
    · exact ih.imp_left fun hrun => .cons ⟨hfine, hafter⟩ hstep hrun
    right
    unfold AfterWrite at hafter
    push Not at hafter
    obtain ⟨file, hphase, hempty⟩ := hafter
    obtain ⟨err, herr⟩ := readKey_of_empty hlaws hempty (s.procs e.1).path
    refine ⟨e.1, err, returned_of_run hrest ?_⟩
    rw [step, Process.step, hphase] at hstep
    cases hstep
    simp only [update_self]
    rw [show e.2 = {} from hfine, herr]

/-- First starts agree on one key exactly if nobody reads the file between its creation and its
write; in any case each call has returned after six of its own steps. -/
theorem first_starts_agree_iff (lib : KeyLibrary K) (keys : Nat → Nat → Except String K)
    (path : CleanPath) {fs₀ fs₁ : FileSystem} (hlaws : lib.Laws)
    (hdraws : ∀ i n, ∃ pair, drawn lib (keys i) n = .ok pair)
    (hrights : ∀ dir right, fs₀.allows dir right = true)
    (habsent : fs₀.lstat path.names = .error .noent)
    (hmade : fs₀.mkdirAll path.names.tail = .ok fs₁)
    {es : List (Nat × Answers)} {s : FirstStart K}
    (hrun : Run (FirstStart.step lib keys) FirstStart.Fine (.initial path fs₀) es s) :
    (s.Agree ↔ Run (FirstStart.step lib keys) (fun s e => s.Fine e ∧ s.AfterWrite e)
      (.initial path fs₀) es s) ∧
    ∀ i, es.countP (fun e => e.1 == i) ≤ 6 ∧
      ((∀ result, (s.procs i).phase ≠ .returned result) →
        ∃ t, s.step lib keys (i, {}) = some t) := by
  obtain ⟨file, hsite⟩ := exists_site path hrights habsent hmade
  have hinitial : ∀ good, Starting lib fs₀ fs₁ path.names file good (.initial path fs₀) :=
    fun good => ⟨fun _ => rfl, .before (fun _ => trivial) (.inr ⟨rfl, fun _ _ _ => nofun⟩)⟩
  refine ⟨⟨?_, ?_⟩, ?_⟩
  · intro hagree
    refine (FirstStart.early_read hlaws hrun).resolve_right ?_
    rintro ⟨i, err, hreturned⟩
    obtain ⟨-, key, hkey⟩ := hagree i i _ _ hreturned hreturned
    cases hkey
  · intro hafter
    have hgood := (hinitial True).run hsite hlaws hdraws
      (hafter.mono fun s e h => ⟨h.1, fun _ => h.2⟩)
    intro i j result result' hi hj
    cases hgood.stage with
    | before hphases =>
      have hearly := hphases i
      rw [hi] at hearly
      exact absurd hearly id
    | after hpresent =>
      obtain ⟨_, key, _, _, _, _, _, _, hresults⟩ := hpresent
      have hfirst := hresults trivial i result hi
      have hsecond := hresults trivial j result' hj
      exact ⟨hfirst.trans hsecond.symm, key, hfirst⟩
  · intro i
    refine ⟨?_, ?_⟩
    · have hcount := (hinitial False).count_le hsite hlaws hdraws
        (hrun.mono fun s e h => ⟨h, False.elim⟩) i
      have hrank : (FirstStart.initial path fs₀ : FirstStart K).rank path.names i = 6 := by
        simp only [FirstStart.rank, FirstStart.initial, hsite.absent]
      omega
    · intro hphase
      obtain ⟨p, fs, hstep⟩ := Process.exists_step lib (keys i) hphase {} s.fs
      exact ⟨⟨update s.procs i p, fs⟩, by rw [FirstStart.step, hstep]⟩

end Runs

section Example

theorem byteKeys_laws : byteKeys.Laws where
  unmarshal_marshal := by
    intro key encoded h
    cases h
    rfl
  unmarshal_nil := ⟨_, rfl⟩
  length_marshal := by
    intro key encoded h
    cases h
    exact (by decide : 1 ≤ maxIdentityFileSize)

def numbered : Nat → Nat → Except String UInt8 := fun i _ => .ok i.toUInt8

def emptyDisk : FileSystem where
  node := fun path => if path = [] then some .directory else none
  allows := fun _ _ => true
  maxLinks := 40
  root := rfl
  parent := by
    intro name dir hnode
    rw [if_neg (cons_ne_nil name dir)] at hnode
    exact absurd rfl hnode

def orderly : List (Nat × Answers) :=
  [(0, {}), (1, {}), (0, {}), (1, {}), (0, {}), (0, {}), (1, {}), (1, {}), (1, {}), (1, {}), (0, {}),
    (0, {})]

theorem first_starts_agree_iff_example : ∃ s,
    Run (FirstStart.step byteKeys numbered) FirstStart.Fine (.initial keyPath emptyDisk) orderly s ∧
    (s.procs 1).phase = .returned (.ok 0) ∧ s.Agree := by
  have hrun : ∃ s, Run (FirstStart.step byteKeys numbered) (fun s e => s.Fine e ∧ s.AfterWrite e)
      (.initial keyPath emptyDisk) orderly s ∧ (s.procs 1).phase = .returned (.ok 0) := by
    refine ⟨_, .cons ⟨rfl, fun _ h => ?_⟩ rfl (.cons ⟨rfl, fun _ h => ?_⟩ rfl
      (.cons ⟨rfl, fun _ h => ?_⟩ rfl (.cons ⟨rfl, fun _ h => ?_⟩ rfl
      (.cons ⟨rfl, fun _ h => ?_⟩ rfl (.cons ⟨rfl, fun _ h => ?_⟩ rfl
      (.cons ⟨rfl, fun _ h => ?_⟩ rfl (.cons ⟨rfl, fun _ h => ?_⟩ rfl
      (.cons ⟨rfl, fun _ h => ?_⟩ rfl (.cons ⟨rfl, fun _ h => ?_⟩ rfl
      (.cons ⟨rfl, fun _ h => ?_⟩ rfl (.cons ⟨rfl, fun _ h => ?_⟩ rfl (.nil _)))))))))))), rfl⟩
    all_goals
      cases h
    exact cons_ne_nil _ _
  obtain ⟨s, hrun, hreturned⟩ := hrun
  have hfine := hrun.mono fun s e h => h.1
  exact ⟨s, hfine, hreturned, (first_starts_agree_iff byteKeys numbered keyPath byteKeys_laws
    (fun _ _ => ⟨_, rfl⟩) (fun _ _ => rfl) rfl rfl hfine).1.mpr hrun⟩

/-- The second process opens and reads the file when the first has created it but not yet written. -/
def hasty : List (Nat × Answers) :=
  [(0, {}), (0, {}), (0, {}), (1, {}), (1, {}), (1, {}), (0, {}), (0, {}), (0, {})]

theorem first_start_reads_empty_file : ∃ s,
    Run (FirstStart.step byteKeys numbered) FirstStart.Fine (.initial keyPath emptyDisk) hasty s ∧
    (s.procs 0).phase = .returned (.ok 0) ∧
    (s.procs 1).phase = .returned
      (.error "read private key /identity.key: proto: required field missing") := by
  refine ⟨_, .cons rfl rfl (.cons rfl rfl (.cons rfl rfl (.cons rfl rfl (.cons rfl rfl
    (.cons rfl rfl (.cons rfl rfl (.cons rfl rfl (.cons rfl rfl (.nil _))))))))), rfl, rfl⟩

end Example

end P2PNetcat.Identity
