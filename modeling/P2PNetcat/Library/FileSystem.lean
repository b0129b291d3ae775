import Mathlib.Logic.Function.Basic

/-!
# A file system with symbolic links

Paths list their names from the last to the first. A walk takes the names of a
path in order and follows the symbolic links it meets, up to a limit; the last
name may be one that its directory does not have.
-/

namespace Posix
open List Function

inductive Errno where
  | noent | exist | acces | notdir | loop | nxio
  deriving DecidableEq

def Errno.text : Errno → String
  | .noent => "no such file or directory"
  | .exist => "file exists"
  | .acces => "permission denied"
  | .notdir => "not a directory"
  | .loop => "too many levels of symbolic links"
  | .nxio => "no such device or address"

abbrev Path := List String

structure Link where
  absolute : Bool
  names : List String
  deriving DecidableEq

inductive Node where
  | file (data : List UInt8) (mode : Nat)
  | directory
  | symlink (link : Link)
  | device (ready : Bool)
  deriving DecidableEq

inductive Right where
  | read | write | search
  deriving DecidableEq

structure FileSystem where
  node : Path → Option Node
  allows : Path → Right → Bool
  maxLinks : Nat
  root : node [] = some .directory
  parent : ∀ {name dir}, node (name :: dir) ≠ none → node dir = some .directory

def Node.link? : Node → Option Link
  | .symlink link => some link
  | .file .. | .directory | .device _ => none

def Link.start (link : Link) (dir : Path) : Path := if link.absolute = true then [] else dir

def Proper (name : String) : Prop := name ≠ "." ∧ name ≠ ".."

namespace FileSystem

def lookup (fs : FileSystem) (dir : Path) (name : String) : Except Errno (Option Node) :=
  match fs.node dir with
  | none => .error .noent
  | some .directory =>
    if fs.allows dir .search = true then .ok (fs.node (name :: dir)) else .error .acces
  | some _ => .error .notdir

/-- The walk up to the next link, from which `jump` goes on. -/
def walkNames (fs : FileSystem) (jump : Path → List String → Except Errno Path) (follow : Bool) :
    Path → List String → Except Errno Path
  | dir, [] => .ok dir
  | dir, name :: rest =>
    match fs.lookup dir name with
    | .error err => .error err
    | .ok found =>
      if name = "." then walkNames fs jump follow dir rest
      else if name = ".." then walkNames fs jump follow dir.tail rest
      else
        match found with
        | none => if rest = [] then .ok (name :: dir) else .error .noent
        | some node =>
          match node.link? with
          | none => walkNames fs jump follow (name :: dir) rest
          | some link =>
            if rest = [] ∧ follow = false then .ok (name :: dir)
            else jump (link.start dir) (link.names ++ rest)

/-- The walk with so many links left to follow; the last one only if `follow` says so. -/
def walk (fs : FileSystem) (follow : Bool) : Nat → Path → List String → Except Errno Path
  | 0 => fs.walkNames (fun _ _ => .error .loop) follow
  | links + 1 => fs.walkNames (fs.walk follow links) follow

def locate (fs : FileSystem) (follow : Bool) (path : Path) : Except Errno Path :=
  fs.walk follow fs.maxLinks [] path.reverse

def entry (fs : FileSystem) (follow : Bool) (path : Path) : Except Errno Node :=
  match fs.locate follow path with
  | .error err => .error err
  | .ok target =>
    match fs.node target with
    | none => .error .noent
    | some node => .ok node

def stat (fs : FileSystem) (path : Path) : Except Errno Node := fs.entry true path

def lstat (fs : FileSystem) (path : Path) : Except Errno Node := fs.entry false path

def set (fs : FileSystem) (name : String) (dir : Path) (new : Option Node) : FileSystem :=
  if h : fs.node dir = some .directory ∧ fs.node (name :: dir) ≠ some .directory then
    { fs with
      node := update fs.node (name :: dir) new
      root := by
        rw [update_of_ne (cons_ne_nil name dir).symm]
        exact fs.root
      parent := by
        intro name' dir' hnode
        by_cases heq : name' :: dir' = name :: dir
        · obtain ⟨-, rfl⟩ := cons.inj heq
          rw [update_of_ne (cons_ne_self name dir').symm]
          exact h.1
        · rw [update_of_ne heq] at hnode
          have hparent := fs.parent hnode
          rw [update_of_ne]
          · exact hparent
          · rintro rfl
            exact h.2 hparent }
  else fs

/-- A new entry, where the last name of the path stands for nothing, not even a broken link. -/
def create (fs : FileSystem) (path : Path) (new : Node) : Except Errno (Path × FileSystem) :=
  match fs.locate false path with
  | .error err => .error err
  | .ok [] => .error .exist
  | .ok (name :: dir) =>
    if fs.node (name :: dir) ≠ none then .error .exist
    else if fs.allows dir .write = true then .ok (name :: dir, fs.set name dir (some new))
    else .error .acces

def openExclusive (fs : FileSystem) (path : Path) (mode : Nat) : Except Errno (Path × FileSystem) :=
  fs.create path (.file [] mode)

def openRead (fs : FileSystem) (path : Path) : Except Errno Path :=
  match fs.locate true path with
  | .error err => .error err
  | .ok target =>
    match fs.node target with
    | none => .error .noent
    | some node =>
      if fs.allows target .read = false then .error .acces
      else if node = .device false then .error .nxio
      else .ok target

def setFile (fs : FileSystem) (target : Path) (f : List UInt8 → Nat → Node) : FileSystem :=
  match target with
  | [] => fs
  | name :: dir =>
    match fs.node (name :: dir) with
    | some (.file data mode) => fs.set name dir (some (f data mode))
    | _ => fs

def write (fs : FileSystem) (target : Path) (data : List UInt8) : FileSystem :=
  fs.setFile target fun old mode => .file (data ++ old.drop data.length) mode

def chmod (fs : FileSystem) (target : Path) (mode : Nat) : FileSystem :=
  fs.setFile target fun data _ => .file data mode

def remove (fs : FileSystem) (path : Path) : FileSystem :=
  match fs.locate false path with
  | .ok (name :: dir) => fs.set name dir none
  | _ => fs

/-- Go's `os.MkdirAll`; an error comes with the path it is about. -/
def mkdirAll (fs : FileSystem) : Path → Except (Path × Errno) FileSystem
  | [] => .ok fs
  | name :: dir =>
    match fs.stat (name :: dir) with
    | .ok node => if node = .directory then .ok fs else .error (name :: dir, .notdir)
    | .error _ =>
      match fs.mkdirAll dir with
      | .error err => .error err
      | .ok fs =>
        match fs.create (name :: dir) .directory with
        | .ok (_, fs) => .ok fs
        | .error err =>
          match fs.lstat (name :: dir) with
          | .ok .directory => .ok fs
          | _ => .error (name :: dir, err)

section Walks
variable {fs fs' : FileSystem} {follow : Bool} {links : Nat} {dir target : Path}
  {names : List String}
variable {jump : Path → List String → Except Errno Path}

def Searchable (fs : FileSystem) (dir : Path) : Prop :=
  fs.node dir = some .directory ∧ fs.allows dir .search = true

theorem lookup_eq_ok {name : String} {found : Option Node} :
    fs.lookup dir name = .ok found ↔ fs.Searchable dir ∧ fs.node (name :: dir) = found := by
  unfold lookup Searchable
  split
  next hnode =>
    simp [hnode]
  next hnode =>
    split <;> simp_all
  next node hne hnode =>
    simp only [hnode, reduceCtorEq, Option.some.injEq, false_iff, not_and]
    intro h
    exact absurd h.1 hne

inductive Walks (fs : FileSystem) (follow : Bool) : Nat → Path → List String → Path → Prop where
  | done (links : Nat) (dir : Path) : Walks fs follow links dir [] dir
  | dot {links dir rest target} (hdir : fs.Searchable dir)
      (hrest : Walks fs follow links dir rest target) :
      Walks fs follow links dir ("." :: rest) target
  | dotdot {links dir rest target} (hdir : fs.Searchable dir)
      (hrest : Walks fs follow links dir.tail rest target) :
      Walks fs follow links dir (".." :: rest) target
  | missing {links dir name} (hdir : fs.Searchable dir) (hname : Proper name)
      (hnode : fs.node (name :: dir) = none) : Walks fs follow links dir [name] (name :: dir)
  | last {links dir name node link} (hdir : fs.Searchable dir) (hname : Proper name)
      (hnode : fs.node (name :: dir) = some node) (hlink : node.link? = some link)
      (hfollow : follow = false) : Walks fs follow links dir [name] (name :: dir)
  | jump {links dir name rest node link target} (hdir : fs.Searchable dir) (hname : Proper name)
      (hnode : fs.node (name :: dir) = some node) (hlink : node.link? = some link)
      (hfollow : ¬ (rest = [] ∧ follow = false))
      (hrest : Walks fs follow links (link.start dir) (link.names ++ rest) target) :
      Walks fs follow (links + 1) dir (name :: rest) target
  | down {links dir name rest node target} (hdir : fs.Searchable dir) (hname : Proper name)
      (hnode : fs.node (name :: dir) = some node) (hlink : node.link? = none)
      (hrest : Walks fs follow links (name :: dir) rest target) :
      Walks fs follow links dir (name :: rest) target

theorem walks_of_walkNames (hjump : ∀ {name dir rest node link}, fs.Searchable dir → Proper name →
      fs.node (name :: dir) = some node → node.link? = some link → ¬ (rest = [] ∧ follow = false) →
      jump (link.start dir) (link.names ++ rest) = .ok target →
      Walks fs follow links dir (name :: rest) target)
    (h : fs.walkNames jump follow dir names = .ok target) :
    Walks fs follow links dir names target := by
  induction names generalizing dir with
  | nil =>
    obtain rfl := Except.ok.inj h
    exact .done links dir
  | cons name rest ih =>
    rw [walkNames] at h
    split at h
    · cases h
    rename_i found hlookup
    obtain ⟨hdir, hnode⟩ := lookup_eq_ok.mp hlookup
    split at h
    next hdot =>
      rw [hdot]
      exact .dot hdir (ih h)
    next hdot =>
      split at h
      next hdotdot =>
        rw [hdotdot]
        exact .dotdot hdir (ih h)
      next hdotdot =>
        split at h
        · split at h
          next hrest =>
            cases h
            rw [hrest]
            exact .missing hdir ⟨hdot, hdotdot⟩ hnode
          · cases h
        · split at h
          next hlink =>
            exact .down hdir ⟨hdot, hdotdot⟩ hnode hlink (ih h)
          next link hlink =>
            split at h
            next hlast =>
              cases h
              rw [hlast.1]
              exact .last hdir ⟨hdot, hdotdot⟩ hnode hlink hlast.2
            next hlast =>
              exact hjump hdir ⟨hdot, hdotdot⟩ hnode hlink hlast h

theorem walks_of_walk (h : fs.walk follow links dir names = .ok target) :
    Walks fs follow links dir names target := by
  induction links generalizing dir names with
  | zero => exact walks_of_walkNames (fun _ _ _ _ _ h => by cases h) h
  | succ links ih =>
    exact walks_of_walkNames
      (fun hdir hname hnode hlink hlast h => .jump hdir hname hnode hlink hlast (ih h)) h

theorem Walks.walk_eq (h : Walks fs follow links dir names target) :
    fs.walk follow links dir names = .ok target := by
  -- both equations of `walk` are one round with some `jump`
  have hround : ∀ links, ∃ jump, fs.walk follow links = fs.walkNames jump follow ∧
      ∀ n, links = n + 1 → jump = fs.walk follow n := by
    intro links
    cases links with
    | zero => exact ⟨_, rfl, nofun⟩
    | succ n =>
      refine ⟨_, rfl, ?_⟩
      rintro m heq
      rw [Nat.succ.inj heq]
  induction h with
  | done links dir =>
    obtain ⟨jump, hwalk, -⟩ := hround links
    rw [hwalk]
    rfl
  | @dot links _ _ _ hdir _ ih | @dotdot links _ _ _ hdir _ ih =>
    obtain ⟨jump, hwalk, -⟩ := hround links
    rw [hwalk] at ih ⊢
    rw [walkNames, lookup_eq_ok.mpr ⟨hdir, rfl⟩]
    exact ih
  | @missing links _ _ hdir hname hnode =>
    obtain ⟨jump, hwalk, -⟩ := hround links
    rw [hwalk, walkNames, lookup_eq_ok.mpr ⟨hdir, hnode⟩]
    simp [hname.1, hname.2]
  | @last links _ _ _ _ hdir hname hnode hlink hfollow =>
    obtain ⟨jump, hwalk, -⟩ := hround links
    rw [hwalk, walkNames, lookup_eq_ok.mpr ⟨hdir, hnode⟩]
    simp [hname.1, hname.2, hlink, hfollow]
  | @jump links _ _ _ _ _ _ hdir hname hnode hlink hfollow _ ih =>
    obtain ⟨jump, hwalk, hjump⟩ := hround (links + 1)
    rw [hwalk, walkNames, lookup_eq_ok.mpr ⟨hdir, hnode⟩]
    simp only [if_neg hname.1, if_neg hname.2, hlink, if_neg hfollow, hjump links rfl]
    exact ih
  | @down links _ _ _ _ _ hdir hname hnode hlink _ ih =>
    obtain ⟨jump, hwalk, -⟩ := hround links
    rw [hwalk] at ih ⊢
    rw [walkNames, lookup_eq_ok.mpr ⟨hdir, hnode⟩]
    simp only [if_neg hname.1, if_neg hname.2, hlink]
    exact ih

theorem locate_eq_ok {path : Path} : fs.locate follow path = .ok target ↔
    Walks fs follow fs.maxLinks [] path.reverse target :=
  ⟨walks_of_walk, Walks.walk_eq⟩

theorem entry_eq_ok {path : Path} {node : Node} : fs.entry follow path = .ok node ↔
    ∃ target, fs.locate follow path = .ok target ∧ fs.node target = some node := by
  rw [entry]
  split
  next err hlocate =>
    simp [hlocate]
  rename_i target hlocate
  simp only [hlocate, Except.ok.injEq, exists_eq_left']
  split
  next hnode =>
    simp [hnode]
  next node' hnode =>
    simp [hnode]

theorem tail_ne_none (hdir : fs.Searchable dir) : fs.node dir.tail ≠ none := by
  cases dir with
  | nil =>
    rw [tail_nil, fs.root]
    exact Option.some_ne_none _
  | cons name dir =>
    rw [tail_cons, fs.parent (by rw [hdir.1]; exact Option.some_ne_none _)]
    exact Option.some_ne_none _

theorem start_ne_none (link : Link) (hdir : fs.Searchable dir) :
    fs.node (link.start dir) ≠ none := by
  rw [Link.start]
  split
  · rw [fs.root]
    exact Option.some_ne_none _
  · rw [hdir.1]
    exact Option.some_ne_none _

theorem Walks.missing_parent (h : Walks fs follow links dir names target)
    (hdir : fs.node dir ≠ none) (hnone : fs.node target = none) :
    ∃ name d, target = name :: d ∧ fs.Searchable d := by
  induction h with
  | done links dir => exact absurd hnone hdir
  | dot _ _ ih => exact ih hdir hnone
  | dotdot hsearch _ ih => exact ih (tail_ne_none hsearch) hnone
  | missing hsearch => exact ⟨_, _, rfl, hsearch⟩
  | last _ _ hnode => cases hnone.symm.trans hnode
  | jump hsearch _ _ _ _ _ ih => exact ih (start_ne_none _ hsearch) hnone
  | down _ _ hnode _ _ ih =>
    refine ih ?_ hnone
    rw [hnode]
    exact Option.some_ne_none _

theorem Walks.follow_last (h : Walks fs false links dir names target)
    (hlink : ∀ node, fs.node target = some node → node.link? = none) :
    Walks fs true links dir names target := by
  induction h with
  | done links dir => exact .done links dir
  | dot hdir _ ih => exact .dot hdir (ih hlink)
  | dotdot hdir _ ih => exact .dotdot hdir (ih hlink)
  | missing hdir hname hnode => exact .missing hdir hname hnode
  | last _ _ hnode hsome => cases hsome.symm.trans (hlink _ hnode)
  | jump hdir hname hnode hsome _ _ ih =>
    exact .jump hdir hname hnode hsome (fun h => Bool.noConfusion h.2) (ih hlink)
  | down hdir hname hnode hnolink _ ih => exact .down hdir hname hnode hnolink (ih hlink)

/-- The second file system has all entries of the first, and the same links and directories among
them. -/
structure Extends (fs fs' : FileSystem) : Prop where
  allows : fs'.allows = fs.allows
  maxLinks : fs'.maxLinks = fs.maxLinks
  node : ∀ {path node}, fs.node path = some node → ∃ node', fs'.node path = some node' ∧
    node'.link? = node.link? ∧ (node = .directory → node' = .directory)

theorem Extends.searchable (h : Extends fs fs') (hdir : fs.Searchable dir) :
    fs'.Searchable dir := by
  obtain ⟨node, hnode, -, hdirectory⟩ := h.node hdir.1
  refine ⟨hdirectory rfl ▸ hnode, ?_⟩
  rw [h.allows]
  exact hdir.2

/-- A walk is the same in a larger file system, unless a link has come to stand at its end. -/
theorem Walks.extend (h : Walks fs follow links dir names target) (hext : Extends fs fs')
    (hnew : fs.node target = none →
      ∃ node, fs'.node target = some node ∧ node.link? = none) :
    Walks fs' follow links dir names target := by
  induction h with
  | done links dir => exact .done links dir
  | dot hdir _ ih => exact .dot (hext.searchable hdir) (ih hnew)
  | dotdot hdir _ ih => exact .dotdot (hext.searchable hdir) (ih hnew)
  | missing hdir hname hnode =>
    obtain ⟨node, hnode', hlink⟩ := hnew hnode
    exact .down (hext.searchable hdir) hname hnode' hlink (.done _ _)
  | last hdir hname hnode hlink hfollow =>
    obtain ⟨node', hnode', hlink', -⟩ := hext.node hnode
    exact .last (hext.searchable hdir) hname hnode' (hlink'.trans hlink) hfollow
  | jump hdir hname hnode hlink hfollow _ ih =>
    obtain ⟨node', hnode', hlink', -⟩ := hext.node hnode
    exact .jump (hext.searchable hdir) hname hnode' (hlink'.trans hlink) hfollow (ih hnew)
  | down hdir hname hnode hlink _ ih =>
    obtain ⟨node', hnode', hlink', -⟩ := hext.node hnode
    exact .down (hext.searchable hdir) hname hnode' (hlink'.trans hlink) (ih hnew)

theorem Walks.snoc (h : Walks fs true links dir names target) (htarget : fs.Searchable target)
    {name : String} (hname : Proper name)
    (hlink : ∀ node, fs.node (name :: target) = some node → node.link? = none ∨ follow = false) :
    Walks fs follow links dir (names ++ [name]) (name :: target) := by
  induction h with
  | done links dir =>
    cases hnode : fs.node (name :: dir) with
    | none => exact .missing htarget hname hnode
    | some node =>
      cases hsome : node.link? with
      | none => exact .down htarget hname hnode hsome (.done _ _)
      | some link =>
        refine .last htarget hname hnode hsome ((hlink node hnode).resolve_left ?_)
        rw [hsome]
        exact Option.some_ne_none _
  | dot hdir _ ih => exact .dot hdir (ih htarget hlink)
  | dotdot hdir _ ih => exact .dotdot hdir (ih htarget hlink)
  | missing _ _ hnode => cases hnode.symm.trans htarget.1
  | last _ _ _ _ hfollow => cases hfollow
  | @jump links dir _ rest node link target hdir hname' hnode hsome _ _ ih =>
    have hrest := ih htarget hlink
    rw [append_assoc] at hrest
    refine .jump hdir hname' hnode hsome ?_ hrest
    exact fun h => append_ne_nil_of_right_ne_nil _ (cons_ne_nil _ _) h.1
  | down hdir hname' hnode hnolink _ ih => exact .down hdir hname' hnode hnolink (ih htarget hlink)

theorem Walks.init {name : String} (h : Walks fs false links dir (names ++ [name]) target)
    (hname : Proper name) :
    ∃ d, Walks fs true links dir names d ∧ fs.Searchable d ∧ target = name :: d := by
  generalize hall : names ++ [name] = all at h
  induction h generalizing names with
  | done links dir => cases names <;> cases hall
  | @dot links dir rest target hdir hrest ih =>
    cases names with
    | nil => exact absurd (cons.inj hall).1 hname.1
    | cons first names =>
      obtain ⟨rfl, htail⟩ := cons.inj hall
      obtain ⟨d, hwalk, hd⟩ := ih htail
      exact ⟨d, .dot hdir hwalk, hd⟩
  | @dotdot links dir rest target hdir hrest ih =>
    cases names with
    | nil => exact absurd (cons.inj hall).1 hname.2
    | cons first names =>
      obtain ⟨rfl, htail⟩ := cons.inj hall
      obtain ⟨d, hwalk, hd⟩ := ih htail
      exact ⟨d, .dotdot hdir hwalk, hd⟩
  | @missing links dir last hdir | @last links dir last _ _ hdir =>
    cases names with
    | nil =>
      obtain ⟨rfl, -⟩ := cons.inj hall
      exact ⟨dir, .done _ _, hdir, rfl⟩
    | cons first names =>
      obtain ⟨-, htail⟩ := cons.inj hall
      cases names <;> cases htail
  | @jump links dir first' rest node link target hdir hfirst hnode hlink hfollow hrest ih =>
    cases names with
    | nil =>
      obtain ⟨-, htail⟩ := cons.inj hall
      exact absurd ⟨htail.symm, rfl⟩ hfollow
    | cons first names =>
      obtain ⟨rfl, htail⟩ := cons.inj hall
      have hjump : (link.names ++ names) ++ [name] = link.names ++ rest := by
        rw [append_assoc]
        exact congrArg (link.names ++ ·) htail
      obtain ⟨d, hwalk, hd⟩ := ih hjump
      exact ⟨d, .jump hdir hfirst hnode hlink (fun h => Bool.noConfusion h.2) hwalk, hd⟩
  | @down links dir first' rest node target hdir hfirst hnode hlink hrest ih =>
    cases names with
    | nil =>
      obtain ⟨rfl, htail⟩ := cons.inj hall
      subst htail
      cases hrest
      exact ⟨dir, .done _ _, hdir, rfl⟩
    | cons first names =>
      obtain ⟨rfl, htail⟩ := cons.inj hall
      obtain ⟨d, hwalk, hd⟩ := ih htail
      exact ⟨d, .down hdir hfirst hnode hlink hwalk, hd⟩

theorem walkNames_ne_exist (hjump : ∀ dir names, jump dir names ≠ .error .exist) :
    fs.walkNames jump follow dir names ≠ .error .exist := by
  induction names generalizing dir with
  | nil => exact nofun
  | cons name rest ih =>
    rw [walkNames]
    split
    next err hlookup =>
      rintro heq
      obtain rfl := Except.error.inj heq
      rw [lookup] at hlookup
      split at hlookup
      · cases hlookup
      · split at hlookup <;> cases hlookup
      · cases hlookup
    · split
      · exact ih
      · split
        · exact ih
        · split
          · split <;> exact nofun
          · split
            · exact ih
            · split
              · exact nofun
              · exact hjump _ _

theorem walk_ne_exist : fs.walk follow links dir names ≠ .error .exist := by
  induction links generalizing dir names with
  | zero => exact walkNames_ne_exist fun _ _ => nofun
  | succ links ih => exact walkNames_ne_exist fun _ _ => ih

theorem walkNames_error {jump' : Path → List String → Except Errno Path} {err : Errno}
    (hjump : ∀ dir names, jump dir names = .error err → jump' dir names = .error err)
    (h : fs.walkNames jump false dir names = .error err) :
    fs.walkNames jump' true dir names = .error err := by
  induction names generalizing dir with
  | nil => cases h
  | cons name rest ih =>
    rw [walkNames] at h ⊢
    split at h
    · exact h
    split at h
    next hdot =>
      rw [if_pos hdot]
      exact ih h
    next hdot =>
      rw [if_neg hdot]
      split at h
      next hdotdot =>
        rw [if_pos hdotdot]
        exact ih h
      next hdotdot =>
        rw [if_neg hdotdot]
        split at h
        · exact h
        split at h
        · exact ih h
        split at h
        · cases h
        · rw [if_neg (fun hlast => Bool.noConfusion hlast.2)]
          exact hjump _ _ h

theorem walk_error {err : Errno} (h : fs.walk false links dir names = .error err) :
    fs.walk true links dir names = .error err := by
  induction links generalizing dir names with
  | zero => exact walkNames_error (fun _ _ h => h) h
  | succ links ih => exact walkNames_error (fun _ _ => ih) h

theorem Walks.unique {target' : Path} (h : Walks fs follow links dir names target)
    (h' : Walks fs follow links dir names target') : target = target' :=
  Except.ok.inj (h.walk_eq.symm.trans h'.walk_eq)

end Walks

section Calls
variable {fs fs' : FileSystem} {path target : Path} {name : String} {dir : Path} {node new : Node}

/-- The second file system has one entry more, or another one for a file. -/
structure Replaces (fs : FileSystem) (target : Path) (new : Node) (fs' : FileSystem) : Prop where
  node : fs'.node = update fs.node target (some new)
  allows : fs'.allows = fs.allows
  maxLinks : fs'.maxLinks = fs.maxLinks

theorem replaces_set (hdir : fs.node dir = some .directory)
    (hleaf : fs.node (name :: dir) ≠ some .directory) (new : Node) :
    Replaces fs (name :: dir) new (fs.set name dir (some new)) := by
  rw [set, dif_pos ⟨hdir, hleaf⟩]
  exact ⟨rfl, rfl, rfl⟩

theorem Replaces.refl (h : fs.node target = some node) :
    Replaces fs target node fs := by
  refine ⟨?_, rfl, rfl⟩
  rw [← h, update_eq_self]

theorem Replaces.trans {fs₁ fs₂ : FileSystem} {new' : Node} (h : Replaces fs target new fs₁)
    (h' : Replaces fs₁ target new' fs₂) : Replaces fs target new' fs₂ := by
  refine ⟨?_, h'.allows.trans h.allows, h'.maxLinks.trans h.maxLinks⟩
  rw [h'.node, h.node, update_idem]

theorem replaces_setFile {data : List UInt8} {mode : Nat}
    (hnode : fs.node target = some (.file data mode)) (f : List UInt8 → Nat → Node) :
    Replaces fs target (f data mode) (fs.setFile target f) := by
  cases target with
  | nil => cases hnode.symm.trans fs.root
  | cons name dir =>
    have hdir : fs.node dir = some .directory := fs.parent (by rw [hnode]; exact nofun)
    simp only [setFile, hnode]
    exact replaces_set hdir (by rw [hnode]; exact nofun) _

theorem Replaces.extends (h : Replaces fs target new fs')
    (hold : ∀ node, fs.node target = some node → new.link? = node.link? ∧
      (node = .directory → new = .directory)) : Extends fs fs' := by
  refine ⟨h.allows, h.maxLinks, ?_⟩
  intro path node hnode
  rw [h.node, update_apply]
  split
  next heq =>
    subst heq
    exact ⟨new, rfl, hold node hnode⟩
  · exact ⟨node, hnode, rfl, id⟩

theorem entry_nil (follow : Bool) : fs.entry follow [] = .ok .directory :=
  entry_eq_ok.mpr ⟨[], locate_eq_ok.mpr (.done _ _), fs.root⟩

theorem locate_parent {follow : Bool} (h : fs.locate follow path = .ok target)
    (hnone : fs.node target = none) : ∃ name dir, target = name :: dir ∧ fs.Searchable dir := by
  refine (locate_eq_ok.mp h).missing_parent ?_ hnone
  rw [fs.root]
  exact Option.some_ne_none _

theorem create_eq_ok (h : fs.create path new = .ok (target, fs')) :
    fs.locate false path = .ok target ∧ fs.node target = none ∧ Replaces fs target new fs' := by
  rw [create] at h
  split at h
  · cases h
  · cases h
  next name dir hlocate =>
    split at h
    · cases h
    rename_i hnone
    split at h
    · obtain ⟨rfl, rfl⟩ := Prod.mk.inj (Except.ok.inj h)
      have hnone := Classical.not_not.mp hnone
      obtain ⟨name', dir', heq, hdir⟩ := locate_parent hlocate hnone
      obtain ⟨rfl, rfl⟩ := cons.inj heq
      refine ⟨hlocate, hnone, replaces_set hdir.1 ?_ new⟩
      rw [hnone]
      exact nofun
    · cases h

theorem create_eq_exist (h : fs.create path new = .error .exist) :
    ∃ node, fs.lstat path = .ok node := by
  rw [create] at h
  split at h
  next err hlocate =>
    obtain rfl := Except.error.inj h
    exact absurd hlocate walk_ne_exist
  next hlocate =>
    exact ⟨.directory, entry_eq_ok.mpr ⟨[], hlocate, fs.root⟩⟩
  next name dir hlocate =>
    split at h
    next hsome =>
      obtain ⟨node, hnode⟩ := Option.ne_none_iff_exists'.mp hsome
      exact ⟨node, entry_eq_ok.mpr ⟨_, hlocate, hnode⟩⟩
    · split at h <;> cases h

theorem create_of_lstat (h : fs.lstat path = .ok node) :
    fs.create path new = .error .exist := by
  obtain ⟨target, hlocate, hnode⟩ := entry_eq_ok.mp h
  rw [create, hlocate]
  cases target with
  | nil => rfl
  | cons name dir =>
    simp only
    rw [if_pos]
    rw [hnode]
    exact Option.some_ne_none _

theorem locate_follow (h : fs.locate false path = .ok target)
    (hlink : ∀ node, fs.node target = some node → node.link? = none) :
    fs.locate true path = .ok target :=
  locate_eq_ok.mpr ((locate_eq_ok.mp h).follow_last hlink)

theorem locate_new (h : fs.locate false path = .ok target)
    (hnone : fs.node target = none) (hnew : Replaces fs target new fs') (hlink : new.link? = none) :
    fs'.locate false path = .ok target := by
  have hext : Extends fs fs' := hnew.extends fun old hold => nomatch hnone.symm.trans hold
  have hmade : fs'.node target = some new := by rw [hnew.node, update_self]
  rw [locate_eq_ok, hnew.maxLinks]
  exact (locate_eq_ok.mp h).extend hext fun _ => ⟨new, hmade, hlink⟩

theorem stat_of_lstat (h : fs.lstat path = .ok node) (hlink : node.link? = none) :
    fs.stat path = .ok node := by
  obtain ⟨target, hlocate, hnode⟩ := entry_eq_ok.mp h
  refine entry_eq_ok.mpr ⟨target, locate_follow hlocate ?_, hnode⟩
  intro node' hnode'
  obtain rfl := Option.some.inj (hnode.symm.trans hnode')
  exact hlink

theorem stat_of_lstat_noent (h : fs.lstat path = .error .noent) : fs.stat path = .error .noent := by
  rw [lstat, entry] at h
  rw [stat, entry]
  split at h
  next err hlocate =>
    obtain rfl := Except.error.inj h
    rw [show fs.locate true path = .error .noent from walk_error hlocate]
  next target hlocate =>
    split at h
    next hnone =>
      rw [locate_follow hlocate fun node hnode => nomatch hnone.symm.trans hnode]
      simp only [hnone]
    · cases h

theorem stat_extend (hext : Extends fs fs') (h : fs.stat path = .ok .directory) :
    fs'.stat path = .ok .directory := by
  obtain ⟨target, hlocate, hnode⟩ := entry_eq_ok.mp h
  obtain ⟨node, hnode', -, hdirectory⟩ := hext.node hnode
  refine entry_eq_ok.mpr ⟨target, ?_, hdirectory rfl ▸ hnode'⟩
  rw [locate_eq_ok, hext.maxLinks]
  exact (locate_eq_ok.mp hlocate).extend hext fun hnone => nomatch hnone.symm.trans hnode

theorem lstat_below_new (h : fs.create path .directory = .ok (target, fs')) (hname : Proper name) :
    ∀ node, fs'.lstat (name :: path) ≠ .ok node := by
  intro node hfound
  obtain ⟨hlocate, hnone, hnew⟩ := create_eq_ok h
  obtain ⟨target', hlocate', hnode⟩ := entry_eq_ok.mp hfound
  have hmade : fs'.node target = some .directory := by rw [hnew.node, update_self]
  have hfollow := locate_follow (locate_new hlocate hnone hnew rfl) fun node hnode => by
    obtain rfl := Option.some.inj (hmade.symm.trans hnode)
    rfl
  have hbelow := locate_eq_ok.mp hlocate'
  rw [reverse_cons] at hbelow
  obtain ⟨d, hd, -, rfl⟩ := hbelow.init hname
  obtain rfl := hd.unique (locate_eq_ok.mp hfollow)
  rw [hnew.node, update_of_ne (cons_ne_self name d)] at hnode
  have hchild : fs.node (name :: d) ≠ none := by
    rw [hnode]
    exact Option.some_ne_none _
  cases hnone.symm.trans (fs.parent hchild)

theorem mkdirAll_eq_ok (hproper : ∀ name ∈ path, Proper name) (h : fs.mkdirAll path = .ok fs') :
    fs' = fs ∨ ∀ name node, Proper name → fs'.lstat (name :: path) ≠ .ok node := by
  induction path generalizing fs' with
  | nil => exact .inl (Except.ok.inj h).symm
  | cons last dir ih =>
    rw [mkdirAll] at h
    split at h
    · split at h
      · exact .inl (Except.ok.inj h).symm
      · cases h
    next err hstat =>
      split at h
      · cases h
      rename_i fs₁ hparent
      split at h
      next target fs₂ hcreate =>
        cases h
        exact .inr fun name node hname => lstat_below_new hcreate hname node
      · split at h
        next hlstat =>
          cases h
          obtain ⟨hlast, hdir⟩ := forall_mem_cons.mp hproper
          rcases ih hdir hparent with rfl | hempty
          · cases hstat.symm.trans (stat_of_lstat hlstat rfl)
          · exact absurd hlstat (hempty last .directory hlast)
        · cases h

theorem stat_parent_of_lstat (hname : Proper name)
    (h : fs.lstat (name :: dir) = .ok node) : fs.stat dir = .ok .directory := by
  obtain ⟨target, hlocate, -⟩ := entry_eq_ok.mp h
  have hwalk := locate_eq_ok.mp hlocate
  rw [reverse_cons] at hwalk
  obtain ⟨d, hd, hsearch, -⟩ := hwalk.init hname
  exact entry_eq_ok.mpr ⟨d, locate_eq_ok.mpr hd, hsearch.1⟩

theorem mkdirAll_of_stat (h : fs.stat path = .ok .directory) : fs.mkdirAll path = .ok fs := by
  cases path with
  | nil => rfl
  | cons name dir =>
    rw [mkdirAll, h]
    exact if_pos rfl

theorem openRead_eq_noent : fs.openRead path = .error .noent ↔ fs.stat path = .error .noent := by
  rw [openRead, stat, entry]
  split
  · simp only [Except.error.injEq]
  split
  · simp only
  simp only [reduceCtorEq, iff_false]
  split
  · exact nofun
  · split <;> exact nofun

theorem stat_mkdirAll (h : fs.mkdirAll path = .ok fs') : fs'.stat path = .ok .directory := by
  cases path with
  | nil => exact entry_nil true
  | cons last dir =>
    rw [mkdirAll] at h
    split at h
    next node hstat =>
      split at h
      next hnode =>
        cases h
        rw [hstat, hnode]
      · cases h
    · split at h
      · cases h
      next fs₁ _ =>
        split at h
        next target fs₂ hcreate =>
          cases h
          obtain ⟨hlocate, hnone, hnew⟩ := create_eq_ok hcreate
          exact stat_of_lstat (entry_eq_ok.mpr ⟨target, locate_new hlocate hnone hnew rfl,
            by rw [hnew.node, update_self]⟩) rfl
        · split at h
          next hlstat =>
            cases h
            exact stat_of_lstat hlstat rfl
          · cases h

theorem mkdirAll_allows (h : fs.mkdirAll path = .ok fs') : fs'.allows = fs.allows := by
  induction path generalizing fs' with
  | nil => rw [← Except.ok.inj h]
  | cons last dir ih =>
    rw [mkdirAll] at h
    split at h
    · split at h
      · rw [← Except.ok.inj h]
      · cases h
    · split at h
      · cases h
      next fs₁ hparent =>
        split at h
        next target fs₂ hcreate =>
          cases h
          rw [(create_eq_ok hcreate).2.2.allows, ih hparent]
        · split at h
          · cases h
            exact ih hparent
          · cases h

def Dangling (fs : FileSystem) (path : Path) : Prop :=
  (∃ link, fs.lstat path = .ok (.symlink link)) ∧ fs.stat path = .error .noent

/-- A link to nothing counts as missing when it is opened, and as existing when it is created. -/
theorem Dangling.calls (h : fs.Dangling path) (hproper : ∀ name ∈ path, Proper name) :
    fs.openRead path = .error .noent ∧ fs.mkdirAll path.tail = .ok fs ∧
      ∀ new, fs.create path new = .error .exist := by
  obtain ⟨⟨link, hlstat⟩, hstat⟩ := h
  refine ⟨openRead_eq_noent.mpr hstat, ?_, fun _ => create_of_lstat hlstat⟩
  cases path with
  | nil => rfl
  | cons name dir =>
    exact mkdirAll_of_stat (stat_parent_of_lstat (hproper name mem_cons_self) hlstat)

/-- Nothing else does: what is missing can be created, or not for another reason. -/
theorem create_ne_exist (hproper : ∀ name ∈ path, Proper name) (hstat : fs.stat path = .error .noent)
    (hdangling : ¬ fs.Dangling path) (hmkdir : fs.mkdirAll path.tail = .ok fs') (new : Node) :
    fs'.create path new ≠ .error .exist := by
  intro hexist
  obtain ⟨node, hlstat⟩ := create_eq_exist hexist
  cases path with
  | nil => cases hstat.symm.trans (entry_nil true)
  | cons name dir =>
    obtain ⟨hname, hdir⟩ := forall_mem_cons.mp hproper
    rcases mkdirAll_eq_ok hdir hmkdir with rfl | hempty
    · cases node with
      | symlink link => exact hdangling ⟨⟨link, hlstat⟩, hstat⟩
      | file | directory | device => cases hstat.symm.trans (stat_of_lstat hlstat rfl)
    · exact hempty name node hname hlstat

end Calls

end FileSystem
end Posix
