import P2PNetcat.Protocol.Pairing
import P2PNetcat.Tunnels.Reload

/-!
# Watching the config file

The `run` command reads the config, starts the daemon and then polls the file's
modification time. Edits happen between any two of its steps, also between the
`Stat` and the `ReadFile` of one tick.
-/

namespace P2PNetcat.Tunnels
open List GoText GoTime StepSystem Fallible Pairing

structure ConfigFile where
  content : String
  modTime : Time

inductive WatchPhase where
  | loading
  | loaded (cfg : Config)
  | booted (d : Daemon)
  /-- `watchConfigFile` waits for its ticker. -/
  | idle (d : Daemon)
  /-- `watchConfigFile` has found a later modification time. -/
  | reading (d : Daemon)
  | failed (err : String)

/-- The config file, or the error of `Stat` and `ReadFile`, and the command. -/
structure Watch where
  path : String
  file : Except String ConfigFile
  phase : WatchPhase := .loading
  lastModified : Time := zeroTime
  /-- The modification times that the watcher has compared with, the first of them its baseline. -/
  seen : List Time := []
  logs : List String := []

/-- The outcomes of the starts of one `Run` or `Reload`, and the visiting orders of the latter. -/
structure Starts where
  stopOrder : List String
  startOrder : List String
  outcome : String → Option String

inductive WatchEvent where
  | edit (file : Except String ConfigFile)
  | load
  | run (boot : Option String) (outcome : String → Option String)
  | watch
  | tick
  | read (starts : Starts)

section Steps
-- `yaml.Unmarshal` into a config
variable (unmarshal : String → Except String Config)

def parse (data : String) : Except String Config := do
  let cfg ← orError (unmarshal data) ("parse tunnel config: " ++ ·)
  cfg.validate
  .ok cfg

def loadTunnelConfigFile (file : Except String ConfigFile) : Except String Config := do
  let file ← orError file ("read config: " ++ ·)
  parse unmarshal file.content

namespace Watch

def reload (s : Watch) (d : Daemon) (starts : Starts) : Watch :=
  match loadTunnelConfigFile unmarshal s.file with
  | .error err =>
    { s with
      phase := .idle d
      logs := ("config reload: " ++ err ++ " (keeping the previous config running)") :: s.logs }
  | .ok newCfg =>
    match d.reload ⟨some newCfg, starts.stopOrder, starts.startOrder, starts.outcome⟩ with
    | (d, .error err) =>
      { s with
        phase := .idle d
        logs := ("config reload: " ++ err ++ " (some tunnels may not have applied)") :: s.logs }
    | (d, .ok ()) =>
      { s with phase := .idle d, logs := ("config reloaded from " ++ s.path) :: s.logs }

def tick (s : Watch) (d : Daemon) : Watch :=
  match s.file with
  | .error _ => s
  | .ok info =>
    if info.modTime.after s.lastModified = false then
      { s with seen := info.modTime :: s.seen }
    else
      { s with
        phase := .reading d
        lastModified := info.modTime
        seen := info.modTime :: s.seen }

def step (s : Watch) : WatchEvent → Option Watch
  | .edit file => some { s with file := file }
  | .load =>
    match s.phase with
    | .loading =>
      match loadTunnelConfigFile unmarshal s.file with
      | .error err => some { s with phase := .failed err }
      | .ok cfg => some { s with phase := .loaded cfg }
    | _ => none
  | .run boot outcome =>
    match s.phase with
    | .loaded cfg =>
      match Tunnels.run (some cfg) boot outcome with
      | .error err => some { s with phase := .failed err }
      | .ok d => some { s with phase := .booted d }
    | _ => none
  | .watch =>
    match s.phase with
    | .booted d =>
      let lastModified :=
        match s.file with
        | .error _ => zeroTime
        | .ok info => info.modTime
      some { s with phase := .idle d, lastModified := lastModified, seen := [lastModified] }
    | _ => none
  | .tick =>
    match s.phase with
    | .idle d => some (s.tick d)
    | _ => none
  | .read starts =>
    match s.phase with
    | .reading d => some (s.reload unmarshal d starts)
    | _ => none

def initial (path : String) (file : Except String ConfigFile) : Watch :=
  { path := path, file := file }

def config (s : Watch) : Option Config :=
  match s.phase with
  | .booted d | .idle d | .reading d => some d.cfg
  | _ => none

/-- One tick during which nobody edits the file and no tunnel fails to start. -/
inductive Ticked (s : Watch) : Watch → Prop where
  | skipped {s' : Watch} {d : Daemon} (htick : s.step unmarshal .tick = some s')
      (hphase : s'.phase = .idle d) : Ticked s s'
  | reloaded {u s' : Watch} {starts : Starts} (htick : s.step unmarshal .tick = some u)
      (hstarts : starts.outcome = fun _ => none)
      (hread : u.step unmarshal (.read starts) = some s') : Ticked s s'

end Watch

end Steps

theorem startLoop_of_no_failure (oldByName newByName : String → Option Tunnel)
    (order : List String) (handles : Handles) :
    ∃ handles', startLoop oldByName newByName (fun _ => none) order handles =
      (handles', .ok ()) := by
  induction order generalizing handles with
  | nil => exact ⟨handles, rfl⟩
  | cons name rest ih =>
    rw [startLoop]
    split
    · exact ih handles
    rename_i newTunnel _
    split
    · exact ih handles
    have hstart : ∃ handle, start newTunnel none = .ok handle := by
      simp only [start]
      split
      · exact ⟨_, rfl⟩
      · exact ⟨_, rfl⟩
    obtain ⟨handle, hstart⟩ := hstart
    rw [hstart]
    exact ih _

theorem reload_of_no_failure (d : Daemon) {newCfg : Config} (hvalid : newCfg.validate = .ok ())
    (stopOrder startOrder : List String) :
    ∃ d', d.reload ⟨some newCfg, stopOrder, startOrder, fun _ => none⟩ = (d', .ok ()) ∧
      d'.cfg = newCfg := by
  obtain ⟨handles, hloop⟩ := startLoop_of_no_failure (tunnelsByName d.cfg.tunnels)
    (tunnelsByName newCfg.tunnels) startOrder
    (stopLoop (tunnelsByName d.cfg.tunnels) (tunnelsByName newCfg.tunnels) stopOrder d.handles)
  refine ⟨⟨newCfg, handles⟩, ?_, rfl⟩
  simp only [Daemon.reload, hvalid, hloop]

section Watch
variable {unmarshal : String → Except String Config}

theorem parse_valid {data : String} {cfg : Config} (h : parse unmarshal data = .ok cfg) :
    cfg.validate = .ok () := by
  obtain ⟨_, _, h⟩ := bind_eq_ok.mp h
  obtain ⟨_, hvalid, h⟩ := bind_eq_ok.mp h
  cases h
  exact hvalid

namespace Watch
variable {s s' : Watch} {info : ConfigFile}

structure Latest (s : Watch) : Prop where
  mem : s.lastModified ∈ s.seen
  le : ∀ time ∈ s.seen, time.nanos ≤ s.lastModified.nanos

def Watching (s : Watch) : Prop := (∃ d, s.phase = .idle d) ∨ ∃ d, s.phase = .reading d

theorem Latest.tick (h : s.Latest) (d : Daemon) : (s.tick d).Latest := by
  rw [Watch.tick]
  split
  · exact h
  rename_i info _
  split
  next hafter =>
    have hle : info.modTime.nanos ≤ s.lastModified.nanos := by
      refine Int.not_lt.mp fun hlt => ?_
      cases hafter.symm.trans (Time.after_iff.mpr hlt)
    refine ⟨mem_cons_of_mem _ h.mem, ?_⟩
    intro time htime
    rcases mem_cons.mp htime with rfl | htime
    · exact hle
    · exact h.le time htime
  next hafter =>
    have hlt := Time.after_iff.mp (Bool.not_eq_false _ ▸ hafter)
    refine ⟨mem_cons_self, ?_⟩
    intro time htime
    rcases mem_cons.mp htime with rfl | htime
    · exact Int.le_refl _
    · exact Int.le_trans (h.le time htime) (Int.le_of_lt hlt)

variable (unmarshal) in
theorem reload_watching (s : Watch) (d : Daemon) (starts : Starts) :
    (s.reload unmarshal d starts).seen = s.seen ∧
      (s.reload unmarshal d starts).lastModified = s.lastModified := by
  rw [reload]
  split
  · exact ⟨rfl, rfl⟩
  · split <;> exact ⟨rfl, rfl⟩

theorem Latest.step (h : s.Watching → s.Latest) {e : WatchEvent}
    (hstep : s.step unmarshal e = some s') (hwatching : s'.Watching) : s'.Latest := by
  cases e with
  | edit file =>
    cases hstep
    have := h hwatching
    exact ⟨this.mem, this.le⟩
  | load | run boot outcome =>
    rw [Watch.step] at hstep
    split at hstep
    · split at hstep <;> obtain rfl := Option.some.inj hstep <;>
        rcases hwatching with ⟨_, hphase⟩ | ⟨_, hphase⟩ <;> cases hphase
    · cases hstep
  | watch =>
    rw [Watch.step] at hstep
    split at hstep
    · cases hstep
      refine ⟨mem_singleton.mpr rfl, ?_⟩
      intro time htime
      rw [mem_singleton.mp htime]
    · cases hstep
  | tick =>
    rw [Watch.step] at hstep
    split at hstep
    next d hphase =>
      cases hstep
      exact (h (.inl ⟨d, hphase⟩)).tick d
    · cases hstep
  | read starts =>
    rw [Watch.step] at hstep
    split at hstep
    next d hphase =>
      cases hstep
      obtain ⟨hseen, hlast⟩ := reload_watching unmarshal s d starts
      have hlatest := h (.inr ⟨d, hphase⟩)
      refine ⟨?_, ?_⟩
      · rw [hseen, hlast]
        exact hlatest.mem
      · rw [hseen, hlast]
        exact hlatest.le
    · cases hstep

theorem Latest.run {path : String} {file : Except String ConfigFile} {es : List WatchEvent}
    (hrun : Run (Watch.step unmarshal) Any (initial path file) es s) (hwatching : s.Watching) :
    s.Latest := by
  refine hrun.invariant (I := fun s => s.Watching → s.Latest) ?_ ?_ hwatching
  · intro s e s' h _ hstep
    exact Latest.step h hstep
  · rintro (⟨_, hphase⟩ | ⟨_, hphase⟩) <;> cases hphase

theorem Latest.after_iff (h : s.Latest) {time : Time} :
    time.after s.lastModified = true ↔ ∀ other ∈ s.seen, time.after other = true := by
  constructor
  · intro hafter other hother
    exact Time.after_iff.mpr (Int.lt_of_le_of_lt (h.le other hother) (Time.after_iff.mp hafter))
  · intro hall
    exact hall _ h.mem

theorem step_tick (h : s.step unmarshal .tick = some s') :
    ∃ d, s.phase = .idle d ∧ s' = s.tick d := by
  rw [step] at h
  split at h
  next d hphase =>
    exact ⟨d, hphase, (Option.some.inj h).symm⟩
  · cases h

theorem tick_reading (hfile : s.file = .ok info)
    (hafter : info.modTime.after s.lastModified = true) (d : Daemon) :
    s.tick d = { s with
      phase := .reading d
      lastModified := info.modTime
      seen := info.modTime :: s.seen } := by
  rw [tick, hfile]
  simp only
  rw [if_neg (by rw [hafter]; exact nofun)]

theorem tick_skipped (hfile : s.file = .ok info)
    (hafter : ¬ info.modTime.after s.lastModified = true) (d : Daemon) :
    s.tick d = { s with seen := info.modTime :: s.seen } := by
  rw [tick, hfile]
  simp only
  rw [if_pos (Bool.eq_false_iff.mpr hafter)]

theorem config_reload {cfg : Config} (hfile : s.file = .ok info)
    (hparse : parse unmarshal info.content = .ok cfg) (d : Daemon) {starts : Starts}
    (hstarts : starts.outcome = fun _ => none) :
    (s.reload unmarshal d starts).config = some cfg := by
  have hload : loadTunnelConfigFile unmarshal s.file = .ok cfg := by
    rw [loadTunnelConfigFile, hfile]
    exact hparse
  obtain ⟨d', hreload, hcfg⟩ := reload_of_no_failure d (parse_valid hparse) starts.stopOrder
    starts.startOrder
  rw [reload, hload, hstarts]
  simp only [hreload]
  exact congrArg some hcfg

/-- After a tick the daemon has the config of the file exactly if the file's modification time is
later than every one the watcher has seen, or the daemon had this config already. -/
theorem tick_converges_iff {path : String} {file : Except String ConfigFile} {es : List WatchEvent}
    (hrun : Run (step unmarshal) Any (initial path file) es s) {info : ConfigFile} {cfg : Config}
    (hfile : s.file = .ok info) (hparse : parse unmarshal info.content = .ok cfg)
    (hticked : Ticked unmarshal s s') :
    s'.config = some cfg ↔
      (∀ time ∈ s.seen, info.modTime.after time = true) ∨ s.config = some cfg := by
  have hidle : ∃ d, s.phase = .idle d := by
    cases hticked with
    | skipped htick | reloaded htick => exact (step_tick htick).imp fun _ h => h.1
  obtain ⟨d, hidle⟩ := hidle
  have hlatest := Latest.run hrun (.inl ⟨d, hidle⟩)
  rw [← hlatest.after_iff]
  have htick : s.step unmarshal .tick = some (s.tick d) := by rw [step, hidle]
  by_cases hafter : info.modTime.after s.lastModified = true
  · rw [tick_reading hfile hafter] at htick
    have hconfig : s'.config = some cfg := by
      cases hticked with
      | skipped htick' hphase =>
        obtain rfl := Option.some.inj (htick.symm.trans htick')
        cases hphase
      | reloaded htick' hstarts hread =>
        obtain rfl := Option.some.inj (htick.symm.trans htick')
        cases hread
        refine config_reload ?_ hparse d hstarts
        exact hfile
    exact ⟨fun _ => .inl hafter, fun _ => hconfig⟩
  · rw [tick_skipped hfile hafter] at htick
    have hsame : s'.config = s.config := by
      cases hticked with
      | skipped htick' hphase =>
        obtain rfl := Option.some.inj (htick.symm.trans htick')
        rfl
      | reloaded htick' hstarts hread =>
        obtain rfl := Option.some.inj (htick.symm.trans htick')
        rw [step] at hread
        simp only [hidle] at hread
        cases hread
    rw [hsame]
    exact ⟨.inr, fun h => h.resolve_left hafter⟩

end Watch

end Watch

section Example

def targetOnly (data : String) : Except String Config := .ok (configA data)

def fileAt (content : String) (time : Int) : ConfigFile := ⟨content, unix time⟩

def firstFile : Watch := .initial "tunnels.yaml" (.ok (fileAt "127.0.0.1:80" 1000))

def noFailure : Starts := ⟨["a"], ["a"], fun _ => none⟩

def bootEvents : List WatchEvent := [.load, .run none fun _ => none]

/-- The file has the content after these events, and the next tick does not notice. -/
def Misses (es : List WatchEvent) (info : ConfigFile) : Prop :=
  ∃ s s' cfg, Run (Watch.step targetOnly) Any firstFile es s ∧
    s.file = .ok info ∧ parse targetOnly info.content = .ok cfg ∧
    Watch.Ticked targetOnly s s' ∧ s'.config ≠ some cfg

theorem tick_converges_iff_example : ∃ s s' cfg,
    Run (Watch.step targetOnly) Any firstFile
      (bootEvents ++ [.watch, .edit (.ok (fileAt "127.0.0.1:81" 1001))]) s ∧
    parse targetOnly "127.0.0.1:81" = .ok cfg ∧ Watch.Ticked targetOnly s s' ∧
    s'.config = some cfg := by
  have hrun := run_exec (Watch.step targetOnly) Any firstFile
    (bootEvents ++ [.watch, .edit (.ok (fileAt "127.0.0.1:81" 1001))]) rfl
  refine ⟨_, _, configA "127.0.0.1:81", hrun, rfl,
    .reloaded rfl (show noFailure.outcome = _ from rfl) rfl, ?_⟩
  refine (Watch.tick_converges_iff hrun rfl rfl
    (.reloaded rfl (show noFailure.outcome = _ from rfl) rfl)).mpr (.inl ?_)
  intro time htime
  rw [mem_singleton.mp htime]
  decide

/-- An edit before the watcher takes its baseline, one within the same time stamp, and a file with
an older time stamp. -/
theorem edits_missed :
    Misses (bootEvents ++ [.edit (.ok (fileAt "127.0.0.1:81" 1001)), .watch])
      (fileAt "127.0.0.1:81" 1001) ∧
    Misses (bootEvents ++ [.watch, .edit (.ok (fileAt "127.0.0.1:81" 1000))])
      (fileAt "127.0.0.1:81" 1000) ∧
    Misses (bootEvents ++ [.watch, .edit (.ok (fileAt "127.0.0.1:81" 999))])
      (fileAt "127.0.0.1:81" 999) := by
  have hne : some (configA "127.0.0.1:80") ≠ some (configA "127.0.0.1:81") := by decide
  refine ⟨?_, ?_, ?_⟩ <;>
    exact ⟨_, _, _, .cons trivial rfl (.cons trivial rfl (.cons trivial rfl (.cons trivial rfl
      (.nil _)))), rfl, rfl, .skipped rfl rfl, hne⟩

end Example

end P2PNetcat.Tunnels
