import P2PNetcat.Tunnels.Config
import P2PNetcat.Library.StepSystem
import Mathlib.Data.List.Dedup
import Mathlib.Data.List.Perm.Basic

/-!
# The daemon and its hot reload

Go maps are functions into `Option`; the order in which a loop visits the keys
of a map and the outcome of starting a tunnel are inputs.
-/

namespace P2PNetcat.Tunnels
open List Function GoText StepSystem
variable {outcome : String → Option String}

/-- What a running tunnel releases when it stops, and the definition it was started from. -/
structure TunnelHandle where
  lock : Option UInt16 := none
  proto : Option String := none
  closer : Option String := none
  startedFrom : Tunnel
  deriving DecidableEq

abbrev Handles := String → Option TunnelHandle

structure Daemon where
  cfg : Config
  handles : Handles

def protocolForService (service : UInt16) : String :=
  "/p2p-netcat/1.0.0/" ++ toString service.toNat

def datagramProtocolForService (service : UInt16) : String :=
  "/p2p-netcat/udp/1.0.0/" ++ toString service.toNat

/-- Starting one tunnel: the environment either reports an error or lets it through. -/
def start (t : Tunnel) (outcome : Option String) : Except String TunnelHandle :=
  match outcome with
  | some err => .error err
  | none =>
    if t.mode = .server then
      let proto := if t.type = .forward ∧ t.protocol = .udp
        then datagramProtocolForService t.logicalPort else protocolForService t.logicalPort
      .ok { lock := some t.logicalPort, proto := some proto, startedFrom := t }
    else .ok { closer := some t.listen, startedFrom := t }

def stop (handles : Handles) (name : String) : Handles := update handles name none

def addTunnel (byName : String → Option Tunnel) (t : Tunnel) : String → Option Tunnel :=
  update byName t.name (some t)

def tunnelsByName (tunnels : List Tunnel) : String → Option Tunnel :=
  tunnels.foldl addTunnel fun _ => none

def tunnelNames (tunnels : List Tunnel) : List String := (tunnels.map Tunnel.name).dedup

def startAll (outcome : String → Option String) : List Tunnel → Handles → Except String Handles
  | [], handles => .ok handles
  | t :: rest, handles =>
    match start t (outcome t.name) with
    | .error err => .error ("tunnel " ++ quote t.name ++ ": " ++ err)
    | .ok handle => startAll outcome rest (update handles t.name (some handle))

/-- `boot` is the failure, if any, of the identity and the p2p node. -/
def run (cfg : Option Config) (boot : Option String) (outcome : String → Option String) :
    Except String Daemon :=
  match cfg with
  | none => .error "tunnel config is required"
  | some cfg => do
    cfg.validate
    match boot with
    | some err => .error err
    | none => do
      let handles ← startAll outcome cfg.tunnels fun _ => none
      .ok ⟨cfg, handles⟩

def stopLoop (oldByName newByName : String → Option Tunnel) : List String → Handles → Handles
  | [], handles => handles
  | name :: rest, handles =>
    match oldByName name with
    | none => stopLoop oldByName newByName rest handles
    | some oldTunnel =>
      if newByName name = some oldTunnel then stopLoop oldByName newByName rest handles
      else stopLoop oldByName newByName rest (stop handles name)

def startLoop (oldByName newByName : String → Option Tunnel) (outcome : String → Option String) :
    List String → Handles → Handles × Except String Unit
  | [], handles => (handles, .ok ())
  | name :: rest, handles =>
    match newByName name with
    | none => startLoop oldByName newByName outcome rest handles
    | some newTunnel =>
      if oldByName name = some newTunnel then
        startLoop oldByName newByName outcome rest handles
      else
        match start newTunnel (outcome name) with
        | .error err => (handles, .error ("reload: tunnel " ++ quote name ++ ": " ++ err))
        | .ok handle =>
          startLoop oldByName newByName outcome rest (update handles name (some handle))

structure ReloadCall where
  newCfg : Option Config
  stopOrder : List String
  startOrder : List String
  outcome : String → Option String

def Daemon.reload (d : Daemon) (call : ReloadCall) : Daemon × Except String Unit :=
  match call.newCfg with
  | none => (d, .error "tunnel config is required")
  | some newCfg =>
    match newCfg.validate with
    | .error err => (d, .error err)
    | .ok () =>
      let oldByName := tunnelsByName d.cfg.tunnels
      let newByName := tunnelsByName newCfg.tunnels
      let stopped := stopLoop oldByName newByName call.stopOrder d.handles
      match startLoop oldByName newByName call.outcome call.startOrder stopped with
      | (handles, .error err) => (⟨d.cfg, handles⟩, .error err)
      | (handles, .ok ()) => (⟨newCfg, handles⟩, .ok ())

def ReloadCall.Visits (call : ReloadCall) (d : Daemon) : Prop :=
  call.stopOrder.Perm (tunnelNames d.cfg.tunnels) ∧
    ∀ newCfg ∈ call.newCfg, call.startOrder.Perm (tunnelNames newCfg.tunnels)

def reloadStep (d : Daemon) (call : ReloadCall) : Option Daemon := some (d.reload call).1

def Admissible (d : Daemon) (call : ReloadCall) : Prop := call.Visits d

def Daemon.Consistent (d : Daemon) : Prop :=
  ∀ name, (d.handles name).map TunnelHandle.startedFrom = tunnelsByName d.cfg.tunnels name

/-- The running handles agree with the diff `Reload` is about to compute: what
the two configs share is running, and what neither of them names is not. -/
def Daemon.Covered (d : Daemon) (newCfg : Config) : Prop :=
  (∀ name t, tunnelsByName d.cfg.tunnels name = some t →
    tunnelsByName newCfg.tunnels name = some t →
    (d.handles name).map TunnelHandle.startedFrom = some t) ∧
  (∀ name, tunnelsByName d.cfg.tunnels name = none →
    tunnelsByName newCfg.tunnels name = none → d.handles name = none)

theorem start_ok {t : Tunnel} {outcome : Option String} {handle : TunnelHandle}
    (h : start t outcome = .ok handle) : handle.startedFrom = t := by
  unfold start at h
  split at h
  · cases h
  · split at h <;> · cases h; rfl

theorem tunnelsByName_append (tunnels : List Tunnel) (t : Tunnel) (name : String) :
    tunnelsByName (tunnels ++ [t]) name =
      if name = t.name then some t else tunnelsByName tunnels name := by
  simp [tunnelsByName, addTunnel, update_apply]

theorem tunnelsByName_isSome (tunnels : List Tunnel) (name : String) :
    (tunnelsByName tunnels name).isSome ↔ name ∈ tunnelNames tunnels := by
  rw [tunnelNames, mem_dedup]
  induction tunnels using reverseRecOn with
  | nil => simp [tunnelsByName]
  | append_singleton tunnels t ih =>
    rw [tunnelsByName_append]
    split
    next heq =>
      simp [heq]
    next hne =>
      simp [ih, hne]

theorem tunnelsByName_eq_some {tunnels : List Tunnel} {name : String} {t : Tunnel}
    (h : tunnelsByName tunnels name = some t) : t.name = name ∧ t ∈ tunnels := by
  induction tunnels using reverseRecOn with
  | nil => cases h
  | append_singleton tunnels u ih =>
    rw [tunnelsByName_append] at h
    split at h
    next hname =>
      cases h
      exact ⟨hname.symm, mem_append_right _ mem_cons_self⟩
    · obtain ⟨hname, hmem⟩ := ih h
      exact ⟨hname, mem_append_left _ hmem⟩

theorem stopLoop_apply (oldByName newByName : String → Option Tunnel) (order : List String)
    (handles : Handles) (name : String) :
    stopLoop oldByName newByName order handles name =
      if name ∈ order ∧ (oldByName name).isSome ∧ newByName name ≠ oldByName name then none
      else handles name := by
  induction order generalizing handles with
  | nil => simp [stopLoop]
  | cons head rest ih =>
    by_cases hname : name = head
    · subst hname
      cases hold : oldByName name with
      | none => simp [stopLoop, hold, ih]
      | some oldTunnel =>
        by_cases hnew : newByName name = some oldTunnel
        · simp [stopLoop, hold, hnew, ih]
        · simp [stopLoop, hold, hnew, ih, stop]
    · cases hold : oldByName head with
      | none => simp [stopLoop, hold, ih, hname]
      | some oldTunnel =>
        by_cases hnew : newByName head = some oldTunnel
        · simp [stopLoop, hold, hnew, ih, hname]
        · simp [stopLoop, hold, hnew, ih, hname, stop]

/-- A start loop that returns no error has replaced exactly the new and changed tunnels. -/
theorem startLoop_ok {oldByName newByName : String → Option Tunnel}
    {order : List String} {handles result : Handles}
    (h : startLoop oldByName newByName outcome order handles = (result, .ok ()))
    (name : String) :
    (result name).map TunnelHandle.startedFrom =
      if name ∈ order ∧ (newByName name).isSome ∧ newByName name ≠ oldByName name then newByName name
      else (handles name).map TunnelHandle.startedFrom := by
  induction order generalizing handles with
  | nil =>
    simp only [startLoop, Prod.mk.injEq, and_true] at h
    simp [h]
  | cons head rest ih =>
    simp only [startLoop] at h
    split at h
    next hnew =>
      rw [ih h]
      by_cases hname : name = head
      · subst hname
        simp [hnew]
      · simp [hname]
    next newTunnel hnew =>
      split at h
      next hold =>
        rw [ih h]
        by_cases hname : name = head
        · subst hname
          simp [hnew, hold]
        · simp [hname]
      next hold =>
        split at h
        · cases h
        rename_i handle hstart
        rw [ih h]
        by_cases hname : name = head
        · subst hname
          have hne : newByName name ≠ oldByName name := fun heq => hold (heq ▸ hnew)
          have hself : (update handles name (some handle) name).map
              TunnelHandle.startedFrom = newByName name := by
            simp [hnew, start_ok hstart]
          rw [hself, ite_self, if_pos ⟨mem_cons_self, by simp [hnew], hne⟩]
        · simp [hname]

theorem reload_ok {d d' : Daemon} {call : ReloadCall} (hvisits : call.Visits d)
    (h : d.reload call = (d', .ok ())) :
    ∃ newCfg, call.newCfg = some newCfg ∧ newCfg.validate = .ok () ∧ d'.cfg = newCfg ∧
      ∀ name, (d'.handles name).map TunnelHandle.startedFrom =
        if tunnelsByName newCfg.tunnels name = tunnelsByName d.cfg.tunnels name then
          (d.handles name).map TunnelHandle.startedFrom
        else tunnelsByName newCfg.tunnels name := by
  unfold Daemon.reload at h
  split at h
  · cases h
  rename_i newCfg hcfg
  split at h
  · cases h
  rename_i hvalid
  simp only at h
  split at h
  · cases h
  rename_i handles hloop
  obtain ⟨rfl, -⟩ := Prod.mk.inj h
  refine ⟨newCfg, hcfg, hvalid, rfl, ?_⟩
  intro name
  have hstop : name ∈ call.stopOrder ↔ (tunnelsByName d.cfg.tunnels name).isSome := by
    rw [hvisits.1.mem_iff, tunnelsByName_isSome]
  have hstart : name ∈ call.startOrder ↔ (tunnelsByName newCfg.tunnels name).isSome := by
    rw [(hvisits.2 newCfg hcfg).mem_iff, tunnelsByName_isSome]
  rw [startLoop_ok hloop, stopLoop_apply]
  simp only [hstop, hstart]
  by_cases heq : tunnelsByName newCfg.tunnels name = tunnelsByName d.cfg.tunnels name
  · simp [heq]
  cases hnew : tunnelsByName newCfg.tunnels name with
  | none =>
    cases hold : tunnelsByName d.cfg.tunnels name with
    | none => exact absurd (hnew.trans hold.symm) heq
    | some t => simp
  | some t =>
    have hne : ¬some t = tunnelsByName d.cfg.tunnels name := fun h => heq (hnew.trans h)
    simp [hne]

theorem Daemon.Consistent.covered {d : Daemon} (h : d.Consistent) (newCfg : Config) :
    d.Covered newCfg := by
  refine ⟨?_, ?_⟩
  · intro name t hold _
    rw [h name, hold]
  · intro name hold _
    have := h name
    rw [hold] at this
    simpa using this

theorem reload_consistent_iff {d d' : Daemon} {call : ReloadCall} {newCfg : Config}
    (hvisits : call.Visits d) (hcall : call.newCfg = some newCfg)
    (h : d.reload call = (d', .ok ())) : d'.Consistent ↔ d.Covered newCfg := by
  obtain ⟨cfg, hcfg, _, hd', happly⟩ := reload_ok hvisits h
  obtain rfl := Option.some.inj (hcfg.symm.trans hcall)
  unfold Daemon.Consistent Daemon.Covered
  rw [hd']
  constructor
  · intro hc
    refine ⟨?_, ?_⟩
    · intro name t hold hnew
      have := hc name
      rw [happly, if_pos (hnew.trans hold.symm), hnew] at this
      exact this
    · intro name hold hnew
      have := hc name
      rw [happly, if_pos (hnew.trans hold.symm), hnew] at this
      simpa using this
  · rintro ⟨hshared, hgone⟩ name
    rw [happly]
    split
    next heq =>
      cases hnew : tunnelsByName cfg.tunnels name with
      | none => simp [hgone name (heq.symm.trans hnew) hnew]
      | some t => exact hshared name t (heq.symm.trans hnew) hnew
    · rfl

theorem startAll_ok {tunnels : List Tunnel}
    {handles result : Handles} {byName : String → Option Tunnel}
    (hagree : ∀ name, (handles name).map TunnelHandle.startedFrom = byName name)
    (h : startAll outcome tunnels handles = .ok result) (name : String) :
    (result name).map TunnelHandle.startedFrom = tunnels.foldl addTunnel byName name := by
  induction tunnels generalizing handles byName with
  | nil =>
    cases h
    exact hagree name
  | cons t rest ih =>
    simp only [startAll] at h
    split at h
    · cases h
    rename_i handle hstart
    refine ih ?_ h
    intro other
    by_cases hother : other = t.name
    · simp [addTunnel, hother, start_ok hstart]
    · simpa [addTunnel, hother] using hagree other

theorem run_consistent {cfg : Option Config} {boot : Option String}
    {d : Daemon} (h : run cfg boot outcome = .ok d) :
    d.Consistent := by
  unfold run at h
  split at h
  · cases h
  obtain ⟨_, _, h⟩ := Fallible.bind_eq_ok.mp h
  split at h
  · cases h
  obtain ⟨handles, hstart, h⟩ := Fallible.bind_eq_ok.mp h
  cases h
  exact fun name => startAll_ok (fun _ => rfl) hstart name

/-- The reload step, if it returns nil, leaves the daemon matching `Config()`. -/
def LeavesConsistent (d : Daemon) (call : ReloadCall) : Prop :=
  Admissible d call ∧ ((d.reload call).2 = .ok () → (d.reload call).1.Consistent)

/-- The reload step, if it returns nil, was taken from a state the diff describes. -/
def StartsCovered (d : Daemon) (call : ReloadCall) : Prop :=
  Admissible d call ∧ ((d.reload call).2 = .ok () → ∀ newCfg ∈ call.newCfg, d.Covered newCfg)

theorem leavesConsistent_iff_startsCovered (d : Daemon) (call : ReloadCall) :
    LeavesConsistent d call ↔ StartsCovered d call := by
  refine and_congr_right fun hvisits => ?_
  constructor
  · intro h hok newCfg hcfg
    exact (reload_consistent_iff hvisits hcfg (Prod.ext rfl hok)).mp (h hok)
  · intro h hok
    obtain ⟨newCfg, hcfg, -⟩ := reload_ok hvisits (Prod.ext rfl hok)
    exact (reload_consistent_iff hvisits hcfg (Prod.ext rfl hok)).mpr (h hok newCfg hcfg)

/-- Over a whole sequence of reloads after a successful `Run`: every reload that
returns nil leaves the daemon consistent exactly when each of them started from
a state its diff describes. -/
theorem reloads_consistent_iff_covered {cfg : Option Config} {boot : Option String}
    {outcome : String → Option String} {d₀ : Daemon} (hrun : run cfg boot outcome = .ok d₀) :
    d₀.Consistent ∧ ∀ (calls : List ReloadCall) (d : Daemon),
      Run reloadStep LeavesConsistent d₀ calls d ↔ Run reloadStep StartsCovered d₀ calls d := by
  refine ⟨run_consistent hrun, fun calls d => ⟨fun h => ?_, fun h => ?_⟩⟩
  · exact h.mono fun d call => (leavesConsistent_iff_startsCovered d call).mp
  · exact h.mono fun d call => (leavesConsistent_iff_startsCovered d call).mpr

theorem reloads_ok_consistent {cfg : Option Config} {boot : Option String}
    {d₀ d : Daemon} (hrun : run cfg boot outcome = .ok d₀)
    {calls : List ReloadCall} (hcalls : Run reloadStep
      (fun d call => Admissible d call ∧ (d.reload call).2 = .ok ()) d₀ calls d) :
    d.Consistent := by
  refine hcalls.invariant ?_ (run_consistent hrun)
  rintro d call d' hd ⟨hvisits, hok⟩ hstep
  cases hstep
  obtain ⟨newCfg, hcfg, -⟩ := reload_ok hvisits (Prod.ext rfl hok)
  exact (reload_consistent_iff hvisits hcfg (Prod.ext rfl hok)).mpr (hd.covered newCfg)

section Example

def tunnelA (target : String) : Tunnel :=
  { name := "a", type := .forward, mode := .server, logicalPort := 45010, protocol := .tcp,
    target := target, allowUnauthenticated := true }

def configA (target : String) : Config := { tunnels := [tunnelA target] }

def reloadA (target : String) (fails : Option String) : ReloadCall where
  newCfg := some (configA target)
  stopOrder := ["a"]
  startOrder := ["a"]
  outcome := fun _ => fails

def daemonA (target : String) (running : Option TunnelHandle) : Daemon where
  cfg := configA target
  handles := update (fun _ => none) "a" running

def handleA (target : String) : TunnelHandle where
  lock := some 45010
  proto := some (protocolForService 45010)
  startedFrom := tunnelA target

theorem run_configA : run (some (configA "127.0.0.1:5432")) none (fun _ => none) =
    .ok (daemonA "127.0.0.1:5432" (some (handleA "127.0.0.1:5432"))) := by
  rfl

theorem reloadA_visits (target target' : String) (fails : Option String)
    (running : Option TunnelHandle) : (reloadA target fails).Visits (daemonA target' running) := by
  refine ⟨List.Perm.refl _, ?_⟩
  intro newCfg hcfg
  cases hcfg
  exact List.Perm.refl _

theorem reloads_consistent_iff_covered_example :
    ∃ d, Run reloadStep LeavesConsistent
      (daemonA "127.0.0.1:5432" (some (handleA "127.0.0.1:5432")))
      [reloadA "127.0.0.1:5433" none] d := by
  obtain ⟨hstart, hiff⟩ := reloads_consistent_iff_covered run_configA
  refine ⟨_, (hiff _ _).mpr (.single ⟨reloadA_visits _ _ _ _, ?_⟩ rfl)⟩
  intro _ newCfg _
  exact hstart.covered newCfg

theorem reloads_ok_consistent_example :
    ((daemonA "127.0.0.1:5432" (some (handleA "127.0.0.1:5432"))).reload
      (reloadA "127.0.0.1:5433" none)).1.Consistent :=
  reloads_ok_consistent run_configA (.single ⟨reloadA_visits .., rfl⟩ rfl)

/-- A failed reload has stopped the tunnel but kept the old config; reloading
that old config then finds nothing to do and returns nil with the tunnel down. -/
theorem reload_after_failed_reload :
    ∃ d₀ d d' : Daemon,
      run (some (configA "127.0.0.1:5432")) none (fun _ => none) = .ok d₀ ∧
      Run reloadStep Admissible d₀ [reloadA "127.0.0.1:5433" (some "bind: address in use")] d ∧
      (reloadA "127.0.0.1:5432" none).Visits d ∧
      d.reload (reloadA "127.0.0.1:5432" none) = (d', .ok ()) ∧ ¬d'.Consistent := by
  refine ⟨daemonA "127.0.0.1:5432" (some (handleA "127.0.0.1:5432")), _, _, run_configA,
    .single (reloadA_visits _ _ _ _) rfl, reloadA_visits _ _ _ none, rfl, ?_⟩
  intro hconsistent
  have hdown := hconsistent "a"
  exact absurd hdown (by decide)

end Example

end P2PNetcat.Tunnels
