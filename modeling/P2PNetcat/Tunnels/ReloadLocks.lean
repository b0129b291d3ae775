import P2PNetcat.Tunnels.Teardown

/-!
# The logical-port locks during a reload

A call of `Reload` visits the names of its two maps one after the other, while
streams, sessions and loops take their steps. The lock table of the process is
that of one daemon.
-/

namespace P2PNetcat.Tunnels
open List Function GoText StepSystem Pairing

variable {L : Libraries}

/-- How far a call of `Reload` is: the names that its loops have yet to visit. -/
inductive ReloadPhase where
  | idle (result : Except String Unit)
  | stopping (newCfg : Config) (rest starts : List String)
  | starting (newCfg : Config) (rest : List String)

structure Live (L : Libraries) where
  run : RunState L
  cfg : Config
  phase : ReloadPhase := .idle (.ok ())

inductive LiveEvent where
  | reload (newCfg : Option Config) (stopOrder startOrder : List String)
  | visit (sys : System)
  | daemon (e : RunEvent)

namespace Live

def machine (s : Live L) : Machine L := s.run.machine

def setMachine (s : Live L) (m : Machine L) (phase : ReloadPhase) : Live L :=
  { s with run.machine := m, phase := phase }

/-- `Reload` up to its first loop. -/
def beginReload (s : Live L) (newCfg : Option Config) (stopOrder startOrder : List String) :
    Live L :=
  match newCfg with
  | none => { s with phase := .idle (.error "tunnel config is required") }
  | some newCfg =>
    match newCfg.validate with
    | .error err => { s with phase := .idle (.error err) }
    | .ok () => { s with phase := .stopping newCfg stopOrder startOrder }

def stopVisit (s : Live L) (newCfg : Config) (name : String) : Machine L :=
  match tunnelsByName s.cfg.tunnels name with
  | none => s.machine
  | some oldTunnel =>
    if tunnelsByName newCfg.tunnels name = some oldTunnel then s.machine
    else s.machine.stop name

def startVisit (s : Live L) (newCfg : Config) (name : String) (rest : List String)
    (sys : System) : Live L :=
  match tunnelsByName newCfg.tunnels name with
  | none => { s with phase := .starting newCfg rest }
  | some newTunnel =>
    if tunnelsByName s.cfg.tunnels name = some newTunnel then
      { s with phase := .starting newCfg rest }
    else
      match s.machine.start sys newTunnel with
      | (m, .error err) =>
        s.setMachine m (.idle (.error ("reload: tunnel " ++ quote name ++ ": " ++ err)))
      | (m, .ok handle) => s.setMachine (m.register name handle) (.starting newCfg rest)

def step (s : Live L) : LiveEvent → Option (Live L)
  | .reload newCfg stopOrder startOrder =>
    match s.phase with
    | .idle _ => some (s.beginReload newCfg stopOrder startOrder)
    | _ => none
  | .visit sys =>
    match s.phase with
    | .idle _ => none
    | .stopping newCfg (name :: rest) starts =>
      some (s.setMachine (s.stopVisit newCfg name) (.stopping newCfg rest starts))
    | .stopping newCfg [] starts => some { s with phase := .starting newCfg starts }
    | .starting newCfg (name :: rest) => some (s.startVisit newCfg name rest sys)
    | .starting newCfg [] => some { s with cfg := newCfg, phase := .idle (.ok ()) }
  | .daemon e =>
    match s.run.step e with
    | none => none
    | some run => some { s with run := run }

def InCall (_ : Live L) : LiveEvent → Prop
  | .reload .. => False
  | .visit _ | .daemon _ => True

def daemon (s : Live L) : Daemon := ⟨s.cfg, s.machine.host.handles⟩

def Starts (s : Live L) (t : Tunnel) : Prop :=
  ∃ newCfg name rest, s.phase = .starting newCfg (name :: rest) ∧
    tunnelsByName newCfg.tunnels name = some t ∧ tunnelsByName s.cfg.tunnels name ≠ some t

end Live

namespace Machine

def FailsOnOwnLock (m : Machine L) (sys : System) (t : Tunnel) : Prop :=
  t.mode = .server ∧ m.locks t.logicalPort = true ∧
    (m.start sys t).2 = .error ("acquire logical port " ++ toString t.logicalPort.toNat ++ ": " ++
      inUseError t.logicalPort)

/-- The lock, the stream handler and the socket of a handle are as they were. -/
structure Spares (m m' : Machine L) (handle : OpenHandle) : Prop where
  lock : ∀ port, handle.lock = some port → m'.locks port = m.locks port
  proto : ∀ proto, handle.proto = some proto → m'.handlers proto = m.handlers proto
  socket : ∀ id, handle.socket = some id → m'.listeners.live id = m.listeners.live id

def LocksOwned (m : Machine L) : Prop := ∀ port, port ≠ 0 → m.locks port = true →
  ∃ name handle, m.handles name = some handle ∧ handle.lock = some port

structure Once (m : Machine L) {κ : Type} (f : OpenHandle → Option κ) : Prop where
  name_eq : ∀ {name name' handle handle' k}, m.handles name = some handle →
    m.handles name' = some handle' → f handle = some k → f handle' = some k → name = name'

end Machine

structure OpenHandle.Made (handle : OpenHandle) : Prop where
  lock : ∀ port, handle.lock = some port ↔
    handle.startedFrom.mode = .server ∧ port = handle.startedFrom.logicalPort
  proto : ∀ proto, handle.proto = some proto →
    handle.startedFrom.mode = .server ∧ proto = serverProtocol handle.startedFrom

/-- What the handles of a daemon stand for, whatever calls of `Reload` have made of them. -/
structure Machine.Wired (m : Machine L) : Prop where
  made : ∀ {name handle}, m.handles name = some handle → handle.Made
  held : ∀ {name handle port}, m.handles name = some handle → handle.lock = some port →
    m.locks port = true
  opened : ∀ {name handle id}, m.handles name = some handle → handle.socket = some id →
    id < m.listeners.next
  locks : m.Once fun handle => handle.lock
  sockets : m.Once OpenHandle.socket

section Protocols

theorem toString_nat_injective {a b : Nat} (h : toString a = toString b) : a = b := by
  have hdigits : (Nat.repr a).toList = (Nat.repr b).toList := congrArg String.toList h
  rw [Nat.toList_repr, Nat.toList_repr] at hdigits
  calc
    a = Nat.ofDigitChars 10 (Nat.toDigits 10 a) 0 := Nat.ofDigitChars_ten_toDigits.symm
    _ = Nat.ofDigitChars 10 (Nat.toDigits 10 b) 0 := by rw [hdigits]
    _ = b := Nat.ofDigitChars_ten_toDigits

theorem port_of_protocol (base : String) {a b : UInt16}
    (h : base ++ toString a.toNat = base ++ toString b.toNat) : a = b := by
  have hport := (String.append_right_inj base).mp h
  exact UInt16.toNat_inj.mp (toString_nat_injective hport)

theorem datagramProtocolForService_ne (a b : UInt16) :
    datagramProtocolForService a ≠ protocolForService b := by
  intro h
  have hhead : ("/p2p-netcat/udp/1.0.0/" ++ toString a.toNat).toList.take 13 =
      ("/p2p-netcat/1.0.0/" ++ toString b.toNat).toList.take 13 :=
    congrArg (fun text => text.toList.take 13) h
  rw [String.toList_append, String.toList_append, take_append_of_le_length (by decide),
    take_append_of_le_length (by decide)] at hhead
  exact absurd hhead (by decide)

theorem logicalPort_of_serverProtocol {t u : Tunnel} (h : serverProtocol t = serverProtocol u) :
    t.logicalPort = u.logicalPort := by
  rw [serverProtocol, serverProtocol] at h
  split at h
  · split at h
    · exact port_of_protocol _ h
    · exact absurd h (datagramProtocolForService_ne _ _)
  · split at h
    · exact absurd h.symm (datagramProtocolForService_ne _ _)
    · exact port_of_protocol _ h

end Protocols

namespace Machine
variable {m m' : Machine L} {handle : OpenHandle} {t : Tunnel}

theorem Once.stop {κ : Type} {f : OpenHandle → Option κ} (h : m.Once f) (name : String) :
    (m.stop name).Once f := by
  refine ⟨?_⟩
  intro a b x y k hx hy hfx hfy
  exact h.name_eq (handles_stop_eq_some.mp hx).2 (handles_stop_eq_some.mp hy).2 hfx hfy

theorem Once.register {κ : Type} {f : OpenHandle → Option κ} (h : m.Once f)
    (hhandles : m'.handles = m.handles) {name : String}
    (hnew : ∀ other handle' k, m.handles other = some handle' → f handle' = some k →
      f handle ≠ some k) : (m'.register name handle).Once f := by
  refine ⟨?_⟩
  intro a b x y k hx hy hfx hfy
  simp only [Machine.register, hhandles, update_apply] at hx hy
  split at hx
  · cases hx
    split at hy
    next ha hb =>
      exact ha.trans hb.symm
    · exact absurd hfx (hnew b y k hy hfy)
  · split at hy
    · cases hy
      exact absurd hfy (hnew a x k hx hfx)
    · exact h.name_eq hx hy hfx hfy

theorem Wired.stop (h : m.Wired) (name : String) : (m.stop name).Wired where
  made := fun hx => h.made (handles_stop_eq_some.mp hx).2
  held := by
    intro other handle port hx hport
    obtain ⟨hne, hx⟩ := handles_stop_eq_some.mp hx
    rw [lock_stop, if_neg, h.held hx hport]
    exact not_owner fun _ hx' hlock => hne (h.locks.name_eq hx hx' hport hlock)
  opened := by
    intro other handle id hx hid
    rw [listeners_next_stop]
    exact h.opened (handles_stop_eq_some.mp hx).2 hid
  locks := h.locks.stop name
  sockets := h.sockets.stop name

theorem Wired.of_eq (h : m.Wired) (hlocks : m'.locks = m.locks)
    (hhandles : m'.handles = m.handles) (hnext : m'.listeners.next = m.listeners.next) :
    m'.Wired := by
  obtain ⟨hmade, hheld, hopened, ⟨hlock⟩, ⟨hsocket⟩⟩ := h
  rw [← hhandles, ← hlocks] at hheld
  rw [← hhandles, ← hnext] at hopened
  rw [← hhandles] at hmade hlock hsocket
  exact ⟨hmade, hheld, hopened, ⟨hlock⟩, ⟨hsocket⟩⟩

section
variable (h : Unchanged m m')
include h

theorem Unchanged.locks_eq : m'.locks = m.locks := by rw [h.rest]

theorem Unchanged.handles_eq : m'.handles = m.handles := by rw [h.rest]

theorem Unchanged.handlers_eq : m'.handlers = m.handlers := by rw [h.rest]

theorem Unchanged.listeners_eq : m'.listeners = m.listeners := by rw [h.rest]

end

theorem Started.made (h : Started m t m' handle) :
    handle.Made ∧ handle.startedFrom = t := by
  cases h with
  | server handler htunnel hmode hfree =>
    refine ⟨⟨?_, ?_⟩, rfl⟩
    · intro port
      exact ⟨fun heq => ⟨hmode, (Option.some.inj heq).symm⟩, fun heq => congrArg some heq.2.symm⟩
    · intro proto heq
      exact ⟨hmode, (Option.some.inj heq).symm⟩
  | tcp listener hmode | udp stream listener hmode =>
    refine ⟨⟨?_, nofun⟩, rfl⟩
    intro port
    exact ⟨nofun, fun heq => absurd heq.1 hmode⟩

theorem Started.locks (h : Started m t m' handle) :
    (∀ port, handle.lock = some port → m.locks port = false) ∧
      ∀ port, m'.locks port = true ↔ handle.lock = some port ∨ m.locks port = true := by
  cases h with
  | server handler htunnel hmode hfree =>
    refine ⟨?_, ?_⟩
    · intro port heq
      cases heq
      exact hfree
    · intro port
      show update m.locks t.logicalPort true port = true ↔ _
      rw [update_apply, Option.some.injEq]
      by_cases heq : port = t.logicalPort
      · simp [heq]
      · simp [heq, Ne.symm heq]
  | tcp listener | udp stream listener => exact ⟨nofun, fun _ => by simp [clientHandle, bind, addStream]⟩

theorem Started.sockets (h : Started m t m' handle) :
    m.listeners.next ≤ m'.listeners.next ∧ ∀ id, handle.socket = some id →
      m.listeners.next ≤ id ∧ id < m'.listeners.next := by
  cases h with
  | server handler htunnel hmode hfree => exact ⟨Nat.le_refl _, nofun⟩
  | tcp listener | udp stream listener =>
    refine ⟨Nat.le_succ _, ?_⟩
    intro id heq
    cases heq
    exact ⟨Nat.le_refl _, Nat.lt_succ_self _⟩

theorem Wired.started (h : m.Wired)
    (hstarted : Started m t m' handle) (name : String) : (m'.register name handle).Wired := by
  have hhandles := hstarted.handles_eq
  obtain ⟨hfree, hlocks⟩ := hstarted.locks
  obtain ⟨hnext, hsocket⟩ := hstarted.sockets
  have hentry : ∀ {other entry}, (m'.register name handle).handles other = some entry →
      entry = handle ∨ m.handles other = some entry := by
    intro other entry hentry
    simp only [register, hhandles, update_apply] at hentry
    split at hentry
    · exact .inl (Option.some.inj hentry).symm
    · exact .inr hentry
  refine ⟨?_, ?_, ?_, ?_, ?_⟩
  · intro other entry hother
    rcases hentry hother with rfl | hold
    · exact hstarted.made.1
    · exact h.made hold
  · intro other entry port hother hport
    refine (hlocks port).mpr ?_
    rcases hentry hother with rfl | hold
    · exact .inl hport
    · exact .inr (h.held hold hport)
  · intro other entry id hother hid
    rcases hentry hother with rfl | hold
    · exact (hsocket id hid).2
    · exact Nat.lt_of_lt_of_le (h.opened hold hid) hnext
  · refine h.locks.register hhandles ?_
    intro other entry port hold hport heq
    cases (hfree port heq).symm.trans (h.held hold hport)
  · refine h.sockets.register hhandles ?_
    intro other entry id hold hid heq
    exact Nat.not_lt.mpr (hsocket id heq).1 (h.opened hold hid)

theorem Wired.unchanged (h : m.Wired) (hsame : Unchanged m m') : m'.Wired :=
  h.of_eq hsame.locks_eq hsame.handles_eq (congrArg Registry.next hsame.listeners_eq)

section Spares
variable {name : String} {handle : OpenHandle}

theorem Spares.refl (m : Machine L) (handle : OpenHandle) : Spares m m handle :=
  ⟨fun _ _ => rfl, fun _ _ => rfl, fun _ _ => rfl⟩

theorem Spares.unchanged (hsame : Unchanged m m') : Spares m m' handle where
  lock := fun port _ => congrFun hsame.locks_eq port
  proto := fun proto _ => congrFun hsame.handlers_eq proto
  socket := fun id _ => congrFun (congrArg Registry.live hsame.listeners_eq) id

theorem Spares.stop (hw : m.Wired) (hx : m.handles name = some handle) {other : String}
    (hne : name ≠ other) : Spares m (m.stop other) handle where
  lock := by
    intro port hport
    rw [lock_stop, if_neg]
    exact not_owner fun _ hx' hlock => hne (hw.locks.name_eq hx hx' hport hlock)
  proto := by
    intro proto hproto
    rw [handler_stop, if_neg]
    refine not_owner fun handle' hx' hproto' => ?_
    obtain ⟨hmode, hp⟩ := (hw.made hx).proto _ hproto
    obtain ⟨hmode', hp'⟩ := (hw.made hx').proto _ hproto'
    have hport := logicalPort_of_serverProtocol (hp.symm.trans hp')
    have hlock := ((hw.made hx).lock _).mpr ⟨hmode, rfl⟩
    have hlock' := ((hw.made hx').lock _).mpr ⟨hmode', hport⟩
    exact hne (hw.locks.name_eq hx hx' hlock hlock')
  socket := by
    intro id hid
    rw [listener_stop, if_neg]
    exact not_owner fun _ hx' hid' => hne (hw.sockets.name_eq hx hx' hid hid')

theorem Spares.started (hw : m.Wired) (hx : m.handles name = some handle) {t : Tunnel}
    {handle' : OpenHandle} (hstarted : Started m t m' handle') (other : String) :
    Spares m (m'.register other handle') handle where
  lock := by
    intro port hport
    have hheld := hw.held hx hport
    rw [hheld]
    exact (hstarted.locks.2 port).mpr (.inr hheld)
  proto := by
    intro proto hproto
    cases hstarted with
    | server handler htunnel hmode hfree =>
      subst htunnel
      show update m.handlers (serverProtocol handler.tunnel) (some handler) proto = _
      rw [update_of_ne]
      rintro rfl
      obtain ⟨hserver, hp⟩ := (hw.made hx).proto _ hproto
      have hlock := ((hw.made hx).lock _).mpr ⟨hserver, logicalPort_of_serverProtocol hp⟩
      cases hfree.symm.trans (hw.held hx hlock)
    | tcp listener | udp stream listener => rfl
  socket := by
    intro id hid
    have hlt := hw.opened hx hid
    cases hstarted with
    | server handler htunnel hmode hfree => rfl
    | tcp listener | udp stream listener =>
      show (m.listeners.add listener).live id = _
      rw [Registry.live_add, if_neg (Nat.ne_of_lt hlt)]

end Spares

theorem LocksOwned.of_eq (h : m.LocksOwned) (hlocks : m'.locks = m.locks)
    (hhandles : m'.handles = m.handles) : m'.LocksOwned := by
  intro port hzero hport
  rw [hhandles]
  exact h port hzero (hlocks ▸ hport)

theorem LocksOwned.stop (h : m.LocksOwned) (name : String) : (m.stop name).LocksOwned := by
  intro port hzero hport
  rw [lock_stop] at hport
  split at hport
  · cases hport
  rename_i hne
  exact owner_stop (h port hzero hport) hne

theorem LocksOwned.started (h : m.LocksOwned)
    (hstarted : Started m t m' handle) {name : String} (hnew : m.handles name = none) :
    (m'.register name handle).LocksOwned := by
  intro port hzero hport
  rcases (hstarted.locks.2 port).mp hport with hlock | hold
  · exact ⟨name, handle, update_self .., hlock⟩
  · exact owner_register (f := fun handle => handle.lock) hstarted.handles_eq hnew
      (h port hzero hold)

end Machine

namespace RunState
variable {s s' : RunState L} {e : RunEvent}

theorem step_running (hphase : s.phase = .running) (hstep : s.step e = some s') :
    s'.phase = .running ∧ s'.machine.locks = s.machine.locks ∧
      s'.machine.handles = s.machine.handles ∧
      s'.machine.listeners.next = s.machine.listeners.next := by
  cases step_taken hstep with
  | start _ _ _ _ _ hother | stop _ _ _ hother | closeNode _ hother | running hother
  | returned _ hother => cases hphase.symm.trans hother
  | aside _ haside =>
    exact ⟨haside.phase.trans hphase, haside.locks, haside.handles, haside.next⟩

theorem wired_step (h : s.machine.Wired) (hstep : s.step e = some s') : s'.machine.Wired := by
  cases step_taken hstep with
  | start t rest sys order =>
    rw [stepStart]
    split
    next m handle hstart =>
      exact h.started (Machine.start_ok hstart) t.name
    next m err hstart =>
      exact h.unchanged (Machine.start_error hstart)
  | stop _ name => exact h.stop name
  | closeNode | running | returned => exact h.of_eq rfl rfl rfl
  | aside _ haside => exact h.of_eq haside.locks haside.handles haside.next

def Reaches (cfg : Config) (s : RunState L) : Prop :=
  match s.phase with
  | .starting rest => ∃ done, cfg.tunnels = done ++ rest ∧ ∀ name,
      (s.machine.handles name).map (fun handle => handle.startedFrom) = tunnelsByName done name
  | .running => ∀ name, (s.machine.handles name).map (fun handle => handle.startedFrom) =
      tunnelsByName cfg.tunnels name
  | .closing .. | .waiting _ | .returned _ => True

theorem Reaches.step {cfg : Config} (h : s.Reaches cfg) (hstep : s.step e = some s') :
    s'.Reaches cfg := by
  unfold Reaches at h
  cases step_taken hstep with
  | start t rest sys order _ hphase =>
    simp only [hphase] at h
    obtain ⟨done, hdone, hhandles⟩ := h
    rw [stepStart]
    split
    next m handle hstart =>
      have hstarted := Machine.start_ok hstart
      refine ⟨done ++ [t], by rw [hdone, append_assoc, singleton_append], ?_⟩
      intro name
      rw [tunnelsByName_append, ← hhandles name, Machine.register, hstarted.handles_eq]
      simp only [update_apply]
      split
      · rw [Option.map_some, hstarted.made.2]
      · rfl
    · exact trivial
  | stop err name names | closeNode err | returned err => exact trivial
  | running hphase =>
    simp only [hphase] at h
    obtain ⟨done, hdone, hhandles⟩ := h
    rw [append_nil] at hdone
    unfold Reaches
    rw [hdone]
    exact hhandles
  | aside _ haside =>
    unfold Reaches
    rw [haside.phase, haside.handles]
    exact h

end RunState

namespace Live

inductive Visited (s : Live L) : Live L → Prop where
  | skipped (newCfg : Config) (name : String) (rest starts : List String)
      (hphase : s.phase = .stopping newCfg (name :: rest) starts)
      (hkeep : tunnelsByName s.cfg.tunnels name = none ∨
        tunnelsByName newCfg.tunnels name = tunnelsByName s.cfg.tunnels name) :
      Visited s { s with phase := .stopping newCfg rest starts }
  | stopped (newCfg : Config) (name : String) (rest starts : List String)
      (hphase : s.phase = .stopping newCfg (name :: rest) starts)
      (hdiff : tunnelsByName newCfg.tunnels name ≠ tunnelsByName s.cfg.tunnels name)
      (hsome : tunnelsByName s.cfg.tunnels name ≠ none) :
      Visited s (s.setMachine (s.machine.stop name) (.stopping newCfg rest starts))
  | turned (newCfg : Config) (starts : List String) (hphase : s.phase = .stopping newCfg [] starts) :
      Visited s { s with phase := .starting newCfg starts }
  | kept (newCfg : Config) (name : String) (rest : List String)
      (hphase : s.phase = .starting newCfg (name :: rest))
      (hkeep : tunnelsByName newCfg.tunnels name = none ∨
        tunnelsByName newCfg.tunnels name = tunnelsByName s.cfg.tunnels name) :
      Visited s { s with phase := .starting newCfg rest }
  | failed (newCfg : Config) (name : String) (rest : List String) (t : Tunnel) (m : Machine L)
      (sys : System) (err : String) (hphase : s.phase = .starting newCfg (name :: rest))
      (hnew : tunnelsByName newCfg.tunnels name = some t)
      (hdiff : tunnelsByName s.cfg.tunnels name ≠ some t)
      (hstart : s.machine.start sys t = (m, .error err)) :
      Visited s (s.setMachine m (.idle (.error ("reload: tunnel " ++ quote name ++ ": " ++ err))))
  | started (newCfg : Config) (name : String) (rest : List String) (t : Tunnel) (m : Machine L)
      (sys : System) (handle : OpenHandle) (hphase : s.phase = .starting newCfg (name :: rest))
      (hnew : tunnelsByName newCfg.tunnels name = some t)
      (hdiff : tunnelsByName s.cfg.tunnels name ≠ some t)
      (hstart : s.machine.start sys t = (m, .ok handle)) :
      Visited s (s.setMachine (m.register name handle) (.starting newCfg rest))
  | returned (newCfg : Config) (hphase : s.phase = .starting newCfg []) :
      Visited s { s with cfg := newCfg, phase := .idle (.ok ()) }

theorem visited_of_step {s u : Live L} {sys : System} (hstep : s.step (.visit sys) = some u) :
    Visited s u := by
  rw [step] at hstep
  split at hstep
  · cases hstep
  next newCfg name rest starts hphase =>
    cases hstep
    rw [stopVisit]
    split
    next hold =>
      exact .skipped newCfg name rest starts hphase (.inl hold)
    rename_i oldTunnel hold
    split
    next hsame =>
      exact .skipped newCfg name rest starts hphase (.inr (hsame.trans hold.symm))
    rename_i hdiff
    refine .stopped newCfg name rest starts hphase (fun heq => hdiff (heq.trans hold)) ?_
    rw [hold]
    exact Option.some_ne_none _
  next newCfg starts hphase =>
    cases hstep
    exact .turned newCfg starts hphase
  next newCfg name rest hphase =>
    cases hstep
    rw [startVisit]
    split
    next hnew =>
      exact .kept newCfg name rest hphase (.inl hnew)
    rename_i newTunnel hnew
    split
    next hsame =>
      exact .kept newCfg name rest hphase (.inr (hnew.trans hsame.symm))
    rename_i hdiff
    split
    next m err hstart =>
      exact .failed newCfg name rest newTunnel m sys err hphase hnew hdiff hstart
    next m handle hstart =>
      exact .started newCfg name rest newTunnel m sys handle hphase hnew hdiff hstart
  next newCfg hphase =>
    cases hstep
    exact .returned newCfg hphase

theorem step_daemon {s u : Live L} {e : RunEvent} (hstep : s.step (.daemon e) = some u) :
    ∃ run, s.run.step e = some run ∧ u = { s with run := run } := by
  rw [step] at hstep
  split at hstep
  · cases hstep
  next run hrun =>
    exact ⟨run, hrun, (Option.some.inj hstep).symm⟩

theorem handle_of_consistent {s : Live L} (h : s.daemon.Consistent) (name : String) :
    (s.machine.handles name).map (fun handle => handle.startedFrom) =
      tunnelsByName s.cfg.tunnels name := by
  have hname : ((s.machine.handles name).map OpenHandle.toTunnelHandle).map
      TunnelHandle.startedFrom = tunnelsByName s.cfg.tunnels name := h name
  rw [← hname]
  cases s.machine.handles name <;> rfl

section Call
variable {s u u' : Live L} {newCfg : Config} {t : Tunnel}

def InPhase (s : Live L) (newCfg : Config) (u : Live L) : Prop :=
  match u.phase with
  | .idle _ => True
  | .stopping cfg rest starts =>
    cfg = newCfg ∧ u.cfg = s.cfg ∧ starts.Nodup ∧
      (∀ name handle, u.machine.handles name = some handle →
        tunnelsByName s.cfg.tunnels name = some handle.startedFrom) ∧
      ∀ name, tunnelsByName newCfg.tunnels name ≠ tunnelsByName s.cfg.tunnels name →
        u.machine.handles name ≠ none → name ∈ rest
  | .starting cfg rest =>
    cfg = newCfg ∧ u.cfg = s.cfg ∧ rest.Nodup ∧
      (∀ name handle, u.machine.handles name = some handle →
        tunnelsByName newCfg.tunnels name = some handle.startedFrom) ∧
      ∀ name ∈ rest, tunnelsByName newCfg.tunnels name ≠ tunnelsByName s.cfg.tunnels name →
        u.machine.handles name = none

structure Inside (s : Live L) (newCfg : Config) (u : Live L) : Prop where
  running : u.run.phase = .running
  wired : u.machine.Wired
  kept : ∀ name t, tunnelsByName s.cfg.tunnels name = some t →
    tunnelsByName newCfg.tunnels name = some t → u.machine.handles name = s.machine.handles name
  inPhase : InPhase s newCfg u

theorem Inside.begin {stops starts : List String} (hrunning : s.run.phase = .running)
    (hwired : s.machine.Wired) (hconsistent : s.daemon.Consistent)
    (hvalid : newCfg.validate = .ok ()) (hstops : stops.Perm (tunnelNames s.cfg.tunnels))
    (hstarts : starts.Perm (tunnelNames newCfg.tunnels)) :
    Inside s newCfg (s.beginReload (some newCfg) stops starts) := by
  have hbegin : s.beginReload (some newCfg) stops starts =
      { s with phase := .stopping newCfg stops starts } := by
    simp only [beginReload, hvalid]
  rw [hbegin]
  refine ⟨hrunning, hwired, fun _ _ _ _ => rfl, rfl, rfl, ?_, ?_, ?_⟩
  · exact hstarts.nodup_iff.mpr (nodup_dedup _)
  · intro name handle hx
    have hold := handle_of_consistent hconsistent name
    rw [show s.machine.handles name = some handle from hx] at hold
    exact hold.symm
  · intro name _ hx
    rw [hstops.mem_iff, ← tunnelsByName_isSome, ← handle_of_consistent hconsistent name,
      Option.isSome_map]
    exact Option.isSome_iff_ne_none.mpr hx

variable (h : Inside s newCfg u)
include h

theorem Inside.aside {e : RunEvent} {run : RunState L}
    (hstep : u.run.step e = some run) : Inside s newCfg { u with run := run } := by
  obtain ⟨hrunning, hlocks, hhandles, hnext⟩ := RunState.step_running h.running hstep
  refine ⟨hrunning, h.wired.of_eq hlocks hhandles hnext, ?_, ?_⟩
  · intro name t hold hnew
    exact (congrFun hhandles name).trans (h.kept name t hold hnew)
  · have hin := h.inPhase
    unfold InPhase machine at hin ⊢
    simp only [hhandles]
    exact hin

theorem Inside.visited (hvisited : Visited u u') : Inside s newCfg u' := by
  have hin := h.inPhase
  unfold InPhase at hin
  cases hvisited with
  | skipped cfg name rest starts hphase hkeep =>
    simp only [hphase] at hin
    obtain ⟨rfl, hcfg, hnodup, hold, hrest⟩ := hin
    refine ⟨h.running, h.wired, h.kept, rfl, hcfg, hnodup, hold, ?_⟩
    intro other hdiff hx
    refine (mem_cons.mp (hrest other hdiff hx)).resolve_left ?_
    rintro rfl
    obtain ⟨handle, hhandle⟩ := Option.ne_none_iff_exists'.mp hx
    rw [hcfg] at hkeep
    rcases hkeep with hnone | hsame
    · cases hnone.symm.trans (hold other handle hhandle)
    · exact hdiff hsame
  | stopped cfg name rest starts hphase hdiff =>
    simp only [hphase] at hin
    obtain ⟨rfl, hcfg, hnodup, hold, hrest⟩ := hin
    refine ⟨h.running, h.wired.stop name, ?_, rfl, hcfg, hnodup, ?_, ?_⟩
    · intro other t hother hnew
      have hne : other ≠ name := by
        rintro rfl
        rw [hcfg] at hdiff
        exact hdiff (hnew.trans hother.symm)
      show (u.machine.stop name).handles other = _
      rw [Machine.handles_stop, update_of_ne hne]
      exact h.kept other t hother hnew
    · intro other handle hx
      exact hold other handle (Machine.handles_stop_eq_some.mp hx).2
    · intro other hother hx
      obtain ⟨handle, hhandle⟩ := Option.ne_none_iff_exists'.mp hx
      obtain ⟨hne, hhandle⟩ := Machine.handles_stop_eq_some.mp hhandle
      have hmem := hrest other hother (by rw [hhandle]; exact Option.some_ne_none _)
      exact (mem_cons.mp hmem).resolve_left hne
  | turned cfg starts hphase =>
    simp only [hphase] at hin
    obtain ⟨rfl, hcfg, hnodup, hold, hrest⟩ := hin
    refine ⟨h.running, h.wired, h.kept, rfl, hcfg, hnodup, ?_, ?_⟩
    · intro name handle hx
      have hsame : tunnelsByName cfg.tunnels name = tunnelsByName s.cfg.tunnels name := by
        refine Classical.byContradiction fun hdiff => ?_
        have hmem := hrest name hdiff (by
          rw [show u.machine.handles name = some handle from hx]
          exact Option.some_ne_none _)
        cases hmem
      rw [hsame]
      exact hold name handle hx
    · intro name _ hdiff
      refine Classical.byContradiction fun hx => ?_
      cases hrest name hdiff hx
  | kept cfg name rest hphase hkeep =>
    simp only [hphase] at hin
    obtain ⟨rfl, hcfg, hnodup, hnew, hrest⟩ := hin
    exact ⟨h.running, h.wired, h.kept, rfl, hcfg, (nodup_cons.mp hnodup).2, hnew,
      fun other hother => hrest other (mem_cons_of_mem _ hother)⟩
  | failed cfg name rest t m sys err hphase hnew hdiff hstart =>
    have hsame := Machine.start_error hstart
    refine ⟨h.running, h.wired.unchanged hsame, ?_, trivial⟩
    intro other t' hother hnew'
    exact (congrFun hsame.handles_eq other).trans (h.kept other t' hother hnew')
  | started cfg name rest t m sys handle hphase hnew hdiff hstart =>
    simp only [hphase] at hin
    obtain ⟨rfl, hcfg, hnodup, hentries, hrest⟩ := hin
    obtain ⟨hmem, hnodup⟩ := nodup_cons.mp hnodup
    have hstarted := Machine.start_ok hstart
    have hhandles : ∀ other, (m.register name handle).handles other =
        if other = name then some handle else u.machine.handles other := by
      intro other
      rw [Machine.register, hstarted.handles_eq]
      exact update_apply ..
    refine ⟨h.running, h.wired.started hstarted name, ?_, rfl, hcfg, hnodup, ?_, ?_⟩
    · intro other t' hother hnew'
      show (m.register name handle).handles other = _
      rw [hhandles, if_neg]
      · exact h.kept other t' hother hnew'
      · rintro rfl
        rw [hcfg] at hdiff
        exact hdiff (hother.trans (hnew'.symm.trans hnew))
    · intro other entry hx
      have hentry := (hhandles other).symm.trans hx
      split at hentry
      next heq =>
        cases hentry
        rw [heq, hstarted.made.2, hnew]
      · exact hentries other entry hentry
    · intro other hother hdiff'
      show (m.register name handle).handles other = _
      rw [hhandles, if_neg]
      · exact hrest other (mem_cons_of_mem _ hother) hdiff'
      · rintro rfl
        exact hmem hother
  | returned cfg hphase => exact ⟨h.running, h.wired, h.kept, trivial⟩

theorem Inside.step {e : LiveEvent} (hcall : u.InCall e)
    (hstep : u.step e = some u') : Inside s newCfg u' := by
  cases e with
  | reload cfg stops starts => exact absurd hcall id
  | visit sys => exact h.visited (visited_of_step hstep)
  | daemon e =>
    obtain ⟨run, hrun, rfl⟩ := step_daemon hstep
    exact h.aside hrun

theorem Inside.run {es : List LiveEvent} (hrun : Run Live.step InCall u es u') :
    Inside s newCfg u' :=
  hrun.invariant (fun hinside hcall hstep => hinside.step hcall hstep) h

theorem Inside.handles_of_starts {cfg : Config} {name : String}
    {rest : List String} (hphase : u.phase = .starting cfg (name :: rest))
    (hnew : tunnelsByName cfg.tunnels name = some t)
    (hdiff : tunnelsByName u.cfg.tunnels name ≠ some t) : u.machine.handles name = none := by
  have hin := h.inPhase
  unfold InPhase at hin
  simp only [hphase] at hin
  obtain ⟨rfl, hcfg, -, -, hrest⟩ := hin
  refine hrest name mem_cons_self ?_
  intro hsame
  rw [hcfg, ← hsame] at hdiff
  exact hdiff hnew

theorem Inside.locksOwned (howned : u.machine.LocksOwned) {e : LiveEvent}
    (hcall : u.InCall e) (hstep : u.step e = some u') : u'.machine.LocksOwned := by
  cases e with
  | reload cfg stops starts => exact absurd hcall id
  | visit sys =>
    cases visited_of_step hstep with
    | skipped | turned | kept | returned => exact howned
    | stopped _ name => exact howned.stop name
    | failed cfg name rest t m sys err hphase hnew hdiff hstart =>
      have hsame := Machine.start_error hstart
      exact howned.of_eq hsame.locks_eq hsame.handles_eq
    | started cfg name rest t m sys handle hphase hnew hdiff hstart =>
      exact howned.started (Machine.start_ok hstart) (h.handles_of_starts hphase hnew hdiff)
  | daemon e =>
    obtain ⟨run, hrun, rfl⟩ := step_daemon hstep
    obtain ⟨-, hlocks, hhandles, -⟩ := RunState.step_running h.running hrun
    exact howned.of_eq hlocks hhandles

theorem Inside.locksOwned_run {es : List LiveEvent}
    (howned : u.machine.LocksOwned) (hrun : Run Live.step InCall u es u') :
    u'.machine.LocksOwned := by
  have hboth : Inside s newCfg u' ∧ u'.machine.LocksOwned := by
    refine hrun.invariant (I := fun u => Inside s newCfg u ∧ u.machine.LocksOwned) ?_ ⟨h, howned⟩
    rintro u e u' ⟨hinside, howned⟩ hcall hstep
    exact ⟨hinside.step hcall hstep, hinside.locksOwned howned hcall hstep⟩
  exact hboth.2

theorem Inside.lock_free (howned : u.machine.LocksOwned)
    (hvalid : newCfg.validate = .ok ()) (hstarts : u.Starts t)
    (hmode : t.mode = .server) : u.machine.locks t.logicalPort = false := by
  obtain ⟨cfg, name, rest, hphase, hnew, hdiff⟩ := hstarts
  have hnone := h.handles_of_starts hphase hnew hdiff
  have hin := h.inPhase
  unfold InPhase at hin
  simp only [hphase] at hin
  obtain ⟨rfl, -, -, hentries, -⟩ := hin
  obtain ⟨hname, hmem⟩ := tunnelsByName_eq_some hnew
  have hzero : t.logicalPort ≠ 0 := logicalPort_ne_zero ((Config.validate_ok hvalid).2.2 t hmem)
  refine Bool.eq_false_iff.mpr fun hheld => ?_
  obtain ⟨other, handle, hx, hlock⟩ := howned t.logicalPort hzero hheld
  obtain ⟨hserver, hport⟩ := ((h.wired.made hx).lock _).mp hlock
  obtain ⟨hother, hmem'⟩ := tunnelsByName_eq_some (hentries other handle hx)
  have hsame := Config.server_port_unique hvalid hmem hmem' hmode hserver hport
  rw [← hname, hsame, hother] at hnone
  cases hx.symm.trans hnone

/-- No step of the call touches what a tunnel that both configs define alike stands for. -/
theorem Inside.spares {name : String}
    (hold : tunnelsByName s.cfg.tunnels name = some t)
    (hnew : tunnelsByName newCfg.tunnels name = some t) {handle : OpenHandle}
    (hx : u.machine.handles name = some handle) (hvisited : Visited u u') :
    u.machine.Spares u'.machine handle := by
  cases hvisited with
  | skipped | turned | kept | returned => exact .refl _ _
  | stopped cfg other rest starts hphase hdiff =>
    have hin := h.inPhase
    unfold InPhase at hin
    simp only [hphase] at hin
    obtain ⟨rfl, hcfg, -⟩ := hin
    refine .stop h.wired hx ?_
    rintro rfl
    rw [hcfg] at hdiff
    exact hdiff (hnew.trans hold.symm)
  | failed cfg other rest t m sys err hphase _ _ hstart =>
    exact .unchanged (Machine.start_error hstart)
  | started cfg other rest t m sys handle' hphase _ _ hstart =>
    exact .started h.wired hx (Machine.start_ok hstart) other

end Call

/-- No start of the call fails on a lock that the daemon itself holds, and the tunnels that both
configs define alike keep their handles, with all these stand for. -/
def SparesItself (s : Live L) (newCfg : Config) (stops starts : List String) : Prop :=
  ∀ es u, Run step InCall (s.beginReload (some newCfg) stops starts) es u →
    (∀ t sys, u.Starts t → ¬ u.machine.FailsOnOwnLock sys t) ∧
    ∀ name t, tunnelsByName s.cfg.tunnels name = some t →
      tunnelsByName newCfg.tunnels name = some t →
      u.machine.handles name = s.machine.handles name ∧
      ∀ sys u' handle, s.machine.handles name = some handle → u.step (.visit sys) = some u' →
        u.machine.Spares u'.machine handle

structure Sound (s : Live L) : Prop where
  running : s.run.phase = .running
  wired : s.machine.Wired

section Leak
variable {s u : Live L} {port : UInt16}

def probe (port : UInt16) : Tunnel :=
  { name := "probe", type := .forward, mode := .server, logicalPort := port, protocol := .tcp,
    target := "127.0.0.1:80", allowUnauthenticated := true }

theorem probe_validate (hzero : port ≠ 0) :
    ({ tunnels := [probe port] } : Config).validate = .ok () := by
  have hport : checkPort (probe port) = .ok () := if_neg hzero
  have htunnel : (probe port).validate = .ok () := by
    have haddress : checkAddress "target" "target is required for a server forward tunnel"
        "127.0.0.1:80" = .ok () := rfl
    have hfields : checkFields (probe port) = .ok () := by
      simp [checkFields, probe, haddress]
    rw [Tunnel.validate, hport, hfields]
    rfl
  show checkTunnels 0 [] [] [probe port] = .ok ()
  simp only [checkTunnels, htunnel]
  rfl

theorem start_probe {m : Machine L} {sys : System} (hzero : port ≠ 0)
    (hdirectory : sys.lockDirectory = .ok ()) (hmkdir : sys.mkdirAll = .ok ())
    (hheld : m.locks port = true) : m.FailsOnOwnLock sys (probe port) := by
  refine ⟨rfl, hheld, ?_⟩
  have hacquire : acquire m.locks sys port = .error (inUseError port) := by
    simp only [acquire, if_neg hzero, hdirectory, hmkdir, hheld]
    rfl
  have htoken : loadTunnelToken L (sys.environment (.ok ())) (probe port) = .ok none := rfl
  rw [Machine.start]
  split
  next err hload =>
    cases htoken.symm.trans hload
  · rw [if_pos (show (probe port).mode = .server from rfl), Machine.startServer]
    simp only [show (probe port).logicalPort = port from rfl, hacquire]

def Leaked (m : Machine L) (port : UInt16) : Prop :=
  m.locks port = true ∧ ∀ name handle, m.handles name = some handle → handle.lock ≠ some port

theorem Leaked.stop {m : Machine L} (h : Leaked m port) (name : String) :
    Leaked (m.stop name) port := by
  refine ⟨?_, fun other handle hx => h.2 other handle (Machine.handles_stop_eq_some.mp hx).2⟩
  rw [Machine.lock_stop, if_neg (Machine.not_owner fun handle hx => h.2 name handle hx), h.1]

theorem Leaked.stopVisit (h : Leaked u.machine port) (newCfg : Config) (name : String) :
    Leaked (u.stopVisit newCfg name) port := by
  rw [Live.stopVisit]
  split
  · exact h
  split
  · exact h
  · exact h.stop name

theorem Leaked.exists_turned (h : Leaked u.machine port) {newCfg : Config}
    {rest starts : List String} (hphase : u.phase = .stopping newCfg rest starts) :
    ∃ es u', Run step InCall u es u' ∧ u'.phase = .starting newCfg starts ∧ u'.cfg = u.cfg ∧
      Leaked u'.machine port := by
  induction rest generalizing u with
  | nil =>
    refine ⟨[.visit (plainSystem [])], { u with phase := .starting newCfg starts },
      .single trivial ?_, rfl, rfl, h⟩
    simp only [step, hphase]
  | cons name rest ih =>
    have hstep : u.step (.visit (plainSystem [])) =
        some (u.setMachine (u.stopVisit newCfg name) (.stopping newCfg rest starts)) := by
      simp only [step, hphase]
    obtain ⟨es, u', hrun, hend⟩ := ih
      (u := u.setMachine (u.stopVisit newCfg name) (.stopping newCfg rest starts))
      (h.stopVisit newCfg name) rfl
    exact ⟨.visit (plainSystem []) :: es, u', .cons trivial hstep hrun, hend⟩

theorem Leaked.not_spares (h : Leaked s.machine port) (hzero : port ≠ 0) (hsound : s.Sound)
    (hconsistent : s.daemon.Consistent) :
    ¬ s.SparesItself { tunnels := [probe port] } (tunnelNames s.cfg.tunnels) ["probe"] := by
  intro hspares
  let newCfg : Config := { tunnels := [probe port] }
  have hbegin : s.beginReload (some newCfg) (tunnelNames s.cfg.tunnels) ["probe"] =
      { s with phase := .stopping newCfg (tunnelNames s.cfg.tunnels) ["probe"] } := by
    simp only [beginReload, probe_validate hzero, newCfg]
  have hnew : tunnelsByName newCfg.tunnels "probe" = some (probe port) := rfl
  have hold : tunnelsByName s.cfg.tunnels "probe" ≠ some (probe port) := by
    intro hold
    rw [← handle_of_consistent hconsistent] at hold
    obtain ⟨handle, hx, hfrom⟩ := Option.map_eq_some_iff.mp hold
    refine h.2 "probe" handle hx (((hsound.wired.made hx).lock port).mpr ?_)
    rw [hfrom]
    exact ⟨rfl, rfl⟩
  obtain ⟨es, u, hrun, hphase, hcfg, hleaked⟩ := Leaked.exists_turned
    (u := { s with phase := .stopping newCfg (tunnelNames s.cfg.tunnels) ["probe"] }) h rfl
  rw [← hbegin] at hrun
  refine (hspares es u hrun).1 (probe port) (plainSystem []) ⟨newCfg, "probe", [], hphase, hnew, ?_⟩
    (start_probe hzero rfl rfl hleaked.1)
  rw [hcfg]
  exact hold

end Leak

/-- From a state whose handles are exactly the tunnels of `Config()`, no reload gets in its own way
exactly if every lock that the daemon has taken still belongs to one of its tunnels. -/
theorem reload_spares_itself_iff {s : Live L} (hsound : s.Sound)
    (hconsistent : s.daemon.Consistent) :
    (∀ newCfg stops starts, newCfg.validate = .ok () →
      stops.Perm (tunnelNames s.cfg.tunnels) → starts.Perm (tunnelNames newCfg.tunnels) →
      s.SparesItself newCfg stops starts) ↔ s.machine.LocksOwned := by
  constructor
  · intro hspares port hzero hheld
    refine Classical.byContradiction fun hno => ?_
    have hleaked : Leaked s.machine port :=
      ⟨hheld, fun name handle hx hlock => hno ⟨name, handle, hx, hlock⟩⟩
    exact hleaked.not_spares hzero hsound hconsistent
      (hspares _ _ _ (probe_validate hzero) (List.Perm.refl _) (List.Perm.refl _))
  · intro howned newCfg stops starts hvalid hstops hstarts es u hrun
    have hbegin := Inside.begin hsound.running hsound.wired hconsistent hvalid hstops hstarts
    have hinside := hbegin.run hrun
    have howned' : u.machine.LocksOwned := by
      refine hbegin.locksOwned_run ?_ hrun
      simp only [beginReload, hvalid]
      exact howned
    refine ⟨?_, ?_⟩
    · intro t sys ht hfails
      cases hfails.2.1.symm.trans (hinside.lock_free howned' hvalid ht hfails.1)
    · intro name t hold hnew
      refine ⟨hinside.kept name t hold hnew, ?_⟩
      intro sys u' handle hx hstep
      exact hinside.spares hold hnew ((hinside.kept name t hold hnew).trans hx)
        (visited_of_step hstep)

def Visits (s : Live L) : LiveEvent → Prop
  | .reload newCfg stopOrder startOrder =>
    stopOrder.Perm (tunnelNames s.cfg.tunnels) ∧
      ∀ cfg ∈ newCfg, startOrder.Perm (tunnelNames cfg.tunnels)
  | .visit _ | .daemon _ => True

theorem beginReload_run (s : Live L) (newCfg : Option Config) (stops starts : List String) :
    (s.beginReload newCfg stops starts).run = s.run := by
  unfold beginReload
  split
  · rfl
  · split <;> rfl

theorem Sound.step {s s' : Live L} (h : s.Sound) {e : LiveEvent} (hstep : s.step e = some s') :
    s'.Sound := by
  cases e with
  | reload newCfg stops starts =>
    rw [Live.step] at hstep
    split at hstep
    · cases hstep
      have hrun := s.beginReload_run newCfg stops starts
      exact ⟨hrun ▸ h.running, by unfold machine; exact hrun ▸ h.wired⟩
    · cases hstep
  | visit sys =>
    cases visited_of_step hstep with
    | skipped | turned | kept | returned => exact ⟨h.running, h.wired⟩
    | stopped _ name => exact ⟨h.running, h.wired.stop name⟩
    | failed _ _ _ _ _ _ _ _ _ _ hstart =>
      exact ⟨h.running, h.wired.unchanged (Machine.start_error hstart)⟩
    | started _ name _ _ _ _ _ _ _ _ hstart =>
      exact ⟨h.running, h.wired.started (Machine.start_ok hstart) name⟩
  | daemon e =>
    obtain ⟨run, hrun, rfl⟩ := step_daemon hstep
    obtain ⟨hrunning, hlocks, hhandles, hnext⟩ := RunState.step_running h.running hrun
    exact ⟨hrunning, h.wired.of_eq hlocks hhandles hnext⟩

theorem Sound.run {s s' : Live L} {es : List LiveEvent} (h : s.Sound)
    (hrun : Run Live.step Visits s es s') : s'.Sound :=
  hrun.invariant (fun hsound _ hstep => hsound.step hstep) h

section Outcomes
variable {s u u' : Live L} {newCfg : Config} {stops starts : List String} {handles : Handles}

/-- The call so far, as the model of `Reload` by the outcomes of its starts sees it. -/
def Follows (s : Live L) (newCfg : Config) (stops starts : List String) (u : Live L) : Prop :=
  match u.phase with
  | .stopping cfg rest starts' =>
    cfg = newCfg ∧ starts' = starts ∧ u.cfg = s.cfg ∧
      stopLoop (tunnelsByName s.cfg.tunnels) (tunnelsByName newCfg.tunnels) rest
          u.machine.host.handles =
        stopLoop (tunnelsByName s.cfg.tunnels) (tunnelsByName newCfg.tunnels) stops
          s.machine.host.handles
  | .starting cfg rest =>
    cfg = newCfg ∧ u.cfg = s.cfg ∧ rest.Nodup ∧ ∃ outcome : String → Option String,
      ∀ g : String → Option String, (∀ name, name ∉ rest → g name = outcome name) →
        startLoop (tunnelsByName s.cfg.tunnels) (tunnelsByName newCfg.tunnels) g starts
            (stopLoop (tunnelsByName s.cfg.tunnels) (tunnelsByName newCfg.tunnels) stops
              s.machine.host.handles) =
          startLoop (tunnelsByName s.cfg.tunnels) (tunnelsByName newCfg.tunnels) g rest
            u.machine.host.handles
  | .idle result => ∃ outcome, s.daemon.reload ⟨some newCfg, stops, starts, outcome⟩ =
      (u.daemon, result)

theorem host_register {m m' : Machine L} (hhandles : m'.handles = m.handles) (name : String)
    (handle : OpenHandle) : (m'.register name handle).host.handles =
      update m.host.handles name (some handle.toTunnelHandle) := by
  funext other
  simp only [Machine.host, Machine.register, hhandles, update_apply]
  split <;> rfl

theorem Follows.aside (h : Follows s newCfg stops starts u) {run : RunState L}
    (hhandles : run.machine.handles = u.machine.handles) :
    Follows s newCfg stops starts { u with run := run } := by
  unfold Follows daemon machine Machine.host at h ⊢
  unfold machine at hhandles
  simp only [hhandles]
  exact h

theorem startLoop_skip {oldByName newByName : String → Option Tunnel}
    {g : String → Option String} {name : String} {rest : List String}
    (hkeep : newByName name = none ∨ newByName name = oldByName name) :
    startLoop oldByName newByName g (name :: rest) handles =
      startLoop oldByName newByName g rest handles := by
  rw [startLoop]
  split
  · rfl
  rename_i t hnew
  rw [if_pos]
  rcases hkeep with hnone | hsame
  · cases hnone.symm.trans hnew
  · exact hsame.symm.trans hnew

theorem startLoop_start {oldByName newByName : String → Option Tunnel}
    {g : String → Option String} {name : String} {rest : List String}
    {t : Tunnel} (hnew : newByName name = some t) (hdiff : oldByName name ≠ some t) :
    startLoop oldByName newByName g (name :: rest) handles =
      match start t (g name) with
      | .error err => (handles, .error ("reload: tunnel " ++ quote name ++ ": " ++ err))
      | .ok handle => startLoop oldByName newByName g rest
          (update handles name (some handle)) := by
  cases hstart : start t (g name) with
  | error err | ok handle => simp only [startLoop, hnew, if_neg hdiff, hstart]

theorem reload_of_loops {d : Daemon} {call : ReloadCall}
    {result : Except String Unit} (hcall : call.newCfg = some newCfg)
    (hvalid : newCfg.validate = .ok ())
    (hloops : startLoop (tunnelsByName d.cfg.tunnels) (tunnelsByName newCfg.tunnels) call.outcome
      call.startOrder (stopLoop (tunnelsByName d.cfg.tunnels) (tunnelsByName newCfg.tunnels)
        call.stopOrder d.handles) = (handles, result)) :
    d.reload call = (⟨if result = .ok () then newCfg else d.cfg, handles⟩, result) := by
  simp only [Daemon.reload, hcall, hvalid, hloops]
  cases result <;> rfl

theorem Follows.visited (hvalid : newCfg.validate = .ok ()) (hnodup : starts.Nodup)
    (h : Follows s newCfg stops starts u) (hvisited : Visited u u') :
    Follows s newCfg stops starts u' := by
  unfold Follows at h
  cases hvisited with
  | skipped cfg name rest starts' hphase hkeep =>
    simp only [hphase] at h
    obtain ⟨rfl, rfl, hcfg, hloop⟩ := h
    refine ⟨rfl, rfl, hcfg, ?_⟩
    rw [← hloop, stopLoop, ← hcfg]
    cases hold : tunnelsByName u.cfg.tunnels name with
    | none => rfl
    | some t =>
      have hsame := hkeep.resolve_left (by rw [hold]; exact Option.some_ne_none _)
      simp only [hsame, hold, if_true]
      rfl
  | stopped cfg name rest starts' hphase hdiff hsome =>
    simp only [hphase] at h
    obtain ⟨rfl, rfl, hcfg, hloop⟩ := h
    refine ⟨rfl, rfl, hcfg, ?_⟩
    rw [← hloop, stopLoop, ← hcfg]
    obtain ⟨t, hold⟩ := Option.ne_none_iff_exists'.mp hsome
    rw [hold] at hdiff
    simp only [hold, if_neg hdiff]
    exact congrArg (stopLoop _ _ rest) (congrArg Host.handles (u.machine.stop_host name))
  | turned cfg starts' hphase =>
    simp only [hphase] at h
    obtain ⟨rfl, rfl, hcfg, hloop⟩ := h
    refine ⟨rfl, hcfg, hnodup, fun _ => none, ?_⟩
    intro g _
    rw [← hloop]
    rfl
  | kept cfg name rest hphase hkeep =>
    simp only [hphase] at h
    obtain ⟨rfl, hcfg, hrest, outcome, houtcome⟩ := h
    rw [hcfg] at hkeep
    refine ⟨rfl, hcfg, (nodup_cons.mp hrest).2, outcome, ?_⟩
    intro g hg
    have hskip := houtcome g fun other hother => hg other (not_mem_of_not_mem_cons hother)
    rw [hskip, startLoop_skip hkeep]
    rfl
  | failed cfg name rest t m sys err hphase hnew hdiff hstart =>
    simp only [hphase] at h
    obtain ⟨rfl, hcfg, hrest, outcome, houtcome⟩ := h
    obtain ⟨result, hresult⟩ := RunState.start_eq u.machine sys t
    rw [hcfg] at hdiff
    have hloop := houtcome (update outcome name result) ?_
    · rw [startLoop_start hnew hdiff, update_self, hresult, hstart] at hloop
      refine ⟨update outcome name result, (reload_of_loops rfl hvalid hloop).trans ?_⟩
      have hhandles : m.handles = u.machine.handles := (Machine.start_error hstart).handles_eq
      simp only [daemon, machine, setMachine, Machine.host, hhandles, hcfg, reduceCtorEq, if_false]
    · intro other hother
      exact update_of_ne (ne_of_not_mem_cons hother) ..
  | started cfg name rest t m sys handle hphase hnew hdiff hstart =>
    simp only [hphase] at h
    obtain ⟨rfl, hcfg, hrest, outcome, houtcome⟩ := h
    obtain ⟨result, hresult⟩ := RunState.start_eq u.machine sys t
    obtain ⟨hmem, hrest⟩ := nodup_cons.mp hrest
    rw [hcfg] at hdiff
    refine ⟨rfl, hcfg, hrest, update outcome name result, ?_⟩
    intro g hg
    have hname : g name = result := (hg name hmem).trans (update_self ..)
    have hloop := houtcome g ?_
    · rw [hloop, startLoop_start hnew hdiff, hname, hresult, hstart]
      simp only [Except.map]
      rw [← host_register (Machine.start_ok hstart).handles_eq]
      rfl
    · intro other hother
      rw [hg other (not_mem_of_not_mem_cons hother)]
      exact update_of_ne (ne_of_not_mem_cons hother) ..
  | returned cfg hphase =>
    simp only [hphase] at h
    obtain ⟨rfl, hcfg, -, outcome, houtcome⟩ := h
    have hloop := houtcome outcome fun _ _ => rfl
    rw [startLoop] at hloop
    refine ⟨outcome, (reload_of_loops rfl hvalid hloop).trans ?_⟩
    rw [if_pos rfl]
    rfl

/-- A call that returns is one of the model by outcomes, with the same result. -/
theorem returned_reload (hrunning : s.run.phase = .running) (hvalid : newCfg.validate = .ok ())
    (hnodup : starts.Nodup) {es : List LiveEvent}
    (hrun : Run step InCall (s.beginReload (some newCfg) stops starts) es u)
    {result : Except String Unit} (hreturned : u.phase = .idle result) :
    ∃ outcome, s.daemon.reload ⟨some newCfg, stops, starts, outcome⟩ = (u.daemon, result) := by
  have hboth : u.run.phase = .running ∧ Follows s newCfg stops starts u := by
    refine hrun.invariant
      (I := fun u => u.run.phase = .running ∧ Follows s newCfg stops starts u) ?_ ?_
    · rintro u e u' ⟨hrunning, hfollows⟩ hcall hstep
      cases e with
      | reload cfg stops starts => exact absurd hcall id
      | visit sys =>
        have hvisited := visited_of_step hstep
        refine ⟨?_, hfollows.visited hvalid hnodup hvisited⟩
        cases hvisited <;> exact hrunning
      | daemon e =>
        obtain ⟨run, hrun, rfl⟩ := step_daemon hstep
        obtain ⟨hrunning, -, hhandles, -⟩ := RunState.step_running hrunning hrun
        exact ⟨hrunning, hfollows.aside hhandles⟩
    · simp only [beginReload, hvalid]
      exact ⟨hrunning, rfl, rfl, rfl, rfl⟩
  have hfollows := hboth.2
  unfold Follows at hfollows
  simp only [hreturned] at hfollows
  exact hfollows

def Reloaded (s u : Live L) : Prop :=
  ∃ newCfg stops starts es, newCfg.validate = .ok () ∧
    stops.Perm (tunnelNames s.cfg.tunnels) ∧ starts.Perm (tunnelNames newCfg.tunnels) ∧
    Run step InCall (s.beginReload (some newCfg) stops starts) es u ∧ u.phase = .idle (.ok ())

structure Settled (s : Live L) : Prop where
  sound : s.Sound
  consistent : s.daemon.Consistent
  owned : s.machine.LocksOwned

theorem Settled.reloaded (h : s.Settled) (hreload : Reloaded s u) : u.Settled := by
  obtain ⟨newCfg, stops, starts, es, hvalid, hstops, hstarts, hrun, hreturned⟩ := hreload
  have hbegin := Inside.begin h.sound.running h.sound.wired h.consistent hvalid hstops hstarts
  have hinside := hbegin.run hrun
  have hnodup : starts.Nodup := hstarts.nodup_iff.mpr (nodup_dedup _)
  obtain ⟨outcome, hreload⟩ := returned_reload h.sound.running hvalid hnodup hrun hreturned
  refine ⟨⟨hinside.running, hinside.wired⟩, ?_, ?_⟩
  · refine (reload_consistent_iff ⟨hstops, ?_⟩ rfl hreload).mpr (h.consistent.covered newCfg)
    intro cfg hcfg
    cases hcfg
    exact hstarts
  · refine hbegin.locksOwned_run ?_ hrun
    simp only [beginReload, hvalid]
    exact h.owned

theorem Settled.reloads (h : s.Settled) (hreloads : Relation.ReflTransGen Reloaded s u) :
    u.Settled := by
  induction hreloads with
  | refl => exact h
  | tail _ hreload ih => exact ih.reloaded hreload

end Outcomes

end Live

section Run
variable {base : Machine L} {cfg : Config} {es : List RunEvent} {r : RunState L}

theorem settled_of_run (hfresh : base.Fresh) (hlocks : ∀ port, base.locks port = false)
    (hvalid : cfg.validate = .ok ())
    (hrun : Run RunState.step RunState.Visits (.initial base cfg) es r)
    (hrunning : r.phase = .running) :
    (Live.mk r cfg (.idle (.ok ()))).Settled := by
  have hwired : r.machine.Wired := by
    refine hrun.invariant (I := fun r : RunState L => r.machine.Wired)
      (fun hwired _ hstep => RunState.wired_step hwired hstep) ?_
    have hnone : ∀ {name handle}, base.handles name ≠ some handle := by
      intro name handle hx
      cases hx.symm.trans (hfresh.handles name)
    exact ⟨fun hx => absurd hx hnone, fun hx => absurd hx hnone, fun hx => absurd hx hnone,
      ⟨fun hx => absurd hx hnone⟩, ⟨fun hx => absurd hx hnone⟩⟩
  have hreaches : r.Reaches cfg := by
    refine hrun.invariant (I := fun r : RunState L => r.Reaches cfg)
      (fun hreaches _ hstep => hreaches.step hstep) ⟨[], rfl, ?_⟩
    intro name
    rw [show (RunState.initial base cfg).machine.handles name = none from hfresh.handles name]
    rfl
  unfold RunState.Reaches at hreaches
  simp only [hrunning] at hreaches
  have howned := ((RunState.Tracked.initial hfresh hvalid).run hrun).owned
  refine ⟨⟨hrunning, hwired⟩, ?_, ?_⟩
  · intro name
    refine Eq.trans ?_ (hreaches name)
    show ((r.machine.handles name).map OpenHandle.toTunnelHandle).map TunnelHandle.startedFrom = _
    cases r.machine.handles name <;> rfl
  · intro port _ hheld
    refine (howned.locks port hheld).resolve_left ?_
    rw [hlocks port]
    exact Bool.false_ne_true

end Run

section Example

def databaseConfig : Config := { tunnels := [databaseTunnel ""] }

def webServerConfig : Config :=
  { tunnels := [databaseTunnel "", { databaseTunnel "" with name := "web", logicalPort := 5433 },
      clientTunnel .tcp] }

def webClientConfig : Config :=
  { tunnels := [databaseTunnel "", { clientTunnel .tcp with name := "web" }] }

def web2Config : Config :=
  { tunnels := [databaseTunnel "", { clientTunnel .tcp with name := "web" },
      { databaseTunnel "" with name := "web2", logicalPort := 5433 }] }

def addressInUse : System :=
  { plainSystem [] with listen := .error "listen tcp 127.0.0.1:15432: bind: address already in use" }

/-- The reload that fails has started `web`; the next one enters a client under that name. -/
def leakingReloads : List LiveEvent :=
  [.reload (some webServerConfig) ["db"] ["db", "web", "remote"], .visit (plainSystem []),
    .visit (plainSystem []), .visit (plainSystem []), .visit (plainSystem []), .visit addressInUse,
    .reload (some webClientConfig) ["db"] ["db", "web"], .visit (plainSystem []),
    .visit (plainSystem []), .visit (plainSystem []), .visit (plainSystem []),
    .visit (plainSystem [])]

theorem run_databaseConfig : ∃ r : RunState plainLibraries,
    Run RunState.step RunState.Visits (.initial (idleMachine plainLibraries) databaseConfig)
      [.start (plainSystem []) [], .finish] r ∧ r.phase = .running := by
  refine ⟨_, .cons ⟨nodup_nil, ?_⟩ rfl (.single trivial rfl), rfl⟩
  intro name
  exact ⟨nofun, fun h => absurd rfl h⟩

theorem reload_spares_itself_iff_example : ∃ s : Live plainLibraries,
    s.Sound ∧ s.daemon.Consistent ∧ ∀ stops starts,
      stops.Perm (tunnelNames s.cfg.tunnels) → starts.Perm (tunnelNames web2Config.tunnels) →
      s.SparesItself web2Config stops starts := by
  obtain ⟨r, hrun, hrunning⟩ := run_databaseConfig
  have hsettled := settled_of_run idleMachine_fresh (fun _ => rfl) rfl hrun hrunning
  refine ⟨_, hsettled.sound, hsettled.consistent, ?_⟩
  intro stops starts hstops hstarts
  exact (Live.reload_spares_itself_iff hsettled.sound hsettled.consistent).mpr hsettled.owned
    web2Config stops starts rfl hstops hstarts

/-- After these reloads the handles are exactly the tunnels of `Config()`, and yet the daemon still
holds port 5433: a reload that adds a server tunnel on it fails. -/
theorem reload_fails_on_own_lock : ∃ (r : RunState plainLibraries) (s u : Live plainLibraries)
    (t : Tunnel),
    Run RunState.step RunState.Visits (.initial (idleMachine plainLibraries) databaseConfig)
      [.start (plainSystem []) [], .finish] r ∧
    Run Live.step Live.Visits ⟨r, databaseConfig, .idle (.ok ())⟩ leakingReloads s ∧
    s.phase = .idle (.ok ()) ∧ s.daemon.Consistent ∧ web2Config.validate = .ok () ∧
    Run Live.step Live.InCall
      (s.beginReload (some web2Config) ["db", "web"] ["db", "web", "web2"])
      (replicate 5 (.visit (plainSystem []))) u ∧
    u.Starts t ∧ u.machine.FailsOnOwnLock (plainSystem []) t := by
  refine ⟨_, _, _, { databaseTunnel "" with name := "web2", logicalPort := 5433 },
    .cons ⟨nodup_nil, ?_⟩ rfl (.single trivial rfl),
    .cons ⟨List.Perm.refl _, ?_⟩ rfl (.cons trivial rfl (.cons trivial rfl (.cons trivial rfl
      (.cons trivial rfl (.cons trivial rfl (.cons ⟨List.Perm.refl _, ?_⟩ rfl (.cons trivial rfl
      (.cons trivial rfl (.cons trivial rfl (.cons trivial rfl (.cons trivial rfl
      (.nil _)))))))))))), rfl, ?_, rfl,
    .cons trivial rfl (.cons trivial rfl (.cons trivial rfl (.cons trivial rfl (.cons trivial rfl
      (.nil _))))), ⟨web2Config, "web2", [], rfl, rfl, ?_⟩, rfl, rfl, rfl⟩
  · intro name
    exact ⟨nofun, fun h => absurd rfl h⟩
  · intro cfg hcfg
    cases hcfg
    exact List.Perm.refl _
  · intro cfg hcfg
    cases hcfg
    exact List.Perm.refl _
  · intro name
    -- `web` was entered twice, the second time over the handle that held the lock
    show Option.map TunnelHandle.startedFrom (Option.map OpenHandle.toTunnelHandle
        (update (update (update (fun _ => none) "db" (some _)) "web"
          (some _)) "web" (some _) name)) =
      update (update (fun _ => (none : Option Tunnel)) "db" (some _)) "web"
        (some _) name
    simp only [update_apply]
    split
    · rfl
    · split <;> rfl
  · decide

end Example

end P2PNetcat.Tunnels
