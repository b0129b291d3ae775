import P2PNetcat.Tunnels.Resources

/-!
# The teardown of a failed `Run`

`Run` starts its tunnels one after the other and closes the daemon at the first
error. Streams, sessions, the goroutines that watch the context and the
`Advertise` loops take their steps at any time in between. `Node.Close` is taken
to close every stream of its host.
-/

namespace P2PNetcat.Tunnels
open List Function GoText GoTime StepSystem Fallible Pairing

variable {L : Libraries}

inductive RunPhase where
  | starting (rest : List Tunnel)
  | closing (err : String) (names : List String)
  | waiting (err : String)
  | returned (err : String)
  | running
  deriving DecidableEq

structure RunState (L : Libraries) where
  machine : Machine L
  phase : RunPhase
  /-- The daemon's context is done. -/
  cancelled : Bool := false
  nodeClosed : Bool := false
  /-- What `d.wg` counts. -/
  sessions : Nat := 0

/-- A step of an `Advertise` loop: on to its `select`, or what the `select` received. -/
inductive LoopInput where
  | advance (now : Time)
  | timer
  | done

inductive RunEvent where
  | start (sys : System) (order : List String)
  | stop
  | closeNode
  | finish
  | accept (proto peer : String)
  | sessionEnd
  | openStream (stream : PeerStream)
  | closeStream (id : Nat)
  | parentDone
  | watcher (id : Nat)
  | loop (id : Nat) (input : LoopInput)

def providerEpochs (now : Time) : List Int :=
  let epoch := now.toUnix.tdiv 300
  ([-1, 0, 1].map (epoch + ·)).filter (0 ≤ ·)

def AdvertiseLoop.records (loop : AdvertiseLoop L) (now : Time) : Nat :=
  match loop.token with
  | none => 1
  | some _ => (providerEpochs now).length

theorem providerEpochs_length (now : Time) : (providerEpochs now).length ≤ 3 :=
  length_filter_le ..

theorem AdvertiseLoop.records_le (loop : AdvertiseLoop L) (now : Time) : loop.records now ≤ 3 := by
  rw [records]
  split
  · decide
  · exact providerEpochs_length now

def LoopPhase.remaining : LoopPhase → Nat
  | .top => 6
  | .providing left => left + 2
  | .waiting => 1

/-- The phase a loop goes to; none where it returns. -/
def AdvertiseLoop.next (loop : AdvertiseLoop L) (cancelled : Bool) :
    LoopInput → Option (Option LoopPhase)
  | .advance now =>
    match loop.phase with
    | .top => some (some (.providing (loop.records now)))
    | .providing (left + 1) => some (some (.providing left))
    | .providing 0 => some (some .waiting)
    | .waiting => none
  | .timer => if loop.phase = .waiting then some (some .top) else none
  | .done => if loop.phase = .waiting ∧ cancelled = true then some none else none

namespace RunState

def stepLoop (s : RunState L) (id : Nat) (input : LoopInput) : Option (RunState L) :=
  match s.machine.loops.live id with
  | none => none
  | some loop =>
    match loop.next s.cancelled input with
    | none => none
    | some none => some { s with machine.loops := s.machine.loops.remove id }
    | some (some phase) =>
      some { s with machine.loops := s.machine.loops.modify id fun loop => { loop with phase := phase } }

/-- The body of the loop of `Run`; an error goes on to `Close`, which first cancels the context. -/
def stepStart (s : RunState L) (t : Tunnel) (rest : List Tunnel) (sys : System)
    (order : List String) : RunState L :=
  match s.machine.start sys t with
  | (m, .ok handle) => { s with machine := m.register t.name handle, phase := .starting rest }
  | (m, .error err) =>
    { s with
      machine := m
      phase := .closing ("tunnel " ++ quote t.name ++ ": " ++ err) order
      cancelled := true }

def step (s : RunState L) : RunEvent → Option (RunState L)
  | .start sys order =>
    match s.phase with
    | .starting (t :: rest) => some (s.stepStart t rest sys order)
    | _ => none
  | .stop =>
    match s.phase with
    | .closing err (name :: names) =>
      some { s with machine := s.machine.stop name, phase := .closing err names }
    | _ => none
  | .closeNode =>
    match s.phase with
    | .closing err [] =>
      some { s with
        machine.streams := s.machine.streams.clear
        nodeClosed := true
        phase := .waiting err }
    | _ => none
  | .finish =>
    match s.phase with
    | .starting [] => some { s with phase := .running }
    | .waiting err => if s.sessions = 0 then some { s with phase := .returned err } else none
    | _ => none
  | .accept proto peer =>
    if s.nodeClosed = false ∧ (s.machine.handlers proto).isSome then
      some { s with machine := s.machine.addStream ⟨peer, proto⟩, sessions := s.sessions + 1 }
    else none
  | .sessionEnd => if s.sessions = 0 then none else some { s with sessions := s.sessions - 1 }
  | .openStream stream =>
    if s.nodeClosed = false then some { s with machine := s.machine.addStream stream } else none
  | .closeStream id => some { s with machine := s.machine.closeStream id }
  | .parentDone => some { s with cancelled := true }
  | .watcher id =>
    if s.cancelled = true ∧ id ∈ s.machine.watchers then
      some { s with machine := s.machine.closeListener (some id) }
    else none
  | .loop id input => s.stepLoop id input

def Visits (s : RunState L) : RunEvent → Prop
  | .start _ order => order.Nodup ∧ ∀ name, name ∈ order ↔ s.machine.handles name ≠ none
  | _ => True

/-- The start of `Run`'s loop, when the node has just been created. -/
def initial (base : Machine L) (cfg : Config) : RunState L where
  machine := base
  phase := .starting cfg.tunnels

end RunState

/-- A daemon whose node has just been created; locks and sockets of the process may be in use. -/
structure Machine.Fresh (m : Machine L) : Prop where
  handlers : ∀ proto, m.handlers proto = none
  streams : ∀ id, m.streams.live id = none
  loops : ∀ id, m.loops.live id = none
  handles : ∀ name, m.handles name = none
  watchers : m.watchers = []

structure Machine.Owned (base m : Machine L) : Prop where
  locks : ∀ port, m.locks port = true → base.locks port = true ∨
    ∃ name handle, m.handles name = some handle ∧ handle.lock = some port
  baseLocks : ∀ port, base.locks port = true → m.locks port = true
  handlers : ∀ proto, m.handlers proto ≠ none →
    ∃ name handle, m.handles name = some handle ∧ handle.proto = some proto
  listeners : ∀ id listener, m.listeners.live id = some listener →
    base.listeners.live id = some listener ∨
      ∃ name handle, m.handles name = some handle ∧ handle.socket = some id
  baseListeners : ∀ id, id < base.listeners.next → m.listeners.live id = base.listeners.live id
  next : base.listeners.next ≤ m.listeners.next
  watchers : ∀ id ∈ m.watchers, base.listeners.next ≤ id
  handles : ∀ name handle, m.handles name = some handle →
    (∀ port, handle.lock = some port → base.locks port = false) ∧
      ∀ id, handle.socket = some id → base.listeners.next ≤ id

namespace Machine

section Stop
variable {m : Machine L} {name : String}

theorem lock_stop (port : UInt16) : (m.stop name).locks port =
    if ((m.handles name).bind fun handle => handle.lock) = some port then false
    else m.locks port := by
  rw [stop_eq]
  cases (m.handles name).bind fun handle => handle.lock with
  | none => rfl
  | some released => simp only [Option.elim_some, update_apply, Option.some.injEq, eq_comm]

theorem handler_stop (proto : String) : (m.stop name).handlers proto =
    if ((m.handles name).bind fun handle => handle.proto) = some proto then none
    else m.handlers proto := by
  rw [stop_eq]
  cases (m.handles name).bind fun handle => handle.proto with
  | none => rfl
  | some released => simp only [Option.elim_some, update_apply, Option.some.injEq, eq_comm]

theorem listener_stop (id : Nat) : (m.stop name).listeners.live id =
    if (m.handles name).bind OpenHandle.socket = some id then none
    else m.listeners.live id := by
  rw [stop_eq]
  cases (m.handles name).bind OpenHandle.socket with
  | none => rfl
  | some closed =>
    simp only [Option.elim_some, Registry.live_remove, Option.some.injEq, eq_comm]

theorem listeners_next_stop : (m.stop name).listeners.next = m.listeners.next := by
  rw [stop_eq]
  cases (m.handles name).bind OpenHandle.socket <;> rfl

theorem not_owner {κ : Type} {f : OpenHandle → Option κ} {k : κ}
    (h : ∀ handle, m.handles name = some handle → f handle ≠ some k) :
    (m.handles name).bind f ≠ some k := by
  intro hsome
  obtain ⟨handle, hhandle, hfield⟩ := Option.bind_eq_some_iff.mp hsome
  exact h handle hhandle hfield

theorem handles_stop_eq_some {other : String} {handle : OpenHandle} :
    (m.stop name).handles other = some handle ↔ other ≠ name ∧ m.handles other = some handle := by
  rw [handles_stop, update_apply]
  split
  next heq =>
    simp [heq]
  next hne =>
    simp [hne]

theorem owner_stop {κ : Type} {f : OpenHandle → Option κ} {k : κ}
    (howner : ∃ other handle, m.handles other = some handle ∧ f handle = some k)
    (hne : (m.handles name).bind f ≠ some k) :
    ∃ other handle, (m.stop name).handles other = some handle ∧ f handle = some k := by
  obtain ⟨other, handle, hhandle, hfield⟩ := howner
  refine ⟨other, handle, handles_stop_eq_some.mpr ⟨?_, hhandle⟩, hfield⟩
  rintro rfl
  rw [hhandle] at hne
  exact hne hfield

end Stop

variable {handle : OpenHandle}

theorem owner_register {m m' : Machine L} {name : String} {κ : Type}
    {f : OpenHandle → Option κ} {k : κ} (hhandles : m'.handles = m.handles)
    (hnew : m.handles name = none)
    (howner : ∃ other handle, m.handles other = some handle ∧ f handle = some k) :
    ∃ other handle', (m'.register name handle).handles other = some handle' ∧
      f handle' = some k := by
  obtain ⟨other, handle', hhandle, hfield⟩ := howner
  refine ⟨other, handle', ?_, hfield⟩
  rw [register]
  simp only [hhandles]
  rw [update_of_ne, hhandle]
  rintro rfl
  cases hhandle.symm.trans hnew

namespace Owned
variable {base m m' : Machine L}

theorem refl (h : base.Fresh) : Owned base base where
  locks := fun _ hport => .inl hport
  baseLocks := fun _ hport => hport
  handlers := fun proto hproto => absurd (h.handlers proto) hproto
  listeners := fun _ _ hid => .inl hid
  baseListeners := fun _ _ => rfl
  next := Nat.le_refl _
  watchers := by
    intro id hid
    rw [h.watchers] at hid
    cases hid
  handles := by
    intro name handle hhandle
    cases hhandle.symm.trans (h.handles name)

variable (h : Owned base m)
include h

theorem node (streams : Registry PeerStream)
    (loops : Registry (AdvertiseLoop L)) :
    Owned base { m with streams := streams, loops := loops } :=
  ⟨h.locks, h.baseLocks, h.handlers, h.listeners, h.baseListeners, h.next, h.watchers, h.handles⟩

theorem unchanged (hsame : Unchanged m m') : Owned base m' := by
  rw [hsame.rest]
  exact h.node _ _

theorem register_server {handler : Handler L}
    (hnew : m.handles handler.tunnel.name = none)
    (hfree : m.locks handler.tunnel.logicalPort = false)
    (hlock : handle.lock = some handler.tunnel.logicalPort)
    (hproto : handle.proto = some (serverProtocol handler.tunnel))
    (hsocket : handle.socket = none) :
    Owned base (({ m with
      locks := update m.locks handler.tunnel.logicalPort true }.setStreamHandler
        handler).register handler.tunnel.name handle) where
  locks := by
    intro port hport
    simp only [register, setStreamHandler, update_apply] at hport
    split at hport
    next heq =>
      exact .inr ⟨handler.tunnel.name, handle, update_self .., heq ▸ hlock⟩
    · exact (h.locks port hport).imp_right
        (owner_register (f := fun handle => handle.lock) rfl hnew)
  baseLocks := by
    intro port hport
    simp only [register, setStreamHandler, update_apply]
    split
    · rfl
    · exact h.baseLocks port hport
  handlers := by
    intro proto hhandler
    simp only [register, setStreamHandler, update_apply] at hhandler
    split at hhandler
    next heq =>
      exact ⟨handler.tunnel.name, handle, update_self .., heq ▸ hproto⟩
    · exact owner_register (f := fun handle => handle.proto) rfl hnew
        (h.handlers proto hhandler)
  listeners := fun id listener hid => (h.listeners id listener hid).imp_right
    (owner_register rfl hnew)
  baseListeners := h.baseListeners
  next := h.next
  watchers := h.watchers
  handles := by
    intro name other hother
    simp only [register, setStreamHandler, update_apply] at hother
    split at hother
    · cases hother
      refine ⟨?_, ?_⟩
      · intro port hport
        obtain rfl := Option.some.inj (hlock.symm.trans hport)
        refine Bool.eq_false_iff.mpr ?_
        intro hbase
        cases hfree.symm.trans (h.baseLocks _ hbase)
      · intro id hid
        cases hsocket.symm.trans hid
    · exact h.handles name other hother

theorem register_client {t : Tunnel} (hnew : m.handles t.name = none)
    (listener : LocalListener) :
    Owned base ((m.bind listener).register t.name (clientHandle t m.listeners.next)) where
  locks := fun port hport => (h.locks port hport).imp_right
    (owner_register (f := fun handle => handle.lock) rfl hnew)
  baseLocks := h.baseLocks
  handlers := fun proto hproto =>
    owner_register (f := fun handle => handle.proto) rfl hnew (h.handlers proto hproto)
  listeners := by
    intro id other hid
    simp only [register, bind, Registry.live_add] at hid
    split at hid
    next heq =>
      exact .inr ⟨t.name, clientHandle t m.listeners.next, update_self .., heq ▸ rfl⟩
    · exact (h.listeners id other hid).imp_right (owner_register rfl hnew)
  baseListeners := by
    intro id hid
    simp only [register, bind, Registry.live_add]
    rw [if_neg (Nat.ne_of_lt (Nat.lt_of_lt_of_le hid h.next))]
    exact h.baseListeners id hid
  next := Nat.le_succ_of_le h.next
  watchers := by
    intro id hid
    rcases mem_cons.mp hid with rfl | hid
    · exact h.next
    · exact h.watchers id hid
  handles := by
    intro name other hother
    simp only [register, bind, update_apply] at hother
    split at hother
    · cases hother
      refine ⟨?_, ?_⟩
      · intro port hport
        cases hport
      · intro id hid
        cases hid
        exact h.next
    · exact h.handles name other hother

theorem started {t : Tunnel}
    (hstarted : Started m t m' handle) (hnew : m.handles t.name = none) :
    Owned base (m'.register t.name handle) := by
  cases hstarted with
  | server handler htunnel hmode hfree =>
    subst htunnel
    exact (h.register_server hnew hfree rfl rfl rfl).node _ _
  | tcp listener => exact h.register_client hnew listener
  | udp stream listener => exact (h.register_client hnew listener).node _ _

theorem stop (name : String) : Owned base (m.stop name) where
  locks := by
    intro port hport
    rw [lock_stop] at hport
    split at hport
    · cases hport
    rename_i hne
    exact (h.locks port hport).imp_right fun howner => owner_stop howner hne
  baseLocks := by
    intro port hport
    rw [lock_stop, if_neg, h.baseLocks port hport]
    refine not_owner fun handle hhandle hlock => ?_
    cases hport.symm.trans ((h.handles name handle hhandle).1 port hlock)
  handlers := by
    intro proto hproto
    rw [handler_stop] at hproto
    split at hproto
    · exact absurd rfl hproto
    rename_i hne
    exact owner_stop (h.handlers proto hproto) hne
  listeners := by
    intro id listener hid
    rw [listener_stop] at hid
    obtain ⟨hne, hid⟩ := Option.ite_none_left_eq_some.mp hid
    exact (h.listeners id listener hid).imp_right fun howner => owner_stop howner hne
  baseListeners := by
    intro id hid
    rw [listener_stop, if_neg, h.baseListeners id hid]
    refine not_owner fun handle hhandle hsocket => ?_
    have hle := (h.handles name handle hhandle).2 id hsocket
    omega
  next := by
    rw [listeners_next_stop]
    exact h.next
  watchers := by
    rw [stop_eq]
    exact h.watchers
  handles := by
    intro other handle hhandle
    exact h.handles other handle (handles_stop_eq_some.mp hhandle).2

theorem closeWatched {id : Nat} (hid : id ∈ m.watchers) :
    Owned base (m.closeListener (some id)) where
  locks := h.locks
  baseLocks := h.baseLocks
  handlers := h.handlers
  listeners := by
    intro other listener hother
    simp only [closeListener, Registry.live_remove] at hother
    obtain ⟨-, hother⟩ := Option.ite_none_left_eq_some.mp hother
    exact h.listeners other listener hother
  baseListeners := by
    intro other hother
    have := h.watchers id hid
    simp only [closeListener, Registry.live_remove]
    rw [if_neg (by omega)]
    exact h.baseListeners other hother
  next := h.next
  watchers := h.watchers
  handles := h.handles

theorem released (hnone : ∀ name, m.handles name = none) :
    m.locks = base.locks ∧ m.listeners.live = base.listeners.live ∧
      ∀ proto, m.handlers proto = none := by
  have hno : ∀ {P : OpenHandle → Prop}, ¬ ∃ name handle, m.handles name = some handle ∧ P handle := by
    rintro P ⟨name, handle, hhandle, -⟩
    cases hhandle.symm.trans (hnone name)
  refine ⟨?_, ?_, ?_⟩
  · funext port
    refine Bool.eq_iff_iff.mpr ⟨?_, h.baseLocks port⟩
    intro hport
    exact (h.locks port hport).resolve_right hno
  · funext id
    by_cases hid : id < base.listeners.next
    · exact h.baseListeners id hid
    rw [base.listeners.fresh id (Nat.le_of_not_lt hid)]
    refine Option.eq_none_iff_forall_ne_some.mpr ?_
    intro listener hlive
    have hbase := (h.listeners id listener hlive).resolve_right hno
    exact hid (Registry.lt_next hbase)
  · intro proto
    refine Classical.byContradiction fun hproto => ?_
    exact hno (h.handlers proto hproto)

end Owned

theorem Started.handles_eq {m m' : Machine L} {t : Tunnel}
    (h : Started m t m' handle) : m'.handles = m.handles := by
  cases h <;> rfl

end Machine

namespace RunState
variable {base : Machine L} {s s' : RunState L}
variable {id : Nat} {e : RunEvent} {input : LoopInput} {es : List RunEvent} {cfg : Config}

def InPhase (s : RunState L) : Prop :=
  match s.phase with
  | .starting rest =>
    (rest.map Tunnel.name).Nodup ∧ ∀ t ∈ rest, s.machine.handles t.name = none
  | .closing _ names =>
    s.cancelled = true ∧ ∀ name, s.machine.handles name ≠ none → name ∈ names
  | .waiting _ | .returned _ =>
    s.cancelled = true ∧ s.nodeClosed = true ∧ (∀ name, s.machine.handles name = none) ∧
      ∀ id, s.machine.streams.live id = none
  | .running => True

structure Aside (s s' : RunState L) : Prop where
  phase : s'.phase = s.phase
  handles : s'.machine.handles = s.machine.handles
  locks : s'.machine.locks = s.machine.locks
  next : s'.machine.listeners.next = s.machine.listeners.next
  cancelled : s.cancelled = true → s'.cancelled = true
  nodeClosed : s'.nodeClosed = s.nodeClosed
  streams : s.nodeClosed = true → (∀ id, s.machine.streams.live id = none) →
    ∀ id, s'.machine.streams.live id = none
  owned : ∀ base : Machine L, base.Owned s.machine → base.Owned s'.machine

theorem InPhase.aside (h : s.InPhase) (ha : Aside s s') : s'.InPhase := by
  unfold InPhase at h ⊢
  rw [ha.phase, ha.handles, ha.nodeClosed]
  cases hphase : s.phase with
  | starting rest =>
    simp only [hphase] at h
    exact h
  | closing err names =>
    simp only [hphase] at h
    exact ⟨ha.cancelled h.1, h.2⟩
  | waiting err | returned err =>
    simp only [hphase] at h
    exact ⟨ha.cancelled h.1, h.2.1, h.2.2.1, ha.streams h.2.1 h.2.2.2⟩
  | running => trivial

/-- Along a call of `Run`, whatever is held beyond `base` belongs to a handle. -/
structure Tracked (base : Machine L) (s : RunState L) : Prop where
  owned : base.Owned s.machine
  inPhase : s.InPhase

theorem Tracked.initial (hfresh : base.Fresh) (hvalid : cfg.validate = .ok ()) :
    Tracked base (initial base cfg) where
  owned := .refl hfresh
  inPhase := ⟨(Config.validate_ok hvalid).2.1, fun t _ => hfresh.handles t.name⟩

theorem Tracked.stepStart (h : Tracked base s) {t : Tunnel} {rest : List Tunnel}
    (hphase : s.phase = .starting (t :: rest)) (sys : System) {order : List String}
    (hvisits : s.Visits (.start sys order)) : Tracked base (s.stepStart t rest sys order) := by
  have hin := h.inPhase
  rw [InPhase, hphase] at hin
  obtain ⟨hnodup, hnew⟩ := hin
  rw [RunState.stepStart]
  split
  next m handle hstart =>
    have hstarted := Machine.start_ok hstart
    refine ⟨h.owned.started hstarted (hnew t mem_cons_self), ?_⟩
    rw [map_cons, nodup_cons] at hnodup
    refine ⟨hnodup.2, ?_⟩
    intro u hu
    have hne : u.name ≠ t.name := fun heq => hnodup.1 (heq ▸ mem_map_of_mem hu)
    rw [Machine.register, hstarted.handles_eq]
    simp only [update_of_ne hne]
    exact hnew u (mem_cons_of_mem _ hu)
  next m err hstart =>
    have hsame := Machine.start_error hstart
    refine ⟨h.owned.unchanged hsame, rfl, ?_⟩
    intro name hname
    refine (hvisits.2 name).mpr ?_
    rw [hsame.rest] at hname
    exact hname

theorem stepLoop_aside (hstep : s.stepLoop id input = some s') :
    Aside s s' := by
  rw [stepLoop] at hstep
  split at hstep
  · cases hstep
  split at hstep
  · cases hstep
  all_goals
    cases hstep
    exact ⟨rfl, rfl, rfl, rfl, fun h => h, rfl, fun _ h => h, fun _ ho => ho.node _ _⟩

inductive Taken (s : RunState L) (e : RunEvent) : RunState L → Prop where
  | start (t : Tunnel) (rest : List Tunnel) (sys : System) (order : List String)
      (hevent : e = .start sys order) (hphase : s.phase = .starting (t :: rest)) :
      Taken s e (s.stepStart t rest sys order)
  | stop (err name : String) (names : List String) (hphase : s.phase = .closing err (name :: names)) :
      Taken s e { s with machine := s.machine.stop name, phase := .closing err names }
  | closeNode (err : String) (hphase : s.phase = .closing err []) :
      Taken s e { s with
        machine.streams := s.machine.streams.clear
        nodeClosed := true
        phase := .waiting err }
  | running (hphase : s.phase = .starting []) : Taken s e { s with phase := .running }
  | returned (err : String) (hphase : s.phase = .waiting err) :
      Taken s e { s with phase := .returned err }
  | aside (s' : RunState L) (haside : Aside s s')
      (hloops : (∃ id input, e = .loop id input) ∨ s'.machine.loops = s.machine.loops) : Taken s e s'

theorem step_taken (hstep : s.step e = some s') : Taken s e s' := by
  cases e with
  | start sys order =>
    rw [step] at hstep
    split at hstep
    next t rest hphase =>
      cases hstep
      exact .start t rest sys order rfl hphase
    · cases hstep
  | stop =>
    rw [step] at hstep
    split at hstep
    next err name names hphase =>
      cases hstep
      exact .stop err name names hphase
    · cases hstep
  | closeNode =>
    rw [step] at hstep
    split at hstep
    next err hphase =>
      cases hstep
      exact .closeNode err hphase
    · cases hstep
  | finish =>
    rw [step] at hstep
    split at hstep
    next hphase =>
      cases hstep
      exact .running hphase
    next err hphase =>
      obtain ⟨-, rfl⟩ := guard_eq_some.mp hstep
      exact .returned err hphase
    · cases hstep
  | accept proto peer =>
    obtain ⟨hopen, rfl⟩ := guard_eq_some.mp hstep
    refine .aside _ ⟨rfl, rfl, rfl, rfl, fun h => h, rfl, ?_, fun _ ho => ho.node _ _⟩ (.inr rfl)
    intro hclosed
    cases hclosed.symm.trans hopen.1
  | sessionEnd =>
    obtain ⟨-, rfl⟩ := unless_eq_some.mp hstep
    exact .aside _ ⟨rfl, rfl, rfl, rfl, fun h => h, rfl, fun _ h => h, fun _ h => h⟩ (.inr rfl)
  | openStream stream =>
    obtain ⟨hopen, rfl⟩ := guard_eq_some.mp hstep
    refine .aside _ ⟨rfl, rfl, rfl, rfl, fun h => h, rfl, ?_, fun _ ho => ho.node _ _⟩ (.inr rfl)
    intro hclosed
    cases hclosed.symm.trans hopen
  | closeStream id =>
    cases hstep
    refine .aside _ ⟨rfl, rfl, rfl, rfl, fun h => h, rfl, ?_, fun _ ho => ho.node _ _⟩ (.inr rfl)
    intro _ hs other
    simp only [Machine.closeStream, Registry.live_remove, hs other, ite_self]
  | parentDone =>
    cases hstep
    exact .aside _ ⟨rfl, rfl, rfl, rfl, fun _ => rfl, rfl, fun _ h => h, fun _ h => h⟩ (.inr rfl)
  | watcher id =>
    obtain ⟨hwatched, rfl⟩ := guard_eq_some.mp hstep
    exact .aside _ ⟨rfl, rfl, rfl, rfl, fun h => h, rfl, fun _ h => h,
      fun _ ho => ho.closeWatched hwatched.2⟩ (.inr rfl)
  | loop id input => exact .aside _ (stepLoop_aside hstep) (.inl ⟨id, input, rfl⟩)

theorem Tracked.step (h : Tracked base s) (hvisits : s.Visits e)
    (hstep : s.step e = some s') : Tracked base s' := by
  have hin := h.inPhase
  cases step_taken hstep with
  | start t rest sys order hevent hphase => exact h.stepStart hphase sys (hevent ▸ hvisits)
  | stop err name names hphase =>
    rw [InPhase, hphase] at hin
    refine ⟨h.owned.stop name, hin.1, ?_⟩
    intro other hother
    obtain ⟨handle, hhandle⟩ := Option.ne_none_iff_exists'.mp hother
    obtain ⟨hne, hhandle⟩ := Machine.handles_stop_eq_some.mp hhandle
    have hmem := hin.2 other (by rw [hhandle]; exact Option.some_ne_none _)
    exact (mem_cons.mp hmem).resolve_left hne
  | closeNode err hphase =>
    rw [InPhase, hphase] at hin
    refine ⟨h.owned.node _ _, hin.1, rfl, ?_, fun _ => rfl⟩
    intro name
    refine Classical.byContradiction fun hname => ?_
    cases hin.2 name hname
  | running hphase => exact ⟨h.owned, trivial⟩
  | returned err hphase =>
    rw [InPhase, hphase] at hin
    exact ⟨h.owned, hin⟩
  | aside _ haside => exact ⟨haside.owned base h.owned, hin.aside haside⟩

theorem Tracked.run (h : Tracked base s) (hrun : Run RunState.step Visits s es s') :
    Tracked base s' :=
  hrun.invariant (fun htracked hvisits hstep => htracked.step hvisits hstep) h

def remaining (s : RunState L) (id : Nat) : Nat :=
  match s.machine.loops.live id with
  | none => 0
  | some loop => loop.phase.remaining

def Over (s : RunState L) : Prop := s.cancelled = true ∧ ∃ err, s.phase = .returned err

theorem remaining_of_loops_eq (h : s'.machine.loops = s.machine.loops) :
    s'.remaining id = s.remaining id := by
  rw [remaining, remaining, h]

theorem next_remaining {loop : AdvertiseLoop L} {cancelled : Bool}
    (htimer : input ≠ .timer) {phase : LoopPhase}
    (h : loop.next cancelled input = some (some phase)) :
    phase.remaining < loop.phase.remaining := by
  cases input with
  | advance now =>
    rw [AdvertiseLoop.next] at h
    split at h
    next hphase =>
      obtain rfl := Option.some.inj (Option.some.inj h)
      have := loop.records_le now
      rw [hphase, LoopPhase.remaining, LoopPhase.remaining]
      omega
    next left hphase =>
      obtain rfl := Option.some.inj (Option.some.inj h)
      rw [hphase, LoopPhase.remaining, LoopPhase.remaining]
      omega
    next hphase =>
      obtain rfl := Option.some.inj (Option.some.inj h)
      rw [hphase]
      decide
    · cases h
  | timer => exact absurd rfl htimer
  | done =>
    rw [AdvertiseLoop.next] at h
    split at h <;> cases h

def ofLoop (id : Nat) : RunEvent → Bool
  | .loop other _ => other == id
  | _ => false

theorem stepLoop_remaining {other : Nat}
    (htimer : other = id → input ≠ .timer) (hstep : s.stepLoop other input = some s') :
    (if other = id then 1 else 0) + s'.remaining id ≤ s.remaining id := by
  rw [stepLoop] at hstep
  split at hstep
  · cases hstep
  rename_i loop hlive
  by_cases hid : other = id
  · subst hid
    have hbefore : s.remaining other = loop.phase.remaining := by rw [remaining, hlive]
    rw [if_pos rfl, hbefore]
    split at hstep
    · cases hstep
    · cases hstep
      rw [remaining]
      simp only [Registry.live_remove, if_true]
      cases loop.phase <;> rw [LoopPhase.remaining] <;> omega
    next phase hnext =>
      cases hstep
      have hlt := next_remaining (htimer rfl) hnext
      rw [remaining]
      simp only [Registry.live_modify, if_true, hlive, Option.map_some]
      omega
  · have hne : id ≠ other := fun heq => hid heq.symm
    rw [if_neg hid, Nat.zero_add]
    split at hstep
    · cases hstep
    · cases hstep
      simp only [remaining, Registry.live_remove, if_neg hne]
      exact Nat.le_refl _
    · cases hstep
      simp only [remaining, Registry.live_modify, if_neg hne]
      exact Nat.le_refl _

theorem step_over (h : s.Over) (hstep : s.step e = some s') : s'.Over := by
  obtain ⟨hc, err, hphase⟩ := h
  cases step_taken hstep with
  | start _ _ _ _ _ hother | stop _ _ _ hother | closeNode _ hother | running hother
  | returned _ hother => cases hphase.symm.trans hother
  | aside _ haside => exact ⟨haside.cancelled hc, err, haside.phase.trans hphase⟩

theorem loops_step (h : s.Over) (hstep : s.step e = some s') :
    (∃ id input, e = .loop id input) ∨ s'.machine.loops = s.machine.loops := by
  obtain ⟨hc, err, hphase⟩ := h
  cases step_taken hstep with
  | start _ _ _ _ _ hother | stop _ _ _ hother | closeNode _ hother | running hother
  | returned _ hother => cases hphase.symm.trans hother
  | aside _ _ hloops => exact hloops

/-- Unless its timer fires, a loop has only so many steps left once the context is done. -/
theorem run_remaining (h : s.Over) (hrun : Run step (fun _ e => e ≠ .loop id .timer) s es s') :
    s'.Over ∧ es.countP (ofLoop id) + s'.remaining id ≤ s.remaining id := by
  induction hrun with
  | nil s => exact ⟨h, Nat.le_of_eq (Nat.zero_add _)⟩
  | @cons s t u e es hok hstep _ ih =>
    obtain ⟨hover, hle⟩ := ih (step_over h hstep)
    refine ⟨hover, ?_⟩
    rw [countP_cons]
    by_cases hloop : ∃ other input, e = .loop other input
    · obtain ⟨other, input, rfl⟩ := hloop
      have htimer : other = id → input ≠ .timer := by
        rintro rfl rfl
        exact hok rfl
      have := stepLoop_remaining htimer hstep
      simp only [ofLoop, beq_iff_eq]
      omega
    · have hother : ofLoop id e = false := by
        cases e with
        | loop other input => exact absurd ⟨other, input, rfl⟩ hloop
        | _ => rfl
      rw [hother, ← remaining_of_loops_eq ((loops_step h hstep).resolve_left hloop)]
      exact hle

/-- The loop is never stuck, and unless its timer fires it ends within the steps it has left. -/
def Ends (s : RunState L) (id : Nat) : Prop :=
  ∀ es s', Run step (fun _ e => e ≠ .loop id .timer) s es s' →
    es.countP (ofLoop id) ≤ s.remaining id ∧
    (s'.machine.loops.live id ≠ none → ∃ input, input ≠ .timer ∧
      (s'.step (.loop id input)).isSome)

theorem exists_stepLoop (hc : s.cancelled = true) (hlive : s.machine.loops.live id ≠ none) :
    ∃ input, input ≠ .timer ∧ (s.step (.loop id input)).isSome := by
  obtain ⟨loop, hloop⟩ := Option.ne_none_iff_exists'.mp hlive
  have hnext : ∃ input, input ≠ .timer ∧ (loop.next s.cancelled input).isSome := by
    by_cases hphase : loop.phase = .waiting
    · refine ⟨.done, nofun, ?_⟩
      rw [AdvertiseLoop.next, if_pos ⟨hphase, hc⟩]
      rfl
    · refine ⟨.advance zeroTime, nofun, ?_⟩
      rw [AdvertiseLoop.next]
      split
      · rfl
      · rfl
      · rfl
      · exact absurd ‹_› hphase
  obtain ⟨input, htimer, hsome⟩ := hnext
  refine ⟨input, htimer, ?_⟩
  obtain ⟨phase, hphase⟩ := Option.isSome_iff_exists.mp hsome
  rw [step, stepLoop, hloop]
  simp only [hphase]
  cases phase <;> rfl

theorem Over.ends (h : s.Over) (id : Nat) : s.Ends id := by
  intro es s' hrun
  obtain ⟨hover, hle⟩ := run_remaining h hrun
  exact ⟨by omega, exists_stepLoop hover.1⟩

/-- When `Run` returns an error, every lock, handler, listener and stream of the call is gone and
the node is closed. Nothing waits for the `Advertise` loops; they end by themselves. -/
theorem run_error_releases {cfg : Config} (hfresh : base.Fresh) (hvalid : cfg.validate = .ok ())
    {es : List RunEvent} (hrun : Run step Visits (initial base cfg) es s) {err : String}
    (hreturned : s.phase = .returned err) :
    s.machine.locks = base.locks ∧ s.machine.listeners.live = base.listeners.live ∧
      (∀ proto, s.machine.handlers proto = none) ∧ (∀ id, s.machine.streams.live id = none) ∧
      s.nodeClosed = true ∧ s.cancelled = true ∧ ∀ id, s.Ends id := by
  have htracked := (Tracked.initial hfresh hvalid).run hrun
  have hin := htracked.inPhase
  rw [InPhase, hreturned] at hin
  obtain ⟨hc, hclosed, hhandles, hstreams⟩ := hin
  obtain ⟨hlocks, hlisteners, hhandlers⟩ := htracked.owned.released hhandles
  exact ⟨hlocks, hlisteners, hhandlers, hstreams, hclosed, hc, Over.ends ⟨hc, err, hreturned⟩⟩

theorem start_eq (m : Machine L) (sys : System) (t : Tunnel) : ∃ outcome,
    Tunnels.start t outcome = (m.start sys t).2.map OpenHandle.toTunnelHandle := by
  obtain ⟨outcome, houtcome⟩ := m.start_host sys t
  refine ⟨startError L (sys.environment outcome) t, ?_⟩
  rw [← Host.start_snd m.host, houtcome]

end RunState

section Example

def twoTunnels : Config :=
  { tunnels := [databaseTunnel "", { databaseTunnel "" with name := "db2", logicalPort := 5433 }] }

def heldElsewhere : System := { plainSystem [] with tryLockFile := .ok false }

/-- The second start fails and the daemon is closed, before the first loop got to run. -/
def failedRun : List RunEvent :=
  [.start (plainSystem []) [], .start heldElsewhere ["db"], .stop, .closeNode, .finish]

theorem idleMachine_fresh : (idleMachine L).Fresh where
  handlers := fun _ => rfl
  streams := fun _ => rfl
  loops := fun _ => rfl
  handles := fun _ => rfl
  watchers := rfl

theorem run_failedRun : ∃ s,
    Run RunState.step RunState.Visits (.initial (idleMachine plainLibraries) twoTunnels)
      failedRun s ∧
    s.phase = .returned
      "tunnel \"db2\": acquire logical port 5433: logical port 5433 already has an active listener" ∧
    s.machine.loops.live 0 = some ⟨none, .top⟩ := by
  refine ⟨_, .cons ⟨nodup_nil, ?_⟩ rfl (.cons ⟨nodup_singleton _, ?_⟩ rfl
    (.cons trivial rfl (.cons trivial rfl (.cons trivial rfl (.nil _))))), rfl, rfl⟩
  · intro name
    exact ⟨nofun, fun h => absurd rfl h⟩
  · intro name
    rw [mem_singleton]
    constructor
    · rintro rfl
      exact Option.some_ne_none _
    · intro h
      refine Classical.byContradiction fun hne => h ?_
      exact update_of_ne hne ..

theorem run_error_releases_example : twoTunnels.validate = .ok () ∧
    ∃ s, Run RunState.step RunState.Visits (.initial (idleMachine plainLibraries) twoTunnels)
      failedRun s ∧
      s.machine.locks = (idleMachine plainLibraries).locks ∧
      s.machine.listeners.live = (idleMachine plainLibraries).listeners.live ∧
      (∀ proto, s.machine.handlers proto = none) ∧ (∀ id, s.machine.streams.live id = none) ∧
      s.nodeClosed = true ∧ s.cancelled = true ∧ ∀ id, s.Ends id := by
  obtain ⟨s, hrun, hreturned, -⟩ := run_failedRun
  exact ⟨rfl, s, hrun, RunState.run_error_releases idleMachine_fresh rfl hrun hreturned⟩

/-- The loop of the first tunnel is still there when `Run` returns the second one's error. -/
theorem loop_outlives_run : twoTunnels.validate = .ok () ∧
    ∃ s err, Run RunState.step RunState.Visits
      (.initial (idleMachine plainLibraries) twoTunnels) failedRun s ∧
      s.phase = .returned err ∧ s.machine.loops.live 0 ≠ none := by
  obtain ⟨s, hrun, hreturned, hloop⟩ := run_failedRun
  refine ⟨rfl, s, _, hrun, hreturned, ?_⟩
  rw [hloop]
  exact Option.some_ne_none _

end Example

end P2PNetcat.Tunnels
