import P2PNetcat.Library.Registry
import P2PNetcat.Tunnels.Server

/-!
# The resources of the daemon's tunnels

What starting and stopping a tunnel does to the logical-port locks and local
sockets of the process, and to the stream handlers, streams and `Advertise`
loops of the p2p node. What the system and the network answer is an input.
-/

namespace P2PNetcat.Tunnels
open Function GoText GoTime StepSystem Fallible Pairing

variable {L : Libraries}

structure LocalListener where
  protocol : Protocol
  host : List Char
  port : Int
  deriving DecidableEq

structure PeerStream where
  peer : String
  proto : String
  deriving DecidableEq

/-- Where an `Advertise` loop is: before `ProviderCIDs`, with records left to provide, or in its
`select`. -/
inductive LoopPhase where
  | top
  | providing (left : Nat)
  | waiting
  deriving DecidableEq

structure AdvertiseLoop (L : Libraries) where
  token : Option (Token L)
  phase : LoopPhase

structure OpenHandle extends TunnelHandle where
  socket : Option Nat := none

/-- The answers that one start of a tunnel gets from the system and the network. -/
structure System where
  now : Time
  resolvePath : String → Except String String
  file : String → TokenFile
  lockDirectory : Except String Unit
  mkdirAll : Except String Unit
  openFile : Except String Unit
  tryLockFile : Except String Bool
  newStream : Except String Unit
  authenticateClient : Except String Unit
  resolveUDPAddr : Except String Unit
  listen : Except String Unit

def System.environment (sys : System) (outcome : Except String Unit) : Environment :=
  ⟨sys.now, sys.resolvePath, sys.file, outcome, outcome⟩

structure Machine (L : Libraries) where
  /-- The paths that `listenerlock` has in its table, by logical port. -/
  locks : UInt16 → Bool
  listeners : Registry LocalListener
  /-- The goroutines that close a listener when the daemon's context ends. -/
  watchers : List Nat
  handlers : String → Option (Handler L)
  streams : Registry PeerStream
  loops : Registry (AdvertiseLoop L)
  /-- Whether `Node.DHT` is set. -/
  dht : Bool
  handles : String → Option OpenHandle

@[ext]
structure Held (L : Libraries) where
  locks : UInt16 → Bool
  handlers : String → Option (Handler L)
  listeners : Nat → Option LocalListener
  streams : Nat → Option PeerStream
  loops : Nat → Option (AdvertiseLoop L)

def inUseError (service : UInt16) : String :=
  "logical port " ++ toString service.toNat ++ " already has an active listener"

def acquire (locks : UInt16 → Bool) (sys : System) (service : UInt16) :
    Except String (UInt16 → Bool) :=
  if service = 0 then .error "logical port must be between 1 and 65535"
  else do
    orError sys.lockDirectory ("resolve listener lock directory: " ++ ·)
    orError sys.mkdirAll ("create listener lock directory: " ++ ·)
    if locks service = true then .error (inUseError service)
    else do
      orError sys.openFile
        ("open listener lock for logical port " ++ toString service.toNat ++ ": " ++ ·)
      let locked ← orError sys.tryLockFile
        ("lock logical port " ++ toString service.toNat ++ ": " ++ ·)
      if locked = false then .error (inUseError service)
      else .ok (update locks service true)

namespace Machine

def held (m : Machine L) : Held L :=
  ⟨m.locks, m.handlers, m.listeners.live, m.streams.live, m.loops.live⟩

/-- `Node.Advertise`: the loop runs on the daemon's context. -/
def advertise (m : Machine L) (token : Option (Token L)) : Machine L :=
  { m with loops := if m.dht = false then m.loops else m.loops.add ⟨token, .top⟩ }

def setStreamHandler (m : Machine L) (handler : Handler L) : Machine L :=
  { m with
    handlers := update m.handlers (serverProtocol handler.tunnel) (some handler) }

def startServer (m : Machine L) (sys : System) (handler : Handler L) :
    Machine L × Except String OpenHandle :=
  let t := handler.tunnel
  match acquire m.locks sys t.logicalPort with
  | .error err =>
    (m, .error ("acquire logical port " ++ toString t.logicalPort.toNat ++ ": " ++ err))
  | .ok locks =>
    (({ m with locks := locks }.setStreamHandler handler).advertise handler.token,
      .ok { lock := some t.logicalPort, proto := some (serverProtocol t), startedFrom := t })

def clientProtocol (t : Tunnel) : String :=
  if t.protocol = .udp then datagramProtocolForService t.logicalPort
  else protocolForService t.logicalPort

def addStream (m : Machine L) (stream : PeerStream) : Machine L :=
  { m with streams := m.streams.add stream }

def closeStream (m : Machine L) (id : Nat) : Machine L :=
  { m with streams := m.streams.remove id }

/-- The `openStream` of `startClient`: a stream that fails its admission is reset. -/
def openStream (m : Machine L) (sys : System) (t : Tunnel) (token : Option (Token L)) :
    Machine L × Except String Nat :=
  match sys.newStream with
  | .error err => (m, .error err)
  | .ok () =>
    let id := m.streams.next
    let opened := m.addStream ⟨t.peer, clientProtocol t⟩
    if token.isSome = true then
      match sys.authenticateClient with
      | .error err => (opened.closeStream id, .error err)
      | .ok () => (opened, .ok id)
    else (opened, .ok id)

def bind (m : Machine L) (listener : LocalListener) : Machine L :=
  { m with
    listeners := m.listeners.add listener
    watchers := m.listeners.next :: m.watchers }

def startLocalForward (m : Machine L) (sys : System) (host : List Char) (port : Int) :
    Machine L × Except String Nat :=
  match sys.listen with
  | .error err => (m, .error err)
  | .ok () => (m.bind ⟨.tcp, host, port⟩, .ok m.listeners.next)

def startLocalUDPForward (m : Machine L) (sys : System) (host : List Char) (port : Int) :
    Machine L × Except String Nat :=
  match sys.resolveUDPAddr with
  | .error err => (m, .error ("resolve local UDP address: " ++ err))
  | .ok () =>
    match sys.listen with
    | .error err => (m, .error err)
    | .ok () => (m.bind ⟨.udp, host, port⟩, .ok m.listeners.next)

/-- The `preconnectedOpener`, of which only the first stream is ever closed. -/
def closeOpener (m : Machine L) (first : Option Nat) : Machine L :=
  match first with
  | none => m
  | some stream => m.closeStream stream

def clientHandle (t : Tunnel) (socket : Nat) : OpenHandle :=
  { closer := some t.listen, socket := some socket, startedFrom := t }

def startUDPClient (m : Machine L) (sys : System) (t : Tunnel) (token : Option (Token L))
    (host : List Char) (port : Int) : Machine L × Except String OpenHandle :=
  match m.openStream sys t token with
  | (m, .error err) => (m, .error ("establish initial UDP carrier: " ++ err))
  | (m, .ok preconnected) =>
    match m.startLocalUDPForward sys host port with
    | (m, .error err) => (m.closeOpener (some preconnected), .error err)
    | (m, .ok listener) => (m, .ok (clientHandle t listener))

def startTCPClient (m : Machine L) (sys : System) (t : Tunnel) (host : List Char) (port : Int) :
    Machine L × Except String OpenHandle :=
  match m.startLocalForward sys host port with
  | (m, .error err) => (m, .error err)
  | (m, .ok listener) => (m, .ok (clientHandle t listener))

def startClient (m : Machine L) (sys : System) (t : Tunnel) (token : Option (Token L)) :
    Machine L × Except String OpenHandle :=
  if t.type ≠ .forward then
    (m, .error ("client mode only supports type forward, got " ++ quote t.type.text))
  else
    match splitHostPort t.listen.toList with
    | .error err => (m, .error ("listen: " ++ err))
    | .ok (host, portText) =>
      match atoi portText with
      | none => (m, .error ("listen port: " ++ atoiError portText))
      | some port =>
        if t.protocol = .udp then m.startUDPClient sys t token host port
        else m.startTCPClient sys t host port

def start (m : Machine L) (sys : System) (t : Tunnel) : Machine L × Except String OpenHandle :=
  match h : loadTunnelToken L (sys.environment (.ok ())) t with
  | .error err => (m, .error err)
  | .ok token =>
    if t.mode = .server then m.startServer sys ⟨t, token, sys.environment (.ok ()), h⟩
    else m.startClient sys t token

def register (m : Machine L) (name : String) (handle : OpenHandle) : Machine L :=
  { m with handles := update m.handles name (some handle) }

def removeStreamHandler (m : Machine L) (proto : Option String) : Machine L :=
  match proto with
  | none => m
  | some proto => { m with handlers := update m.handlers proto none }

def closeListener (m : Machine L) (socket : Option Nat) : Machine L :=
  match socket with
  | none => m
  | some id => { m with listeners := m.listeners.remove id }

def closeLock (m : Machine L) (lock : Option UInt16) : Machine L :=
  match lock with
  | none => m
  | some port => { m with locks := update m.locks port false }

def stop (m : Machine L) (name : String) : Machine L :=
  match m.handles name with
  | none => m
  | some handle =>
    let m := { m with handles := update m.handles name none }
    ((m.removeStreamHandler handle.proto).closeListener handle.socket).closeLock handle.lock

def host (m : Machine L) : Host L where
  handles := fun name => (m.handles name).map OpenHandle.toTunnelHandle
  handlers := m.handlers

end Machine

theorem acquire_ok_iff {locks locks' : UInt16 → Bool} {sys : System} {service : UInt16} :
    acquire locks sys service = .ok locks' ↔
      service ≠ 0 ∧ sys.lockDirectory = .ok () ∧ sys.mkdirAll = .ok () ∧ locks service = false ∧
        sys.openFile = .ok () ∧ sys.tryLockFile = .ok true ∧
        update locks service true = locks' := by
  simp only [acquire, ite_error_eq_ok, bind_eq_ok, orError_ok_iff, Except.ok.injEq,
    Bool.not_eq_true, Bool.not_eq_false, ne_eq]
  constructor
  · rintro ⟨hport, _, hdir, _, hmk, hfree, _, hopen, locked, hlock, rfl, h⟩
    exact ⟨hport, hdir, hmk, hfree, hopen, hlock, h⟩
  · rintro ⟨hport, hdir, hmk, hfree, hopen, hlock, h⟩
    exact ⟨hport, _, hdir, _, hmk, hfree, _, hopen, true, hlock, rfl, h⟩

namespace Machine
variable {sys : System} {m' m : Machine L} {t : Tunnel}

inductive Started (m : Machine L) (t : Tunnel) : Machine L → OpenHandle → Prop where
  | server (handler : Handler L) (htunnel : handler.tunnel = t) (hmode : t.mode = .server)
      (hfree : m.locks t.logicalPort = false) :
      Started m t
        (({ m with locks := update m.locks t.logicalPort true }.setStreamHandler
          handler).advertise handler.token)
        { lock := some t.logicalPort, proto := some (serverProtocol t), startedFrom := t }
  | tcp (listener : LocalListener) (hmode : t.mode ≠ .server) (hproto : t.protocol ≠ .udp) :
      Started m t (m.bind listener) (clientHandle t m.listeners.next)
  | udp (stream : PeerStream) (listener : LocalListener) (hmode : t.mode ≠ .server)
      (hproto : t.protocol = .udp) :
      Started m t ((m.addStream stream).bind listener) (clientHandle t m.listeners.next)

structure Unchanged (m m' : Machine L) : Prop where
  rest : m' = { m with streams := m'.streams }
  streams : m'.streams.live = m.streams.live

theorem Unchanged.refl (m : Machine L) : Unchanged m m := ⟨rfl, rfl⟩

theorem Unchanged.closed (m : Machine L) (stream : PeerStream) :
    Unchanged m ((m.addStream stream).closeStream m.streams.next) :=
  ⟨rfl, m.streams.live_remove_add stream⟩

/-- The outcome of a start: everything it opened is in use, or nothing of it is left. -/
def Outcome (m : Machine L) (t : Tunnel) : Machine L × Except String OpenHandle → Prop
  | (m', .error _) => Unchanged m m'
  | (m', .ok handle) => Started m t m' handle

theorem startServer_outcome (m : Machine L) (sys : System) (handler : Handler L)
    (hmode : handler.tunnel.mode = .server) :
    Outcome m handler.tunnel (m.startServer sys handler) := by
  rw [startServer]
  split
  · exact .refl m
  rename_i locks hacquire
  obtain ⟨-, -, -, hfree, -, -, rfl⟩ := acquire_ok_iff.mp hacquire
  exact .server handler rfl hmode hfree

theorem openStream_cases (m : Machine L) (sys : System) (t : Tunnel) (token : Option (Token L)) :
    (∃ m' err, m.openStream sys t token = (m', .error err) ∧ Unchanged m m') ∨
      ∃ stream, m.openStream sys t token = (m.addStream stream, .ok m.streams.next) := by
  rw [openStream]
  split
  · exact .inl ⟨m, _, rfl, .refl m⟩
  simp only
  split
  · split
    · exact .inl ⟨_, _, rfl, .closed m _⟩
    · exact .inr ⟨_, rfl⟩
  · exact .inr ⟨_, rfl⟩

theorem startUDPClient_outcome (m : Machine L) (sys : System)
    (token : Option (Token L)) (host : List Char) (port : Int) (hmode : t.mode ≠ .server)
    (hproto : t.protocol = .udp) : Outcome m t (m.startUDPClient sys t token host port) := by
  rw [startUDPClient]
  rcases m.openStream_cases sys t token with ⟨m', err, hopen, hsame⟩ | ⟨stream, hopen⟩
  · simp only [hopen]
    exact hsame
  simp only [hopen, startLocalUDPForward]
  cases sys.resolveUDPAddr with
  | error err => exact .closed m stream
  | ok =>
    cases sys.listen with
    | error err => exact .closed m stream
    | ok => exact .udp stream ⟨.udp, host, port⟩ hmode hproto

theorem startTCPClient_outcome (m : Machine L) (sys : System) (host : List Char)
    (port : Int) (hmode : t.mode ≠ .server) (hproto : t.protocol ≠ .udp) :
    Outcome m t (m.startTCPClient sys t host port) := by
  rw [startTCPClient, startLocalForward]
  cases sys.listen with
  | error err => exact .refl m
  | ok => exact .tcp ⟨.tcp, host, port⟩ hmode hproto

theorem startClient_outcome (m : Machine L) (sys : System)
    (token : Option (Token L)) (hmode : t.mode ≠ .server) :
    Outcome m t (m.startClient sys t token) := by
  rw [startClient]
  split
  · exact .refl m
  split
  · exact .refl m
  rename_i host portText _
  split
  · exact .refl m
  rename_i port _
  split
  next hproto =>
    exact m.startUDPClient_outcome sys token host port hmode hproto
  next hproto =>
    exact m.startTCPClient_outcome sys host port hmode hproto

theorem start_outcome (m : Machine L) (sys : System) (t : Tunnel) :
    Outcome m t (m.start sys t) := by
  rw [start]
  split
  · exact .refl m
  rename_i token hload
  split
  next hmode =>
    exact m.startServer_outcome sys ⟨t, token, _, hload⟩ hmode
  next hmode =>
    exact m.startClient_outcome sys token hmode

theorem start_ok {handle : OpenHandle}
    (h : m.start sys t = (m', .ok handle)) : Started m t m' handle := by
  have := m.start_outcome sys t
  rw [h] at this
  exact this

theorem start_error {err : String} (h : m.start sys t = (m', .error err)) : Unchanged m m' := by
  have := m.start_outcome sys t
  rw [h] at this
  exact this

/-- A start is one of the model of handles and stream handlers, in the environment that reports
what became of the lock or of the client's sockets. -/
theorem start_host (m : Machine L) (sys : System) (t : Tunnel) : ∃ outcome,
    m.host.start (sys.environment outcome) t =
      ((m.start sys t).1.host, (m.start sys t).2.map OpenHandle.toTunnelHandle) := by
  rw [start]
  split
  next err hload =>
    refine ⟨.ok (), ?_⟩
    rw [Host.start]
    split
    next err' hload' =>
      cases hload.symm.trans hload'
      rfl
    next token hload' =>
      cases hload.symm.trans hload'
  next token hload =>
    split
    next hmode =>
      let outcome := (acquire m.locks sys t.logicalPort).map fun _ => ()
      let handler : Handler L := ⟨t, token, sys.environment outcome, hload⟩
      have hstart : m.host.start (sys.environment outcome) t = m.host.startServer handler :=
        @Host.start_server L m.host handler hmode
      refine ⟨outcome, ?_⟩
      rw [hstart, Host.startServer, startServer]
      cases hacquire : acquire m.locks sys t.logicalPort <;>
        simp only [handler, System.environment, outcome, hacquire] <;> rfl
    next hmode =>
      have hclient := m.startClient_outcome sys token hmode
      rcases hresult : m.startClient sys t token with ⟨m', err | handle⟩
      · rw [hresult] at hclient
        refine ⟨.error err, ?_⟩
        have hstart : m.host.start (sys.environment (.error err)) t =
            m.host.startClient (sys.environment (.error err)) t := Host.start_client hload hmode
        have hhost : m'.host = m.host := (congrArg host hclient.rest).trans rfl
        rw [hstart, hhost]
        rfl
      · rw [hresult] at hclient
        refine ⟨.ok (), ?_⟩
        rw [Host.start_client hload hmode]
        cases hclient with
        | server _ _ hserver => exact absurd hserver hmode
        | tcp listener | udp stream listener => rfl

theorem stop_eq (m : Machine L) (name : String) : m.stop name = { m with
    handles := update m.handles name none
    handlers := ((m.handles name).bind fun handle => handle.proto).elim m.handlers
      fun proto => update m.handlers proto none
    listeners := ((m.handles name).bind OpenHandle.socket).elim m.listeners m.listeners.remove
    locks := ((m.handles name).bind fun handle => handle.lock).elim m.locks
      fun port => update m.locks port false } := by
  rw [stop]
  split
  next hnone =>
    rw [hnone, ← hnone, update_eq_self, hnone]
    rfl
  next handle hsome =>
    rw [hsome]
    rcases handle with ⟨⟨_ | _, _ | _, _, _⟩, _ | _⟩ <;> rfl

theorem handles_stop (m : Machine L) (name : String) :
    (m.stop name).handles = update m.handles name none := by
  rw [stop_eq]

theorem stop_host (m : Machine L) (name : String) :
    (m.stop name).host = m.host.stopTunnel name := by
  have hhandles : (fun other => ((m.stop name).handles other).map OpenHandle.toTunnelHandle) =
      Tunnels.stop m.host.handles name := by
    funext other
    rw [handles_stop, Tunnels.stop, update_apply, update_apply]
    split <;> rfl
  have hproto : (m.host.handles name).bind TunnelHandle.proto =
      (m.handles name).bind fun handle => handle.proto := by
    show ((m.handles name).map OpenHandle.toTunnelHandle).bind TunnelHandle.proto = _
    cases m.handles name <;> rfl
  rw [Host.stopTunnel, hproto, host, hhandles, stop_eq]
  cases (m.handles name).bind fun handle => handle.proto <;> rfl

def cycle (t : Tunnel) (m : Machine L) (sys : System) : Option (Machine L) :=
  match m.start sys t with
  | (_, .error _) => none
  | (m', .ok handle) => some ((m'.register t.name handle).stop t.name)

inductive Cycled (m : Machine L) (t : Tunnel) : Machine L → Prop where
  | server (token : Option (Token L)) (hmode : t.mode = .server) :
      Cycled m t { m.advertise token with
        handlers := update m.handlers (serverProtocol t) none
        handles := update m.handles t.name none }
  | tcp (listener : LocalListener) (hmode : t.mode ≠ .server) (hproto : t.protocol ≠ .udp) :
      Cycled m t { m with
        listeners := (m.listeners.add listener).remove m.listeners.next
        watchers := m.listeners.next :: m.watchers
        handles := update m.handles t.name none }
  | udp (stream : PeerStream) (listener : LocalListener) (hmode : t.mode ≠ .server)
      (hproto : t.protocol = .udp) :
      Cycled m t { m with
        listeners := (m.listeners.add listener).remove m.listeners.next
        watchers := m.listeners.next :: m.watchers
        streams := m.streams.add stream
        handles := update m.handles t.name none }

theorem stop_register (m : Machine L) (name : String) (handle : OpenHandle) :
    (m.register name handle).stop name =
      (({ m with handles := update m.handles name none }.removeStreamHandler
        handle.proto).closeListener handle.socket).closeLock handle.lock := by
  rw [stop, register]
  simp only [update_self, update_idem]

theorem Started.stop {handle : OpenHandle}
    (h : Started m t m' handle) : Cycled m t ((m'.register t.name handle).stop t.name) := by
  rw [stop_register]
  cases h with
  | server handler htunnel hmode hfree =>
    subst htunnel
    have hlocks : update (update m.locks handler.tunnel.logicalPort true)
        handler.tunnel.logicalPort false = m.locks := by
      rw [update_idem, ← hfree, update_eq_self]
    have hcycled := Cycled.server (m := m) handler.token hmode
    simp only [advertise, setStreamHandler, removeStreamHandler, closeListener, closeLock,
      update_idem] at hlocks hcycled ⊢
    rw [hlocks]
    exact hcycled
  | tcp listener hmode hproto => exact .tcp listener hmode hproto
  | udp stream listener hmode hproto => exact .udp stream listener hmode hproto

theorem cycle_cycled (h : m.cycle t sys = some m') : Cycled m t m' := by
  rw [cycle] at h
  split at h
  · cases h
  rename_i m₁ handle hstart
  cases h
  exact (start_ok hstart).stop

def Restores (m : Machine L) (t : Tunnel) : Prop :=
  (t.mode ≠ .server ∧ t.protocol ≠ .udp) ∨
    (t.mode = .server ∧ m.dht = false ∧ m.handlers (serverProtocol t) = none)

section Cycled
variable {m m' : Machine L} {t : Tunnel}

theorem Cycled.held_of_restores (h : Cycled m t m') (hr : Restores m t) : m'.held = m.held := by
  cases h with
  | server token hmode =>
    rcases hr with ⟨hclient, -⟩ | ⟨-, hdht, hhandler⟩
    · exact absurd hmode hclient
    · simp only [held, advertise, if_pos hdht]
      rw [← hhandler, update_eq_self]
  | tcp listener =>
    simp only [held]
    rw [Registry.live_remove_add]
  | udp stream listener hmode hproto =>
    rcases hr with ⟨-, htcp⟩ | ⟨hserver, -⟩
    · exact absurd hproto htcp
    · exact absurd hserver hmode

theorem Cycled.restores (h : Cycled m t m') (hr : Restores m t) : Restores m' t := by
  rcases hr with hclient | ⟨hmode, hdht, hhandler⟩
  · exact .inl hclient
  have hheld := h.held_of_restores (.inr ⟨hmode, hdht, hhandler⟩)
  refine .inr ⟨hmode, ?_, ?_⟩
  · cases h <;> exact hdht
  · exact (congrFun (congrArg Held.handlers hheld) _).trans hhandler

def Residue (m : Machine L) (t : Tunnel) (base : Machine L) : Prop :=
  (t.mode = .server ∧ m.handlers (serverProtocol t) = none ∧
      base.handlers (serverProtocol t) ≠ none) ∨
    (∃ id, base.loops.live id = none ∧ m.loops.live id ≠ none) ∨
    ∃ id, base.streams.live id = none ∧ m.streams.live id ≠ none

theorem Residue.held_ne {base : Machine L} (h : Residue m t base) : m.held ≠ base.held := by
  intro heq
  rcases h with ⟨-, hnone, hsome⟩ | ⟨id, hnone, hsome⟩ | ⟨id, hnone, hsome⟩
  · exact hsome ((congrFun (congrArg Held.handlers heq) _).symm.trans hnone)
  · exact hsome ((congrFun (congrArg Held.loops heq) id).trans hnone)
  · exact hsome ((congrFun (congrArg Held.streams heq) id).trans hnone)

theorem Cycled.residue (h : Cycled m t m') (hr : ¬ Restores m t) : Residue m' t m := by
  cases h with
  | server token hmode =>
    by_cases hdht : m.dht = false
    · refine .inl ⟨hmode, update_self .., ?_⟩
      intro hhandler
      exact hr (.inr ⟨hmode, hdht, hhandler⟩)
    · refine .inr (.inl ⟨m.loops.next, m.loops.live_next, ?_⟩)
      simp only [advertise, if_neg hdht, Registry.live_add_next]
      exact Option.some_ne_none _
  | tcp listener hmode hproto => exact absurd (.inl ⟨hmode, hproto⟩) hr
  | udp stream listener =>
    refine .inr (.inr ⟨m.streams.next, m.streams.live_next, ?_⟩)
    simp only [Registry.live_add_next]
    exact Option.some_ne_none _

theorem Cycled.residue_of_residue {base : Machine L} (h : Cycled m t m')
    (hres : Residue m t base) : Residue m' t base := by
  rcases hres with ⟨hmode, hnone, hsome⟩ | ⟨id, hnone, hsome⟩ | ⟨id, hnone, hsome⟩
  · refine .inl ⟨hmode, ?_, hsome⟩
    cases h with
    | server token => exact update_self ..
    | tcp _ hclient | udp _ _ hclient => exact absurd hmode hclient
  · refine .inr (.inl ⟨id, hnone, ?_⟩)
    obtain ⟨loop, hloop⟩ := Option.ne_none_iff_exists'.mp hsome
    cases h with
    | server token =>
      simp only [advertise]
      split
      · exact hsome
      · rw [Registry.live_add_of_some hloop]
        exact Option.some_ne_none _
    | tcp | udp => exact hsome
  · refine .inr (.inr ⟨id, hnone, ?_⟩)
    obtain ⟨stream, hstream⟩ := Option.ne_none_iff_exists'.mp hsome
    cases h with
    | server token | tcp => exact hsome
    | udp =>
      simp only
      rw [Registry.live_add_of_some hstream]
      exact Option.some_ne_none _

end Cycled

theorem cycles_restore {systems : List System}
    (hr : Restores m t) (h : Run (cycle t) Any m systems m') :
    m'.held = m.held ∧ Restores m' t := by
  induction h with
  | nil m => exact ⟨rfl, hr⟩
  | cons _ hstep _ ih =>
    have hcycled := cycle_cycled hstep
    obtain ⟨hheld, hr'⟩ := ih (hcycled.restores hr)
    exact ⟨hheld.trans (hcycled.held_of_restores hr), hr'⟩

theorem cycles_residue {base : Machine L} {systems : List System}
    (hres : Residue m t base) (h : Run (cycle t) Any m systems m') : Residue m' t base :=
  h.invariant (I := fun m => Residue m t base)
    (fun hres _ hstep => (cycle_cycled hstep).residue_of_residue hres) hres

/-- Any number of start and stop cycles of a tunnel gives back all it took exactly for the client
tunnels over TCP, and for server tunnels of a node that has no DHT to advertise on. -/
theorem cycles_restore_iff {t : Tunnel} {m m' : Machine L} {systems : List System}
    (h : Run (cycle t) Any m systems m') :
    m'.held = m.held ↔ systems = [] ∨ Restores m t := by
  constructor
  · intro hheld
    cases h with
    | nil => exact .inl rfl
    | cons _ hstep hrest =>
      refine .inr (Classical.byContradiction fun hr => ?_)
      exact (cycles_residue ((cycle_cycled hstep).residue hr) hrest).held_ne hheld
  · intro hr
    rcases hr with rfl | hr
    · cases h
      rfl
    · exact (cycles_restore hr h).1

end Machine

section Parsing
variable {t : Tunnel}

theorem runServerSession_ok (h : t.validate = .ok ()) (hmode : t.mode = .server) :
    ∃ call, runServerSession t = .ok call := by
  simp only [Tunnel.validate, bind_eq_ok] at h
  obtain ⟨_, htype, _, -, _, -, _, -, _, hfields, -⟩ := h
  rw [runServerSession]
  cases hkind : t.type with
  | forward =>
    rw [checkFields, hkind] at hfields
    obtain ⟨-, hfields⟩ := ite_error_eq_ok.mp hfields
    rw [if_pos hmode] at hfields
    obtain ⟨host, text, port, hsplit, hatoi, -⟩ := checkAddress_ok hfields
    simp only [hsplit, orError, hatoi, bind, Except.bind]
    split <;> exact ⟨_, rfl⟩
  | socks | pty | exec => exact ⟨_, rfl⟩
  | other text =>
    rw [checkType, hkind] at htype
    split at htype <;> simp_all

theorem startClient_parses (h : t.validate = .ok ()) (hmode : t.mode ≠ .server) :
    ∃ host port, ∀ (m : Machine L) sys token, m.startClient sys t token =
      if t.protocol = .udp then m.startUDPClient sys t token host port
      else m.startTCPClient sys t host port := by
  simp only [Tunnel.validate, bind_eq_ok] at h
  obtain ⟨_, htype, _, hclient, _, -, _, hkind, _, hfields, -⟩ := h
  have hforward : t.type = .forward := by
    revert htype hclient hkind
    simp only [checkType, checkMode, checkClient]
    grind
  rw [checkFields, hforward] at hfields
  obtain ⟨-, hfields⟩ := ite_error_eq_ok.mp hfields
  rw [if_neg hmode] at hfields
  obtain ⟨host, text, port, hsplit, hatoi, -⟩ := checkAddress_ok hfields
  refine ⟨host, port, fun m sys token => ?_⟩
  simp only [Machine.startClient, hforward, hsplit, hatoi, ne_eq, not_true_eq_false, if_false]

/-- After `Validate` no tunnel of a config fails for what the config says. -/
theorem validated_config_parses (L : Libraries) {c : Config} (h : c.validate = .ok ()) :
    (c.tunnels.map Tunnel.name).Nodup ∧
    c.tunnels.Pairwise (fun t u => t.mode = .server → u.mode = .server →
      t.logicalPort ≠ u.logicalPort) ∧
    ∀ t ∈ c.tunnels, (t.mode = .server → ∃ call, runServerSession t = .ok call) ∧
      (t.mode ≠ .server → ∃ host port, ∀ (m : Machine L) sys token,
        m.startClient sys t token =
          if t.protocol = .udp then m.startUDPClient sys t token host port
          else m.startTCPClient sys t host port) := by
  obtain ⟨-, hnames, hall⟩ := Config.validate_ok h
  refine ⟨hnames, (checkTunnels_ports (Config.checked h).2).1, ?_⟩
  intro t ht
  exact ⟨runServerSession_ok (hall t ht), startClient_parses (hall t ht)⟩

end Parsing

section Example

def idleMachine (L : Libraries) : Machine L :=
  ⟨fun _ => false, .empty, [], fun _ => none, .empty, .empty, true, fun _ => none⟩

def plainSystem (data : List Char) : System where
  now := unix 1800000000
  resolvePath := .ok
  file := fun _ => ⟨.ok (), .ok true, .ok (), .ok data⟩
  lockDirectory := .ok ()
  mkdirAll := .ok ()
  openFile := .ok ()
  tryLockFile := .ok true
  newStream := .ok ()
  authenticateClient := .ok ()
  resolveUDPAddr := .ok ()
  listen := .ok ()

def clientTunnel (protocol : Protocol) : Tunnel :=
  { name := "remote", type := .forward, mode := .client, logicalPort := 5432, protocol := protocol,
    listen := "127.0.0.1:15432", peer := "12D3KooWQ3uxpHgjDKE6vGmvzKS8RPbxUDLwJ7XCLaD6YXdUfbR9" }

theorem validated_config_parses_example : ∃ host port,
    ∀ (m : Machine plainLibraries) sys token, m.startClient sys (clientTunnel .udp) token =
      m.startUDPClient sys (clientTunnel .udp) token host port :=
  ((validated_config_parses plainLibraries (c := ⟨"", [], none, "", [clientTunnel .udp]⟩)
    rfl).2.2 _ (.head _)).2 (fun h => nomatch h)

theorem cycles_restore_iff_example : (clientTunnel .tcp).validate = .ok () ∧
    ∃ m, Run (Machine.cycle (clientTunnel .tcp)) Any (idleMachine plainLibraries)
      [plainSystem [], plainSystem []] m ∧ m.held = (idleMachine plainLibraries).held := by
  refine ⟨rfl, ?_⟩
  have hrun : ∃ m, Run (Machine.cycle (clientTunnel .tcp)) Any (idleMachine plainLibraries)
      [plainSystem [], plainSystem []] m :=
    ⟨_, .cons trivial rfl (.cons trivial rfl (.nil _))⟩
  obtain ⟨m, hrun⟩ := hrun
  refine ⟨m, hrun, (Machine.cycles_restore_iff hrun).mpr (.inr (.inl ⟨?_, ?_⟩))⟩
  · exact fun h => nomatch h
  · exact fun h => nomatch h

/-- One cycle of a server tunnel leaves its `Advertise` loop, one of a UDP client its carrier. -/
theorem cycle_leaves_resources :
    ((databaseTunnel "").validate = .ok () ∧
      ∃ m, (idleMachine plainLibraries).cycle (databaseTunnel "") (plainSystem []) = some m ∧
        (idleMachine plainLibraries).held.loops 0 = none ∧
        m.held.loops 0 = some ⟨none, .top⟩) ∧
    (clientTunnel .udp).validate = .ok () ∧
      ∃ m, (idleMachine plainLibraries).cycle (clientTunnel .udp) (plainSystem []) = some m ∧
        (idleMachine plainLibraries).held.streams 0 = none ∧
        m.held.streams 0 = some ⟨"12D3KooWQ3uxpHgjDKE6vGmvzKS8RPbxUDLwJ7XCLaD6YXdUfbR9",
          "/p2p-netcat/udp/1.0.0/5432"⟩ :=
  ⟨⟨rfl, _, rfl, rfl, rfl⟩, rfl, _, rfl, rfl, rfl⟩

end Example

end P2PNetcat.Tunnels
