import P2PNetcat.Cli.Options
import P2PNetcat.Protocol.Admission
import P2PNetcat.Tunnels.Reload

/-!
# Server tunnels of the daemon

How a server tunnel gets its pairing token, and what becomes of the streams
that arrive for it. The calls of `Run` and `Reload` are sequences of starts
and stops, in between which streams arrive at any time.
-/

namespace P2PNetcat.Tunnels
open List Function GoText GoTime ByteCodec StepSystem Fallible Pairing Admission
variable {t : Tunnel}

structure TokenFile where
  opened : Except String Unit
  regular : Except String Bool
  permissions : Except String Unit
  data : Except String (List Char)

def encodedLen (n : Nat) : Nat := n / 3 * 4 + (n % 3 * 8 + 5) / 6

def maxTokenText : Nat := tokenPrefix.length + encodedLen maxTokenSize + 2

def readTokenFile (file : TokenFile) : Except String (List Char) := do
  orError file.opened ("open pairing token file: " ++ ·)
  let regular ← orError file.regular ("inspect pairing token file: " ++ ·)
  if regular = false then .error "pairing token file must be a regular file"
  else do
    orError file.permissions ("pairing token file is not private: " ++ ·)
    let data ← orError file.data ("read pairing token file: " ++ ·)
    if (Utf8.encode data).length > maxTokenText then
      .error ("pairing token file exceeds " ++ toString maxTokenText ++ " bytes")
    else .ok data

/-- What one start of a tunnel finds: the clock, `ResolvePath`, the files, the lock of the logical
port and, for a client tunnel, how its listener came up. -/
structure Environment where
  now : Time
  resolvePath : String → Except String String
  file : String → TokenFile
  acquire : Except String Unit
  client : Except String Unit

variable {L : Libraries}

def storedToken (L : Libraries) (env : Environment) (t : Tunnel) : Except String (Token L) := do
  let path ← orError (env.resolvePath t.tokenFile) ("token_file: " ++ ·)
  let raw ← readTokenFile (env.file path)
  let token ← orError (decode L (trimSpace raw)) ("decode pairing token: " ++ ·)
  token.validate env.now
  .ok token

def loadTunnelToken (L : Libraries) (env : Environment) (t : Tunnel) :
    Except String (Option (Token L)) :=
  if t.tokenFile = "" then .ok none
  else
    match storedToken L env t with
    | .error err => .error ("tunnel " ++ quote t.name ++ ": " ++ err)
    | .ok token => .ok (some token)

/-- The closure `startServer` registers: a tunnel and the token that was loaded for it. -/
structure Handler (L : Libraries) where
  tunnel : Tunnel
  token : Option (Token L)
  env : Environment
  loaded : loadTunnelToken L env tunnel = .ok token

inductive SessionCall where
  | udpForward (host : List Char) (port : Int)
  | tcpForward (host : List Char) (port : Int)
  | socks
  | ptyServer
  | exec (command : String)
  deriving DecidableEq

def runServerSession (t : Tunnel) : Except String SessionCall :=
  match t.type with
  | .forward => do
    let (host, portText) ← orError (splitHostPort t.target.toList) ("target: " ++ ·)
    let host := if host = [] then "127.0.0.1".toList else host
    match atoi portText with
    | none => .error ("target port: " ++ atoiError portText)
    | some port =>
      if t.protocol = .udp then .ok (.udpForward host port) else .ok (.tcpForward host port)
  | .socks => .ok .socks
  | .pty => .ok .ptyServer
  | .exec => .ok (.exec t.exec)
  | .other text => .error ("unsupported tunnel type " ++ quote text)

inductive Handled (L : Libraries) where
  | reset (handler : Handler L) (err : String)
  | session (handler : Handler L) (x : Incoming) (call : Except String SessionCall)

structure Host (L : Libraries) where
  handles : Handles := fun _ => none
  handlers : String → Option (Handler L) := fun _ => none
  handled : List (Handled L) := []

inductive HostEvent where
  | start (env : Environment) (t : Tunnel)
  | stop (name : String)
  | stream (proto : String) (x : Incoming)

def serverProtocol (t : Tunnel) : String :=
  if t.type = .forward ∧ t.protocol = .udp then datagramProtocolForService t.logicalPort
  else protocolForService t.logicalPort

namespace Host

def startServer (s : Host L) (handler : Handler L) : Host L × Except String TunnelHandle :=
  let t := handler.tunnel
  match handler.env.acquire with
  | .error err =>
    (s, .error ("acquire logical port " ++ toString t.logicalPort.toNat ++ ": " ++ err))
  | .ok () =>
    ({ s with handlers := update s.handlers (serverProtocol t) (some handler) },
      .ok { lock := some t.logicalPort, proto := some (serverProtocol t), startedFrom := t })

def startClient (s : Host L) (env : Environment) (t : Tunnel) :
    Host L × Except String TunnelHandle :=
  match env.client with
  | .error err => (s, .error err)
  | .ok () => (s, .ok { closer := some t.listen, startedFrom := t })

def start (s : Host L) (env : Environment) (t : Tunnel) : Host L × Except String TunnelHandle :=
  match h : loadTunnelToken L env t with
  | .error err => (s, .error err)
  | .ok token => if t.mode = .server then s.startServer ⟨t, token, env, h⟩ else s.startClient env t

def startTunnel (s : Host L) (env : Environment) (t : Tunnel) : Host L :=
  match s.start env t with
  | (s, .error _) => s
  | (s, .ok handle) => { s with handles := update s.handles t.name (some handle) }

def stopTunnel (s : Host L) (name : String) : Host L where
  handles := stop s.handles name
  handlers :=
    match (s.handles name).bind TunnelHandle.proto with
    | none => s.handlers
    | some proto => update s.handlers proto none
  handled := s.handled

def serve (s : Host L) (handler : Handler L) (x : Incoming) : Host L :=
  { s with handled := .session handler x (runServerSession handler.tunnel) :: s.handled }

/-- The stream handler: admission if the tunnel has a token, then the session. -/
def accept (s : Host L) (handler : Handler L) (x : Incoming) : Host L :=
  match handler.token with
  | none => s.serve handler x
  | some token =>
    match authenticateServer token x with
    | .error err => { s with handled := .reset handler err :: s.handled }
    | .ok () => s.serve handler x

def step (s : Host L) : HostEvent → Option (Host L)
  | .start env t => some (s.startTunnel env t)
  | .stop name => some (s.stopTunnel name)
  | .stream proto x => (s.handlers proto).map fun handler => s.accept handler x

/-- Only tunnels of the listed configs are started, in one of the listed environments. -/
def Configured (cfgs : List Config) (seen : Environment → Prop) (_ : Host L) : HostEvent → Prop
  | .start env t => seen env ∧ ∃ cfg ∈ cfgs, t ∈ cfg.tunnels
  | _ => True

/-- Every session was admitted with its tunnel's token, or the tunnel opted out. -/
def Authenticated (s : Host L) : Prop := ∀ handler x call, .session handler x call ∈ s.handled →
  (∃ token, handler.token = some token ∧ authenticateServer token x = .ok ()) ∨
    handler.tunnel.allowUnauthenticated = true

/-- Every session after admission used a token of this node for the tunnel's logical port. -/
def Scoped (node : PeerID) (s : Host L) : Prop := ∀ handler x call,
  .session handler x call ∈ s.handled → ∀ token, handler.token = some token →
    token.peerID = node ∧ token.service = handler.tunnel.logicalPort

/-- All handlers are of a kind, and a handler with a token serves only after admission. -/
structure Serves (P : Handler L → Prop) (s : Host L) : Prop where
  handlers : ∀ proto handler, s.handlers proto = some handler → P handler
  sessions : ∀ handler x call, .session handler x call ∈ s.handled →
    P handler ∧ ∀ token, handler.token = some token → authenticateServer token x = .ok ()

section Serves
variable {P : Handler L → Prop} {s t : Host L}

theorem Serves.initial : Serves P ({} : Host L) where
  handlers := by
    intro proto handler h
    cases h
  sessions := by
    intro handler x call hmem
    cases hmem

theorem Serves.update (hs : Serves P s) {proto : String} {handler : Option (Handler L)}
    (hnew : ∀ h, handler = some h → P h) :
    Serves P { s with handlers := update s.handlers proto handler } where
  handlers := by
    intro other h hother
    by_cases heq : other = proto
    · subst heq
      exact hnew h (by simpa using hother)
    · exact hs.handlers other h (by simpa [heq] using hother)
  sessions := hs.sessions

theorem Serves.startTunnel (hs : Serves P s) {env : Environment} {t : Tunnel}
    (hnew : t.mode = .server → env.acquire = .ok () → ∀ token h, P ⟨t, token, env, h⟩) :
    Serves P (s.startTunnel env t) := by
  have hstart : Serves P (s.start env t).1 := by
    rw [Host.start]
    split
    · exact hs
    rename_i token hload
    split
    next hmode =>
      rw [Host.startServer]
      split
      · exact hs
      next hacquire =>
        exact hs.update fun h heq => Option.some.inj heq ▸ hnew hmode hacquire token hload
    · rw [Host.startClient]
      split <;> exact hs
  rw [Host.startTunnel]
  split
  next u err heq =>
    rw [heq] at hstart
    exact hstart
  next u handle heq =>
    rw [heq] at hstart
    exact ⟨hstart.handlers, hstart.sessions⟩

theorem Serves.stopTunnel (hs : Serves P s) (name : String) : Serves P (s.stopTunnel name) := by
  rw [Host.stopTunnel]
  split
  · exact ⟨hs.handlers, hs.sessions⟩
  rename_i proto _
  have hupdate : Serves P { s with handlers := Function.update s.handlers proto none } := by
    refine hs.update ?_
    intro h heq
    cases heq
  exact ⟨hupdate.handlers, hupdate.sessions⟩

theorem Serves.accept (hs : Serves P s) {handler : Handler L} (hP : P handler) (x : Incoming) :
    Serves P (s.accept handler x) := by
  have hserve : (∀ token, handler.token = some token → authenticateServer token x = .ok ()) →
      Serves P (s.serve handler x) := by
    intro hadmitted
    refine ⟨hs.handlers, ?_⟩
    intro other y call hmem
    rcases mem_cons.mp hmem with heq | hmem
    · cases heq
      exact ⟨hP, hadmitted⟩
    · exact hs.sessions other y call hmem
  rw [Host.accept]
  split
  next hnone =>
    refine hserve ?_
    intro token htoken
    cases hnone.symm.trans htoken
  next token hsome =>
    split
    · refine ⟨hs.handlers, ?_⟩
      intro other y call hmem
      rcases mem_cons.mp hmem with heq | hmem
      · cases heq
      · exact hs.sessions other y call hmem
    next hadmitted =>
      refine hserve ?_
      intro other hother
      rw [Option.some.inj (hsome.symm.trans hother)] at hadmitted
      exact hadmitted

/-- What holds of every handler that a run may register holds of every session of the run. -/
theorem Serves.run {ok : Host L → HostEvent → Prop}
    (hnew : ∀ s env t, ok s (.start env t) → t.mode = .server → env.acquire = .ok () →
      ∀ token h, P ⟨t, token, env, h⟩)
    {es : List HostEvent} (hrun : Run step ok {} es s) : Serves P s := by
  refine hrun.invariant (I := Serves P) ?_ Serves.initial
  intro s ev u hs hok hstep
  cases ev with
  | start env t =>
    cases hstep
    exact hs.startTunnel (hnew s env t hok)
  | stop name =>
    cases hstep
    exact hs.stopTunnel name
  | stream proto x =>
    obtain ⟨handler, hhandler, rfl⟩ := Option.map_eq_some_iff.mp hstep
    exact hs.accept (hs.handlers proto handler hhandler) x

end Serves

theorem start_server {s : Host L} {handler : Handler L} (hmode : handler.tunnel.mode = .server) :
    s.start handler.env handler.tunnel = s.startServer handler := by
  rw [start]
  split
  next err h =>
    cases handler.loaded.symm.trans h
  rename_i token h
  rw [if_pos hmode]
  obtain rfl := Except.ok.inj (handler.loaded.symm.trans h)
  rfl

theorem start_client {s : Host L} {env : Environment} {t : Tunnel} {token : Option (Token L)}
    (hload : loadTunnelToken L env t = .ok token) (hmode : t.mode ≠ .server) :
    s.start env t = s.startClient env t := by
  rw [start]
  split
  next err h =>
    cases hload.symm.trans h
  · rw [if_neg hmode]

/-- A tunnel that can be started gets a session for every stream that its token admits. -/
theorem exists_session {cfgs : List Config} {seen : Environment → Prop} (handler : Handler L)
    (hseen : seen handler.env) (hcfg : ∃ cfg ∈ cfgs, handler.tunnel ∈ cfg.tunnels)
    (hmode : handler.tunnel.mode = .server) (hacquire : handler.env.acquire = .ok ())
    (x : Incoming)
    (hx : ∀ token, handler.token = some token → authenticateServer token x = .ok ()) :
    ∃ es s, Run step (Configured cfgs seen) {} es s ∧
      .session handler x (runServerSession handler.tunnel) ∈ s.handled := by
  let s₁ : Host L := ({} : Host L).startTunnel handler.env handler.tunnel
  have hregistered : s₁.handlers (serverProtocol handler.tunnel) = some handler := by
    simp only [s₁, startTunnel, start_server hmode, startServer, hacquire, update_self]
  have hserve : s₁.accept handler x = s₁.serve handler x := by
    rw [accept]
    split
    · rfl
    next token htoken =>
      rw [hx token htoken]
  have hstream : s₁.step (.stream (serverProtocol handler.tunnel) x) =
      some (s₁.serve handler x) := by
    rw [step, hregistered, Option.map_some, hserve]
  have hrun : Run step (Configured cfgs seen) {} [.start handler.env handler.tunnel,
      .stream (serverProtocol handler.tunnel) x] (s₁.serve handler x) :=
    .cons ⟨hseen, hcfg⟩ rfl (.cons trivial hstream (.nil _))
  exact ⟨_, _, hrun, mem_cons_self⟩

end Host

def startError (L : Libraries) (env : Environment) (t : Tunnel) : Option String :=
  match loadTunnelToken L env t with
  | .error err => some err
  | .ok _ =>
    if t.mode = .server then
      match env.acquire with
      | .error err => some ("acquire logical port " ++ toString t.logicalPort.toNat ++ ": " ++ err)
      | .ok () => none
    else
      match env.client with
      | .error err => some err
      | .ok () => none

namespace Host

theorem start_snd (s : Host L) (env : Environment) (t : Tunnel) :
    (s.start env t).2 = Tunnels.start t (startError L env t) := by
  rw [start]
  split
  next err h =>
    simp only [startError, h, Tunnels.start]
  rename_i token h
  by_cases hmode : t.mode = .server
  · cases hacquire : env.acquire with
    | error err => simp only [startError, h, hmode, startServer, hacquire, Tunnels.start, if_true]
    | ok =>
      simp only [startError, h, hmode, startServer, hacquire, Tunnels.start, if_true,
        serverProtocol]
  · cases hclient : env.client with
    | error err | ok =>
      simp only [startError, h, if_neg hmode, startClient, hclient, Tunnels.start]

theorem handles_start (s : Host L) (env : Environment) (t : Tunnel) :
    (s.start env t).1.handles = s.handles := by
  rw [start]
  split
  · rfl
  split
  · rw [startServer]
    split <;> rfl
  · rw [startClient]
    split <;> rfl

theorem handles_startTunnel (s : Host L) (env : Environment) (t : Tunnel) :
    (s.startTunnel env t).handles = match Tunnels.start t (startError L env t) with
      | .error _ => s.handles
      | .ok handle => update s.handles t.name (some handle) := by
  rw [← start_snd s env t, startTunnel, ← handles_start s env t]
  rcases s.start env t with ⟨u, err | handle⟩ <;> rfl

section Calls
variable {cfgs : List Config} {outcome : String → Option String} {env : String → Environment}

theorem run_of_startAll {tunnels : List Tunnel} (hcfg : ∀ t ∈ tunnels, ∃ cfg ∈ cfgs, t ∈ cfg.tunnels)
    (houtcome : ∀ t ∈ tunnels, outcome t.name = startError L (env t.name) t) {s : Host L}
    {handles : Handles} (h : startAll outcome tunnels s.handles = .ok handles) :
    ∃ es u, Run step (Configured cfgs fun _ => True) s es u ∧ u.handles = handles := by
  induction tunnels generalizing s with
  | nil =>
    cases h
    exact ⟨[], s, .nil s, rfl⟩
  | cons t rest ih =>
    have hhandles := s.handles_startTunnel (env t.name) t
    rw [← houtcome t mem_cons_self] at hhandles
    rw [startAll] at h
    split at h
    · cases h
    rename_i handle hstart
    simp only [hstart] at hhandles
    rw [← hhandles] at h
    obtain ⟨es, u, hrun, hu⟩ := ih (fun t ht => hcfg t (mem_cons_of_mem _ ht))
      (fun t ht => houtcome t (mem_cons_of_mem _ ht)) h
    exact ⟨.start (env t.name) t :: es, u,
      .cons ⟨trivial, hcfg t mem_cons_self⟩ rfl hrun, hu⟩

theorem run_of_stopLoop (cfgs : List Config) (oldByName newByName : String → Option Tunnel)
    (order : List String) (s : Host L) : ∃ es u, Run step (Configured cfgs fun _ => True) s es u ∧
      u.handles = stopLoop oldByName newByName order s.handles := by
  induction order generalizing s with
  | nil => exact ⟨[], s, .nil s, rfl⟩
  | cons name rest ih =>
    rw [stopLoop]
    split
    · exact ih s
    split
    · exact ih s
    · obtain ⟨es, u, hrun, hu⟩ := ih (s.stopTunnel name)
      exact ⟨.stop name :: es, u, .cons trivial rfl hrun, hu⟩

theorem run_of_startLoop (oldByName : String → Option Tunnel) {newByName : String → Option Tunnel}
    (order : List String)
    (hcfg : ∀ name t, newByName name = some t → t.name = name ∧ ∃ cfg ∈ cfgs, t ∈ cfg.tunnels)
    (houtcome : ∀ name t, newByName name = some t → outcome name = startError L (env name) t)
    (s : Host L) : ∃ es u, Run step (Configured cfgs fun _ => True) s es u ∧
      u.handles = (startLoop oldByName newByName outcome order s.handles).1 := by
  induction order generalizing s with
  | nil => exact ⟨[], s, .nil s, rfl⟩
  | cons name rest ih =>
    rw [startLoop]
    split
    · exact ih s
    rename_i t hnew
    split
    · exact ih s
    obtain ⟨hname, hmem⟩ := hcfg name t hnew
    have hhandles := s.handles_startTunnel (env name) t
    rw [← houtcome name t hnew] at hhandles
    split
    next err hstart =>
      simp only [hstart] at hhandles
      exact ⟨[.start (env name) t], _, .single ⟨trivial, hmem⟩ rfl, hhandles⟩
    next handle hstart =>
      simp only [hstart, hname] at hhandles
      obtain ⟨es, u, hrun, hu⟩ := ih (s.startTunnel (env name) t)
      rw [hhandles] at hu
      exact ⟨.start (env name) t :: es, u, .cons ⟨trivial, hmem⟩ rfl hrun, hu⟩

theorem run_of_run {cfg : Option Config} {boot : Option String} {d : Daemon}
    (h : Tunnels.run cfg boot outcome = .ok d)
    (houtcome : ∀ t ∈ d.cfg.tunnels, outcome t.name = startError L (env t.name) t) :
    d.cfg.validate = .ok () ∧ ∃ es u, Run step (Configured [d.cfg] fun _ => True)
      ({} : Host L) es u ∧ u.handles = d.handles := by
  unfold Tunnels.run at h
  split at h
  · cases h
  rename_i cfg
  obtain ⟨_, hvalid, h⟩ := bind_eq_ok.mp h
  split at h
  · cases h
  obtain ⟨handles, hstart, h⟩ := bind_eq_ok.mp h
  cases h
  exact ⟨hvalid, run_of_startAll (fun t ht => ⟨cfg, mem_singleton.mpr rfl, ht⟩) houtcome
    hstart⟩

/-- Every `Reload`, also one that returns an error, is a run of stops and starts of tunnels of a
validated config. -/
theorem run_of_reload {d : Daemon} {call : ReloadCall} {s : Host L} (hs : s.handles = d.handles)
    (hcfgs : ∀ newCfg ∈ call.newCfg, newCfg.validate = .ok () → newCfg ∈ cfgs)
    (houtcome : ∀ newCfg ∈ call.newCfg, ∀ name t, tunnelsByName newCfg.tunnels name = some t →
      call.outcome name = startError L (env name) t) :
    ∃ es u, Run step (Configured cfgs fun _ => True) s es u ∧
      u.handles = (d.reload call).1.handles := by
  rw [Daemon.reload]
  split
  · exact ⟨[], s, .nil s, hs⟩
  rename_i newCfg hcfg
  split
  · exact ⟨[], s, .nil s, hs⟩
  rename_i hvalid
  simp only
  obtain ⟨es, u, hrun, hu⟩ := run_of_stopLoop cfgs (tunnelsByName d.cfg.tunnels)
    (tunnelsByName newCfg.tunnels) call.stopOrder s
  have hmem : ∀ name t, tunnelsByName newCfg.tunnels name = some t →
      t.name = name ∧ ∃ cfg ∈ cfgs, t ∈ cfg.tunnels := by
    intro name t ht
    obtain ⟨hname, hmem⟩ := tunnelsByName_eq_some ht
    exact ⟨hname, newCfg, hcfgs newCfg hcfg hvalid, hmem⟩
  obtain ⟨fs, w, hrun', hw⟩ := run_of_startLoop (tunnelsByName d.cfg.tunnels)
    call.startOrder hmem (houtcome newCfg hcfg) u
  rw [hu, hs] at hw
  refine ⟨es ++ fs, w, hrun.append hrun', ?_⟩
  rw [hw]
  split <;> rename_i hloop <;> rw [hloop]

end Calls

end Host

variable {env : Environment}

theorem tokenFile_of_loaded_none
    (h : loadTunnelToken L env t = .ok none) : t.tokenFile = "" := by
  rw [loadTunnelToken] at h
  split at h
  · assumption
  · split at h <;> cases h

variable {token : Token L}

theorem loaded_some_iff :
    loadTunnelToken L env t = .ok (some token) ↔
      t.tokenFile ≠ "" ∧ storedToken L env t = .ok token := by
  rw [loadTunnelToken]
  by_cases hfile : t.tokenFile = ""
  · rw [if_pos hfile]
    simp [hfile]
  rw [if_neg hfile]
  cases storedToken L env t with
  | error err => simp
  | ok other => simp [hfile]

theorem guarded_of_validate (h : t.validate = .ok ()) (hmode : t.mode = .server)
    (htype : t.type ≠ .forward) : t.tokenFile ≠ "" ∨ t.allowUnauthenticated = true := by
  simp only [Tunnel.validate, bind_eq_ok] at h
  obtain ⟨_, -, _, -, _, -, _, -, _, -, h⟩ := h
  rw [checkToken, ite_error_eq_ok] at h
  by_contra hopen
  rw [not_or, not_not, Bool.not_eq_true] at hopen
  refine h.1 ⟨hmode, htype, ?_, ?_⟩
  · rw [hopen.2]
    rfl
  · rw [hopen.1]
    rfl

def Tunnel.listenerOptions (t : Tunnel) : Cli.Options :=
  let options : Cli.Options :=
    { listen := true, keepOpen := true, socks := t.type = .socks, interactive := t.type = .pty,
      pairingTokenFile := t.tokenFile, allowUnauthenticatedListener := t.allowUnauthenticated }
  match t.type, splitHostPort t.target.toList with
  | .forward, .ok (host, port) =>
    { options with
      destination := String.ofList host
      port := (atoi port).getD 0
      portChanged := true
      udp := t.protocol = .udp }
  | .exec, _ => { options with exec := t.exec }
  | _, _ => options

theorem checkAddress_ok {field required value : String}
    (h : checkAddress field required value = .ok ()) : ∃ host text port,
      splitHostPort value.toList = .ok (host, text) ∧ atoi text = some port ∧ 1 ≤ port ∧
        port ≤ 65535 := by
  rw [checkAddress, ite_error_eq_ok] at h
  obtain ⟨-, h⟩ := h
  split at h
  · cases h
  rename_i host text hsplit
  split at h
  next hport =>
    rw [validPort] at hport
    split at hport
    next port hatoi =>
      simp only [Bool.and_eq_true, decide_eq_true_eq] at hport
      exact ⟨host, text, port, hsplit, hatoi, hport.1, hport.2⟩
    · cases hport
  · cases h

/-- The command line accepts the listener of a valid server tunnel only with a token or with the
opt-out, of whatever type the tunnel is. -/
theorem listener_accepted_iff (h : t.validate = .ok ()) (hmode : t.mode = .server)
    {args : List String} (hargs : args.length ≤ 1) :
    Cli.validateOptions t.listenerOptions "" args = .ok () ↔
      blank t.tokenFile = false ∨ t.allowUnauthenticated = true := by
  simp only [Tunnel.validate, bind_eq_ok] at h
  obtain ⟨_, htype, _, -, _, -, _, -, _, hfields, -⟩ := h
  have hgiven : Cli.given t.tokenFile = !blank t.tokenFile := by
    simp only [Cli.given, blank, ne_eq, decide_not]
  have hempty : Cli.given "" = false := rfl
  have hlength : ¬ 1 < args.length := Nat.not_lt.mpr hargs
  have hguard : (blank t.tokenFile = true → t.allowUnauthenticated = true) ↔
      (blank t.tokenFile = false ∨ t.allowUnauthenticated = true) := by
    cases blank t.tokenFile <;> simp
  rw [Cli.validateOptions_ok_iff]
  cases hkind : t.type with
  | forward =>
    rw [checkFields, hkind] at hfields
    simp only [hmode, if_true] at hfields
    obtain ⟨-, hfields⟩ := ite_error_eq_ok.mp hfields
    obtain ⟨host, text, port, hsplit, hatoi, hlow, hhigh⟩ := checkAddress_ok hfields
    have hport : port ≠ 0 := by omega
    have hlow' : ¬ port < 0 := by omega
    simpa [Cli.refusals, Tunnel.listenerOptions, hkind, hsplit, hatoi, Cli.privilegedListenerMode,
      Cli.pairingTokenConfigured, hgiven, hempty, hport, hlow', hhigh, hlength] using hguard
  | socks | pty =>
    simpa [Cli.refusals, Tunnel.listenerOptions, hkind, Cli.privilegedListenerMode,
      Cli.pairingTokenConfigured, hgiven, hempty, hlength] using hguard
  | exec =>
    have hexec : t.exec ≠ "" := by
      intro hblank
      rw [checkFields, hkind] at hfields
      simp only [hblank] at hfields
      cases hfields
    simpa [Cli.refusals, Tunnel.listenerOptions, hkind, Cli.privilegedListenerMode,
      Cli.pairingTokenConfigured, hgiven, hempty, hexec, hlength] using hguard
  | other text =>
    simp only [checkType, hkind] at htype
    split at htype <;> simp_all

/-- Privileged sessions of the daemon are authenticated exactly when every server forward has a
token file or opts out. -/
theorem sessions_authenticated_iff (L : Libraries) {cfgs : List Config}
    (hvalid : ∀ cfg ∈ cfgs, cfg.validate = .ok ()) :
    (∀ es (s : Host L), Run Host.step (Host.Configured cfgs fun _ => True) {} es s →
      s.Authenticated) ↔
    ∀ cfg ∈ cfgs, ∀ t ∈ cfg.tunnels, t.mode = .server → t.type = .forward →
      t.tokenFile ≠ "" ∨ t.allowUnauthenticated = true := by
  constructor
  · intro h cfg hcfg t ht hmode _
    by_contra hopen
    rw [not_or, not_not] at hopen
    let env : Environment := ⟨zeroTime, .ok, fun _ => ⟨.ok (), .ok true, .ok (), .ok []⟩, .ok (),
      .ok ()⟩
    let handler : Handler L := ⟨t, none, env, if_pos hopen.1⟩
    let x : Incoming := ⟨.ok [], zeroTime, .error "", .ok ()⟩
    have hsession : ∃ es s, Run Host.step (Host.Configured cfgs fun _ => True) {} es s ∧
        .session handler x (runServerSession t) ∈ s.handled :=
      Host.exists_session handler trivial ⟨cfg, hcfg, ht⟩ hmode rfl x fun _ htoken => nomatch htoken
    obtain ⟨es, s, hrun, hmem⟩ := hsession
    rcases h es s hrun handler x _ hmem with ⟨token, htoken, -⟩ | hallow
    · cases htoken
    · exact hopen.2 hallow
  · intro hforward es s hrun handler x call hmem
    have hserves : Host.Serves (fun handler : Handler L => handler.tunnel.tokenFile ≠ "" ∨
        handler.tunnel.allowUnauthenticated = true) s := by
      refine Host.Serves.run ?_ hrun
      rintro _ env t ⟨-, cfg, hcfg, ht⟩ hmode - token hload
      by_cases htype : t.type = .forward
      · exact hforward cfg hcfg t ht hmode htype
      · exact guarded_of_validate ((Config.validate_ok (hvalid cfg hcfg)).2.2 t ht) hmode htype
    obtain ⟨hfile | hallow, hadmitted⟩ := hserves.sessions handler x call hmem
    · cases htoken : handler.token with
      | none => exact absurd (tokenFile_of_loaded_none (htoken ▸ handler.loaded)) hfile
      | some token => exact .inl ⟨token, rfl, hadmitted token htoken⟩
    · exact .inr hallow

section Example

def plainEnvironment (data : List Char) : Environment where
  now := unix 1800000000
  resolvePath := .ok
  file := fun _ => ⟨.ok (), .ok true, .ok (), .ok data⟩
  acquire := .ok ()
  client := .ok ()

def databaseTunnel (tokenFile : String) : Tunnel :=
  { name := "db", type := .forward, mode := .server, logicalPort := 5432, protocol := .tcp,
    target := "127.0.0.1:5432", tokenFile := tokenFile }

theorem listener_accepted_iff_example :
    Cli.validateOptions (databaseTunnel "tokens/db").listenerOptions "" [] = .ok () :=
  (listener_accepted_iff rfl rfl (by decide)).mpr (.inl (by decide))

theorem sessions_authenticated_iff_example :
    Config.validate { tunnels := [databaseTunnel "tokens/db"] } = .ok () ∧
    ∀ es (s : Host plainLibraries),
      Run Host.step (Host.Configured [{ tunnels := [databaseTunnel "tokens/db"] }] fun _ => True)
        {} es s → s.Authenticated := by
  have hvalid : Config.validate { tunnels := [databaseTunnel "tokens/db"] } = .ok () := rfl
  refine ⟨hvalid, (sessions_authenticated_iff plainLibraries ?_).mpr ?_⟩
  · intro cfg hcfg
    rw [mem_singleton.mp hcfg]
    exact hvalid
  · intro cfg hcfg t ht _ _
    rw [mem_singleton.mp hcfg] at ht
    rw [mem_singleton.mp ht]
    exact .inl (by decide)

/-- The daemon serves a forward without a token to anybody; the command line refuses to start the
same listener. -/
theorem open_forward_served : ∃ cfg : Config, cfg.validate = .ok () ∧
    (∃ es s, Run Host.step (Host.Configured [cfg] fun _ => True) ({} : Host plainLibraries) es s ∧
      ¬ s.Authenticated) ∧
    ∀ t ∈ cfg.tunnels, Cli.validateOptions t.listenerOptions "" [] = .error
      "privileged listener modes require a pairing token; use --allow-unauthenticated-listener only if public access is intended" := by
  refine ⟨{ tunnels := [databaseTunnel ""] }, rfl, ?_, ?_⟩
  · let handler : Handler plainLibraries :=
      ⟨databaseTunnel "", none, plainEnvironment [], rfl⟩
    have hsession : ∃ es s, Run Host.step
        (Host.Configured [{ tunnels := [databaseTunnel ""] }] fun _ => True) {} es s ∧
        .session handler ⟨.ok [], unix 1800000000, .error "", .ok ()⟩
          (runServerSession (databaseTunnel "")) ∈ s.handled :=
      Host.exists_session handler trivial ⟨_, mem_cons_self, mem_cons_self⟩ rfl rfl _
        fun _ htoken => nomatch htoken
    obtain ⟨es, s, hrun, hmem⟩ := hsession
    refine ⟨es, s, hrun, ?_⟩
    intro hauthenticated
    rcases hauthenticated _ _ _ hmem with ⟨token, htoken, -⟩ | hallow
    · cases htoken
    · cases hallow
  · intro t ht
    rw [mem_singleton.mp ht]
    rfl

end Example

theorem sound_of_stored
    (h : storedToken L env t = .ok token) : token.Sound := by
  simp only [storedToken, bind_eq_ok] at h
  obtain ⟨_, -, _, -, other, -, _, hvalid, heq⟩ := h
  cases heq
  exact (Token.validate_ok_iff.mp hvalid).1

/-- Sessions of the daemon keep to the scope of their tokens exactly when no token file that a
server tunnel is started with holds a token of another peer or another service. -/
theorem tokens_scoped_iff (node : PeerID) (cfgs : List Config) (seen : Environment → Prop) :
    (∀ es (s : Host L), Run Host.step (Host.Configured cfgs seen) {} es s → s.Scoped node) ↔
    ∀ cfg ∈ cfgs, ∀ t ∈ cfg.tunnels, t.mode = .server → t.tokenFile ≠ "" →
      ∀ env, seen env → env.acquire = .ok () → ∀ token, storedToken L env t = .ok token →
        token.peerID = node ∧ token.service = t.logicalPort := by
  constructor
  · intro h cfg hcfg t ht hmode hfile env hseen hacquire token htoken
    obtain ⟨x, hx⟩ := exists_admitted (sound_of_stored htoken)
    obtain ⟨es, s, hrun, hmem⟩ := Host.exists_session
      ⟨t, some token, env, loaded_some_iff.mpr ⟨hfile, htoken⟩⟩ hseen ⟨cfg, hcfg, ht⟩ hmode
      hacquire x fun other hother => Option.some.inj hother ▸ hx
    exact h es s hrun _ x _ hmem token rfl
  · intro hscope es s hrun handler x call hmem
    have hserves : Host.Serves (fun handler : Handler L => ∀ token, handler.token = some token →
        token.peerID = node ∧ token.service = handler.tunnel.logicalPort) s := by
      refine Host.Serves.run ?_ hrun
      rintro _ env t ⟨hseen, cfg, hcfg, ht⟩ hmode hacquire _ hload token rfl
      obtain ⟨hfile, hstored⟩ := loaded_some_iff.mp hload
      exact hscope cfg hcfg t ht hmode hfile env hseen hacquire token hstored
    exact (hserves.sessions handler x call hmem).1

section Example

theorem readTokenFile_plain (data : List Char) (h : (Utf8.encode data).length ≤ maxTokenText) :
    readTokenFile ⟨.ok (), .ok true, .ok (), .ok data⟩ = .ok data := by
  simp only [readTokenFile, orError, bind, Except.bind, Bool.true_eq_false, if_false,
    if_neg (Nat.not_lt.mpr h)]

def shellTunnel : Tunnel :=
  { name := "shell", type := .pty, mode := .server, logicalPort := 2222,
    tokenFile := "tokens/web" }

theorem foreign_token_admits : ∃ (cfg : Config) (token : Token plainLibraries),
    cfg.validate = .ok () ∧ token.service ≠ shellTunnel.logicalPort ∧
    ∃ es s, Run Host.step (Host.Configured [cfg] fun _ => True) {} es s ∧
      (∃ handler x, .session handler x (.ok .ptyServer) ∈ s.handled ∧
        handler.tunnel = shellTunnel ∧ handler.token = some token ∧
        authenticateServer token x = .ok ()) ∧ ¬ s.Scoped token.peerID := by
  let token := Token.forRelays []
  let text := tokenPrefix ++ Base64Url.encode token.payload
  let env := plainEnvironment text
  have hvalid : token.validate env.now = .ok () := by decide
  have hsound := (Token.validate_ok_iff.mp hvalid).1
  have hfits : token.Fits := ⟨by decide, fun hint hhint => nomatch hhint⟩
  have hread : readTokenFile (env.file "tokens/web") = .ok text :=
    readTokenFile_plain text (by decide +kernel)
  have hdecode : decode plainLibraries (trimSpace text) = .ok token := by
    rw [trimSpace_tokenText]
    exact hsound.decode_encode plainLibraries_lawful hfits
  have hstored : storedToken plainLibraries env shellTunnel = .ok token := by
    refine bind_eq_ok.mpr ⟨"tokens/web", rfl, bind_eq_ok.mpr ⟨text, hread, ?_⟩⟩
    rw [hdecode]
    exact bind_eq_ok.mpr ⟨token, rfl, bind_eq_ok.mpr ⟨(), hvalid, rfl⟩⟩
  have hservice : token.service ≠ shellTunnel.logicalPort := by decide
  obtain ⟨x, hx⟩ := exists_admitted hsound
  let handler : Handler plainLibraries :=
    ⟨shellTunnel, some token, env, loaded_some_iff.mpr ⟨by decide, hstored⟩⟩
  have hsession : ∃ es s, Run Host.step
      (Host.Configured [{ tunnels := [shellTunnel] }] fun _ => True) {} es s ∧
      .session handler x (.ok .ptyServer) ∈ s.handled :=
    Host.exists_session handler trivial ⟨_, mem_cons_self, mem_cons_self⟩ rfl rfl x
      fun other hother => Option.some.inj hother ▸ hx
  obtain ⟨es, s, hrun, hmem⟩ := hsession
  refine ⟨{ tunnels := [shellTunnel] }, token, rfl, hservice, es, s, hrun,
    ⟨handler, x, hmem, rfl, rfl, hx⟩, ?_⟩
  intro hscoped
  exact hservice (hscoped handler x _ hmem token rfl).2

end Example

end P2PNetcat.Tunnels
