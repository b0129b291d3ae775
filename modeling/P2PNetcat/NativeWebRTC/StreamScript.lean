import P2PNetcat.Library.ByteCodec
import P2PNetcat.Library.StepSystem

/-!
# The stream in JavaScript

`WebRtcStream` hands the chunks it is given to `sendData` one after the other, over a link to one
peer after another. An event is a turn of one of its callbacks, up to the next `await`.
-/

namespace P2PNetcat.NativeWebRTC
open ByteCodec StepSystem

inductive WriteStatus where
  | writable
  | closing
  | closed
  deriving DecidableEq

inductive ConnectionStatus where
  | connected
  | reconnecting
  | disconnected
  deriving DecidableEq

/-- Where the callback of the first chunk in `#pending` is; `second` is the later one of its two
calls of `#waitForPeer`. -/
inductive SendPoint where
  | waitForPeer (second : Bool)
  | peerWaiter (second : Bool)
  | peerWoken (second : Bool)
  | waitForFlowWindow
  | flowWaiter
  | sendData
  | sending (peer : Nat)
  deriving DecidableEq

/-- How far `claimPeer` is with the peer that it has put on the link. -/
inductive ClaimPoint where
  | claimed
  | reconnected
  | authenticated
  deriving DecidableEq

structure ScriptLink where
  peer : Nat
  isClosed : Bool := false
  claim : ClaimPoint := .claimed

/-- Where the call of `close` is that found the stream writable. -/
inductive ClosePoint where
  | uncalled
  | pending
  | sendingEof
  | resolved
  | rejected
  deriving DecidableEq

/-- `queue` are the chunks in `#pending`, which `failed` says is rejected; `offered` and `sent` are
those that `send` was given and that `sendData` took. `ending` says that the connection, whose link
it is, is being closed. -/
structure ScriptStream where
  closed : Bool := false
  writeStatus : WriteStatus := .writable
  connectionStatus : ConnectionStatus := .connected
  readClosed : Bool := false
  flowEnabled : Bool := false
  inFlightBytes : Int := 0
  link : Option ScriptLink := some { peer := 0, claim := .reconnected }
  ending : Bool := false
  queue : List Bytes := []
  point : SendPoint := .waitForPeer false
  failed : Bool := false
  close : ClosePoint := .uncalled
  offered : List Bytes := []
  sent : List Bytes := []

structure StreamOptions where
  flowWindowBytes : Nat
  reconnectGraceMs : Nat

inductive ScriptStreamEvent where
  | send (bytes : Bytes)
  | turn
  | sent
  | rejected
  | flow
  | ack (acknowledged : Nat)
  | resume
  | eof
  | abort
  | claim (peer : Nat)
  | reconnected
  | authenticated
  | lost
  | left
  | shutdown
  | ended
  | close
  | closeTurn
  | eofSent
  | eofRejected

/-- What happens to the stream of an owner. That of an endpoint has the events of its link; that of
`createWebRtcActionHub` has none of them, but those of the room and the end of the hub. -/
inductive OwnerEvent where
  | stream (e : ScriptStreamEvent)
  | onPeerJoin
  | onPeerLeave
  | closeHub

def webRtcReconnectGraceMs : Nat := 120000

def SendPoint.waits : SendPoint → Bool
  | .peerWaiter _ | .flowWaiter => true
  | _ => false

namespace ScriptStream

/-- The chain is rejected, and with it every chunk in it. -/
def fail (s : ScriptStream) : ScriptStream :=
  { s with failed := true, queue := [], point := .waitForPeer false }

/-- `#wakeFlowWaiters` and `#wakePeerWaiters` with an error. -/
def rejectWaiters (s : ScriptStream) : ScriptStream := if s.point.waits then s.fail else s

def wakeFlowWaiters (s : ScriptStream) : ScriptStream :=
  { s with point := if s.point = .flowWaiter then .waitForFlowWindow else s.point }

def wakePeerWaiters (s : ScriptStream) : ScriptStream :=
  { s with point := match s.point with
      | .peerWaiter second => .peerWoken second
      | point => point }

def maybeFinalize (s : ScriptStream) : ScriptStream :=
  if s.readClosed ∧ s.writeStatus = .closed then { s with closed := true }.rejectWaiters else s

def abort (s : ScriptStream) : ScriptStream :=
  { s with closed := true, writeStatus := .closed, readClosed := true }.rejectWaiters

def peerLeft (s : ScriptStream) : ScriptStream :=
  if s.closed then s else { s with connectionStatus := .disconnected }.abort

def peerDisconnected (s : ScriptStream) (graceMs : Nat) : ScriptStream :=
  if s.closed ∨ s.connectionStatus = .reconnecting then s
  else if graceMs = 0 then s.peerLeft
  else { s with connectionStatus := .reconnecting }

def peerReconnected (s : ScriptStream) : ScriptStream :=
  if s.closed ∨ s.connectionStatus ≠ .reconnecting then s
  else { s with connectionStatus := .connected, inFlightBytes := 0 }.wakeFlowWaiters.wakePeerWaiters

/-- The peer that `sendThroughLink` takes, or none where it throws. -/
def openPeer (s : ScriptStream) : Option Nat :=
  match s.link with
  | some ⟨peer, false, _⟩ => some peer
  | _ => none

/-- The `catch` of `send`. -/
def catchSend (s : ScriptStream) (bytes : Bytes) : ScriptStream :=
  let s := { s with
    inFlightBytes := if s.flowEnabled then s.inFlightBytes - bytes.length else s.inFlightBytes }
  if s.closed ∨ s.writeStatus = .closed then s.fail
  else { s.peerDisconnected webRtcReconnectGraceMs with point := .waitForPeer false }

def afterPeer (s : ScriptStream) (second : Bool) : ScriptStream :=
  { s with point := if second then .sendData else .waitForFlowWindow }

def windowFull (s : ScriptStream) (options : StreamOptions) (bytes : Bytes) : Bool :=
  s.flowEnabled ∧ ¬ s.closed ∧ s.writeStatus ≠ .closed ∧ 0 < s.inFlightBytes ∧
    options.flowWindowBytes < s.inFlightBytes + bytes.length

/-- A turn of the callback of a chunk; none where it waits for something. -/
def turn (s : ScriptStream) (options : StreamOptions) (bytes : Bytes) : Option ScriptStream :=
  match s.point with
  | .waitForPeer second =>
    if s.connectionStatus = .connected then some (s.afterPeer second)
    else if s.closed ∨ s.connectionStatus = .disconnected then some s.fail
    else some { s with point := .peerWaiter second }
  | .peerWoken second =>
    if s.closed ∨ s.connectionStatus ≠ .connected then some s.fail else some (s.afterPeer second)
  | .waitForFlowWindow =>
    if s.windowFull options bytes then some { s with point := .flowWaiter }
    else if s.closed ∨ s.writeStatus = .closed then some s.fail
    else some { s with point := .waitForPeer true }
  | .sendData =>
    if s.writeStatus = .closed then some s.fail
    else
      let s := { s with
        inFlightBytes := if s.flowEnabled then s.inFlightBytes + bytes.length else s.inFlightBytes }
      match s.openPeer with
      | some peer => some { s with point := .sending peer }
      | none => some (s.catchSend bytes)
  | _ => none

def closeTurn (s : ScriptStream) : Option ScriptStream :=
  if s.close ≠ .pending then none
  else if s.failed then some { s with close := .rejected }
  else if s.queue ≠ [] then none
  else some { s with close := if s.openPeer.isSome then .sendingEof else .rejected }

def step (options : StreamOptions) (s : ScriptStream) : ScriptStreamEvent → Option ScriptStream
  | .send bytes =>
    if s.writeStatus = .writable then some { s with
      offered := s.offered ++ [bytes]
      queue := if s.failed then s.queue else s.queue ++ [bytes] }
    else none
  | .turn =>
    match s.queue with
    | bytes :: _ => s.turn options bytes
    | [] => none
  | .sent =>
    match s.queue, s.point with
    | bytes :: queue, .sending _ =>
      some { s with sent := s.sent ++ [bytes], queue, point := .waitForPeer false }
    | _, _ => none
  | .rejected =>
    match s.queue, s.point with
    | bytes :: _, .sending _ => some (s.catchSend bytes)
    | _, _ => none
  | .flow => some { s with flowEnabled := true }
  | .ack acknowledged =>
    if 0 < acknowledged then
      some { s with inFlightBytes := max 0 (s.inFlightBytes - acknowledged) }.wakeFlowWaiters
    else none
  | .resume => some { s with inFlightBytes := 0 }.wakeFlowWaiters
  | .eof => some { s with readClosed := true }.maybeFinalize
  | .abort => some s.abort
  | .claim peer =>
    if ¬ s.ending ∧ s.link.isNone then some { s with link := some { peer } } else none
  | .reconnected =>
    match s.link with
    | some ⟨peer, isClosed, .claimed⟩ =>
      some { s with link := some ⟨peer, isClosed, .reconnected⟩ }.peerReconnected
    | _ => none
  | .authenticated =>
    match s.link with
    | some ⟨peer, isClosed, .reconnected⟩ =>
      some { s with link := some ⟨peer, isClosed, .authenticated⟩ }
    | _ => none
  | .lost =>
    match s.link with
    | some ⟨peer, false, claim⟩ =>
      if claim = .authenticated ∧ ¬ s.ending ∧ ¬ s.closed then
        some ({ s with link := none }.peerDisconnected options.reconnectGraceMs)
      else some { s with link := some ⟨peer, true, claim⟩ }
    | _ => none
  | .left => if s.connectionStatus = .reconnecting then some s.peerLeft else none
  | .shutdown => some { s with ending := true }
  | .ended => if s.ending then some { s with link := none }.peerLeft else none
  | .close =>
    if s.writeStatus = .writable then some { s with writeStatus := .closing, close := .pending }
    else none
  | .closeTurn => s.closeTurn
  | .eofSent =>
    if s.close = .sendingEof then
      some { s with close := .resolved, writeStatus := .closed }.maybeFinalize
    else none
  | .eofRejected => if s.close = .sendingEof then some { s with close := .rejected } else none

def ownerStep (options : StreamOptions) (s : ScriptStream) : OwnerEvent → Option ScriptStream
  | .stream e => s.step options e
  | .onPeerJoin => some s.peerReconnected
  | .onPeerLeave => some (s.peerDisconnected options.reconnectGraceMs)
  | .closeHub => some s.peerLeft

variable {options : StreamOptions} {s t : ScriptStream} {e : ScriptStreamEvent}
  {es : List ScriptStreamEvent} {bytes : Bytes}

attribute [local grind] step turn closeTurn fail rejectWaiters wakeFlowWaiters wakePeerWaiters
  maybeFinalize abort peerLeft peerDisconnected peerReconnected afterPeer openPeer SendPoint.waits

def healthy (s : ScriptStream) : Bool :=
  match s.link with
  | some ⟨_, false, claim⟩ => claim ≠ .claimed
  | _ => false

theorem catchSend_eq (s : ScriptStream) (bytes : Bytes) :
    s.catchSend bytes =
      let s := { s with
        inFlightBytes := if s.flowEnabled then s.inFlightBytes - bytes.length else s.inFlightBytes }
      if s.closed ∨ s.writeStatus = .closed then s.fail
      else { s with connectionStatus := .reconnecting, point := .waitForPeer false } := by
  grind [catchSend, webRtcReconnectGraceMs]

attribute [local grind =] catchSend_eq

/-- What a rejected `sendData` takes off was counted, and is still. -/
def countsRejected (s : ScriptStream) : ScriptStreamEvent → Bool
  | .rejected => s.queue.head?.all fun bytes =>
      !s.flowEnabled || (bytes.length : Int) ≤ s.inFlightBytes
  | _ => true

theorem inFlight_nonneg_step (h : 0 ≤ s.inFlightBytes) (hok : s.countsRejected e)
    (hstep : s.step options e = some t) : 0 ≤ t.inFlightBytes := by
  cases e <;> grind [countsRejected]

/-- The events that bring a first chunk to `sendData`. -/
def handOver : List ScriptStreamEvent := [.send [1], .turn, .turn, .turn, .turn]

def plainOptions : StreamOptions := ⟨262144, 120000⟩

/-- Nothing changes what is counted while `sendData` is pending. -/
def keepsCount (s : ScriptStream) : ScriptStreamEvent → Bool
  | .flow | .ack _ | .resume | .reconnected =>
    match s.point with
    | .sending _ => false
    | _ => true
  | _ => true

structure Counted (s : ScriptStream) : Prop where
  inFlight : 0 ≤ s.inFlightBytes
  pending : ∀ peer, s.point = .sending peer → s.flowEnabled = true → ∃ bytes queue,
    s.queue = bytes :: queue ∧ bytes.length ≤ s.inFlightBytes

theorem Counted.step (h : Counted s) (hok : s.keepsCount e) (hstep : s.step options e = some t) :
    Counted t := by
  have ⟨hinFlight, hpending⟩ := h
  refine ⟨inFlight_nonneg_step hinFlight ?_ hstep, ?_⟩
  · cases e <;> grind [countsRejected]
  · cases e <;> grind [keepsCount]

theorem inFlight_nonneg_of_keepsCount
    (hrun : Run (step options) (fun s e => s.keepsCount e) {} es s) : 0 ≤ s.inFlightBytes :=
  (hrun.invariant Counted.step ⟨Int.le_refl 0, nofun⟩).inFlight

/-- The first chunk has passed `#waitForFlowWindow` and is not counted yet. -/
def passed (s : ScriptStream) : Bool :=
  match s.point with
  | .waitForPeer second | .peerWaiter second | .peerWoken second => second
  | .sendData => true
  | _ => false

def sendsAtMost (limit : Nat) : ScriptStreamEvent → Bool
  | .send bytes => bytes.length ≤ limit
  | _ => true

structure InWindow (limit : Nat) (s : ScriptStream) : Prop where
  inFlight : s.inFlightBytes ≤ limit
  uncounted : s.flowEnabled = false → s.inFlightBytes ≤ 0
  chunks : ∀ bytes ∈ s.queue, bytes.length ≤ limit
  head : s.passed → ∃ bytes queue, s.queue = bytes :: queue ∧
    s.inFlightBytes + bytes.length ≤ limit

theorem inWindow_step {limit : Nat} (hwindow : options.flowWindowBytes ≤ limit)
    (h : s.InWindow limit) (hsend : sendsAtMost limit e) (hstep : s.step options e = some t) :
    t.InWindow limit := by
  obtain ⟨hinFlight, huncounted, hchunks, hhead⟩ := h
  cases e
  case lost =>
    simp only [step, peerDisconnected, peerLeft, abort] at hstep
    constructor <;> grind -ring -linarith [passed]
  all_goals constructor <;> grind -ring -linarith [passed, windowFull, sendsAtMost]

theorem inFlight_le_limit {limit : Nat} (hwindow : options.flowWindowBytes ≤ limit)
    (hrun : Run (step options) (fun _ e => sendsAtMost limit e) {} es s) :
    s.inFlightBytes ≤ limit :=
  (hrun.invariant (inWindow_step hwindow) ⟨by simp, by simp, by simp, by simp [passed]⟩).inFlight

/-- A full window, and a chunk that waits for an acknowledgement. -/
theorem inFlight_le_limit_handOver : ∃ s,
    Run (step ⟨1, 120000⟩) (fun _ e => sendsAtMost 1 e) {}
      (.flow :: handOver ++ [.sent, .send [2], .turn, .turn]) s ∧
      s.inFlightBytes ≤ (1 : Nat) ∧ s.inFlightBytes = 1 ∧ s.point = .flowWaiter := by
  have hrun := run_exec (step ⟨1, 120000⟩) (fun _ e => sendsAtMost 1 e) {}
    (.flow :: handOver ++ [.sent, .send [2], .turn, .turn]) (by decide +kernel)
  exact ⟨_, hrun, inFlight_le_limit (Nat.le_refl 1) hrun, by decide +kernel⟩

/-- `sendData` is rejected while no healthy peer is on the link, and a peer is authenticated only
while the stream is open. -/
def rejectsUnlinked (s : ScriptStream) : ScriptStreamEvent → Bool
  | .rejected => !s.healthy || s.closed || s.writeStatus = .closed
  | .reconnected => !s.closed
  | _ => true

theorem reconnecting_unlinked_step (h : s.connectionStatus = .reconnecting → s.healthy = false)
    (hok : s.rejectsUnlinked e) (hstep : s.step options e = some t) :
    t.connectionStatus = .reconnecting → t.healthy = false := by
  cases e <;> grind [healthy, rejectsUnlinked]

theorem reconnecting_unlinked
    (hrun : Run (step options) (fun s e => s.rejectsUnlinked e) {} es s) :
    s.connectionStatus = .reconnecting → s.healthy = false :=
  hrun.invariant (I := fun s => s.connectionStatus = .reconnecting → s.healthy = false)
    reconnecting_unlinked_step (fun h => absurd h (by decide))

def reconnect : List ScriptStreamEvent := [.claim 1, .reconnected, .authenticated]

theorem reconnecting_unlinked_lost : ∃ s,
    Run (step plainOptions) (fun s e => s.rejectsUnlinked e) {}
      (handOver ++ [.authenticated, .lost, .rejected]) s ∧
      s.connectionStatus = .reconnecting ∧ s.healthy = false := by
  have hrun := run_exec (step plainOptions) (fun s e => s.rejectsUnlinked e) {}
    (handOver ++ [.authenticated, .lost, .rejected]) (by decide +kernel)
  exact ⟨_, hrun, by decide +kernel, reconnecting_unlinked hrun (by decide +kernel)⟩

/-- The rejection of a chunk that was sent on the lost peer comes when the next one is there. -/
theorem stale_rejection_disconnects :
    ∃ s, Run (step plainOptions) Any {}
      (handOver ++ [.authenticated, .lost] ++ reconnect ++ [.rejected]) s ∧
      s.connectionStatus = .reconnecting ∧ s.healthy = true :=
  ⟨_, run_exec (step plainOptions) Any {} _ (by decide +kernel), by decide +kernel,
    by decide +kernel⟩

/-- Whoever waited for the peer goes on before the peer is lost again. -/
def wokenFirst (s : ScriptStream) : OwnerEvent → Bool
  | .onPeerLeave | .stream .lost =>
    match s.point with
    | .peerWoken _ => false
    | _ => true
  | _ => true

/-- A call of `close` is rejected only after the end of the stream. -/
def closesLinked (s : ScriptStream) : ScriptStreamEvent → Bool
  | .closeTurn => s.closed || (!s.failed && s.openPeer.isSome)
  | .eofRejected => s.closed
  | _ => true

structure Ordered (s : ScriptStream) : Prop where
  kept : s.failed = false → s.offered = s.sent ++ s.queue
  dropped : s.failed = true → s.queue = [] ∧ s.sent <+: s.offered

theorem Ordered.peerLeft (h : Ordered s) : Ordered s.peerLeft := by
  cases h
  constructor <;> grind

theorem Ordered.peerDisconnected (h : Ordered s) (graceMs : Nat) :
    Ordered (s.peerDisconnected graceMs) := by
  rw [ScriptStream.peerDisconnected]
  split_ifs
  · exact h
  · exact h.peerLeft
  · exact ⟨h.kept, h.dropped⟩

theorem Ordered.peerReconnected (h : Ordered s) : Ordered s.peerReconnected := by
  rw [ScriptStream.peerReconnected]
  split
  · exact h
  · exact ⟨h.kept, h.dropped⟩

theorem Ordered.step (h : Ordered s) (hstep : s.step options e = some t) : Ordered t := by
  obtain ⟨hkept, hdropped⟩ := h
  cases e with
  | send | sent =>
    -- a chunk joins the queue at its end, or leaves it in front
    constructor <;> grind
  | turn | rejected =>
    -- the callback of the first chunk goes on, or rejects the chain
    constructor <;> grind
  | left | ended =>
    obtain ⟨-, rfl⟩ := guard_eq_some.mp hstep
    exact peerLeft ⟨hkept, hdropped⟩
  | eof | abort | eofSent => constructor <;> grind
  | flow | resume | shutdown =>
    cases hstep
    exact ⟨hkept, hdropped⟩
  | ack | claim | close | eofRejected =>
    obtain ⟨-, rfl⟩ := guard_eq_some.mp hstep
    exact ⟨hkept, hdropped⟩
  | reconnected | authenticated | lost | closeTurn => constructor <;> grind

/-- The first chunk waits for nothing but a reconnect or an acknowledgement. -/
structure Waiting (s : ScriptStream) : Prop where
  peerWaiter : ∀ second, s.point = .peerWaiter second → s.connectionStatus ≠ .connected
  flowWaiter : s.point = .flowWaiter → 0 < s.inFlightBytes
  disconnected : s.connectionStatus = .disconnected → s.closed = true
  written : s.writeStatus = .closed → s.closed = true ∨ s.queue = []
  pending : s.close = .pending → s.writeStatus ≠ .writable
  eof : s.close = .sendingEof → s.queue = [] ∧ s.writeStatus ≠ .writable

theorem Waiting.peerLeft (h : Waiting s) : Waiting s.peerLeft := by
  cases h
  constructor <;> grind

theorem Waiting.peerDisconnected (h : Waiting s) (graceMs : Nat) :
    Waiting (s.peerDisconnected graceMs) := by
  rw [ScriptStream.peerDisconnected]
  split_ifs
  · exact h
  · exact h.peerLeft
  · exact ⟨nofun, h.flowWaiter, nofun, h.written, h.pending, h.eof⟩

theorem Waiting.peerReconnected (h : Waiting s) : Waiting s.peerReconnected := by
  cases h
  constructor <;> grind

theorem Waiting.step (h : Waiting s) (hstep : s.step options e = some t) : Waiting t := by
  obtain ⟨hpeer, hflow, hdisconnected, hwritten, hpending, heof⟩ := h
  cases e with
  | turn | rejected => constructor <;> grind [windowFull]
  | left | ended =>
    obtain ⟨-, rfl⟩ := guard_eq_some.mp hstep
    exact peerLeft ⟨hpeer, hflow, hdisconnected, hwritten, hpending, heof⟩
  | flow | shutdown =>
    cases hstep
    exact ⟨hpeer, hflow, hdisconnected, hwritten, hpending, heof⟩
  | _ => constructor <;> grind

theorem waiting_initial : Waiting {} := by
  constructor <;> simp

theorem waiting_of_run {ok : ScriptStream → ScriptStreamEvent → Prop}
    (hrun : Run (step options) ok {} es s) : Waiting s :=
  hrun.invariant (fun h _ hstep => h.step hstep) waiting_initial

/-- Nothing is dropped while the stream is open. -/
structure Carried (s : ScriptStream) : Prop where
  ordered : Ordered s
  waiting : Waiting s
  failed : s.failed = true → s.closed = true
  woken : ∀ second, s.point = .peerWoken second → s.closed = true ∨ s.connectionStatus = .connected

theorem Carried.failed_step (h : Carried s) (hstep : s.step options e = some t) :
    t.failed = true → t.closed = true := by
  obtain ⟨-, ⟨-, -, hdisconnected, hwritten, -, -⟩, hfailed, hwoken⟩ := h
  cases e <;> grind -ring -linarith

theorem Carried.woken_step (h : Carried s) (hok : s.wokenFirst (.stream e))
    (hstep : s.step options e = some t) : ∀ second, t.point = .peerWoken second →
      t.closed = true ∨ t.connectionStatus = .connected := by
  have hwoken := h.woken
  cases e <;> grind -ring -linarith [wokenFirst]

theorem Carried.ownerStep {e : OwnerEvent} (h : Carried s) (hok : s.wokenFirst e)
    (hstep : s.ownerStep options e = some t) : Carried t := by
  cases e with
  | stream e =>
    exact ⟨h.ordered.step hstep, h.waiting.step hstep, h.failed_step hstep, h.woken_step hok hstep⟩
  | onPeerJoin =>
    cases hstep
    refine ⟨h.ordered.peerReconnected, h.waiting.peerReconnected, ?_, ?_⟩
    all_goals grind [h.failed, h.woken]
  | onPeerLeave =>
    cases hstep
    refine ⟨h.ordered.peerDisconnected _, h.waiting.peerDisconnected _, ?_, ?_⟩
    all_goals grind [h.failed, wokenFirst]
  | closeHub =>
    cases hstep
    refine ⟨h.ordered.peerLeft, h.waiting.peerLeft, ?_, ?_⟩
    all_goals grind [h.failed, h.woken]

theorem carried_of_run {es : List OwnerEvent}
    (hrun : Run (ownerStep options) (fun s e => s.wokenFirst e) {} es s) : Carried s :=
  hrun.invariant Carried.ownerStep
    ⟨⟨fun _ => rfl, nofun⟩, waiting_initial, nofun, nofun⟩

structure Ready (s : ScriptStream) : Prop where
  opened : s.closed = false
  kept : s.failed = false
  connected : s.connectionStatus = .connected
  linked : s.openPeer.isSome
  waiting : Waiting s

def rank : SendPoint → Nat
  | .waitForPeer second | .peerWoken second => if second then 3 else 7
  | .flowWaiter => 6
  | .waitForFlowWindow => 4
  | .sendData => 2
  | .peerWaiter _ | .sending _ => 0

def work (s : ScriptStream) : Nat :=
  8 * s.queue.length + rank s.point + if 0 < s.inFlightBytes then 1 else 0

theorem Ready.keep (h : Ready s) (hstep : s.step options e = some t)
    (hstatus : (t.closed, t.failed, t.connectionStatus, t.link) =
      (s.closed, s.failed, s.connectionStatus, s.link)) : Ready t := by
  obtain ⟨hopened, hkept, hconnected, hlinked, hwaiting⟩ := h
  simp only [Prod.mk.injEq] at hstatus
  obtain ⟨hclosed, hfailed, hconnection, hlink⟩ := hstatus
  refine ⟨hclosed.trans hopened, hfailed.trans hkept, hconnection.trans hconnected, ?_,
    hwaiting.step hstep⟩
  rwa [openPeer, hlink]

theorem Ready.advances (h : Ready s) (hqueue : s.queue ≠ []) :
    ∃ e t, (s.wokenFirst (.stream e) ∧ s.closesLinked e) ∧ s.step options e = some t ∧
      (Ready t ∧ t.offered = s.offered ∧ t.close = s.close) ∧ t.work < s.work := by
  obtain ⟨bytes, queue, hbytes⟩ := List.exists_cons_of_ne_nil hqueue
  have ⟨hopened, hkept, hconnected, hlinked, hwaiting⟩ := h
  have hwritten : s.writeStatus ≠ .closed := by grind [hwaiting.written]
  -- an acknowledgement of all bytes in flight opens the window
  have hack (hflow : 0 < s.inFlightBytes)
      (hpoint : s.point = .waitForFlowWindow ∨ s.point = .flowWaiter) :
      ∃ t, s.step options (.ack s.inFlightBytes.toNat) = some t ∧
        (Ready t ∧ t.offered = s.offered ∧ t.close = s.close) ∧ t.work < s.work := by
    have hstep : s.step options (.ack s.inFlightBytes.toNat) =
        some { s with inFlightBytes := 0 }.wakeFlowWaiters := by
      grind
    refine ⟨_, hstep, ⟨h.keep hstep rfl, rfl, rfl⟩, ?_⟩
    grind [work, rank]
  cases hpoint : s.point with
  | waitForPeer second | peerWoken second =>
    have hstep : s.step options .turn = some (s.afterPeer second) := by grind
    refine ⟨.turn, _, ⟨rfl, rfl⟩, hstep, ⟨h.keep hstep rfl, rfl, rfl⟩, ?_⟩
    grind [work, rank]
  | peerWaiter second => exact absurd hconnected (hwaiting.peerWaiter second hpoint)
  | waitForFlowWindow =>
    by_cases hflow : 0 < s.inFlightBytes
    · obtain ⟨t, ht⟩ := hack hflow (.inl hpoint)
      exact ⟨_, t, ⟨rfl, rfl⟩, ht⟩
    · have hstep : s.step options .turn = some { s with point := .waitForPeer true } := by
        grind [windowFull]
      refine ⟨.turn, _, ⟨rfl, rfl⟩, hstep, ⟨h.keep hstep rfl, rfl, rfl⟩, ?_⟩
      grind [work, rank]
  | flowWaiter =>
    obtain ⟨t, ht⟩ := hack (hwaiting.flowWaiter hpoint) (.inr hpoint)
    exact ⟨_, t, ⟨rfl, rfl⟩, ht⟩
  | sendData =>
    obtain ⟨peer, hpeer⟩ := Option.isSome_iff_exists.mp hlinked
    have hstep : s.step options .turn = some { s with
        inFlightBytes := if s.flowEnabled then s.inFlightBytes + bytes.length else s.inFlightBytes
        point := .sending peer } := by
      grind
    refine ⟨.turn, _, ⟨rfl, rfl⟩, hstep, ⟨h.keep hstep rfl, rfl, rfl⟩, ?_⟩
    grind [work, rank]
  | sending peer =>
    have hstep : s.step options .sent = some { s with
        sent := s.sent ++ [bytes], queue, point := .waitForPeer false } := by
      grind
    refine ⟨.sent, _, ⟨rfl, rfl⟩, hstep, ⟨h.keep hstep rfl, rfl, rfl⟩, ?_⟩
    grind [work, rank]

theorem Ready.drains (h : Ready s) (options : StreamOptions) : ∃ fs t,
    Run (step options) (fun s e => s.wokenFirst (.stream e) ∧ s.closesLinked e) s fs t ∧
      (Ready t ∧ t.offered = s.offered ∧ t.close = s.close) ∧ t.queue = [] := by
  refine Run.exists_of_variant work (fun t ht hqueue => ?_) s ⟨h, rfl, rfl⟩
  obtain ⟨e, u, hok, hstep, ⟨hready, hoffered, hclose⟩, hlt⟩ := ht.1.advances hqueue
  exact ⟨e, u, hok, hstep, ⟨hready, hoffered.trans ht.2.1, hclose.trans ht.2.2⟩, hlt⟩

/-- Chunks are handed over in order, each once; while the stream is open none is skipped, and all of
them can be handed over to an open peer. -/
theorem chunks_handed_over {es : List OwnerEvent}
    (hrun : Run (ownerStep options) (fun s e => s.wokenFirst e) {} es s) :
    s.sent <+: s.offered ∧ (s.closed = false → s.offered = s.sent ++ s.queue ∧
      (s.connectionStatus = .connected → s.openPeer.isSome → ∃ fs t,
        Run (ownerStep options) (fun s e => s.wokenFirst e) s fs t ∧ t.closed = false ∧
          t.sent = s.offered)) := by
  have hcarried := carried_of_run hrun
  have hordered := hcarried.ordered
  refine ⟨?_, fun hopened => ?_⟩
  · cases hfailed : s.failed with
    | false => exact ⟨_, (hordered.kept hfailed).symm⟩
    | true => exact (hordered.dropped hfailed).2
  have hfailed : s.failed = false := by grind [hcarried.failed]
  refine ⟨hordered.kept hfailed, fun hconnected hlinked => ?_⟩
  have hready : Ready s := ⟨hopened, hfailed, hconnected, hlinked, hcarried.waiting⟩
  obtain ⟨fs, t, hfs, ⟨hready, hoffered, -⟩, hqueue⟩ := hready.drains options
  have hfs : Run (ownerStep options) (fun s e => s.wokenFirst e) s (fs.map .stream) t :=
    hfs.map OwnerEvent.stream (fun _ _ hok => hok.1) fun _ _ => rfl
  have hsent := (carried_of_run (hrun.append hfs)).ordered.kept hready.kept
  rw [hqueue, List.append_nil, hoffered] at hsent
  exact ⟨_, t, hfs, hready.opened, hsent.symm⟩

def rejoin : List OwnerEvent :=
  [.onPeerLeave, .stream (.send [1]), .stream .turn, .onPeerJoin]

theorem chunks_handed_over_reconnect : ∃ s,
    Run (ownerStep plainOptions) (fun s e => s.wokenFirst e) {}
      (rejoin ++ [.turn, .turn, .turn, .turn, .sent].map .stream) s ∧
      s.sent <+: s.offered ∧ s.sent = [[1]] := by
  have hrun := run_exec (ownerStep plainOptions) (fun s e => s.wokenFirst e) {}
    (rejoin ++ [.turn, .turn, .turn, .turn, .sent].map .stream) (by decide +kernel)
  exact ⟨_, hrun, (chunks_handed_over hrun).1, by decide +kernel⟩

/-- The room takes the peer away again before the chunk that waited for it goes on. -/
theorem woken_chunk_lost : ∃ s,
    Run (ownerStep plainOptions) Any {} (rejoin ++ [.onPeerLeave, .stream .turn]) s ∧
      s.closed = false ∧ s.offered = [[1]] ∧ s.sent = [] ∧ s.queue = [] :=
  ⟨_, run_exec (ownerStep plainOptions) Any {} _ (by decide +kernel), by decide +kernel⟩

def Closing (s : ScriptStream) : Prop :=
  s.closed = false → s.writeStatus = .closing → s.close = .pending ∨ s.close = .sendingEof

theorem Closing.step (h : Closing s) (hok : s.closesLinked e)
    (hstep : s.step options e = some t) : Closing t := by
  rw [Closing] at *
  cases e <;> grind [closesLinked]

theorem Ready.finishes (h : Ready s) (hclose : s.close = .pending ∨ s.close = .sendingEof) :
    ∃ fs t, Run (step options) (fun s e => s.closesLinked e) s fs t ∧ t.close = .resolved := by
  have heof (u : ScriptStream) (hu : u.close = .sendingEof) :
      ∃ v, Run (step options) (fun s e => s.closesLinked e) u [.eofSent] v ∧ v.close = .resolved :=
    ⟨_, .single rfl (if_pos hu), by grind⟩
  obtain ⟨fs, t, hfs, ⟨hready, -, hsame⟩, hqueue⟩ := h.drains options
  have hfs : Run (step options) (fun s e => s.closesLinked e) s fs t :=
    hfs.mono fun _ _ hok => hok.2
  rcases hclose with hpending | hsending
  · have hstep : t.step options .closeTurn = some { t with close := .sendingEof } := by
      grind [hready.kept, hready.linked]
    obtain ⟨v, hv, hresolved⟩ := heof { t with close := .sendingEof } rfl
    refine ⟨_, v, hfs.append (.cons ?_ hstep hv), hresolved⟩
    simp [closesLinked, hready.kept, hready.linked]
  · obtain ⟨v, hv, hresolved⟩ := heof t (hsame.trans hsending)
    exact ⟨_, v, hfs.append hv, hresolved⟩

/-- As long as the stream is open the call goes on, and can send `eof` to an open peer. -/
theorem closing_goes_on (hrun : Run (step options) (fun s e => s.closesLinked e) {} es s) :
    Closing s ∧ (s.closed = false → s.writeStatus = .closing → s.failed = false →
      s.connectionStatus = .connected → s.openPeer.isSome → ∃ fs t,
        Run (step options) (fun s e => s.closesLinked e) s fs t ∧ t.close = .resolved) := by
  have hclosing : Closing s := hrun.invariant Closing.step fun _ h => absurd h (by decide)
  refine ⟨hclosing, fun hopened hwrite hfailed hconnected hlinked => ?_⟩
  have hready : Ready s := ⟨hopened, hfailed, hconnected, hlinked, waiting_of_run hrun⟩
  exact hready.finishes (hclosing hopened hwrite)

theorem closing_goes_on_reconnect : ∃ s,
    Run (step plainOptions) (fun s e => s.closesLinked e) {}
      ([.authenticated, .lost, .close] ++ reconnect ++ [.closeTurn]) s ∧
      s.Closing ∧ s.writeStatus = .closing := by
  have hrun := run_exec (step plainOptions) (fun s e => s.closesLinked e) {}
    ([.authenticated, .lost, .close] ++ reconnect ++ [.closeTurn]) (by decide +kernel)
  exact ⟨_, hrun, (closing_goes_on hrun).1, by decide +kernel⟩

theorem rejected_step (h : s.close = .rejected ∧ s.writeStatus ≠ .writable)
    (hstep : s.step options e = some t) : t.close = .rejected ∧ t.writeStatus ≠ .writable := by
  cases e <;> grind

/-- The stream is closed while it has no peer; `eof` is never sent, though the next one comes. -/
theorem half_close_stuck :
    ∃ s, Run (step plainOptions) Any {}
      ([.authenticated, .lost, .close, .closeTurn] ++ reconnect) s ∧
      s.closed = false ∧ s.healthy = true ∧ s.writeStatus = .closing ∧
      ∀ es t, Run (step plainOptions) Any s es t → t.close = .rejected := by
  refine ⟨_, run_exec (step plainOptions) Any {} _ (by decide +kernel), by decide +kernel,
    by decide +kernel, by decide +kernel, fun es t hrun => ?_⟩
  exact (hrun.invariant (I := fun s => s.close = .rejected ∧ s.writeStatus ≠ .writable)
    (fun h _ hstep => rejected_step h hstep) (by decide +kernel)).1

end ScriptStream

end P2PNetcat.NativeWebRTC
