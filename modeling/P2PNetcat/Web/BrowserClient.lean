import P2PNetcat.Library.StepSystem
import P2PNetcat.Protocol.AuthenticatedStream
import P2PNetcat.Protocol.Pty

/-!
# The race of the browser's two transports

`BrowserP2PClient.connect` with a pairing token and no relay starts the libp2p
worker and native WebRTC together. One event is one task of the page or of the
worker thread with the microtasks that follow it: so the winner of `Promise.any`
is recorded in the task in which its branch is fulfilled. If both are rejected
`connect` throws and records none.
-/

namespace P2PNetcat.Web
open List ByteCodec StepSystem AuthenticatedStream Pty

inductive Transport where
  | worker | nativeWebRTC
  deriving DecidableEq

def outputHighWaterMark : Nat := 512 * 1024
def outputLowWaterMark : Nat := 128 * 1024

/-! ### The worker thread -/

inductive WorkerMessage where
  | result
  | error (message : String)
  | data (bytes : Bytes)
  | closed
  deriving DecidableEq

/-- Where `connect` of the worker is, and the receive loop that it starts. -/
inductive WorkerConnect where
  | dialing
  | rejected
  | receiving
  /-- In the wait for output credit. -/
  | waiting (bytes : Bytes)
  | ended
  deriving DecidableEq

structure WorkerThread where
  connect : WorkerConnect := .dialing
  /-- The answer to the connect request has been posted. -/
  answered : Bool := false
  unacknowledgedOutputBytes : Nat := 0
  /-- Messages to the page that were posted and not yet dispatched. -/
  posted : List WorkerMessage := []
  /-- `ackData` messages on the way to the worker. -/
  acknowledgements : List Nat := []

inductive WorkerEvent where
  | opened
  | rejected (message : String)
  | timeout (message : String)
  | answer
  | chunk (bytes : Bytes)
  | streamEnd
  | acknowledgeOutput

namespace WorkerThread

def post (w : WorkerThread) (message : WorkerMessage) : WorkerThread :=
  { w with posted := w.posted ++ [message] }

def answer (w : WorkerThread) (message : WorkerMessage) : WorkerThread :=
  if w.answered then w else { w.post message with answered := true }

/-- `receiveLoop` with a chunk in its hand. -/
def offer (w : WorkerThread) (bytes : Bytes) : WorkerThread :=
  if w.unacknowledgedOutputBytes > 0 ∧
      w.unacknowledgedOutputBytes + bytes.length > outputHighWaterMark then
    { w with connect := .waiting bytes }
  else
    { w.post (.data bytes) with
      connect := .receiving
      unacknowledgedOutputBytes := w.unacknowledgedOutputBytes + bytes.length }

def wake (w : WorkerThread) : WorkerThread :=
  match w.connect with
  | .waiting bytes => if w.unacknowledgedOutputBytes ≤ outputLowWaterMark then w.offer bytes else w
  | _ => w

def acknowledgeOutput (w : WorkerThread) (bytes : Nat) : WorkerThread :=
  if bytes = 0 then w
  else { w with unacknowledgedOutputBytes := w.unacknowledgedOutputBytes - bytes }.wake

/-- `connect` goes on after the timeout has rejected `connectWithTimeout`. -/
def step (w : WorkerThread) : WorkerEvent → Option WorkerThread
  | .opened => if w.connect = .dialing then some { w with connect := .receiving } else none
  | .rejected message =>
    if w.connect = .dialing then some ({ w with connect := .rejected }.answer (.error message))
    else none
  | .timeout message =>
    if w.connect = .dialing ∧ w.answered = false then some (w.answer (.error message)) else none
  | .answer =>
    if w.connect ≠ .dialing ∧ w.connect ≠ .rejected ∧ w.answered = false then
      some (w.answer .result)
    else none
  | .chunk bytes => if w.connect = .receiving then some (w.offer bytes) else none
  | .streamEnd =>
    if w.connect = .receiving then some { w.post .closed with connect := .ended } else none
  | .acknowledgeOutput =>
    match w.acknowledgements with
    | [] => none
    | bytes :: rest => some ({ w with acknowledgements := rest }.acknowledgeOutput bytes)

/-- No chunk will come from the thread any more. -/
def Over (w : WorkerThread) : Prop := w.connect = .rejected ∨ w.connect = .ended

theorem over_step {w w' : WorkerThread} {e : WorkerEvent} (h : w.Over) (hstep : w.step e = some w') :
    w'.Over ∧ ∀ bytes, .data bytes ∈ w'.posted → .data bytes ∈ w.posted := by
  have hdialing : w.connect ≠ .dialing := by
    rcases h with h | h <;> simp [h]
  have hreceiving : w.connect ≠ .receiving := by
    rcases h with h | h <;> simp [h]
  cases e with
  | opened | rejected message => exact absurd (guard_eq_some.mp hstep).1 hdialing
  | timeout message => exact absurd (guard_eq_some.mp hstep).1.1 hdialing
  | chunk bytes | streamEnd => exact absurd (guard_eq_some.mp hstep).1 hreceiving
  | answer =>
    obtain ⟨⟨-, -, hanswered⟩, rfl⟩ := guard_eq_some.mp hstep
    rw [answer, hanswered]
    exact ⟨h, by simp [post]⟩
  | acknowledgeOutput =>
    simp only [step] at hstep
    split at hstep
    · cases hstep
    cases hstep
    rw [acknowledgeOutput]
    split
    · exact ⟨h, fun _ => id⟩
    rw [wake.eq_def]
    split
    next hwait => rcases h with h | h <;> cases h.symm.trans hwait
    next => exact ⟨h, fun _ => id⟩

end WorkerThread

/-! ### The native client -/

inductive NativePhase where
  /-- Before `await connection.promise` is over. -/
  | connecting
  /-- In `consumePrefix`, with so many bytes of the frame to come. -/
  | consuming (missing : Nat)
  /-- In `verifySessionAuthAck`. -/
  | verifying
  /-- In `receiveLoop`. -/
  | receiving
  | ended
  | rejected
  deriving DecidableEq

/-- `connect` is not over. -/
def NativePhase.connects : NativePhase → Bool
  | .connecting | .consuming _ | .verifying => true
  | _ => false

def NativePhase.reads : NativePhase → Bool
  | .consuming _ | .verifying | .receiving => true
  | _ => false

structure NativeClient where
  phase : NativePhase := .connecting
  stopped : Bool := false
  /-- The chunks of the stream that were not yet taken. -/
  items : List Bytes := []
  readClosed : Bool := false
  /-- What came in one chunk with the end of the admission frame, as long as `wrapConsumedStream`
  has not given it out. -/
  remainder : Bytes := []
  /-- `receiveLoop` waits for `events.onData`. -/
  writing : Bool := false

inductive NativeEvent where
  | opened
  | rejected
  | consume
  | receiveData (bytes : Bytes)
  | endRead
  | fail
  | settled

namespace NativeClient

def step (n : NativeClient) : NativeEvent → Option NativeClient
  | .opened =>
    if n.phase = .connecting then
      some { n with phase := if n.stopped then .rejected else .consuming sessionAuthFrameBytes }
    else none
  | .rejected => if n.phase.connects then some { n with phase := .rejected } else none
  | .consume =>
    match n.phase, n.items with
    | .consuming missing, chunk :: rest =>
      some { n with
        items := rest
        remainder := chunk.drop missing
        phase := if chunk.length < missing then .consuming (missing - chunk.length) else .verifying }
    | _, _ => none
  | .receiveData bytes =>
    if n.phase.reads ∧ n.readClosed = false then some { n with items := n.items ++ [bytes] }
    else none
  | .endRead => if n.phase.reads then some { n with readClosed := true } else none
  -- `#fail` drops what is queued in the stream, but the remainder is in nobody's queue
  | .fail => if n.phase.reads then some { n with items := [], readClosed := true } else none
  | .settled => if n.writing then some { n with writing := false } else none

/-- `next` of the wrapped stream, where it does not wait: the chunk, and what is left. -/
def next (n : NativeClient) : Option (Bytes × Bytes × List Bytes) :=
  if n.remainder ≠ [] then some (n.remainder, [], n.items)
  else
    match n.items with
    | [] => none
    | chunk :: rest => some (chunk, [], rest)

/-- No byte can come from the stream any more. -/
def Quiet (n : NativeClient) : Prop :=
  match n.phase with
  | .consuming missing => n.readClosed = true ∧ n.items.flatten.length ≤ missing
  | .verifying | .receiving => n.readClosed = true ∧ n.remainder = [] ∧ n.items.flatten = []
  | _ => True

variable {n n' : NativeClient} {e : NativeEvent}

theorem phase_of_step (h : n.step e = some n') :
    n'.phase ≠ .receiving ∧ n'.phase ≠ .ended ∨ n'.phase = n.phase := by
  cases e with
  | opened =>
    obtain ⟨-, rfl⟩ := guard_eq_some.mp h
    cases n.stopped <;> simp
  | rejected =>
    obtain ⟨-, rfl⟩ := guard_eq_some.mp h
    exact .inl ⟨nofun, nofun⟩
  | consume =>
    simp only [step] at h
    split at h <;> cases h
    refine .inl ?_
    dsimp only
    split <;> exact ⟨nofun, nofun⟩
  | receiveData bytes | endRead | fail | settled =>
    obtain ⟨-, rfl⟩ := guard_eq_some.mp h
    exact .inr rfl

theorem rejected_step (hphase : n.phase = .rejected) (h : n.step e = some n') :
    n'.phase = .rejected := by
  cases e with
  | consume => simp [step, hphase] at h
  | opened => cases hphase.symm.trans (guard_eq_some.mp h).1
  | rejected | receiveData bytes | endRead | fail =>
    obtain ⟨hreads, -⟩ := Option.ite_none_right_eq_some.mp h
    simp [hphase, NativePhase.connects, NativePhase.reads] at hreads
  | settled =>
    obtain ⟨-, rfl⟩ := guard_eq_some.mp h
    exact hphase

theorem quiet_consume {missing : Nat} {chunk : Bytes} {rest : List Bytes}
    (hphase : n.phase = .consuming missing) (hitems : n.items = chunk :: rest) (h : n.Quiet) :
    Quiet { n with
      items := rest
      remainder := chunk.drop missing
      phase := if chunk.length < missing then .consuming (missing - chunk.length) else .verifying } := by
  simp only [Quiet, hphase, hitems, flatten_cons, length_append] at h
  obtain ⟨hclosed, hlength⟩ := h
  unfold Quiet
  dsimp only
  split
  next heq =>
    split at heq <;> cases heq
    exact ⟨hclosed, by omega⟩
  next heq =>
    split at heq
    · cases heq
    refine ⟨hclosed, drop_eq_nil_of_le (by omega), length_eq_zero_iff.mp (by omega)⟩
  next heq => split at heq <;> cases heq
  next => trivial

theorem Quiet.close (h : n.Quiet) {items : List Bytes} (hitems : items = n.items ∨ items = []) :
    Quiet { n with items, readClosed := true } := by
  cases hphase : n.phase with
  | consuming missing =>
    simp only [Quiet, hphase, true_and] at h ⊢
    rcases hitems with rfl | rfl
    · exact h.2
    · exact Nat.zero_le _
  | verifying | receiving =>
    simp only [Quiet, hphase, true_and] at h ⊢
    rcases hitems with rfl | rfl
    · exact h.2
    · exact ⟨h.2.1, rfl⟩
  | connecting | ended | rejected => trivial

theorem Quiet.readClosed (h : n.Quiet) (hreads : n.phase.reads = true) : n.readClosed = true := by
  cases hphase : n.phase with
  | consuming missing | verifying | receiving =>
    simp only [Quiet, hphase] at h
    exact h.1
  | connecting | ended | rejected => simp [hphase, NativePhase.reads] at hreads

theorem quiet_step (h : n.step e = some n') (hstopped : n.stopped = true) (hquiet : n.Quiet) :
    n'.stopped = true ∧ n'.Quiet := by
  cases e with
  | opened =>
    obtain ⟨-, rfl⟩ := guard_eq_some.mp h
    exact ⟨hstopped, by simp [Quiet, hstopped]⟩
  | rejected =>
    obtain ⟨-, rfl⟩ := guard_eq_some.mp h
    exact ⟨hstopped, trivial⟩
  | consume =>
    simp only [step] at h
    split at h <;> cases h
    rename_i missing chunk rest hphase hitems
    exact ⟨hstopped, quiet_consume hphase hitems hquiet⟩
  | receiveData bytes =>
    obtain ⟨⟨hreads, hopen⟩, -⟩ := Option.ite_none_right_eq_some.mp h
    cases hopen.symm.trans (hquiet.readClosed hreads)
  | endRead =>
    obtain ⟨-, rfl⟩ := guard_eq_some.mp h
    exact ⟨hstopped, hquiet.close (.inl rfl)⟩
  | fail =>
    obtain ⟨-, rfl⟩ := guard_eq_some.mp h
    exact ⟨hstopped, hquiet.close (.inr rfl)⟩
  | settled =>
    obtain ⟨-, rfl⟩ := guard_eq_some.mp h
    exact ⟨hstopped, hquiet⟩

variable {bytes remainder : Bytes} {items : List Bytes}

theorem next_eq_some (h : n.next = some (bytes, remainder, items)) : remainder = [] ∧
    ((n.remainder = bytes ∧ bytes ≠ [] ∧ n.items = items) ∨
      n.remainder = [] ∧ n.items = bytes :: items) := by
  rw [next] at h
  split at h
  next hne =>
    cases h
    exact ⟨rfl, .inl ⟨rfl, hne, rfl⟩⟩
  next hempty =>
    split at h <;> cases h
    next hitems => exact ⟨rfl, .inr ⟨not_not.mp hempty, hitems⟩⟩

theorem flatten_of_next (h : n.next = some (bytes, remainder, items)) :
    bytes ++ items.flatten = n.remainder ++ n.items.flatten := by
  rcases (next_eq_some h).2 with ⟨hremainder, -, hitems⟩ | ⟨hremainder, hitems⟩
  · rw [hremainder, hitems]
  · rw [hremainder, hitems]
    rfl

end NativeClient

/-! ### The page -/

structure Page where
  interactive : Bool
  active : Option Transport := none
  /-- The bytes of `events.onData` of a session that is not interactive. -/
  onData : List (Transport × UInt8) := []
  ptyDecoder : PtyFrameDecoder := {}
  /-- The bytes pushed into `ptyDecoder`. -/
  pushed : List (Transport × UInt8) := []
  /-- The calls of `events.onClosed`, with `active` at the time. -/
  onClosed : List (Transport × Option Transport) := []

namespace Page

def receive (p : Page) (source : Transport) (bytes : Bytes) : Page :=
  if p.interactive then
    { p with
      ptyDecoder := (p.ptyDecoder.push bytes).2
      pushed := p.pushed ++ bytes.map (source, ·) }
  else { p with onData := p.onData ++ bytes.map (source, ·) }

/-- `receive` waits for `events.onData`: in an interactive session only if the chunk completes a data
frame, and `push` does not throw. -/
def waits (p : Page) (bytes : Bytes) : Bool :=
  if p.interactive then
    match (p.ptyDecoder.push bytes).1 with
    | .ok frames => frames.any (·.type = frameData)
    | .error _ => false
  else true

def close (p : Page) (source : Transport) : Page :=
  { p with onClosed := p.onClosed ++ [(source, p.active)] }

end Page

/-- What `WorkerP2PClient` has put on its `outputChain`. -/
inductive Output where
  | data (bytes : Bytes)
  | closed
  deriving DecidableEq

structure Drained where
  page : Page
  outputChain : List Output := []
  writing : Option Nat := none
  acknowledgements : List Nat := []

/-- The chain runs up to the next chunk that waits for `events.onData`; a chunk that does not is
acknowledged at once. -/
def drain (p : Page) : List Output → Drained
  | [] => { page := p }
  | .closed :: rest => drain (p.close .worker) rest
  | .data bytes :: rest =>
    if p.waits bytes then ⟨p.receive .worker bytes, rest, some bytes.length, []⟩
    else
      let d := drain (p.receive .worker bytes) rest
      { d with acknowledgements := bytes.length :: d.acknowledgements }

/-- The connect request in `pending` of `WorkerP2PClient`. -/
inductive Request where
  | pending | resolved | rejected
  deriving DecidableEq

structure BrowserClient where
  page : Page
  thread : WorkerThread := {}
  request : Request := .pending
  /-- `stopped` of the worker client; the thread is terminated. -/
  cancelled : Bool := false
  outputChain : List Output := []
  /-- The size of the chunk whose `events.onData` has not settled. -/
  writing : Option Nat := none
  native : NativeClient := {}

inductive BrowserEvent where
  | thread (e : WorkerEvent)
  | dispatch
  | outputSettled
  | native (e : NativeEvent)
  | authenticated
  | receive
  | receiveLoopEnd

namespace BrowserClient

/-- The `ackData` messages on the way after those for the given chunks. -/
def acknowledged (s : BrowserClient) (sizes : List Nat) : List Nat :=
  if s.cancelled then s.thread.acknowledgements else s.thread.acknowledgements ++ sizes

def pump (s : BrowserClient) : BrowserClient :=
  if s.writing.isSome then s
  else
    let d := drain s.page s.outputChain
    { s with
      page := d.page
      outputChain := d.outputChain
      writing := d.writing
      thread.acknowledgements := s.acknowledged d.acknowledgements }

def enqueue (s : BrowserClient) (output : Output) : BrowserClient :=
  { s with outputChain := s.outputChain ++ [output] }.pump

/-- The worker's branch is fulfilled: `nativeWebRtc.stop()`. -/
def workerWins (s : BrowserClient) : BrowserClient :=
  if s.page.active = none then
    { s with page.active := some .worker, native.stopped := true }
  else s

/-- The native branch is fulfilled: `this.worker.cancel()`, which drops what the thread posted. -/
def nativeWins (s : BrowserClient) : BrowserClient :=
  if s.page.active = none then
    { s with
      page.active := some .nativeWebRTC
      cancelled := true
      request := if s.request = .pending then .rejected else s.request
      thread.posted := [] }
  else s

def onMessage (s : BrowserClient) : WorkerMessage → BrowserClient
  | .result => if s.request = .pending then { s with request := .resolved }.workerWins else s
  | .error _ => if s.request = .pending then { s with request := .rejected } else s
  | .data bytes => s.enqueue (.data bytes)
  | .closed => s.enqueue .closed

/-- What the page does when the promise of `events.onData` for a worker's chunk settles. -/
def outputSettled (s : BrowserClient) (bytes : Nat) : BrowserClient :=
  { s with writing := none, thread.acknowledgements := s.acknowledged [bytes] }.pump

def step (s : BrowserClient) : BrowserEvent → Option BrowserClient
  | .thread e =>
    if s.cancelled then none else (s.thread.step e).map fun thread => { s with thread := thread }
  | .dispatch =>
    match s.thread.posted with
    | [] => none
    | message :: rest => some ({ s with thread.posted := rest }.onMessage message)
  | .outputSettled => s.writing.map s.outputSettled
  | .native e => (s.native.step e).map fun native => { s with native := native }
  | .authenticated =>
    -- `connect` of the native client does not look at `stopped` here
    if s.native.phase = .verifying then some { s with native.phase := .receiving }.nativeWins
    else none
  | .receive =>
    if s.native.phase = .receiving ∧ s.native.writing = false then
      s.native.next.map fun (bytes, remainder, items) =>
        { s with
          page := s.page.receive .nativeWebRTC bytes
          native := { s.native with remainder, items, writing := s.page.waits bytes } }
    else none
  | .receiveLoopEnd =>
    if s.native.phase = .receiving ∧ s.native.writing = false ∧ s.native.next = none ∧
        s.native.readClosed = true then
      some { s with
        page := if s.native.stopped then s.page else s.page.close .nativeWebRTC
        native.phase := .ended }
    else none

/-- How `Promise.any` has ended: with a winner, or with both branches rejected. -/
def outcome (s : BrowserClient) : Option (Option Transport) :=
  match s.page.active with
  | some w => some (some w)
  | none => if s.request = .rejected ∧ s.native.phase = .rejected then some none else none

inductive Moves (s : BrowserClient) : BrowserClient → Prop where
  | thread {e : WorkerEvent} {thread : WorkerThread} (hrunning : s.cancelled ≠ true)
      (h : s.thread.step e = some thread) : Moves s { s with thread }
  | workerWins {rest : List WorkerMessage} (hactive : s.page.active = none)
      (hrequest : s.request = .pending) :
      Moves s { s with
        page.active := some .worker
        thread.posted := rest
        request := .resolved
        native.stopped := true }
  | answered {message : WorkerMessage} {rest : List WorkerMessage} {request : Request}
      (hposted : s.thread.posted = message :: rest)
      (hrequest : s.request = .rejected → request = .rejected) :
      Moves s { s with thread.posted := rest, request }
  | output {message : WorkerMessage} {rest : List WorkerMessage} {o : Output}
      (hposted : s.thread.posted = message :: rest)
      (ho : ∀ bytes, o = .data bytes → message = .data bytes) :
      Moves s (enqueue { s with thread.posted := rest } o)
  | settled {bytes : Nat} : Moves s (s.outputSettled bytes)
  | native {e : NativeEvent} {native : NativeClient} (h : s.native.step e = some native) :
      Moves s { s with native }
  | authenticated (hphase : s.native.phase = .verifying) :
      Moves s (nativeWins { s with native.phase := .receiving })
  | receive {bytes remainder : Bytes} {items : List Bytes} (hphase : s.native.phase = .receiving)
      (hnext : s.native.next = some (bytes, remainder, items)) :
      Moves s { s with
        page := s.page.receive .nativeWebRTC bytes
        native := { s.native with remainder, items, writing := s.page.waits bytes } }
  | receiveLoopEnd (hphase : s.native.phase = .receiving) :
      Moves s { s with
        page := if s.native.stopped then s.page else s.page.close .nativeWebRTC
        native.phase := .ended }

theorem moves_of_step {s t : BrowserClient} {e : BrowserEvent} (h : s.step e = some t) :
    Moves s t := by
  cases e with
  | thread e =>
    obtain ⟨hrunning, h⟩ := Option.ite_none_left_eq_some.mp h
    obtain ⟨thread, hthread, rfl⟩ := Option.map_eq_some_iff.mp h
    exact .thread hrunning hthread
  | dispatch =>
    simp only [step] at h
    split at h
    · cases h
    rename_i message rest hposted
    cases h
    cases message with
    | result =>
      simp only [onMessage, workerWins]
      split
      next hpending =>
        split
        next hactive => exact .workerWins hactive hpending
        next => exact .answered hposted fun hrejected => by cases hpending.symm.trans hrejected
      next => exact .answered hposted id
    | error text =>
      simp only [onMessage]
      split
      · exact .answered hposted fun _ => rfl
      · exact .answered hposted id
    | data bytes => exact .output hposted fun other heq => by cases heq; rfl
    | closed => exact .output hposted nofun
  | outputSettled =>
    obtain ⟨bytes, -, rfl⟩ := Option.map_eq_some_iff.mp h
    exact .settled
  | native e =>
    obtain ⟨native, hnative, rfl⟩ := Option.map_eq_some_iff.mp h
    exact .native hnative
  | authenticated =>
    obtain ⟨hphase, rfl⟩ := guard_eq_some.mp h
    exact .authenticated hphase
  | receive =>
    obtain ⟨⟨hphase, -⟩, h⟩ := Option.ite_none_right_eq_some.mp h
    obtain ⟨⟨bytes, remainder, items⟩, hnext, rfl⟩ := Option.map_eq_some_iff.mp h
    exact .receive hphase hnext
  | receiveLoopEnd =>
    obtain ⟨⟨hphase, -⟩, rfl⟩ := guard_eq_some.mp h
    exact .receiveLoopEnd hphase

end BrowserClient

/-! ### What the page has got -/

namespace Page
variable {p : Page} {w : Option Transport} {source : Transport} {bytes : Bytes}

def handed (p : Page) : List (Transport × UInt8) := p.onData ++ p.pushed

/-- The bytes are of the one transport, and every closing in a session is by its transport. -/
structure From (w : Option Transport) (p : Page) : Prop where
  handed : ∀ b ∈ p.handed, some b.1 = w
  closed : ∀ c ∈ p.onClosed, ∀ v, c.2 = some v → c.1 = v

@[simp]
theorem active_receive : (p.receive source bytes).active = p.active := by
  unfold receive
  split <;> rfl

@[simp]
theorem onClosed_receive : (p.receive source bytes).onClosed = p.onClosed := by
  unfold receive
  split <;> rfl

theorem mem_handed_receive {b : Transport × UInt8} :
    b ∈ (p.receive source bytes).handed ↔ b ∈ p.handed ∨ b.1 = source ∧ b.2 ∈ bytes := by
  have hmap : b ∈ bytes.map (source, ·) ↔ b.1 = source ∧ b.2 ∈ bytes := by
    rw [mem_map]
    constructor
    · rintro ⟨x, hx, rfl⟩
      exact ⟨rfl, hx⟩
    · rintro ⟨hsource, hx⟩
      exact ⟨b.2, hx, Prod.ext hsource.symm rfl⟩
  unfold receive
  split
  · simp only [handed, mem_append, hmap, or_assoc]
  · simp only [handed, mem_append, hmap, or_right_comm]

theorem From.receive (h : p.From w) (hbytes : some source = w ∨ bytes = []) :
    (p.receive source bytes).From w where
  handed b hb := by
    rcases mem_handed_receive.mp hb with hb | ⟨hsource, hb⟩
    · exact h.handed b hb
    rcases hbytes with hwinner | rfl
    · rw [hsource, hwinner]
    · cases hb
  closed c hc := h.closed c (onClosed_receive ▸ hc)

theorem From.close (h : p.From w) (hsource : p.active = none ∨ p.active = some source) :
    (p.close source).From w where
  handed := h.handed
  closed c hc v hv := by
    rcases mem_append.mp hc with hc | hc
    · exact h.closed c hc v hv
    · rw [mem_singleton.mp hc] at hv ⊢
      rcases hsource with hnone | hsome
      · cases hnone.symm.trans hv
      · exact Option.some.inj (hsome.symm.trans hv)

/-- The page before the race is decided: nothing has come but from the worker. -/
structure Undecided (p : Page) : Prop where
  handed : ∀ b ∈ p.handed, b.1 = .worker
  closed : ∀ c ∈ p.onClosed, c.2 = none

theorem Undecided.receive (h : p.Undecided) : (p.receive .worker bytes).Undecided where
  handed b hb := (mem_handed_receive.mp hb).elim (h.handed b) And.left
  closed c hc := h.closed c (onClosed_receive ▸ hc)

theorem Undecided.close (h : p.Undecided) (hactive : p.active = none) :
    (p.close source).Undecided where
  handed := h.handed
  closed c hc := by
    rcases mem_append.mp hc with hc | hc
    · exact h.closed c hc
    · rw [mem_singleton.mp hc]
      exact hactive

end Page

section Drain
variable {p : Page} {l : List Output}

theorem drain_invariant {I : Page → Prop} (hclose : ∀ p, I p → .closed ∈ l → I (p.close .worker))
    (hreceive : ∀ p bytes, I p → .data bytes ∈ l → I (p.receive .worker bytes)) (h : I p) :
    I (drain p l).page := by
  induction l generalizing p with
  | nil => exact h
  | cons o rest ih =>
    have hrest : ∀ q, I q → I (drain q rest).page := fun q hq =>
      ih (fun p hp ho => hclose p hp (mem_cons_of_mem _ ho))
        (fun p bytes hp ho => hreceive p bytes hp (mem_cons_of_mem _ ho)) hq
    cases o with
    | closed => exact hrest _ (hclose p h mem_cons_self)
    | data bytes =>
      have hnext := hreceive p bytes h mem_cons_self
      rw [drain]
      split
      · exact hnext
      · exact hrest _ hnext

@[simp]
theorem active_drain : (drain p l).page.active = p.active :=
  drain_invariant (I := fun q => q.active = p.active) (fun _ h _ => h)
    (fun _ _ h _ => Page.active_receive.trans h) rfl

theorem drain_subset : (drain p l).outputChain ⊆ l := by
  induction l generalizing p with
  | nil => exact List.Subset.refl _
  | cons o rest ih =>
    cases o with
    | closed => exact List.Subset.trans ih (subset_cons_self _ _)
    | data bytes =>
      rw [drain]
      split
      · exact subset_cons_self _ _
      · exact List.Subset.trans ih (subset_cons_self _ _)

end Drain

structure Racing (p : Page) (n : NativeClient) : Prop where
  page : p.Undecided
  receiving : n.phase ≠ .receiving
  ended : n.phase ≠ .ended

theorem Racing.native {p : Page} {n n' : NativeClient} {e : NativeEvent} (h : Racing p n)
    (hstep : n.step e = some n') : Racing p n' := by
  rcases NativeClient.phase_of_step hstep with ⟨hreceiving, hended⟩ | heq
  · exact ⟨h.page, hreceiving, hended⟩
  · exact ⟨h.page, heq ▸ h.receiving, heq ▸ h.ended⟩

namespace BrowserClient
variable {e : BrowserEvent}

def Inv (s : BrowserClient) : Prop := s.page.active = none → Racing s.page s.native

variable {s t : BrowserClient} {w : Option Transport}

theorem pump_page {I : Page → Prop}
    (hclose : ∀ p, I p → .closed ∈ s.outputChain → I (p.close .worker))
    (hreceive : ∀ p bytes, I p → .data bytes ∈ s.outputChain → I (p.receive .worker bytes))
    (h : I s.page) : I s.pump.page := by
  unfold pump
  split
  · exact h
  · exact drain_invariant hclose hreceive h

@[simp]
theorem active_pump : s.pump.page.active = s.page.active := by
  unfold pump
  split
  · rfl
  · exact active_drain

@[simp]
theorem native_pump : s.pump.native = s.native := by
  unfold pump
  split <;> rfl

@[simp]
theorem request_pump : s.pump.request = s.request := by
  unfold pump
  split <;> rfl

@[simp]
theorem cancelled_pump : s.pump.cancelled = s.cancelled := by
  unfold pump
  split <;> rfl

@[simp]
theorem connect_pump : s.pump.thread.connect = s.thread.connect := by
  unfold pump
  split <;> rfl

@[simp]
theorem posted_pump : s.pump.thread.posted = s.thread.posted := by
  unfold pump
  split <;> rfl

@[simp]
theorem outcome_pump : s.pump.outcome = s.outcome := by
  simp only [outcome, active_pump, request_pump, native_pump]

theorem outputChain_pump : s.pump.outputChain ⊆ s.outputChain := by
  unfold pump
  split
  · exact List.Subset.refl _
  · exact drain_subset

theorem Inv.pump (h : s.Inv) : s.pump.Inv := by
  intro hactive
  have hnone := active_pump.symm.trans hactive
  have hracing := h hnone
  rw [native_pump]
  refine ⟨?_, hracing.receiving, hracing.ended⟩
  refine (pump_page (I := fun p => p.active = none ∧ p.Undecided) ?_ ?_ ⟨hnone, hracing.page⟩).2
  · exact fun p hp _ => ⟨hp.1, hp.2.close hp.1⟩
  · exact fun p bytes hp _ => ⟨Page.active_receive.trans hp.1, hp.2.receive⟩

@[simp]
theorem active_loopEnd :
    (if s.native.stopped then s.page else s.page.close .nativeWebRTC).active = s.page.active := by
  split <;> rfl

theorem Inv.step (h : s.Inv) (hstep : s.step e = some t) : t.Inv := by
  cases moves_of_step hstep with
  | thread | answered => exact h
  | workerWins => exact nofun
  | @output _ rest o =>
    have hrest : Inv { s with outputChain := s.outputChain ++ [o], thread.posted := rest } := h
    exact hrest.pump
  | settled =>
    refine Inv.pump ?_
    exact h
  | native hnative => exact fun hactive => (h hactive).native hnative
  | authenticated =>
    unfold nativeWins
    split
    · exact nofun
    next hactive => exact fun hnone => absurd hnone hactive
  | receive hphase =>
    exact fun hactive => absurd hphase (h (Page.active_receive.symm.trans hactive)).receiving
  | receiveLoopEnd hphase =>
    exact fun hactive => absurd hphase (h (active_loopEnd.symm.trans hactive)).receiving

theorem Inv.of_run {interactive : Bool} {es : List BrowserEvent}
    (hrun : Run BrowserClient.step Any { page := { interactive := interactive } } es s) : s.Inv :=
  hrun.invariant (fun h _ hstep => h.step hstep) fun _ => ⟨⟨nofun, nofun⟩, nofun, nofun⟩

/-! ### After the decision -/

theorem outcome_eq_winner {v : Transport} : s.outcome = some (some v) ↔ s.page.active = some v := by
  rw [outcome]
  split
  next heq => simp [heq]
  next heq => simp [heq]

theorem outcome_eq_none : s.outcome = some none ↔
    s.page.active = none ∧ s.request = .rejected ∧ s.native.phase = .rejected := by
  rw [outcome]
  split
  next heq => simp [heq]
  next heq => simp [heq]

theorem active_step {v : Transport} (h : s.page.active = some v) (hstep : s.step e = some t) :
    t.page.active = some v := by
  cases moves_of_step hstep with
  | thread | answered | native => exact h
  | workerWins hactive => cases hactive.symm.trans h
  | output | settled => exact active_pump.trans h
  | authenticated => simp only [nativeWins, h, reduceCtorEq, if_false]
  | receive => exact Page.active_receive.trans h
  | receiveLoopEnd => exact active_loopEnd.trans h

theorem outcome_step (h : s.outcome = some w) (hstep : s.step e = some t) : t.outcome = some w := by
  cases w with
  | some v => exact outcome_eq_winner.mpr (active_step (outcome_eq_winner.mp h) hstep)
  | none =>
    obtain ⟨hactive, hrequest, hphase⟩ := outcome_eq_none.mp h
    cases moves_of_step hstep with
    | thread => exact h
    | workerWins _ hpending => cases hpending.symm.trans hrequest
    | answered _ hanswer => exact outcome_eq_none.mpr ⟨hactive, hanswer hrequest, hphase⟩
    | output | settled => exact outcome_pump.trans h
    | native hnative =>
      exact outcome_eq_none.mpr ⟨hactive, hrequest, NativeClient.rejected_step hphase hnative⟩
    | authenticated hat | receive hat | receiveLoopEnd hat => cases hphase.symm.trans hat

/-- What keeps the loser silent from now on. -/
def Silenced (s : BrowserClient) : Option Transport → Prop
  | some .worker => s.native.stopped = true ∧ s.native.Quiet
  | some .nativeWebRTC =>
    s.cancelled = true ∧ s.thread.posted = [] ∧ ∀ o ∈ s.outputChain, o = .data []
  | none => s.thread.Over ∧ (∀ bytes, .data bytes ∈ s.thread.posted → bytes = []) ∧
    ∀ bytes, .data bytes ∈ s.outputChain → bytes = []

structure Owned (w : Option Transport) (s : BrowserClient) : Prop where
  outcome : s.outcome = some w
  page : s.page.From w
  silenced : s.Silenced w

/-- What the chain may hold without a byte or a closing of the loser's reaching the page. -/
def Harmless (w : Option Transport) (chain : List Output) : Prop :=
  w = some .worker ∨ (∀ bytes, .data bytes ∈ chain → bytes = []) ∧ (.closed ∈ chain → w = none)

theorem Owned.harmless (h : s.Owned w) : Harmless w s.outputChain := by
  match w, h.silenced with
  | some .worker, _ => exact .inl rfl
  | some .nativeWebRTC, hsilenced =>
    refine .inr ⟨fun bytes ho => Output.data.inj (hsilenced.2.2 _ ho), fun ho => ?_⟩
    cases hsilenced.2.2 _ ho
  | none, hsilenced => exact .inr ⟨hsilenced.2.2, fun _ => rfl⟩

theorem From.pump (houtcome : s.outcome = some w) (hpage : s.page.From w)
    (hchain : Harmless w s.outputChain) : s.pump.page.From w := by
  have hsome : ∀ {v}, w = some v → s.page.active = some v := fun heq =>
    outcome_eq_winner.mp (heq ▸ houtcome)
  refine (pump_page (I := fun p => p.active = s.page.active ∧ p.From w) ?_ ?_ ⟨rfl, hpage⟩).2
  · rintro p ⟨hactive, hp⟩ hmem
    refine ⟨hactive, hp.close ?_⟩
    rw [hactive]
    rcases hchain with hworker | ⟨-, hclosed⟩
    · exact .inr (hsome hworker)
    · exact .inl (outcome_eq_none.mp (hclosed hmem ▸ houtcome)).1
  · rintro p bytes ⟨hactive, hp⟩ hmem
    refine ⟨Page.active_receive.trans hactive, hp.receive ?_⟩
    rcases hchain with hworker | ⟨hempty, -⟩
    · exact .inl hworker.symm
    · exact .inr (hempty bytes hmem)

theorem Silenced.same (h : s.Silenced w) (hnative : t.native = s.native)
    (hthread : t.thread.connect = s.thread.connect ∧ t.thread.posted ⊆ s.thread.posted)
    (hrest : t.cancelled = s.cancelled ∧ t.outputChain ⊆ s.outputChain) : t.Silenced w := by
  match w, h with
  | some .worker, h =>
    rw [Silenced, hnative]
    exact h
  | some .nativeWebRTC, ⟨hcancelled, hposted, hchain⟩ =>
    refine ⟨hrest.1.trans hcancelled, ?_, fun o ho => hchain o (hrest.2 ho)⟩
    exact subset_nil.mp (hposted ▸ hthread.2)
  | none, ⟨hover, hposted, hchain⟩ =>
    rw [Silenced, WorkerThread.Over, hthread.1]
    exact ⟨hover, fun bytes hmem => hposted bytes (hthread.2 hmem),
      fun bytes hmem => hchain bytes (hrest.2 hmem)⟩

theorem Owned.pump (h : s.Owned w) : s.pump.Owned w :=
  ⟨outcome_pump.trans h.outcome, From.pump h.outcome h.page h.harmless,
    h.silenced.same native_pump ⟨connect_pump, by simp⟩ ⟨cancelled_pump, outputChain_pump⟩⟩

theorem Owned.enqueue (h : s.Owned w) {o : Output} (hnative : w ≠ some .nativeWebRTC)
    (ho : w = none → ∀ bytes, o = .data bytes → bytes = []) : (s.enqueue o).Owned w := by
  refine Owned.pump ⟨h.outcome, h.page, ?_⟩
  match w, h.silenced with
  | some .worker, hsilenced => exact hsilenced
  | some .nativeWebRTC, _ => exact absurd rfl hnative
  | none, ⟨hover, hposted, hchain⟩ =>
    refine ⟨hover, hposted, fun bytes hmem => ?_⟩
    rcases mem_append.mp hmem with hmem | hmem
    · exact hchain bytes hmem
    · exact ho rfl bytes (mem_singleton.mp hmem).symm

theorem Owned.step (h : s.Owned w) (hstep : s.step e = some t) : t.Owned w := by
  have houtcome := outcome_step h.outcome hstep
  have hphase : w = none → s.native.phase = .rejected := by
    rintro rfl
    exact (outcome_eq_none.mp h.outcome).2.2
  have hactive : ∀ v, w = some v → s.page.active = some v := fun v heq =>
    outcome_eq_winner.mp (heq ▸ h.outcome)
  cases moves_of_step hstep with
  | thread hrunning hthread =>
    refine ⟨houtcome, h.page, ?_⟩
    match w, h.silenced with
    | some .worker, hsilenced => exact hsilenced
    | some .nativeWebRTC, hsilenced => exact absurd hsilenced.1 hrunning
    | none, ⟨hover, hposted, hchain⟩ =>
      obtain ⟨hover, hsubset⟩ := WorkerThread.over_step hover hthread
      exact ⟨hover, fun bytes hmem => hposted bytes (hsubset bytes hmem), hchain⟩
  | workerWins hnone hpending =>
    cases w with
    | some v => cases hnone.symm.trans (hactive v rfl)
    | none => cases hpending.symm.trans (outcome_eq_none.mp h.outcome).2.1
  | answered hposted =>
    refine ⟨houtcome, h.page, h.silenced.same rfl ⟨rfl, ?_⟩ ⟨rfl, List.Subset.refl _⟩⟩
    rw [hposted]
    exact subset_cons_self _ _
  | @output message rest o hposted ho =>
    have hrest : Owned w { s with thread.posted := rest } := by
      refine ⟨h.outcome, h.page, h.silenced.same rfl ⟨rfl, ?_⟩ ⟨rfl, List.Subset.refl _⟩⟩
      rw [hposted]
      exact subset_cons_self _ _
    refine hrest.enqueue ?_ ?_
    · rintro rfl
      cases hposted.symm.trans h.silenced.2.1
    · rintro rfl bytes rfl
      refine h.silenced.2.1 bytes ?_
      rw [hposted, ho bytes rfl]
      exact mem_cons_self
  | settled =>
    refine Owned.pump ⟨h.outcome, h.page, h.silenced.same rfl ⟨rfl, ?_⟩ ⟨rfl, ?_⟩⟩
    · exact List.Subset.refl _
    · exact List.Subset.refl _
  | native hnative =>
    refine ⟨houtcome, h.page, ?_⟩
    match w, h.silenced with
    | some .worker, hsilenced => exact NativeClient.quiet_step hnative hsilenced.1 hsilenced.2
    | some .nativeWebRTC, hsilenced => exact hsilenced
    | none, hsilenced => exact hsilenced
  | authenticated hverifying =>
    cases w with
    | none => cases hverifying.symm.trans (hphase rfl)
    | some v =>
      rw [nativeWins, if_neg (by simp [hactive v rfl])] at houtcome ⊢
      refine ⟨houtcome, h.page, ?_⟩
      cases v with
      | worker =>
        obtain ⟨hstopped, hquiet⟩ := h.silenced
        simp only [NativeClient.Quiet, hverifying] at hquiet
        exact ⟨hstopped, hquiet⟩
      | nativeWebRTC => exact h.silenced
  | receive hreceiving hnext =>
    have hbytes := NativeClient.flatten_of_next hnext
    match w, hphase, h, houtcome with
    | none, hphase, _, _ => cases hreceiving.symm.trans (hphase rfl)
    | some .nativeWebRTC, _, h, houtcome =>
      exact ⟨houtcome, h.page.receive (.inl rfl), h.silenced⟩
    | some .worker, _, h, houtcome =>
      obtain ⟨hstopped, hquiet⟩ := h.silenced
      simp only [NativeClient.Quiet, hreceiving] at hquiet
      rw [hquiet.2.1, hquiet.2.2, append_nil, append_eq_nil_iff] at hbytes
      refine ⟨houtcome, h.page.receive (.inr hbytes.1), hstopped, ?_⟩
      simp only [NativeClient.Quiet, hreceiving]
      exact ⟨hquiet.1, (NativeClient.next_eq_some hnext).1, hbytes.2⟩
  | receiveLoopEnd hreceiving =>
    match w, hphase, hactive, h, houtcome with
    | none, hphase, _, _, _ => cases hreceiving.symm.trans (hphase rfl)
    | some .worker, _, _, h, houtcome =>
      refine ⟨houtcome, ?_, h.silenced.1, trivial⟩
      rw [h.silenced.1, if_pos rfl]
      exact h.page
    | some .nativeWebRTC, _, hactive, h, houtcome =>
      refine ⟨houtcome, ?_, h.silenced⟩
      dsimp only
      split
      · exact h.page
      · exact h.page.close (.inr (hactive _ rfl))

/-! ### The decision -/

/-- What the step leaves that decides the race. -/
structure Decided (w : Option Transport) (t : BrowserClient) : Prop where
  page : t.page.Undecided
  receiving : w = some .worker → t.native.stopped = true ∧ t.native.phase ≠ .receiving
  nativeWebRTC : w = some .nativeWebRTC → t.cancelled = true ∧ t.thread.posted = []

theorem decided_of_step (hinv : s.Inv) (hstep : s.step e = some t) (hbefore : s.outcome = none)
    (hafter : t.outcome = some w) : Decided w t := by
  have hactive : s.page.active = none := by
    cases hactive : s.page.active with
    | none => rfl
    | some v => cases hbefore.symm.trans (outcome_eq_winner.mpr hactive)
  have hracing := hinv hactive
  have hnone : t.page.active = none → w = none := by
    intro hnone
    cases w with
    | none => rfl
    | some v => cases hnone.symm.trans (outcome_eq_winner.mp hafter)
  cases moves_of_step hstep with
  | thread | answered | native =>
    obtain rfl := hnone hactive
    exact ⟨hracing.page, nofun, nofun⟩
  | workerWins =>
    obtain rfl : some .worker = w := Option.some.inj hafter
    exact ⟨⟨hracing.page.handed, hracing.page.closed⟩, fun _ => ⟨rfl, hracing.receiving⟩, nofun⟩
  | output | settled => cases (hafter.symm.trans outcome_pump).trans hbefore
  | authenticated =>
    rw [nativeWins, if_pos hactive] at hafter ⊢
    obtain rfl : some .nativeWebRTC = w := Option.some.inj hafter
    exact ⟨⟨hracing.page.handed, hracing.page.closed⟩, nofun, fun _ => ⟨rfl, rfl⟩⟩
  | receive hphase | receiveLoopEnd hphase => exact absurd hphase hracing.receiving

/-- When the race is decided: what of the loser the page has, or can still get. -/
def LoserSilent (t : BrowserClient) : Option Transport → Prop
  | some .worker => t.native.Quiet
  | some .nativeWebRTC => t.page.handed = [] ∧ ∀ o ∈ t.outputChain, o = .data []
  | none => t.page.handed = [] ∧ t.thread.Over ∧
    (∀ bytes, .data bytes ∈ t.thread.posted → bytes = []) ∧
    ∀ bytes, .data bytes ∈ t.outputChain → bytes = []

theorem Decided.owned (h : Decided w t) (houtcome : t.outcome = some w)
    (hsilent : t.LoserSilent w) : t.Owned w := by
  have hclosed : ∀ c ∈ t.page.onClosed, ∀ v, c.2 = some v → c.1 = v := by
    intro c hc v hv
    cases (h.page.closed c hc).symm.trans hv
  have hnothing : t.page.handed = [] → t.page.From w := fun hempty =>
    ⟨fun b hb => absurd (hempty ▸ hb) not_mem_nil, hclosed⟩
  match w, h, hsilent with
  | some .worker, h, hsilent =>
    refine ⟨houtcome, ⟨fun b hb => ?_, hclosed⟩, (h.receiving rfl).1, hsilent⟩
    rw [h.page.handed b hb]
  | some .nativeWebRTC, h, hsilent =>
    obtain ⟨hcancelled, hposted⟩ := h.nativeWebRTC rfl
    exact ⟨houtcome, hnothing hsilent.1, hcancelled, hposted, hsilent.2⟩
  | none, _, hsilent => exact ⟨houtcome, hnothing hsilent.1, hsilent.2⟩

section Example

def hiFrame : Bytes := (⟨frameData, [104, 105]⟩ : Pty.Frame).bytes

/-- The worker's dialing goes on after its timeout: its stream delivers a frame and ends while
native WebRTC authenticates, which then wins before `events.onData` settles. -/
def lateWorker : List BrowserEvent :=
  [.thread (.timeout "libp2p не установил соединение за 30 с"), .dispatch, .native .opened,
    .thread .opened, .thread (.chunk hiFrame), .thread .streamEnd, .dispatch, .dispatch,
    .native (.receiveData (replicate sessionAuthFrameBytes 0)), .native .consume, .authenticated,
    .outputSettled]

/-- The worker wins while native WebRTC is in the admission, which then succeeds although the
stream has failed. -/
def lateNative : List BrowserEvent :=
  [.native .opened, .thread .opened, .thread .answer,
    .native (.receiveData (replicate sessionAuthFrameBytes 0 ++ [104])), .native .consume,
    .dispatch, .native .fail, .authenticated, .receive]

/-- Both branches are rejected, and the worker's dialing succeeds after all. -/
def lateStream : List BrowserEvent :=
  [.thread (.timeout "libp2p не установил соединение за 30 с"), .dispatch, .native .rejected,
    .thread .opened, .thread (.chunk [104]), .dispatch]

end Example

end BrowserClient
end P2PNetcat.Web
