import P2PNetcat.Library.StepSystem
import Mathlib.Data.List.Nodup

/-!
# Writers, terminating threads and their locks

The goroutines of one process around its streams: those of the listener, whose
map is guarded by `l.mu`, and those of client connections. A step of a thread is
one section under a mutex that is not held across a wait (`flowMu`, `readMu`, the
link's mutex). `writeMu` and `l.mu` are held across such sections, so they have
an owner. Goroutines that only send a control text hold no lock and are left out.
-/

namespace P2PNetcat.NativeWebRTC
open Function StepSystem

/-- Where a call of `fail` comes from. `shutdown` is `Listener.Close`, with the streams it has
still to visit; `giveUp` is the supervisor of a client connection. -/
inductive Caller where
  | close | reset | receive | expiry | giveUp
  | shutdown (rest : List Nat)
  deriving DecidableEq

/-- The next section a thread has to enter: of `Write`, of `CloseWrite` (called by `Close` or
alone), of `fail`, of `Reset` and `Close` after it, of the callers that close the link themselves,
and of the goroutine that forwards frames into the stream. -/
inductive Point where
  | done
  | writeLock | writeWindow | writeSend
  | eofLock (close : Bool) | eofSend (close : Bool)
  | failSwap (caller : Caller) | failLock (caller : Caller)
  | abortSend | closePeer | closeLink
  | linkClose (caller : Caller)
  | announcing | forwarding | returned | redialing
  deriving DecidableEq

structure Thread where
  entry : Nat := 0
  point : Point := .done
  deriving DecidableEq

/-- A stream with its link. `full` says that the window has no room for the next `Write`, `peer`
that the link has a peer. `mapped` and `entryPeer` are the listener's map and the entry's `peer`,
`cancelled` the context of a client connection, `keeper` the thread that binds the stream. -/
structure Conduit where
  client : Bool := false
  closed : Bool := false
  writeClosed : Bool := false
  writeMu : Option Nat := none
  full : Bool := false
  peer : Bool := true
  linkClosed : Bool := false
  mapped : Bool := true
  entryPeer : Bool := true
  cancelled : Bool := false
  keeper : Nat := 0
  deriving DecidableEq

/-- Where `fail` returns to; `resumes` says that `Receive` goes on without an error. -/
def Caller.after (resumes : Bool) : Caller → Point
  | .close => .closePeer
  | .reset => .abortSend
  | .receive => if resumes then .forwarding else .returned
  | .expiry => .linkClose .expiry
  | .giveUp => .linkClose .giveUp
  | .shutdown rest => .linkClose (.shutdown rest)

namespace Conduit

def sendable (c : Conduit) : Bool := c.peer || c.linkClosed

def shutLink (c : Conduit) : Conduit := { c with peer := false, linkClosed := true }

/-- The next section of thread `n` at the given point; `free` says that `l.mu` is not held, and
`choice` is the outcome of what the model leaves open. -/
def act (c : Conduit) (n : Nat) (free choice : Bool) : Point → Option (Conduit × Point)
  | .writeLock =>
    if c.writeMu.isSome then none
    else if c.writeClosed || c.closed then some (c, .done)
    else some ({ c with writeMu := some n }, .writeWindow)
  | .writeWindow =>
    if c.closed then some ({ c with writeMu := none }, .done)
    else if c.full then none
    else some ({ c with full := choice }, .writeSend)
  | .writeSend => if c.sendable then some ({ c with writeMu := none }, .done) else none
  | .eofLock close =>
    if c.writeMu.isSome then none
    else if c.writeClosed then some (c, if close then .failSwap .close else .done)
    else some ({ c with writeMu := some n, writeClosed := true }, .eofSend close)
  | .eofSend close =>
    if c.sendable then
      some ({ c with writeMu := none }, if close then .failSwap .close else .done)
    else none
  | .failSwap caller =>
    if c.closed then some (c, caller.after choice)
    else some ({ c with closed := true }, .failLock caller)
  | .failLock caller =>
    if c.writeMu.isSome then none else some ({ c with writeClosed := true }, caller.after choice)
  | .abortSend => if c.sendable then some (c, .closePeer) else none
  | .closePeer =>
    if c.client then some ({ c with cancelled := true }, .closeLink)
    else if free then some ({ c with mapped := false }, .closeLink)
    else none
  | .closeLink => some (c.shutLink, .done)
  | .linkClose .giveUp => some (c.shutLink, .done)
  | .announcing =>
    if !c.sendable then none
    else if choice && c.peer then some ({ c with full := false }, .forwarding)
    else some (c, .failSwap (if c.client then .giveUp else .reset))
  | .forwarding => some (c, if choice then .failSwap .receive else .returned)
  | .returned =>
    if c.client then
      if c.cancelled then some (c, .done) else some ({ c with peer := false }, .redialing)
    else if !free then none
    else if c.mapped && c.entryPeer && c.keeper == n then
      some ({ c with peer := false, entryPeer := false }, .done)
    else some (c, .done)
  | .redialing =>
    if choice && !c.linkClosed && !c.peer then some ({ c with peer := true }, .announcing)
    else some (c, .failSwap .giveUp)
  | .done | .linkClose _ => none

end Conduit

inductive Conduit.Acts (c : Conduit) (n : Nat) (free : Bool) :
    Bool → Point → Conduit → Point → Prop where
  | writeRefused {choice : Bool} : Acts c n free choice .writeLock c .done
  | writeLocked {choice : Bool} (hfree : c.writeMu = none) (hopen : c.closed = false) :
      Acts c n free choice .writeLock { c with writeMu := some n } .writeWindow
  | windowClosed {choice : Bool} (hclosed : c.closed = true) :
      Acts c n free choice .writeWindow { c with writeMu := none } .done
  | windowOpen {choice : Bool} (hopen : c.closed = false) :
      Acts c n free choice .writeWindow { c with full := choice } .writeSend
  | writeSent {choice : Bool} :
      Acts c n free choice .writeSend { c with writeMu := none } .done
  | eofRefused {choice close : Bool} :
      Acts c n free choice (.eofLock close) c (if close then .failSwap .close else .done)
  | eofLocked {choice close : Bool} (hfree : c.writeMu = none) (hopen : c.writeClosed = false) :
      Acts c n free choice (.eofLock close) { c with writeMu := some n, writeClosed := true }
        (.eofSend close)
  | eofSent {choice close : Bool} :
      Acts c n free choice (.eofSend close) { c with writeMu := none }
        (if close then .failSwap .close else .done)
  | swapLost {choice : Bool} {caller : Caller} (hclosed : c.closed = true) :
      Acts c n free choice (.failSwap caller) c (caller.after choice)
  | swapWon {choice : Bool} {caller : Caller} (hopen : c.closed = false) :
      Acts c n free choice (.failSwap caller) { c with closed := true } (.failLock caller)
  | failLocked {choice : Bool} {caller : Caller} :
      Acts c n free choice (.failLock caller) { c with writeClosed := true } (caller.after choice)
  | abortSent {choice : Bool} : Acts c n free choice .abortSend c .closePeer
  | cancelled {choice : Bool} (hclient : c.client = true) :
      Acts c n free choice .closePeer { c with cancelled := true } .closeLink
  | removed {choice : Bool} (hclient : c.client = false) (hmu : free = true) :
      Acts c n free choice .closePeer { c with mapped := false } .closeLink
  | linkShut {choice : Bool} : Acts c n free choice .closeLink c.shutLink .done
  | gaveUp {choice : Bool} : Acts c n free choice (.linkClose .giveUp) c.shutLink .done
  | announced {choice : Bool} :
      Acts c n free choice .announcing { c with full := false } .forwarding
  | announceFailed {choice : Bool} :
      Acts c n free choice .announcing c (.failSwap (if c.client then .giveUp else .reset))
  | received : Acts c n free true .forwarding c (.failSwap .receive)
  | lost : Acts c n free false .forwarding c .returned
  | ended {choice : Bool} : Acts c n free choice .returned c .done
  | clientDetached {choice : Bool} (hclient : c.client = true) :
      Acts c n free choice .returned { c with peer := false } .redialing
  | entryDetached {choice : Bool} (hclient : c.client = false) (hmu : free = true)
      (hmapped : c.mapped = true) :
      Acts c n free choice .returned { c with peer := false, entryPeer := false } .done
  | attached (hopen : c.linkClosed = false) :
      Acts c n free true .redialing { c with peer := true } .announcing
  | attachFailed (hsendable : c.sendable = true) :
      Acts c n free true .redialing c (.failSwap .giveUp)
  | graceOver : Acts c n free false .redialing c (.failSwap .giveUp)

theorem Conduit.acts_of_act {c c' : Conduit} {n : Nat} {free choice : Bool} {p p' : Point}
    (h : c.act n free choice p = some (c', p')) : Acts c n free choice p c' p' := by
  cases p with
  | done => cases h
  | writeLock =>
    obtain ⟨hfree, h⟩ := Option.ite_none_left_eq_some.mp h
    split at h
    · cases h
      exact .writeRefused
    rename_i hopen
    cases h
    simp only [Bool.or_eq_true, not_or, Bool.not_eq_true] at hopen
    exact .writeLocked (by simpa using hfree) hopen.2
  | writeWindow =>
    simp only [act] at h
    split at h
    next hclosed =>
      cases h
      exact .windowClosed hclosed
    next hopen =>
      split at h
      · cases h
      · cases h
        exact .windowOpen (by simpa using hopen)
  | writeSend =>
    simp only [act] at h
    split at h
    · cases h
      exact .writeSent
    · cases h
  | eofLock close =>
    obtain ⟨hfree, h⟩ := Option.ite_none_left_eq_some.mp h
    split at h
    · cases h
      exact .eofRefused
    rename_i hopen
    cases h
    exact .eofLocked (by simpa using hfree) (by simpa using hopen)
  | eofSend close =>
    simp only [act] at h
    split at h
    · cases h
      exact .eofSent
    · cases h
  | failSwap caller =>
    simp only [act] at h
    split at h
    next hclosed =>
      cases h
      exact .swapLost hclosed
    next hopen =>
      cases h
      exact .swapWon (by simpa using hopen)
  | failLock caller =>
    simp only [act] at h
    split at h
    · cases h
    · cases h
      exact .failLocked
  | abortSend =>
    simp only [act] at h
    split at h
    · cases h
      exact .abortSent
    · cases h
  | closePeer =>
    simp only [act] at h
    split at h
    next hclient =>
      cases h
      exact .cancelled hclient
    next hclient =>
      split at h
      next hmu =>
        cases h
        exact .removed (by simpa using hclient) hmu
      · cases h
  | closeLink =>
    cases h
    exact .linkShut
  | linkClose caller =>
    cases caller
    case giveUp =>
      cases h
      exact .gaveUp
    all_goals cases h
  | announcing =>
    obtain ⟨-, h⟩ := Option.ite_none_left_eq_some.mp h
    split at h
    · cases h
      exact .announced
    · cases h
      exact .announceFailed
  | forwarding =>
    cases h
    cases choice
    · exact .lost
    · exact .received
  | returned =>
    simp only [act] at h
    split at h
    next hclient =>
      split at h
      · cases h
        exact .ended
      · cases h
        exact .clientDetached hclient
    next hclient =>
      obtain ⟨hmu, h⟩ := Option.ite_none_left_eq_some.mp h
      split at h
      next hpeer =>
        cases h
        simp only [Bool.and_eq_true] at hpeer
        exact .entryDetached (by simpa using hclient) (by simpa using hmu) hpeer.1.1
      · cases h
        exact .ended
  | redialing =>
    simp only [act] at h
    cases choice with
    | false =>
      cases h
      exact .graceOver
    | true =>
      split at h
      next hopen =>
        cases h
        simp only [Bool.true_and, Bool.and_eq_true, Bool.not_eq_true'] at hopen
        exact .attached hopen.1
      next hfails =>
        cases h
        refine .attachFailed ?_
        unfold sendable
        revert hfails
        cases c.peer <;> cases c.linkClosed <;> simp

/-- `mu` is the owner of `l.mu`, `closed` the listener's flag. -/
structure Locking where
  threads : Nat → Thread := fun _ => {}
  threadCount : Nat := 0
  conduits : Nat → Conduit := fun _ => {}
  conduitCount : Nat := 0
  mu : Option Nat := none
  closed : Bool := false

namespace Locking

inductive Call where
  | write | closeWrite | close | reset
  deriving DecidableEq

def Call.start : Call → Point
  | .write => .writeLock
  | .closeWrite => .eofLock false
  | .close => .eofLock true
  | .reset => .failSwap .reset

inductive Event where
  | accept
  | connect
  | call (entry : Nat) (call : Call)
  | activate (entry : Nat)
  | expire (entry : Nat)
  | shutdown (order : List Nat)
  | acknowledge (entry : Nat)
  | thread (index : Nat) (choice : Bool)
  deriving DecidableEq

def move (s : Locking) (n e : Nat) (c : Conduit) (th : Thread) : Locking :=
  { s with
    threads := update s.threads n th
    conduits := update s.conduits e c }

def start (s : Locking) (e : Nat) (c : Conduit) (p : Point) : Locking :=
  { s.move s.threadCount e c ⟨e, p⟩ with threadCount := s.threadCount + 1 }

def bind (s : Locking) (client : Bool) : Locking :=
  { s.start s.conduitCount { client, keeper := s.threadCount } .forwarding with
    conduitCount := s.conduitCount + 1 }

def activate (s : Locking) (e : Nat) : Option Locking :=
  let c := s.conduits e
  if s.mu.isSome || s.closed then none
  else if decide (e < s.conduitCount) && !c.client && c.mapped && !c.entryPeer && !c.peer &&
      !c.linkClosed then
    some (s.start e { c with peer := true, entryPeer := true, keeper := s.threadCount } .announcing)
  else none

def expire (s : Locking) (e : Nat) : Option Locking :=
  let c := s.conduits e
  if s.mu.isSome then none
  else if decide (e < s.conduitCount) && !c.client && c.mapped && !c.entryPeer then
    some { s.start e { c with mapped := false } (.failSwap .expiry) with mu := some s.threadCount }
  else none

def Visits (s : Locking) (order : List Nat) : Prop :=
  order.Nodup ∧ (∀ e ∈ order, e < s.conduitCount) ∧ ∀ e, e < s.conduitCount →
    (e ∈ order ↔ (s.conduits e).client = false ∧ (s.conduits e).mapped = true)

instance (s : Locking) (order : List Nat) : Decidable (s.Visits order) :=
  inferInstanceAs (Decidable (_ ∧ _ ∧ _))

/-- `Listener.Close` enters its section and turns to the first stream. -/
def shutdown (s : Locking) (order : List Nat) : Option Locking :=
  if s.mu.isSome || s.closed then none
  else if s.Visits order then
    match order with
    | [] => some { s with closed := true }
    | e :: rest =>
      some { s.start e (s.conduits e) (.failSwap (.shutdown rest)) with
        mu := some s.threadCount
        closed := true }
  else none

/-- The callers that hold `l.mu` close the link and go on to the next stream or unlock. -/
def listClose (s : Locking) (n : Nat) : Caller → Option Locking
  | .expiry =>
    let e := (s.threads n).entry
    some { s.move n e (s.conduits e).shutLink ⟨e, .done⟩ with mu := none }
  | .shutdown rest =>
    let e := (s.threads n).entry
    let c := { (s.conduits e).shutLink with mapped := false }
    match rest with
    | [] => some { s.move n e c ⟨e, .done⟩ with mu := none }
    | e' :: rest => some (s.move n e c ⟨e', .failSwap (.shutdown rest)⟩)
  | _ => none

def thread (s : Locking) (n : Nat) (choice : Bool) : Option Locking :=
  let e := (s.threads n).entry
  match (s.threads n).point with
  | .linkClose .expiry => s.listClose n .expiry
  | .linkClose (.shutdown rest) => s.listClose n (.shutdown rest)
  | p =>
    ((s.conduits e).act n s.mu.isNone choice p).map fun (c, p) => s.move n e c ⟨e, p⟩

def step (s : Locking) : Event → Option Locking
  | .accept => if s.mu.isSome || s.closed then none else some (s.bind false)
  | .connect => some (s.bind true)
  | .call e call => if e < s.conduitCount then some (s.start e (s.conduits e) call.start) else none
  | .activate e => s.activate e
  | .expire e => s.expire e
  | .shutdown order => s.shutdown order
  | .acknowledge e =>
    if decide (e < s.conduitCount) && (s.conduits e).peer then
      some { s with conduits := update s.conduits e { s.conduits e with full := false } }
    else none
  | .thread n choice => s.thread n choice

end Locking

end P2PNetcat.NativeWebRTC
