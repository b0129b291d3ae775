import P2PNetcat.NativeWebRTC.ListenerHandshake

/-!
# What one step can change

The part of each step that matters to the other end. At the client: the frames
sent, the peers a dial has returned, and whether it may still dial again. At the
listener: the frames taken from a peer, how far its goroutine has come, and the
map of streams.
-/

namespace P2PNetcat.NativeWebRTC
open List Function ByteCodec StepSystem

/-- A later state of a dialled peer: it has sent more, it stays returned, and it has not sent
`AuthReady` without being returned. -/
structure ClientPeer.Extends (p p' : ClientPeer) : Prop where
  sent : p.sent ⊆ p'.sent
  returned : p.returned = true → p'.returned = true
  ready : ∀ frame ∈ p'.sent, frame.type = frameAuthReady → frame ∈ p.sent ∨ p'.returned = true

theorem ClientPeer.extends_same {p p' : ClientPeer} (hsent : p'.sent = p.sent)
    (hreturned : p'.returned = p.returned) : p.Extends p' :=
  ⟨hsent ▸ List.Subset.refl _, fun h => hreturned.trans h, fun _ h _ => .inl (hsent ▸ h)⟩

theorem ClientPeer.extends_send {p p' : ClientPeer} {frame : Frame}
    (hsent : p'.sent = p.sent ++ [frame]) (hreturned : p'.returned = p.returned)
    (hframe : frame.type ≠ frameAuthReady) : p.Extends p' := by
  refine ⟨fun f hf => ?_, fun h => hreturned.trans h, fun f hf hready => ?_⟩
  · rw [hsent]
    exact mem_append_left _ hf
  · rw [hsent, mem_append, mem_singleton] at hf
    rcases hf with hf | rfl
    · exact .inl hf
    · exact absurd hready hframe

theorem challenge_ne_ready : frameAuthChallenge ≠ frameAuthReady := by decide

theorem streamFrame_ne_ready (control : Bool) (payload : Bytes) :
    (if control then controlFrame payload else dataFrame payload).type ≠ frameAuthReady := by
  have hcontrol : frameControl ≠ frameAuthReady := by decide
  have hdata : frameData ≠ frameAuthReady := by decide
  cases control
  · exact hdata
  · exact hcontrol

def Supervisor.inDial : Supervisor → Bool
  | .dialing _ _ _ | .dialed _ => true
  | _ => false

namespace Client

def mayResume (c : Client) : Bool :=
  match c.supervisor with
  | .failed | .closing _ | .stopped => false
  | .rebinding _ | .forwarding _ | .returned _ => !c.cancelled
  | _ => true

def Redials (c : Client) : Prop := c.supervisor = .detached ∧ 0 < c.dials ∨ 1 < c.dials

structure Started (c : Client) : Prop where
  dialing : c.supervisor.inDial = true → 0 < c.dials
  first : c.dials = 0 → c.link = none
  unbound : c.supervisor.inDial = true → c.dials ≤ 1 → c.link = none

def Unanswered (c : Client) (k : Nat) : Prop :=
  c.dials ≤ k ∨
    ∃ d, c.supervisor = .dialing k d .offer ∨ c.supervisor = .dialing k d .answer

structure Effect (c t : Client) (e : Event) : Prop where
  peers : ∀ k, (c.peers k).Extends (t.peers k) ∨ c.dials ≤ k ∧ (t.peers k).sent = []
  dials : t.dials = c.dials ∨ c.supervisor = .detached ∧ t.dials = c.dials + 1
  ended : c.mayResume = false → t.mayResume = false ∧
    ∀ k, (t.peers k).returned = true → (c.peers k).returned = true
  started : c.Started → t.Started
  redials : c.Started → t.Redials → c.Redials ∨ e = .detach ∧ c.cancelled = false
  unanswered : (∀ value, e ≠ .signal value true) → ∀ k, t.Unanswered k → c.Unanswered k

theorem extends_setPeer {c : Client} {k : Nat} {p : ClientPeer} (hp : (c.peers k).Extends p)
    (j : Nat) : (c.peers j).Extends ((c.setPeer k p).peers j) := by
  by_cases heq : j = k
  · subst heq
    simpa [setPeer] using hp
  · simp only [setPeer, update_of_ne heq]
    exact ClientPeer.extends_same rfl rfl

section Moves
variable {L : Libp2p} {cfg : ClientConfig} {c t : Client} {e : Event} {p : ClientPeer} {k : Nat}

theorem Effect.setPeer (hsent : (c.peers k).Extends p)
    (hreturned : p.returned = (c.peers k).returned) : Effect c (c.setPeer k p) e := by
  refine ⟨fun j => .inl (extends_setPeer hsent j), .inl rfl, fun h => ⟨h, fun j hj => ?_⟩,
    fun h => ⟨h.dialing, h.first, h.unbound⟩, fun _ h => .inl h, fun _ _ h => h⟩
  by_cases heq : j = k
  · subst heq
    simpa [Client.setPeer, hreturned] using hj
  · simpa [Client.setPeer, update_of_ne heq] using hj

theorem Effect.dialStep {d : Dial} {now : DialPoint} {sup : Supervisor}
    (hs : c.supervisor = .dialing k d now) (hp : (c.peers k).Extends p)
    (hsup : sup.inDial = true ∨ sup = (if c.link.isSome then .detached else .stopped))
    (hanswer : (∀ value, e ≠ .signal value true) → ∀ d',
      sup = .dialing k d' .offer ∨ sup = .dialing k d' .answer → now = .offer ∨ now = .answer)
    (hsame : ∀ j d' now', sup = .dialing j d' now' → j = k) :
    Effect c { c.setPeer k p with supervisor := sup } e := by
  refine ⟨fun j => .inl (extends_setPeer hp j), .inl rfl, fun h => ?_, fun h => ?_, fun h hr => ?_,
    fun he j hj => ?_⟩
  · simp [mayResume, hs] at h
  · have hdial := h.dialing (by rw [hs]; rfl)
    refine ⟨fun _ => hdial, h.first, fun _ hle => h.unbound (by rw [hs]; rfl) hle⟩
  · rcases hr with ⟨hdetached, hpos⟩ | hmany
    · refine .inl (.inr ?_)
      by_contra hle
      have hnone := h.unbound (by rw [hs]; rfl) (Nat.not_lt.mp hle)
      change sup = .detached at hdetached
      rcases hsup with hin | hfail
      · rw [hdetached] at hin
        cases hin
      · rw [hdetached, hnone] at hfail
        cases hfail
    · exact .inl (.inr hmany)
  · rcases hj with hj | ⟨d', hj⟩
    · exact .inl hj
    · have heq : j = k := by
        rcases hj with hj | hj
        · exact hsame _ _ _ hj
        · exact hsame _ _ _ hj
      subst heq
      rcases hanswer he d' hj with rfl | rfl
      · exact .inr ⟨d, .inl hs⟩
      · exact .inr ⟨d, .inr hs⟩

theorem Effect.dialFailed {d : Dial} {now : DialPoint}
    (hs : c.supervisor = .dialing k d now) (hp : (c.peers k).Extends p) :
    Effect c ((c.setPeer k p).dialFailed k) e := by
  have hclose : (c.peers k).Extends p.close := ⟨hp.sent, hp.returned, hp.ready⟩
  rw [dialFailed_setPeer]
  refine Effect.dialStep hs hclose (.inr rfl) (fun _ d' h => ?_) (fun j d' now' h => ?_)
  · rcases h with h | h <;> split at h <;> cases h
  · split at h <;> cases h

theorem Effect.move (hpeers : ∀ k, (c.peers k).Extends (t.peers k))
    (hreturned : ∀ k, (t.peers k).returned = (c.peers k).returned) (hdials : t.dials = c.dials)
    (hended : c.mayResume = false → t.mayResume = false)
    (hdial : t.supervisor.inDial = true → t.supervisor = c.supervisor)
    (hlink : t.link = none ∨ c.link.isSome ∨ c.supervisor.inDial = true ∧ t.supervisor.inDial = false)
    (hdetached : t.supervisor = .detached →
      c.supervisor = .detached ∨ e = .detach ∧ c.cancelled = false) : Effect c t e := by
  refine ⟨fun k => .inl (hpeers k), .inl hdials,
    fun h => ⟨hended h, fun k hk => (hreturned k).symm.trans hk⟩, fun h => ⟨?_, ?_, ?_⟩, fun h hr => ?_,
    fun _ k hk => ?_⟩
  · intro hin
    rw [hdials]
    exact h.dialing (hdial hin ▸ hin)
  · intro hzero
    rw [hdials] at hzero
    rcases hlink with hnone | hsome | ⟨hin, _⟩
    · exact hnone
    · rw [h.first hzero] at hsome
      cases hsome
    · have := h.dialing hin
      omega
  · intro hin hle
    rw [hdials] at hle
    have hin' := hdial hin ▸ hin
    rcases hlink with hnone | hsome | ⟨_, hout⟩
    · exact hnone
    · rw [h.unbound hin' hle] at hsome
      cases hsome
    · rw [hin] at hout
      cases hout
  · rcases hr with ⟨hd, hpos⟩ | hmany
    · rw [hdials] at hpos
      exact (hdetached hd).imp (fun hold => .inl ⟨hold, hpos⟩) id
    · exact .inl (.inr (hdials ▸ hmany))
  · rcases hk with hk | ⟨d, hk⟩
    · exact .inl (hdials ▸ hk)
    · refine .inr ⟨d, ?_⟩
      rcases hk with hk | hk
      · exact .inl ((hdial (by rw [hk]; rfl)).symm.trans hk)
      · exact .inr ((hdial (by rw [hk]; rfl)).symm.trans hk)

theorem Effect.dial {sessionID : Bytes} (hs : c.supervisor = .detached) :
    Effect c { c.setPeer c.dials { sessionID } with
      dials := c.dials + 1
      supervisor := .dialing c.dials { sessionID } .offer } e := by
  refine ⟨fun k => ?_, .inr ⟨hs, rfl⟩, fun h => ?_, fun h => ⟨?_, ?_, ?_⟩, fun _ hr => ?_,
    fun _ k hk => ?_⟩
  · by_cases heq : k = c.dials
    · exact .inr ⟨by omega, by simp [Client.setPeer, heq]⟩
    · refine .inl (ClientPeer.extends_same ?_ ?_) <;>
        simp [Client.setPeer, update_of_ne heq]
  · simp [mayResume, hs] at h
  · exact fun _ => Nat.succ_pos _
  · exact fun hzero => absurd hzero (Nat.succ_ne_zero _)
  · exact fun _ hle => h.first (by simpa using hle)
  · rcases hr with ⟨hd, _⟩ | hmany
    · cases hd
    · exact .inl (.inl ⟨hs, Nat.lt_of_succ_lt_succ hmany⟩)
  · rcases hk with hk | ⟨d, hk | hk⟩
    · exact .inl (Nat.le_of_succ_le hk)
    · cases hk
      exact .inl (Nat.le_refl _)
    · cases hk

theorem Effect.forward {stream : Stream} {err : Option ForwardError}
    (hs : c.supervisor = .forwarding k) (hsent : p.sent = (c.peers k).sent)
    (hreturned : p.returned = (c.peers k).returned) :
    Effect c { c.setPeer k p with
      stream
      supervisor := if err.isSome then .returned k else .forwarding k } e := by
  refine Effect.move (fun j => extends_setPeer (ClientPeer.extends_same hsent hreturned) j)
    (fun j => ?_) rfl (fun h => ?_) (fun h => ?_) ?_ (fun h => ?_)
  · by_cases heq : j = k
    · subst heq
      simpa [Client.setPeer] using hreturned
    · simp [Client.setPeer, update_of_ne heq]
  · simp only [mayResume, hs] at h
    cases err <;> exact h
  · cases err <;> cases h
  · cases hl : c.link with
    | none => exact .inl hl
    | some link => exact .inr (.inl rfl)
  · cases err <;> cases h

theorem Effect.control {link : Option PeerLink} {stream : Stream} {sup : Supervisor}
    {closer : Closer} {cancelled : Bool} (hcancelled : c.cancelled = true → cancelled = true)
    (hlink : c.link = none → link = none)
    (hsup : sup = c.supervisor ∨ sup.inDial = false ∧
      (c.mayResume = false →
        mayResume { c with link, stream, supervisor := sup, closer, cancelled } = false) ∧
      (sup = .detached → e = .detach ∧ c.cancelled = false)) :
    Effect c { c with link, stream, supervisor := sup, closer, cancelled } e := by
  refine Effect.move (fun _ => ClientPeer.extends_same rfl rfl) (fun _ => rfl) rfl (fun h => ?_)
    (fun h => ?_) ?_ (fun h => ?_)
  · rcases hsup with rfl | ⟨_, hended, _⟩
    · unfold mayResume at h ⊢
      dsimp only
      split <;> simp_all
    · exact hended h
  · rcases hsup with rfl | ⟨hout, _⟩
    · rfl
    · change sup.inDial = true at h
      rw [hout] at h
      cases h
  · cases hl : c.link with
    | none => exact .inl (hlink hl)
    | some link => exact .inr (.inl rfl)
  · rcases hsup with rfl | ⟨_, _, hdetach⟩
    · exact .inl h
    · exact .inr (hdetach h)

theorem Effect.closeTaken (taken : Option Nat) (sup : Supervisor) (closer : Closer)
    (hsup : sup = c.supervisor ∨ sup = .stopped) :
    Effect c { c.closeTaken taken with supervisor := sup, closer } e := by
  have hpeers : ∀ j, ((c.closeTaken taken).peers j).sent = (c.peers j).sent ∧
      ((c.closeTaken taken).peers j).returned = (c.peers j).returned := by
    intro j
    cases taken with
    | none => exact ⟨rfl, rfl⟩
    | some k =>
      by_cases heq : j = k
      · subst heq
        simp [Client.closeTaken, closePeer, Client.setPeer, ClientPeer.close]
      · simp [Client.closeTaken, closePeer, Client.setPeer, update_of_ne heq]
  have hsame : (c.closeTaken taken).dials = c.dials ∧ (c.closeTaken taken).link = c.link ∧
      (c.closeTaken taken).cancelled = c.cancelled := by
    cases taken <;> exact ⟨rfl, rfl, rfl⟩
  refine Effect.move (fun j => ClientPeer.extends_same (hpeers j).1 (hpeers j).2)
    (fun j => (hpeers j).2) hsame.1 (fun h => ?_) (fun h => ?_) ?_ (fun h => ?_)
  · rcases hsup with rfl | rfl
    · unfold mayResume at h ⊢
      dsimp only
      rw [hsame.2.2]
      exact h
    · rfl
  · rcases hsup with rfl | rfl
    · rfl
    · cases h
  · dsimp only
    rw [hsame.2.1]
    cases hl : c.link with
    | none => exact .inl rfl
    | some link => exact .inr (.inl rfl)
  · rcases hsup with rfl | rfl
    · exact .inl h
    · cases h

theorem effect_of_moved (hmoved : Moved L cfg c e t) : Effect c t e := by
  cases hmoved with
  | message | lose => exact Effect.setPeer (ClientPeer.extends_same rfl rfl) rfl
  | dial hs => exact Effect.dial hs
  | publishOffer hs =>
    refine Effect.dialStep hs (ClientPeer.extends_same rfl rfl) (.inl rfl) (fun _ _ _ => .inl rfl)
      (fun _ _ _ h => ?_)
    cases h
    rfl
  | passed => exact Effect.control id id (.inl rfl)
  | @answered value _ _ hs =>
    refine Effect.dialStep hs (ClientPeer.extends_same rfl rfl) (.inl rfl)
      (fun he => absurd rfl (he value)) (fun _ _ _ h => ?_)
    cases h
    rfl
  | opened hs =>
    refine Effect.dialStep hs (ClientPeer.extends_send rfl rfl challenge_ne_ready) (.inl rfl)
      (fun _ _ h => ?_) (fun _ _ _ h => ?_)
    · rcases h with h | h <;> cases h
    · cases h
      rfl
  | verified hs =>
    refine Effect.dialStep hs ⟨fun f hf => ?_, fun _ => rfl, fun _ _ _ => .inr rfl⟩ (.inl rfl)
      (fun _ _ h => ?_) (fun _ _ _ h => ?_)
    · exact mem_append_left _ hf
    · rcases h with h | h <;> cases h
    · cases h
  | dialFailed hs => exact Effect.dialFailed hs (ClientPeer.extends_same rfl rfl)
  | @bound k sup hs hsup =>
    have hout : sup.inDial = false ∧ sup ≠ .detached := by
      rcases hsup with rfl | rfl <;> simp [Supervisor.inDial]
    refine Effect.move (fun _ => ClientPeer.extends_same rfl rfl) (fun _ => rfl) rfl
      (fun h => ?_) (fun h => ?_) (.inr (.inr ⟨by rw [hs]; rfl, hout.1⟩))
      (fun h => absurd h hout.2)
    · simp [mayResume, hs] at h
    · exact absurd h (by simp [hout.1])
  | refused => exact Effect.control id id (.inr ⟨rfl, fun _ => rfl, (by rintro ⟨⟩)⟩)
  | reconnected hs hsup =>
    rcases hsup with rfl | rfl
    · exact Effect.control id id (.inr ⟨rfl, fun h => by simpa [mayResume, hs] using h, (by rintro ⟨⟩)⟩)
    · exact Effect.control id id (.inr ⟨rfl, fun _ => rfl, (by rintro ⟨⟩)⟩)
  | forward hs => exact Effect.forward hs rfl rfl
  | ended => exact Effect.control id id (.inr ⟨rfl, fun _ => rfl, (by rintro ⟨⟩)⟩)
  | detach hs hlive =>
    refine Effect.control id (fun h => by simp [h]) (.inr ⟨rfl, fun h => ?_, fun _ => ⟨rfl, hlive⟩⟩)
    simp [mayResume, hs, hlive] at h
  | giveUp => exact Effect.control id id (.inr ⟨rfl, fun _ => rfl, (by rintro ⟨⟩)⟩)
  | closeLink _ hl =>
    exact Effect.control id (fun h => by simp [hl] at h) (.inr ⟨rfl, fun _ => rfl, (by rintro ⟨⟩)⟩)
  | closeTaken => exact Effect.closeTaken _ _ _ (.inr rfl)
  | cancel => exact Effect.control (fun _ => rfl) id (.inl rfl)
  | cancelLink _ hl => exact Effect.control id (fun h => by simp [hl] at h) (.inl rfl)
  | @cancelTaken taken => exact Effect.closeTaken taken _ _ (.inl (by cases taken <;> rfl))
  | fail => exact Effect.control id id (.inl rfl)
  | @send control =>
    exact Effect.setPeer (ClientPeer.extends_send rfl rfl (streamFrame_ne_ready control _)) rfl

theorem effect_of_step (ht : c.step L cfg e = some t) : Effect c t e :=
  effect_of_moved (moved_of_step ht)

end Moves

end Client

def ServerPoint.waiting : ServerPoint → Bool
  | .authenticating _ | .accepted => true
  | _ => false

def ServerPeer.Saw (p : ServerPeer) (frame : Frame) : Prop :=
  frame ∈ p.peer.frames ∨ frame ∈ p.dequeued

structure ServerPeer.Follows (p p' : ServerPeer) : Prop where
  offer : p'.offer = p.offer
  waiting : p'.point.waiting = true → p.point.waiting = true ∨ p.point = .answering
  answered : p.point ≠ .answering → p'.point ≠ .answering

theorem ServerPeer.Follows.trans {p q r : ServerPeer} (h : p.Follows q) (h' : q.Follows r) :
    p.Follows r := by
  refine ⟨h'.offer.trans h.offer, fun hr => ?_, fun hp => h'.answered (h.answered hp)⟩
  rcases h'.waiting hr with hq | hq
  · exact h.waiting hq
  by_contra hne
  simp only [not_or] at hne
  exact h.answered hne.2 hq

structure ServerPeer.Keeps (p p' : ServerPeer) : Prop extends p.Follows p' where
  saw : ∀ frame, p'.Saw frame → p.Saw frame

theorem ServerPeer.Keeps.refl (p : ServerPeer) : p.Keeps p := ⟨⟨rfl, .inl, id⟩, fun _ => id⟩

theorem ServerPeer.Keeps.trans {p q r : ServerPeer} (h : p.Keeps q) (h' : q.Keeps r) : p.Keeps r :=
  ⟨h.toFollows.trans h'.toFollows, fun frame hr => h.saw frame (h'.saw frame hr)⟩

namespace Listener

/-- The step takes the stream of a remote out of the map: a grace callback that finds it without
a peer, or a `closePeer` callback. -/
def Removes (l : Listener) (ev : Event) (e : Nat) : Prop :=
  ev = .expire e ∧ (l.entries e).peer = none ∨
    ∃ n, ev = .closer n ∧ (l.closers n).entry = e ∧ (l.closers n).point = .start

def Creates (l : Listener) (ev : Event) (remote : Bytes) : Prop :=
  ∃ i stopped, ev = .activate i stopped ∧ (l.peers i).point = .accepted ∧
    (l.peers i).offer.sender = remote ∧ l.closed = false ∧ l.streams remote = none

structure Effect (l t : Listener) (ev : Event) : Prop where
  count : t.peerCount = l.peerCount ∨
    ∃ value, ev = .offer value ∧ t.peerCount = l.peerCount + 1 ∧
      t.peers l.peerCount = { offer := value }
  peers : ∀ i, i < l.peerCount → (l.peers i).Follows (t.peers i)
  saw : ∀ i, i < l.peerCount → (∀ data pick, ev ≠ .message i data pick) →
    ∀ frame, (t.peers i).Saw frame → (l.peers i).Saw frame
  closed : l.closed = true → t.closed = true
  streams : ∀ remote, t.streams remote = l.streams remote ∨
    t.streams remote = none ∧ t.closed = true ∨
    t.streams remote = none ∧ (∃ e, l.streams remote = some e ∧ l.Removes ev e) ∨
    t.streams remote = some l.entryCount ∧ l.Creates ev remote

section Moves
variable {L : Libp2p} {cfg : ListenerConfig L} {l t : Listener} {ev : Event}
variable {p : ServerPeer} {i : Nat}

theorem keeps_setPeer (hp : (l.peers i).Keeps p) (j : Nat) :
    (l.peers j).Keeps ((l.setPeer i p).peers j) := by
  by_cases heq : j = i
  · subst heq
    simpa [setPeer] using hp
  · simp only [setPeer, update_of_ne heq]
    exact .refl _

theorem Effect.of_keeps (hpeers : ∀ i, (l.peers i).Keeps (t.peers i))
    (hcount : t.peerCount = l.peerCount) (hclosed : t.closed = l.closed)
    (hstreams : ∀ remote, t.streams remote = l.streams remote ∨
      t.streams remote = none ∧ ∃ e, l.streams remote = some e ∧ l.Removes ev e) :
    Effect l t ev where
  count := .inl hcount
  peers := fun i _ => (hpeers i).toFollows
  saw := fun i _ _ => (hpeers i).saw
  closed := fun h => hclosed.trans h
  streams := fun remote => (hstreams remote).imp id fun h => .inr (.inl h)

theorem Effect.peer (hpeers : t.peers = (l.setPeer i p).peers)
    (hcount : t.peerCount = l.peerCount) (hclosed : t.closed = l.closed)
    (hstreams : t.streams = l.streams) (hp : (l.peers i).Keeps p) : Effect l t ev :=
  .of_keeps (fun j => hpeers ▸ keeps_setPeer hp j) hcount hclosed fun r => .inl (congrFun hstreams r)

theorem Effect.other (hpeers : t.peers = l.peers) (hcount : t.peerCount = l.peerCount)
    (hclosed : t.closed = l.closed) (hstreams : t.streams = l.streams) : Effect l t ev :=
  .of_keeps (fun _ => hpeers ▸ .refl _) hcount hclosed fun r => .inl (congrFun hstreams r)

theorem closeTaken_peer (l : Listener) (taken : Option Nat) (i : Nat) :
    (l.peers i).Keeps ((l.closeTaken taken).peers i) := by
  cases taken with
  | none => exact .refl _
  | some j =>
    have hclose : (l.peers j).Keeps (l.peers j).close := ⟨⟨rfl, .inl, id⟩, fun _ => id⟩
    exact keeps_setPeer hclose i

theorem terminate_peers (l : Listener) (e : Nat) (err : String) :
    (l.terminate e err).peers = (l.closeTaken (l.entries e).link.close.2).peers := by
  unfold terminate
  rw [setEntry_closeTaken]
  rfl

theorem terminate_peer (l : Listener) (e : Nat) (err : String) (i : Nat) :
    (l.peers i).Keeps ((l.terminate e err).peers i) := by
  rw [terminate_peers]
  exact closeTaken_peer l _ i

theorem terminate_closed (l : Listener) (e : Nat) (err : String) :
    (l.terminate e err).closed = l.closed := by
  simp [terminate, delete, setEntry]

theorem terminate_peerCount (l : Listener) (e : Nat) (err : String) :
    (l.terminate e err).peerCount = l.peerCount := by
  simp [terminate, delete, setEntry]

theorem terminate_streams (l : Listener) (e : Nat) (err : String) :
    (l.terminate e err).streams = update l.streams (l.entries e).remote none := by
  simp [terminate, delete, setEntry]

theorem streams_of_remove {e : Nat} (hheld : l.holds e = true)
    (hstreams : t.streams = update l.streams (l.entries e).remote none) (remote : Bytes) :
    t.streams remote = l.streams remote ∨ t.streams remote = none ∧ l.streams remote = some e := by
  rw [hstreams]
  by_cases heq : remote = (l.entries e).remote
  · refine .inr ⟨by simp [heq], ?_⟩
    rw [heq]
    simpa [holds] using hheld
  · exact .inl (update_of_ne heq _ _)

theorem Effect.offer (value : Signal) : Effect l (l.offer value) (.offer value) := by
  have hother : ∀ i, i < l.peerCount → (l.offer value).peers i = l.peers i := by
    intro i hi
    have hne : i ≠ l.peerCount := by omega
    simp [Listener.offer, setPeer, update_of_ne hne]
  refine ⟨.inr ⟨value, rfl, rfl, by simp [Listener.offer, setPeer]⟩, fun i hi => ?_,
    fun i hi _ frame h => ?_, id, fun _ => .inl rfl⟩
  · rw [hother i hi]
    exact ⟨rfl, .inl, id⟩
  · rwa [hother i hi] at h

theorem Effect.handshakeFailed (hoffer : p.offer = (l.peers i).offer)
    (hsaw : ∀ frame, p.Saw frame → (l.peers i).Saw frame) :
    Effect l (l.handshakeFailed i p) ev :=
  Effect.peer rfl rfl rfl rfl ⟨⟨hoffer, nofun, fun _ => nofun⟩, hsaw⟩

theorem saw_taking {frame : Frame} {rest : List Frame}
    (hframes : (l.peers i).peer.frames = frame :: rest) (f : Frame) (hf : (l.taking i frame rest).Saw f) : (l.peers i).Saw f := by
  rcases hf with hf | hf
  · exact .inl (by rw [hframes]; exact mem_cons_of_mem _ hf)
  rcases mem_append.mp hf with hf | hf
  · exact .inr hf
  · exact .inl (by simp [hframes, mem_singleton.mp hf])

theorem activate_creates {stopped : Bool} {remote : Bytes}
    (h : l.Creates (.activate i stopped) remote) (ht : l.activate i stopped = some t) :
    t.streams remote = some l.entryCount := by
  obtain ⟨j, _, hev, hp, rfl, hopen, hnone⟩ := h
  cases hev
  simp only [Listener.activate, hp, hopen, hnone, Bool.false_eq_true, if_false,
    Option.some.injEq] at ht
  subst ht
  simp

theorem saw_forwarded {pick : ForwardCase} {stream stream' : Stream} {peer : NativePeer}
    {replies : List Bytes} {err : Option ForwardError}
    (hturn : forwardFrames (l.peers i).peer stream pick = some (peer, stream', replies, err))
    (hpeer : p.peer = peer)
    (hdequeued : p.dequeued = (l.peers i).dequeued ++ takenFrames (l.peers i).peer peer)
    (frame : Frame) (h : p.Saw frame) : (l.peers i).Saw frame := by
  rw [ServerPeer.Saw, hpeer, hdequeued] at h
  obtain ⟨first, rest, _, hq, rfl, _, _, htaken⟩ | ⟨_, _, rfl, _, _, htaken⟩ :=
    forwardFrames_cases hturn
  · rcases h with h | h
    · exact .inl (by rw [hq]; exact mem_cons_of_mem _ h)
    · rw [htaken, mem_append, mem_singleton] at h
      rcases h with h | rfl
      · exact .inr h
      · exact .inl (by simp [hq])
  · rw [htaken, append_nil] at h
    exact h

theorem Effect.expired {e : Nat} (hheld : l.holds e = true) (hnone : (l.entries e).peer = none) :
    Effect l ((l.setEntry e { l.entries e with pending := (l.entries e).pending - 1 }).terminate e
      "native WebRTC peer did not reconnect within 120 seconds") (.expire e) := by
  generalize hpending : l.setEntry e { l.entries e with pending := (l.entries e).pending - 1 } = l'
  have hsame : l'.peers = l.peers ∧ l'.peerCount = l.peerCount ∧ l'.closed = l.closed ∧
      l'.streams = l.streams ∧ (l'.entries e).remote = (l.entries e).remote := by
    subst hpending
    exact ⟨rfl, rfl, rfl, rfl, by simp [setEntry]⟩
  obtain ⟨hpeers, hcount, hclosed, hstreams, hremote⟩ := hsame
  refine .of_keeps (fun i => ?_) (by rw [terminate_peerCount, hcount])
    (by rw [terminate_closed, hclosed]) fun remote => ?_
  · rw [← hpeers]
    exact terminate_peer l' e _ i
  · have hgone : (l'.terminate e "native WebRTC peer did not reconnect within 120 seconds").streams =
        update l.streams (l.entries e).remote none := by
      rw [terminate_streams, hstreams, hremote]
    rcases streams_of_remove hheld hgone remote with hkept | ⟨hgone, hstream⟩
    · exact .inl hkept
    · exact .inr ⟨hgone, e, hstream, .inl ⟨rfl, hnone⟩⟩

theorem terminateAll_peer (order : List Nat) (l : Listener) (i : Nat) :
    (l.peers i).Keeps ((terminateAll order l).peers i) ∧
    (terminateAll order l).peerCount = l.peerCount ∧
    (terminateAll order l).closed = l.closed := by
  refine terminateAll_invariant (I := fun t => (l.peers i).Keeps (t.peers i) ∧
    t.peerCount = l.peerCount ∧ t.closed = l.closed) ?_ order ⟨.refl _, rfl, rfl⟩
  rintro t e err ⟨hkeeps, hcount, hclosed⟩ -
  exact ⟨hkeeps.trans (terminate_peer t e err i), (terminate_peerCount _ _ _).trans hcount,
    (terminate_closed _ _ _).trans hclosed⟩

theorem terminateAll_streams (order : List Nat) (l : Listener) (remote : Bytes) :
    (terminateAll order l).streams remote = l.streams remote ∨
      (terminateAll order l).streams remote = none := by
  refine terminateAll_invariant
    (I := fun t => t.streams remote = l.streams remote ∨ t.streams remote = none) ?_ order (.inl rfl)
  rintro t e err hkept hheld
  rcases streams_of_remove hheld (terminate_streams t e err) remote with hsame | ⟨hnone, -⟩
  · rw [hsame]
    exact hkept
  · exact .inr hnone

theorem Effect.shutdown (order : List Nat) :
    Effect l (terminateAll order { l with closed := true }) ev := by
  have hall := terminateAll_peer order { l with closed := true }
  exact ⟨.inl (hall 0).2.1, fun i _ => (hall i).1.toFollows, fun i _ _ => (hall i).1.saw,
    fun _ => (hall 0).2.2, fun remote => (terminateAll_streams order _ remote).imp id
      fun hnone => .inl ⟨hnone, (hall 0).2.2⟩⟩

theorem effect_of_step (ht : l.step L cfg ev = some t) : Effect l t ev := by
  cases stepped_of_step ht with
  | @message i data pickClosed =>
    refine ⟨.inl rfl, fun j _ => ?_, fun j _ hne frame h => ?_, id, fun _ => .inl rfl⟩
    · by_cases heq : j = i
      · subst heq
        simp only [setPeer, update_self]
        exact ⟨rfl, .inl, id⟩
      · simp only [setPeer, update_of_ne heq]
        exact ⟨rfl, .inl, id⟩
    · have hother : j ≠ i := by
        rintro rfl
        exact hne data pickClosed rfl
      simpa [setPeer, update_of_ne hother] using h
  | lose | sent => exact .peer rfl rfl rfl rfl ⟨⟨rfl, .inl, id⟩, fun _ => id⟩
  | offer => exact .offer _
  | answer hp =>
    exact .peer rfl rfl rfl rfl ⟨⟨rfl, fun _ => .inr hp, fun _ => (by rintro ⟨⟩)⟩, fun _ => id⟩
  | responded hp hframes | accepted hp hframes =>
    exact .peer rfl rfl rfl rfl
      ⟨⟨rfl, fun _ => .inl (by rw [hp]; rfl), fun _ => (by rintro ⟨⟩)⟩, saw_taking hframes⟩
  | denied hp hframes => exact .handshakeFailed rfl (saw_taking hframes)
  | abandoned => exact .handshakeFailed rfl fun _ h => h
  | observed | refused | attached | closedRefused | rebound | reset | finished | detached =>
    exact .peer rfl rfl rfl rfl ⟨⟨rfl, (by rintro ⟨⟩), fun _ => (by rintro ⟨⟩)⟩, fun _ => id⟩
  | @created i stopped hp hopen hnone =>
    have hkeeps : (l.peers i).Keeps { l.peers i with point := .forwarding l.entryCount } :=
      ⟨⟨rfl, (by rintro ⟨⟩), fun _ => (by rintro ⟨⟩)⟩, fun _ => id⟩
    refine ⟨.inl rfl, fun j _ => (keeps_setPeer hkeeps j).toFollows,
      fun j _ _ => (keeps_setPeer hkeeps j).saw, id, fun remote => ?_⟩
    by_cases heq : remote = (l.peers i).offer.sender
    · subst heq
      exact .inr (.inr (.inr ⟨by simp, i, stopped, rfl, hp, rfl, hopen, hnone⟩))
    · exact .inl (by simp [update_of_ne heq])
  | @forwarded i e _ peer _ _ err hp hturn =>
    refine .peer rfl rfl rfl rfl ⟨⟨rfl, fun h => ?_, fun _ h => ?_⟩, saw_forwarded hturn rfl rfl⟩
    · cases err <;> cases h
    · cases err <;> cases h
  | expired hheld hnone => exact .expired hheld hnone
  | lapsed | closing | linkClosed | failed => exact .other rfl rfl rfl rfl
  | @unlinked n hp =>
    split
    next hheld =>
      refine .of_keeps (fun _ => .refl _) rfl rfl fun remote => ?_
      have hgone : ((l.setCloser n ⟨(l.closers n).entry, .unlinked⟩).delete (l.closers n).entry).streams =
          update l.streams (l.entries (l.closers n).entry).remote none := rfl
      rcases streams_of_remove hheld hgone remote with hkept | ⟨hnone, hstream⟩
      · exact .inl hkept
      · exact .inr ⟨hnone, _, hstream, .inr ⟨n, rfl, rfl, hp⟩⟩
    · exact .other rfl rfl rfl rfl
  | @peerClosed n taken =>
    exact .of_keeps (closeTaken_peer l taken) (by simp [setCloser]) (by simp [setCloser])
      fun remote => .inl (by simp [setCloser])
  | shutdown => exact .shutdown _

end Moves

end Listener

end P2PNetcat.NativeWebRTC
