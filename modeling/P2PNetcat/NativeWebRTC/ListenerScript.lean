import P2PNetcat.Library.ScriptMap
import P2PNetcat.Library.StepSystem

/-!
# The listener in JavaScript

`startNativeWebRtcListener` answers offers up to two limits, and keeps the candidates that arrive
before their offer, or before the description of the offer is applied.
-/

namespace P2PNetcat.NativeWebRTC
open List Function StepSystem

def maxListenerAttempts : Nat := 64
def maxListenerAttemptsPerPeer : Nat := 4
def maxPendingCandidateSessions : Nat := 128
def maxPendingCandidatesPerAttempt : Nat := 32

def listenerLimitError : String := "Native WebRTC listener is at its pending connection limit"
def peerLimitError : String := "Native WebRTC peer has too many pending connections"

structure ScriptSession where
  name : String
  trickleIce : Bool

inductive ListenerSignal (C : Type) where
  | offer
  | answer
  | candidate (candidate : Option C)
  | bye

structure ListenerMessage (C : Type) where
  type : ListenerSignal C
  fromId : String
  sessionId : String

def attemptKey (session : ScriptSession) (remoteId sessionId : String) : String :=
  session.name ++ "\x00" ++ remoteId ++ "\x00" ++ sessionId

/-- An entry of `attempts`, with its peer and the flags of the call of `answerOffer` that made it:
`described` says that the remote description is set, `answered` that `peer.signal(offer)` is over. -/
structure ListenerAttempt (C : Type) where
  remoteId : String
  described : Bool := false
  answered : Bool := false
  challengeAnswered : Bool := false
  authenticated : Bool := false
  pendingCandidates : List C := []

structure PendingCandidates (C : Type) where
  messages : List (Option C)
  timer : Nat

/-- `timers` are the live ones that forget candidates, `answering` the calls of `answerOffer` whose
peer was closed before `peer.signal(offer)` was over. -/
structure ScriptListener (C : Type) where
  closed : Bool := false
  attempts : ScriptMap String (ListenerAttempt C) := .empty
  pendingCandidates : ScriptMap String (PendingCandidates C) := .empty
  timers : Nat → Option String := fun _ => none
  nextTimer : Nat := 0
  answering : List String := []

inductive ScriptListenerEvent (C : Type) where
  | message (session : ScriptSession) (message : ListenerMessage C)
  | described (key : String)
  | answered (key : String)
  | answeredClosed (key : String)
  | challenge (key : String)
  | ready (key : String) (taken : Bool)
  | lost (key : String)
  | expire (timer : Nat)
  | stop
  | clear

namespace ScriptListener
variable {C : Type}

def forgetPendingCandidates (s : ScriptListener C) (key : String) : ScriptListener C :=
  match s.pendingCandidates.get key with
  | none => s
  | some pending => { s with
      timers := update s.timers pending.timer none
      pendingCandidates := s.pendingCandidates.delete key }

def evictOldest (s : ScriptListener C) : ScriptListener C :=
  match s.pendingCandidates.entries with
  | (oldestKey, _) :: _ =>
    if s.pendingCandidates.entries.length ≥ maxPendingCandidateSessions then
      s.forgetPendingCandidates oldestKey
    else s
  | [] => s

def startPending (s : ScriptListener C) (key : String) : ScriptListener C := { s with
  timers := update s.timers s.nextTimer (some key)
  nextTimer := s.nextTimer + 1
  pendingCandidates := s.pendingCandidates.set key ⟨[], s.nextTimer⟩ }

def pushPending (s : ScriptListener C) (key : String) (message : Option C) : ScriptListener C :=
  match s.pendingCandidates.get key with
  | none => s
  | some pending =>
    if pending.messages.length < maxPendingCandidatesPerAttempt then { s with
      pendingCandidates :=
        s.pendingCandidates.set key { pending with messages := pending.messages ++ [message] } }
    else s

def queuePendingCandidate (s : ScriptListener C) (key : String) (message : Option C) :
    ScriptListener C :=
  if s.pendingCandidates.has key then s.pushPending key message
  else (s.evictOldest.startPending key).pushPending key message

/-- `peer.close`, with `cleanupAttempt` in its callback. -/
def closePeer (s : ScriptListener C) (key : String) : ScriptListener C :=
  match s.attempts.get key with
  | none => s
  | some attempt =>
    let s := s.forgetPendingCandidates key
    { s with
      attempts := s.attempts.delete key
      answering := if attempt.answered then s.answering else key :: s.answering }

/-- `answerOffer` up to its first `await`. -/
def answerOffer (s : ScriptListener C) (key remoteId : String) : Except String (ScriptListener C) :=
  if s.attempts.has key then .ok s
  else if s.attempts.values.length ≥ maxListenerAttempts then .error listenerLimitError
  else if (s.attempts.values.filter fun attempt => attempt.remoteId = remoteId).length ≥
      maxListenerAttemptsPerPeer then .error peerLimitError
  else .ok { s with attempts := s.attempts.set key { remoteId } }

def receiveSignal (s : ScriptListener C) (session : ScriptSession) (message : ListenerMessage C) :
    ScriptListener C :=
  let key := attemptKey session message.fromId message.sessionId
  if s.closed then s
  else match message.type with
    | .offer => (s.answerOffer key message.fromId).toOption.getD s
    | .answer => s
    | .candidate candidate =>
      match s.attempts.get key, candidate with
      | some attempt, some candidate =>
        if attempt.described then s
        else { s with
          attempts := s.attempts.set key
            { attempt with pendingCandidates := attempt.pendingCandidates ++ [candidate] } }
      | some _, none => s
      | none, _ => if session.trickleIce then s.queuePendingCandidate key candidate else s
    | .bye => (s.forgetPendingCandidates key).closePeer key

def change (s : ScriptListener C) (key : String) (enabled : ListenerAttempt C → Bool)
    (f : ListenerAttempt C → ListenerAttempt C) : Option (ScriptListener C) :=
  match s.attempts.get key with
  | none => none
  | some attempt =>
    if enabled attempt then some { s with attempts := s.attempts.set key (f attempt) } else none

/-- A peer may be lost at any time, for one by the timer of its attempt. What `activateStream` does
not take is closed. -/
def step (s : ScriptListener C) : ScriptListenerEvent C → Option (ScriptListener C)
  | .message session message => some (s.receiveSignal session message)
  | .described key => s.change key (fun attempt => !attempt.described) fun attempt =>
      { attempt with described := true, pendingCandidates := [] }
  | .answered key =>
      (s.change key (fun attempt => attempt.described && !attempt.answered) fun attempt =>
        { attempt with answered := true }).map fun t => t.forgetPendingCandidates key
  | .answeredClosed key =>
      if key ∈ s.answering then
        some { s.forgetPendingCandidates key with answering := s.answering.erase key }
      else none
  | .challenge key => s.change key (fun _ => true) fun attempt =>
      { attempt with challengeAnswered := true }
  | .ready key taken =>
      (s.change key (fun attempt => attempt.challengeAnswered && !attempt.authenticated)
        fun attempt => { attempt with authenticated := true }).map fun t =>
          if taken then t else t.closePeer key
  | .lost key => if s.attempts.has key then some (s.closePeer key) else none
  | .expire timer => (s.timers timer).map fun key =>
      { s with timers := update s.timers timer none }.forgetPendingCandidates key
  | .stop => if s.closed then none else some { s with closed := true }
  | .clear =>
      if s.closed then
        let s := (s.attempts.entries.map Prod.fst).foldl closePeer s
        let s := { s with attempts := s.attempts.filter fun _ => false }
        some ((s.pendingCandidates.entries.map Prod.fst).foldl forgetPendingCandidates s)
      else none

def buffered (s : ScriptListener C) (key : String) : Nat :=
  (s.pendingCandidates.get key).elim 0 (fun pending => pending.messages.length) +
    (s.attempts.get key).elim 0 fun attempt => attempt.pendingCandidates.length

/-- A candidate for a peer without a remote description finds fewer kept than the limit. -/
def fewBuffered (s : ScriptListener C) : ScriptListenerEvent C → Bool
  | .message session ⟨.candidate (some _), fromId, sessionId⟩ =>
    let key := attemptKey session fromId sessionId
    (s.attempts.get key).all fun attempt =>
      attempt.described || s.buffered key < maxPendingCandidatesPerAttempt
  | _ => true

/-- Every group of candidates without an offer is bounded and has a timer of its own. -/
structure Bounded (s : ScriptListener C) : Prop where
  sessions : s.pendingCandidates.entries.length ≤ maxPendingCandidateSessions
  candidates : ∀ key pending, s.pendingCandidates.get key = some pending →
    pending.messages.length ≤ maxPendingCandidatesPerAttempt
  timers : ∀ timer key, s.timers timer = some key ↔
    ∃ pending, s.pendingCandidates.get key = some pending ∧ pending.timer = timer

structure Inv (few : Prop) (s : ScriptListener C) : Prop extends Bounded s where
  fresh : ∀ timer, s.nextTimer ≤ timer → s.timers timer = none
  attempts : s.attempts.values.countP (fun _ => true) ≤ maxListenerAttempts
  peers : ∀ remoteId, s.attempts.values.countP (fun attempt => attempt.remoteId = remoteId) ≤
    maxListenerAttemptsPerPeer
  buffers : few → ∀ key, s.buffered key ≤ maxPendingCandidatesPerAttempt

theorem attempts_forget (s : ScriptListener C) (key : String) :
    (s.forgetPendingCandidates key).attempts = s.attempts := by
  rw [forgetPendingCandidates]
  split <;> rfl

theorem pendingCandidates_forget (s : ScriptListener C) (key : String) :
    (s.forgetPendingCandidates key).pendingCandidates = s.pendingCandidates.delete key := by
  rw [forgetPendingCandidates]
  split
  next hget =>
    exact (ScriptMap.delete_eq_self_iff.mpr hget).symm
  · rfl

namespace Inv
variable {few : Prop} {s : ScriptListener C} {key : String}

section
variable (h : Inv few s)
include h

theorem aside (closed : Bool) (answering : List String) :
    Inv few { s with closed, answering } :=
  ⟨⟨h.sessions, h.candidates, h.timers⟩, h.fresh, h.attempts, h.peers, h.buffers⟩

theorem forget (key : String) : Inv few (s.forgetPendingCandidates key) := by
  rw [forgetPendingCandidates]
  split
  · exact h
  rename_i pending hget
  have hlive := h.timers pending.timer key
  refine ⟨⟨Nat.le_trans (length_filter_le _ _) h.sessions, ?_, ?_⟩, ?_, h.attempts, h.peers,
    ?_⟩
  · intro other p hp
    rw [ScriptMap.get_delete, Option.ite_none_left_eq_some] at hp
    exact h.candidates other p hp.2
  · intro timer other
    have hother := h.timers timer other
    simp only [ScriptMap.get_delete, update_apply]
    grind
  · intro timer htimer
    have hfresh := h.fresh timer htimer
    simp only [update_apply, hfresh, ite_self]
  · intro hfew other
    refine Nat.le_trans (Nat.add_le_add_right ?_ _) (h.buffers hfew other)
    rw [ScriptMap.get_delete]
    split
    · exact Nat.zero_le _
    · exact Nat.le_refl _

theorem startPending (hnew : s.pendingCandidates.get key = none)
    (hroom : s.pendingCandidates.entries.length < maxPendingCandidateSessions) :
    Inv few (s.startPending key) := by
  refine ⟨⟨?_, ?_, ?_⟩, ?_, h.attempts, h.peers, ?_⟩
  · rw [ScriptListener.startPending,
      ScriptMap.entries_set_of_notMem (ScriptMap.get_eq_none_iff.mp hnew), length_append]
    exact hroom
  · intro other p hp
    have hother := h.candidates other p
    simp only [ScriptListener.startPending, ScriptMap.get_set] at hp
    grind
  · intro timer other
    have hother := h.timers timer other
    have hfresh := h.fresh timer
    simp only [ScriptListener.startPending, ScriptMap.get_set, update_apply]
    by_cases hkey : other = key
    · simp only [hkey, if_true, Option.some.injEq, exists_eq_left']
      grind
    · simp only [hkey, if_false]
      grind
  · intro timer htimer
    have hfresh := h.fresh timer
    simp only [ScriptListener.startPending, update_apply] at htimer ⊢
    grind
  · intro hfew other
    have hother := h.buffers hfew other
    simp only [buffered, ScriptListener.startPending, ScriptMap.get_set] at hother ⊢
    grind

theorem pushPending (hnone : s.attempts.get key = none) (message : Option C) :
    Inv few (s.pushPending key message) := by
  rw [ScriptListener.pushPending]
  split
  · exact h
  rename_i pending hget
  split
  next hfew =>
    refine ⟨⟨?_, ?_, ?_⟩, h.fresh, h.attempts, h.peers, ?_⟩
    · rw [ScriptMap.length_set_of_get hget]
      exact h.sessions
    · intro other p hp
      have hother := h.candidates other p
      simp only [ScriptMap.get_set] at hp
      grind
    · intro timer other
      have hother := h.timers timer other
      simp only [ScriptMap.get_set]
      by_cases hkey : other = key
      · simp only [hkey, if_true, Option.some.injEq, exists_eq_left']
        grind
      · simp only [hkey, if_false]
        exact hother
    · intro hfew other
      have hother := h.buffers hfew other
      simp only [buffered, ScriptMap.get_set] at hother ⊢
      grind
  · exact h

theorem queue (hnone : s.attempts.get key = none) (message : Option C) :
    Inv few (s.queuePendingCandidate key message) := by
  rw [queuePendingCandidate]
  split
  · exact h.pushPending hnone message
  rename_i hhas
  have hget := Option.not_isSome_iff_eq_none.mp hhas
  rw [evictOldest]
  split
  next oldestKey _ rest hentries =>
    split
    · refine ((h.forget oldestKey).startPending ?_ ?_).pushPending ?_ message
      · rw [pendingCandidates_forget, ScriptMap.get_delete, hget, ite_self]
      · have hsessions := h.sessions
        have hlt : (s.pendingCandidates.delete oldestKey).entries.length <
            s.pendingCandidates.entries.length :=
          length_filter_lt_length_iff_exists.mpr ⟨_, hentries ▸ mem_cons_self, by simp⟩
        rw [pendingCandidates_forget]
        omega
      · exact (congrArg (·.get key) (s.attempts_forget oldestKey)).trans hnone
    · exact (h.startPending hget (by omega)).pushPending hnone message
  next hentries =>
    refine (h.startPending hget ?_).pushPending hnone message
    rw [hentries]
    exact Nat.succ_pos 127

theorem filter (p : String × ListenerAttempt C → Bool) (answering : List String) :
    Inv few { s with attempts := s.attempts.filter p, answering } := by
  have hsub : (s.attempts.filter p).values.Sublist s.attempts.values := filter_sublist.map _
  refine ⟨⟨h.sessions, h.candidates, h.timers⟩, h.fresh,
    Nat.le_trans (hsub.countP_le) h.attempts,
    fun remoteId => Nat.le_trans (hsub.countP_le) (h.peers remoteId), ?_⟩
  intro hfew key
  refine Nat.le_trans (Nat.add_le_add_left ?_ _) (h.buffers hfew key)
  cases hget : (s.attempts.filter p).get key with
  | none => exact Nat.zero_le _
  | some attempt =>
    exact Nat.le_of_eq (by rw [(ScriptMap.get_filter_eq_some_iff.mp hget).1])

theorem set {attempt attempt' : ListenerAttempt C}
    (hget : s.attempts.get key = some attempt) (hremote : attempt'.remoteId = attempt.remoteId)
    (hbuffers : attempt'.pendingCandidates.length ≤ attempt.pendingCandidates.length ∨
      (few → s.buffered key < maxPendingCandidatesPerAttempt) ∧
        attempt'.pendingCandidates.length = attempt.pendingCandidates.length + 1) :
    Inv few { s with attempts := s.attempts.set key attempt' } := by
  refine ⟨⟨h.sessions, h.candidates, h.timers⟩, h.fresh, ?_, fun remoteId => ?_, ?_⟩
  · exact Nat.le_trans (Nat.le_of_eq (ScriptMap.countP_set_of_get hget rfl)) h.attempts
  · refine Nat.le_trans (Nat.le_of_eq (ScriptMap.countP_set_of_get hget ?_)) (h.peers remoteId)
    rw [hremote]
  · intro hfew other
    have hother := h.buffers hfew other
    simp only [buffered, ScriptMap.get_set] at *
    grind

theorem closePeer (key : String) : Inv few (s.closePeer key) := by
  rw [ScriptListener.closePeer]
  split
  · exact h
  · exact (h.forget key).filter _ _

theorem enter {remoteId : String} (hget : s.attempts.get key = none)
    (hattempts : s.attempts.values.length < maxListenerAttempts)
    (hpeers : s.attempts.values.countP (fun attempt => attempt.remoteId = remoteId) <
      maxListenerAttemptsPerPeer) :
    Inv few { s with attempts := s.attempts.set key { remoteId } } := by
  refine ⟨⟨h.sessions, h.candidates, h.timers⟩, h.fresh, ?_, fun other => ?_, ?_⟩
  · simp only [ScriptMap.values_set_of_get_none hget, countP_true, length_append]
    exact hattempts
  · have hother := h.peers other
    simp only [ScriptMap.values_set_of_get_none hget, countP_append, countP_singleton]
    grind
  · intro hfew other
    have hother := h.buffers hfew other
    simp only [buffered, ScriptMap.get_set] at hother ⊢
    grind

theorem change {enabled : ListenerAttempt C → Bool}
    {f : ListenerAttempt C → ListenerAttempt C} {t : ScriptListener C}
    (ht : s.change key enabled f = some t) (hremote : ∀ attempt, (f attempt).remoteId = attempt.remoteId)
    (hbuffers : ∀ attempt,
      (f attempt).pendingCandidates.length ≤ attempt.pendingCandidates.length) : Inv few t := by
  rw [ScriptListener.change] at ht
  split at ht
  · cases ht
  rename_i attempt hget
  obtain ⟨-, rfl⟩ := guard_eq_some.mp ht
  exact h.set hget (hremote attempt) (.inl (hbuffers attempt))

theorem receiveSignal (session : ScriptSession) (message : ListenerMessage C)
    (hok : few → s.fewBuffered (.message session message)) :
    Inv few (s.receiveSignal session message) := by
  obtain ⟨type, fromId, sessionId⟩ := message
  rw [ScriptListener.receiveSignal]
  split
  · exact h
  cases type with
  | offer =>
    simp only [answerOffer]
    split_ifs with hhas hattempts hpeers
    · exact h
    · exact h
    · exact h
    · rw [← countP_eq_length_filter] at hpeers
      exact h.enter (Option.not_isSome_iff_eq_none.mp hhas) (by omega) (by omega)
  | answer => exact h
  | candidate candidate =>
    dsimp only
    split
    next attempt c hget =>
      split
      · exact h
      rename_i hdescribed
      refine h.set hget rfl (.inr ⟨fun hfew => ?_, length_append⟩)
      have hok := hok hfew
      simp only [fewBuffered, hget, Option.all_some, hdescribed, Bool.false_or,
        decide_eq_true_eq] at hok
      exact hok
    · exact h
    next hget =>
      split
      · exact h.queue hget _
      · exact h
  | bye => exact (h.forget _).closePeer _

theorem step {e : ScriptListenerEvent C} {t : ScriptListener C}
    (hok : few → s.fewBuffered e) (hstep : s.step e = some t) : Inv few t := by
  cases e with
  | message session message =>
    cases hstep
    exact h.receiveSignal session message hok
  | described key => exact h.change hstep (fun _ => rfl) fun _ => Nat.zero_le _
  | answered key =>
    obtain ⟨t, ht, rfl⟩ := Option.map_eq_some_iff.mp hstep
    exact (h.change ht (fun _ => rfl) fun _ => Nat.le_refl _).forget key
  | answeredClosed key =>
    obtain ⟨-, rfl⟩ := guard_eq_some.mp hstep
    exact (h.forget key).aside _ _
  | challenge key => exact h.change hstep (fun _ => rfl) fun _ => Nat.le_refl _
  | ready key taken =>
    obtain ⟨t, ht, rfl⟩ := Option.map_eq_some_iff.mp hstep
    have ht := h.change ht (fun _ => rfl) fun _ => Nat.le_refl _
    split
    · exact ht
    · exact ht.closePeer key
  | lost key =>
    obtain ⟨-, rfl⟩ := guard_eq_some.mp hstep
    exact h.closePeer key
  | expire timer =>
    obtain ⟨key, htimer, rfl⟩ := Option.map_eq_some_iff.mp hstep
    obtain ⟨pending, hget, rfl⟩ := (h.timers timer key).mp htimer
    have hforget := h.forget key
    simp only [forgetPendingCandidates, hget, update_idem] at hforget ⊢
    exact hforget
  | stop =>
    obtain ⟨-, rfl⟩ := unless_eq_some.mp hstep
    exact h.aside _ _
  | clear =>
    obtain ⟨-, rfl⟩ := guard_eq_some.mp hstep
    have hclosed := foldlRecOn (s.attempts.entries.map Prod.fst) ScriptListener.closePeer h
      fun _ hs key _ => hs.closePeer key
    exact foldlRecOn _ _ (hclosed.filter (fun _ => false) _) fun _ hs key _ => hs.forget key

end

theorem of_run {ok : ScriptListener C → ScriptListenerEvent C → Prop}
    {es : List (ScriptListenerEvent C)} (hok : ∀ s e, ok s e → few → s.fewBuffered e)
    (hrun : Run ScriptListener.step ok {} es s) : Inv few s := by
  refine hrun.invariant (fun h hstep => h.step (hok _ _ hstep)) ?_
  refine ⟨⟨Nat.zero_le _, ?_, ?_⟩, fun _ _ => rfl, Nat.zero_le _, fun _ => Nat.zero_le _, ?_⟩
  · exact fun _ _ hget => absurd hget (Option.some_ne_none _).symm
  · exact fun _ _ => ⟨fun h => absurd h (Option.some_ne_none _).symm,
      fun ⟨_, hget, _⟩ => absurd hget (Option.some_ne_none _).symm⟩
  · exact fun _ _ => Nat.zero_le _

end Inv

variable {s : ScriptListener C} {es : List (ScriptListenerEvent C)}

/-- As long as no candidate finds 32 of its attempt waiting for the remote description, no attempt
has more than 32 waiting anywhere. -/
theorem candidates_bounded (hrun : Run step (fun s e => s.fewBuffered e) {} es s) :
    s.Bounded ∧ ∀ key, s.buffered key ≤ maxPendingCandidatesPerAttempt := by
  have h : Inv True s := .of_run (fun _ _ hok _ => hok) hrun
  exact ⟨h.toBounded, h.buffers trivial⟩

def refusal (s : ScriptListener C) (key remoteId : String) : Option String :=
  match s.answerOffer key remoteId with
  | .error error => some error
  | .ok _ => none

def unfinished (attempt : ListenerAttempt C) : Bool := !attempt.authenticated

/-- An offer is refused only if as many attempts are unfinished as the limit says. -/
def CountsUnfinished (s : ScriptListener C) (key remoteId : String) : Prop :=
  (s.refusal key remoteId = some listenerLimitError →
    maxListenerAttempts ≤ (s.attempts.values.filter unfinished).length) ∧
  (s.refusal key remoteId = some peerLimitError →
    maxListenerAttemptsPerPeer ≤ ((s.attempts.values.filter fun attempt =>
      attempt.remoteId = remoteId).filter unfinished).length)

theorem refusal_listener_iff {key remoteId : String} :
    s.refusal key remoteId = some listenerLimitError ↔
      s.attempts.has key = false ∧ maxListenerAttempts ≤ s.attempts.values.length := by
  have hne : peerLimitError ≠ listenerLimitError := by decide
  rw [refusal, answerOffer]
  split_ifs <;> simp_all

theorem refusal_peer_iff {key remoteId : String} :
    s.refusal key remoteId = some peerLimitError ↔
      s.attempts.has key = false ∧ s.attempts.values.length < maxListenerAttempts ∧
        maxListenerAttemptsPerPeer ≤
          (s.attempts.values.filter fun attempt => attempt.remoteId = remoteId).length := by
  have hne : listenerLimitError ≠ peerLimitError := by decide
  rw [refusal, answerOffer]
  split_ifs with hhas hfull
  · simp_all
  · simp [hne, Nat.not_lt.mpr hfull]
  · simp_all
  · simp_all

theorem le_length_filter_iff {A : Type} {l : List A} {n : Nat} {p : A → Bool} (h : n = l.length) :
    n ≤ (l.filter p).length ↔ ∀ a ∈ l, p a := by
  rw [← length_filter_eq_length_iff, ← h]
  have := l.length_filter_le p
  omega

/-- The attempts that a limit counts include the authenticated ones. -/
theorem refusals_count_unfinished_iff (hrun : Run step Any {} es s) (key remoteId : String) :
    s.CountsUnfinished key remoteId ↔ (s.attempts.has key = false →
      (s.attempts.values.length = maxListenerAttempts →
        ∀ attempt ∈ s.attempts.values, unfinished attempt) ∧
      (s.attempts.values.length < maxListenerAttempts →
        (s.attempts.values.filter fun attempt => attempt.remoteId = remoteId).length =
          maxListenerAttemptsPerPeer → ∀ attempt ∈ s.attempts.values.filter
            (fun attempt => attempt.remoteId = remoteId), unfinished attempt)) := by
  have h : Inv False s := .of_run (fun _ _ _ => False.elim) hrun
  have hattempts := h.attempts
  have hpeers := h.peers remoteId
  rw [countP_eq_length_filter] at hattempts hpeers
  rw [filter_true] at hattempts
  rw [CountsUnfinished, refusal_listener_iff, refusal_peer_iff]
  constructor
  · rintro ⟨hlistener, hpeer⟩ hhas
    exact ⟨fun hfull => (le_length_filter_iff hfull.symm).mp (hlistener ⟨hhas, Nat.le_of_eq hfull.symm⟩),
      fun hroom hfull =>
        (le_length_filter_iff hfull.symm).mp (hpeer ⟨hhas, hroom, Nat.le_of_eq hfull.symm⟩)⟩
  · intro h
    constructor
    · rintro ⟨hhas, hfull⟩
      have heq := Nat.le_antisymm hattempts hfull
      exact (le_length_filter_iff heq.symm).mpr ((h hhas).1 heq)
    · rintro ⟨hhas, hroom, hfull⟩
      have heq := Nat.le_antisymm hpeers hfull
      exact (le_length_filter_iff heq.symm).mpr ((h hhas).2 hroom heq)

def relay : ScriptSession := ⟨"nostr", true⟩

def offerFrom (client sessionId : String) : ScriptListenerEvent Unit :=
  .message relay ⟨.offer, client, sessionId⟩

def candidateFrom (client sessionId : String) : ScriptListenerEvent Unit :=
  .message relay ⟨.candidate (some ()), client, sessionId⟩

theorem candidates_bounded_early : ∃ s : ScriptListener Unit,
    Run step (fun s e => s.fewBuffered e) {}
      (offerFrom "a" "" :: replicate 32 (candidateFrom "a" "")) s ∧
      s.buffered (attemptKey relay "a" "") = 32 ∧ s.Bounded ∧
      ∀ key, s.buffered key ≤ maxPendingCandidatesPerAttempt := by
  have hrun := run_exec step (fun s e => s.fewBuffered e) ({} : ScriptListener Unit)
    (offerFrom "a" "" :: replicate 32 (candidateFrom "a" "")) (by decide +kernel)
  exact ⟨_, hrun, by decide +kernel, candidates_bounded hrun⟩

theorem candidates_flood_attempt : ∃ s : ScriptListener Unit,
    Run step Any {} (offerFrom "a" "" :: replicate 33 (candidateFrom "a" "")) s ∧
      s.buffered (attemptKey relay "a" "") = 33 :=
  ⟨_, run_exec step Any {} _ (by decide +kernel), by decide +kernel⟩

theorem refusals_count_unfinished_iff_pending : ∃ s : ScriptListener Unit,
    Run step Any {} (["1", "2", "3", "4"].map (offerFrom "a")) s ∧
      s.refusal (attemptKey relay "a" "5") "a" = some peerLimitError ∧
      s.CountsUnfinished (attemptKey relay "a" "5") "a" := by
  have hrun := run_exec step Any ({} : ScriptListener Unit)
    (["1", "2", "3", "4"].map (offerFrom "a")) (by decide +kernel)
  exact ⟨_, hrun, by decide +kernel,
    (refusals_count_unfinished_iff hrun _ _).mpr (by decide +kernel)⟩

/-- A client with a stream and three unfinished handshakes is refused a fourth one. -/
theorem stream_counted_as_pending : ∃ s : ScriptListener Unit,
    Run step Any {} (offerFrom "a" "1" :: .challenge (attemptKey relay "a" "1") ::
      .ready (attemptKey relay "a" "1") true :: ["2", "3", "4"].map (offerFrom "a")) s ∧
      s.refusal (attemptKey relay "a" "5") "a" = some peerLimitError ∧
      (s.attempts.values.filter unfinished).length = 3 :=
  ⟨_, run_exec step Any {} _ (by decide +kernel), by decide +kernel, by decide +kernel⟩

end ScriptListener

end P2PNetcat.NativeWebRTC
