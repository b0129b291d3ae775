import P2PNetcat.Library.StepSystem
import Mathlib.Data.List.Nodup
import Mathlib.Data.List.Perm.Subperm
import Mathlib.Data.List.ReduceOption

/-!
# The race of the signaling sessions

`ConnectWithSignalingSessions` runs one attempt for each session and takes the
first connection, the last failure or the end of the attempt context. What a
dial returns and when the context ends are inputs.
-/

namespace P2PNetcat.NativeWebRTC
open List Function StepSystem

/-- `id` tells the objects apart: one session may stand twice in a list. -/
structure SignalingSession where
  id : Nat := 0
  name : String := ""
  deriving DecidableEq

/-- The goroutine of one session: inside `connectWithSession`, before `winnerOnce.Do`, before
`connection.Close`, or through (without a connection, with the winning one, with a closed one). -/
inductive Attempt where
  | dialing | built | losing | failed | won | discarded
  deriving DecidableEq

namespace Attempt

def connected : Attempt → Bool
  | .dialing | .failed => false
  | _ => true

def finished : Attempt → Bool
  | .dialing | .built | .losing => false
  | _ => true

end Attempt

/-- Where the calling goroutine is. `closing` holds the sessions its loop has still to visit and
what it returns afterwards: the attempt whose connection it returns, or an error. -/
inductive Selecting where
  | selecting
  | closing (rest : List SignalingSession) (outcome : Except String Nat)
  | returned (outcome : Except String Nat)
  deriving DecidableEq

structure Race where
  sessions : List SignalingSession
  attempts : Nat → Attempt := fun _ => .dialing
  winner : Option Nat := none
  result : Option Nat := none
  errorsChannel : List (Nat × String) := []
  failures : List (Nat × String) := []
  done : Option String := none
  loop : Selecting := .selecting
  closedSessions : Nat → Bool := fun _ => false

namespace Race
variable {i : Nat}

def argumentError (expected : String) (service : Nat) (sessions : List (Option SignalingSession)) :
    Option String :=
  if expected = "" then some "expected native WebRTC PeerId is required"
  else if service = 0 then some "logical port must be between 1 and 65535"
  else if sessions = [] then some "at least one native WebRTC signaling session is required"
  else if none ∈ sessions then some "native WebRTC signaling session cannot be nil"
  else none

def connectWithSignalingSessions (expected : String) (service : Nat)
    (sessions : List (Option SignalingSession)) : Race :=
  match argumentError expected service sessions with
  | some err =>
    { sessions := sessions.reduceOption
      attempts := fun _ => .failed
      loop := .returned (.error err) }
  | none => { sessions := sessions.reduceOption }

inductive Event where
  | expire (err : String)
  | dial (attempt : Nat) (failure : Option String)
  | once (attempt : Nat)
  | discard (attempt : Nat)
  | takeWinner
  | takeFailure
  | takeDone
  | closeNext
  deriving DecidableEq

def session (s : Race) (i : Nat) : SignalingSession := s.sessions.getD i {}

def setAttempt (s : Race) (i : Nat) (a : Attempt) : Race :=
  { s with attempts := update s.attempts i a }

def closeSession (s : Race) (signaling : SignalingSession) : Race :=
  { s with closedSessions := update s.closedSessions signaling.id true }

/-- `connectWithSession` returns: its error goes to `errorsChannel`. -/
def dial (s : Race) (i : Nat) (failure : Option String) : Option Race :=
  if i < s.sessions.length ∧ s.attempts i = .dialing then
    match failure with
    | none => some (s.setAttempt i .built)
    | some err =>
      if s.errorsChannel.length < s.sessions.length then
        some { s.setAttempt i .failed with
          errorsChannel := s.errorsChannel ++ [(i, (s.session i).name ++ ": " ++ err)] }
      else none
  else none

/-- `winnerOnce.Do`, with the send to the channel of one place inside. -/
def once (s : Race) (i : Nat) : Option Race :=
  if s.attempts i = .built then
    match s.winner with
    | some _ => some (s.setAttempt i .losing)
    | none =>
      if s.result = none then
        some { s.setAttempt i .won with winner := some i, result := some i }
      else none
  else none

/-- `Close` on a connection that has not won closes its session too. -/
def discard (s : Race) (i : Nat) : Option Race :=
  if s.attempts i = .losing then
    some ((s.setAttempt i .discarded).closeSession (s.session i))
  else none

def takeWinner (s : Race) : Option Race :=
  match s.loop, s.result with
  | .selecting, some w => some { s with result := none, loop := .closing s.sessions (.ok w) }
  | _, _ => none

def takeFailure (s : Race) : Option Race :=
  match s.loop, s.errorsChannel with
  | .selecting, failure :: rest =>
    let failures := s.failures ++ [failure]
    let loop := if failures.length < s.sessions.length then .selecting
      else .closing s.sessions (.error ("native WebRTC signaling failed: " ++
        "\n".intercalate (failures.map Prod.snd)))
    some { s with errorsChannel := rest, failures, loop }
  | _, _ => none

def takeDone (s : Race) : Option Race :=
  match s.loop, s.done with
  | .selecting, some err => some { s with
      loop := .closing s.sessions (.error ("native WebRTC did not establish a connection: " ++ err)) }
  | _, _ => none

def cancel (s : Race) : Race := { s with done := s.done.or (some "context canceled") }

/-- The closing loop skips the sessions that have the winner's name. -/
def skips (s : Race) (signaling : SignalingSession) : Except String Nat → Bool
  | .ok w => signaling.name = (s.session w).name
  | .error _ => false

def closeNext (s : Race) : Option Race :=
  match s.loop with
  | .closing [] outcome => some { s.cancel with loop := .returned outcome }
  | .closing (signaling :: rest) outcome =>
    let t := { s with loop := .closing rest outcome }
    some (if s.skips signaling outcome then t else t.closeSession signaling)
  | _ => none

def step (s : Race) : Event → Option Race
  | .expire err => some { s with done := s.done.or (some err) }
  | .dial i failure => s.dial i failure
  | .once i => s.once i
  | .discard i => s.discard i
  | .takeWinner => s.takeWinner
  | .takeFailure => s.takeFailure
  | .takeDone => s.takeDone
  | .closeNext => s.closeNext

def Settled (s : Race) (outcome : Except String Nat) : Prop :=
  s.loop = .returned outcome ∧ ∀ i, i < s.sessions.length → (s.attempts i).finished = true

/-- Every connection is the returned one or closed, every session its own or closed. -/
def Owned (s : Race) (outcome : Except String Nat) : Prop :=
  (∀ i, (s.attempts i).connected = true → outcome = .ok i ∨ s.attempts i = .discarded) ∧
  ∀ signaling ∈ s.sessions, s.closedSessions signaling.id = true ∨
    ∃ w, outcome = .ok w ∧ signaling.id = (s.session w).id

/-- The loop gives up on the context only before a first connection, none becomes first after the
loop has left its `select`, and a winner shares its name with no other open session. -/
def KeepsOwner (s : Race) : Event → Prop
  | .takeDone => s.winner = none
  | .once _ => s.winner = none → s.loop = .selecting
  | .takeWinner => ∀ w, s.result = some w → ∀ signaling ∈ s.sessions,
      signaling.name = (s.session w).name →
      signaling.id = (s.session w).id ∨ s.closedSessions signaling.id = true
  | _ => True

instance (s : Race) (ev : Event) : Decidable (s.KeepsOwner ev) := by
  unfold KeepsOwner
  split <;> infer_instance

variable {s t : Race}

structure Left (s : Race) (rest : List SignalingSession) (outcome : Except String Nat) : Prop where
  winner : s.winner = outcome.toOption
  visited : ∀ signaling ∈ s.sessions, s.closedSessions signaling.id = true ∨ signaling ∈ rest ∨
    ∃ w, outcome = .ok w ∧ signaling.id = (s.session w).id
  named : ∀ w, outcome = .ok w → ∀ signaling ∈ s.sessions,
    signaling.name = (s.session w).name →
    signaling.id = (s.session w).id ∨ s.closedSessions signaling.id = true

def failed (s : Race) : List Nat := (s.failures ++ s.errorsChannel).map Prod.fst

structure Inv (s : Race) : Prop where
  bound : ∀ i, (s.attempts i).connected = true → i < s.sessions.length
  won : ∀ i, s.attempts i = .won ↔ s.winner = some i
  nodup : s.failed.Nodup
  failed : ∀ i ∈ s.failed, i < s.sessions.length ∧ s.attempts i = .failed
  selecting : s.loop = .selecting → s.result = s.winner ∧ s.failures.length < s.sessions.length
  closing : ∀ rest outcome, s.loop = .closing rest outcome → s.Left rest outcome
  returned : ∀ outcome, s.loop = .returned outcome → s.Left [] outcome

theorem Inv.initial {sessions : List SignalingSession} (h : sessions ≠ []) :
    Inv { sessions := sessions } where
  bound := nofun
  won := by
    intro i
    constructor <;> intro hi <;> cases hi
  nodup := nodup_nil
  failed := nofun
  selecting := fun _ => ⟨rfl, length_pos_iff.mpr h⟩
  closing := nofun
  returned := nofun

variable {outcome : Except String Nat}

theorem Inv.owned (hs : Inv s) (h : s.Settled outcome) :
    s.Owned outcome := by
  obtain ⟨hloop, hfinished⟩ := h
  have hleft := hs.returned outcome hloop
  constructor
  · intro i hi
    have hthrough := hfinished i (hs.bound i hi)
    cases hattempt : s.attempts i with
    | won =>
      left
      have hwinner := (hs.won i).mp hattempt
      rw [hleft.winner] at hwinner
      cases outcome with
      | error err => cases hwinner
      | ok w =>
        cases hwinner
        rfl
    | discarded => exact .inr rfl
    | dialing | failed =>
      rw [hattempt] at hi
      cases hi
    | built | losing =>
      rw [hattempt] at hthrough
      cases hthrough
  · intro signaling hmem
    rcases hleft.visited signaling hmem with hclosed | hrest | howner
    · exact .inl hclosed
    · cases hrest
    · exact .inr howner

theorem Left.mono {rest : List SignalingSession}
    (h : s.Left rest outcome) (hsessions : t.sessions = s.sessions) (hwinner : t.winner = s.winner)
    (hclosed : ∀ id, s.closedSessions id = true → t.closedSessions id = true) :
    t.Left rest outcome := by
  have hsession : ∀ w, t.session w = s.session w := by
    intro w
    rw [session, session, hsessions]
  constructor
  · rw [hwinner, h.winner]
  · intro signaling hmem
    rw [hsessions] at hmem
    rcases h.visited signaling hmem with hc | hrest | ⟨w, hw, hid⟩
    · exact .inl (hclosed _ hc)
    · exact .inr (.inl hrest)
    · exact .inr (.inr ⟨w, hw, by rw [hsession]; exact hid⟩)
  · intro w hw signaling hmem hname
    rw [hsessions] at hmem
    rw [hsession] at hname ⊢
    rcases h.named w hw signaling hmem hname with hid | hc
    · exact .inl hid
    · exact .inr (hclosed _ hc)

theorem closedSessions_closeSession {signaling : SignalingSession} {id : Nat}
    (h : s.closedSessions id = true) : (s.closeSession signaling).closedSessions id = true := by
  by_cases heq : id = signaling.id
  · subst heq
    exact update_self ..
  · exact (update_of_ne heq ..).trans h

theorem Inv.expire (hs : Inv s) (done : Option String) : Inv { s with done } where
  bound := hs.bound
  won := hs.won
  nodup := hs.nodup
  failed := hs.failed
  selecting := hs.selecting
  closing := fun rest outcome h => (hs.closing rest outcome h).mono rfl rfl fun _ => id
  returned := fun outcome h => (hs.returned outcome h).mono rfl rfl fun _ => id

section Attempts
variable {i : Nat} {a : Attempt}

@[simp] theorem setAttempt_self : (s.setAttempt i a).attempts i = a := update_self ..

theorem setAttempt_ne {j : Nat} (h : j ≠ i) : (s.setAttempt i a).attempts j = s.attempts j :=
  update_of_ne h ..

variable (hs : Inv s)
include hs

theorem Inv.setAttempt (hlt : a.connected = true → i < s.sessions.length)
    (hbefore : s.attempts i ≠ .won ∧ s.attempts i ≠ .failed) (ha : a ≠ .won) :
    Inv (s.setAttempt i a) where
  bound := by
    intro j hj
    by_cases hji : j = i
    · subst hji
      rw [setAttempt_self] at hj
      exact hlt hj
    · rw [setAttempt_ne hji] at hj
      exact hs.bound j hj
  won := by
    intro j
    by_cases hji : j = i
    · subst hji
      rw [setAttempt_self]
      constructor
      · intro hj
        exact absurd hj ha
      · intro hj
        exact absurd ((hs.won j).mpr hj) hbefore.1
    · rw [setAttempt_ne hji]
      exact hs.won j
  nodup := hs.nodup
  failed := by
    intro j hj
    obtain ⟨hlt', hfailed⟩ := hs.failed j hj
    have hji : j ≠ i := by
      intro heq
      exact hbefore.2 (heq ▸ hfailed)
    rw [setAttempt_ne hji]
    exact ⟨hlt', hfailed⟩
  selecting := hs.selecting
  closing := fun rest outcome h => (hs.closing rest outcome h).mono rfl rfl fun _ => id
  returned := fun outcome h => (hs.returned outcome h).mono rfl rfl fun _ => id

theorem Inv.report (hlt : i < s.sessions.length) (hfailed : s.attempts i = .failed)
    (hnew : i ∉ s.failed) (err : String) :
    Inv { s with errorsChannel := s.errorsChannel ++ [(i, err)] } := by
  have hlist : Race.failed { s with errorsChannel := s.errorsChannel ++ [(i, err)] } =
      s.failed ++ [i] := by
    simp [Race.failed]
  constructor
  · exact hs.bound
  · exact hs.won
  · rw [hlist]
    exact nodup_append.mpr ⟨hs.nodup, nodup_singleton i, by
      intro j hj k hk heq
      rw [mem_singleton] at hk
      exact hnew (hk ▸ heq ▸ hj)⟩
  · intro j hj
    rw [hlist, mem_append, mem_singleton] at hj
    rcases hj with hj | hj
    · exact hs.failed j hj
    · subst hj
      exact ⟨hlt, hfailed⟩
  · exact hs.selecting
  · intro rest outcome h
    exact (hs.closing rest outcome h).mono rfl rfl fun _ => id
  · intro outcome h
    exact (hs.returned outcome h).mono rfl rfl fun _ => id

theorem Inv.dial {failure : Option String} (h : s.dial i failure = some t) :
    Inv t := by
  obtain ⟨hdialing, h⟩ := Option.ite_none_right_eq_some.mp h
  obtain ⟨hlt, hdialing⟩ := hdialing
  have hbefore : s.attempts i ≠ .won ∧ s.attempts i ≠ .failed := by
    rw [hdialing]
    exact ⟨nofun, nofun⟩
  cases failure with
  | none =>
    cases h
    exact hs.setAttempt (fun _ => hlt) hbefore nofun
  | some err =>
    obtain ⟨-, rfl⟩ := guard_eq_some.mp h
    have hset : Inv (s.setAttempt i .failed) := hs.setAttempt nofun hbefore nofun
    refine hset.report hlt setAttempt_self ?_ _
    intro hmem
    exact hbefore.2 (hs.failed i hmem).2

theorem Inv.wins (hbuilt : s.attempts i = .built) (hnone : s.winner = none)
    (hloop : s.loop = .selecting) :
    Inv { s.setAttempt i .won with winner := some i, result := some i } := by
  constructor
  · intro j hj
    by_cases hji : j = i
    · subst hji
      exact hs.bound j (by rw [hbuilt]; rfl)
    · exact hs.bound j (by rw [← setAttempt_ne hji]; exact hj)
  · intro j
    by_cases hji : j = i
    · subst hji
      exact ⟨fun _ => rfl, fun _ => setAttempt_self⟩
    constructor
    · intro hj
      have hold := (hs.won j).mp (by rw [← setAttempt_ne hji]; exact hj)
      rw [hnone] at hold
      cases hold
    · intro hj
      exact absurd (Option.some.inj hj).symm hji
  · exact hs.nodup
  · intro j hj
    obtain ⟨hlt, hfailed⟩ := hs.failed j hj
    have hji : j ≠ i := by
      intro heq
      rw [heq, hbuilt] at hfailed
      cases hfailed
    exact ⟨hlt, (setAttempt_ne hji).trans hfailed⟩
  · intro hsel
    exact ⟨rfl, (hs.selecting hsel).2⟩
  · intro rest outcome h
    cases hloop.symm.trans h
  · intro outcome h
    cases hloop.symm.trans h

theorem Inv.once (hok : s.KeepsOwner (.once i)) (h : s.once i = some t) : Inv t := by
  obtain ⟨hbuilt, h⟩ := Option.ite_none_right_eq_some.mp h
  cases hwinner : s.winner with
  | some w =>
    rw [hwinner] at h
    cases h
    refine hs.setAttempt (fun _ => hs.bound i (by rw [hbuilt]; rfl)) ?_ nofun
    rw [hbuilt]
    exact ⟨nofun, nofun⟩
  | none =>
    rw [hwinner] at h
    obtain ⟨-, rfl⟩ := guard_eq_some.mp h
    exact hs.wins hbuilt hwinner (hok hwinner)

theorem Inv.closeSession (signaling : SignalingSession) :
    Inv (s.closeSession signaling) where
  bound := hs.bound
  won := hs.won
  nodup := hs.nodup
  failed := hs.failed
  selecting := hs.selecting
  closing := fun rest outcome h =>
    (hs.closing rest outcome h).mono rfl rfl fun _ => closedSessions_closeSession
  returned := fun outcome h =>
    (hs.returned outcome h).mono rfl rfl fun _ => closedSessions_closeSession

theorem Inv.discard (h : s.discard i = some t) : Inv t := by
  obtain ⟨hlosing, rfl⟩ := guard_eq_some.mp h
  have hset : Inv (s.setAttempt i .discarded) := by
    refine hs.setAttempt (fun _ => hs.bound i (by rw [hlosing]; rfl)) ?_ nofun
    rw [hlosing]
    exact ⟨nofun, nofun⟩
  exact hset.closeSession _

end Attempts

section Loop

theorem Inv.leave (hs : Inv s) {failures errors : List (Nat × String)}
    {result : Option Nat} (hleft : s.winner = outcome.toOption)
    (hfailed : failures ++ errors = s.failures ++ s.errorsChannel)
    (hnamed : ∀ w, outcome = .ok w → ∀ signaling ∈ s.sessions,
      signaling.name = (s.session w).name →
      signaling.id = (s.session w).id ∨ s.closedSessions signaling.id = true) :
    Inv { s with result, failures, errorsChannel := errors, loop := .closing s.sessions outcome } := by
  have hlist : Race.failed { s with
      result, failures, errorsChannel := errors, loop := .closing s.sessions outcome } =
      s.failed := by
    simp only [Race.failed, hfailed]
  constructor
  · exact hs.bound
  · exact hs.won
  · rw [hlist]
    exact hs.nodup
  · rw [hlist]
    exact hs.failed
  · intro h
    cases h
  · intro rest outcome' h
    cases h
    exact ⟨hleft, fun signaling hmem => .inr (.inl hmem), hnamed⟩
  · intro outcome' h
    cases h

theorem Inv.takeWinner (hs : Inv s) (hok : s.KeepsOwner .takeWinner) (h : s.takeWinner = some t) :
    Inv t := by
  simp only [Race.takeWinner] at h
  split at h
  next w hloop hresult =>
    cases h
    refine hs.leave ?_ rfl ?_
    · rw [← (hs.selecting hloop).1, hresult]
      rfl
    · intro w' hw
      cases hw
      exact hok w hresult
  · cases h

theorem Inv.winner_of_failures (hs : Inv s) (hall : s.sessions.length ≤ s.failed.length) :
    s.winner = none := by
  by_contra hsome
  obtain ⟨w, hw⟩ := Option.ne_none_iff_exists'.mp hsome
  have hwon := (hs.won w).mpr hw
  have hlt := hs.bound w (by rw [hwon]; rfl)
  have hsub : s.failed.Subperm (range s.sessions.length) := by
    refine hs.nodup.subperm ?_
    intro i hi
    exact mem_range.mpr (hs.failed i hi).1
  have hperm := hsub.perm_of_length_le (by simpa using hall)
  have hmem := hperm.mem_iff.mpr (mem_range.mpr hlt)
  rw [(hs.failed w hmem).2] at hwon
  cases hwon

theorem Inv.takeFailure (hs : Inv s) (h : s.takeFailure = some t) : Inv t := by
  simp only [Race.takeFailure] at h
  split at h
  next failure rest hloop herrors =>
    cases h
    have happend : (s.failures ++ [failure]) ++ rest = s.failures ++ s.errorsChannel := by
      rw [herrors, append_assoc, singleton_append]
    split
    next hmore =>
      have hlist : Race.failed { s with
          errorsChannel := rest, failures := s.failures ++ [failure], loop := .selecting } =
          s.failed := by
        simp only [Race.failed, happend]
      constructor
      · exact hs.bound
      · exact hs.won
      · rw [hlist]
        exact hs.nodup
      · rw [hlist]
        exact hs.failed
      · intro _
        exact ⟨(hs.selecting hloop).1, hmore⟩
      · intro rest outcome h
        cases h
      · intro outcome h
        cases h
    next hlast =>
      refine hs.leave ?_ happend ?_
      · refine hs.winner_of_failures ?_
        have hlength := congrArg length happend
        simp only [Race.failed, length_map, length_append, length_singleton] at hlast hlength ⊢
        omega
      · intro w hw
        cases hw
  · cases h

theorem Inv.takeDone (hs : Inv s) (hok : s.KeepsOwner .takeDone) (h : s.takeDone = some t) :
    Inv t := by
  simp only [Race.takeDone] at h
  split at h
  · cases h
    refine hs.leave hok rfl ?_
    intro w hw
    cases hw
  · cases h

theorem Left.pass {signaling : SignalingSession} {rest : List SignalingSession}
    (h : s.Left (signaling :: rest) outcome)
    (hpassed : signaling ∈ s.sessions → s.closedSessions signaling.id = true ∨
      ∃ w, outcome = .ok w ∧ signaling.id = (s.session w).id) : s.Left rest outcome := by
  refine ⟨h.winner, ?_, h.named⟩
  intro other hmem
  rcases h.visited other hmem with hclosed | hrest | howner
  · exact .inl hclosed
  · rcases mem_cons.mp hrest with heq | hrest
    · subst heq
      exact (hpassed hmem).imp id .inr
    · exact .inr (.inl hrest)
  · exact .inr (.inr howner)

theorem Inv.moveLoop (hs : Inv s) {loop : Selecting} (hsel : loop ≠ .selecting)
    (hclosing : ∀ rest outcome, loop = .closing rest outcome → s.Left rest outcome)
    (hreturned : ∀ outcome, loop = .returned outcome → s.Left [] outcome) :
    Inv { s with loop } where
  bound := hs.bound
  won := hs.won
  nodup := hs.nodup
  failed := hs.failed
  selecting := fun h => absurd h hsel
  closing := fun rest outcome h => (hclosing rest outcome h).mono rfl rfl fun _ => id
  returned := fun outcome h => (hreturned outcome h).mono rfl rfl fun _ => id

theorem Inv.closeNext (hs : Inv s) (h : s.closeNext = some t) : Inv t := by
  simp only [Race.closeNext] at h
  split at h
  next outcome hloop =>
    cases h
    have hmoved : Inv { s with loop := .returned outcome } := by
      refine hs.moveLoop nofun nofun ?_
      intro outcome' heq
      cases heq
      exact hs.closing [] outcome hloop
    exact hmoved.expire _
  next signaling rest outcome hloop =>
    cases h
    have hleft := hs.closing (signaling :: rest) outcome hloop
    by_cases hskips : s.skips signaling outcome = true
    · rw [if_pos hskips]
      refine hs.moveLoop nofun ?_ nofun
      intro rest' outcome' heq
      cases heq
      refine hleft.pass ?_
      intro hmem
      cases outcome with
      | error err => cases hskips
      | ok w =>
        rcases hleft.named w rfl signaling hmem (of_decide_eq_true hskips) with hid | hclosed
        · exact .inr ⟨w, rfl, hid⟩
        · exact .inl hclosed
    · rw [if_neg hskips]
      refine (hs.closeSession signaling).moveLoop nofun ?_ nofun
      intro rest' outcome' heq
      cases heq
      have hclosed : (s.closeSession signaling).Left (signaling :: rest) outcome :=
        hleft.mono rfl rfl fun _ => closedSessions_closeSession
      refine hclosed.pass ?_
      intro _
      exact .inl (update_self ..)
  · cases h

end Loop

theorem Inv.step {ev : Event} (hs : Inv s) (hok : s.KeepsOwner ev) (h : s.step ev = some t) :
    Inv t := by
  cases ev with
  | expire err =>
    cases h
    exact hs.expire _
  | dial i failure => exact hs.dial h
  | once i => exact hs.once hok h
  | discard i => exact hs.discard h
  | takeWinner => exact hs.takeWinner hok h
  | takeFailure => exact hs.takeFailure h
  | takeDone => exact hs.takeDone hok h
  | closeNext => exact hs.closeNext h

theorem reduceOption_of_argumentError {expected : String} {service : Nat}
    {sessions : List (Option SignalingSession)}
    (h : argumentError expected service sessions = none) : sessions.reduceOption ≠ [] := by
  simp only [argumentError] at h
  split at h
  · cases h
  split at h
  · cases h
  split at h
  · cases h
  split at h
  · cases h
  rename_i hne hnil
  obtain ⟨first, rest, rfl⟩ := exists_cons_of_ne_nil hne
  cases first with
  | none => exact absurd (mem_cons_self ..) hnil
  | some signaling =>
    rw [reduceOption_cons_of_some]
    exact cons_ne_nil _ _

theorem Inv.refused (err : String) :
    Inv { sessions := [], attempts := fun _ => .failed, loop := .returned (.error err) } where
  bound := nofun
  won := by
    intro i
    constructor <;> intro hi <;> cases hi
  nodup := nodup_nil
  failed := nofun
  selecting := nofun
  closing := nofun
  returned := by
    intro outcome h
    cases h
    exact ⟨rfl, nofun, nofun⟩

theorem Inv.call {expected : String} {service : Nat} {sessions : List (Option SignalingSession)}
    (h : argumentError expected service sessions = none ∨ sessions.reduceOption = []) :
    Inv (connectWithSignalingSessions expected service sessions) := by
  simp only [connectWithSignalingSessions]
  cases herr : argumentError expected service sessions with
  | none => exact Inv.initial (reduceOption_of_argumentError herr)
  | some err =>
    have hnone : sessions.reduceOption = [] := by
      rcases h with h | h
      · rw [herr] at h
        cases h
      · exact h
    simp only [hnone]
    exact Inv.refused err

/-- The attempt whose connection is in the channel or on its way back to the caller. -/
def Chosen (s : Race) (w : Nat) : Prop :=
  s.result = some w ∨ (∃ rest, s.loop = .closing rest (.ok w)) ∨ s.loop = .returned (.ok w)

/-- In every run, guarded or not, a connection belongs to one of the sessions. -/
structure Within (s : Race) : Prop where
  built : ∀ i, (s.attempts i).connected = true → i < s.sessions.length
  chosen : ∀ w, s.Chosen w → w < s.sessions.length

theorem sessions_call (expected : String) (service : Nat)
    (sessions : List (Option SignalingSession)) :
    (connectWithSignalingSessions expected service sessions).sessions = sessions.reduceOption := by
  simp only [connectWithSignalingSessions]
  split <;> rfl

theorem Within.call (expected : String) (service : Nat) (sessions : List (Option SignalingSession)) :
    Within (connectWithSignalingSessions expected service sessions) := by
  simp only [connectWithSignalingSessions]
  cases argumentError expected service sessions with
  | none | some err =>
    constructor
    · intro i hi
      cases hi
    · intro w hw
      rcases hw with h | ⟨rest, h⟩ | h <;> cases h

section
variable (hs : Within s)
include hs

theorem Within.setAttempt {a : Attempt}
    (hlt : a.connected = true → i < s.sessions.length) : Within (s.setAttempt i a) where
  built := by
    intro j hj
    by_cases hji : j = i
    · subst hji
      rw [setAttempt_self] at hj
      exact hlt hj
    · rw [setAttempt_ne hji] at hj
      exact hs.built j hj
  chosen := hs.chosen

theorem Within.moves (hattempts : t.attempts = s.attempts)
    (hsessions : t.sessions = s.sessions) (hchosen : ∀ w, t.Chosen w → s.Chosen w) : Within t where
  built := by
    intro i hi
    rw [hattempts] at hi
    rw [hsessions]
    exact hs.built i hi
  chosen := by
    intro w hw
    rw [hsessions]
    exact hs.chosen w (hchosen w hw)

theorem Within.dial {failure : Option String}
    (h : s.dial i failure = some t) : Within t ∧ t.sessions = s.sessions := by
  obtain ⟨hdialing, h⟩ := Option.ite_none_right_eq_some.mp h
  cases failure with
  | none =>
    cases h
    exact ⟨hs.setAttempt fun _ => hdialing.1, rfl⟩
  | some err =>
    obtain ⟨-, rfl⟩ := guard_eq_some.mp h
    have hset : Within (s.setAttempt i .failed) := hs.setAttempt nofun
    exact ⟨hset.moves rfl rfl fun _ => id, rfl⟩

theorem Within.once (h : s.once i = some t) :
    Within t ∧ t.sessions = s.sessions := by
  obtain ⟨hbuilt, h⟩ := Option.ite_none_right_eq_some.mp h
  have hlt : i < s.sessions.length := hs.built i (by rw [hbuilt]; rfl)
  split at h
  · cases h
    exact ⟨hs.setAttempt fun _ => hlt, rfl⟩
  obtain ⟨-, rfl⟩ := guard_eq_some.mp h
  have hset : Within (s.setAttempt i .won) := hs.setAttempt fun _ => hlt
  refine ⟨⟨hset.built, ?_⟩, rfl⟩
  intro w hw
  rcases hw with hw | hw
  · cases hw
    exact hlt
  · exact hs.chosen w (.inr hw)

theorem Within.loop {ev : Event} (h : s.step ev = some t)
    (hev : ev = .takeWinner ∨ ev = .takeFailure ∨ ev = .takeDone ∨ ev = .closeNext) :
    Within t ∧ t.sessions = s.sessions := by
  suffices hmoves : t.attempts = s.attempts ∧ t.sessions = s.sessions ∧
      ∀ w, t.Chosen w → s.Chosen w by
    exact ⟨hs.moves hmoves.1 hmoves.2.1 hmoves.2.2, hmoves.2.1⟩
  rcases hev with rfl | rfl | rfl | rfl
  · simp only [Race.step, Race.takeWinner] at h
    split at h <;> cases h
    rename_i w _ hresult
    refine ⟨rfl, rfl, ?_⟩
    rintro w' (hw | ⟨rest, hw⟩ | hw) <;> cases hw
    exact .inl hresult
  · simp only [Race.step, Race.takeFailure] at h
    split at h <;> cases h
    refine ⟨rfl, rfl, ?_⟩
    rintro w' (hw | ⟨rest, hw⟩ | hw)
    · exact .inl hw
    · simp only at hw
      split at hw <;> cases hw
    · simp only at hw
      split at hw <;> cases hw
  · simp only [Race.step, Race.takeDone] at h
    split at h <;> cases h
    refine ⟨rfl, rfl, ?_⟩
    rintro w' (hw | ⟨rest, hw⟩ | hw)
    · exact .inl hw
    · cases hw
    · cases hw
  · simp only [Race.step, Race.closeNext] at h
    split at h
    next outcome hloop =>
      cases h
      refine ⟨rfl, rfl, ?_⟩
      rintro w' (hw | ⟨rest, hw⟩ | hw)
      · exact .inl hw
      · cases hw
      · cases hw
        exact .inr (.inl ⟨[], hloop⟩)
    next signaling rest outcome hloop =>
      have hchosen : ∀ u : Race, u.result = s.result → u.loop = .closing rest outcome →
          ∀ w, u.Chosen w → s.Chosen w := by
        intro u hresult hu w hw
        rcases hw with hw | ⟨rest', hw⟩ | hw
        · exact .inl (hresult ▸ hw)
        · rw [hu] at hw
          cases hw
          exact Or.inr (Or.inl ⟨_, hloop⟩)
        · rw [hu] at hw
          cases hw
      cases h
      split
      · exact ⟨rfl, rfl, hchosen _ rfl rfl⟩
      · exact ⟨rfl, rfl, hchosen _ rfl rfl⟩
    · cases h

theorem Within.step {ev : Event} (h : s.step ev = some t) :
    Within t ∧ t.sessions = s.sessions := by
  cases ev with
  | expire err =>
    cases h
    exact ⟨hs.moves rfl rfl fun _ => id, rfl⟩
  | dial i failure => exact hs.dial h
  | once i => exact hs.once h
  | discard i =>
    obtain ⟨hlosing, rfl⟩ := guard_eq_some.mp h
    have hset : Within (s.setAttempt i .discarded) :=
      hs.setAttempt fun _ => hs.built i (by rw [hlosing]; rfl)
    exact ⟨hset.moves rfl rfl fun _ => id, rfl⟩
  | takeWinner | takeFailure | takeDone | closeNext => exact hs.loop h (by simp)

end

/-- In every run of the race whose steps keep the owners, a call that was not refused with a session
in hand leaves nothing open but what it returns. -/
theorem connections_owned {expected : String} {service : Nat}
    {sessions : List (Option SignalingSession)}
    (hargs : argumentError expected service sessions = none ∨ sessions.reduceOption = [])
    {es : List Event}
    (hrun : Run step KeepsOwner (connectWithSignalingSessions expected service sessions) es s)
    {outcome : Except String Nat} (hsettled : s.Settled outcome) : s.Owned outcome := by
  have hs : Inv s := hrun.invariant (fun hi hok hst => hi.step hok hst) (Inv.call hargs)
  exact hs.owned hsettled

def nostr : SignalingSession := ⟨0, "Native Nostr"⟩

def torrent : SignalingSession := ⟨1, "Native BitTorrent"⟩

theorem connections_owned_example : ∃ es s,
    Run step KeepsOwner (connectWithSignalingSessions "server" 80 [some nostr, some torrent]) es s ∧
    s.Settled (.ok 0) ∧ s.Owned (.ok 0) := by
  have hrun := run_exec step KeepsOwner
    (connectWithSignalingSessions "server" 80 [some nostr, some torrent])
    [.dial 0 none, .dial 1 none, .once 0, .once 1, .takeWinner, .discard 1, .closeNext, .closeNext,
      .closeNext] (by decide)
  refine ⟨_, _, hrun, ⟨rfl, by decide⟩, ?_⟩
  exact connections_owned (by decide) hrun ⟨rfl, by decide⟩

/-- The context ends while the winner is in the channel; and a session that has the winner's name
stays open. -/
theorem connection_left_open :
    (∃ es s, Run step Any (connectWithSignalingSessions "server" 80 [some nostr]) es s ∧
      ∃ err, s.Settled (.error err) ∧ ¬ s.Owned (.error err)) ∧
    ∃ es s, Run step Any (connectWithSignalingSessions "server" 80 [some nostr, some ⟨1, nostr.name⟩])
        es s ∧ s.Settled (.ok 0) ∧ ¬ s.Owned (.ok 0) := by
  constructor
  · have hrun := run_exec step Any (connectWithSignalingSessions "server" 80 [some nostr])
      [.dial 0 none, .once 0, .expire "context deadline exceeded", .takeDone, .closeNext, .closeNext]
      (by decide)
    refine ⟨_, _, hrun, _, ⟨rfl, by decide⟩, ?_⟩
    intro howned
    rcases howned.1 0 (by decide) with h | h
    · cases h
    · revert h
      decide
  · have hrun := run_exec step Any
      (connectWithSignalingSessions "server" 80 [some nostr, some ⟨1, nostr.name⟩])
      [.dial 1 (some "refused"), .dial 0 none, .once 0, .takeWinner, .closeNext, .closeNext,
        .closeNext] (by decide)
    refine ⟨_, _, hrun, ⟨rfl, by decide⟩, ?_⟩
    intro howned
    rcases howned.2 ⟨1, nostr.name⟩ (by decide) with h | ⟨w, hw, hid⟩
    · revert h
      decide
    cases hw
    revert hid
    decide

end Race

end P2PNetcat.NativeWebRTC
