import P2PNetcat.Library.StepSystem
import Mathlib.Logic.Function.Basic

/-!
# The race of the two routes

`openAnyStream` opens a libp2p stream and a native WebRTC connection at once and
takes the first that succeeds over an unbuffered channel. Here each opening is one
operation that returns a stream or an error at some time; which streams were opened
and which were reset or closed is part of the state.
-/

namespace P2PNetcat.Cli
open Function StepSystem

inductive Route where
  | libp2p | native
  deriving DecidableEq

/-- A goroutine of the race: opening, in its `select` with the outcome, or through. -/
inductive RouteBranch where
  | opening
  | offering (outcome : Except String Unit)
  | finished

/-- The caller: inside `openLibp2p` without a race, in the loop, or returned. -/
inductive RoutePhase where
  | direct
  | racing (failures : List String)
  | returned (outcome : Except String Route)

structure RouteRace where
  phase : RoutePhase
  branch : Route → RouteBranch
  /-- `ctx.Err()` of the caller's context. -/
  ctxErr : Option String := none
  /-- `cancel` of `raceCtx` was called. -/
  cancelled : Bool := false
  opened : Route → Bool := fun _ => false
  closed : Route → Bool := fun _ => false

inductive RouteEvent where
  | ctxDone (err : String)
  | opens (route : Route) (outcome : Except String Unit)
  | receive (route : Route)
  | abandon (route : Route)
  | done

namespace RouteRace
variable {outcome : Except String Unit}

def openAnyStream (enableNative : Bool) : RouteRace :=
  if enableNative then { phase := .racing [], branch := fun _ => .opening }
  else
    { phase := .direct
      branch
        | .libp2p => .opening
        | .native => .finished }

def raceDone (s : RouteRace) : Bool := s.cancelled || s.ctxErr.isSome

def finish (s : RouteRace) (outcome : Except String Route) : RouteRace :=
  { s with phase := .returned outcome, cancelled := true }

def setBranch (s : RouteRace) (route : Route) (branch : RouteBranch) : RouteRace :=
  { s with branch := update s.branch route branch }

def afterOpening (s : RouteRace) (route : Route) : Except String Unit → RouteRace
  | .ok () => { s with opened := update s.opened route true }
  | .error _ => s

def opens (s : RouteRace) (route : Route) (outcome : Except String Unit) : RouteRace :=
  match s.phase with
  | .direct => ((s.afterOpening route outcome).setBranch route .finished).finish
      (outcome.map fun _ => route)
  | _ => (s.afterOpening route outcome).setBranch route (.offering outcome)

def receive (s : RouteRace) (route : Route) (failures : List String) : Except String Unit → RouteRace
  | .ok () => (s.setBranch route .finished).finish (.ok route)
  | .error err =>
    let failures := failures ++ [err]
    if failures.length < 2 then { s.setBranch route .finished with phase := .racing failures }
    else (s.setBranch route .finished).finish (.error ("\n".intercalate failures))

/-- The goroutine finds its context done; a stream it holds is reset or closed. -/
def abandon (s : RouteRace) (route : Route) : Except String Unit → RouteRace
  | .ok () => { s.setBranch route .finished with closed := update s.closed route true }
  | .error _ => s.setBranch route .finished

def step (s : RouteRace) : RouteEvent → Option RouteRace
  | .ctxDone err => if s.ctxErr = none then some { s with ctxErr := some err } else none
  | .opens route outcome =>
    match s.branch route with
    | .opening => some (s.opens route outcome)
    | _ => none
  | .receive route =>
    match s.phase, s.branch route with
    | .racing failures, .offering outcome => some (s.receive route failures outcome)
    | _, _ => none
  | .abandon route =>
    match s.branch route with
    | .offering outcome => if s.raceDone = true then some (s.abandon route outcome) else none
    | _ => none
  | .done =>
    match s.phase, s.ctxErr with
    | .racing _, some err => some (s.finish (.error err))
    | _, _ => none

def Returned (s : RouteRace) (route : Route) : Prop := s.phase = .returned (.ok route)

/-- Who answers for the stream of a route: its goroutine while it offers the stream; after that the
caller, or nobody if it was closed. -/
def Answered (s : RouteRace) (route : Route) : Prop :=
  match s.branch route with
  | .opening | .offering (.error _) =>
    s.opened route = false ∧ s.closed route = false ∧ ¬ s.Returned route
  | .offering (.ok ()) => s.opened route = true ∧ s.closed route = false ∧ ¬ s.Returned route
  | .finished =>
    (s.opened route = s.closed route ∧ ¬ s.Returned route) ∨
      (s.opened route = true ∧ s.closed route = false ∧ s.Returned route)

structure Inv (s : RouteRace) : Prop where
  answered : ∀ route, s.Answered route
  cancelled : ∀ outcome, s.phase = .returned outcome → s.cancelled = true
  direct : s.phase = .direct → s.branch .libp2p = .opening ∧ s.branch .native = .finished

variable {s t : RouteRace} {route other : Route}

theorem Inv.moved (hs : Inv s) (route : Route) (hanswered : t.Answered route)
    (hother : ∀ other, other ≠ route → t.branch other = s.branch other ∧
      t.opened other = s.opened other ∧ t.closed other = s.closed other ∧
      (t.Returned other ↔ s.Returned other))
    (hcancelled : ∀ outcome, t.phase = .returned outcome → t.cancelled = true)
    (hdirect : t.phase ≠ .direct) : Inv t where
  answered := by
    intro other
    by_cases heq : other = route
    · rw [heq]
      exact hanswered
    obtain ⟨hbranch, hopened, hclosed, hreturned⟩ := hother other heq
    rw [Answered, hbranch, hopened, hclosed, hreturned]
    exact hs.answered other
  cancelled := hcancelled
  direct := fun h => absurd h hdirect

theorem Inv.openAnyStream (enableNative : Bool) : Inv (openAnyStream enableNative) := by
  rw [RouteRace.openAnyStream]
  split
  · exact ⟨fun _ => ⟨rfl, rfl, nofun⟩, nofun, nofun⟩
  refine ⟨?_, nofun, fun _ => ⟨rfl, rfl⟩⟩
  intro route
  cases route with
  | libp2p => exact ⟨rfl, rfl, nofun⟩
  | native => exact .inl ⟨rfl, nofun⟩

section
variable (hs : Inv s)
include hs

theorem Inv.opens (hopening : s.branch route = .opening)
    (outcome : Except String Unit) : Inv (s.opens route outcome) := by
  have hroute := hs.answered route
  rw [Answered, hopening] at hroute
  obtain ⟨hopened, hclosed, hnot⟩ := hroute
  rw [RouteRace.opens.eq_def]
  split
  next hphase =>
    -- without a race the outcome is returned
    have hnone : ∀ other, ¬ s.Returned other := by
      intro other hreturned
      cases hphase.symm.trans hreturned
    cases outcome with
    | ok =>
      refine hs.moved route ?_ ?_ (fun _ _ => rfl) nofun
      · rw [Answered]
        simp only [finish, setBranch, afterOpening, update_self]
        exact .inr ⟨trivial, hclosed, rfl⟩
      · intro other hne
        refine ⟨update_of_ne hne .., update_of_ne hne .., rfl, ?_⟩
        refine iff_of_false ?_ (hnone other)
        intro hreturned
        injection hreturned with hreturned
        exact hne (Except.ok.inj hreturned).symm
    | error err =>
      refine hs.moved route ?_ ?_ (fun _ _ => rfl) nofun
      · rw [Answered]
        simp only [finish, setBranch, afterOpening, update_self]
        exact .inl ⟨hopened.trans hclosed.symm, nofun⟩
      · intro other hne
        exact ⟨update_of_ne hne .., rfl, rfl, iff_of_false nofun (hnone other)⟩
  next hphase =>
    cases outcome with
    | ok =>
      refine hs.moved route ?_ ?_ hs.cancelled hphase
      · rw [Answered]
        simp only [setBranch, afterOpening, update_self]
        exact ⟨trivial, hclosed, hnot⟩
      · intro other hne
        exact ⟨update_of_ne hne .., update_of_ne hne .., rfl, Iff.rfl⟩
    | error err =>
      refine hs.moved route ?_ ?_ hs.cancelled hphase
      · rw [Answered]
        simp only [setBranch, afterOpening, update_self]
        exact ⟨hopened, hclosed, hnot⟩
      · intro other hne
        exact ⟨update_of_ne hne .., rfl, rfl, Iff.rfl⟩

theorem Inv.receive {failures : List String} (hphase : s.phase = .racing failures)
    (hoffer : s.branch route = .offering outcome) :
    Inv (s.receive route failures outcome) := by
  have hroute := hs.answered route
  rw [Answered, hoffer] at hroute
  have hnone : ∀ other, ¬ s.Returned other := by
    intro other hreturned
    cases hphase.symm.trans hreturned
  cases outcome with
  | ok =>
    obtain ⟨hopened, hclosed, -⟩ := hroute
    refine hs.moved route ?_ ?_ (fun _ _ => rfl) nofun
    · rw [Answered]
      simp only [RouteRace.receive, finish, setBranch, update_self]
      exact .inr ⟨hopened, hclosed, rfl⟩
    · intro other hne
      refine ⟨update_of_ne hne .., rfl, rfl, iff_of_false ?_ (hnone other)⟩
      intro hreturned
      injection hreturned with hreturned
      exact hne (Except.ok.inj hreturned).symm
  | error err =>
    obtain ⟨hopened, hclosed, -⟩ := hroute
    simp only [RouteRace.receive]
    split
    · refine hs.moved route ?_ ?_ nofun nofun
      · rw [Answered]
        simp only [setBranch, update_self]
        exact .inl ⟨hopened.trans hclosed.symm, nofun⟩
      · intro other hne
        exact ⟨update_of_ne hne .., rfl, rfl, iff_of_false nofun (hnone other)⟩
    · refine hs.moved route ?_ ?_ (fun _ _ => rfl) nofun
      · rw [Answered]
        simp only [finish, setBranch, update_self]
        exact .inl ⟨hopened.trans hclosed.symm, nofun⟩
      · intro other hne
        exact ⟨update_of_ne hne .., rfl, rfl, iff_of_false nofun (hnone other)⟩

theorem Inv.not_direct
    (hoffer : s.branch route = .offering outcome) : s.phase ≠ .direct := by
  intro hphase
  obtain ⟨hlibp2p, hnative⟩ := hs.direct hphase
  cases route with
  | libp2p => cases hlibp2p.symm.trans hoffer
  | native => cases hnative.symm.trans hoffer

theorem Inv.abandon
    (hoffer : s.branch route = .offering outcome) : Inv (s.abandon route outcome) := by
  have hroute := hs.answered route
  rw [Answered, hoffer] at hroute
  have hdirect := hs.not_direct hoffer
  cases outcome with
  | ok =>
    obtain ⟨hopened, hclosed, hnot⟩ := hroute
    refine hs.moved route ?_ ?_ hs.cancelled hdirect
    · rw [Answered]
      simp only [RouteRace.abandon, setBranch, update_self]
      exact .inl ⟨hopened, hnot⟩
    · intro other hne
      exact ⟨update_of_ne hne .., rfl, update_of_ne hne .., Iff.rfl⟩
  | error err =>
    obtain ⟨hopened, hclosed, hnot⟩ := hroute
    refine hs.moved route ?_ ?_ hs.cancelled hdirect
    · rw [Answered]
      simp only [RouteRace.abandon, setBranch, update_self]
      exact .inl ⟨hopened.trans hclosed.symm, hnot⟩
    · intro other hne
      exact ⟨update_of_ne hne .., rfl, rfl, Iff.rfl⟩

theorem Inv.done {failures : List String} (hphase : s.phase = .racing failures)
    (err : String) : Inv (s.finish (.error err)) where
  answered := by
    intro route
    have hroute := hs.answered route
    have hsame : (s.finish (.error err)).Returned route ↔ s.Returned route := by
      refine iff_of_false nofun ?_
      intro hreturned
      cases hphase.symm.trans hreturned
    rw [Answered, hsame]
    exact hroute
  cancelled := fun _ _ => rfl
  direct := nofun

theorem Inv.step {e : RouteEvent} (hstep : s.step e = some t) : Inv t := by
  cases e with
  | ctxDone err =>
    obtain ⟨-, rfl⟩ := guard_eq_some.mp hstep
    exact ⟨hs.answered, hs.cancelled, hs.direct⟩
  | opens route outcome =>
    rw [RouteRace.step] at hstep
    split at hstep
    next hopening =>
      cases hstep
      exact hs.opens hopening outcome
    · cases hstep
  | receive route =>
    rw [RouteRace.step] at hstep
    split at hstep
    next failures outcome hphase hoffer =>
      cases hstep
      exact hs.receive hphase hoffer
    · cases hstep
  | abandon route =>
    rw [RouteRace.step] at hstep
    split at hstep
    next outcome hoffer =>
      obtain ⟨-, rfl⟩ := guard_eq_some.mp hstep
      exact hs.abandon hoffer
    · cases hstep
  | done =>
    rw [RouteRace.step] at hstep
    split at hstep
    next failures err hphase _ =>
      cases hstep
      exact hs.done hphase err
    · cases hstep

end

/-- In every run of `openAnyStream`: once it has returned and both goroutines are through, every
stream that was opened is the returned one, of which there is at most one, or was closed, and not
both; and a goroutine that holds an outcome can always hand it over or give up. -/
theorem route_race_ownership {enableNative : Bool} {es : List RouteEvent}
    (hrun : Run step Any (openAnyStream enableNative) es s) :
    (∀ outcome, s.phase = .returned outcome → (∀ route, s.branch route = .finished) →
      ∀ route, s.opened route = true →
        (outcome = .ok route ∧ s.closed route = false) ∨
          (outcome ≠ .ok route ∧ s.closed route = true)) ∧
    (∀ route, s.phase = .returned (.ok route) → s.opened route = true) ∧
    (∀ route outcome, s.branch route = .offering outcome →
      (∃ failures, s.phase = .racing failures ∧ (s.step (.receive route)).isSome) ∨
        (∃ returned, s.phase = .returned returned ∧ ∃ t, s.step (.abandon route) = some t ∧
          t.branch route = .finished)) := by
  have hs : Inv s := hrun.invariant (fun h _ hstep => h.step hstep) (.openAnyStream enableNative)
  refine ⟨?_, ?_, ?_⟩
  · intro outcome hphase hfinished route hopened
    have hroute := hs.answered route
    rw [Answered, hfinished route] at hroute
    rcases hroute with ⟨hsame, hnot⟩ | ⟨-, hclosed, hreturned⟩
    · refine .inr ⟨?_, hsame.symm.trans hopened⟩
      rintro rfl
      exact hnot hphase
    · have heq := hphase.symm.trans hreturned
      injection heq with heq
      exact .inl ⟨heq, hclosed⟩
  · intro route hreturned
    have hroute := hs.answered route
    rw [Answered] at hroute
    split at hroute
    · exact absurd hreturned hroute.2.2
    · exact absurd hreturned hroute.2.2
    · exact hroute.1
    · rcases hroute with ⟨-, hnot⟩ | ⟨hopened, -⟩
      · exact absurd hreturned hnot
      · exact hopened
  · intro route outcome hoffer
    cases hphase : s.phase with
    | direct => exact absurd hphase (hs.not_direct hoffer)
    | racing failures =>
      refine .inl ⟨failures, rfl, ?_⟩
      simp only [step, hphase, hoffer, Option.isSome_some]
    | returned returned =>
      have hdone : s.raceDone = true := by
        rw [raceDone, hs.cancelled returned hphase, Bool.true_or]
      refine .inr ⟨returned, rfl, s.abandon route outcome, ?_, ?_⟩
      · simp only [step, hoffer, hdone, if_true]
      · cases outcome <;> exact update_self ..

section Example

theorem route_race_ownership_example :
    ∃ s, Run step Any (openAnyStream true) [.opens .libp2p (.ok ()), .opens .native (.ok ()),
      .receive .libp2p, .abandon .native] s ∧ s.phase = .returned (.ok .libp2p) ∧
      s.closed .libp2p = false ∧ s.closed .native = true := by
  have hrun := run_exec step Any (openAnyStream true) [.opens .libp2p (.ok ()),
    .opens .native (.ok ()), .receive .libp2p, .abandon .native] rfl
  have hall := (route_race_ownership hrun).1 (.ok .libp2p) rfl fun route => by cases route <;> rfl
  refine ⟨_, hrun, rfl, ?_, ?_⟩
  · rcases hall .libp2p rfl with ⟨-, hclosed⟩ | ⟨hne, -⟩
    · exact hclosed
    · exact absurd rfl hne
  · rcases hall .native rfl with ⟨heq, -⟩ | ⟨-, hclosed⟩
    · cases heq
    · exact hclosed

end Example

end RouteRace

end P2PNetcat.Cli
