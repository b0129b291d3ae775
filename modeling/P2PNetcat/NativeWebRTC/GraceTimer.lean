import P2PNetcat.NativeWebRTC.ListenerBookkeeping

/-!
# The grace timers of the listener

`Stop` does not wait for a callback that has already started. A callback that
waits for `l.mu` while its stream is reattached and lost again finds an entry
without a peer, and cannot tell that the outage is not its own.
-/

namespace P2PNetcat.NativeWebRTC
open Function ByteCodec StepSystem

def reconnectGrace : Nat := 120 * 1000000000

/-- A timer that has not fired, one whose callback waits for `l.mu`, and one that was stopped or
whose callback has run. -/
inductive TimerState where
  | armed | waiting | ended
  deriving DecidableEq

structure GraceTimer where
  entry : Nat := 0
  armedAt : Nat := 0
  state : TimerState := .ended
  deriving DecidableEq

def Listener.detaches (l : Listener) (i : Nat) : Option Nat :=
  match (l.peers i).point with
  | .returned e =>
    if l.streams (l.peers i).offer.sender = some e ∧ (l.entries e).peer = some i then some e
    else none
  | _ => none

/-- A listener on a clock. `timer` is the field of the entries, `lostAt` the time of the last loss
of each; the timers say which callbacks can run. -/
structure TimedListener where
  listener : Listener := {}
  clock : Nat := 0
  timers : Nat → GraceTimer := fun _ => {}
  timerCount : Nat := 0
  timer : Nat → Option Nat := fun _ => none
  lostAt : Nat → Nat := fun _ => 0

namespace TimedListener

inductive Event where
  | listener (event : Listener.Event)
  | tick (elapsed : Nat)
  | fire (timer : Nat)
  | callback (timer : Nat)
  deriving DecidableEq

/-- `Stop` on the timers of the given entries: those that have fired go on. -/
def stopTimers (s : TimedListener) (entries : Nat → Bool) : TimedListener :=
  { s with
    timers := fun k =>
      if entries (s.timers k).entry && decide (s.timer (s.timers k).entry = some k) &&
          decide ((s.timers k).state = .armed) then
        { s.timers k with state := .ended }
      else s.timers k }

def setTimer (s : TimedListener) (k : Nat) (state : TimerState) : TimedListener :=
  { s with timers := update s.timers k { s.timers k with state } }

def arm (s : TimedListener) (e : Nat) : TimedListener :=
  { s with
    timers := update s.timers s.timerCount ⟨e, s.clock, .armed⟩
    timerCount := s.timerCount + 1
    timer := update s.timer e (some s.timerCount)
    lostAt := update s.lostAt e s.clock }

def operateTimers (s : TimedListener) (t : Listener) : Listener.Event → TimedListener
  | .activate i _ =>
    match (t.peers i).point with
    | .rebinding e => { s.stopTimers (· == e) with timer := update s.timer e none }
    | _ => s
  | .watch i =>
    match s.listener.detaches i with
    | some e => s.arm e
    | none => s
  | .closer n =>
    if (s.listener.closers n).point = .start ∧ s.listener.holds (s.listener.closers n).entry then
      s.stopTimers (· == (s.listener.closers n).entry)
    else s
  | .shutdown _ => s.stopTimers s.listener.holds
  | _ => s

def callback (l : Listener) (e : Nat) : Listener :=
  if l.holds e && (l.entries e).peer.isNone then
    l.terminate e "native WebRTC peer did not reconnect within 120 seconds"
  else l

def step (L : Libp2p) (cfg : ListenerConfig L) (s : TimedListener) : Event → Option TimedListener
  | .listener (.expire _) => none
  | .listener event =>
    match s.listener.step L cfg event with
    | some t => some { s.operateTimers t event with listener := t }
    | none => none
  | .tick elapsed => some { s with clock := s.clock + elapsed }
  | .fire k =>
    if (s.timers k).state = .armed ∧ (s.timers k).armedAt + reconnectGrace ≤ s.clock then
      some (s.setTimer k .waiting)
    else none
  | .callback k =>
    if (s.timers k).state = .waiting then
      some { s.setTimer k .ended with listener := callback s.listener (s.timers k).entry }
    else none

/-- A loss is recorded only when no started callback of an earlier loss of the stream is waiting
for `l.mu`. -/
def NoStaleCallback (s : TimedListener) : Event → Prop
  | .listener (.watch i) =>
    match s.listener.detaches i with
    | some e => ∀ k, k < s.timerCount → (s.timers k).entry = e → (s.timers k).state ≠ .waiting
    | none => True
  | _ => True

instance (s : TimedListener) (ev : Event) : Decidable (s.NoStaleCallback ev) := by
  unfold NoStaleCallback
  split
  · split <;> infer_instance
  · infer_instance

variable {L : Libp2p} {cfg : ListenerConfig L} {s s' : TimedListener}

/-- Which timers are left for the streams of the map: none that has not fired while a stream has
a peer, and while it has none, the one armed at its last loss. -/
structure TimersInv (s : TimedListener) : Prop where
  book : s.listener.BookkeepingInv
  fresh : ∀ k, s.timerCount ≤ k → (s.timers k).state = .ended
  bounded : ∀ k, (s.timers k).state ≠ .ended → (s.timers k).entry < s.listener.entryCount
  unset : ∀ e, s.listener.entryCount ≤ e → s.timer e = none
  elapsed : ∀ k, (s.timers k).state = .waiting → (s.timers k).armedAt + reconnectGrace ≤ s.clock
  attached : ∀ remote e, s.listener.streams remote = some e →
    (s.listener.entries e).peer ≠ none → s.timer e = none
  armed : ∀ remote k, s.listener.streams remote = some (s.timers k).entry →
    (s.timers k).state = .armed → s.timer (s.timers k).entry = some k
  outage : ∀ remote k, s.listener.streams remote = some (s.timers k).entry →
    (s.listener.entries (s.timers k).entry).peer = none → (s.timers k).state ≠ .ended →
    s.timer (s.timers k).entry = some k ∧ (s.timers k).armedAt = s.lostAt (s.timers k).entry

theorem TimersInv.initial : TimersInv {} :=
  ⟨.initial, fun _ _ => rfl, fun _ h => absurd rfl h, fun _ _ => rfl, nofun, nofun, nofun, nofun⟩

section Steps
variable (h : TimersInv s)
include h
variable {k : Nat} {t : Listener} {remote : Bytes}

theorem TimersInv.listener (hbook : t.BookkeepingInv)
    (hcount : t.entryCount = s.listener.entryCount) (hkept : s.listener.Kept t) :
    TimersInv { s with listener := t } := by
  refine ⟨hbook, h.fresh, fun k hk => ?_, fun e he => h.unset e (hcount ▸ he), h.elapsed,
    fun remote e he hpeer => ?_, fun remote k he hk => ?_, fun remote k he hpeer hk => ?_⟩
  · rw [hcount]
    exact h.bounded k hk
  · obtain ⟨hold, hsame⟩ := hkept remote e he
    exact h.attached remote e hold (hsame ▸ hpeer)
  · exact h.armed remote k (hkept remote _ he).1 hk
  · obtain ⟨hold, hsame⟩ := hkept remote _ he
    exact h.outage remote k hold (hsame ▸ hpeer) hk

theorem TimersInv.of_timers {timers : Nat → GraceTimer}
    (hsame : ∀ k, (timers k).entry = (s.timers k).entry ∧ (timers k).armedAt = (s.timers k).armedAt)
    (hover : ∀ k, (s.timers k).state = .ended → (timers k).state = .ended)
    (harmed : ∀ k, (timers k).state = .armed → (s.timers k).state = .armed)
    (hwaiting : ∀ k, (timers k).state = .waiting → (s.timers k).armedAt + reconnectGrace ≤ s.clock) :
    TimersInv { s with timers } := by
  refine ⟨h.book, fun k hk => hover k (h.fresh k hk), fun k hk => ?_, h.unset, fun k hk => ?_,
    h.attached, fun remote k he hk => ?_, fun remote k he hpeer hk => ?_⟩
  · dsimp only at hk ⊢
    rw [(hsame k).1]
    exact h.bounded k fun hold => hk (hover k hold)
  · dsimp only
    rw [(hsame k).2]
    exact hwaiting k hk
  · dsimp only at he ⊢
    rw [(hsame k).1] at he ⊢
    exact h.armed remote k he (harmed k hk)
  · dsimp only at he hpeer ⊢
    rw [(hsame k).1] at he hpeer ⊢
    rw [(hsame k).2]
    exact h.outage remote k he hpeer fun hold => hk (hover k hold)

theorem TimersInv.stopTimers (entries : Nat → Bool) : TimersInv (s.stopTimers entries) := by
  refine h.of_timers (fun k => ?_) (fun k hk => ?_) (fun k hk => ?_) fun k hk => ?_
  · split <;> exact ⟨rfl, rfl⟩
  · split
    · rfl
    · exact hk
  · split at hk
    · cases hk
    · exact hk
  · split at hk
    · cases hk
    · exact h.elapsed k hk

theorem TimersInv.setTimer {state : TimerState} (hlive : (s.timers k).state ≠ .ended)
    (hstate : state ≠ .armed)
    (hwaiting : state = .waiting → (s.timers k).armedAt + reconnectGrace ≤ s.clock) :
    TimersInv (s.setTimer k state) := by
  refine h.of_timers (fun j => ?_) (fun j hj => ?_) (fun j hj => ?_) fun j hj => ?_
  all_goals by_cases heq : j = k
  · subst heq
    simp
  · simp [update_of_ne heq]
  · subst heq
    exact absurd hj hlive
  · rwa [update_of_ne heq]
  · subst heq
    rw [update_self] at hj
    exact absurd hj hstate
  · rwa [update_of_ne heq] at hj
  · subst heq
    rw [update_self] at hj
    exact hwaiting hj
  · rw [update_of_ne heq] at hj
    exact h.elapsed j hj

theorem TimersInv.callback (e : Nat) : TimersInv { s with listener := callback s.listener e } := by
  unfold TimedListener.callback
  split
  · refine h.listener (h.book.terminate e _) (Listener.terminate_entryCount _ _ _)
      fun remote e' he' => ?_
    obtain ⟨hold, hne⟩ := h.book.of_remove (Listener.terminate_streams _ _ _) he'
    rw [Listener.terminate_entries, update_of_ne hne]
    exact ⟨hold, rfl⟩
  · exact h

theorem TimersInv.tick (elapsed : Nat) : TimersInv { s with clock := s.clock + elapsed } := by
  refine ⟨h.book, h.fresh, h.bounded, h.unset, fun k hk => ?_, h.attached, h.armed, h.outage⟩
  have hpast := h.elapsed k hk
  dsimp only
  omega

theorem TimersInv.create (hbook : t.BookkeepingInv)
    (hcount : t.entryCount = s.listener.entryCount + 1)
    (hstreams : t.streams = update s.listener.streams remote (some s.listener.entryCount))
    (hentries : ∀ e, e ≠ s.listener.entryCount → t.entries e = s.listener.entries e) :
    TimersInv { s with listener := t } := by
  have hmap : ∀ remote' e, t.streams remote' = some e →
      e = s.listener.entryCount ∨ e ≠ s.listener.entryCount ∧ s.listener.streams remote' = some e := by
    intro remote' e he
    by_cases hnew : e = s.listener.entryCount
    · exact .inl hnew
    refine .inr ⟨hnew, ?_⟩
    rw [hstreams] at he
    by_cases heq : remote' = remote
    · simp only [heq, update_self, Option.some.injEq] at he
      exact absurd he.symm hnew
    · rwa [update_of_ne heq] at he
  refine ⟨hbook, h.fresh, fun k hk => ?_, fun e he => ?_, h.elapsed, fun remote' e he hpeer => ?_,
    fun remote' k he hk => ?_, fun remote' k he hpeer hk => ?_⟩
  · have hlt := h.bounded k hk
    dsimp only at hlt ⊢
    omega
  · exact h.unset e (by dsimp only at he; omega)
  · rcases hmap remote' e he with rfl | ⟨hne, hold⟩
    · exact h.unset _ (Nat.le_refl _)
    · exact h.attached remote' e hold (hentries e hne ▸ hpeer)
  · have hlt := h.bounded k (by rw [hk]; nofun)
    rcases hmap remote' _ he with hnew | ⟨_, hold⟩
    · dsimp only at hnew
      omega
    · exact h.armed remote' k hold hk
  · have hlt := h.bounded k hk
    rcases hmap remote' _ he with hnew | ⟨hne, hold⟩
    · dsimp only at hnew
      omega
    · exact h.outage remote' k hold (hentries _ hne ▸ hpeer) hk

section
variable (hmapped : s.listener.streams remote = some (s.timers k).entry)
include hmapped

theorem TimersInv.not_armed
    (hpeer : (s.listener.entries (s.timers k).entry).peer ≠ none) : (s.timers k).state ≠ .armed := by
  intro harmed
  have hset := h.armed remote k hmapped harmed
  rw [h.attached remote _ hmapped hpeer] at hset
  cases hset

theorem TimersInv.not_armed_of_stop :
    ((s.stopTimers (· == (s.timers k).entry)).timers k).state ≠ .armed := by
  intro harmed
  simp only [TimedListener.stopTimers] at harmed
  split at harmed
  · cases harmed
  next hkept =>
    simp [h.armed remote k hmapped harmed, harmed] at hkept

end

theorem TimersInv.attach {e : Nat} (hbook : t.BookkeepingInv)
    (hcount : t.entryCount = s.listener.entryCount) (hstreams : t.streams = s.listener.streams)
    (hself : (t.entries e).peer ≠ none)
    (hentries : ∀ e', e' ≠ e → t.entries e' = s.listener.entries e') :
    TimersInv { s.stopTimers (· == e) with
      timer := update s.timer e none
      listener := t } := by
  have hentry : ∀ k, ((s.stopTimers (· == e)).timers k).entry = (s.timers k).entry := by
    intro k
    simp only [TimedListener.stopTimers]
    split <;> rfl
  have hstop := h.stopTimers (· == e)
  refine ⟨hbook, hstop.fresh, fun k hk => ?_, fun e' he' => ?_, hstop.elapsed,
    fun remote e' he' hpeer => ?_, fun remote k he' hk => ?_, fun remote k he' hpeer hk => ?_⟩
  · rw [hcount]
    exact hstop.bounded k hk
  · by_cases heq : e' = e
    · simp [heq]
    · dsimp only
      rw [update_of_ne heq]
      exact h.unset e' (hcount ▸ he')
  · by_cases heq : e' = e
    · simp [heq]
    · dsimp only at he' hpeer ⊢
      rw [hstreams] at he'
      rw [hentries e' heq] at hpeer
      rw [update_of_ne heq]
      exact h.attached remote e' he' hpeer
  · dsimp only at he' hk ⊢
    rw [hstreams] at he'
    by_cases heq : (s.timers k).entry = e
    · rw [hentry] at he'
      subst heq
      exact absurd hk (h.not_armed_of_stop he')
    · rw [update_of_ne (by rwa [hentry])]
      exact hstop.armed remote k he' hk
  · dsimp only at he' hpeer hk ⊢
    rw [hstreams] at he'
    by_cases heq : ((s.stopTimers (· == e)).timers k).entry = e
    · rw [heq] at hpeer
      exact absurd hpeer hself
    rw [hentries _ heq] at hpeer
    rw [update_of_ne heq]
    exact hstop.outage remote k he' hpeer hk

theorem TimersInv.detach {e : Nat} (hbook : t.BookkeepingInv)
    (hcount : t.entryCount = s.listener.entryCount) (hstreams : t.streams = s.listener.streams)
    (hmapped : s.listener.streams remote = some e)
    (hbefore : (s.listener.entries e).peer ≠ none) (hself : (t.entries e).peer = none)
    (hstale : ∀ k, k < s.timerCount → (s.timers k).entry = e → (s.timers k).state ≠ .waiting)
    (hentries : ∀ e', e' ≠ e → t.entries e' = s.listener.entries e') :
    TimersInv { s.arm e with listener := t } := by
  have hlt := (h.book.mapped remote e hmapped).1
  -- what was left of earlier outages has ended before this one
  have hover : ∀ k, (s.timers k).entry = e → (s.timers k).state = .ended := by
    rintro k rfl
    cases hstate : (s.timers k).state with
    | armed => exact absurd hstate (h.not_armed hmapped hbefore)
    | waiting =>
      refine absurd hstate (hstale k ?_ rfl)
      by_contra hge
      rw [h.fresh k (Nat.not_lt.mp hge)] at hstate
      cases hstate
    | ended => rfl
  have hold : ∀ k, k ≠ s.timerCount → (s.arm e).timers k = s.timers k :=
    fun k hk => update_of_ne hk _ _
  have hnew : (s.arm e).timers s.timerCount = ⟨e, s.clock, .armed⟩ := update_self _ _ _
  have hfield : ∀ e', e' ≠ e → (s.arm e).timer e' = s.timer e' ∧ (s.arm e).lostAt e' = s.lostAt e' :=
    fun e' he' => ⟨update_of_ne he' _ _, update_of_ne he' _ _⟩
  have hcurrent : (s.arm e).timer e = some s.timerCount ∧ (s.arm e).lostAt e = s.clock :=
    ⟨update_self _ _ _, update_self _ _ _⟩
  refine ⟨hbook, fun k hk => ?_, fun k hk => ?_, fun e' he' => ?_, fun k hk => ?_,
    fun remote' e' he' hpeer => ?_, fun remote' k he' hk => ?_, fun remote' k he' hpeer hk => ?_⟩
  · have hle : s.timerCount + 1 ≤ k := hk
    dsimp only
    rw [hold k (by omega)]
    exact h.fresh k (by omega)
  · dsimp only at hk ⊢
    rw [hcount]
    by_cases heq : k = s.timerCount
    · rw [heq, hnew]
      exact hlt
    · rw [hold k heq] at hk ⊢
      exact h.bounded k hk
  · have hle : s.listener.entryCount ≤ e' := hcount ▸ he'
    dsimp only
    rw [(hfield e' (by omega)).1]
    exact h.unset e' hle
  · dsimp only at hk ⊢
    by_cases heq : k = s.timerCount
    · rw [heq, hnew] at hk
      cases hk
    · rw [hold k heq] at hk ⊢
      exact h.elapsed k hk
  · have hne : e' ≠ e := by
      rintro rfl
      exact hpeer hself
    dsimp only at he' hpeer ⊢
    rw [hstreams] at he'
    rw [hentries e' hne] at hpeer
    rw [(hfield e' hne).1]
    exact h.attached remote' e' he' hpeer
  · dsimp only at he' hk ⊢
    by_cases heq : k = s.timerCount
    · rw [heq, hnew]
      exact hcurrent.1
    rw [hold k heq] at he' hk ⊢
    rw [hstreams] at he'
    have hne : (s.timers k).entry ≠ e := fun heq => by
      rw [hover k heq] at hk
      cases hk
    rw [(hfield _ hne).1]
    exact h.armed remote' k he' hk
  · dsimp only at he' hpeer hk ⊢
    by_cases heq : k = s.timerCount
    · rw [heq, hnew]
      exact ⟨hcurrent.1, hcurrent.2.symm⟩
    rw [hold k heq] at he' hpeer hk ⊢
    rw [hstreams] at he'
    have hne : (s.timers k).entry ≠ e := fun heq => hk (hover k heq)
    rw [hentries _ hne] at hpeer
    rw [(hfield _ hne).1, (hfield _ hne).2]
    exact h.outage remote' k he' hpeer hk

theorem TimersInv.operateTimers {ev : Listener.Event}
    (hactivate : ∀ i stopped, ev ≠ .activate i stopped) (hwatch : ∀ i, ev ≠ .watch i) :
    TimersInv (s.operateTimers t ev) ∧ (s.operateTimers t ev).listener = s.listener := by
  unfold TimedListener.operateTimers
  split
  · exact absurd rfl (hactivate _ _)
  · exact absurd rfl (hwatch _)
  · split
    · exact ⟨h.stopTimers _, rfl⟩
    · exact ⟨h, rfl⟩
  · exact ⟨h.stopTimers _, rfl⟩
  · exact ⟨h, rfl⟩

theorem TimersInv.activate {i : Nat} {stopped : Bool}
    (ht : s.listener.step L cfg (.activate i stopped) = some t) :
    TimersInv { s.operateTimers t (.activate i stopped) with listener := t } := by
  have hbook := h.book.step ht
  cases Listener.stepped_of_step ht with
  | refused hp =>
    simp only [TimedListener.operateTimers, Listener.setPeer, update_self]
    exact h.listener hbook rfl fun _ _ he => ⟨he, rfl⟩
  | created hp hopen hfree =>
    simp only [TimedListener.operateTimers, Listener.setEntry, Listener.setPeer, update_self]
    exact h.create hbook rfl rfl fun e hne => update_of_ne hne _ _
  | @attached _ e pending _ hp hstream hfree =>
    simp only [TimedListener.operateTimers, Listener.setEntry, Listener.setPeer, update_self]
    refine h.attach hbook rfl rfl ?_ fun e' hne => update_of_ne hne _ _
    simp

theorem TimersInv.watch {i : Nat} (hok : s.NoStaleCallback (.listener (.watch i)))
    (ht : s.listener.step L cfg (.watch i) = some t) :
    TimersInv { s.operateTimers t (.watch i) with listener := t } := by
  have hbook := h.book.step ht
  cases Listener.stepped_of_step ht with
  | @finished _ e hp hstale =>
    have hnone : s.listener.detaches i = none := by
      rw [Listener.detaches, hp]
      exact if_neg fun hboth => hstale.elim (absurd hboth.1) (absurd hboth.2)
    simp only [TimedListener.operateTimers, hnone]
    exact h.listener hbook rfl fun _ _ he => ⟨he, rfl⟩
  | @detached _ e hp hstream hpeer =>
    have hsome : s.listener.detaches i = some e := by
      rw [Listener.detaches, hp]
      exact if_pos ⟨hstream, hpeer⟩
    simp only [NoStaleCallback, hsome] at hok
    simp only [TimedListener.operateTimers, hsome]
    refine h.detach hbook rfl rfl hstream ?_ ?_ hok fun e' hne => update_of_ne hne _ _
    · rw [hpeer]
      nofun
    · simp [Listener.setEntry]

theorem TimersInv.onListener {ev : Listener.Event}
    (hok : s.NoStaleCallback (.listener ev)) (ht : s.listener.step L cfg ev = some t) :
    TimersInv { s.operateTimers t ev with listener := t } := by
  by_cases hactivate : ∃ i stopped, ev = .activate i stopped
  · obtain ⟨i, stopped, rfl⟩ := hactivate
    exact h.activate ht
  by_cases hwatch : ∃ i, ev = .watch i
  · obtain ⟨i, rfl⟩ := hwatch
    exact h.watch hok ht
  have hne : ∀ i stopped, ev ≠ .activate i stopped := fun i stopped heq => hactivate ⟨i, stopped, heq⟩
  have hne' : ∀ i, ev ≠ .watch i := fun i heq => hwatch ⟨i, heq⟩
  obtain ⟨hinv, hlistener⟩ := h.operateTimers (t := t) hne hne'
  refine hinv.listener (h.book.step ht) ?_ ?_
  · rw [hlistener]
    exact Listener.entryCount_of_step ht hne
  · rw [hlistener]
    exact h.book.kept ht hne hne'

theorem TimersInv.step {ev : Event} (hok : s.NoStaleCallback ev)
    (ht : TimedListener.step L cfg s ev = some s') : TimersInv s' := by
  unfold TimedListener.step at ht
  split at ht
  · cases ht
  · split at ht
    next t hstep =>
      cases ht
      exact h.onListener hok hstep
    · cases ht
  · cases ht
    exact h.tick _
  · obtain ⟨hdue, rfl⟩ := guard_eq_some.mp ht
    exact h.setTimer (by rw [hdue.1]; nofun) nofun fun _ => hdue.2
  next k =>
    obtain ⟨hwaiting, rfl⟩ := guard_eq_some.mp ht
    have hover : TimersInv (s.setTimer k .ended) :=
      h.setTimer (by rw [hwaiting]; nofun) nofun nofun
    exact hover.callback _

end Steps

/-- A callback that changes anything ends the stream of its timer, which has no peer. -/
theorem step_callback {k : Nat} (ht : step L cfg s (.callback k) = some s')
    (hchange : s'.listener ≠ s.listener) :
    (s.timers k).state = .waiting ∧
    s.listener.streams (s.listener.entries (s.timers k).entry).remote = some (s.timers k).entry ∧
    (s.listener.entries (s.timers k).entry).peer = none := by
  obtain ⟨hwaiting, rfl⟩ := guard_eq_some.mp ht
  unfold callback at hchange
  split at hchange
  next hcond =>
    simp only [Bool.and_eq_true, Option.isNone_iff_eq_none] at hcond
    exact ⟨hwaiting, by simpa [Listener.holds] using hcond.1, hcond.2⟩
  · exact absurd rfl hchange

end TimedListener

/-- In every run in which no loss is recorded while a started callback of an earlier loss of the
stream waits for `l.mu`, a grace callback that has an effect is the one armed at the last loss of
its stream, and the stream has been without a peer for the whole grace period since. -/
theorem grace_callback_ends_own_outage (L : Libp2p) (cfg : ListenerConfig L)
    {es : List TimedListener.Event} {s s' : TimedListener} {k : Nat}
    (hrun : Run (TimedListener.step L cfg) TimedListener.NoStaleCallback {} es s)
    (ht : TimedListener.step L cfg s (.callback k) = some s') (hends : s'.listener ≠ s.listener) :
    (s.listener.entries (s.timers k).entry).peer = none ∧
    s.timer (s.timers k).entry = some k ∧
    (s.timers k).armedAt = s.lostAt (s.timers k).entry ∧
    s.lostAt (s.timers k).entry + reconnectGrace ≤ s.clock := by
  have hinv : s.TimersInv :=
    hrun.invariant (fun hi hok ht => hi.step hok ht) TimedListener.TimersInv.initial
  obtain ⟨hwaiting, hmapped, hpeer⟩ := TimedListener.step_callback ht hends
  obtain ⟨hcurrent, harmed⟩ := hinv.outage _ k hmapped hpeer (by rw [hwaiting]; nofun)
  exact ⟨hpeer, hcurrent, harmed, harmed ▸ hinv.elapsed k hwaiting⟩

section Example

def exampleOutage : List Listener.Event :=
  listenerHandshake 0 ++ [.activate 0 false, .lose 0, .forward 0 .closed, .watch 0] ++
    listenerHandshake 1

def exampleReturn : List Listener.Event :=
  [.activate 1 false, .reconnected 1 none, .lose 1, .forward 1 .closed, .watch 1]

theorem grace_callback_ends_own_outage_example : ∃ es s s',
    Run (TimedListener.step trustingLibp2p exampleListener) TimedListener.NoStaleCallback {} es s ∧
    TimedListener.step trustingLibp2p exampleListener s (.callback 0) = some s' ∧
    (s'.listener.entries 0).stream.closed = true ∧ s.timer 0 = some 0 ∧
    s.lostAt 0 + reconnectGrace ≤ s.clock := by
  have hrun := run_exec (TimedListener.step trustingLibp2p exampleListener)
    TimedListener.NoStaleCallback {} (exampleOutage.map .listener ++ [.tick reconnectGrace, .fire 0])
    (by decide)
  have hown := grace_callback_ends_own_outage trustingLibp2p exampleListener (k := 0) hrun
    (Option.some_get (by decide)).symm fun hsame => by
      have hstream := congrArg (fun l => (l.entries 0).stream.closed) hsame
      revert hstream
      decide
  exact ⟨_, _, _, hrun, (Option.some_get (by decide)).symm, by decide, hown.2.1, hown.2.2.2⟩

/-- The callback of the first outage has started when the second peer is bound to the stream; it
gets `l.mu` after that peer has been lost too, and ends the stream at once. -/
theorem stale_grace_callback : ∃ es s s',
    Run (TimedListener.step trustingLibp2p exampleListener) Any {} es s ∧
    TimedListener.step trustingLibp2p exampleListener s (.callback 0) = some s' ∧
    (s.listener.entries 0).stream.closed = false ∧ (s'.listener.entries 0).stream.closed = true ∧
    (s'.listener.entries 0).link.closed = true ∧ s.timer 0 = some 1 ∧ s.clock = s.lostAt 0 := by
  have hrun := run_exec (TimedListener.step trustingLibp2p exampleListener) Any {}
    (exampleOutage.map .listener ++ [.tick reconnectGrace, .fire 0] ++ exampleReturn.map .listener)
    (by decide)
  refine ⟨_, _, _, hrun, (Option.some_get ?_).symm, ?_, ?_, ?_, ?_, ?_⟩
  all_goals decide

end Example

end P2PNetcat.NativeWebRTC
