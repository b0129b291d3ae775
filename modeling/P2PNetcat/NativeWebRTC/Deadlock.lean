import P2PNetcat.NativeWebRTC.LockingSteps

/-!
# Termination and a `Write` in the link

While the steps keep the links clear, every thread that waits for `writeMu` can
still get it, and whoever holds `l.mu` releases it with the help of the writers
alone. Without the condition a grace callback waits for ever for a `Write` that
waits for the callback to close the link.
-/

namespace P2PNetcat.NativeWebRTC

namespace Point

def locking : Point → Bool
  | .writeLock | .eofLock _ | .failLock _ => true
  | _ => false

theorem eq_window {p : Point} (howns : p.owning = true) (h : ¬ p.sending = true) :
    p = .writeWindow := by
  cases p <;> first | rfl | exact absurd rfl h | cases howns

/-- The sections a caller that holds `l.mu` has before it; `locked` says that its stream's `writeMu`
has an owner. -/
def closerRank (locked : Bool) : Point → Nat
  | .failSwap caller => 5 * caller.rest.length + 4
  | .failLock caller => 5 * caller.rest.length + 2 + if locked then 1 else 0
  | .linkClose caller => 5 * caller.rest.length + 1
  | _ => 0

end Point

/-- The points at which a thread holds no lock and waits for `writeMu`, `l.mu` or the link, and those
that lead there once the stream's `closed` flag is set. -/
def Point.parked : Point → Bool
  | .done | .writeLock | .eofLock _ | .failSwap .close | .failSwap .reset | .failLock .close
  | .failLock .reset | .abortSend | .closePeer => true
  | _ => false

/-- The thread holds no `l.mu`, and does not lead on from the stream 0. -/
def Thread.Parked (th : Thread) : Prop :=
  (th.entry = 0 → th.point.parked = true) ∧
  ∀ caller, th.point.caller = some caller → caller.holdsMu = false

namespace Locking
open Function StepSystem
variable {choice : Bool} {c : Conduit} {ev : Event} {p : Point}

variable {s t : Locking} {n e : Nat}

def Event.isThread : Event → Bool
  | .thread _ _ => true
  | _ => false

def Runs (s : Locking) (ev : Event) : Prop := s.KeepsClear ev ∧ ev.isThread = true

theorem step_thread {p' : Point} (hth : s.threads n = ⟨e, p⟩)
    (hp : ∀ caller, p = .linkClose caller → caller = .giveUp)
    (h : (s.conduits e).act n s.mu.isNone choice p = some (c, p')) :
    s.step (.thread n choice) = some (s.move n e c ⟨e, p'⟩) := by
  simp only [step, thread, hth]
  split
  · cases hp _ rfl
  · cases hp _ rfl
  · rw [h]
    rfl

theorem act_of_locked {free : Bool} (hp : p.locking = true)
    (hc : c.writeMu ≠ none) : c.act n free choice p = none := by
  have hsome : c.writeMu.isSome = true := Option.isSome_iff_ne_none.mpr hc
  cases p <;> first | exact if_pos hsome | cases hp

theorem act_of_unlocked {free : Bool} (hp : p.locking = true)
    (hc : c.writeMu = none) : ∃ c' p', c.act n free choice p = some (c', p') := by
  have hnone : ¬ c.writeMu.isSome = true := by simp [hc]
  cases p with
  | writeLock | eofLock =>
    simp only [Conduit.act, if_neg hnone]
    split <;> exact ⟨_, _, rfl⟩
  | failLock => exact ⟨_, _, if_neg hnone⟩
  | _ => cases hp

theorem step_threads (h : s.step ev = some t) (hn : n < s.threadCount)
    (hev : ∀ choice, ev ≠ .thread n choice) : t.threads n = s.threads n := by
  have hstart : ∀ th, update s.threads s.threadCount th n = s.threads n := fun _ =>
    update_of_ne (Nat.ne_of_lt hn) ..
  cases ev with
  | accept =>
    obtain ⟨-, rfl⟩ := unless_eq_some.mp h
    exact hstart _
  | connect =>
    cases h
    exact hstart _
  | call e call =>
    obtain ⟨-, rfl⟩ := guard_eq_some.mp h
    exact hstart _
  | activate e | expire e =>
    obtain ⟨-, h⟩ := Option.ite_none_left_eq_some.mp h
    obtain ⟨-, rfl⟩ := guard_eq_some.mp h
    exact hstart _
  | shutdown order =>
    obtain ⟨-, h⟩ := Option.ite_none_left_eq_some.mp h
    obtain ⟨-, h⟩ := Option.ite_none_right_eq_some.mp h
    cases order <;> cases h
    · rfl
    · exact hstart _
  | acknowledge e =>
    obtain ⟨-, rfl⟩ := guard_eq_some.mp h
    rfl
  | thread m choice =>
    have hm : n ≠ m := by
      rintro rfl
      exact hev choice rfl
    rcases thread_cases h with ⟨e, p, c, p', _, _, rfl⟩ | ⟨e, caller, hth, hcaller, hclose⟩
    · exact move_threads_ne _ hm
    cases caller with
    | expiry =>
      cases hclose
      exact update_of_ne hm ..
    | shutdown rest =>
      cases rest <;> cases hclose <;> exact update_of_ne hm ..
    | _ => cases hcaller

theorem thread_conduitCount (h : s.thread n choice = some t) :
    t.conduitCount = s.conduitCount := by
  rcases thread_cases h with ⟨e, p, c, p', _, _, rfl⟩ | ⟨e, caller, _, hcaller, hclose⟩
  · rfl
  cases caller with
  | expiry =>
    cases hclose
    rfl
  | shutdown rest => cases rest <;> cases hclose <;> rfl
  | _ => cases hcaller

theorem step_threads_of_locked (h : s.step ev = some t) (hn : n < s.threadCount)
    (hp : (s.threads n).point.locking = true)
    (hlocked : (s.conduits (s.threads n).entry).writeMu ≠ none) : t.threads n = s.threads n := by
  refine step_threads h hn ?_
  rintro choice rfl
  rcases hth : s.threads n with ⟨e, p⟩
  rw [hth] at hp hlocked
  simp only [step, thread, hth] at h
  split at h
  · cases hp
  · cases hp
  · rw [act_of_locked hp hlocked] at h
    cases h

section Progress
variable (hs : Inv s)
include hs

theorem Inv.owner_returns (hlt : e < s.conduitCount) {w : Nat}
    (hw : (s.conduits e).writeMu = some w)
    (hready : (s.threads w).point.sending = true ∧ (s.conduits e).sendable = true ∨
      (s.threads w).point = .writeWindow ∧ (s.conduits e).closed = true) :
    ∃ p', s.Runs (.thread w true) ∧ s.step (.thread w true) =
      some (s.move w e { s.conduits e with writeMu := none } ⟨e, p'⟩) := by
  obtain ⟨hentry, _⟩ := (hs.sound e hlt).owner w hw
  rcases hth : s.threads w with ⟨e', p⟩
  rw [hth] at hentry hready
  cases hentry
  rcases hready with ⟨hsending, hsendable⟩ | ⟨rfl, hclosed⟩
  · cases p with
    | writeSend | eofSend close =>
      exact ⟨_, ⟨by simp only [KeepsClear, hth], rfl⟩, step_thread hth (by rintro _ ⟨⟩) (if_pos hsendable)⟩
    | _ => cases hsending
  · refine ⟨_, ⟨?_, rfl⟩, step_thread hth (by rintro _ ⟨⟩) (if_pos hclosed)⟩
    simp only [KeepsClear, hth]
    intro hopen
    rw [hclosed] at hopen
    cases hopen

end Progress

def closerRank (s : Locking) : Nat :=
  match s.mu with
  | none => 0
  | some m => (s.threads m).point.closerRank (s.conduits (s.threads m).entry).writeMu.isSome

theorem closerRank_eq {m : Nat} (hth : s.threads m = ⟨e, p⟩) (hmu : s.mu = some m) :
    s.closerRank = p.closerRank (s.conduits e).writeMu.isSome := by
  simp only [closerRank, hmu, hth]

section Progress
variable (hs : Inv s)
include hs
variable {m : Nat}

theorem Inv.not_atSend_of_failLock {caller : Caller}
    (hth : s.threads m = ⟨e, .failLock caller⟩) (hcloses : caller.closesLink = true)
    (hwaits : (s.conduits e).sendable = false) : ¬ s.AtSend e := by
  intro hsend
  have hheads : (s.threads m).heads e = true := by
    rw [hth]
    exact Thread.heads_iff.mpr ⟨caller, rfl, .inr ⟨hcloses, rfl, rfl⟩⟩
  exact (hs.clear m e hheads hwaits hsend).2 caller hth

/-- Whoever is to close the link of a stream waits for `writeMu` only while its owner can leave. -/
theorem Inv.owner_ready {caller : Caller} (hth : s.threads m = ⟨e, .failLock caller⟩)
    (hcloses : caller.closesLink = true) {w : Nat} (hw : (s.conduits e).writeMu = some w) :
    (s.threads w).point.sending = true ∧ (s.conduits e).sendable = true ∨
      (s.threads w).point = .writeWindow ∧ (s.conduits e).closed = true := by
  have hfits := hs.fits_at hth
  obtain ⟨_, howns⟩ := (hs.sound e (hfits.bound nofun)).owner w hw
  by_cases hsending : (s.threads w).point.sending = true
  · refine .inl ⟨hsending, ?_⟩
    by_contra hwaits
    exact hs.not_atSend_of_failLock hth hcloses (by simpa using hwaits) ⟨w, hw, hsending⟩
  · exact .inr ⟨Point.eq_window howns hsending, hfits.closed rfl⟩

/-- Whoever holds `l.mu` has a section to enter, or waits for a writer that has one. -/
theorem Inv.closer_advances (hmu : s.mu = some m) :
    ∃ ev t, s.Runs ev ∧ s.step ev = some t ∧ t.closerRank < s.closerRank := by
  obtain ⟨caller, hcaller, hholds⟩ := hs.holder m hmu
  have hcloses : caller.closesLink = true := by
    cases caller <;> first | rfl | cases hholds
  rcases hth : s.threads m with ⟨e, p⟩
  rw [hth] at hcaller
  rw [closerRank_eq hth hmu]
  have hself : ∀ c p', (s.move m e c ⟨e, p'⟩).closerRank = p'.closerRank c.writeMu.isSome := by
    intro c p'
    rw [closerRank_eq (move_threads_self _) hmu, move_conduits_self]
  cases p with
  | failSwap k =>
    cases hcaller
    have hok : s.Runs (.thread m true) := ⟨by simp only [KeepsClear, hth], rfl⟩
    by_cases hclosed : (s.conduits e).closed = true
    · refine ⟨_, _, hok, step_thread hth (by rintro _ ⟨⟩) (if_pos hclosed), ?_⟩
      rw [hself, caller_of_after hcloses]
      simp [Point.closerRank]
    · refine ⟨_, _, hok, step_thread hth (by rintro _ ⟨⟩) (if_neg hclosed), ?_⟩
      rw [hself]
      simp only [Point.closerRank]
      split <;> omega
  | failLock k =>
    cases hcaller
    cases hw : (s.conduits e).writeMu with
    | none =>
      refine ⟨.thread m true, _, ⟨by simp only [KeepsClear, hth], rfl⟩,
        step_thread hth (by rintro _ ⟨⟩) (if_neg (by simp [hw])), ?_⟩
      rw [hself, caller_of_after hcloses]
      simp [Point.closerRank]
    | some w =>
      have hlt := (hs.fits_at hth).bound (by rintro ⟨⟩)
      obtain ⟨p', hok, hstep⟩ := hs.owner_returns hlt hw (hs.owner_ready hth hcloses hw)
      refine ⟨_, _, hok, hstep, ?_⟩
      have hmw : m ≠ w := by
        rintro rfl
        have howns := ((hs.sound e hlt).owner m hw).2
        rw [hth] at howns
        cases howns
      rw [closerRank_eq ((move_threads_ne _ hmw).trans hth) hmu, move_conduits_self]
      simp [Point.closerRank]
  | linkClose k =>
    cases hcaller
    have hok : s.Runs (.thread m true) := ⟨by simp only [KeepsClear, hth], rfl⟩
    cases caller with
    | expiry =>
      refine ⟨_, _, hok, by simp only [Locking.step, thread, hth, Locking.listClose]; rfl, ?_⟩
      simp [closerRank, Point.closerRank]
    | shutdown order =>
      cases order with
      | nil =>
        refine ⟨_, _, hok, by simp only [Locking.step, thread, hth, Locking.listClose]; rfl, ?_⟩
        simp [closerRank, Point.closerRank]
      | cons e' rest =>
        refine ⟨_, _, hok, by simp only [Locking.step, thread, hth, Locking.listClose]; rfl, ?_⟩
        rw [closerRank_eq (move_threads_self _) hmu]
        simp only [Point.closerRank, Caller.rest, List.length_cons]
        omega
    | _ => cases hholds
  | _ => cases hcaller

theorem Inv.unlocks : ∃ es t, Run Locking.step Runs s es t ∧
    (Inv t ∧ t.conduitCount = s.conduitCount) ∧ t.mu = none := by
  refine Run.exists_of_variant closerRank (fun t ht hheld => ?_) s ⟨hs, rfl⟩
  obtain ⟨m, hmu⟩ := Option.ne_none_iff_exists'.mp hheld
  obtain ⟨ev, u, hok, hst, hlt⟩ := ht.1.closer_advances hmu
  refine ⟨ev, u, hok, hst, ⟨ht.1.step hok.1 hst, ?_⟩, hlt⟩
  cases ev with
  | thread n choice => exact (thread_conduitCount hst).trans ht.2
  | _ => cases hok.2

end Progress

def Frees (s : Locking) (e : Nat) : Prop :=
  ∃ es t, Run step KeepsClear s es t ∧ (t.conduits e).writeMu = none

theorem Frees.cons (hok : s.KeepsClear ev) (hst : s.step ev = some t) (h : t.Frees e) : s.Frees e := by
  obtain ⟨es, u, hrun, hu⟩ := h
  exact ⟨ev :: es, u, .cons hok hst hrun, hu⟩

section Progress
variable (hs : Inv s)
include hs
variable {w : Nat}

theorem Inv.frees_of_ready (hlt : e < s.conduitCount) (hw : (s.conduits e).writeMu = some w)
    (hready : (s.threads w).point.sending = true ∧ (s.conduits e).sendable = true ∨
      (s.threads w).point = .writeWindow ∧ (s.conduits e).closed = true) : s.Frees e := by
  obtain ⟨p', hok, hst⟩ := hs.owner_returns hlt hw hready
  refine .cons hok.1 hst ⟨[], _, .nil _, ?_⟩
  rw [move_conduits_self]

theorem Inv.frees_of_window (hlt : e < s.conduitCount)
    (hth : s.threads w = ⟨e, .writeWindow⟩) (hsendable : (s.conduits e).sendable = true)
    (hopen : (s.conduits e).closed = false) (hroom : (s.conduits e).full = false) :
    s.Frees e := by
  have hok : s.KeepsClear (.thread w false) := by
    simp only [KeepsClear, hth]
    intro _ hwaits
    rw [hsendable] at hwaits
    cases hwaits
  have hst : s.step (.thread w false) =
      some (s.move w e { s.conduits e with full := false } ⟨e, .writeSend⟩) :=
    step_thread hth (by rintro _ ⟨⟩) ((if_neg (by simp [hopen])).trans (if_neg (by simp [hroom])))
  refine .cons hok hst ((hs.step hok hst).frees_of_ready hlt (w := w) ?_ (.inl ⟨?_, ?_⟩))
  · rw [move_conduits_self]
    exact (hs.fits_at hth).owns rfl
  · rw [move_threads_self]
    rfl
  · rw [move_conduits_self]
    exact hsendable

theorem Inv.frees_of_sendable (hlt : e < s.conduitCount)
    (hsendable : (s.conduits e).sendable = true) : s.Frees e := by
  cases hw : (s.conduits e).writeMu with
  | none => exact ⟨[], s, .nil s, hw⟩
  | some w =>
    obtain ⟨hentry, howns⟩ := (hs.sound e hlt).owner w hw
    by_cases hsending : (s.threads w).point.sending = true
    · exact hs.frees_of_ready hlt hw (.inl ⟨hsending, hsendable⟩)
    have hpoint := Point.eq_window howns hsending
    have hth : s.threads w = ⟨e, .writeWindow⟩ := by rw [← hentry, ← hpoint]
    by_cases hclosed : (s.conduits e).closed = true
    · exact hs.frees_of_ready hlt hw (.inr ⟨hpoint, hclosed⟩)
    have hopen : (s.conduits e).closed = false := by simpa using hclosed
    by_cases hfull : (s.conduits e).full = true
    · have hpeer : (s.conduits e).peer = true := by
        rcases Bool.or_eq_true_iff.mp hsendable with hpeer | hshut
        · exact hpeer
        · exact absurd ((hs.sound e hlt).shut hshut).1 hclosed
      have hok : s.KeepsClear (.acknowledge e) := trivial
      have hst : s.step (.acknowledge e) = some { s with
          conduits := update s.conduits e { s.conduits e with full := false } } :=
        if_pos (by simp [hlt, hpeer])
      refine .cons hok hst ((hs.step hok hst).frees_of_window hlt hth ?_ ?_ ?_)
      all_goals simp only [update_self]
      · exact hsendable
      · exact hopen
    · exact hs.frees_of_window hlt hth hsendable hopen (by simpa using hfull)

theorem Inv.frees_of_closing {m : Nat} {p : Point} (hth : s.threads m = ⟨e, p⟩)
    (hp : p = .closeLink ∨ p = .linkClose .giveUp) : s.Frees e := by
  have hlt : e < s.conduitCount := (hs.fits_at hth).bound (by rcases hp with rfl | rfl <;> rintro ⟨⟩)
  have hok : s.KeepsClear (.thread m true) := by
    rcases hp with rfl | rfl <;> simp only [KeepsClear, hth]
  have hst : s.step (.thread m true) = some (s.move m e (s.conduits e).shutLink ⟨e, .done⟩) := by
    rcases hp with rfl | rfl
    · exact step_thread hth (by rintro _ ⟨⟩) rfl
    · exact step_thread hth (fun caller heq => (Point.linkClose.inj heq).symm) rfl
  refine .cons hok hst ((hs.step hok hst).frees_of_sendable hlt ?_)
  rw [move_conduits_self]
  rfl

theorem Inv.frees_of_giveUp {m : Nat} {p : Point} (hth : s.threads m = ⟨e, p⟩)
    (hp : p.caller = some .giveUp) (hw : (s.conduits e).writeMu = some w) :
    s.Frees e := by
  have hlt : e < s.conduitCount := (hs.fits_at hth).bound (by rintro rfl; cases hp)
  have hlocked : ∀ {s : Locking}, Inv s → e < s.conduitCount →
      s.threads m = ⟨e, .failLock .giveUp⟩ → (s.conduits e).writeMu = some w → s.Frees e :=
    fun hs hlt hth hw => hs.frees_of_ready hlt hw (hs.owner_ready hth rfl hw)
  cases p with
  | failSwap k =>
    cases hp
    have hok : s.KeepsClear (.thread m true) := by simp only [KeepsClear, hth]
    by_cases hclosed : (s.conduits e).closed = true
    · have hst : s.step (.thread m true) = _ := step_thread hth (by rintro _ ⟨⟩) (if_pos hclosed)
      exact .cons hok hst ((hs.step hok hst).frees_of_closing (move_threads_self _) (.inr rfl))
    have hst : s.step (.thread m true) = _ := step_thread hth (by rintro _ ⟨⟩) (if_neg hclosed)
    refine .cons hok hst (hlocked (hs.step hok hst) hlt (move_threads_self _) ?_)
    rw [move_conduits_self]
    exact hw
  | failLock k =>
    cases hp
    exact hlocked hs hlt hth hw
  | linkClose k =>
    cases hp
    exact hs.frees_of_closing hth (.inr rfl)
  | _ => cases hp

theorem Inv.frees_of_free (hlt : e < s.conduitCount) (hmu : s.mu = none) : s.Frees e := by
  have hsound := hs.sound e hlt
  by_cases hsendable : (s.conduits e).sendable = true
  · exact hs.frees_of_sendable hlt hsendable
  have hwaits : (s.conduits e).sendable = false := by simpa using hsendable
  obtain ⟨hpeer, hopen⟩ := Bool.or_eq_false_iff.mp hwaits
  cases hw : (s.conduits e).writeMu with
  | none => exact ⟨[], s, .nil s, hw⟩
  | some w =>
    cases hclient : (s.conduits e).client with
    | false =>
      rcases hsound.listed hclient hwaits with hmapped | ⟨m, hm⟩ | ⟨m, hheld, _⟩
      · have hclosed : s.closed = false := by
          by_contra hclosed
          obtain ⟨m, hheld, _⟩ := hsound.visited (by simpa using hclosed) hclient hmapped
          rw [hmu] at hheld
          cases hheld
        have hnone : (s.conduits e).entryPeer = false := (hsound.entryPeer hclient hopen).trans hpeer
        have hok : s.KeepsClear (.activate e) := trivial
        have hst : s.step (.activate e) = some (s.start e { s.conduits e with
            peer := true, entryPeer := true, keeper := s.threadCount } .announcing) := by
          simp [Locking.step, Locking.activate, hmu, hclosed, hlt, hclient, hmapped, hnone, hpeer, hopen]
        refine .cons hok hst ((hs.step hok hst).frees_of_sendable hlt ?_)
        rw [show (s.start e _ _).conduits e = _ from update_self ..]
        rfl
      · exact hs.frees_of_closing hm (.inl rfl)
      · rw [hmu] at hheld
        cases hheld
    | true =>
      rcases hsound.kept hclient hwaits with ⟨hentry, hpoint⟩ | ⟨m, hm⟩
      · rcases hth : s.threads (s.conduits e).keeper with ⟨e', p⟩
        rw [hth] at hentry hpoint
        cases hentry
        rcases hpoint with rfl | hcaller
        · have hok : s.KeepsClear (.thread (s.conduits e').keeper true) := by
            simp only [KeepsClear, hth]
            rintro ⟨⟩
          have hst : s.step (.thread (s.conduits e').keeper true) = _ :=
            step_thread hth (by rintro _ ⟨⟩) (if_pos (by simp [hpeer, hopen]))
          refine .cons hok hst ((hs.step hok hst).frees_of_sendable hlt ?_)
          rw [move_conduits_self]
          rfl
        · exact hs.frees_of_giveUp hth hcaller hw
      · exact hs.frees_of_closing hm (.inl rfl)

theorem Inv.frees (hlt : e < s.conduitCount) : s.Frees e := by
  obtain ⟨es, t, hrun, ⟨ht, hcount⟩, hmu⟩ := hs.unlocks
  obtain ⟨fs, u, hrun', hu⟩ := ht.frees_of_free (hcount ▸ hlt) hmu
  exact ⟨es ++ fs, u, (hrun.mono fun _ _ hok => hok.1).append hrun', hu⟩

theorem Inv.enters (hp : (s.threads n).point.locking = true) :
    ∃ fs t u, Run Locking.step KeepsClear s fs t ∧ t.threads n = s.threads n ∧
      t.step (.thread n true) = some u := by
  have hpoint : (s.threads n).point ≠ .done := by
    intro hdone
    rw [hdone] at hp
    cases hp
  obtain ⟨fs, t, hrun, ht⟩ := hs.frees ((hs.fits n).bound hpoint)
  have hstays : ∀ {u v : Locking} {ev : Event}, Inv u ∧ u.threads n = s.threads n →
      ¬ (u.conduits (s.threads n).entry).writeMu = none → u.KeepsClear ev → u.step ev = some v →
      Inv v ∧ v.threads n = s.threads n := by
    rintro u v ev ⟨hu, hth⟩ hlocked hok hst
    rw [← hth] at hpoint hp hlocked
    have hsame := step_threads_of_locked hst (hu.lt_threadCount hpoint) hp hlocked
    exact ⟨hu.step hok hst, hsame.trans hth⟩
  obtain ⟨fs', u, hrun', ⟨_, hth⟩, hu⟩ := hrun.exists_until hstays ht ⟨hs, rfl⟩
  obtain ⟨c, p', hact⟩ := act_of_unlocked hp hu
  refine ⟨fs', u, _, hrun', hth, step_thread hth ?_ hact⟩
  rintro k heq
  rw [heq] at hp
  cases hp

end Progress

/-- While every step keeps the links clear, nobody who is to close a link waits for a writer that is
in `link.Send` for a peer; every thread that waits for `writeMu` can still get it; and a grace callback
or `Listener.Close` that holds `l.mu` is brought to unlock it by the threads of the program alone. -/
theorem no_thread_waits_forever {es : List Event} (h : Run step KeepsClear {} es s) :
    (∀ n e caller, s.threads n = ⟨e, .failLock caller⟩ → caller.closesLink = true →
      (s.conduits e).sendable = false → ¬ s.AtSend e) ∧
    (∀ n, (s.threads n).point.locking = true → ∃ fs t u, Run step KeepsClear s fs t ∧
      t.threads n = s.threads n ∧ t.step (.thread n true) = some u) ∧
    ∀ n, s.mu = some n → ∃ fs t, Run step Runs s fs t ∧ t.mu = none := by
  have hs := inv_of_run h
  refine ⟨fun n e caller => hs.not_atSend_of_failLock, fun n => hs.enters, fun n _ => ?_⟩
  obtain ⟨fs, t, hrun, _, hmu⟩ := hs.unlocks
  exact ⟨fs, t, hrun, hmu⟩

/-- A grace callback that holds `l.mu` waits for a `Write` whose window is full. -/
theorem no_thread_waits_forever_example : ∃ es s, Run step KeepsClear {} es s ∧ s.mu = some 3 ∧
    s.threads 3 = ⟨0, .failLock .expiry⟩ ∧ (s.conduits 0).writeMu = some 2 ∧
    (∃ fs t u, Run step KeepsClear s fs t ∧ t.threads 3 = s.threads 3 ∧
      t.step (.thread 3 true) = some u) ∧
    ∃ fs t, Run step Runs s fs t ∧ t.mu = none := by
  have hrun := run_exec step KeepsClear {} [.accept, .call 0 .write, .thread 1 true, .thread 1 true,
    .thread 1 true, .call 0 .write, .thread 2 true, .thread 0 false, .thread 0 true, .expire 0,
    .thread 3 true] (by decide)
  obtain ⟨_, henters, hunlocks⟩ := no_thread_waits_forever hrun
  exact ⟨_, _, hrun, by decide, by decide, by decide, henters 3 (by decide), hunlocks 3 (by decide)⟩

/-- A stream without a peer whose `closed` flag is set while thread 1 owns `writeMu`. -/
def stranded : Conduit :=
  { closed := true, writeMu := some 1, peer := false, mapped := false, entryPeer := false }

/-- The grace callback, thread 2, waits for `writeMu` with `l.mu`, the `Write` in thread 1 for the
link, and everything else at the stream for one of the two locks or for the link. -/
structure Stuck (s : Locking) : Prop where
  mu : s.mu = some 2
  expiry : s.threads 2 = ⟨0, .failLock .expiry⟩
  write : s.threads 1 = ⟨0, .writeSend⟩
  stream : s.conduits 0 = stranded
  counts : 2 < s.threadCount ∧ 0 < s.conduitCount
  others : ∀ n, n ≠ 1 → n ≠ 2 → (s.threads n).Parked

theorem act_stranded {p' : Point} (hp : p.parked = true)
    (h : stranded.act n false choice p = some (c, p')) : c = stranded ∧ p'.parked = true := by
  cases p with
  | failSwap caller =>
    cases caller <;> cases h <;> first | exact ⟨rfl, rfl⟩ | cases hp
  | _ => first | (cases hp; done) | cases h

theorem Stuck.start {count : Nat} (hs : Stuck s)
    (hc : e = 0 → c = stranded) (hp : Thread.Parked ⟨e, p⟩) (hcount : s.conduitCount ≤ count) :
    Stuck { s.start e c p with conduitCount := count } := by
  have hother : ∀ n, n ≠ s.threadCount →
      update s.threads s.threadCount ⟨e, p⟩ n = s.threads n := fun _ hn =>
    update_of_ne hn ..
  have hlt := hs.counts.1
  refine ⟨hs.mu, (hother 2 (by omega)).trans hs.expiry, (hother 1 (by omega)).trans hs.write, ?_,
    ⟨Nat.lt_succ_of_lt hlt, Nat.lt_of_lt_of_le hs.counts.2 hcount⟩, fun n hn1 hn2 => ?_⟩
  · by_cases he : e = 0
    · subst he
      have hself : update s.conduits 0 c 0 = c := update_self ..
      exact hself.trans (hc rfl)
    · exact (update_of_ne (Ne.symm he) ..).trans hs.stream
  · by_cases hn : n = s.threadCount
    · subst hn
      rw [show Locking.threads _ _ = _ from update_self ..]
      exact hp
    · rw [show Locking.threads _ n = _ from hother n hn]
      exact hs.others n hn1 hn2

theorem Stuck.step (hs : Stuck s) (h : s.step ev = some t) : Stuck t := by
  have hmu : s.mu.isSome = true := by rw [hs.mu]; rfl
  cases ev with
  | accept =>
    simp only [Locking.step, hmu] at h
    cases h
  | connect =>
    cases h
    refine hs.start (fun he => ?_) ⟨fun he => ?_, by rintro _ ⟨⟩⟩ (Nat.le_succ _)
    all_goals exact absurd he (Nat.ne_of_gt hs.counts.2)
  | call e call =>
    obtain ⟨-, rfl⟩ := guard_eq_some.mp h
    refine hs.start (fun he => he ▸ hs.stream) ⟨fun _ => ?_, fun caller hcaller => ?_⟩ (Nat.le_refl _)
    · cases call <;> rfl
    · cases call <;> cases hcaller
      rfl
  | activate e =>
    simp only [Locking.step, Locking.activate, hmu] at h
    cases h
  | expire e =>
    simp only [Locking.step, Locking.expire, hmu] at h
    cases h
  | shutdown order =>
    simp only [Locking.step, Locking.shutdown, hmu] at h
    cases h
  | acknowledge e =>
    obtain ⟨hpeer, rfl⟩ := guard_eq_some.mp h
    have he : e ≠ 0 := by
      rintro rfl
      rw [hs.stream] at hpeer
      simp [stranded] at hpeer
    exact ⟨hs.mu, hs.expiry, hs.write, (update_of_ne (Ne.symm he) ..).trans hs.stream,
      hs.counts, hs.others⟩
  | thread n choice =>
    rcases thread_cases h with ⟨e, p, c, p', hth, hact, rfl⟩ | ⟨e, caller, hth, hcaller, _⟩
    · have hfree : s.mu.isNone = false := by rw [hs.mu]; rfl
      rw [hfree] at hact
      have hn1 : n ≠ 1 := by
        rintro rfl
        cases hth.symm.trans hs.write
        rw [hs.stream] at hact
        cases hact
      have hn2 : n ≠ 2 := by
        rintro rfl
        cases hth.symm.trans hs.expiry
        rw [hs.stream] at hact
        cases hact
      obtain ⟨hparked, hholds⟩ := hs.others n hn1 hn2
      rw [hth] at hparked hholds
      have hstream : e = 0 → c = stranded ∧ p'.parked = true := by
        rintro rfl
        rw [hs.stream] at hact
        exact act_stranded (hparked rfl) hact
      refine ⟨hs.mu, (move_threads_ne _ hn2.symm).trans hs.expiry,
        (move_threads_ne _ hn1.symm).trans hs.write, ?_, hs.counts, fun m hm1 hm2 => ?_⟩
      · by_cases he : e = 0
        · subst he
          rw [move_conduits_self]
          exact (hstream rfl).1
        · rw [move_conduits_ne _ (Ne.symm he)]
          exact hs.stream
      · by_cases hm : m = n
        · subst hm
          rw [move_threads_self]
          refine ⟨fun he => (hstream he).2, fun caller hcaller => ?_⟩
          by_contra hmu'
          have hbefore := caller_before_acts (Conduit.acts_of_act hact) hcaller (by simpa using hmu')
          exact hmu' (hholds caller hbefore)
        · rw [move_threads_ne _ hm]
          exact hs.others m hm1 hm2
    · have hn1 : n ≠ 1 := by
        rintro rfl
        cases hth.symm.trans hs.write
      have hn2 : n ≠ 2 := by
        rintro rfl
        cases hth.symm.trans hs.expiry
      have hfalse := (hs.others n hn1 hn2).2 caller (by rw [hth]; rfl)
      rw [hcaller] at hfalse
      cases hfalse

/-- The peer is lost, a `Write` waits in `link.Send`, the grace ends: in every continuation the
callback and the `Write` wait for each other, with `l.mu` held. -/
theorem expiry_waits_forever : ∃ es s, Run step Any {} es s ∧ ∀ fs t, Run step Any s fs t →
    t.mu = some 2 ∧ t.threads 2 = ⟨0, .failLock .expiry⟩ ∧ t.threads 1 = ⟨0, .writeSend⟩ ∧
    (t.conduits 0).writeMu = some 1 ∧ ∀ choice, t.step (.thread 2 choice) = none := by
  have hrun := run_exec step Any {} [.accept, .call 0 .write, .thread 1 true, .thread 0 false,
    .thread 0 true, .thread 1 false, .expire 0, .thread 2 true] (by decide)
  refine ⟨_, _, hrun, fun fs t ht => ?_⟩
  have hstuck : Stuck t := by
    refine ht.invariant (fun hs _ hst => hs.step hst) ⟨by decide, by decide, by decide, by decide,
      by decide, fun n hn1 hn2 => ?_⟩
    match n with
    | 0 => exact ⟨fun _ => by decide, nofun⟩
    | 1 => exact absurd rfl hn1
    | 2 => exact absurd rfl hn2
    | n + 3 => exact ⟨fun _ => rfl, nofun⟩
  refine ⟨hstuck.mu, hstuck.expiry, hstuck.write, by rw [hstuck.stream]; rfl, fun choice => ?_⟩
  simp only [step, thread, hstuck.expiry, hstuck.stream]
  rfl

end Locking

end P2PNetcat.NativeWebRTC
