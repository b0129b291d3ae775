import P2PNetcat.NativeWebRTC.LockingInvariant

/-!
# The invariant in every run

A step starts a thread, moves one through a section, or lets an acknowledgement
in. Each keeps the invariant.
-/

namespace P2PNetcat.NativeWebRTC.Locking
open Function StepSystem

variable {s t : Locking} {n e : Nat}

theorem Inv.of_same (hs : Inv s) (hthreads : t.threads = s.threads)
    (hcount : t.threadCount = s.threadCount)
    (hconduits : ∀ e, ∃ full, t.conduits e = { s.conduits e with full })
    (hconduitCount : t.conduitCount = s.conduitCount) (hmu : t.mu = s.mu)
    (hvisited : ∀ e, e < s.conduitCount → t.closed = true → (s.conduits e).client = false →
      (s.conduits e).mapped = true → ∃ m, s.mu = some m ∧ (s.threads m).Visits e) : Inv t where
  fresh := fun n hle => by
    rw [hthreads]
    exact hs.fresh n (hcount ▸ hle)
  holder := by
    rw [hmu, hthreads]
    exact hs.holder
  fits := fun n => by
    rw [hthreads]
    have hfits := hs.fits n
    obtain ⟨full, hc⟩ := hconduits (s.threads n).entry
    rw [hc]
    refine ⟨hconduitCount ▸ hfits.bound, hfits.owns, hfits.closed, hfits.keeps, hfits.givesUp,
      fun caller hcaller hholds => ?_⟩
    obtain ⟨hheld, hclient, hrest⟩ := hfits.holds caller hcaller hholds
    refine ⟨hmu.trans hheld, hclient, fun e' he' => ?_⟩
    obtain ⟨full', hc'⟩ := hconduits e'
    rw [hc', hconduitCount]
    exact hrest e' he'
  sound := fun e hlt => by
    rw [hconduitCount] at hlt
    refine (hs.sound e hlt).of_stays (fun m _ => ⟨by rw [hthreads], hmu.trans⟩) (hconduits e) ?_
    obtain ⟨full, hc⟩ := hconduits e
    rw [hc, hmu, hthreads]
    exact hvisited e hlt
  clear := fun n e => by
    obtain ⟨full, hc⟩ := hconduits e
    rw [AtSend, hc, hthreads]
    exact hs.clear n e

section Start
variable {c : Conduit} {p : Point} {mu : Option Nat} {closed : Bool} {count : Nat} {m e' : Nat}

def started (s : Locking) (e : Nat) (c : Conduit) (p : Point) (mu : Option Nat) (closed : Bool)
    (count : Nat) : Locking :=
  { s.start e c p with mu, closed, conduitCount := count }

@[simp] theorem started_threads_self :
    (s.started e c p mu closed count).threads s.threadCount = ⟨e, p⟩ := update_self ..

theorem started_threads_ne (hm : m ≠ s.threadCount) :
    (s.started e c p mu closed count).threads m = s.threads m := update_of_ne hm ..

@[simp] theorem started_conduits_self : (s.started e c p mu closed count).conduits e = c :=
  update_self ..

theorem started_conduits_ne (he : e' ≠ e) :
    (s.started e c p mu closed count).conduits e' = s.conduits e' := update_of_ne he ..

variable (hs : Inv s)
include hs

theorem Inv.ne_threadCount (hm : (s.threads m).point ≠ .done) : m ≠ s.threadCount :=
  Nat.ne_of_lt (hs.lt_threadCount hm)

theorem Inv.ne_of_caller {caller : Caller} (hm : (s.threads m).point.caller = some caller) :
    m ≠ s.threadCount := by
  refine hs.ne_threadCount fun hdone => ?_
  rw [hdone] at hm
  cases hm

theorem Inv.owner_started (hlt : e < s.conduitCount) {w : Nat}
    (hw : (s.conduits e).writeMu = some w) :
    (s.started e' c p mu closed count).threads w = s.threads w ∧
      (s.threads w).entry = e ∧ (s.threads w).point.owning = true := by
  obtain ⟨hentry, howns⟩ := (hs.sound e hlt).owner w hw
  refine ⟨started_threads_ne (hs.ne_threadCount fun hdone => ?_), hentry, howns⟩
  rw [hdone] at howns
  cases howns

theorem Inv.atSend_started (hlt : e' < s.conduitCount)
    (hsend : (s.started e c p mu closed count).AtSend e')
    (hw : c.writeMu = (s.conduits e).writeMu) : s.AtSend e' := by
  obtain ⟨w, hmu, hsending⟩ := hsend
  have howner : (s.conduits e').writeMu = some w := by
    by_cases he : e' = e
    · subst he
      rw [started_conduits_self] at hmu
      exact hw ▸ hmu
    · rw [started_conduits_ne he] at hmu
      exact hmu
  rw [(hs.owner_started hlt howner).1] at hsending
  exact ⟨w, howner, hsending⟩

theorem Inv.visits_started (hmu : s.mu = some m) (hvisits : (s.threads m).Visits e') :
    ∃ m, s.mu = some m ∧ ((s.started e c p mu closed count).threads m).Visits e' := by
  obtain ⟨rest, hcaller, hmem⟩ := hvisits
  refine ⟨m, hmu, ?_⟩
  rw [started_threads_ne (hs.ne_of_caller hcaller)]
  exact ⟨rest, hcaller, hmem⟩

theorem Inv.near_started (hmu : mu = s.mu ∨ s.mu = none ∧ mu = some s.threadCount)
    (hcount : s.conduitCount ≤ count) (hothers : ∀ e', e' ≠ e → e' < count → e' < s.conduitCount)
    (hkeeps : e < s.conduitCount → (s.conduits e).Keeps c s.threadCount) :
    Near s (s.started e c p mu closed count) s.threadCount e where
  threads := fun _ hm => started_threads_ne hm
  conduits := fun _ he => started_conduits_ne he
  role := .inl (by rw [hs.fresh _ (Nat.le_refl _)])
  mu := fun m hm => by
    rcases hmu with rfl | ⟨hfree, rfl⟩
    · exact Iff.rfl
    · rw [hfree]
      exact ⟨fun h => absurd (Option.some.inj h).symm hm, nofun⟩
  keeps := fun hlt => by
    rw [started_conduits_self]
    exact hkeeps hlt
  count := hcount
  others := hothers

theorem Inv.started (hmu : mu = s.mu ∨ s.mu = none ∧ mu = some s.threadCount ∧
      ∃ caller, p.caller = some caller ∧ caller.holdsMu = true)
    (hcount : s.conduitCount ≤ count) (hothers : ∀ e', e' ≠ e → e' < count → e' < s.conduitCount)
    (hkeeps : e < s.conduitCount → (s.conduits e).Keeps c s.threadCount)
    (hfits : (s.started e c p mu closed count).Fits s.threadCount e p c)
    (hsound : (s.started e c p mu closed count).Sound e)
    (hvisited : ∀ e', e' ≠ e → e' < s.conduitCount → closed = true →
      (s.conduits e').client = false → (s.conduits e').mapped = true →
      ∃ m, mu = some m ∧ ((s.started e c p mu closed count).threads m).Visits e')
    (hclear : ∀ m, ((s.started e c p mu closed count).threads m).heads e = true →
      c.sendable = false → (s.started e c p mu closed count).AtSend e →
      c.closed = true ∧
        ∀ caller, (s.started e c p mu closed count).threads m ≠ ⟨e, .failLock caller⟩)
    (hheads : ∀ e', e' ≠ e → (⟨e, p⟩ : Thread).heads e' = true →
      (s.conduits e').sendable = false → s.AtSend e' → (s.conduits e').closed = true) :
    Inv (s.started e c p mu closed count) := by
  refine (hs.near_started (hmu.imp id fun h => ⟨h.1, h.2.1⟩) hcount hothers hkeeps).inv hs
    (fun m hle => ?_) (fun heq => ?_) ?_ hsound hvisited ?_ fun e' hne hh hwaits hsend => ?_
  · have hle' : s.threadCount + 1 ≤ m := hle
    rw [started_threads_ne (Nat.ne_of_gt hle')]
    exact hs.fresh m (Nat.le_of_succ_le hle')
  · rw [started_threads_self]
    rcases hmu with rfl | ⟨_, _, hcaller⟩
    · obtain ⟨caller, hcaller, _⟩ := hs.holder _ heq
      exact absurd rfl (hs.ne_of_caller hcaller)
    · exact hcaller
  · rw [started_threads_self, started_conduits_self]
    exact hfits
  · rw [started_conduits_self]
    exact hclear
  · rw [started_threads_self] at hh ⊢
    exact ⟨hheads e' hne hh hwaits hsend, fun caller heq => hne (Thread.mk.inj heq).1.symm⟩

theorem Inv.call (hlt : e < s.conduitCount) (call : Call) :
    Inv (s.start e (s.conduits e) call.start) := by
  have hnone : ∀ e', ¬ (⟨e, call.start⟩ : Thread).heads e' = true := by
    intro e' hheads
    obtain ⟨caller, hcaller, hrest | ⟨hcloses, _⟩⟩ := Thread.heads_iff.mp hheads
    all_goals cases call <;> cases hcaller
    · cases hrest
    · cases hcloses
  refine hs.started (.inl rfl) (Nat.le_refl _) (fun _ _ hlt => hlt) (fun _ => .refl _ _) ?_ ?_
    (fun e' _ hlt' hclosed hclient hmapped => ?_) (fun m hheads hwaits hsend => ?_)
    fun e' _ hheads => absurd hheads (hnone e')
  · refine ⟨fun _ => hlt, ?_, ?_, ?_, ?_, ?_⟩
    all_goals cases call <;> exact nofun
  · refine (hs.sound e hlt).of_stays (fun m hm => ⟨started_threads_ne (hs.ne_threadCount hm.2), id⟩)
      ⟨_, started_conduits_self⟩ fun hclosed hclient hmapped => ?_
    rw [started_conduits_self] at hclient hmapped
    obtain ⟨m, hmu, hvisits⟩ := (hs.sound e hlt).visited hclosed hclient hmapped
    exact hs.visits_started hmu hvisits
  · obtain ⟨m, hmu, hvisits⟩ := (hs.sound e' hlt').visited hclosed hclient hmapped
    exact hs.visits_started hmu hvisits
  · have hm : m ≠ s.threadCount := by
      rintro rfl
      rw [started_threads_self] at hheads
      exact hnone e hheads
    rw [started_threads_ne hm] at hheads ⊢
    exact hs.clear m e hheads hwaits (hs.atSend_started hlt hsend rfl)

theorem Inv.bind {client : Bool} (hopen : client = false → s.closed = false) : Inv (s.bind client) := by
  refine hs.started (.inl rfl) (Nat.le_succ _)
    (fun e' hne hlt => Nat.lt_of_le_of_ne (Nat.le_of_lt_succ hlt) hne)
    (fun hlt => absurd hlt (Nat.lt_irrefl _)) ?_ ?_ (fun e' _ hlt' hclosed hclient hmapped => ?_)
    (fun _ _ => nofun) fun e' _ hheads => ?_
  · exact ⟨fun _ => Nat.lt_succ_self _, nofun, nofun, fun _ => ⟨rfl, rfl, fun _ => rfl⟩, nofun, nofun⟩
  · refine ⟨?_, ?_, ?_, ?_, ?_, fun hclosed hclient hmapped => ?_⟩
    all_goals rw [started_conduits_self] at *
    · exact nofun
    · exact nofun
    · exact fun _ _ => rfl
    · exact fun _ => nofun
    · exact fun _ => nofun
    · exact absurd ((hopen hclient).symm.trans hclosed) nofun
  · obtain ⟨m, hmu, hvisits⟩ := (hs.sound e' hlt').visited hclosed hclient hmapped
    exact hs.visits_started hmu hvisits
  · obtain ⟨caller, hcaller, _⟩ := Thread.heads_iff.mp hheads
    cases hcaller

theorem Inv.activate (h : s.activate e = some t) : Inv t := by
  obtain ⟨hmu, h⟩ := Option.ite_none_left_eq_some.mp h
  obtain ⟨hentry, rfl⟩ := guard_eq_some.mp h
  simp only [Bool.or_eq_true, not_or, Bool.not_eq_true] at hmu
  simp only [Bool.and_eq_true, Bool.not_eq_true', decide_eq_true_eq] at hentry
  obtain ⟨⟨⟨⟨⟨hlt, hclient⟩, hmapped⟩, hnone⟩, hpeer⟩, hopen⟩ := hentry
  refine hs.started (.inl rfl) (Nat.le_refl _) (fun _ _ hlt => hlt) (fun _ => ?_) ?_ ?_
    (fun e' _ hlt' hclosed => ?_) (fun _ _ hwaits => ?_) fun e' _ hheads => ?_
  · exact ⟨rfl, fun _ _ => Iff.rfl, id, .inr ⟨hclient, hnone⟩, fun _ => .inl rfl, fun _ => .inl rfl⟩
  · exact ⟨fun _ => hlt, nofun, nofun, fun _ => ⟨rfl, rfl, fun _ => rfl⟩, nofun, nofun⟩
  · refine ⟨?_, ?_, ?_, ?_, ?_, fun hclosed => ?_⟩
    all_goals try rw [started_conduits_self]
    · intro w hw
      obtain ⟨hsame, howner⟩ := hs.owner_started hlt hw
      rw [hsame]
      exact howner
    · intro hshut
      rw [hopen] at hshut
      cases hshut
    · exact fun _ _ => rfl
    · exact fun _ => nofun
    · exact fun _ => nofun
    · exact absurd (hmu.2.symm.trans hclosed) nofun
  · exact absurd (hmu.2.symm.trans hclosed) nofun
  · cases hwaits
  · obtain ⟨caller, hcaller, _⟩ := Thread.heads_iff.mp hheads
    cases hcaller

theorem Inv.not_heads_of_free (hfree : s.mu = none) (hclient : (s.conduits e).client = false)
    : ¬ (s.threads m).heads e = true := by
  intro hheads
  rcases hs.heads_cases hheads with ⟨_, hheld⟩ | ⟨hc, _⟩
  · rw [hfree] at hheld
    cases hheld
  · rw [hc] at hclient
    cases hclient

theorem Inv.expire (hok : s.KeepsClear (.expire e)) (h : s.expire e = some t) : Inv t := by
  obtain ⟨hmu, h⟩ := Option.ite_none_left_eq_some.mp h
  obtain ⟨hentry, rfl⟩ := guard_eq_some.mp h
  have hfree : s.mu = none := by simpa using hmu
  simp only [Bool.and_eq_true, Bool.not_eq_true', decide_eq_true_eq] at hentry
  obtain ⟨⟨⟨hlt, hclient⟩, hmapped⟩, hnone⟩ := hentry
  have hsound := hs.sound e hlt
  refine hs.started (.inr ⟨hfree, rfl, _, rfl, rfl⟩) (Nat.le_refl _) (fun _ _ hlt => hlt)
    (fun _ => ⟨rfl, fun _ _ => Iff.rfl, id, .inl rfl, .inl, .inl⟩) ?_ ?_
    (fun e' _ hlt' hclosed hclient' hmapped' => ?_) (fun m hheads hwaits hsend => ?_)
    fun e' hne hheads => ?_
  · exact ⟨fun _ => hlt, nofun, nofun, nofun, nofun, fun caller hcaller _ => by
      cases hcaller
      exact ⟨rfl, hclient, nofun⟩⟩
  · refine ⟨?_, ?_, ?_, ?_, ?_, ?_⟩
    all_goals rw [started_conduits_self]
    · intro w hw
      obtain ⟨hsame, howner⟩ := hs.owner_started hlt hw
      rw [hsame]
      exact howner
    · exact hsound.shut
    · exact hsound.entryPeer
    · exact fun _ _ => .inr (.inr ⟨_, rfl, by rw [started_threads_self]; exact ⟨rfl, rfl⟩⟩)
    · intro hc
      rw [show (s.conduits e).client = true from hc] at hclient
      cases hclient
    · exact fun _ _ => nofun
  · obtain ⟨m, hheld, _⟩ := (hs.sound e' hlt').visited hclosed hclient' hmapped'
    rw [hfree] at hheld
    cases hheld
  · by_cases hm : m = s.threadCount
    · subst hm
      rw [started_threads_self]
      refine ⟨?_, nofun⟩
      by_contra hopen
      exact hok (by simpa using hopen) (hs.atSend_started hlt hsend rfl)
    · rw [started_threads_ne hm] at hheads
      exact absurd hheads (hs.not_heads_of_free hfree hclient)
  · obtain ⟨caller, hcaller, hrest | ⟨_, _, heq⟩⟩ := Thread.heads_iff.mp hheads
    · cases hcaller
      cases hrest
    · exact absurd heq.symm hne

theorem Inv.shutdown {order : List Nat} (hok : s.KeepsClear (.shutdown order))
    (h : s.shutdown order = some t) : Inv t := by
  obtain ⟨hmu, h⟩ := Option.ite_none_left_eq_some.mp h
  simp only [Bool.or_eq_true, not_or, Bool.not_eq_true] at hmu
  have hfree : s.mu = none := by simpa using hmu.1
  obtain ⟨hvisits, h⟩ := Option.ite_none_right_eq_some.mp h
  obtain ⟨_, hbound, hlisted⟩ := hvisits
  cases order with
  | nil =>
    cases h
    refine hs.of_same rfl rfl (fun _ => ⟨_, rfl⟩) rfl rfl fun e hlt _ hclient hmapped => ?_
    cases (hlisted e hlt).mpr ⟨hclient, hmapped⟩
  | cons e rest =>
    cases h
    have hlt := hbound e (.head _)
    have hclient := ((hlisted e hlt).mp (.head _)).1
    refine hs.started (.inr ⟨hfree, rfl, _, rfl, rfl⟩) (Nat.le_refl _) (fun _ _ hlt => hlt)
      (fun _ => .refl _ _) ?_ ?_ (fun e' hne hlt' _ hclient' hmapped' => ?_)
      (fun m hheads hwaits hsend => ?_) fun e' hne hheads hwaits hsend => ?_
    · refine ⟨fun _ => hlt, nofun, nofun, nofun, nofun, fun caller hcaller _ => ?_⟩
      cases hcaller
      refine ⟨rfl, hclient, fun e' he' => ?_⟩
      have hlt' := hbound e' (.tail _ he')
      refine ⟨hlt', ?_⟩
      by_cases heq : e' = e
      · subst heq
        rw [started_conduits_self]
        exact hclient
      · rw [started_conduits_ne heq]
        exact ((hlisted e' hlt').mp (.tail _ he')).1
    · refine (hs.sound e hlt).of_stays
        (fun m hm => ⟨started_threads_ne (hs.ne_threadCount hm.2), fun hheld => ?_⟩)
        ⟨_, started_conduits_self⟩ fun _ _ _ => ⟨_, rfl, ?_⟩
      · rw [hfree] at hheld
        cases hheld
      · rw [started_threads_self]
        exact ⟨rest, rfl, .inl rfl⟩
    · refine ⟨_, rfl, ?_⟩
      rw [started_threads_self]
      have hmem := (hlisted e' hlt').mpr ⟨hclient', hmapped'⟩
      exact ⟨rest, rfl, .inr ((List.mem_cons.mp hmem).resolve_left hne)⟩
    · by_cases hm : m = s.threadCount
      · subst hm
        rw [started_threads_self]
        refine ⟨?_, nofun⟩
        by_contra hopen
        exact hok e (.head _) hwaits (by simpa using hopen) (hs.atSend_started hlt hsend rfl)
      · rw [started_threads_ne hm] at hheads
        exact absurd hheads (hs.not_heads_of_free hfree hclient)
    · obtain ⟨caller, hcaller, hrest | ⟨_, _, heq⟩⟩ := Thread.heads_iff.mp hheads
      · cases hcaller
        by_contra hopen
        exact hok e' (.tail _ hrest) hwaits (by simpa using hopen) hsend
      · exact absurd heq.symm hne

end Start

section Close
variable {caller : Caller} (hs : Inv s) (hth : s.threads n = ⟨e, .linkClose caller⟩)
  (hcaller : caller.holdsMu = true)
include hs hth hcaller

theorem Inv.closed_link {mu : Option Nat} (mapped : Bool) (th : Thread)
    (ht : t = { s.move n e { (s.conduits e).shutLink with mapped } th with mu })
    (hmapped : mapped = true → (s.conduits e).mapped = true)
    (hmu : mu = none ∨
      mu = some n ∧ ∃ caller, th.point.caller = some caller ∧ caller.holdsMu = true)
    (hfits : t.Fits n th.entry th.point (t.conduits th.entry))
    (hvisited : ∀ e', (e' = e → mapped = true) → (s.threads n).Visits e' →
      mu = some n ∧ th.Visits e')
    (hheads : ∀ e', th.heads e' = true →
      (s.threads n).heads e' = true ∧ ∀ caller, th.point ≠ .failLock caller) : Inv t := by
  have hold := hs.fits_at hth
  have hlt := hold.bound nofun
  have hheld := (hold.holds caller rfl hcaller).1
  have hself : t.threads n = th := by
    rw [ht]
    exact update_self ..
  have hc : t.conduits e = { (s.conduits e).shutLink with mapped } := by
    rw [ht]
    exact update_self ..
  have hvisits : ∀ e', e' < s.conduitCount → (e' = e → mapped = true) → t.closed = true →
      (s.conduits e').client = false → (s.conduits e').mapped = true →
      ∃ m, t.mu = some m ∧ (t.threads m).Visits e' := by
    intro e' hlt' he' hclosed hclient hmapped'
    obtain ⟨m, hm, hvisits⟩ := (hs.sound e' hlt').visited (by rw [ht] at hclosed; exact hclosed)
      hclient hmapped'
    cases hheld.symm.trans hm
    obtain ⟨hmu', hth'⟩ := hvisited e' he' hvisits
    exact ⟨n, by rw [ht]; exact hmu', by rw [hself]; exact hth'⟩
  have hnear : Near s t n e := by
    refine ⟨fun m hm => ?_, fun e' he' => ?_, .inr (by rw [hth]), fun m hm => ?_, fun _ => ?_, ?_, ?_⟩
    · rw [ht]
      exact update_of_ne hm ..
    · rw [ht]
      exact update_of_ne he' ..
    · rw [hheld, ht]
      rcases hmu with rfl | ⟨rfl, _⟩
      · exact ⟨nofun, fun h => absurd (Option.some.inj h).symm hm⟩
      · exact Iff.rfl
    · rw [hc]
      exact ⟨rfl, fun _ _ => Iff.rfl, id, .inl rfl, fun _ => .inl rfl, .inl⟩
    · rw [ht]
      exact Nat.le_refl _
    · rw [ht]
      exact fun _ _ hlt => hlt
  refine hnear.inv hs (fun m hle => ?_) (fun hmu' => ?_) (by rw [hself]; exact hfits) ?_
    (fun e' hne hlt' => hvisits e' hlt' fun heq => absurd heq hne) (fun m _ hwaits => ?_)
    fun e' hne hh hwaits hsend => ?_
  · have hle' : s.threadCount ≤ m := by
      rw [ht] at hle
      exact hle
    rw [hnear.threads m (Nat.ne_of_gt (Nat.lt_of_lt_of_le (hs.lt_threadCount (by rw [hth]; nofun)) hle'))]
    exact hs.fresh m hle'
  · rw [hself]
    rcases hmu with rfl | ⟨_, hholds⟩
    · rw [ht] at hmu'
      cases hmu'
    · exact hholds
  · have hsound := hs.sound e hlt
    refine ⟨fun w hw => ?_, ?_, ?_, ?_, ?_, ?_⟩
    all_goals rw [hc] at *
    · obtain ⟨hentry, howns⟩ := hsound.owner w hw
      have hwn : w ≠ n := by
        rintro rfl
        rw [hth] at howns
        cases howns
      rw [hnear.threads w hwn]
      exact ⟨hentry, howns⟩
    · exact fun _ => ⟨hold.closed rfl, rfl⟩
    · exact fun _ => nofun
    · exact fun _ => nofun
    · exact fun _ => nofun
    · exact fun hclosed hclient hm =>
        hvisits e hlt (fun _ => hm) hclosed hclient (hmapped hm)
  · rw [hc] at hwaits
    cases hwaits
  · rw [hself] at hh ⊢
    obtain ⟨hheaded, hpoint⟩ := hheads e' hh
    obtain ⟨hclosed, _⟩ := hs.clear n e' hheaded hwaits hsend
    exact ⟨hclosed, fun k heq => hpoint k (by rw [heq])⟩

theorem Inv.listClose (h : s.listClose n caller = some t) : Inv t := by
  have hnone : ∀ e', ¬ (⟨e, .done⟩ : Thread).heads e' = true := by
    intro e' hheads
    obtain ⟨_, hcaller', _⟩ := Thread.heads_iff.mp hheads
    cases hcaller'
  cases caller with
  | expiry =>
    simp only [Locking.listClose, hth] at h
    cases h
    refine hs.closed_link hth hcaller (s.conduits e).mapped _ rfl id (.inl rfl) (fits_done ..)
      (fun e' _ hvisits => ?_) fun e' hheads => absurd hheads (hnone e')
    obtain ⟨rest, hrest, _⟩ := hvisits
    rw [hth] at hrest
    cases hrest
  | shutdown order =>
    cases order with
    | nil =>
      simp only [Locking.listClose, hth] at h
      cases h
      refine hs.closed_link hth hcaller false _ rfl nofun (.inl rfl) (fits_done ..)
        (fun e' hmapped hvisits => ?_) fun e' hheads => absurd hheads (hnone e')
      obtain ⟨rest, hrest, hentry | hmem⟩ := hvisits
      all_goals rw [hth] at *
      · cases hmapped hentry.symm
      · cases hrest
        cases hmem
    | cons e' rest =>
      simp only [Locking.listClose, hth] at h
      cases h
      obtain ⟨hmu, hclient, hlisteners⟩ := (hs.fits_at hth).holds _ rfl rfl
      have hkept : ∀ {e'' : Nat}, e'' ∈ e' :: rest → e'' < s.conduitCount ∧
          ((s.move n e { (s.conduits e).shutLink with mapped := false }
            ⟨e', .failSwap (.shutdown rest)⟩).conduits e'').client = false := by
        intro e'' hmem
        refine ⟨(hlisteners e'' hmem).1, ?_⟩
        by_cases heq : e'' = e
        · subst heq
          rw [move_conduits_self]
          exact hclient
        · rw [move_conduits_ne _ heq]
          exact (hlisteners e'' hmem).2
      refine hs.closed_link hth hcaller false ⟨e', .failSwap (.shutdown rest)⟩ rfl nofun
        (.inr ⟨hmu, _, rfl, rfl⟩) ?_ (fun e'' hmapped hvisits => ⟨hmu, ?_⟩)
        fun e'' hheads => ⟨?_, nofun⟩
      · refine ⟨fun _ => (hkept (.head _)).1, nofun, nofun, nofun, nofun, fun k hk _ => ?_⟩
        cases hk
        exact ⟨hmu, (hkept (.head _)).2, fun e'' hmem => hkept (.tail _ hmem)⟩
      · obtain ⟨order, horder, hentry | hmem⟩ := hvisits
        all_goals rw [hth] at *
        · cases hmapped hentry.symm
        · cases horder
          exact ⟨rest, rfl, (List.mem_cons.mp hmem).imp Eq.symm id⟩
      · rw [hth]
        obtain ⟨k, hk, hmem | ⟨_, _, heq⟩⟩ := Thread.heads_iff.mp hheads
        · cases hk
          exact Thread.heads_iff.mpr ⟨_, rfl, .inl (.tail _ hmem)⟩
        · exact Thread.heads_iff.mpr ⟨_, rfl, .inl (heq ▸ .head _)⟩
  | _ => cases hcaller

end Close

theorem thread_cases {choice : Bool} (h : s.thread n choice = some t) :
    (∃ e p c p', s.threads n = ⟨e, p⟩ ∧
      (s.conduits e).act n s.mu.isNone choice p = some (c, p') ∧ t = s.move n e c ⟨e, p'⟩) ∨
    ∃ e caller, s.threads n = ⟨e, .linkClose caller⟩ ∧ caller.holdsMu = true ∧
      s.listClose n caller = some t := by
  simp only [thread] at h
  split at h
  next hp =>
    exact .inr ⟨_, _, by rw [← hp], rfl, h⟩
  next hp =>
    exact .inr ⟨_, _, by rw [← hp], rfl, h⟩
  · obtain ⟨⟨c, p'⟩, hact, rfl⟩ := Option.map_eq_some_iff.mp h
    exact .inl ⟨_, _, c, p', rfl, hact, rfl⟩

theorem Inv.step {ev : Event} (hs : Inv s) (hok : s.KeepsClear ev) (h : s.step ev = some t) :
    Inv t := by
  cases ev with
  | accept =>
    obtain ⟨hopen, rfl⟩ := unless_eq_some.mp h
    simp only [Bool.or_eq_true, not_or, Bool.not_eq_true] at hopen
    exact hs.bind fun _ => hopen.2
  | connect =>
    cases h
    exact hs.bind nofun
  | call e call =>
    obtain ⟨hlt, rfl⟩ := guard_eq_some.mp h
    exact hs.call hlt call
  | activate e => exact hs.activate h
  | expire e => exact hs.expire hok h
  | shutdown order => exact hs.shutdown hok h
  | acknowledge e =>
    obtain ⟨-, rfl⟩ := guard_eq_some.mp h
    refine hs.of_same rfl rfl (fun e' => ?_) rfl rfl fun e' hlt => (hs.sound e' hlt).visited
    by_cases heq : e' = e
    · subst heq
      exact ⟨false, update_self ..⟩
    · exact ⟨_, update_of_ne heq ..⟩
  | thread n choice =>
    rcases thread_cases h with ⟨e, p, c, p', hth, hact, rfl⟩ | ⟨e, caller, hth, hcaller, hclose⟩
    · exact hs.act_move hth (Conduit.acts_of_act hact) hok
    · exact hs.listClose hth hcaller hclose

theorem inv_of_run {es : List Event} (h : Run step KeepsClear {} es s) : Inv s :=
  h.invariant (fun hs hok hst => hs.step hok hst) .initial

end P2PNetcat.NativeWebRTC.Locking
