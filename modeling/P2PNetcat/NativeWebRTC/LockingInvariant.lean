import P2PNetcat.NativeWebRTC.Locking

/-!
# What holds of the threads and their locks

A thread that fails a stream before it closes the stream's link waits for
`writeMu` in between. The condition on the steps keeps a `Write` or `CloseWrite`
that owns `writeMu` from standing at a link without a peer at that time.
-/

namespace P2PNetcat.NativeWebRTC
open Function StepSystem

def Caller.rest : Caller → List Nat
  | .shutdown rest => rest
  | _ => []

def Caller.closesLink : Caller → Bool
  | .expiry | .giveUp | .shutdown _ => true
  | _ => false

def Caller.holdsMu : Caller → Bool
  | .expiry | .shutdown _ => true
  | _ => false

namespace Point

def owning : Point → Bool
  | .writeWindow | .writeSend | .eofSend _ => true
  | _ => false

def sending : Point → Bool
  | .writeSend | .eofSend _ => true
  | _ => false

def caller : Point → Option Caller
  | .failSwap caller | .failLock caller | .linkClose caller => some caller
  | _ => none

theorem caller_of_sending {p : Point} (h : p.sending = true) : p.caller = none := by
  cases p <;> first | rfl | cases h

def failing : Point → Bool
  | .failSwap _ | .failLock _ => true
  | _ => false

def keeping : Point → Bool
  | .announcing | .forwarding | .returned | .failSwap .receive | .failLock .receive => true
  | _ => false

def afterSwap : Point → Bool
  | .failLock _ | .abortSend | .closePeer | .closeLink | .linkClose _ => true
  | _ => false

end Point

namespace Thread

def heads (th : Thread) (e : Nat) : Bool :=
  match th.point.caller with
  | some caller =>
    caller.rest.contains e || caller.closesLink && th.point.failing && decide (th.entry = e)
  | none => false

theorem heads_iff {th : Thread} {e : Nat} : th.heads e = true ↔
    ∃ caller, th.point.caller = some caller ∧
      (e ∈ caller.rest ∨ caller.closesLink = true ∧ th.point.failing = true ∧ th.entry = e) := by
  unfold heads
  split
  next caller hcaller =>
    simp [hcaller, and_assoc]
  next hcaller =>
    simp [hcaller]

def Expires (th : Thread) (e : Nat) : Prop := th.entry = e ∧ th.point.caller = some .expiry

def GivesUp (th : Thread) (e : Nat) : Prop :=
  th.entry = e ∧ (th.point = .redialing ∨ th.point.caller = some .giveUp)

def Visits (th : Thread) (e : Nat) : Prop :=
  ∃ rest, th.point.caller = some (.shutdown rest) ∧ (th.entry = e ∨ e ∈ rest)

end Thread

namespace Locking

def AtSend (s : Locking) (e : Nat) : Prop :=
  ∃ w, (s.conduits e).writeMu = some w ∧ (s.threads w).point.sending = true

instance (s : Locking) (e : Nat) : Decidable (s.AtSend e) :=
  match h : (s.conduits e).writeMu with
  | none => isFalse fun ⟨w, hw, _⟩ => by rw [h] at hw; cases hw
  | some w =>
    if hs : (s.threads w).point.sending = true then isTrue ⟨w, h, hs⟩
    else isFalse fun ⟨w', hw, hs'⟩ => by
      rw [h] at hw
      cases hw
      exact hs hs'

def Doomed (s : Locking) (e : Nat) : Prop :=
  ∃ n, n < s.threadCount ∧ (s.threads n).heads e = true

instance (s : Locking) (e : Nat) : Decidable (s.Doomed e) :=
  inferInstanceAs (Decidable (∃ n, n < _ ∧ _))

/-- An expiry, a `Listener.Close` or a supervisor's giving up sets out to fail an open stream
without a peer only while no owner of its `writeMu` is in `link.Send`, and until it is through no
`Write` or `CloseWrite` gets there. -/
def KeepsClear (s : Locking) : Event → Prop
  | .expire e => (s.conduits e).closed = false → ¬ s.AtSend e
  | .shutdown order => ∀ e ∈ order, (s.conduits e).sendable = false →
      (s.conduits e).closed = false → ¬ s.AtSend e
  | .thread n choice =>
    match (s.threads n).point with
    | .redialing => choice = false → (s.conduits (s.threads n).entry).sendable = false →
        (s.conduits (s.threads n).entry).closed = false → ¬ s.AtSend (s.threads n).entry
    | .writeWindow => (s.conduits (s.threads n).entry).closed = false →
        (s.conduits (s.threads n).entry).sendable = false → ¬ s.Doomed (s.threads n).entry
    | .eofLock _ => (s.conduits (s.threads n).entry).writeClosed = false →
        (s.conduits (s.threads n).entry).sendable = false → ¬ s.Doomed (s.threads n).entry
    | _ => True
  | _ => True

instance (s : Locking) (ev : Event) : Decidable (s.KeepsClear ev) := by
  unfold KeepsClear
  split
  · infer_instance
  · infer_instance
  · split <;> infer_instance
  · infer_instance

structure Fits (s : Locking) (n e : Nat) (p : Point) (c : Conduit) : Prop where
  bound : p ≠ .done → e < s.conduitCount
  owns : p.owning = true → c.writeMu = some n
  closed : p.afterSwap = true → c.closed = true
  keeps : p.keeping = true →
    c.keeper = n ∧ c.sendable = true ∧ (c.client = false → c.entryPeer = true)
  givesUp : p = .redialing ∨ p.caller = some .giveUp → c.client = true ∧ c.keeper = n
  holds : ∀ caller, p.caller = some caller → caller.holdsMu = true →
    s.mu = some n ∧ c.client = false ∧
    ∀ e' ∈ caller.rest, e' < s.conduitCount ∧ (s.conduits e').client = false

structure Sound (s : Locking) (e : Nat) : Prop where
  owner : ∀ w, (s.conduits e).writeMu = some w →
    (s.threads w).entry = e ∧ (s.threads w).point.owning = true
  shut : (s.conduits e).linkClosed = true →
    (s.conduits e).closed = true ∧ (s.conduits e).peer = false
  entryPeer : (s.conduits e).client = false → (s.conduits e).linkClosed = false →
    (s.conduits e).entryPeer = (s.conduits e).peer
  listed : (s.conduits e).client = false → (s.conduits e).sendable = false →
    (s.conduits e).mapped = true ∨ (∃ m, s.threads m = ⟨e, .closeLink⟩) ∨
      ∃ m, s.mu = some m ∧ (s.threads m).Expires e
  kept : (s.conduits e).client = true → (s.conduits e).sendable = false →
    (s.threads (s.conduits e).keeper).GivesUp e ∨ ∃ m, s.threads m = ⟨e, .closeLink⟩
  visited : s.closed = true → (s.conduits e).client = false → (s.conduits e).mapped = true →
    ∃ m, s.mu = some m ∧ (s.threads m).Visits e

structure Inv (s : Locking) : Prop where
  fresh : ∀ n, s.threadCount ≤ n → s.threads n = {}
  holder : ∀ n, s.mu = some n →
    ∃ caller, (s.threads n).point.caller = some caller ∧ caller.holdsMu = true
  fits : ∀ n, s.Fits n (s.threads n).entry (s.threads n).point (s.conduits (s.threads n).entry)
  sound : ∀ e, e < s.conduitCount → s.Sound e
  clear : ∀ n e, (s.threads n).heads e = true → (s.conduits e).sendable = false → s.AtSend e →
    (s.conduits e).closed = true ∧ ∀ caller, s.threads n ≠ ⟨e, .failLock caller⟩

theorem fits_done (s : Locking) (n e : Nat) (c : Conduit) : s.Fits n e .done c where
  bound := fun hne => absurd rfl hne
  owns := nofun
  closed := nofun
  keeps := nofun
  givesUp := by rintro (h | h) <;> cases h
  holds := nofun

theorem Inv.initial : Inv {} where
  fresh := fun _ _ => rfl
  holder := nofun
  fits := fun n => fits_done {} n 0 {}
  sound := nofun
  clear := nofun

end Locking

/-- What a thread `n` may do to a stream as far as the other threads can tell. -/
structure Conduit.Keeps (c c' : Conduit) (n : Nat) : Prop where
  client : c'.client = c.client
  writeMu : ∀ m, m ≠ n → (c'.writeMu = some m ↔ c.writeMu = some m)
  closed : c.closed = true → c'.closed = true
  keeper : c'.keeper = c.keeper ∨ c.client = false ∧ c.entryPeer = false
  sendable : c.sendable = true → c'.sendable = true ∨ c.keeper = n
  entryPeer : c.entryPeer = true → c'.entryPeer = true ∨ c.keeper = n

theorem Conduit.Keeps.refl (c : Conduit) (n : Nat) : c.Keeps c n :=
  ⟨rfl, fun _ _ => Iff.rfl, id, .inl rfl, .inl, .inl⟩

namespace Locking
variable {s t : Locking} {n e : Nat}

structure Near (s t : Locking) (n e : Nat) : Prop where
  threads : ∀ m, m ≠ n → t.threads m = s.threads m
  conduits : ∀ e', e' ≠ e → t.conduits e' = s.conduits e'
  role : (s.threads n).point = .done ∨ (s.threads n).entry = e
  mu : ∀ m, m ≠ n → (t.mu = some m ↔ s.mu = some m)
  keeps : e < s.conduitCount → (s.conduits e).Keeps (t.conduits e) n
  count : s.conduitCount ≤ t.conduitCount
  others : ∀ e', e' ≠ e → e' < t.conduitCount → e' < s.conduitCount

theorem holdsMu_of_rest {caller : Caller} (h : e ∈ caller.rest) : caller.holdsMu = true := by
  cases caller <;> first | rfl | cases h

theorem Fits.heads_lt {th : Thread} {c : Conduit} (h : s.Fits n th.entry th.point c) {e' : Nat}
    (hheads : th.heads e' = true) : e' < s.conduitCount := by
  obtain ⟨caller, hcaller, hrest | ⟨_, hfailing, rfl⟩⟩ := Thread.heads_iff.mp hheads
  · exact ((h.holds caller hcaller (holdsMu_of_rest hrest)).2.2 e' hrest).1
  · refine h.bound ?_
    rintro hdone
    rw [hdone] at hfailing
    cases hfailing

/-- Whoever is to close the link of a stream holds `l.mu`, or is the client's supervisor. -/
theorem Inv.heads_cases (h : Inv s) {m e' : Nat} (hheads : (s.threads m).heads e' = true) :
    (s.conduits e').client = false ∧ s.mu = some m ∨
    (s.conduits e').client = true ∧ (s.conduits e').keeper = m := by
  obtain ⟨caller, hcaller, hrest | ⟨hcloses, _, rfl⟩⟩ := Thread.heads_iff.mp hheads
  · obtain ⟨hmu, _, hlisteners⟩ := (h.fits m).holds caller hcaller (holdsMu_of_rest hrest)
    exact .inl ⟨(hlisteners e' hrest).2, hmu⟩
  · by_cases hholds : caller.holdsMu = true
    · obtain ⟨hmu, hclient, _⟩ := (h.fits m).holds caller hcaller hholds
      exact .inl ⟨hclient, hmu⟩
    · have hgives : caller = .giveUp := by
        cases caller <;> first | rfl | exact absurd rfl hholds | cases hcloses
      subst hgives
      exact .inr ((h.fits m).givesUp (.inr hcaller))

theorem Sound.of_stays (h : s.Sound e)
    (hstays : ∀ m, (s.threads m).entry = e ∧ (s.threads m).point ≠ .done →
      t.threads m = s.threads m ∧ (s.mu = some m → t.mu = some m))
    (hc : ∃ full, t.conduits e = { s.conduits e with full })
    (hvisited : t.closed = true → (t.conduits e).client = false → (t.conduits e).mapped = true →
      ∃ m, t.mu = some m ∧ (t.threads m).Visits e) : t.Sound e := by
  obtain ⟨full, hc⟩ := hc
  have hclosing : (∃ m, s.threads m = ⟨e, .closeLink⟩) → ∃ m, t.threads m = ⟨e, .closeLink⟩ := by
    rintro ⟨m, hm⟩
    exact ⟨m, (hstays m (by rw [hm]; exact ⟨rfl, nofun⟩)).1.trans hm⟩
  refine ⟨?_, ?_, ?_, ?_, ?_, hvisited⟩
  all_goals rw [hc]
  · intro w hw
    obtain ⟨hentry, howns⟩ := h.owner w hw
    rw [(hstays w ⟨hentry, by rintro heq; rw [heq] at howns; cases howns⟩).1]
    exact ⟨hentry, howns⟩
  · exact h.shut
  · exact h.entryPeer
  · intro hclient hwaits
    rcases h.listed hclient hwaits with hmapped | hclose | ⟨m, hmu, hentry, hcaller⟩
    · exact .inl hmapped
    · exact .inr (.inl (hclosing hclose))
    · obtain ⟨hth, hheld⟩ := hstays m ⟨hentry, by rintro heq; rw [heq] at hcaller; cases hcaller⟩
      exact .inr (.inr ⟨m, hheld hmu, by rw [hth]; exact ⟨hentry, hcaller⟩⟩)
  · intro hclient hwaits
    rcases h.kept hclient hwaits with ⟨hentry, hpoint⟩ | hclose
    · left
      rw [(hstays _ ⟨hentry, by rintro heq; rw [heq] at hpoint; rcases hpoint with hp | hp <;> cases hp⟩).1]
      exact ⟨hentry, hpoint⟩
    · exact .inr (hclosing hclose)

namespace Near
variable {e' : Nat}

variable (h : Near s t n e)
include h

theorem ne_of_owner {w : Nat} (hne : e' ≠ e)
    (hw : (s.threads w).entry = e' ∧ (s.threads w).point ≠ .done) : w ≠ n := by
  rintro rfl
  rcases h.role with hdone | hentry
  · exact hw.2 hdone
  · exact hne (hw.1.symm.trans hentry)

theorem keepsAll (he' : e' < s.conduitCount) :
    (s.conduits e').Keeps (t.conduits e') n := by
  by_cases heq : e' = e
  · subst heq
    exact h.keeps he'
  · rw [h.conduits e' heq]
    exact .refl _ _

theorem fits (hs : Inv s) {m : Nat} (hm : m ≠ n) :
    t.Fits m (t.threads m).entry (t.threads m).point (t.conduits (t.threads m).entry) := by
  rw [h.threads m hm]
  by_cases hdone : (s.threads m).point = .done
  · rw [hdone]
    exact fits_done ..
  have hfits := hs.fits m
  have hbound := hfits.bound hdone
  have hkeeps := h.keepsAll hbound
  refine ⟨fun _ => Nat.lt_of_lt_of_le hbound h.count,
    fun howns => (hkeeps.writeMu m hm).mpr (hfits.owns howns),
    fun hclosed => hkeeps.closed (hfits.closed hclosed), fun hkeeping => ?_, fun hgives => ?_,
    fun caller hcaller hmu => ?_⟩
  · obtain ⟨hkeeper, hsendable, hpeer⟩ := hfits.keeps hkeeping
    have hne : (s.conduits (s.threads m).entry).keeper ≠ n := by
      rw [hkeeper]
      exact hm
    refine ⟨?_, (hkeeps.sendable hsendable).resolve_right hne, fun hclient => ?_⟩
    · rcases hkeeps.keeper with heq | ⟨hclient, hnone⟩
      · exact heq.trans hkeeper
      · rw [hpeer hclient] at hnone
        cases hnone
    · exact (hkeeps.entryPeer (hpeer (hkeeps.client ▸ hclient))).resolve_right hne
  · obtain ⟨hclient, hkeeper⟩ := hfits.givesUp hgives
    refine ⟨hkeeps.client.trans hclient, ?_⟩
    rcases hkeeps.keeper with heq | ⟨hlistener, _⟩
    · exact heq.trans hkeeper
    · rw [hclient] at hlistener
      cases hlistener
  · obtain ⟨hheld, hclient, hrest⟩ := hfits.holds caller hcaller hmu
    refine ⟨(h.mu m hm).mpr hheld, hkeeps.client.trans hclient, fun e' he' => ?_⟩
    obtain ⟨hlt, hlistener⟩ := hrest e' he'
    exact ⟨Nat.lt_of_lt_of_le hlt h.count, (h.keepsAll hlt).client.trans hlistener⟩

theorem sound (hs : Inv s) (hne : e' ≠ e) (hlt : e' < t.conduitCount)
    (hvisited : t.closed = true → (t.conduits e').client = false → (t.conduits e').mapped = true →
      ∃ m, t.mu = some m ∧ (t.threads m).Visits e') : t.Sound e' := by
  refine (hs.sound e' (h.others e' hne hlt)).of_stays (fun m hm => ?_) ⟨_, h.conduits e' hne⟩ hvisited
  have hmn := h.ne_of_owner hne hm
  exact ⟨h.threads m hmn, (h.mu m hmn).mpr⟩

theorem atSend (hs : Inv s) (hne : e' ≠ e)
    (hlt : e' < s.conduitCount) (hsend : t.AtSend e') : s.AtSend e' := by
  obtain ⟨w, hw, hsending⟩ := hsend
  rw [h.conduits e' hne] at hw
  obtain ⟨hentry, howns⟩ := (hs.sound e' hlt).owner w hw
  have hpoint : (s.threads w).point ≠ .done := by
    rintro heq
    rw [heq] at howns
    cases howns
  rw [h.threads w (h.ne_of_owner hne ⟨hentry, hpoint⟩)] at hsending
  exact ⟨w, hw, hsending⟩

theorem inv (hs : Inv s)
    (hfresh : ∀ m, t.threadCount ≤ m → t.threads m = {})
    (hholder : t.mu = some n →
      ∃ caller, (t.threads n).point.caller = some caller ∧ caller.holdsMu = true)
    (hfits : t.Fits n (t.threads n).entry (t.threads n).point (t.conduits (t.threads n).entry))
    (hsound : t.Sound e)
    (hvisited : ∀ e', e' ≠ e → e' < s.conduitCount → t.closed = true →
      (s.conduits e').client = false → (s.conduits e').mapped = true →
      ∃ m, t.mu = some m ∧ (t.threads m).Visits e')
    (hclear : ∀ m, (t.threads m).heads e = true → (t.conduits e).sendable = false → t.AtSend e →
      (t.conduits e).closed = true ∧ ∀ caller, t.threads m ≠ ⟨e, .failLock caller⟩)
    (hheads : ∀ e', e' ≠ e → (t.threads n).heads e' = true → (s.conduits e').sendable = false →
      s.AtSend e' →
      (s.conduits e').closed = true ∧ ∀ caller, t.threads n ≠ ⟨e', .failLock caller⟩) :
    Inv t where
  fresh := hfresh
  holder := fun m hmu => by
    by_cases hm : m = n
    · subst hm
      exact hholder hmu
    · rw [h.threads m hm]
      exact hs.holder m ((h.mu m hm).mp hmu)
  fits := fun m => by
    by_cases hm : m = n
    · subst hm
      exact hfits
    · exact h.fits hs hm
  sound := fun e' hlt => by
    by_cases he : e' = e
    · subst he
      exact hsound
    refine h.sound hs he hlt fun hclosed hclient hmapped => ?_
    rw [h.conduits e' he] at hclient hmapped
    exact hvisited e' he (h.others e' he hlt) hclosed hclient hmapped
  clear := fun m e' hm hwaits hsend => by
    by_cases he : e' = e
    · subst he
      exact hclear m hm hwaits hsend
    rw [h.conduits e' he] at hwaits ⊢
    by_cases hmn : m = n
    · subst hmn
      have hlt := h.others e' he (hfits.heads_lt hm)
      exact hheads e' he hm hwaits (h.atSend hs he hlt hsend)
    · rw [h.threads m hmn] at hm ⊢
      exact hs.clear m e' hm hwaits (h.atSend hs he ((hs.fits m).heads_lt hm) hsend)

end Near

section Acts
variable {c c' : Conduit} {free choice : Bool} {p p' : Point} {caller : Caller}

theorem keeps_of_acts (h : c.Acts n free choice p c' p') (hfits : s.Fits n e p c) :
    c.Keeps c' n := by
  have howned : ∀ {q : Option Nat}, p.owning = true → (q = none ∨ q = some n) → ∀ m, m ≠ n →
      (q = some m ↔ c.writeMu = some m) := by
    intro q hp hq m hm
    rw [hfits.owns hp]
    rcases hq with rfl | rfl
    · simp [Ne.symm hm]
    · exact Iff.rfl
  cases h with
  | writeRefused | windowOpen | eofRefused | swapLost | failLocked | abortSent | cancelled | removed
  | announced | announceFailed | received | lost | ended | attachFailed | graceOver =>
    exact ⟨rfl, fun _ _ => Iff.rfl, id, .inl rfl, .inl, .inl⟩
  | writeLocked hfree | eofLocked hfree =>
    exact ⟨rfl, fun m hm => by simp [hfree, Ne.symm hm], id, .inl rfl, .inl, .inl⟩
  | windowClosed | writeSent | eofSent =>
    exact ⟨rfl, howned rfl (.inl rfl), id, .inl rfl, .inl, .inl⟩
  | swapWon => exact ⟨rfl, fun _ _ => Iff.rfl, fun _ => rfl, .inl rfl, .inl, .inl⟩
  | linkShut | gaveUp =>
    exact ⟨rfl, fun _ _ => Iff.rfl, id, .inl rfl, fun _ => .inl rfl, .inl⟩
  | clientDetached | entryDetached =>
    obtain ⟨hkeeper, _⟩ := hfits.keeps rfl
    exact ⟨rfl, fun _ _ => Iff.rfl, id, .inl rfl, fun _ => .inr hkeeper, fun _ => .inr hkeeper⟩
  | attached => exact ⟨rfl, fun _ _ => Iff.rfl, id, .inl rfl, fun _ => .inl rfl, .inl⟩

theorem caller_of_after {resumes : Bool} (h : caller.closesLink = true) :
    caller.after resumes = .linkClose caller := by
  cases caller <;> first | rfl | cases h

section
variable (h : c.Acts n free choice p c' p')
include h

theorem caller_of_acts
    (hp : p.caller = some caller) (hcaller : caller.closesLink = true) :
    p'.caller = some caller ∨ caller = .giveUp ∧ c'.sendable = true := by
  cases h with
  | swapLost | failLocked =>
    cases hp
    rw [caller_of_after hcaller]
    exact .inl rfl
  | swapWon => exact .inl hp
  | gaveUp =>
    cases hp
    exact .inr ⟨rfl, rfl⟩
  | _ => cases hp

theorem caller_before_acts
    (hp' : p'.caller = some caller) (hcaller : caller.holdsMu = true) : p.caller = some caller := by
  cases h with
  | @swapLost _ k | @failLocked _ k =>
    cases k <;> simp only [Caller.after] at hp' <;> try exact hp'
    all_goals first | cases hp' | (split at hp' <;> cases hp')
  | swapWon => exact hp'
  | @eofRefused _ close | @eofSent _ close =>
    cases close <;> cases hp'
    cases hcaller
  | announceFailed =>
    split at hp' <;> cases hp' <;> cases hcaller
  | received | attachFailed | graceOver =>
    cases hp'
    cases hcaller
  | _ => cases hp'

theorem fits_of_acts (hfits : s.Fits n e p c)
    (hbound : e < t.conduitCount) (hmu : s.mu = some n → t.mu = some n)
    (hclient : ∀ e', e' < s.conduitCount → (s.conduits e').client = false →
      e' < t.conduitCount ∧ (t.conduits e').client = false) : t.Fits n e p' c' := by
  have hsame : c'.client = c.client := (keeps_of_acts h hfits).client
  refine ⟨fun _ => hbound, fun howns => ?_, fun hclosed => ?_, fun hkeeping => ?_, fun hgives => ?_,
    fun caller hcaller hholds => ?_⟩
  · cases h with
    | writeLocked | eofLocked => rfl
    | windowOpen => exact hfits.owns rfl
    | @swapLost _ k | @failLocked _ k =>
      cases k <;> simp only [Caller.after] at howns <;> try cases howns
      split at howns <;> cases howns
    | @eofRefused _ close | @eofSent _ close => cases close <;> cases howns
    | _ => cases howns
  · cases h with
    | swapLost hswapped => exact hswapped
    | swapWon => rfl
    | failLocked | abortSent | cancelled | removed => exact hfits.closed rfl
    | @eofRefused _ close | @eofSent _ close => cases close <;> cases hclosed
    | _ => cases hclosed
  · cases h with
    | announced | received | lost => exact hfits.keeps rfl
    | attached =>
      obtain ⟨hclient, hkeeper⟩ := hfits.givesUp (.inl rfl)
      refine ⟨hkeeper, rfl, fun hlistener => ?_⟩
      rw [show c.client = false from hlistener] at hclient
      cases hclient
    | @swapLost _ k | @failLocked _ k | @swapWon _ k =>
      cases k <;> first | exact hfits.keeps rfl | cases hkeeping
    | @eofRefused _ close | @eofSent _ close => cases close <;> cases hkeeping
    | announceFailed => split at hkeeping <;> cases hkeeping
    | _ => cases hkeeping
  · cases h with
    | clientDetached hclient => exact ⟨hclient, (hfits.keeps rfl).1⟩
    | announceFailed =>
      split at hgives
      next hclient =>
        exact ⟨hclient, (hfits.keeps rfl).1⟩
      · rcases hgives with hp | hp <;> cases hp
    | attachFailed | graceOver => exact hfits.givesUp (.inl rfl)
    | @swapLost _ k | @failLocked _ k =>
      cases k
      case giveUp => exact hfits.givesUp (.inr rfl)
      case receive => cases choice <;> rcases hgives with hp | hp <;> cases hp
      all_goals rcases hgives with hp | hp <;> cases hp
    | swapWon => exact hfits.givesUp (hgives.imp nofun id)
    | @eofRefused _ close | @eofSent _ close =>
      cases close <;> rcases hgives with hp | hp <;> cases hp
    | _ => rcases hgives with hp | hp <;> cases hp
  · obtain ⟨hheld, hlistener, hrest⟩ := hfits.holds caller (caller_before_acts h hcaller hholds) hholds
    exact ⟨hmu hheld, hsame.trans hlistener,
      fun e' he' => hclient e' (hrest e' he').1 (hrest e' he').2⟩

theorem owning_of_acts (hp : c.writeMu = some n → p.owning = true)
    (hn : c'.writeMu = some n) : p'.owning = true := by
  cases h with
  | windowClosed | writeSent | eofSent => cases hn
  | writeLocked | eofLocked | windowOpen => rfl
  | _ => exact absurd (hp hn) (by simp [Point.owning])

theorem shut_of_acts (hfits : s.Fits n e p c)
    (hshut : c.linkClosed = true → c.closed = true ∧ c.peer = false)
    (hclosed : c'.linkClosed = true) : c'.closed = true ∧ c'.peer = false := by
  cases h with
  | swapWon => exact ⟨rfl, (hshut hclosed).2⟩
  | linkShut | gaveUp => exact ⟨hfits.closed rfl, rfl⟩
  | clientDetached | entryDetached => exact ⟨(hshut hclosed).1, rfl⟩
  | attached hopen =>
    rw [show c.linkClosed = true from hclosed] at hopen
    cases hopen
  | _ => exact hshut hclosed

theorem entryPeer_of_acts (hfits : s.Fits n e p c)
    (hentry : c.client = false → c.linkClosed = false → c.entryPeer = c.peer)
    (hclient : c'.client = false) (hopen : c'.linkClosed = false) : c'.entryPeer = c'.peer := by
  cases h with
  | linkShut | gaveUp => cases hopen
  | clientDetached hclient' =>
    rw [show c.client = false from hclient] at hclient'
    cases hclient'
  | entryDetached => rfl
  | attached => exact absurd (hfits.givesUp (.inl rfl)).1 (by simpa using hclient)
  | _ => exact hentry hclient hopen

/-- A section after which `link.Send` waits starts from such a link, or detaches the peer. -/
theorem waits_before_acts (hwaits : c'.sendable = false) :
    c.sendable = false ∨ p = .returned ∧
      (c.client = true ∧ p' = .redialing ∨ c.client = false ∧ free = true ∧ c'.mapped = true) := by
  cases h with
  | linkShut | gaveUp => simp [Conduit.sendable, Conduit.shutLink] at hwaits
  | clientDetached hclient => exact .inr ⟨rfl, .inl ⟨hclient, rfl⟩⟩
  | entryDetached hclient hmu hmapped => exact .inr ⟨rfl, .inr ⟨hclient, hmu, hmapped⟩⟩
  | attached => simp [Conduit.sendable] at hwaits
  | _ => exact .inl hwaits

theorem mapped_of_acts :
    (c'.mapped = true → c.mapped = true) ∧
    (c.mapped = true → c'.mapped = true ∨ p' = .closeLink) := by
  cases h with
  | removed => exact ⟨nofun, fun _ => .inr rfl⟩
  | _ => exact ⟨id, .inl⟩

end

theorem sendable_of_acts_closeLink (h : c.Acts n free choice .closeLink c' p') :
    c'.sendable = true := by
  cases h
  rfl

variable (h : c.Acts n free choice p c' p')
include h

theorem heads_of_acts {e' : Nat}
    (hheads : (⟨e, p'⟩ : Thread).heads e' = true) :
    (⟨e, p⟩ : Thread).heads e' = true ∨ e' = e ∧ p' = .failSwap .giveUp := by
  obtain ⟨caller, hcaller, hrest | ⟨hcloses, hfailing, rfl⟩⟩ := Thread.heads_iff.mp hheads
  · have hp := caller_before_acts h hcaller (holdsMu_of_rest hrest)
    exact .inl (Thread.heads_iff.mpr ⟨caller, hp, .inl hrest⟩)
  · cases h with
    | swapWon =>
      cases hcaller
      exact .inl (Thread.heads_iff.mpr ⟨_, rfl, .inr ⟨hcloses, rfl, rfl⟩⟩)
    | @swapLost _ k | @failLocked _ k =>
      cases k
      case receive => cases choice <;> cases hcaller
      all_goals cases hfailing
    | @eofRefused _ close | @eofSent _ close =>
      cases close <;> cases hcaller
      cases hcloses
    | announceFailed =>
      split at hcaller
      next hclient =>
        exact .inr ⟨rfl, by rw [if_pos hclient]⟩
      · cases hcaller
        cases hcloses
    | received =>
      cases hcaller
      cases hcloses
    | attachFailed | graceOver => exact .inr ⟨rfl, rfl⟩
    | _ => cases hcaller

theorem sending_of_acts (hsending : p'.sending = true) :
    c'.sendable = c.sendable ∧ (p = .writeWindow ∧ c.closed = false ∨
      ∃ close, p = .eofLock close ∧ c.writeClosed = false) := by
  cases h with
  | windowOpen hopen => exact ⟨rfl, .inl ⟨rfl, hopen⟩⟩
  | eofLocked _ hopen => exact ⟨rfl, .inr ⟨_, rfl, hopen⟩⟩
  | @swapLost _ k | @failLocked _ k =>
    cases k
    case receive => cases choice <;> cases hsending
    all_goals cases hsending
  | @eofRefused _ close | @eofSent _ close => cases close <;> cases hsending
  | _ => cases hsending

theorem failLock_of_acts
    (hp' : p' = .failLock caller) : c.closed = false := by
  cases h with
  | swapWon hopen => exact hopen
  | @swapLost _ k | @failLocked _ k =>
    cases k
    case receive => cases choice <;> cases hp'
    all_goals cases hp'
  | @eofRefused _ close | @eofSent _ close => cases close <;> cases hp'
  | _ => cases hp'

/-- A supervisor gives up with a link on which a `Send` waits when the grace is over. -/
theorem giveUp_of_acts (hfits : s.Fits n e p c)
    (hp' : p' = .failSwap .giveUp) (hwaits : c'.sendable = false) :
    c' = c ∧ p = .redialing ∧ choice = false := by
  cases h with
  | graceOver => exact ⟨rfl, rfl, rfl⟩
  | attachFailed hsendable =>
    rw [hwaits] at hsendable
    cases hsendable
  | announceFailed =>
    rw [(hfits.keeps rfl).2.1] at hwaits
    cases hwaits
  | @swapLost _ k | @failLocked _ k =>
    cases k
    case receive => cases choice <;> cases hp'
    all_goals cases hp'
  | @eofRefused _ close | @eofSent _ close => cases close <;> cases hp'
  | _ => cases hp'

end Acts

theorem Inv.lt_threadCount (hs : Inv s) (hn : (s.threads n).point ≠ .done) : n < s.threadCount := by
  refine Nat.lt_of_not_le fun hle => hn ?_
  rw [hs.fresh n hle]

theorem Inv.doomed_of_heads (hs : Inv s) (hheads : (s.threads n).heads e = true) : s.Doomed e := by
  refine ⟨n, hs.lt_threadCount fun hdone => ?_, hheads⟩
  obtain ⟨caller, hcaller, _⟩ := Thread.heads_iff.mp hheads
  rw [hdone] at hcaller
  cases hcaller

section Move
variable {c' : Conduit} {choice : Bool} {p p' : Point} {m : Nat}

@[simp] theorem move_threads_self (th : Thread) : (s.move n e c' th).threads n = th :=
  update_self ..

theorem move_threads_ne (th : Thread) (hm : m ≠ n) :
    (s.move n e c' th).threads m = s.threads m := update_of_ne hm ..

@[simp] theorem move_conduits_self (th : Thread) : (s.move n e c' th).conduits e = c' :=
  update_self ..

theorem move_conduits_ne (th : Thread) {e' : Nat} (he : e' ≠ e) :
    (s.move n e c' th).conduits e' = s.conduits e' := update_of_ne he ..

theorem Inv.fits_at (hs : Inv s) (hth : s.threads n = ⟨e, p⟩) : s.Fits n e p (s.conduits e) := by
  have hfits := hs.fits n
  rw [hth] at hfits
  exact hfits

variable (hs : Inv s) (hth : s.threads n = ⟨e, p⟩)
  (h : (s.conduits e).Acts n s.mu.isNone choice p c' p')
include hs hth h

theorem Inv.near_move : Near s (s.move n e c' ⟨e, p'⟩) n e where
  threads := fun _ hm => move_threads_ne _ hm
  conduits := fun _ he => move_conduits_ne _ he
  role := .inr (by rw [hth])
  mu := fun _ _ => Iff.rfl
  keeps := fun _ => by
    rw [move_conduits_self]
    exact keeps_of_acts h (hs.fits_at hth)
  count := Nat.le_refl _
  others := fun _ _ hlt => hlt

omit hs in
theorem visits_move {e' : Nat} (hvisits : (s.threads m).Visits e') :
    ((s.move n e c' ⟨e, p'⟩).threads m).Visits e' := by
  by_cases hm : m = n
  · subst hm
    obtain ⟨rest, hcaller, hmem⟩ := hvisits
    rw [hth] at hcaller hmem
    rw [move_threads_self]
    exact ⟨rest, (caller_of_acts h hcaller rfl).resolve_right nofun, hmem⟩
  · rw [move_threads_ne _ hm]
    exact hvisits

omit hs in
theorem closing_move (hwaits : c'.sendable = false) (hclosing : ∃ m, s.threads m = ⟨e, .closeLink⟩) :
    ∃ m, (s.move n e c' ⟨e, p'⟩).threads m = ⟨e, .closeLink⟩ := by
  obtain ⟨m, hm⟩ := hclosing
  have hne : m ≠ n := by
    rintro rfl
    rw [hth] at hm
    cases hm
    rw [sendable_of_acts_closeLink h] at hwaits
    cases hwaits
  exact ⟨m, by rw [move_threads_ne _ hne, hm]⟩

theorem Inv.listed_move (hlt : e < s.conduitCount) (hclient : c'.client = false)
    (hwaits : c'.sendable = false) :
    c'.mapped = true ∨ (∃ m, (s.move n e c' ⟨e, p'⟩).threads m = ⟨e, .closeLink⟩) ∨
      ∃ m, s.mu = some m ∧ ((s.move n e c' ⟨e, p'⟩).threads m).Expires e := by
  have hsame := (keeps_of_acts h (hs.fits_at hth)).client
  rcases waits_before_acts h hwaits with hbefore | ⟨_, ⟨hc, _⟩ | ⟨_, _, hmapped⟩⟩
  · rcases (hs.sound e hlt).listed (hsame ▸ hclient) hbefore with hmapped | hclosing | ⟨m, hmu, hm⟩
    · rcases (mapped_of_acts h).2 hmapped with hstays | hclose
      · exact .inl hstays
      · exact .inr (.inl ⟨n, by rw [move_threads_self, hclose]⟩)
    · exact .inr (.inl (closing_move hth h hwaits hclosing))
    · refine .inr (.inr ⟨m, hmu, ?_⟩)
      by_cases hmn : m = n
      · subst hmn
        rw [hth] at hm
        rw [move_threads_self]
        exact ⟨rfl, (caller_of_acts h hm.2 rfl).resolve_right nofun⟩
      · rw [move_threads_ne _ hmn]
        exact hm
  · rw [hsame, hc] at hclient
    cases hclient
  · exact .inl hmapped

theorem Inv.kept_move (hlt : e < s.conduitCount) (hclient : c'.client = true)
    (hwaits : c'.sendable = false) :
    ((s.move n e c' ⟨e, p'⟩).threads c'.keeper).GivesUp e ∨
      ∃ m, (s.move n e c' ⟨e, p'⟩).threads m = ⟨e, .closeLink⟩ := by
  have hfits := hs.fits_at hth
  have hkeeps := keeps_of_acts h hfits
  have hbefore' : (s.conduits e).client = true := hkeeps.client ▸ hclient
  have hkeeper : c'.keeper = (s.conduits e).keeper := by
    rcases hkeeps.keeper with heq | ⟨hlistener, _⟩
    · exact heq
    · rw [hbefore'] at hlistener
      cases hlistener
  rw [hkeeper]
  rcases waits_before_acts h hwaits with hbefore | ⟨rfl, ⟨_, rfl⟩ | ⟨hlistener, _⟩⟩
  · rcases (hs.sound e hlt).kept hbefore' hbefore with hgives | hclosing
    · left
      by_cases hn : (s.conduits e).keeper = n
      · rw [hn, hth] at hgives
        rw [hn, move_threads_self]
        refine ⟨rfl, ?_⟩
        rcases hgives.2 with rfl | hcaller
        · cases h with
          | attached => cases hwaits
          | attachFailed | graceOver => exact .inr rfl
        · refine .inr ((caller_of_acts h hcaller rfl).resolve_right fun hsend => ?_)
          rw [hsend.2] at hwaits
          cases hwaits
      · rw [move_threads_ne _ hn]
        exact hgives
    · exact .inr (closing_move hth h hwaits hclosing)
  · left
    rw [(hfits.keeps rfl).1, move_threads_self]
    exact ⟨rfl, .inl rfl⟩
  · rw [hbefore'] at hlistener
    cases hlistener

theorem Inv.sound_move (hlt : e < s.conduitCount) : (s.move n e c' ⟨e, p'⟩).Sound e := by
  have hsound := hs.sound e hlt
  have hfits := hs.fits_at hth
  have hkeeps := keeps_of_acts h hfits
  refine ⟨fun w hw => ?_, ?_, ?_, fun hclient hwaits => ?_, fun hclient hwaits => ?_,
    fun hclosed hclient hmapped => ?_⟩
  all_goals rw [move_conduits_self] at *
  · by_cases hwn : w = n
    · subst hwn
      rw [move_threads_self]
      refine ⟨rfl, owning_of_acts h (fun hmu => ?_) hw⟩
      have howner := (hsound.owner w hmu).2
      rw [hth] at howner
      exact howner
    · rw [move_threads_ne _ hwn]
      exact hsound.owner w ((hkeeps.writeMu w hwn).mp hw)
  · exact shut_of_acts h hfits hsound.shut
  · exact entryPeer_of_acts h hfits hsound.entryPeer
  · exact hs.listed_move hth h hlt hclient hwaits
  · exact hs.kept_move hth h hlt hclient hwaits
  · obtain ⟨m, hmu, hvisits⟩ :=
      hsound.visited hclosed (hkeeps.client ▸ hclient) ((mapped_of_acts h).1 hmapped)
    exact ⟨m, hmu, visits_move hth h hvisits⟩

omit h in
theorem Inv.not_heads_of_detach (hp : p = .returned)
    (hdetach : (s.conduits e).client = true ∨ (s.conduits e).client = false ∧ s.mu.isNone = true)
    (hm : m ≠ n) : ¬ (s.threads m).heads e = true := by
  intro hheads
  have hkeeper := ((hs.fits_at hth).keeps (by rw [hp]; rfl)).1
  rcases hs.heads_cases hheads with ⟨hclient, hmu⟩ | ⟨hclient, hkeeper'⟩
  · rcases hdetach with hc | ⟨_, hfree⟩
    · rw [hclient] at hc
      cases hc
    · rw [hmu] at hfree
      cases hfree
  · exact hm (hkeeper'.symm.trans hkeeper)

variable (hok : s.KeepsClear (.thread n choice))
include hok

/-- While somebody is to close the link of a stream without a peer, nobody gets to `link.Send`. -/
theorem Inv.atSend_move
    (hheads : ((s.move n e c' ⟨e, p'⟩).threads m).heads e = true) (hwaits : c'.sendable = false)
    (hsend : (s.move n e c' ⟨e, p'⟩).AtSend e) : s.AtSend e := by
  obtain ⟨w, hw, hsending⟩ := hsend
  rw [move_conduits_self] at hw
  by_cases hwn : w = n
  · subst hwn
    rw [move_threads_self] at hsending
    have hmw : m ≠ w := by
      rintro rfl
      obtain ⟨caller, hcaller, _⟩ := Thread.heads_iff.mp hheads
      rw [move_threads_self, Point.caller_of_sending hsending] at hcaller
      cases hcaller
    rw [move_threads_ne _ hmw] at hheads
    have hdoomed := hs.doomed_of_heads hheads
    obtain ⟨hsame, ⟨rfl, hopen⟩ | ⟨close, rfl, hopen⟩⟩ := sending_of_acts h hsending
    all_goals
      simp only [KeepsClear, hth] at hok
      exact absurd hdoomed (hok hopen (hsame ▸ hwaits))
  · rw [move_threads_ne _ hwn] at hsending
    exact ⟨w, ((keeps_of_acts h (hs.fits_at hth)).writeMu w hwn).mp hw, hsending⟩

theorem Inv.clear_move
    (hheads : ((s.move n e c' ⟨e, p'⟩).threads m).heads e = true) (hwaits : c'.sendable = false)
    (hsend : (s.move n e c' ⟨e, p'⟩).AtSend e) :
    c'.closed = true ∧ ∀ caller, (s.move n e c' ⟨e, p'⟩).threads m ≠ ⟨e, .failLock caller⟩ := by
  have hfits := hs.fits_at hth
  have hkeeps := keeps_of_acts h hfits
  have hbefore := hs.atSend_move hth h hok hheads hwaits hsend
  by_cases hm : m = n
  · subst hm
    rw [move_threads_self] at hheads ⊢
    rcases heads_of_acts h hheads with hheaded | ⟨_, hgives⟩
    · have hwaited : (s.conduits e).sendable = false := by
        rcases waits_before_acts h hwaits with hw | ⟨rfl, _⟩
        · exact hw
        · obtain ⟨caller, hcaller, _⟩ := Thread.heads_iff.mp hheaded
          cases hcaller
      obtain ⟨hclosed, _⟩ := hs.clear m e (by rw [hth]; exact hheaded) hwaited hbefore
      refine ⟨hkeeps.closed hclosed, fun caller hp' => ?_⟩
      rw [failLock_of_acts h (Thread.mk.inj hp').2] at hclosed
      cases hclosed
    · obtain ⟨rfl, rfl, rfl⟩ := giveUp_of_acts h hfits hgives hwaits
      simp only [KeepsClear, hth] at hok
      refine ⟨?_, fun caller hp' => by rw [hgives] at hp'; cases hp'⟩
      by_contra hopen
      exact hok trivial hwaits (by simpa using hopen) hbefore
  · rw [move_threads_ne _ hm] at hheads ⊢
    rcases waits_before_acts h hwaits with hwaited | ⟨hp, hdetach⟩
    · obtain ⟨hclosed, hpoint⟩ := hs.clear m e hheads hwaited hbefore
      exact ⟨hkeeps.closed hclosed, hpoint⟩
    · exact absurd hheads (hs.not_heads_of_detach hth hp
        (hdetach.imp And.left fun hd => ⟨hd.1, hd.2.1⟩) hm)

theorem Inv.act_move : Inv (s.move n e c' ⟨e, p'⟩) := by
  have hfits := hs.fits_at hth
  have hkeeps := keeps_of_acts h hfits
  have hpoint : p ≠ .done := by
    rintro rfl
    cases h
  have hlt := hfits.bound hpoint
  refine (hs.near_move hth h).inv hs (fun m hle => ?_) (fun hmu => ?_) ?_
    (hs.sound_move hth h hlt) (fun e' _ he' hclosed hclient hmapped => ?_) (fun m => ?_)
    fun e' hne hheads hwaits hsend => ?_
  · have hm : m ≠ n := by
      rintro rfl
      rw [hs.fresh m hle] at hth
      cases hth
      exact hpoint rfl
    rw [move_threads_ne _ hm]
    exact hs.fresh m hle
  · obtain ⟨caller, hcaller, hholds⟩ := hs.holder n hmu
    rw [hth] at hcaller
    rw [move_threads_self]
    refine ⟨caller, ?_, hholds⟩
    cases caller with
    | expiry | shutdown => exact (caller_of_acts h hcaller rfl).resolve_right nofun
    | _ => cases hholds
  · rw [move_threads_self, move_conduits_self]
    refine fits_of_acts h hfits hlt id fun e' he' hclient => ⟨he', ?_⟩
    by_cases heq : e' = e
    · subst heq
      rw [move_conduits_self, hkeeps.client]
      exact hclient
    · rw [move_conduits_ne _ heq]
      exact hclient
  · obtain ⟨m, hmu, hvisits⟩ := (hs.sound e' he').visited hclosed hclient hmapped
    exact ⟨m, hmu, visits_move hth h hvisits⟩
  · rw [move_conduits_self]
    exact hs.clear_move hth h hok
  · rw [move_threads_self] at hheads ⊢
    have hheaded := (heads_of_acts h hheads).resolve_right fun hgives => hne hgives.1
    obtain ⟨hclosed, _⟩ := hs.clear n e' (by rw [hth]; exact hheaded) hwaits hsend
    exact ⟨hclosed, fun caller heq => hne (Thread.mk.inj heq).1.symm⟩

end Move

end Locking

end P2PNetcat.NativeWebRTC
