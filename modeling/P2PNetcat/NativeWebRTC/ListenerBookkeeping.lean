import P2PNetcat.NativeWebRTC.StepEffect

/-!
# The listener's bookkeeping across reconnects

An entry, its link and the goroutine that watches it each remember the current
peer, under two mutexes. In every state between two sections they agree for the
streams in the map, one goroutine at most feeds a stream, and every stream
created is given to `onStream` once.
-/

namespace P2PNetcat.NativeWebRTC
open List Function ByteCodec StepSystem

/-- The stream a peer's goroutine is bound to, from `activate` to the section of `watch`. -/
def ServerPoint.entry : ServerPoint → Option Nat
  | .rebinding e | .forwarding e | .returned e => some e
  | _ => none

/-- A later state of a peer: once closed it stays so, and a refused one waits to be closed. -/
structure ServerPeer.Ending (p p' : ServerPeer) : Prop where
  closed : p.peer.closed = true → p'.peer.closed = true
  refused : p.point = .refused → p'.point = .refused ∨ p'.peer.closed = true

theorem ServerPeer.Ending.refl (p : ServerPeer) : p.Ending p := ⟨id, .inl⟩

theorem ServerPeer.Ending.trans {p q r : ServerPeer} (h : p.Ending q) (h' : q.Ending r) :
    p.Ending r := by
  refine ⟨fun hp => h'.closed (h.closed hp), fun hp => ?_⟩
  rcases h.refused hp with hq | hq
  · exact h'.refused hq
  · exact .inr (h'.closed hq)

theorem ServerPeer.Ending.of_closed {p p' : ServerPeer} (h : p'.peer.closed = true) : p.Ending p' :=
  ⟨fun _ => h, fun _ => .inr h⟩

theorem ServerPeer.Ending.of_point {p p' : ServerPeer} (hpoint : p.point ≠ .refused)
    (h : p.peer.closed = true → p'.peer.closed = true) : p.Ending p' :=
  ⟨h, fun hrefused => absurd hrefused hpoint⟩

namespace Listener
variable {L : Libp2p} {cfg : ListenerConfig L} {l t : Listener} {ev : Event}
variable {p : ServerPeer} {i : Nat}

theorem ending_setPeer (hp : (l.peers i).Ending p) (j : Nat) :
    (l.peers j).Ending ((l.setPeer i p).peers j) := by
  by_cases heq : j = i
  · subst heq
    simpa [setPeer] using hp
  · simp only [setPeer, update_of_ne heq]
    exact .refl _

theorem ending_closeTaken (l : Listener) (taken : Option Nat) (i : Nat) :
    (l.peers i).Ending ((l.closeTaken taken).peers i) := by
  cases taken with
  | none => exact .refl _
  | some j => exact ending_setPeer (.of_closed rfl) i

theorem ending_terminate (l : Listener) (e : Nat) (err : String) (i : Nat) :
    (l.peers i).Ending ((l.terminate e err).peers i) := by
  rw [terminate_peers]
  exact ending_closeTaken l _ i

theorem closeTaken_entryCount (l : Listener) (taken : Option Nat) :
    (l.closeTaken taken).entryCount = l.entryCount := by
  cases taken <;> rfl

theorem terminate_entryCount (l : Listener) (e : Nat) (err : String) :
    (l.terminate e err).entryCount = l.entryCount := by
  unfold terminate
  rw [setEntry_closeTaken]
  exact closeTaken_entryCount l _

theorem terminate_entries (l : Listener) (e : Nat) (err : String) :
    (l.terminate e err).entries = update l.entries e { l.entries e with
      stream := (l.entries e).stream.fail (some err)
      link := (l.entries e).link.close.1 } := by
  simp [terminate, delete, setEntry]

theorem entryCount_of_step (ht : l.step L cfg ev = some t)
    (hev : ∀ i stopped, ev ≠ .activate i stopped) : t.entryCount = l.entryCount := by
  cases stepped_of_step ht with
  | refused | created | attached => exact absurd rfl (hev _ _)
  | expired => exact terminate_entryCount _ _ _
  | unlinked => split <;> rfl
  | peerClosed => exact closeTaken_entryCount l _
  | @shutdown order =>
    exact terminateAll_invariant (I := fun t => t.entryCount = l.entryCount)
      (fun h _ => (terminate_entryCount _ _ _).trans h) order rfl
  | _ => rfl

theorem peerCount_of_step (ht : l.step L cfg ev = some t) : l.peerCount ≤ t.peerCount := by
  rcases (effect_of_step ht).count with hsame | ⟨_, _, hsucc, _⟩ <;> omega

theorem ending_of_step (ht : l.step L cfg ev = some t) (hi : i < l.peerCount) :
    (l.peers i).Ending (t.peers i) := by
  cases stepped_of_step ht with
  | @message j data pickClosed =>
    have hclosed := (NativePeer.onMessage_spec (l.peers j).peer data pickClosed).2
    refine ending_setPeer ?_ i
    exact ⟨hclosed, .inl⟩
  | lose | denied | abandoned | closedRefused => exact ending_setPeer (.of_closed rfl) i
  | offer =>
    have hne : i ≠ l.peerCount := by omega
    simp only [Listener.offer, setPeer, update_of_ne hne]
    exact .refl _
  | answer hp | responded hp | accepted hp | observed hp | refused hp | created hp | attached hp
  | rebound hp | reset hp | finished hp | detached hp =>
    refine ending_setPeer ?_ i
    exact .of_point (by simp [hp]) id
  | @forwarded j e _ peer _ _ _ hp hturn =>
    have hclosed : peer.closed = (l.peers j).peer.closed := by
      obtain ⟨_, _, _, _, rfl, _⟩ | ⟨_, _, rfl, _⟩ := forwardFrames_cases hturn <;> rfl
    refine ending_setPeer ?_ i
    exact .of_point (by simp [hp]) fun h => hclosed.trans h
  | sent =>
    refine ending_setPeer ?_ i
    exact ⟨id, .inl⟩
  | @expired e => exact ending_terminate (l.setEntry e _) e _ i
  | unlinked => split <;> exact .refl _
  | peerClosed => exact ending_closeTaken l _ i
  | @shutdown order =>
    exact terminateAll_invariant (I := fun t => (l.peers i).Ending (t.peers i))
      (fun h _ => h.trans (ending_terminate _ _ _ i)) order (.refl _)
  | lapsed | closing | linkClosed | failed => exact .refl _

variable {e : Nat}

structure BookkeepingInv (l : Listener) : Prop where
  agree : ∀ remote e, l.streams remote = some e → (l.entries e).peer = (l.entries e).link.peer
  mapped : ∀ remote e, l.streams remote = some e → e < l.entryCount ∧ (l.entries e).remote = remote
  bound : ∀ i e, (l.peers i).point.entry = some e → e < l.entryCount ∧ (l.entries e).peer = some i
  closers : ∀ n, (l.closers n).point ≠ .done → (l.closers n).entry < l.entryCount
  unlinked : ∀ n, (l.closers n).point = .unlinked →
    ∀ remote, l.streams remote ≠ some (l.closers n).entry
  opened : l.opened = range l.entryCount

theorem BookkeepingInv.initial : BookkeepingInv {} :=
  ⟨nofun, nofun, nofun, fun _ h => absurd rfl h, nofun, rfl⟩

section Updates
variable (h : BookkeepingInv l)
include h
variable {entry : ListenerStream} {i e : Nat}

theorem BookkeepingInv.setEntry
    (hremote : entry.remote = (l.entries e).remote) (hpeer : entry.peer = (l.entries e).peer)
    (hlink : (∃ remote, l.streams remote = some e) → entry.link.peer = (l.entries e).link.peer) :
    BookkeepingInv (l.setEntry e entry) := by
  have hentry : ∀ e', ((l.setEntry e entry).entries e').remote = (l.entries e').remote ∧
      ((l.setEntry e entry).entries e').peer = (l.entries e').peer := by
    intro e'
    by_cases heq : e' = e
    · subst heq
      simp [Listener.setEntry, hremote, hpeer]
    · simp [Listener.setEntry, update_of_ne heq]
  refine ⟨fun remote e' he' => ?_, fun remote e' he' => ?_, fun i e' hi => ?_, h.closers, h.unlinked,
    h.opened⟩
  · have hagree := h.agree remote e' he'
    rw [(hentry e').2, hagree]
    by_cases heq : e' = e
    · subst heq
      simpa [Listener.setEntry] using (hlink ⟨remote, he'⟩).symm
    · simp [Listener.setEntry, update_of_ne heq]
  · rw [(hentry e').1]
    exact h.mapped remote e' he'
  · rw [(hentry e').2]
    exact h.bound i e' hi

theorem BookkeepingInv.of_remove {e' : Nat} {remote : Bytes}
    (hstreams : t.streams = update l.streams (l.entries e).remote none)
    (he' : t.streams remote = some e') : l.streams remote = some e' ∧ e' ≠ e := by
  rw [hstreams] at he'
  by_cases heq : remote = (l.entries e).remote
  · simp [heq] at he'
  rw [update_of_ne heq] at he'
  refine ⟨he', ?_⟩
  rintro rfl
  exact heq (h.mapped remote e' he').2.symm

theorem BookkeepingInv.not_held_of_delete (e : Nat) (remote : Bytes) :
    (l.delete e).streams remote ≠ some e :=
  fun hsome => (h.of_remove rfl hsome).2 rfl

theorem BookkeepingInv.delete (e : Nat) : BookkeepingInv (l.delete e) := by
  have hkept : ∀ remote e', (l.delete e).streams remote = some e' → l.streams remote = some e' :=
    fun remote e' he' => (h.of_remove rfl he').1
  exact ⟨fun remote e' he' => h.agree remote e' (hkept remote e' he'),
    fun remote e' he' => h.mapped remote e' (hkept remote e' he'), h.bound, h.closers,
    fun n hn remote he' => h.unlinked n hn remote (hkept remote _ he'), h.opened⟩

theorem BookkeepingInv.not_held (hfree : l.holds e = false) (remote : Bytes) :
    l.streams remote ≠ some e := by
  intro hsome
  have hremote := (h.mapped remote e hsome).2
  subst hremote
  simp [holds, hsome] at hfree

theorem BookkeepingInv.setCloser {n : Nat} {c : ListenerCloser}
    (hentry : c.point ≠ .done → c.entry < l.entryCount)
    (hunlinked : c.point = .unlinked → ∀ remote, l.streams remote ≠ some c.entry) :
    BookkeepingInv (l.setCloser n c) := by
  refine ⟨h.agree, h.mapped, h.bound, fun m hm => ?_, fun m hm => ?_, h.opened⟩
  · by_cases heq : m = n
    · subst heq
      simp only [Listener.setCloser, update_self] at hm ⊢
      exact hentry hm
    · simp only [Listener.setCloser, update_of_ne heq] at hm ⊢
      exact h.closers m hm
  · by_cases heq : m = n
    · subst heq
      simp only [Listener.setCloser, update_self] at hm ⊢
      exact hunlinked hm
    · simp only [Listener.setCloser, update_of_ne heq] at hm ⊢
      exact h.unlinked m hm

theorem BookkeepingInv.startCloser (he : e < l.entryCount) :
    BookkeepingInv (l.startCloser e) := by
  have hset : BookkeepingInv (l.setCloser l.closerCount ⟨e, .start⟩) :=
    h.setCloser (fun _ => he) nofun
  exact ⟨hset.agree, hset.mapped, hset.bound, hset.closers, hset.unlinked, hset.opened⟩

theorem BookkeepingInv.setPeer {p : ServerPeer}
    (hp : p.point.entry = none ∨ p.point.entry = (l.peers i).point.entry) :
    BookkeepingInv (l.setPeer i p) := by
  refine ⟨h.agree, h.mapped, fun j e hj => ?_, h.closers, h.unlinked, h.opened⟩
  by_cases heq : j = i
  · subst heq
    simp only [Listener.setPeer, update_self] at hj
    rcases hp with hp | hp
    · rw [hp] at hj
      cases hj
    · exact h.bound j e (hp ▸ hj)
  · simp only [Listener.setPeer, update_of_ne heq] at hj
    exact h.bound j e hj

theorem BookkeepingInv.closeTaken (taken : Option Nat) : BookkeepingInv (l.closeTaken taken) := by
  cases taken with
  | none => exact h
  | some i => exact h.setPeer (.inr rfl)

theorem BookkeepingInv.terminate (e : Nat) (err : String) : BookkeepingInv (l.terminate e err) := by
  -- the stream leaves the map before its link is looked at again
  have hdelete := (h.closeTaken (l.entries e).link.close.2).delete e
  have hgone := (h.closeTaken (l.entries e).link.close.2).not_held_of_delete e
  have hentry : BookkeepingInv (((l.closeTaken (l.entries e).link.close.2).delete e).setEntry e
      { l.entries e with
        stream := (l.entries e).stream.fail (some err)
        link := (l.entries e).link.close.1 }) := by
    refine hdelete.setEntry ?_ ?_ fun ⟨remote, he⟩ => absurd he (hgone remote)
    · simp [Listener.delete]
    · simp [Listener.delete]
  have hstate : l.terminate e err = ((l.closeTaken (l.entries e).link.close.2).delete e).setEntry e
      { l.entries e with
        stream := (l.entries e).stream.fail (some err)
        link := (l.entries e).link.close.1 } := by
    unfold Listener.terminate
    rw [setEntry_closeTaken]
    simp [Listener.delete, Listener.setEntry]
  rw [hstate]
  exact hentry

theorem BookkeepingInv.bindPeer {p : ServerPeer}
    (hp : p.point.entry = none ∨ p.point.entry = some e ∧ entry.peer = some i)
    (hfree : ∀ j, j ≠ i → (l.peers j).point.entry ≠ some e)
    (hremote : entry.remote = (l.entries e).remote) (he : e < l.entryCount)
    (hlink : entry.peer = entry.link.peer) :
    BookkeepingInv ((l.setPeer i p).setEntry e entry) := by
  refine ⟨fun remote e' he' => ?_, fun remote e' he' => ?_, fun j e' hj => ?_, h.closers, h.unlinked,
    h.opened⟩
  · by_cases heq : e' = e
    · subst heq
      simpa [Listener.setEntry] using hlink
    · simpa [Listener.setEntry, Listener.setPeer, update_of_ne heq] using
        h.agree remote e' he'
  · by_cases heq : e' = e
    · subst heq
      simpa [Listener.setEntry, Listener.setPeer, hremote] using h.mapped remote e' he'
    · simpa [Listener.setEntry, Listener.setPeer, update_of_ne heq] using
        h.mapped remote e' he'
  · by_cases hji : j = i
    · subst hji
      simp only [Listener.setEntry, Listener.setPeer, update_self] at hj
      rcases hp with hp | ⟨hp, hpeer⟩
      · rw [hp] at hj
        cases hj
      rw [hp] at hj
      cases hj
      exact ⟨he, by simp [Listener.setEntry, hpeer]⟩
    · simp only [Listener.setEntry, Listener.setPeer, update_of_ne hji] at hj
      have hne : e' ≠ e := fun heq => hfree j hji (heq ▸ hj)
      simpa [Listener.setEntry, Listener.setPeer, update_of_ne hne] using h.bound j e' hj

theorem BookkeepingInv.not_bound {j : Nat} (hne : (l.entries e).peer ≠ some j) :
    (l.peers j).point.entry ≠ some e :=
  fun hj => hne (h.bound j e hj).2

theorem BookkeepingInv.create (hentries : t.entries = update l.entries l.entryCount entry)
    (hstreams : t.streams = update l.streams entry.remote (some l.entryCount))
    (hcount : t.entryCount = l.entryCount + 1) (hclosers : t.closers = l.closers)
    (hopened : t.opened = l.opened ++ [l.entryCount])
    (hpeer : entry.peer = some i) (hlink : entry.link.peer = some i)
    (hbound : ∀ j e, (t.peers j).point.entry = some e →
      j = i ∧ e = l.entryCount ∨ (l.peers j).point.entry = some e) : BookkeepingInv t := by
  have hself : t.entries l.entryCount = entry := by
    rw [hentries, update_self]
  have hother : ∀ e, e < l.entryCount → t.entries e = l.entries e := by
    intro e he
    rw [hentries, update_of_ne (by omega)]
  have hmap : ∀ remote e, t.streams remote = some e →
      e = l.entryCount ∧ remote = entry.remote ∨ l.streams remote = some e := by
    intro remote e he
    rw [hstreams] at he
    by_cases heq : remote = entry.remote
    · subst heq
      simp only [update_self, Option.some.injEq] at he
      exact .inl ⟨he.symm, rfl⟩
    · rw [update_of_ne heq] at he
      exact .inr he
  refine ⟨fun remote e he => ?_, fun remote e he => ?_, fun j e hj => ?_, fun n hn => ?_,
    fun n hn remote he => ?_, ?_⟩
  · rcases hmap remote e he with ⟨rfl, rfl⟩ | hold
    · rw [hself, hpeer, hlink]
    · rw [hother e (h.mapped remote e hold).1]
      exact h.agree remote e hold
  · rcases hmap remote e he with ⟨rfl, rfl⟩ | hold
    · exact ⟨by omega, by rw [hself]⟩
    · obtain ⟨hlt, hremote⟩ := h.mapped remote e hold
      exact ⟨by omega, by rw [hother e hlt, hremote]⟩
  · rcases hbound j e hj with ⟨rfl, rfl⟩ | hold
    · exact ⟨by omega, by rw [hself, hpeer]⟩
    · obtain ⟨hlt, hheld⟩ := h.bound j e hold
      exact ⟨by omega, by rw [hother e hlt, hheld]⟩
  · rw [hclosers] at hn ⊢
    have hlt := h.closers n hn
    omega
  · rw [hclosers] at hn he
    rcases hmap remote _ he with ⟨hnew, _⟩ | hold
    · have hlt := h.closers n (by rw [hn]; nofun)
      omega
    · exact h.unlinked n hn remote hold
  · rw [hopened, hcount, h.opened, range_succ]

end Updates

section Steps
variable (h : BookkeepingInv l)
include h

theorem BookkeepingInv.closer {n : Nat} (hstart : (l.closers n).point = .start) :
    BookkeepingInv (if l.holds (l.closers n).entry then
        (l.setCloser n ⟨(l.closers n).entry, .unlinked⟩).delete (l.closers n).entry
      else l.setCloser n ⟨(l.closers n).entry, .unlinked⟩) := by
  have hlt := h.closers n (by rw [hstart]; nofun)
  split
  · exact (h.delete (l.closers n).entry).setCloser (fun _ => hlt)
      fun _ => h.not_held_of_delete (l.closers n).entry
  next hfree =>
    exact h.setCloser (fun _ => hlt) fun _ => h.not_held (by simpa using hfree)

theorem BookkeepingInv.step (ht : l.step L cfg ev = some t) : BookkeepingInv t := by
  cases stepped_of_step ht with
  | message | lose | sent => exact h.setPeer (.inr rfl)
  | @offer value =>
    have hset : BookkeepingInv (l.setPeer l.peerCount { offer := value }) := h.setPeer (.inl rfl)
    exact ⟨hset.agree, hset.mapped, hset.bound, hset.closers, hset.unlinked, hset.opened⟩
  | answer | responded | accepted | denied | abandoned | observed | refused | closedRefused
  | finished => exact h.setPeer (.inl rfl)
  | @created i stopped hp hopen hnone =>
    refine h.create (i := i) rfl rfl rfl rfl rfl rfl rfl fun j e hj => ?_
    by_cases heq : j = i
    · subst heq
      simp only [Listener.setEntry, Listener.setPeer, update_self] at hj
      exact .inl ⟨rfl, (Option.some.inj hj).symm⟩
    · simp only [Listener.setEntry, Listener.setPeer, update_of_ne heq] at hj
      exact .inr hj
  | @attached i e pending stopped hp hstream hfree =>
    refine h.bindPeer (.inr ⟨rfl, rfl⟩) (fun j _ => h.not_bound ?_) rfl (h.mapped _ e hstream).1 rfl
    rw [hfree]
    rintro ⟨⟩
  | rebound hp =>
    exact BookkeepingInv.setEntry (h.setPeer (.inr (by rw [hp]; rfl))) rfl rfl fun _ => rfl
  | @reset i e err hp =>
    have he := (h.bound i e (by rw [hp]; rfl)).1
    refine BookkeepingInv.startCloser (.setEntry (h.setPeer ?_) ?_ ?_ fun _ => ?_) he
    · exact .inl rfl
    all_goals rfl
  | @forwarded i e _ _ _ _ err hp =>
    refine (h.setPeer (.inr ?_)).setEntry rfl rfl fun _ => rfl
    rw [hp]
    cases err <;> rfl
  | @detached i e hp hstream hpeer =>
    have hlink : (l.entries e).link.peer = some i := by rw [← h.agree _ e hstream, hpeer]
    refine h.bindPeer (.inl rfl) (fun j hj => h.not_bound ?_) rfl (h.mapped _ e hstream).1 ?_
    · rw [hpeer]
      exact fun heq => hj (Option.some.inj heq).symm
    · simp [PeerLink.detach, hlink]
  | lapsed => exact h.setEntry rfl rfl fun _ => rfl
  | expired =>
    refine BookkeepingInv.terminate (h.setEntry ?_ ?_ fun _ => ?_) _ _
    all_goals rfl
  | closing he => exact h.startCloser he
  | unlinked hstart => exact h.closer hstart
  | @linkClosed n hp =>
    have hlt := h.closers n (by rw [hp]; rintro ⟨⟩)
    have hclosed : BookkeepingInv (l.setEntry (l.closers n).entry
        { l.entries (l.closers n).entry with
          link := (l.entries (l.closers n).entry).link.close.1 }) :=
      h.setEntry rfl rfl fun hsome => hsome.elim fun remote hremote =>
        absurd hremote (h.unlinked n hp remote)
    exact hclosed.setCloser (fun _ => hlt) (by rintro ⟨⟩)
  | @peerClosed n taken hp => exact (h.closeTaken taken).setCloser (absurd rfl) (by rintro ⟨⟩)
  | failed he => exact h.setEntry rfl rfl fun _ => rfl
  | @shutdown order =>
    have hclosed : BookkeepingInv { l with closed := true } :=
      ⟨h.agree, h.mapped, h.bound, h.closers, h.unlinked, h.opened⟩
    exact terminateAll_invariant (fun h _ => h.terminate _ _) _ hclosed

end Steps

def Kept (l t : Listener) : Prop :=
  ∀ remote e, t.streams remote = some e →
    l.streams remote = some e ∧ (t.entries e).peer = (l.entries e).peer

theorem Kept.setEntry {entry : ListenerStream} (hstreams : t.streams = l.streams)
    (hentries : t.entries = update l.entries e entry)
    (hpeer : entry.peer = (l.entries e).peer) : Kept l t := by
  intro remote e' he'
  rw [hstreams] at he'
  rw [hentries]
  by_cases heq : e' = e
  · subst heq
    exact ⟨he', by rw [update_self, hpeer]⟩
  · exact ⟨he', by rw [update_of_ne heq]⟩

theorem BookkeepingInv.kept_remove (h : BookkeepingInv l)
    (hstreams : t.streams = update l.streams (l.entries e).remote none)
    (hentries : ∀ e', e' ≠ e → t.entries e' = l.entries e') : Kept l t := by
  intro remote e' he'
  obtain ⟨hold, hne⟩ := h.of_remove hstreams he'
  exact ⟨hold, by rw [hentries e' hne]⟩

theorem BookkeepingInv.kept_terminateAll (h : BookkeepingInv l) (order : List Nat) :
    Kept l (Listener.terminateAll order l) := by
  refine (terminateAll_invariant (I := fun t => BookkeepingInv t ∧ Kept l t) ?_ order
    ⟨h, fun _ _ he => ⟨he, rfl⟩⟩).2
  rintro t e err ⟨ht, hkept⟩ -
  refine ⟨ht.terminate e err, fun remote e' he' => ?_⟩
  obtain ⟨hmid, hne⟩ := ht.of_remove (terminate_streams t e err) he'
  rw [terminate_entries, update_of_ne hne]
  exact hkept remote e' hmid

theorem BookkeepingInv.kept (h : BookkeepingInv l) (ht : l.step L cfg ev = some t)
    (hactivate : ∀ i stopped, ev ≠ .activate i stopped) (hwatch : ∀ i, ev ≠ .watch i) :
    Kept l t := by
  cases stepped_of_step ht with
  | message | lose | offer | answer | responded | accepted | denied | abandoned | observed
  | closedRefused | sent | closing => exact fun _ _ he => ⟨he, rfl⟩
  | refused | created | attached => exact absurd rfl (hactivate _ _)
  | finished | detached => exact absurd rfl (hwatch _)
  | rebound | reset | forwarded | lapsed | linkClosed | failed => exact Kept.setEntry rfl rfl rfl
  | @expired e =>
    refine h.kept_remove (e := e) ?_ fun e' hne => ?_
    · rw [terminate_streams]
      simp [Listener.setEntry]
    · rw [terminate_entries, update_of_ne hne]
      simp [Listener.setEntry, update_of_ne hne]
  | unlinked =>
    split
    · exact h.kept_remove rfl fun _ _ => rfl
    · exact fun _ _ he => ⟨he, rfl⟩
  | peerClosed =>
    intro remote e he
    exact ⟨by simpa [Listener.setCloser] using he, by simp [Listener.setCloser]⟩
  | @shutdown order =>
    have hclosed : BookkeepingInv { l with closed := true } :=
      ⟨h.agree, h.mapped, h.bound, h.closers, h.unlinked, h.opened⟩
    exact hclosed.kept_terminateAll order

def isNew (l : Listener) (i : Nat) : Bool :=
  !l.closed && (l.streams (l.peers i).offer.sender).isNone

theorem activate_entryCount {i : Nat} {stopped : Bool}
    (ht : l.step L cfg (.activate i stopped) = some t) :
    t.entryCount = l.entryCount + if l.isNew i then 1 else 0 := by
  cases stepped_of_step ht with
  | refused _ hold => rcases hold with hold | hold <;> simp [isNew, hold, setPeer]
  | created _ hopen hnone => simp [isNew, hopen, hnone]
  | attached _ hstream => simp [isNew, hstream, setEntry, setPeer]

theorem activate_attached {i : Nat} {stopped : Bool}
    (hstream : l.streams (l.peers i).offer.sender = some e) (hpeer : (l.entries e).peer.isSome = true)
    (ht : l.step L cfg (.activate i stopped) = some t) :
    (l.peers i).point = .accepted ∧ t = l.setPeer i { l.peers i with point := .refused } := by
  cases stepped_of_step ht with
  | refused hp => exact ⟨hp, rfl⟩
  | created _ _ hnone => cases hnone.symm.trans hstream
  | attached _ hstream' hfree =>
    cases hstream'.symm.trans hstream
    simp [hfree] at hpeer

end Listener

/-- A listener with the `activate` calls that have created a stream and are about to pass it to
`onStream`, and the calls of `onStream` made so far. -/
structure Activations where
  listener : Listener := {}
  calling : List Nat := []
  called : List Nat := []

namespace Activations
variable {L : Libp2p} {cfg : ListenerConfig L} {a b : Activations} {ev : Listener.Event}

inductive Event where
  | listener (event : Listener.Event)
  | onStream (entry : Nat)
  deriving DecidableEq

def toCall (l : Listener) : Listener.Event → List Nat
  | .activate i _ => if l.isNew i then [l.entryCount] else []
  | _ => []

def step (L : Libp2p) (cfg : ListenerConfig L) (a : Activations) : Event → Option Activations
  | .listener event =>
    match a.listener.step L cfg event with
    | some listener =>
      some { a with listener, calling := a.calling ++ toCall a.listener event }
    | none => none
  | .onStream e =>
    if e ∈ a.calling then
      some { a with calling := a.calling.erase e, called := a.called ++ [e] }
    else none

theorem step_listener (ht : step L cfg a (.listener ev) = some b) :
    a.listener.step L cfg ev = some b.listener ∧ b.called = a.called ∧
      b.calling = a.calling ++ toCall a.listener ev := by
  simp only [step] at ht
  split at ht
  next l hl =>
    cases ht
    exact ⟨hl, rfl, rfl⟩
  · cases ht

theorem step_onStream {e : Nat} (ht : step L cfg a (.onStream e) = some b) :
    e ∈ a.calling ∧ b = { a with calling := a.calling.erase e, called := a.called ++ [e] } := by
  obtain ⟨he, rfl⟩ := guard_eq_some.mp ht
  exact ⟨he, rfl⟩

theorem step_lifts (I : Listener → Prop) {ev : Event}
    (hstep : ∀ {l t ev}, I l → Listener.step L cfg l ev = some t → I t)
    (ha : I a.listener) (ht : step L cfg a ev = some b) : I b.listener := by
  cases ev with
  | listener ev => exact hstep ha (step_listener ht).1
  | onStream e =>
    obtain ⟨_, rfl⟩ := step_onStream ht
    exact ha

/-- The stream is waiting for its call or has had it, and never both. -/
def CalledOnce (a : Activations) : Prop :=
  ∀ e, a.called.count e + a.calling.count e = if e < a.listener.entryCount then 1 else 0

theorem count_toCall {l t : Listener} (ht : l.step L cfg ev = some t)
    (e : Nat) : (if e < l.entryCount then 1 else 0) + (toCall l ev).count e =
      if e < t.entryCount then 1 else 0 := by
  by_cases hev : ∃ i stopped, ev = .activate i stopped
  · obtain ⟨i, stopped, rfl⟩ := hev
    have hcount := Listener.activate_entryCount ht
    cases hnew : l.isNew i with
    | true =>
      simp only [toCall, hcount, hnew, if_true, count_singleton, beq_iff_eq]
      split_ifs <;> omega
    | false => simp [toCall, hcount, hnew]
  · have hnone : toCall l ev = [] := by
      unfold toCall
      split
      · exact absurd ⟨_, _, rfl⟩ hev
      · rfl
    rw [hnone, Listener.entryCount_of_step ht fun i stopped h => hev ⟨i, stopped, h⟩]
    rfl

theorem CalledOnce.step {ev : Event} (h : CalledOnce a) (ht : step L cfg a ev = some b) :
    CalledOnce b := by
  intro e
  have hold := h e
  cases ev with
  | listener ev =>
    obtain ⟨hl, hcalled, hcalling⟩ := step_listener ht
    have hnew := count_toCall hl e
    rw [hcalled, hcalling, count_append]
    omega
  | onStream e' =>
    obtain ⟨hmem, rfl⟩ := step_onStream ht
    have hpos : 0 < a.calling.count e' := count_pos_iff.mpr hmem
    dsimp only
    rw [count_append, count_erase, count_singleton]
    by_cases heq : e' = e
    · subst heq
      simp only [beq_self_eq_true, if_true]
      omega
    · simp only [beq_iff_eq, heq, if_false]
      omega

/-- A peer that `activate` refused is closed, or the goroutine that has it is about to. -/
def Refused (l : Listener) (i : Nat) : Prop :=
  i < l.peerCount ∧ ((l.peers i).point = .refused ∨ (l.peers i).peer.closed = true)

theorem Refused.step {l t : Listener} {i : Nat} (h : Refused l i)
    (ht : l.step L cfg ev = some t) : Refused t i := by
  have hending := Listener.ending_of_step ht h.1
  refine ⟨Nat.lt_of_lt_of_le h.1 (Listener.peerCount_of_step ht), ?_⟩
  rcases h.2 with hrefused | hclosed
  · exact hending.refused hrefused
  · exact .inr (hending.closed hclosed)

theorem Refused.closes {i : Nat} (h : Refused a.listener i) :
    (a.listener.peers i).peer.closed = true ∨
    ∃ b, Activations.step L cfg a (.listener (.refuse i)) = some b ∧
      (b.listener.peers i).peer.closed = true := by
  rcases h.2 with hrefused | hclosed
  · have hrefuse : a.listener.refuse i = some (a.listener.setPeer i
        { (a.listener.peers i).close with point := .done }) := by
      simp [Listener.refuse, hrefused]
    refine .inr ⟨{ a with
      listener := a.listener.setPeer i { (a.listener.peers i).close with point := .done } }, ?_, ?_⟩
    · simp [Activations.step, Listener.step, hrefuse, toCall]
    · simp [Listener.setPeer, ServerPeer.close, NativePeer.close]
  · exact .inl hclosed

end Activations

/-- In every interleaving of activations, losses, grace callbacks, closes and `Close`, between
two sections: an entry in the map has the peer its link has, one `forwardFrames` loop at most feeds
a stream, a peer that arrives while the stream of its remote has one changes no stream and is
closed, and every stream created is passed to `onStream` once. -/
theorem reconnect_bookkeeping (L : Libp2p) (cfg : ListenerConfig L) {es : List Activations.Event}
    {a : Activations} (hrun : Run (Activations.step L cfg) Any {} es a) :
    (∀ remote e, a.listener.streams remote = some e →
      (a.listener.entries e).peer = (a.listener.entries e).link.peer) ∧
    (∀ i j e, (a.listener.peers i).point = .forwarding e →
      (a.listener.peers j).point = .forwarding e → i = j) ∧
    (∀ i stopped e b, a.listener.streams (a.listener.peers i).offer.sender = some e →
      (a.listener.entries e).peer.isSome = true →
      Activations.step L cfg a (.listener (.activate i stopped)) = some b →
      b.listener.streams = a.listener.streams ∧ b.listener.entries = a.listener.entries ∧
      b.calling = a.calling ∧
      ∀ c, Reach (Activations.step L cfg) b c → (c.listener.peers i).peer.closed = true ∨
        ∃ d, Activations.step L cfg c (.listener (.refuse i)) = some d ∧
          (d.listener.peers i).peer.closed = true) ∧
    (∀ e, a.called.count e + a.calling.count e = if e < a.listener.entryCount then 1 else 0) := by
  have hbook : a.listener.BookkeepingInv :=
    hrun.invariant (I := fun a => a.listener.BookkeepingInv)
      (fun hi _ ht => Activations.step_lifts Listener.BookkeepingInv
        (fun h ht => h.step ht) hi ht)
      Listener.BookkeepingInv.initial
  have hhandshake : a.listener.HandshakeInv L cfg :=
    hrun.invariant (I := fun a => a.listener.HandshakeInv L cfg)
      (fun hi _ ht => Activations.step_lifts (Listener.HandshakeInv L cfg)
        (fun h ht => h.step ht) hi ht)
      Listener.HandshakeInv.initial
  have honce : a.CalledOnce :=
    hrun.invariant (fun hi _ ht => hi.step ht) fun e => by simp
  refine ⟨hbook.agree, fun i j e hi hj => ?_, fun i stopped e b hstream hpeer ht => ?_, honce⟩
  · have hfirst := (hbook.bound i e (by rw [hi]; rfl)).2
    have hsecond := (hbook.bound j e (by rw [hj]; rfl)).2
    exact Option.some.inj (hfirst.symm.trans hsecond)
  · obtain ⟨hstep, hcalled, hcalling⟩ := Activations.step_listener ht
    obtain ⟨hp, hb⟩ := Listener.activate_attached hstream hpeer hstep
    have hlt : i < a.listener.peerCount := hhandshake.lt_of_point (by rw [hp]; nofun)
    have hrefused : Activations.Refused b.listener i := by
      rw [hb]
      exact ⟨hlt, .inl (by simp [Listener.setPeer])⟩
    refine ⟨by rw [hb]; rfl, by rw [hb]; rfl, ?_, fun c hreach => ?_⟩
    · rw [hcalling, Activations.toCall]
      simp [Listener.isNew, hstream]
    · have hc : Activations.Refused c.listener i :=
        hreach.invariant (I := fun a => Activations.Refused a.listener i)
          (fun hi ht => Activations.step_lifts (fun l => Activations.Refused l i)
            (fun h ht => h.step ht) hi ht) hrefused
      exact hc.closes

theorem reconnect_bookkeeping_example : ∃ es a b,
    Run (Activations.step trustingLibp2p exampleListener) Any {} es a ∧
    a.listener.streams (ascii "client") = some 0 ∧ a.called = [0] ∧
    (a.listener.entries 0).peer = some 0 ∧ (a.listener.entries 0).link.peer = some 0 ∧
    Activations.step trustingLibp2p exampleListener a (.listener (.activate 1 false)) = some b ∧
    ((b.listener.peers 1).peer.closed = true ∨
      ∃ d, Activations.step trustingLibp2p exampleListener b (.listener (.refuse 1)) = some d ∧
        (d.listener.peers 1).peer.closed = true) := by
  have hrun := run_exec (Activations.step trustingLibp2p exampleListener) Any {}
    ((listenerHandshake 0).map .listener ++
      [.listener (.activate 0 false), .onStream 0] ++ (listenerHandshake 1).map .listener) (by decide)
  obtain ⟨hagree, _, hsecond, _⟩ := reconnect_bookkeeping trustingLibp2p exampleListener hrun
  refine ⟨_, _, _, hrun, by decide, by decide, by decide, ?_, (Option.some_get ?_).symm, ?_⟩
  · rw [← hagree (ascii "client") 0 (by decide)]
    decide
  · decide
  · exact (hsecond 1 false 0 _ (by decide) (by decide) (Option.some_get _).symm).2.2.2 _ (.refl _)

end P2PNetcat.NativeWebRTC
