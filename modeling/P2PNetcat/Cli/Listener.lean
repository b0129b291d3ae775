import P2PNetcat.Cli.Options
import P2PNetcat.Library.Registry
import P2PNetcat.Library.StepSystem
import P2PNetcat.Protocol.Admission

/-!
# The streams of a listener

`runListener` hands every incoming stream, libp2p or native, to one
`handleStream`. The flag `accepted` is taken under a mutex at two places: when
the stream arrives if there is no token, and after the admission if there is one.
-/

namespace P2PNetcat.Cli
open List Function StepSystem Pairing Admission

structure ListenerConfig (L : Libraries) where
  opts : Options
  token : Option (Token L)
  service : UInt16

def ListenerConfig.persistent {L : Libraries} (cfg : ListenerConfig L) : Bool :=
  cfg.opts.keepOpen || cfg.opts.interactive || cfg.opts.socks || cfg.opts.port ≠ 0

inductive Handling where
  /-- In `AuthenticateServer`. -/
  | authenticating
  /-- Admitted, before the lock. -/
  | admitted
  /-- On its way to `runServerSession`. -/
  | claimed
  | session
  | returned
  deriving DecidableEq

/-- How far the goroutine is. -/
def Handling.rank : Handling → Nat
  | .authenticating => 0
  | .admitted => 1
  | .claimed => 2
  | .session => 3
  | .returned => 4

structure Arrival where
  remote : String
  incoming : Incoming
  handling : Handling
  reset : Bool := false

structure ListenerState where
  accepted : Bool := false
  streams : Registry Arrival := .empty
  /-- The calls of `runServerSession`, the latest first. -/
  calls : List Nat := []
  /-- The channel `result`, of capacity one. -/
  result : Option (Option String) := none
  returned : Option (Option String) := none
  diagnostics : List String := []

inductive ListenerEvent where
  | arrive (remote : String) (incoming : Incoming)
  | authenticate (id : Nat)
  | claim (id : Nat)
  | runServerSession (id : Nat)
  | sessionEnd (id : Nat) (err : Option String)
  | ctxDone
  | receiveResult

section Step
variable {L : Libraries} (cfg : ListenerConfig L)

namespace ListenerState

def diagnostic (s : ListenerState) (text : String) : ListenerState :=
  if cfg.opts.quiet then s else { s with diagnostics := ("[p2p-nc] " ++ text) :: s.diagnostics }

def set (s : ListenerState) (id : Nat) (a : Arrival) : ListenerState :=
  { s with streams := s.streams.modify id fun _ => a }

/-- `handleStream` up to the `go` statement. -/
def arrive (s : ListenerState) (remote : String) (incoming : Incoming) : ListenerState :=
  if s.accepted = true ∧ cfg.persistent = false ∧ cfg.token.isNone = true then
    { s with streams := s.streams.add ⟨remote, incoming, .returned, true⟩ }
  else if cfg.token.isNone = true then
    { s with accepted := true, streams := s.streams.add ⟨remote, incoming, .claimed, false⟩ }
  else { s with streams := s.streams.add ⟨remote, incoming, .authenticating, false⟩ }

def authenticate (s : ListenerState) (id : Nat) (a : Arrival) (token : Token L) : ListenerState :=
  match authenticateServer token a.incoming with
  | .error err =>
    (s.set id { a with handling := .returned, reset := true }).diagnostic cfg
      ("pairing-token authentication: " ++ err)
  | .ok () => s.set id { a with handling := .admitted }

def claim (s : ListenerState) (id : Nat) (a : Arrival) : ListenerState :=
  if s.accepted = true ∧ cfg.persistent = false then
    s.set id { a with handling := .returned, reset := true }
  else { s.set id { a with handling := .claimed } with accepted := true }

def runServerSession (s : ListenerState) (id : Nat) (a : Arrival) : ListenerState :=
  let s := s.diagnostic cfg
    ("peer " ++ a.remote ++ " connected to logical port " ++ toString cfg.service.toNat)
  { s.set id { a with handling := .session } with calls := id :: s.calls }

def report (s : ListenerState) (sessionErr : Option String) : ListenerState :=
  if cfg.persistent = true then
    match sessionErr with
    | some err => s.diagnostic cfg ("session ended with an error: " ++ err)
    | none => s
  else if s.result = none then { s with result := some sessionErr }
  else s

def sessionEnd (s : ListenerState) (id : Nat) (a : Arrival) (sessionErr : Option String) :
    ListenerState :=
  (s.set id { a with handling := .returned }).report cfg sessionErr

def atHandling (s : ListenerState) (id : Nat) (handling : Handling)
    (next : Arrival → ListenerState) : Option ListenerState :=
  match s.streams.live id with
  | none => none
  | some a => if a.handling = handling then some (next a) else none

def step (s : ListenerState) : ListenerEvent → Option ListenerState
  | .arrive remote incoming => some (s.arrive cfg remote incoming)
  | .authenticate id =>
    match cfg.token with
    | none => none
    | some token => s.atHandling id .authenticating fun a => s.authenticate cfg id a token
  | .claim id => s.atHandling id .admitted fun a => s.claim cfg id a
  | .runServerSession id => s.atHandling id .claimed fun a => s.runServerSession cfg id a
  | .sessionEnd id err => s.atHandling id .session fun a => s.sessionEnd cfg id a err
  | .ctxDone => if s.returned = none then some { s with returned := some none } else none
  | .receiveResult =>
    if cfg.persistent = false ∧ s.returned = none then
      s.result.map fun err => { s with result := none, returned := some err }
    else none

end ListenerState

def Arrival.Admitted (a : Arrival) : Prop :=
  ∀ token, cfg.token = some token → authenticateServer token a.incoming = .ok ()

def Arrival.Holds (a : Arrival) : Prop :=
  a.reset = false ∧ (a.handling = .claimed ∨ a.handling = .session ∨ a.handling = .returned)

def Arrival.Good (called : Prop) (a : Arrival) : Prop :=
  match a.handling with
  | .authenticating => cfg.token ≠ none ∧ a.reset = false ∧ ¬ called
  | .admitted | .claimed => a.reset = false ∧ ¬ called ∧ a.Admitted cfg
  | .session => a.reset = false ∧ called ∧ a.Admitted cfg
  | .returned => (a.reset = true ∧ ¬ called) ∨ (a.reset = false ∧ called ∧ a.Admitted cfg)

namespace ListenerState
variable {a : Arrival} {other : Nat}

structure Sound (s : ListenerState) : Prop where
  good : ∀ id a, s.streams.live id = some a → a.Good cfg (id ∈ s.calls)
  live : ∀ id ∈ s.calls, ∃ a, s.streams.live id = some a
  nodup : s.calls.Nodup
  slot : cfg.persistent = false →
    (s.accepted = true ↔ ∃ id a, s.streams.live id = some a ∧ a.Holds)
  unique : cfg.persistent = false → ∀ id id' a a', s.streams.live id = some a → a.Holds →
    s.streams.live id' = some a' → a'.Holds → id = id'

/-- A step of one stream: what it was before, what it is now, and what it did to the flag. -/
structure Moved (s t : ListenerState) (id : Nat) (a' : Arrival) : Prop where
  live : t.streams.live = update s.streams.live id (some a')
  calls : t.calls = s.calls ∨ (t.calls = id :: s.calls ∧ id ∉ s.calls)
  good : a'.Good cfg (id ∈ t.calls)
  slot : cfg.persistent = false →
    (a'.Holds ∧ s.accepted = false ∧ t.accepted = true) ∨
    (t.accepted = s.accepted ∧ (a'.Holds ↔ ∃ a, s.streams.live id = some a ∧ a.Holds))

variable {cfg} {s t : ListenerState} {id : Nat} {a' : Arrival}

theorem Moved.live_iff (h : Moved cfg s t id a') {b : Arrival} :
    t.streams.live other = some b ↔
      (other = id ∧ b = a') ∨ (other ≠ id ∧ s.streams.live other = some b) := by
  rw [h.live, update_apply]
  split
  next heq =>
    simp [heq, eq_comm]
  next hne =>
    simp [hne]

theorem Moved.mem_calls (h : Moved cfg s t id a') (hne : other ≠ id) :
    other ∈ t.calls ↔ other ∈ s.calls := by
  rcases h.calls with heq | ⟨heq, -⟩
  · rw [heq]
  · rw [heq, mem_cons]
    exact or_iff_right hne

theorem Moved.holds_iff (h : Moved cfg s t id a') (hne : other ≠ id) :
    (∃ b, t.streams.live other = some b ∧ b.Holds) ↔
      ∃ b, s.streams.live other = some b ∧ b.Holds := by
  constructor
  · rintro ⟨b, hb, hholds⟩
    rcases h.live_iff.mp hb with ⟨heq, -⟩ | ⟨-, hb⟩
    · exact absurd heq hne
    · exact ⟨b, hb, hholds⟩
  · rintro ⟨b, hb, hholds⟩
    exact ⟨b, h.live_iff.mpr (.inr ⟨hne, hb⟩), hholds⟩

theorem Sound.moved (hs : Sound cfg s) (h : Moved cfg s t id a') : Sound cfg t where
  good := by
    intro other b hb
    rcases h.live_iff.mp hb with ⟨rfl, rfl⟩ | ⟨hne, hb⟩
    · exact h.good
    · rw [h.mem_calls hne]
      exact hs.good other b hb
  live := by
    intro other hother
    by_cases hid : other = id
    · exact ⟨a', h.live_iff.mpr (.inl ⟨hid, rfl⟩)⟩
    · obtain ⟨b, hb⟩ := hs.live other ((h.mem_calls hid).mp hother)
      exact ⟨b, h.live_iff.mpr (.inr ⟨hid, hb⟩)⟩
  nodup := by
    rcases h.calls with heq | ⟨heq, hnew⟩
    · rw [heq]
      exact hs.nodup
    · rw [heq]
      exact nodup_cons.mpr ⟨hnew, hs.nodup⟩
  slot := by
    intro hp
    rcases h.slot hp with ⟨hholds, -, haccepted⟩ | ⟨hsame, hiff⟩
    · exact ⟨fun _ => ⟨id, a', h.live_iff.mpr (.inl ⟨rfl, rfl⟩), hholds⟩, fun _ => haccepted⟩
    rw [hsame, hs.slot hp]
    constructor
    · rintro ⟨other, b, hb, hholds⟩
      by_cases hid : other = id
      · subst hid
        exact ⟨other, a', h.live_iff.mpr (.inl ⟨rfl, rfl⟩), hiff.mpr ⟨b, hb, hholds⟩⟩
      · exact ⟨other, (h.holds_iff hid).mpr ⟨b, hb, hholds⟩⟩
    · rintro ⟨other, b, hb, hholds⟩
      rcases h.live_iff.mp hb with ⟨rfl, rfl⟩ | ⟨hne, hb⟩
      · obtain ⟨a, ha, hold⟩ := hiff.mp hholds
        exact ⟨other, a, ha, hold⟩
      · exact ⟨other, b, hb, hholds⟩
  unique := by
    intro hp i j b c hb hbh hc hch
    -- a stream that holds the flag now held it before, or nobody did
    have hbefore : ∀ {k d}, t.streams.live k = some d → d.Holds → k ≠ id →
        ∃ d, s.streams.live k = some d ∧ d.Holds := fun hd hdh hne =>
      (h.holds_iff hne).mp ⟨_, hd, hdh⟩
    have hnew : ∀ {k d}, t.streams.live k = some d → d.Holds → k ≠ id → ∀ {e},
        t.streams.live id = some e → e.Holds → False := by
      intro k d hd hdh hne e he heh
      obtain ⟨d', hd', hdh'⟩ := hbefore hd hdh hne
      obtain rfl : e = a' := by
        rcases h.live_iff.mp he with ⟨-, heq⟩ | ⟨hneq, -⟩
        · exact heq
        · exact absurd rfl hneq
      rcases h.slot hp with ⟨-, hfree, -⟩ | ⟨-, hiff⟩
      · cases hfree.symm.trans ((hs.slot hp).mpr ⟨k, d', hd', hdh'⟩)
      · obtain ⟨a, ha, hah⟩ := hiff.mp heh
        exact hne (hs.unique hp k id d' a hd' hdh' ha hah)
    by_cases hi : i = id
    · by_cases hj : j = id
      · rw [hi, hj]
      · subst hi
        exact (hnew hc hch hj hb hbh).elim
    · by_cases hj : j = id
      · subst hj
        exact (hnew hb hbh hi hc hch).elim
      · obtain ⟨b', hb', hbh'⟩ := hbefore hb hbh hi
        obtain ⟨c', hc', hch'⟩ := hbefore hc hch hj
        exact hs.unique hp i j b' c' hb' hbh' hc' hch'

theorem Sound.initial : Sound cfg {} where
  good := fun _ _ h => nomatch h
  live := fun _ h => nomatch h
  nodup := nodup_nil
  slot := fun _ => ⟨nofun, fun ⟨_, _, h, _⟩ => nomatch h⟩
  unique := fun _ _ _ _ _ h => nomatch h

theorem Sound.diagnostic (hs : Sound cfg s) (text : String) : Sound cfg (s.diagnostic cfg text) := by
  rw [ListenerState.diagnostic]
  split
  · exact hs
  · exact ⟨hs.good, hs.live, hs.nodup, hs.slot, hs.unique⟩

theorem Sound.report (hs : Sound cfg s) (sessionErr : Option String) :
    Sound cfg (s.report cfg sessionErr) := by
  rw [ListenerState.report.eq_def]
  split
  · split
    · exact hs.diagnostic _
    · exact hs
  · split
    · exact ⟨hs.good, hs.live, hs.nodup, hs.slot, hs.unique⟩
    · exact hs

theorem streams_diagnostic (s : ListenerState) (text : String) :
    (s.diagnostic cfg text).streams = s.streams := by
  rw [diagnostic]
  split <;> rfl

theorem live_set (hlive : s.streams.live id = some a) :
    (s.set id a').streams.live = update s.streams.live id (some a') := by
  funext other
  simp only [set, Registry.live_modify, hlive, Option.map_some, update_apply]

theorem atHandling_eq_some {handling : Handling} {next : Arrival → ListenerState} :
    s.atHandling id handling next = some t ↔
      ∃ a, s.streams.live id = some a ∧ a.handling = handling ∧ next a = t := by
  rw [atHandling]
  cases s.streams.live id with
  | none | some a => simp

theorem Arrival.not_holds (h : a.reset = true ∨
    a.handling = .authenticating ∨ a.handling = .admitted) : ¬ a.Holds := by
  rintro ⟨hreset, hhandling⟩
  rcases h with h | h | h
  · cases h.symm.trans hreset
  · rw [h] at hhandling
    rcases hhandling with h | h | h <;> cases h
  · rw [h] at hhandling
    rcases hhandling with h | h | h <;> cases h

theorem Sound.not_mem_next (hs : Sound cfg s) : s.streams.next ∉ s.calls := by
  intro hmem
  obtain ⟨a, ha⟩ := hs.live _ hmem
  exact absurd (Registry.lt_next ha) (Nat.lt_irrefl _)

theorem Sound.arrive (hs : Sound cfg s) (remote : String) (incoming : Incoming) :
    Sound cfg (s.arrive cfg remote incoming) := by
  have hnew := hs.not_mem_next
  have hnone : ¬ ∃ a, s.streams.live s.streams.next = some a ∧ a.Holds := by
    rintro ⟨a, ha, -⟩
    cases ha.symm.trans s.streams.live_next
  rw [ListenerState.arrive]
  split
  · refine hs.moved ⟨rfl, .inl rfl, .inl ⟨rfl, hnew⟩, fun _ => .inr ⟨rfl, ?_⟩⟩
    exact iff_of_false (Arrival.not_holds (.inl rfl)) hnone
  rename_i hopen
  split
  next htoken =>
    refine hs.moved ⟨rfl, .inl rfl, ⟨rfl, hnew, ?_⟩, fun hp => .inl ⟨⟨rfl, .inl rfl⟩, ?_, rfl⟩⟩
    · intro token hsome
      rw [hsome] at htoken
      cases htoken
    · exact Bool.eq_false_iff.mpr fun haccepted => hopen ⟨haccepted, hp, htoken⟩
  next htoken =>
    refine hs.moved ⟨rfl, .inl rfl, ⟨?_, rfl, hnew⟩, fun _ => .inr ⟨rfl, ?_⟩⟩
    · intro heq
      exact htoken (by rw [heq]; rfl)
    · exact iff_of_false (Arrival.not_holds (.inr (.inl rfl))) hnone

section Handled
variable {a : Arrival}

variable (hs : Sound cfg s)
include hs

theorem Sound.authenticate (hlive : s.streams.live id = some a)
    (hat : a.handling = .authenticating) {token : Token L} (htoken : cfg.token = some token) :
    Sound cfg (s.authenticate cfg id a token) := by
  have hgood := hs.good id a hlive
  rw [Arrival.Good, hat] at hgood
  obtain ⟨-, hreset, hcalled⟩ := hgood
  have hbefore : ¬ ∃ a, s.streams.live id = some a ∧ a.Holds := by
    rintro ⟨b, hb, hholds⟩
    obtain rfl := Option.some.inj (hlive.symm.trans hb)
    exact Arrival.not_holds (.inr (.inl hat)) hholds
  rw [ListenerState.authenticate]
  split
  next err _ =>
    have hset : Sound cfg (s.set id { a with handling := .returned, reset := true }) := by
      refine hs.moved ⟨live_set hlive, .inl rfl, .inl ⟨rfl, hcalled⟩, fun _ => .inr ⟨rfl, ?_⟩⟩
      exact iff_of_false (Arrival.not_holds (.inl rfl)) hbefore
    exact hset.diagnostic _
  next hok =>
    refine hs.moved ⟨live_set hlive, .inl rfl, ⟨hreset, hcalled, ?_⟩, fun _ => .inr ⟨rfl, ?_⟩⟩
    · intro other hother
      obtain rfl := Option.some.inj (htoken.symm.trans hother)
      exact hok
    · exact iff_of_false (Arrival.not_holds (.inr (.inr rfl))) hbefore

theorem Sound.claim (hlive : s.streams.live id = some a)
    (hat : a.handling = .admitted) : Sound cfg (s.claim cfg id a) := by
  have hgood := hs.good id a hlive
  rw [Arrival.Good, hat] at hgood
  obtain ⟨hreset, hcalled, hadmitted⟩ := hgood
  have hbefore : ¬ ∃ a, s.streams.live id = some a ∧ a.Holds := by
    rintro ⟨b, hb, hholds⟩
    obtain rfl := Option.some.inj (hlive.symm.trans hb)
    exact Arrival.not_holds (.inr (.inr hat)) hholds
  rw [ListenerState.claim]
  split
  · refine hs.moved ⟨live_set hlive, .inl rfl, .inl ⟨rfl, hcalled⟩, fun _ => .inr ⟨rfl, ?_⟩⟩
    exact iff_of_false (Arrival.not_holds (.inl rfl)) hbefore
  rename_i hfree
  refine hs.moved ⟨live_set hlive, .inl rfl, ⟨hreset, hcalled, hadmitted⟩, fun hp =>
    .inl ⟨⟨hreset, .inl rfl⟩, ?_, rfl⟩⟩
  exact Bool.eq_false_iff.mpr fun haccepted => hfree ⟨haccepted, hp⟩

theorem Sound.runServerSession (hlive : s.streams.live id = some a)
    (hat : a.handling = .claimed) : Sound cfg (s.runServerSession cfg id a) := by
  rw [ListenerState.runServerSession]
  have hs' := hs.diagnostic
    ("peer " ++ a.remote ++ " connected to logical port " ++ toString cfg.service.toNat)
  rw [← streams_diagnostic (L := L) s
    ("peer " ++ a.remote ++ " connected to logical port " ++ toString cfg.service.toNat)] at hlive
  have hgood := hs'.good id a hlive
  rw [Arrival.Good, hat] at hgood
  obtain ⟨hreset, hcalled, hadmitted⟩ := hgood
  refine hs'.moved ⟨live_set hlive, .inr ⟨rfl, hcalled⟩, ⟨hreset, mem_cons_self, hadmitted⟩,
    fun _ => .inr ⟨rfl, ?_⟩⟩
  exact iff_of_true ⟨hreset, .inr (.inl rfl)⟩ ⟨a, hlive, hreset, .inl hat⟩

theorem Sound.sessionEnd (hlive : s.streams.live id = some a)
    (hat : a.handling = .session) (err : Option String) :
    Sound cfg (s.sessionEnd cfg id a err) := by
  have hgood := hs.good id a hlive
  rw [Arrival.Good, hat] at hgood
  obtain ⟨hreset, hcalled, hadmitted⟩ := hgood
  have hset : Sound cfg (s.set id { a with handling := .returned }) := by
    refine hs.moved ⟨live_set hlive, .inl rfl, .inr ⟨hreset, hcalled, hadmitted⟩, fun _ =>
      .inr ⟨rfl, ?_⟩⟩
    exact iff_of_true ⟨hreset, .inr (.inr rfl)⟩ ⟨a, hlive, hreset, .inr (.inl hat)⟩
  exact hset.report err

end Handled

theorem Sound.step (hs : Sound cfg s) {e : ListenerEvent} (hstep : s.step cfg e = some t) :
    Sound cfg t := by
  cases e with
  | arrive remote incoming =>
    cases hstep
    exact hs.arrive remote incoming
  | authenticate id =>
    rw [ListenerState.step] at hstep
    split at hstep
    · cases hstep
    rename_i token htoken
    obtain ⟨a, hlive, hat, rfl⟩ := atHandling_eq_some.mp hstep
    exact hs.authenticate hlive hat htoken
  | claim id =>
    obtain ⟨a, hlive, hat, rfl⟩ := atHandling_eq_some.mp hstep
    exact hs.claim hlive hat
  | runServerSession id =>
    obtain ⟨a, hlive, hat, rfl⟩ := atHandling_eq_some.mp hstep
    exact hs.runServerSession hlive hat
  | sessionEnd id err =>
    obtain ⟨a, hlive, hat, rfl⟩ := atHandling_eq_some.mp hstep
    exact hs.sessionEnd hlive hat err
  | ctxDone =>
    obtain ⟨-, rfl⟩ := guard_eq_some.mp hstep
    exact ⟨hs.good, hs.live, hs.nodup, hs.slot, hs.unique⟩
  | receiveResult =>
    obtain ⟨-, hstep⟩ := Option.ite_none_right_eq_some.mp hstep
    obtain ⟨err, -, rfl⟩ := Option.map_eq_some_iff.mp hstep
    exact ⟨hs.good, hs.live, hs.nodup, hs.slot, hs.unique⟩

theorem Sound.called (hs : Sound cfg s) (hcalled : id ∈ s.calls) :
    ∃ a, s.streams.live id = some a ∧ a.Holds ∧ a.Admitted cfg := by
  obtain ⟨a, hlive⟩ := hs.live id hcalled
  have hgood := hs.good id a hlive
  refine ⟨a, hlive, ?_⟩
  rw [Arrival.Good] at hgood
  split at hgood
  · exact absurd hcalled hgood.2.2
  · exact absurd hcalled hgood.2.1
  · exact absurd hcalled hgood.2.1
  next hat =>
    exact ⟨⟨hgood.1, .inr (.inl hat)⟩, hgood.2.2⟩
  next hat =>
    rcases hgood with ⟨-, hnot⟩ | ⟨hreset, -, hadmitted⟩
    · exact absurd hcalled hnot
    · exact ⟨⟨hreset, .inr (.inr hat)⟩, hadmitted⟩

theorem Sound.holder (hs : Sound cfg s) (hlive : s.streams.live id = some a)
    (hholds : a.Holds) : a.Admitted cfg := by
  have hgood := hs.good id a hlive
  rw [Arrival.Good] at hgood
  obtain ⟨hreset, hat | hat | hat⟩ := hholds
  · rw [hat] at hgood
    exact hgood.2.2
  · rw [hat] at hgood
    exact hgood.2.2
  · rw [hat] at hgood
    rcases hgood with ⟨hset, -⟩ | ⟨-, -, hadmitted⟩
    · cases hset.symm.trans hreset
    · exact hadmitted

theorem Sound.calls_length (hs : Sound cfg s) (hp : cfg.persistent = false) :
    s.calls.length ≤ 1 := by
  have hsame : ∀ x ∈ s.calls, ∀ y ∈ s.calls, x = y := by
    intro x hx y hy
    obtain ⟨a, hlive, hholds, -⟩ := hs.called hx
    obtain ⟨b, hlive', hholds', -⟩ := hs.called hy
    exact hs.unique hp x y a b hlive hholds hlive' hholds'
  have hnodup := hs.nodup
  rcases hcalls : s.calls with _ | ⟨x, _ | ⟨y, rest⟩⟩
  · exact Nat.zero_le _
  · exact Nat.le_refl _
  · rw [hcalls] at hsame hnodup
    have hxy := hsame x mem_cons_self y (mem_cons_of_mem _ mem_cons_self)
    exact absurd (hxy ▸ mem_cons_self) (nodup_cons.mp hnodup).1

def nextOf (id : Nat) : Handling → Option ListenerEvent
  | .authenticating => some (.authenticate id)
  | .admitted => some (.claim id)
  | .claimed => some (.runServerSession id)
  | .session => some (.sessionEnd id none)
  | .returned => none

theorem live_set_self (hlive : s.streams.live id = some a) :
    (s.set id a').streams.live id = some a' :=
  (congrFun (live_set hlive) id).trans (update_self ..)

theorem streams_report (s : ListenerState) (sessionErr : Option String) :
    (s.report cfg sessionErr).streams = s.streams := by
  rw [report.eq_def]
  split
  · split
    · exact streams_diagnostic s _
    · rfl
  · split <;> rfl

theorem live_authenticate (hlive : s.streams.live id = some a) (token : Token L) :
    ((∃ err, authenticateServer token a.incoming = .error err) →
      (s.authenticate cfg id a token).streams.live id =
        some { a with handling := .returned, reset := true }) ∧
    (authenticateServer token a.incoming = .ok () →
      (s.authenticate cfg id a token).streams.live id = some { a with handling := .admitted }) := by
  rw [authenticate]
  refine ⟨?_, fun hok => ?_⟩
  · rintro ⟨err, herr⟩
    rw [herr, streams_diagnostic]
    exact live_set_self hlive
  · rw [hok]
    exact live_set_self hlive

theorem live_claim (hlive : s.streams.live id = some a) :
    (s.claim cfg id a).streams.live id = some
      (if s.accepted = true ∧ cfg.persistent = false then
        { a with handling := .returned, reset := true }
      else { a with handling := .claimed }) := by
  rw [claim]
  split
  · exact live_set_self hlive
  · exact live_set_self hlive

theorem Sound.advances (hs : Sound cfg s) (hlive : s.streams.live id = some a)
    (hat : a.handling ≠ .returned) : ∃ e t b, nextOf id a.handling = some e ∧
      s.step cfg e = some t ∧ t.streams.live id = some b ∧ a.handling.rank < b.handling.rank := by
  have hgood := hs.good id a hlive
  rw [Arrival.Good] at hgood
  cases h : a.handling with
  | authenticating =>
    rw [h] at hgood
    obtain ⟨token, htoken⟩ := Option.ne_none_iff_exists'.mp hgood.1
    have hstep : s.step cfg (.authenticate id) = some (s.authenticate cfg id a token) := by
      simp only [ListenerState.step, htoken, atHandling, hlive, h, if_true]
    obtain ⟨herror, hok⟩ := live_authenticate hlive token
    cases hresult : authenticateServer token a.incoming with
    | error err => exact ⟨_, _, _, rfl, hstep, herror ⟨err, hresult⟩, Nat.le_of_ble_eq_true rfl⟩
    | ok => exact ⟨_, _, _, rfl, hstep, hok hresult, Nat.le_of_ble_eq_true rfl⟩
  | admitted =>
    refine ⟨_, _, _, rfl, atHandling_eq_some.mpr ⟨a, hlive, h, rfl⟩, live_claim hlive, ?_⟩
    split <;> exact Nat.le_of_ble_eq_true rfl
  | claimed =>
    refine ⟨_, _, { a with handling := .session }, rfl,
      atHandling_eq_some.mpr ⟨a, hlive, h, rfl⟩, live_set_self (a := a) ?_, Nat.le_of_ble_eq_true rfl⟩
    rwa [streams_diagnostic]
  | session =>
    refine ⟨_, _, { a with handling := .returned }, rfl,
      atHandling_eq_some.mpr ⟨a, hlive, h, rfl⟩, ?_, Nat.le_of_ble_eq_true rfl⟩
    rw [ListenerState.sessionEnd, streams_report]
    exact live_set_self hlive
  | returned => exact absurd h hat

/-- In every run of a listener: one that is not persistent starts at most one session; with a token
only admitted streams get one; the flag is set exactly if an admitted stream has taken it; a stream
whose admission fails, or that finds the flag taken, is reset, and otherwise it goes on; and a
stream whose goroutine is over without a session was reset, while every other one can make its
next step, which brings it further. -/
theorem listener_admission {es : List ListenerEvent} (hrun : Run (step cfg) Any {} es s) :
    (cfg.persistent = false → s.calls.length ≤ 1) ∧
    (∀ token, cfg.token = some token → ∀ id ∈ s.calls, ∃ a, s.streams.live id = some a ∧
      authenticateServer token a.incoming = .ok ()) ∧
    (cfg.persistent = false → (s.accepted = true ↔
      ∃ id a, s.streams.live id = some a ∧ a.Holds ∧ a.Admitted cfg)) ∧
    (∀ token id a, cfg.token = some token → s.streams.live id = some a →
      a.handling = .authenticating → ∃ t, s.step cfg (.authenticate id) = some t ∧
        ((∃ err, authenticateServer token a.incoming = .error err) →
          t.streams.live id = some { a with handling := .returned, reset := true }) ∧
        (authenticateServer token a.incoming = .ok () →
          t.streams.live id = some { a with handling := .admitted })) ∧
    (∀ id a, s.streams.live id = some a → a.handling = .admitted →
      ∃ t, s.step cfg (.claim id) = some t ∧ t.streams.live id = some
        (if s.accepted = true ∧ cfg.persistent = false then
          { a with handling := .returned, reset := true }
        else { a with handling := .claimed })) ∧
    (∀ id a, s.streams.live id = some a → a.handling = .returned →
      id ∈ s.calls ∨ a.reset = true) ∧
    (∀ id a, s.streams.live id = some a → a.handling ≠ .returned →
      ∃ e t b, nextOf id a.handling = some e ∧ s.step cfg e = some t ∧
        t.streams.live id = some b ∧ a.handling.rank < b.handling.rank) := by
  have hs : Sound cfg s := hrun.invariant (fun h _ hstep => h.step hstep) .initial
  refine ⟨hs.calls_length, ?_, ?_, ?_, ?_, ?_, fun id a => hs.advances⟩
  · intro token htoken id hcalled
    obtain ⟨a, hlive, -, hadmitted⟩ := hs.called hcalled
    exact ⟨a, hlive, hadmitted token htoken⟩
  · intro hp
    rw [hs.slot hp]
    constructor
    · rintro ⟨id, a, hlive, hholds⟩
      exact ⟨id, a, hlive, hholds, hs.holder hlive hholds⟩
    · rintro ⟨id, a, hlive, hholds, -⟩
      exact ⟨id, a, hlive, hholds⟩
  · intro token id a htoken hlive hat
    refine ⟨s.authenticate cfg id a token, ?_, live_authenticate hlive token⟩
    simp only [ListenerState.step, htoken, atHandling, hlive, hat, if_true]
  · intro id a hlive hat
    exact ⟨_, atHandling_eq_some.mpr ⟨a, hlive, hat, rfl⟩, live_claim hlive⟩
  · intro id a hlive hat
    have hgood := hs.good id a hlive
    rw [Arrival.Good, hat] at hgood
    rcases hgood with ⟨hreset, -⟩ | ⟨-, hcalled, -⟩
    · exact .inr hreset
    · exact .inl hcalled

section Example

def silentStream : Incoming := ⟨.error "EOF", zeroTime, .error "", .ok ()⟩

def privateListener : ListenerConfig plainLibraries := ⟨{ listen := true }, some (.forRelays []), 8080⟩

/-- Three peers of a listener with a token and without `-k`: the first sends nothing and is reset,
the second gets the session, and the third is admitted too late. -/
theorem listener_admission_example : ∃ x s, authenticateServer (Token.forRelays []) x = .ok () ∧
    Run (step privateListener) Any {} [.arrive "a" silentStream, .arrive "b" x, .arrive "c" x,
      .authenticate 0, .authenticate 1, .claim 1, .runServerSession 1, .authenticate 2] s ∧
    s.calls.length ≤ 1 ∧ s.calls = [1] ∧
    s.streams.live 0 = some ⟨"a", silentStream, .returned, true⟩ ∧
    s.streams.live 1 = some ⟨"b", x, .session, false⟩ ∧
    ∃ t, s.step privateListener (.claim 2) = some t ∧
      t.streams.live 2 = some ⟨"c", x, .returned, true⟩ := by
  obtain ⟨x, hx⟩ := exists_admitted (sound_forRelays_nil)
  have hadmission : ∀ (s : ListenerState) id a, s.streams.live id = some a → a.incoming = x →
      a.handling = .authenticating →
      s.step privateListener (.authenticate id) = some (s.set id { a with handling := .admitted }) := by
    intro s id a hlive hincoming hat
    have htoken : privateListener.token = some (.forRelays []) := rfl
    simp only [ListenerState.step, htoken, atHandling, hlive, hat, if_true, authenticate,
      hincoming, hx]
  have hrun : Run (step privateListener) Any {} _ _ :=
    (run_exec (step privateListener) Any {} [.arrive "a" silentStream, .arrive "b" x,
      .arrive "c" x, .authenticate 0] rfl).append
    (.cons trivial (hadmission _ 1 _ rfl rfl rfl)
      ((run_exec (step privateListener) Any _ [.claim 1, .runServerSession 1] rfl).append
        (.single trivial (hadmission _ 2 _ rfl rfl rfl))))
  obtain ⟨hone, -, -, -, hclaim, -⟩ := listener_admission hrun
  exact ⟨x, _, hx, hrun, hone rfl, rfl, rfl, rfl, hclaim 2 _ rfl rfl⟩

end Example

end ListenerState

end Step

end P2PNetcat.Cli
