import P2PNetcat.Library.GoIo
import P2PNetcat.NativeWebRTC.Race

/-!
# The dial of a client

`openStream` gives `openAnyStream` a context with a timeout, and
`openAnyStream` races a libp2p stream against native WebRTC under a context of
its own. The signaling sessions run under contexts derived from that one.
-/

namespace P2PNetcat.Cli
open List Function StepSystem Contexts NativeWebRTC

/-- What can be cancelled: the contexts the caller's derives from, `dialCtx`, `raceCtx` and the
context of each signaling session. -/
inductive Scope where
  | caller (n : Nat)
  | dial
  | race
  | session (id : Nat)
  deriving DecidableEq

/-- The branch a stream came from; a native one is known by the attempt that won its race. -/
inductive Carrier where
  | libp2p
  | native (attempt : Nat)
  deriving DecidableEq

/-- A goroutine of the race: at work, in its `select` with an outcome, or through. -/
inductive Branch (ρ : Type) where
  | working (work : ρ)
  | offering (outcome : Except String Carrier)
  | finished

/-- Where `openStream` is: in `openLibp2p` without a race, in the loop of `openAnyStream`, in
`AuthenticateClient`, or returned. -/
inductive Phase where
  | direct
  | racing (failures : List String)
  | admitting (carrier : Carrier)
  | returned (outcome : Except String Carrier)

structure Opening where
  caller : List Nat
  expected : String
  service : Nat
  token : Bool
  enableNative : Bool
  cancelled : Scope → Bool
  /-- What `createSessions` made, each session with its context. -/
  created : List (SignalingSession × Context Scope) := []
  libp2p : Branch Unit := .working ()
  native : Branch (Option Race) := .working none
  phase : Phase

namespace Opening
variable {scope : Scope} {outcome : Except String Carrier}

def callerContext (s : Opening) : Context Scope := ⟨s.caller.map .caller⟩

def dialContext (s : Opening) : Context Scope := s.callerContext.withCancel .dial

def raceContext (s : Opening) : Context Scope := s.dialContext.withCancel .race

def cancel (s : Opening) (scope : Scope) : Opening :=
  { s with cancelled := update s.cancelled scope true }

def openStream (caller : List Nat) (ended : Nat → Bool) (expected : String) (service : Nat)
    (token enableNative : Bool) : Opening where
  caller := caller
  expected := expected
  service := service
  token := token
  enableNative := enableNative
  cancelled
    | .caller n => ended n
    | _ => false
  phase := if enableNative then .racing [] else .direct

def newSession (parent : Context Scope) (id : Nat) (name : String) :
    SignalingSession × Context Scope :=
  (⟨id, name⟩, parent.withCancel (.session id))

def createSessions (parent : Context Scope) (nostrErr torrentErr : Option String) :
    Except String (List (SignalingSession × Context Scope)) :=
  match nostrErr, torrentErr with
  | some e, some e' => .error (e ++ "\n" ++ e')
  | none, some _ => .ok [newSession parent 0 "Native Nostr"]
  | some _, none => .ok [newSession parent 1 "Native BitTorrent"]
  | none, none => .ok [newSession parent 0 "Native Nostr", newSession parent 1 "Native BitTorrent"]

inductive Event where
  | endCaller (n : Nat)
  | timeout
  | openLibp2p (failure : Option String)
  | failConnect (err : String)
  | createSessions (nostrErr torrentErr : Option String)
  | race (event : Race.Event)
  | connected
  | receiveLibp2p
  | receiveNative
  | abandonLibp2p
  | abandonNative
  | done (err : String)
  | authenticate (failure : Option String)

/-- `openStream` returns, with the deferred `cancel` of `dialCtx`. -/
def finish (s : Opening) (outcome : Except String Carrier) : Opening :=
  { s.cancel .dial with phase := .returned outcome }

/-- `openAnyStream` returns, with the deferred `cancel` of `raceCtx`, and `openStream` goes on. -/
def opened (s : Opening) (outcome : Except String Carrier) : Opening :=
  let t := if s.enableNative then s.cancel .race else s
  match outcome with
  | .error err => t.finish (.error err)
  | .ok carrier => if s.token then { t with phase := .admitting carrier } else t.finish (.ok carrier)

def receive (s : Opening) (failures : List String) : Except String Carrier → Opening
  | .ok carrier => s.opened (.ok carrier)
  | .error err =>
    let failures := failures ++ [err]
    if failures.length < 2 then { s with phase := .racing failures }
    else s.opened (.error ("\n".intercalate failures))

/-- `Close` or `Reset` of a native stream closes the signaling session of its connection. -/
def closeCarrier (s : Opening) : Carrier → Opening
  | .libp2p => s
  | .native i =>
    match s.created[i]? with
    | some made => s.cancel (.session made.1.id)
    | none => s

/-- `openLibp2p` returns, to the goroutine or to `openAnyStream` itself. -/
def openLibp2p (s : Opening) (failure : Option String) : Option Opening :=
  let outcome : Except String Carrier := match failure with
    | none => .ok .libp2p
    | some err => .error err
  match s.phase, s.enableNative, s.libp2p with
  | .direct, false, _ => some (s.opened outcome)
  | _, true, .working () => some { s with libp2p := .offering outcome }
  | _, _, _ => none

/-- `Connect` up to `ConnectWithSignalingSessions`. -/
def startRace (s : Opening) (nostrErr torrentErr : Option String) : Option Opening :=
  match s.enableNative, s.native with
  | true, .working none =>
    match createSessions s.raceContext nostrErr torrentErr with
    | .error err => some { s with native := .offering (.error err) }
    | .ok created => some { s with
        created
        native := .working (some (Race.connectWithSignalingSessions s.expected s.service
          (created.map fun made => some made.1))) }
  | _, _ => none

/-- A step of the race of the sessions; a session it closes cancels its own context. -/
def raceStep (s : Opening) (event : Race.Event) : Option Opening :=
  match s.native with
  | .working (some race) => (race.step event).map fun race => { s with
      native := .working (some race)
      cancelled := fun scope => match scope with
        | .session id => s.cancelled (.session id) || race.closedSessions id
        | _ => s.cancelled scope }
  | _ => none

def connected (s : Opening) : Option Opening :=
  match s.native with
  | .working (some race) =>
    match race.loop with
    | .returned outcome => some { s with native := .offering (outcome.map .native) }
    | _ => none
  | _ => none

def step (s : Opening) : Event → Option Opening
  | .endCaller n => some (s.cancel (.caller n))
  | .timeout => some (s.cancel .dial)
  | .openLibp2p failure => s.openLibp2p failure
  | .failConnect err =>
    match s.enableNative, s.native with
    | true, .working none => some { s with native := .offering (.error err) }
    | _, _ => none
  | .createSessions nostrErr torrentErr => s.startRace nostrErr torrentErr
  | .race event => s.raceStep event
  | .connected => s.connected
  | .receiveLibp2p =>
    match s.phase, s.libp2p with
    | .racing failures, .offering outcome =>
      some ({ s with libp2p := .finished }.receive failures outcome)
    | _, _ => none
  | .receiveNative =>
    match s.phase, s.native with
    | .racing failures, .offering outcome =>
      some ({ s with native := .finished }.receive failures outcome)
    | _, _ => none
  | .abandonLibp2p =>
    match s.libp2p with
    | .offering _ =>
      if s.raceContext.ended s.cancelled then some { s with libp2p := .finished } else none
    | _ => none
  | .abandonNative =>
    match s.native with
    | .offering outcome =>
      if s.raceContext.ended s.cancelled then
        match outcome with
        | .ok carrier => some ({ s with native := .finished }.closeCarrier carrier)
        | .error _ => some { s with native := .finished }
      else none
    | _ => none
  | .done err =>
    match s.phase with
    | .racing _ => if s.dialContext.ended s.cancelled then some (s.opened (.error err)) else none
    | _ => none
  | .authenticate failure =>
    match s.phase with
    | .admitting carrier =>
      match failure with
      | none => some (s.finish (.ok carrier))
      | some err => some ((s.closeCarrier carrier).finish (.error err))
    | _ => none

variable {s t : Opening} {c : Carrier}

/-- What a branch may offer: a native stream belongs to one of the sessions made. -/
def Carried (s : Opening) : Carrier → Prop
  | .libp2p => True
  | .native i => i < s.created.length ∧ s.enableNative = true

/-- What `openAnyStream` has returned: for a native stream `raceCtx` has been cancelled. -/
def Delivered (s : Opening) : Carrier → Prop
  | .libp2p => True
  | .native i => i < s.created.length ∧ s.cancelled .race = true

structure Inv (s : Opening) : Prop where
  scopes : ∀ made ∈ s.created, Scope.race ∈ made.2.scopes
  fresh : s.native = .working none → s.created = []
  race : ∀ race, s.native = .working (some race) →
    s.enableNative = true ∧ race.Within ∧ race.sessions.length = s.created.length
  libp2p : ∀ c, s.libp2p = .offering (.ok c) → s.Carried c
  native : ∀ c, s.native = .offering (.ok c) → s.Carried c
  admitting : ∀ c, s.phase = .admitting c → s.Delivered c
  returned : ∀ c, s.phase = .returned (.ok c) → s.Delivered c

theorem Inv.openStream (caller : List Nat) (ended : Nat → Bool) (expected : String) (service : Nat)
    (token enableNative : Bool) :
    Inv (openStream caller ended expected service token enableNative) := by
  constructor
  · exact nofun
  · intro _
    rfl
  · intro race h
    cases h
  · intro c h
    cases h
  · intro c h
    cases h
  · intro c h
    simp only [Opening.openStream] at h
    split at h <;> cases h
  · intro c h
    simp only [Opening.openStream] at h
    split at h <;> cases h

theorem Delivered.mono {cancelled : Scope → Bool} (h : s.Delivered c)
    (hmono : ∀ scope, s.cancelled scope = true → cancelled scope = true) :
    Delivered { s with cancelled } c := by
  cases c with
  | libp2p => trivial
  | native i => exact ⟨h.1, hmono _ h.2⟩

theorem Inv.mono {cancelled : Scope → Bool} (hs : Inv s)
    (hmono : ∀ scope, s.cancelled scope = true → cancelled scope = true) :
    Inv { s with cancelled } where
  scopes := hs.scopes
  fresh := hs.fresh
  race := hs.race
  libp2p := hs.libp2p
  native := hs.native
  admitting := fun c h => (hs.admitting c h).mono hmono
  returned := fun c h => (hs.returned c h).mono hmono

theorem cancelled_cancel_self : (s.cancel scope).cancelled scope = true :=
  update_self ..

theorem cancelled_cancel {other : Scope} (h : s.cancelled other = true) :
    (s.cancel scope).cancelled other = true := by
  by_cases heq : other = scope
  · subst heq
    exact cancelled_cancel_self
  · exact (update_of_ne heq ..).trans h

section
variable (hs : Inv s)
include hs

theorem Inv.cancel (scope : Scope) : Inv (s.cancel scope) :=
  hs.mono fun _ => cancelled_cancel

theorem Inv.setPhase {phase : Phase}
    (hphase : ∀ c, phase = .admitting c ∨ phase = .returned (.ok c) → s.Delivered c) :
    Inv { s with phase } where
  scopes := hs.scopes
  fresh := hs.fresh
  race := hs.race
  libp2p := hs.libp2p
  native := hs.native
  admitting := fun c h => hphase c (.inl h)
  returned := fun c h => hphase c (.inr h)

theorem Inv.finish
    (houtcome : ∀ c, outcome = .ok c → s.Delivered c) : Inv (s.finish outcome) := by
  refine (hs.cancel .dial).setPhase ?_
  intro c h
  rcases h with h | h
  · cases h
  · cases h
    exact (houtcome c rfl).mono fun _ => cancelled_cancel

theorem Inv.opened
    (houtcome : ∀ c, outcome = .ok c → s.Carried c) : Inv (s.opened outcome) := by
  have ht : Inv (if s.enableNative then s.cancel .race else s) := by
    split
    · exact hs.cancel .race
    · exact hs
  have hdelivered : ∀ c, outcome = .ok c →
      Delivered (if s.enableNative then s.cancel .race else s) c := by
    intro c hc
    cases c with
    | libp2p => trivial
    | native i =>
      obtain ⟨hlt, hnative⟩ := houtcome _ hc
      rw [if_pos hnative]
      exact ⟨hlt, cancelled_cancel_self⟩
  simp only [Opening.opened]
  cases outcome with
  | error err => exact ht.finish nofun
  | ok c =>
    simp only
    split
    · refine ht.setPhase ?_
      intro c' h
      rcases h with h | h
      · cases h
        exact hdelivered c rfl
      · cases h
    · exact ht.finish hdelivered

theorem Inv.receive {failures : List String}
    (houtcome : ∀ c, outcome = .ok c → s.Carried c) : Inv (s.receive failures outcome) := by
  cases outcome with
  | ok c => exact hs.opened houtcome
  | error err =>
    simp only [Opening.receive]
    split
    · refine hs.setPhase ?_
      intro c h
      rcases h with h | h <;> cases h
    · exact hs.opened nofun

theorem Inv.setLibp2p {libp2p : Branch Unit}
    (hoffer : ∀ c, libp2p = .offering (.ok c) → s.Carried c) : Inv { s with libp2p } where
  scopes := hs.scopes
  fresh := hs.fresh
  race := hs.race
  libp2p := hoffer
  native := hs.native
  admitting := hs.admitting
  returned := hs.returned

theorem Inv.setNative {native : Branch (Option Race)} (hfresh : native ≠ .working none)
    (hrace : ∀ race, native = .working (some race) →
      s.enableNative = true ∧ race.Within ∧ race.sessions.length = s.created.length)
    (hoffer : ∀ c, native = .offering (.ok c) → s.Carried c) : Inv { s with native } where
  scopes := hs.scopes
  fresh := fun h => absurd h hfresh
  race := hrace
  libp2p := hs.libp2p
  native := hoffer
  admitting := hs.admitting
  returned := hs.returned

theorem Inv.closeCarrier (c : Carrier) : Inv (s.closeCarrier c) := by
  cases c with
  | libp2p => exact hs
  | native i =>
    simp only [Opening.closeCarrier]
    split
    · exact hs.cancel _
    · exact hs

theorem Inv.openLibp2p {failure : Option String}
    (h : s.openLibp2p failure = some t) : Inv t := by
  have hcarried : ∀ c, (match failure with
      | none => Except.ok Carrier.libp2p
      | some err => .error err) = .ok c → s.Carried c := by
    intro c hc
    cases failure with
    | none =>
      cases hc
      trivial
    | some err => cases hc
  simp only [Opening.openLibp2p] at h
  split at h
  · cases h
    exact hs.opened hcarried
  · cases h
    refine hs.setLibp2p ?_
    intro c hc
    injection hc with hc
    exact hcarried c hc
  · cases h

end

theorem createSessions_scopes {parent : Context Scope} {nostrErr torrentErr : Option String}
    {created : List (SignalingSession × Context Scope)}
    (h : createSessions parent nostrErr torrentErr = .ok created)
    {made : SignalingSession × Context Scope} (hmem : made ∈ created)
    (hscope : scope ∈ parent.scopes) : scope ∈ made.2.scopes := by
  have hnew : ∀ id name, scope ∈ (newSession parent id name).2.scopes := by
    intro id name
    exact mem_cons_of_mem _ hscope
  simp only [createSessions] at h
  split at h <;> cases h
  · rw [mem_singleton.mp hmem]
    exact hnew ..
  · rw [mem_singleton.mp hmem]
    exact hnew ..
  · rcases mem_cons.mp hmem with rfl | hmem
    · exact hnew ..
    · rw [mem_singleton.mp hmem]
      exact hnew ..

theorem Inv.startRace {nostrErr torrentErr : Option String} (hs : Inv s)
    (h : s.startRace nostrErr torrentErr = some t) : Inv t := by
  simp only [Opening.startRace] at h
  split at h
  next henabled hnative =>
    have hnone := hs.fresh hnative
    have hdelivered : ∀ {c : Carrier} {u : Opening}, s.Delivered c →
        u.cancelled = s.cancelled → u.Delivered c := by
      intro c u hc hu
      cases c with
      | libp2p => trivial
      | native i =>
        have hlt := hc.1
        rw [hnone] at hlt
        cases hlt
    split at h
    · cases h
      exact hs.setNative nofun nofun nofun
    rename_i created hcreated
    cases h
    constructor
    · intro made hmem
      exact createSessions_scopes hcreated hmem (mem_cons_self ..)
    · intro h
      cases h
    · intro race h
      cases h
      refine ⟨henabled, Race.Within.call .., ?_⟩
      have hall : (created.map fun made => some made.1).reduceOption = created.map Prod.fst := by
        rw [reduceOption, filterMap_map]
        exact congrFun (filterMap_eq_map (f := Prod.fst)) created
      rw [Race.sessions_call, hall, length_map]
    · intro c hc
      cases c with
      | libp2p => trivial
      | native i =>
        have hlt := (hs.libp2p _ hc).1
        rw [hnone] at hlt
        cases hlt
    · intro c h
      cases h
    · intro c h
      exact hdelivered (hs.admitting c h) rfl
    · intro c h
      exact hdelivered (hs.returned c h) rfl
  · cases h

theorem Inv.raceStep {event : Race.Event} (hs : Inv s) (h : s.raceStep event = some t) :
    Inv t := by
  simp only [Opening.raceStep] at h
  split at h
  next race hnative =>
    obtain ⟨next, hnext, rfl⟩ := Option.map_eq_some_iff.mp h
    obtain ⟨henabled, hwithin, hlength⟩ := hs.race race hnative
    obtain ⟨hwithin, hsessions⟩ := hwithin.step hnext
    have hmoved : Inv { s with native := .working (some next) } := by
      refine hs.setNative nofun ?_ nofun
      intro race' heq
      cases heq
      exact ⟨henabled, hwithin, hsessions ▸ hlength⟩
    refine hmoved.mono ?_
    intro scope hscope
    cases scope with
    | session id => exact Bool.or_eq_true_iff.mpr (.inl hscope)
    | caller n | dial | race => exact hscope
  · cases h

theorem Inv.connected (hs : Inv s) (h : s.connected = some t) : Inv t := by
  simp only [Opening.connected] at h
  split at h
  next race hnative =>
    obtain ⟨henabled, hwithin, hlength⟩ := hs.race race hnative
    split at h
    next outcome hloop =>
      cases h
      refine hs.setNative nofun nofun ?_
      intro c hc
      injection hc with hc
      cases outcome with
      | error err => cases hc
      | ok w =>
        cases hc
        exact ⟨hlength ▸ hwithin.chosen w (.inr (.inr hloop)), henabled⟩
    · cases h
  · cases h

theorem Inv.step {ev : Event} (hs : Inv s) (h : s.step ev = some t) : Inv t := by
  cases ev with
  | endCaller n | timeout =>
    cases h
    exact hs.cancel _
  | openLibp2p failure => exact hs.openLibp2p h
  | failConnect err =>
    simp only [Opening.step] at h
    split at h <;> cases h
    exact hs.setNative nofun nofun nofun
  | createSessions nostrErr torrentErr => exact hs.startRace h
  | race event => exact hs.raceStep h
  | connected => exact hs.connected h
  | receiveLibp2p =>
    simp only [Opening.step] at h
    split at h <;> cases h
    rename_i failures outcome _ hoffering
    have ht : Inv { s with libp2p := .finished } := hs.setLibp2p nofun
    refine ht.receive ?_
    intro c hc
    exact hs.libp2p c (hc ▸ hoffering)
  | receiveNative =>
    simp only [Opening.step] at h
    split at h <;> cases h
    rename_i failures outcome _ hoffering
    have ht : Inv { s with native := .finished } := hs.setNative nofun nofun nofun
    refine ht.receive ?_
    intro c hc
    exact hs.native c (hc ▸ hoffering)
  | abandonLibp2p =>
    simp only [Opening.step] at h
    split at h
    · split at h <;> cases h
      exact hs.setLibp2p nofun
    · cases h
  | abandonNative =>
    have ht : Inv { s with native := .finished } := hs.setNative nofun nofun nofun
    simp only [Opening.step] at h
    split at h
    · split at h
      · split at h <;> cases h
        · exact ht.closeCarrier _
        · exact ht
      · cases h
    · cases h
  | done err =>
    simp only [Opening.step] at h
    split at h
    · split at h <;> cases h
      exact hs.opened nofun
    · cases h
  | authenticate failure =>
    simp only [Opening.step] at h
    split at h
    next carrier hphase =>
      cases failure with
      | none =>
        cases h
        refine hs.finish ?_
        intro c hc
        cases hc
        exact hs.admitting carrier hphase
      | some err =>
        cases h
        exact (hs.closeCarrier carrier).finish nofun
    · cases h

def sessionContext (s : Opening) (i : Nat) : Option (Context Scope) := s.created[i]?.map Prod.snd

/-- Nothing but the caller's own context or the closed stream has ended the session's context. -/
def SignalingSurvives (s : Opening) (i : Nat) : Prop :=
  ∀ context, s.sessionContext i = some context → ∀ scope ∈ context.scopes,
    s.cancelled scope = true → scope ∈ s.callerContext.scopes ∨ ∃ id, scope = .session id

/-- In every run in which native WebRTC wins, from the return of `openStream` on the session behind
the stream has lost its context to that return. -/
theorem signaling_cancelled_by_return {caller : List Nat} {ended : Nat → Bool} {expected : String}
    {service : Nat} {token enableNative : Bool} {es : List Event}
    (hrun : Run step Any (openStream caller ended expected service token enableNative) es s)
    {i : Nat} (hreturned : s.phase = .returned (.ok (.native i))) :
    (∃ context, s.sessionContext i = some context ∧ context.ended s.cancelled = true) ∧
    ¬ s.SignalingSurvives i := by
  have hs : Inv s := hrun.invariant (fun hi _ hst => hi.step hst) (Inv.openStream ..)
  obtain ⟨hlt, hcancelled⟩ := hs.returned _ hreturned
  have hcontext : s.sessionContext i = some (s.created[i]).2 := by
    rw [sessionContext, getElem?_eq_getElem hlt]
    rfl
  have hrace := hs.scopes _ (getElem_mem hlt)
  constructor
  · exact ⟨_, hcontext, Context.ended_of_mem hrace hcancelled⟩
  · intro hsurvives
    rcases hsurvives _ hcontext .race hrace hcancelled with h | ⟨id, h⟩
    · obtain ⟨n, _, hn⟩ := mem_map.mp h
      cases hn
    · cases h

theorem signaling_cancelled_by_return_example : ∃ es s,
    Run step Any (openStream [] (fun _ => false) "server" 80 false true) es s ∧
    s.phase = .returned (.ok (.native 0)) ∧
    (∃ context, s.sessionContext 0 = some context ∧ context.ended s.cancelled = true) ∧
    ¬ s.SignalingSurvives 0 := by
  have hrun := run_exec step Any (openStream [] (fun _ => false) "server" 80 false true)
    [.openLibp2p (some "no route"), .createSessions (some "no relay") none, .receiveLibp2p,
      .race (.dial 0 none), .race (.once 0), .race .takeWinner, .race .closeNext, .race .closeNext,
      .connected, .receiveNative] (by decide)
  refine ⟨_, _, hrun, rfl, ?_⟩
  exact signaling_cancelled_by_return hrun rfl

/-- The caller's context is alive when a stream comes back without a signaling session. -/
theorem signaling_ends_with_dial : ∃ es s,
    Run step Any (openStream [0] (fun _ => false) "server" 80 true true) es s ∧
    s.phase = .returned (.ok (.native 0)) ∧ s.callerContext.ended s.cancelled = false ∧
    (s.sessionContext 0).any (·.ended s.cancelled) = true ∧ ¬ s.SignalingSurvives 0 := by
  have hrun := run_exec step Any (openStream [0] (fun _ => false) "server" 80 true true)
    [.createSessions none none, .race (.dial 0 none), .race (.once 0), .race .takeWinner,
      .race .closeNext, .race .closeNext, .race .closeNext, .connected, .receiveNative,
      .authenticate none] (by decide)
  refine ⟨_, _, hrun, rfl, rfl, rfl, ?_⟩
  intro hsurvives
  rcases hsurvives _ rfl .race (by decide) rfl with h | ⟨id, h⟩
  · revert h
    decide
  · cases h

end Opening

end P2PNetcat.Cli
