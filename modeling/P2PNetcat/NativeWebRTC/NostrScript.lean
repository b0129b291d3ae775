import P2PNetcat.NativeWebRTC.TorrentScript

/-!
# Signaling over Nostr relays in JavaScript

Which events reach `_emit`. The same event comes from any number of relays at any
time; what is remembered of it is forgotten 120 seconds after it was recorded,
while it is taken until 120 seconds after the time that it states. Messages are
handled one after the other, each at several readings of the clock.
-/

namespace P2PNetcat.NativeWebRTC.Signaling
open List ByteCodec Fallible Json Script

variable {N : Type}

/-- What the session uses besides: the integer a number is, the text of an event that is hashed,
the hash, and the check of a signature. -/
structure NostrPlatform (N : Type) extends ScriptPlatform N where
  integer : N → Option Int
  serialize : Value N → Bytes
  digest : Bytes → Bytes
  verify : Bytes → Bytes → Bytes → Bool

def nostrEventKind : Int := 25050

structure NostrEvent (N : Type) where
  value : Value N
  id : Bytes
  content : Bytes
  createdAt : Int

def toHex (bytes : Bytes) : Bytes :=
  bytes.flatMap fun b => [byteOf (GoText.hexDigit (b.toNat / 16)), byteOf (GoText.hexDigit b.toNat)]

/-- What `JSON.parse` has made of a message, and the readings of `Date.now()`. -/
structure NostrMessage (N : Type) where
  message : Value N
  checked : Int
  seen : Int
  pruned : Int

section Receive
variable (P : NostrPlatform N) (topic : Bytes)

def fromHex (value : Option (Value N)) (byteLength : Nat) : Except String Bytes :=
  let failed := .error ("Expected " ++ toString byteLength ++ "-byte lowercase hex value")
  match asText value with
  | some text =>
    if text.length = byteLength * 2 ∧ text.all fun b =>
        (48 ≤ b.toNat ∧ b.toNat ≤ 57) ∨ (97 ≤ b.toNat ∧ b.toNat ≤ 102) then
      match (ofUtf8 text).mapM hexValue with
      | some digits => .ok ((range byteLength).map fun i =>
          UInt8.ofNat (16 * digits.getD (2 * i) 0 + digits.getD (2 * i + 1) 0))
      | none => failed
    else failed
  | none => failed

def isTopicTag : Value N → Bool
  | .array items => asText items[0]? = some (ascii "t") ∧ asText items[1]? = some topic
  | _ => false

/-- `event.tags?.some(...)`, which throws if there are tags that are not an array. -/
def hasTopicTag (tags : Option (Value N)) : Except String Bool :=
  match tags with
  | none => .ok false
  | some .null => .ok false
  | some (.array items) => .ok (items.any (isTopicTag topic))
  | some _ => .error "event.tags?.some is not a function"

def readEvent (message : Value N) : Except String (Option (NostrEvent N)) :=
  match message with
  | .array items =>
    if asText items[0]? ≠ some (ascii "EVENT") then .ok none
    else
      match (items[2]? : Option (Value N)) with
      | some (.object members) =>
        let field := member (some (.object members))
        let kind := (asNumber (field "kind")).bind P.integer
        match asText (field "id"), asText (field "content") with
        | some id, some content =>
          if kind ≠ some nostrEventKind then .ok none
          else do
            let tagged ← hasTopicTag topic (field "tags")
            match tagged, (asNumber (field "created_at")).bind P.integer with
            | true, some createdAt => .ok (some ⟨.object members, id, content, createdAt⟩)
            | _, _ => .ok none
        | _, _ => .ok none
      | _ => .ok none
  | _ => .ok none

def isFresh (dateNow createdAt : Int) : Bool :=
  (dateNow / 1000 - createdAt).natAbs ≤ signalTTLSeconds

def isAuthentic (event : NostrEvent N) : Except String Bool :=
  let eventId := P.digest (P.serialize event.value)
  if toHex eventId ≠ event.id then .ok false
  else do
    let sig ← fromHex (member (some event.value) "sig") 64
    let pubkey ← fromHex (member (some event.value) "pubkey") 32
    .ok (P.verify sig eventId pubkey)

/-- `#receive`: the events seen after it, and the event and message given to `_emit`. -/
def receiveEvent (seenEvents : ScriptMap Bytes Int) (m : NostrMessage N) :
    ScriptMap Bytes Int × Except String (Option (Bytes × Value N)) :=
  match readEvent P topic m.message with
  | .error err => (seenEvents, .error err)
  | .ok none => (seenEvents, .ok none)
  | .ok (some event) =>
    if ¬ isFresh m.checked event.createdAt then (seenEvents, .ok none)
    else if seenEvents.has event.id then (seenEvents, .ok none)
    else
      match isAuthentic P event with
      | .error err => (seenEvents, .error err)
      | .ok false => (seenEvents, .ok none)
      | .ok true =>
        ((seenEvents.set event.id m.seen).filter fun entry =>
            m.pruned - signalTTLSeconds * 1000 ≤ entry.2,
          (P.parse event.content).map fun message => some (event.id, message))

end Receive

/-- A session over its whole life: what it remembers, the last reading of the clock, and the events
that reached `_emit`. -/
structure NostrHistory where
  seenEvents : ScriptMap Bytes Int := .empty
  clock : Int
  emitted : List Bytes := []

structure Ticks (h : NostrHistory) (m : NostrMessage N) : Prop where
  checked : h.clock ≤ m.checked
  seen : m.checked ≤ m.seen
  pruned : m.seen ≤ m.pruned

def emittedBy : Except String (Option (Bytes × Value N)) → List Bytes
  | .ok (some (id, _)) => [id]
  | _ => []

namespace NostrHistory
variable (P : NostrPlatform N) (topic : Bytes)

def step (h : NostrHistory) (m : NostrMessage N) : Option NostrHistory :=
  let (seenEvents, outcome) := receiveEvent P topic h.seenEvents m
  some ⟨seenEvents, m.pruned, emittedBy outcome ++ h.emitted⟩

end NostrHistory

/-- The message holds this event, and it passes the checks that do not depend on what was seen. -/
structure Admissible (P : NostrPlatform N) (topic : Bytes) (m : NostrMessage N)
    (event : NostrEvent N) : Prop where
  read : readEvent P topic m.message = .ok (some event)
  fresh : isFresh m.checked event.createdAt = true
  authentic : isAuthentic P event = .ok true

/-- When an event is recorded, the second that it states is over, or it is out of time already. -/
def Elapsed (P : NostrPlatform N) (topic : Bytes) (m : NostrMessage N) : Prop :=
  ∀ event, Admissible P topic m event →
    event.createdAt * 1000 + 999 ≤ m.seen ∨ (event.createdAt + 121) * 1000 ≤ m.pruned

/-- The hash has no collision between events that state different times. -/
def NostrPlatform.Lawful (P : NostrPlatform N) (topic : Bytes) : Prop :=
  ∀ m m' event event', readEvent P topic m = .ok (some event) →
    readEvent P topic m' = .ok (some event') →
    P.digest (P.serialize event.value) = P.digest (P.serialize event'.value) →
    event.createdAt = event'.createdAt

section Once
variable {P : NostrPlatform N} {topic : Bytes} {seenEvents : ScriptMap Bytes Int}
  {m : NostrMessage N}
variable {event : NostrEvent N} {h next : NostrHistory}

theorem receiveEvent_cases (P : NostrPlatform N) (topic : Bytes) (seenEvents : ScriptMap Bytes Int)
    (m : NostrMessage N) :
    ((receiveEvent P topic seenEvents m).1 = seenEvents ∧
      emittedBy (receiveEvent P topic seenEvents m).2 = []) ∨
    ∃ event, Admissible P topic m event ∧ seenEvents.get event.id = none := by
  rw [receiveEvent]
  split
  · exact Or.inl ⟨rfl, rfl⟩
  · exact .inl ⟨rfl, rfl⟩
  next event hread =>
    split
    · exact .inl ⟨rfl, rfl⟩
    rename_i hfresh
    split
    · exact .inl ⟨rfl, rfl⟩
    rename_i hseen
    split
    · exact .inl ⟨rfl, rfl⟩
    · exact .inl ⟨rfl, rfl⟩
    next hauthentic =>
      exact Or.inr ⟨event, ⟨hread, not_not.mp hfresh, hauthentic⟩,
        Option.not_isSome_iff_eq_none.mp hseen⟩

theorem receiveEvent_of_admissible (h : Admissible P topic m event)
    (hseen : seenEvents.get event.id = none) :
    receiveEvent P topic seenEvents m = ((seenEvents.set event.id m.seen).filter
        (fun entry => m.pruned - signalTTLSeconds * 1000 ≤ entry.2),
      (P.parse event.content).map fun message => some (event.id, message)) := by
  simp only [receiveEvent, h.read, h.fresh, not_true_eq_false, if_false, ScriptMap.has, hseen,
    Option.isSome_none, Bool.false_eq_true, h.authentic]

theorem id_eq_of_admissible (h : Admissible P topic m event) :
    event.id = toHex (P.digest (P.serialize event.value)) := by
  have hauthentic := h.authentic
  rw [isAuthentic] at hauthentic
  by_contra hne
  rw [if_pos (Ne.symm hne)] at hauthentic
  cases hauthentic

structure Records (P : NostrPlatform N) (m : NostrMessage N) (event : NostrEvent N)
    (h next : NostrHistory) : Prop where
  clock : next.clock = m.pruned
  get : ∀ id time, next.seenEvents.get id = some time ↔
    (if id = event.id then some m.seen else h.seenEvents.get id) = some time ∧
      m.pruned - signalTTLSeconds * 1000 ≤ time
  emitted : next.emitted =
    emittedBy ((P.parse event.content).map fun message => some (event.id, message)) ++ h.emitted

theorem NostrHistory.step_records
    (hevent : Admissible P topic m event) (hnew : h.seenEvents.get event.id = none)
    (hstep : h.step P topic m = some next) : Records P m event h next := by
  cases hstep
  have hreceive := receiveEvent_of_admissible hevent hnew
  refine ⟨rfl, ?_, ?_⟩
  · intro id time
    change (receiveEvent P topic h.seenEvents m).1.get id = some time ↔ _
    rw [hreceive, ScriptMap.get_filter_eq_some_iff, ScriptMap.get_set, decide_eq_true_iff]
  · exact congrArg (fun result => emittedBy result.2 ++ h.emitted) hreceive

theorem NostrHistory.step_cases (hstep : h.step P topic m = some next) :
    (next.clock = m.pruned ∧ next.seenEvents = h.seenEvents ∧ next.emitted = h.emitted) ∨
      ∃ event, Admissible P topic m event ∧ h.seenEvents.get event.id = none ∧
        Records P m event h next := by
  rcases receiveEvent_cases P topic h.seenEvents m with ⟨hsame, hnone⟩ | ⟨event, hevent, hnew⟩
  · cases hstep
    exact Or.inl ⟨rfl, hsame, congrArg (· ++ h.emitted) hnone⟩
  · exact .inr ⟨event, hevent, hnew, step_records hevent hnew hstep⟩

theorem Records.emitted_cases (hrecords : Records P m event h next) :
    next.emitted = event.id :: h.emitted ∨ next.emitted = h.emitted := by
  have hemitted := hrecords.emitted
  cases hparse : P.parse event.content with
  | error err =>
    rw [hparse] at hemitted
    exact .inr hemitted
  | ok message =>
    rw [hparse] at hemitted
    exact .inl hemitted

theorem Records.kept (hrecords : Records P m event h next) {id : Bytes} {time : Int}
    (htime : (if id = event.id then some m.seen else h.seenEvents.get id) = some time) :
    next.seenEvents.get id = some time ∨ time + signalTTLSeconds * 1000 < next.clock := by
  by_cases hkeep : m.pruned - signalTTLSeconds * 1000 ≤ time
  · exact .inl ((hrecords.get id time).mpr ⟨htime, hkeep⟩)
  · rw [hrecords.clock]
    exact Or.inr (by omega)

/-- What is kept of an emitted event: a time at which it was recorded, which is still remembered
or more than 120 seconds ago, and after which the event is no longer fresh once it is forgotten. -/
structure Remembered (P : NostrPlatform N) (topic : Bytes) (h : NostrHistory) (id : Bytes) :
    Prop where
  recorded : ∃ (earlier : NostrMessage N) (event : NostrEvent N),
    Admissible P topic earlier event ∧ event.id = id ∧ earlier.seen ≤ h.clock ∧
    (event.createdAt * 1000 + 999 ≤ earlier.seen ∨ (event.createdAt + 121) * 1000 ≤ h.clock) ∧
    (h.seenEvents.get id = some earlier.seen ∨
      earlier.seen + signalTTLSeconds * 1000 < h.clock)

structure OnceInv (P : NostrPlatform N) (topic : Bytes) (h : NostrHistory) : Prop where
  remembered : ∀ id ∈ h.emitted, Remembered P topic h id
  once : h.emitted.Nodup

theorem hexDigit_injective {a b : Nat}
    (h : byteOf (GoText.hexDigit a) = byteOf (GoText.hexDigit b)) : a % 16 = b % 16 := by
  have hall : ∀ a b : Fin 16,
      byteOf (Nat.digitChar a.val).toLower = byteOf (Nat.digitChar b.val).toLower → a = b := by
    decide
  exact Fin.mk.inj (hall ⟨a % 16, Nat.mod_lt _ (by decide)⟩ ⟨b % 16, Nat.mod_lt _ (by decide)⟩ h)

theorem toHex_injective : Function.Injective toHex := by
  intro xs
  induction xs with
  | nil =>
    intro ys h
    cases ys with
    | nil => rfl
    | cons y ys => cases h
  | cons x xs ih =>
    intro ys h
    cases ys with
    | nil => cases h
    | cons y ys =>
      obtain ⟨hhead, htail⟩ := append_inj h rfl
      obtain ⟨hhigh, hrest⟩ := cons.inj hhead
      have hquotient := hexDigit_injective hhigh
      have hremainder := hexDigit_injective (cons.inj hrest).1
      have hx := x.toNat_lt
      have hy := y.toNat_lt
      have hbyte : x = y := UInt8.toNat_inj.mp (by omega)
      rw [hbyte, ih htail]

theorem notMem_emitted (hP : P.Lawful topic) (hinv : OnceInv P topic h)
    (hticks : Ticks h m) (hadmissible : Admissible P topic m event)
    (hseen : h.seenEvents.get event.id = none) : event.id ∉ h.emitted := by
  intro hmem
  obtain ⟨earlier, old, hold, hid, -, helapsed, hkept⟩ := (hinv.remembered _ hmem).recorded
  have hdigest : P.digest (P.serialize old.value) = P.digest (P.serialize event.value) := by
    apply toHex_injective
    rw [← id_eq_of_admissible hold, ← id_eq_of_admissible hadmissible, hid]
  have hcreated := hP _ _ _ _ hold.read hadmissible.read hdigest
  have hlate : earlier.seen + signalTTLSeconds * 1000 < h.clock := by
    rcases hkept with hget | hlate
    · rw [hget] at hseen
      cases hseen
    · exact hlate
  have hfresh := of_decide_eq_true hadmissible.fresh
  have hclock := hticks.checked
  rw [signalTTLSeconds] at hfresh hlate
  omega

theorem Remembered.later {id : Bytes} (hid : Remembered P topic h id)
    (hclock : h.clock ≤ next.clock) (hkeeps : ∀ time, h.seenEvents.get id = some time →
      next.seenEvents.get id = some time ∨ time + signalTTLSeconds * 1000 < next.clock) :
    Remembered P topic next id := by
  obtain ⟨earlier, event, hevent, heq, hbefore, hover, hkept⟩ := hid.recorded
  refine ⟨earlier, event, hevent, heq, Int.le_trans hbefore hclock, ?_, ?_⟩
  · rcases hover with hpast | hover
    · exact Or.inl hpast
    · exact .inr (Int.le_trans hover hclock)
  · rcases hkept with hget | hlate
    · exact hkeeps _ hget
    · exact Or.inr (Int.lt_of_lt_of_le hlate hclock)

theorem step_once (hP : P.Lawful topic) (hinv : OnceInv P topic h)
    (hok : Ticks h m ∧ Elapsed P topic m) (hstep : h.step P topic m = some next) :
    OnceInv P topic next := by
  obtain ⟨hticks, helapsed⟩ := hok
  have hforward : h.clock ≤ m.pruned := hticks.checked.trans (hticks.seen.trans hticks.pruned)
  rcases NostrHistory.step_cases hstep with
    ⟨hclock, hsame, hemitted⟩ | ⟨event, hevent, hnew, hrecords⟩
  · rw [← hclock] at hforward
    constructor
    · intro id hid
      rw [hemitted] at hid
      exact (hinv.remembered id hid).later hforward fun time htime => Or.inl (hsame ▸ htime)
    · rw [hemitted]
      exact hinv.once
  · rw [← hrecords.clock] at hforward
    have hnot := notMem_emitted hP hinv hticks hevent hnew
    have hold : ∀ id ∈ h.emitted, Remembered P topic next id := by
      intro id hid
      have hne : id ≠ event.id := fun heq => hnot (heq ▸ hid)
      exact (hinv.remembered id hid).later hforward fun time htime =>
        hrecords.kept ((if_neg hne).trans htime)
    have hself : Remembered P topic next event.id := by
      refine ⟨m, event, hevent, rfl, ?_, ?_, hrecords.kept (if_pos rfl)⟩
      · rw [hrecords.clock]
        exact hticks.pruned
      · rw [hrecords.clock]
        exact helapsed event hevent
    rcases hrecords.emitted_cases with hemitted | hemitted
    · constructor
      · intro id hid
        rw [hemitted] at hid
        rcases mem_cons.mp hid with rfl | hid
        · exact hself
        · exact hold id hid
      · rw [hemitted]
        exact nodup_cons.mpr ⟨hnot, hinv.once⟩
    · constructor
      · intro id hid
        rw [hemitted] at hid
        exact hold id hid
      · rw [hemitted]
        exact hinv.once

def NostrMessage.at (message : Value N) (time : Int) : NostrMessage N := ⟨message, time, time, time⟩

/-- The condition is exact: an event that is recorded without it can reach `_emit` again, as soon
as some other event is recorded in between. -/
theorem emitted_again_of_not_elapsed
    {content : Value N} (hticks : Ticks h m) (hevent : Admissible P topic m event)
    (hnew : h.seenEvents.get event.id = none) (hcontent : P.parse event.content = .ok content)
    (hstep : h.step P topic m = some next)
    (hearly : ¬ (event.createdAt * 1000 + 999 ≤ m.seen ∨
      (event.createdAt + 121) * 1000 ≤ m.pruned))
    (hothers : ∀ time, ∃ message other, Admissible P topic (.at message time) other ∧
      other.id ≠ event.id ∧ next.seenEvents.get other.id = none) :
    ∃ messages final, StepSystem.Run (NostrHistory.step P topic) Ticks next messages final ∧
      ¬ final.emitted.Nodup := by
  have hseen := hticks.seen
  have hpruned := hticks.pruned
  have hfresh := of_decide_eq_true hevent.fresh
  rw [signalTTLSeconds] at hfresh
  obtain ⟨time, htime⟩ : ∃ time, time = max m.pruned (m.seen + 120001) := ⟨_, rfl⟩
  have hlater : m.pruned ≤ time ∧ m.seen + 120001 ≤ time ∧
      time < (event.createdAt + 121) * 1000 := by omega
  have hfirst := NostrHistory.step_records hevent hnew hstep
  -- The other event makes the loop forget this one.
  obtain ⟨message, other, hother, hne, hunseen⟩ := hothers time
  obtain ⟨middle, hmiddle⟩ : ∃ middle, next.step P topic (.at message time) = some middle :=
    ⟨_, rfl⟩
  have hsecond := NostrHistory.step_records hother hunseen hmiddle
  have hforgotten : middle.seenEvents.get event.id = none := by
    apply Option.eq_none_iff_forall_ne_some.mpr
    intro stored hstored
    obtain ⟨hget, hkeep⟩ := (hsecond.get _ _).mp hstored
    rw [if_neg hne.symm] at hget
    obtain ⟨hrecorded, -⟩ := (hfirst.get _ _).mp hget
    rw [if_pos rfl] at hrecorded
    cases hrecorded
    rw [signalTTLSeconds] at hkeep
    simp only [NostrMessage.at] at hkeep
    omega
  -- It is still fresh.
  have hagain : Admissible P topic (.at m.message time) event := by
    refine ⟨hevent.read, decide_eq_true ?_, hevent.authentic⟩
    rw [signalTTLSeconds]
    simp only [NostrMessage.at]
    omega
  obtain ⟨final, hfinal⟩ : ∃ final, middle.step P topic (.at m.message time) = some final :=
    ⟨_, rfl⟩
  have hthird := NostrHistory.step_records hagain hforgotten hfinal
  have hticks₁ : Ticks next (NostrMessage.at message time) :=
    ⟨hfirst.clock.symm ▸ hlater.1, Int.le_refl _, Int.le_refl _⟩
  have hticks₂ : Ticks middle (NostrMessage.at m.message time) :=
    ⟨hsecond.clock.symm ▸ Int.le_refl _, Int.le_refl _, Int.le_refl _⟩
  refine ⟨_, final, .cons hticks₁ hmiddle (.cons hticks₂ hfinal (.nil _)), ?_⟩
  have hemitted : final.emitted = event.id :: middle.emitted := by
    rw [hthird.emitted, hcontent]
    rfl
  have hmem : event.id ∈ middle.emitted := by
    rw [hsecond.emitted, hfirst.emitted, hcontent]
    exact mem_append_right _ mem_cons_self
  rw [hemitted]
  exact fun hnodup => (nodup_cons.mp hnodup).1 hmem

end Once

/-- Events reach `_emit` at most once in every run in which each is recorded after the second that
it states. -/
theorem events_emitted_once {P : NostrPlatform N} {topic : Bytes} (hP : P.Lawful topic)
    {start : Int} {h : NostrHistory} {messages : List (NostrMessage N)}
    (hrun : StepSystem.Run (NostrHistory.step P topic) (fun h m => Ticks h m ∧ Elapsed P topic m)
      { clock := start } messages h) : h.emitted.Nodup := by
  have hstart : OnceInv P topic { clock := start } :=
    ⟨fun _ hid => absurd hid not_mem_nil, nodup_nil⟩
  exact (hrun.invariant (I := OnceInv P topic)
    (fun hinv hok hstep => step_once hP hinv hok hstep) hstart).once

theorem createdAt_of_read {P : NostrPlatform N} {topic : Bytes} {message : Value N}
    {event : NostrEvent N} (h : readEvent P topic message = .ok (some event)) :
    (asNumber (member (some event.value) "created_at")).bind P.integer = some event.createdAt := by
  unfold readEvent at h
  split at h
  · split at h
    · cases h
    · split at h
      · dsimp only at h
        split at h
        · split at h
          · cases h
          · obtain ⟨tagged, -, h⟩ := bind_eq_ok.mp h
            split at h
            next hcreated =>
              cases h
              exact hcreated
            · cases h
        · cases h
      · cases h
  · cases h

def plainNostr : NostrPlatform Int where
  toScriptPlatform := plainPlatform
  integer := some
  serialize value :=
    Utf8.encode (Json.integer ((asNumber (member (some value) "created_at")).getD 0))
  digest bytes := bytes
  verify _ _ _ := true

theorem plainNostr_lawful (topic : Bytes) : plainNostr.Lawful topic := by
  intro message message' event event' hread hread' hdigest
  have htime := integer_injective (encode_injective hdigest)
  have hcreated := createdAt_of_read hread
  have hcreated' := createdAt_of_read hread'
  have hsome : ∀ n : Option Int, n.bind plainNostr.integer = n := by
    intro n
    cases n with
    | none | some n => rfl
  rw [hsome] at hcreated hcreated'
  rwa [hcreated, hcreated'] at htime

def plainEvent (createdAt : Int) : Value Int :=
  .array [.string (ascii "EVENT"), .string (ascii "pnc-0"), .object [
    (ascii "id", .string (toHex (Utf8.encode (Json.integer createdAt)))),
    (ascii "pubkey", .string (replicate 64 48)), (ascii "created_at", .number createdAt),
    (ascii "kind", .number 25050),
    (ascii "tags", .array [.array [.string (ascii "t"), .string (ascii "topic")]]),
    (ascii "content", .string (ascii "1")), (ascii "sig", .string (replicate 128 48))]]

theorem elapsed_plainEvent {createdAt time : Int} (h : createdAt * 1000 + 999 ≤ time) :
    Elapsed plainNostr (ascii "topic") (.at (plainEvent createdAt) time) := by
  intro event hevent
  have hread : ∃ value id content, readEvent plainNostr (ascii "topic") (plainEvent createdAt) =
      .ok (some ⟨value, id, content, createdAt⟩) := ⟨_, _, _, rfl⟩
  obtain ⟨value, id, content, hread⟩ := hread
  have heq := hread.symm.trans hevent.read
  cases heq
  exact Or.inl h

theorem ticks_at {h : NostrHistory} {time : Int} (hclock : h.clock ≤ time) (message : Value N) :
    Ticks h (.at message time) :=
  ⟨hclock, Int.le_refl _, Int.le_refl _⟩

theorem events_emitted_once_example :
    ∃ (messages : List (NostrMessage Int)) (h : NostrHistory),
      StepSystem.Run (NostrHistory.step plainNostr (ascii "topic"))
        (fun h m => Ticks h m ∧ Elapsed plainNostr (ascii "topic") m) { clock := 1800000000000 }
        messages h ∧ messages.length = 2 ∧ h.emitted.length = 1 ∧ h.emitted.Nodup := by
  have hrun : ∃ h, StepSystem.Run (NostrHistory.step plainNostr (ascii "topic"))
      (fun h m => Ticks h m ∧ Elapsed plainNostr (ascii "topic") m) { clock := 1800000000000 }
      [.at (plainEvent 1799999990) 1800000000000, .at (plainEvent 1799999990) 1800000001000] h ∧
        h.emitted.length = 1 := by
    refine ⟨_, .cons ⟨ticks_at (by decide) _, elapsed_plainEvent (by decide)⟩ rfl
      (.cons ⟨ticks_at (by decide) _, elapsed_plainEvent (by decide)⟩ rfl (.nil _)), ?_⟩
    decide +kernel
  obtain ⟨h, hrun, hlength⟩ := hrun
  exact ⟨_, h, hrun, rfl, hlength, events_emitted_once (plainNostr_lawful _) hrun⟩

/-- An event that is dated two minutes ahead is emitted when it comes, and again 121 seconds later,
once another event has come. -/
theorem event_ahead_emitted_twice :
    ∃ (messages : List (NostrMessage Int)) (h : NostrHistory),
      StepSystem.Run (NostrHistory.step plainNostr (ascii "topic")) Ticks
        { clock := 1800000000000 } messages h ∧ ¬ h.emitted.Nodup := by
  refine ⟨[.at (plainEvent 1800000120) 1800000000000, .at (plainEvent 1800000121) 1800000121000,
    .at (plainEvent 1800000120) 1800000121000], _, .cons (ticks_at (by decide) _) rfl
      (.cons (ticks_at (by decide) _) rfl (.cons (ticks_at (by decide) _) rfl (.nil _))), ?_⟩
  decide +kernel

end P2PNetcat.NativeWebRTC.Signaling
