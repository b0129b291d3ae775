import P2PNetcat.Library.StepSystem
import P2PNetcat.Protocol.Admission

/-!
# Admission over a hostile network

Any number of `AuthenticateClient` and `AuthenticateServer` calls. The network
hands each of them any frame at any time. The MAC is ideal: no frame carries a
valid MAC that nobody with the key has computed.
-/

namespace P2PNetcat.Admission
open List Function ByteCodec Fallible GoTime Pairing StepSystem

variable {L : Libraries}

/-- The role, PeerId, service, timestamp and nonces can be read back from what is authenticated. -/
theorem macInput_injective {role role' : String} (hrole : (0 : UInt8) ∉ ascii role)
    (hrole' : (0 : UInt8) ∉ ascii role') {token token' : Token L}
    (hid : (0 : UInt8) ∉ L.idString token.peerID) (hid' : (0 : UInt8) ∉ L.idString token'.peerID)
    {timestamp timestamp' : UInt64} {client client' server server' : Bytes}
    (hclient : client.length = client'.length)
    (h : macInput role token timestamp client server =
      macInput role' token' timestamp' client' server') :
    ascii role = ascii role' ∧ L.idString token.peerID = L.idString token'.peerID ∧
      token.service = token'.service ∧ timestamp = timestamp' ∧ client = client' ∧
      server = server' := by
  rw [macInput, macInput] at h
  have h := (cons.inj (append_cancel_left h)).2
  obtain ⟨hroles, h⟩ := terminated_inj hrole hrole' h
  obtain ⟨hids, h⟩ := terminated_inj hid hid' h
  obtain ⟨hservice, h⟩ := terminated_inj (zero_not_mem_decimal _) (zero_not_mem_decimal _) h
  obtain ⟨htimestamp, h⟩ := terminated_inj (zero_not_mem_decimal _) (zero_not_mem_decimal _) h
  obtain ⟨hnonce, hserver⟩ := append_inj h hclient
  exact ⟨hroles, hids, UInt16.toNat_inj.mp (decimal_injective hservice),
    UInt64.toNat_inj.mp (decimal_injective htimestamp), hnonce, hserver⟩

/-- What a holder of a secret has computed a MAC for: the hello of a `CreateHello` call, or the
acknowledgement of a server run. -/
inductive Produced (L : Libraries) where
  | hello (token : Token L) (hello : Hello)
  | ack (server : Nat) (token : Token L) (hello : Hello) (nonce : Block nonceSize)

namespace Produced

def token : Produced L → Token L
  | .hello token _ => token
  | .ack _ token _ _ => token

def message : Produced L → Bytes
  | .hello token sent => macInput "client" token sent.timestamp sent.clientNonce.val []
  | .ack _ token sent nonce =>
    macInput "server" token sent.timestamp sent.clientNonce.val nonce.val

end Produced

inductive ClientRun (L : Libraries) where
  | idle
  | waiting (token : Token L) (hello : Hello)
  | accepted (token : Token L) (hello : Hello) (ack : Bytes)
  | failed (err : String)

inductive ServerRun (L : Libraries) where
  | idle
  | reading (token : Token L)
  | accepted (token : Token L) (hello : Hello) (ack : Bytes)
  | failed (err : String)

structure Network (L : Libraries) where
  clients : Nat → ClientRun L := fun _ => .idle
  servers : Nat → ServerRun L := fun _ => .idle
  produced : List (Produced L) := []
  /-- The tokens of the runs started so far. -/
  holders : List (Token L) := []

inductive Event (L : Libraries) where
  | startClient (i : Nat) (token : Token L) (now : Time) (random : Except String (Block nonceSize))
  | readAck (i : Nat) (frame : Bytes)
  | failClient (i : Nat) (err : String)
  | startServer (j : Nat) (token : Token L)
  | readHello (j : Nat) (frame : Bytes) (now : Time) (random : Except String (Block nonceSize))
      (written : Except String Unit)
  | failServer (j : Nat) (err : String)

namespace Network
variable {i j : Nat} {random : Except String (Block nonceSize)} {now : Time} {token : Token L}

def setClient (s : Network L) (i : Nat) (run : ClientRun L) : Network L :=
  { s with clients := update s.clients i run }

def setServer (s : Network L) (j : Nat) (run : ServerRun L) : Network L :=
  { s with servers := update s.servers j run }

def produce (s : Network L) (p : Produced L) : Network L :=
  { s with produced := p :: s.produced }

def hold (s : Network L) (token : Token L) : Network L := { s with holders := token :: s.holders }

def startClient (s : Network L) (i : Nat) (token : Token L) (now : Time)
    (random : Except String (Block nonceSize)) : Network L :=
  match createHello token now none random with
  | .error err => (s.hold token).setClient i (.failed err)
  | .ok (_, hello) => ((s.hold token).produce (.hello token hello)).setClient i (.waiting token hello)

/-- `AuthenticateServer` from the hello it has read; the acknowledgement may not get written. -/
def answer (s : Network L) (j : Nat) (token : Token L) (frame : Bytes) (now : Time)
    (random : Except String (Block nonceSize)) (written : Except String Unit) : Network L :=
  match verifyHello token frame now maxClockSkew with
  | .error err => s.setServer j (.failed err)
  | .ok hello =>
    match random with
    | .error err => s.setServer j (.failed err)
    | .ok nonce =>
      match createAck token hello none (.ok nonce) with
      | .error err => s.setServer j (.failed err)
      | .ok ack => (s.produce (.ack j token hello nonce)).setServer j <|
          match written with
          | .error err => .failed ("send admission acknowledgement: " ++ err)
          | .ok _ => .accepted token hello ack

def step (s : Network L) : Event L → Option (Network L)
  | .startClient i token now random =>
    match s.clients i with
    | .idle => some (s.startClient i token now random)
    | _ => none
  | .readAck i frame =>
    match s.clients i with
    | .waiting token hello => some <| s.setClient i <|
        match verifyAck token hello frame with
        | .error err => .failed err
        | .ok _ => .accepted token hello frame
    | _ => none
  | .failClient i err =>
    match s.clients i with
    | .waiting _ _ => some (s.setClient i (.failed err))
    | _ => none
  | .startServer j token =>
    match s.servers j with
    | .idle => some ((s.hold token).setServer j (.reading token))
    | _ => none
  | .readHello j frame now random written =>
    match s.servers j with
    | .reading token => some (s.answer j token frame now random written)
    | _ => none
  | .failServer j err =>
    match s.servers j with
    | .reading _ => some (s.setServer j (.failed err))
    | _ => none

def Computed (s : Network L) (key message : Bytes) : Prop :=
  ∃ p ∈ s.produced, admissionKey p.token.secret = key ∧ p.message = message

def Ideal (s : Network L) : Event L → Prop
  | .startClient _ token _ _ | .startServer _ token => ∀ other ∈ s.holders,
      admissionKey other.secret = admissionKey token.secret → other.secret = token.secret
  | .readAck i frame => ∀ token hello nonce, s.clients i = .waiting token hello →
      frame = ackFrame token hello nonce →
      s.Computed (admissionKey token.secret)
        (macInput "server" token hello.timestamp hello.clientNonce.val nonce.val)
  | .readHello j frame _ _ _ => ∀ token hello, s.servers j = .reading token →
      frame = helloFrame token hello →
      s.Computed (admissionKey token.secret)
        (macInput "client" token hello.timestamp hello.clientNonce.val [])
  | _ => True

variable {s t : Network L}

/-- The tokens grant the same service of the same peer to the holders of the same secret. -/
def SameScope (token other : Token L) : Prop :=
  token.secret = other.secret ∧ token.peerID = other.peerID ∧ token.service = other.service

structure Inv (s : Network L) : Prop where
  keys : ∀ a ∈ s.holders, ∀ b ∈ s.holders,
    admissionKey a.secret = admissionKey b.secret → a.secret = b.secret
  produced : ∀ p ∈ s.produced, p.token ∈ s.holders ∧ p.token.Sound
  acks : ∀ j token hello nonce, .ack j token hello nonce ∈ s.produced →
    ∃ other, .hello other hello ∈ s.produced ∧ SameScope other token
  waiting : ∀ i token hello, s.clients i = .waiting token hello →
    token ∈ s.holders ∧ token.Sound
  reading : ∀ j token, s.servers j = .reading token → token ∈ s.holders
  clients : ∀ i token hello ack, s.clients i = .accepted token hello ack →
    ∃ j other nonce, .ack j other hello nonce ∈ s.produced ∧ SameScope other token ∧
      ack = ackFrame other hello nonce
  servers : ∀ j token hello ack, s.servers j = .accepted token hello ack →
    ∃ nonce, .ack j token hello nonce ∈ s.produced ∧ ack = ackFrame token hello nonce

theorem Inv.initial : Inv ({} : Network L) where
  keys := nofun
  produced := nofun
  acks := nofun
  waiting := nofun
  reading := nofun
  clients := nofun
  servers := nofun

theorem of_setClient {k : Nat} {run other : ClientRun L}
    (h : (s.setClient i run).clients k = other) : run = other ∨ s.clients k = other := by
  by_cases hk : k = i
  · subst hk
    have hself : (s.setClient k run).clients k = run := by
      simp only [setClient, update_self]
    exact .inl (hself.symm.trans h)
  · have hother : (s.setClient i run).clients k = s.clients k := update_of_ne hk ..
    exact .inr (hother.symm.trans h)

theorem of_setServer {k : Nat} {run other : ServerRun L}
    (h : (s.setServer j run).servers k = other) : (k = j ∧ run = other) ∨ s.servers k = other := by
  by_cases hk : k = j
  · subst hk
    have hself : (s.setServer k run).servers k = run := by
      simp only [setServer, update_self]
    exact .inl ⟨rfl, hself.symm.trans h⟩
  · have hother : (s.setServer j run).servers k = s.servers k := update_of_ne hk ..
    exact .inr (hother.symm.trans h)

theorem Inv.hold (hs : Inv s) (hkeys : ∀ other ∈ s.holders,
    admissionKey other.secret = admissionKey token.secret → other.secret = token.secret) :
    Inv (s.hold token) where
  keys := by
    intro a ha b hb hkey
    rcases mem_cons.mp ha with hatoken | ha <;> rcases mem_cons.mp hb with hbtoken | hb
    · rw [hatoken, hbtoken]
    · rw [hatoken] at hkey ⊢
      exact (hkeys b hb hkey.symm).symm
    · rw [hbtoken] at hkey ⊢
      exact hkeys a ha hkey
    · exact hs.keys a ha b hb hkey
  produced := fun p hp => ⟨mem_cons_of_mem _ (hs.produced p hp).1, (hs.produced p hp).2⟩
  acks := hs.acks
  waiting := fun i other hello h =>
    ⟨mem_cons_of_mem _ (hs.waiting i other hello h).1, (hs.waiting i other hello h).2⟩
  reading := fun j other h => mem_cons_of_mem _ (hs.reading j other h)
  clients := hs.clients
  servers := hs.servers

theorem Inv.produce (hs : Inv s) {p : Produced L} (hheld : p.token ∈ s.holders)
    (hsound : p.token.Sound) (hack : ∀ j token hello nonce, p = .ack j token hello nonce →
      ∃ other, .hello other hello ∈ s.produced ∧ SameScope other token) : Inv (s.produce p) where
  keys := hs.keys
  produced := by
    intro q hq
    rcases mem_cons.mp hq with rfl | hq
    · exact ⟨hheld, hsound⟩
    · exact hs.produced q hq
  acks := by
    intro j token hello nonce hmem
    have hother : ∃ other, .hello other hello ∈ s.produced ∧ SameScope other token := by
      rcases mem_cons.mp hmem with heq | hmem
      · exact hack j token hello nonce heq.symm
      · exact hs.acks j token hello nonce hmem
    obtain ⟨other, hmem, hscope⟩ := hother
    exact ⟨other, mem_cons_of_mem _ hmem, hscope⟩
  waiting := hs.waiting
  reading := hs.reading
  clients := by
    intro i token hello ack h
    obtain ⟨j, other, nonce, hmem, hscope, hframe⟩ := hs.clients i token hello ack h
    exact ⟨j, other, nonce, mem_cons_of_mem _ hmem, hscope, hframe⟩
  servers := by
    intro j token hello ack h
    obtain ⟨nonce, hmem, hframe⟩ := hs.servers j token hello ack h
    exact ⟨nonce, mem_cons_of_mem _ hmem, hframe⟩

theorem Inv.setClient (hs : Inv s) {run : ClientRun L}
    (hwaiting : ∀ token hello, run = .waiting token hello → token ∈ s.holders ∧ token.Sound)
    (haccepted : ∀ token hello ack, run = .accepted token hello ack →
      ∃ j other nonce, .ack j other hello nonce ∈ s.produced ∧ SameScope other token ∧
        ack = ackFrame other hello nonce) : Inv (s.setClient i run) where
  keys := hs.keys
  produced := hs.produced
  acks := hs.acks
  waiting := by
    intro k token hello h
    rcases of_setClient h with h | h
    · exact hwaiting token hello h
    · exact hs.waiting k token hello h
  reading := hs.reading
  clients := by
    intro k token hello ack h
    rcases of_setClient h with h | h
    · exact haccepted token hello ack h
    · exact hs.clients k token hello ack h
  servers := hs.servers

theorem Inv.setServer (hs : Inv s) {run : ServerRun L}
    (hreading : ∀ token, run = .reading token → token ∈ s.holders)
    (haccepted : ∀ token hello ack, run = .accepted token hello ack →
      ∃ nonce, .ack j token hello nonce ∈ s.produced ∧ ack = ackFrame token hello nonce) :
    Inv (s.setServer j run) where
  keys := hs.keys
  produced := hs.produced
  acks := hs.acks
  waiting := hs.waiting
  reading := by
    intro k token h
    rcases of_setServer h with ⟨-, h⟩ | h
    · exact hreading token h
    · exact hs.reading k token h
  clients := hs.clients
  servers := by
    intro k token hello ack h
    rcases of_setServer h with ⟨rfl, hself⟩ | hother
    · exact haccepted token hello ack hself
    · exact hs.servers k token hello ack hother

theorem sound_of_createHello {nonce : Option Bytes} {result : Bytes × Hello}
    (h : createHello token now nonce random = .ok result) : token.Sound := by
  obtain ⟨_, hvalid, -⟩ := bind_eq_ok.mp h
  exact (Token.validate_ok_iff.mp hvalid).1

/-- A server run accepts exactly where `AuthenticateServer` returns no error. -/
theorem accepted_iff_authenticateServer (s : Network L) {frame : Bytes}
    {written : Except String Unit} :
    (∃ hello ack, (s.answer j token frame now random written).servers j =
      .accepted token hello ack) ↔
    authenticateServer token ⟨.ok frame, now, random, written⟩ = .ok () := by
  have hread : authenticateServer token ⟨.ok frame, now, random, written⟩ =
      (do
        let hello ← verifyHello token frame now maxClockSkew
        let _ ← createAck token hello none random
        Pairing.orError written ("send admission acknowledgement: " ++ ·)) := rfl
  rw [hread, Network.answer]
  cases verifyHello token frame now maxClockSkew with
  | error err => simp [setServer, bind, Except.bind]
  | ok hello =>
    cases random with
    | error err => simp [setServer, bind, Except.bind, createAck, fillNonce]
    | ok nonce =>
      simp only [createAck_drawn]
      cases written with
      | error err | ok => simp [setServer, bind, Except.bind, Pairing.orError]

theorem Inv.startClient (hs : Inv s) (hkeys : ∀ other ∈ s.holders,
      admissionKey other.secret = admissionKey token.secret → other.secret = token.secret) :
    Inv (s.startClient i token now random) := by
  have hheld : token ∈ (s.hold token).holders := mem_cons_self
  rw [Network.startClient]
  split
  · exact (hs.hold hkeys).setClient nofun nofun
  rename_i frame hello hcreated
  have hsound := sound_of_createHello hcreated
  have hproduced : Inv ((s.hold token).produce (.hello token hello)) :=
    (hs.hold hkeys).produce hheld hsound nofun
  refine hproduced.setClient ?_ nofun
  intro other sent heq
  cases heq
  exact ⟨hheld, hsound⟩

section Assumptions
variable (hL : L.Lawful) (hnul : ∀ {id other}, L.decodeID (L.idString id) = .ok other →
  (0 : UInt8) ∉ L.idString id)
include hL hnul
variable {token : Token L} {hello : Hello}

omit hL in
theorem zero_not_mem_idString (h : token.Sound) :
    (0 : UInt8) ∉ L.idString token.peerID := by
  obtain ⟨id, hid⟩ := h.peerID
  exact hnul hid

omit hnul in
theorem peerID_eq {other : Token L} (htoken : token.Sound) (hother : other.Sound)
    (h : L.idString token.peerID = L.idString other.peerID) : token.peerID = other.peerID := by
  obtain ⟨id, hid⟩ := htoken.peerID
  obtain ⟨id', hid'⟩ := hother.peerID
  have heq := hL.decodeID_idString hid
  have heq' := hL.decodeID_idString hid'
  rw [h, hid'] at hid
  exact heq.symm.trans ((Except.ok.inj hid).symm.trans heq')

omit hL in
theorem scope_of_message {p : Produced L} (hp : p.token.Sound) {role : String}
    (hrole : role = "client" ∨ role = "server") (htoken : token.Sound)
    {timestamp : UInt64} {client : Block nonceSize} {server : Bytes}
    (h : p.message = macInput role token timestamp client.val server) :
    L.idString p.token.peerID = L.idString token.peerID ∧ p.token.service = token.service ∧
      ((role = "client" ∧ p = .hello p.token ⟨timestamp, client⟩) ∨
        role = "server" ∧ ∃ j nonce, server = nonce.val ∧
          p = .ack j p.token ⟨timestamp, client⟩ nonce) := by
  have hzero : ∀ role, role = "client" ∨ role = "server" → (0 : UInt8) ∉ ascii role := by
    rintro role (rfl | rfl) <;> decide
  cases p with
  | hello other sent =>
    obtain ⟨hroles, hid, hservice, htimestamp, hclient, -⟩ := macInput_injective
      (hzero "client" (.inl rfl)) (hzero role hrole) (zero_not_mem_idString hnul hp)
      (zero_not_mem_idString hnul htoken) (sent.clientNonce.property.trans client.property.symm) h
    refine ⟨hid, hservice, ?_⟩
    rcases hrole with rfl | rfl
    · obtain ⟨ts, nonce⟩ := sent
      obtain rfl : nonce = client := Subtype.ext hclient
      obtain rfl : ts = timestamp := htimestamp
      exact .inl ⟨rfl, rfl⟩
    · exact absurd hroles (by decide)
  | ack j other sent nonce =>
    obtain ⟨hroles, hid, hservice, htimestamp, hclient, hserver⟩ := macInput_injective
      (hzero "server" (.inr rfl)) (hzero role hrole) (zero_not_mem_idString hnul hp)
      (zero_not_mem_idString hnul htoken) (sent.clientNonce.property.trans client.property.symm) h
    refine ⟨hid, hservice, ?_⟩
    rcases hrole with rfl | rfl
    · exact absurd hroles (by decide)
    obtain ⟨ts, clientNonce⟩ := sent
    obtain rfl : clientNonce = client := Subtype.ext hclient
    obtain rfl : ts = timestamp := htimestamp
    exact .inr ⟨rfl, j, nonce, hserver.symm, rfl⟩

/-- An authenticated hello came from a `CreateHello` call under the same secret. -/
theorem Inv.hello_of_computed (hs : Inv s) (hheld : token ∈ s.holders) (hsound : token.Sound)
    (h : s.Computed (admissionKey token.secret)
      (macInput "client" token hello.timestamp hello.clientNonce.val [])) :
    ∃ other, .hello other hello ∈ s.produced ∧ SameScope other token := by
  obtain ⟨p, hmem, hkey, hmessage⟩ := h
  obtain ⟨hholder, hother⟩ := hs.produced p hmem
  obtain ⟨hid, hservice, ⟨-, hp⟩ | ⟨hrole, -⟩⟩ :=
    scope_of_message hnul hother (.inl rfl) hsound hmessage
  · refine ⟨p.token, hp ▸ hmem, hs.keys _ hholder _ hheld hkey, ?_, hservice⟩
    exact peerID_eq hL hother hsound hid
  · exact absurd hrole (by decide)

theorem Inv.ack_of_computed (hs : Inv s) (hheld : token ∈ s.holders)
    (hsound : token.Sound) {nonce : Block nonceSize}
    (h : s.Computed (admissionKey token.secret)
      (macInput "server" token hello.timestamp hello.clientNonce.val nonce.val)) :
    ∃ j other, .ack j other hello nonce ∈ s.produced ∧ SameScope other token ∧
      ackFrame other hello nonce = ackFrame token hello nonce := by
  obtain ⟨p, hmem, hkey, hmessage⟩ := h
  obtain ⟨hholder, hother⟩ := hs.produced p hmem
  obtain ⟨hid, hservice, ⟨hrole, -⟩ | ⟨-, j, nonce', hnonce, hp⟩⟩ :=
    scope_of_message hnul hother (.inr rfl) hsound hmessage
  · exact absurd hrole (by decide)
  · obtain rfl : nonce = nonce' := Subtype.ext hnonce
    have hsecret := hs.keys _ hholder _ hheld hkey
    refine ⟨j, p.token, hp ▸ hmem, ⟨hsecret, peerID_eq hL hother hsound hid, hservice⟩, ?_⟩
    rw [ackFrame, ackFrame, mac, mac, macInput, macInput, hid, hservice]
    simp only [hsecret]

theorem Inv.readAck (hs : Inv s) {i : Nat} {frame : Bytes} (hideal : s.Ideal (.readAck i frame))
    (hwaiting : s.clients i = .waiting token hello) :
    Inv (s.setClient i (match verifyAck token hello frame with
      | .error err => .failed err
      | .ok _ => .accepted token hello frame)) := by
  obtain ⟨hheld, hsound⟩ := hs.waiting i token hello hwaiting
  cases hverify : verifyAck token hello frame with
  | error err => exact hs.setClient nofun nofun
  | ok result =>
    refine hs.setClient nofun ?_
    intro other sent ack heq
    cases heq
    obtain ⟨nonce, hframe⟩ := verifyAck_ok.mp hverify
    obtain ⟨j, other, hmem, hscope, heq⟩ := hs.ack_of_computed hL hnul hheld hsound
      (hideal token hello nonce hwaiting hframe)
    exact ⟨j, other, nonce, hmem, hscope, hframe.trans heq.symm⟩

theorem Inv.answer (hs : Inv s) {j : Nat} {frame : Bytes} {now : Time}
    {random : Except String (Block nonceSize)} {written : Except String Unit}
    (hideal : s.Ideal (.readHello j frame now random written))
    (hreading : s.servers j = .reading token) :
    Inv (s.answer j token frame now random written) := by
  have hheld := hs.reading j token hreading
  rw [Network.answer]
  cases hverify : verifyHello token frame now maxClockSkew with
  | error err => exact hs.setServer nofun nofun
  | ok hello =>
    cases random with
    | error err => exact hs.setServer nofun nofun
    | ok nonce =>
      obtain ⟨hvalid, hframe, -⟩ := verifyHello_ok.mp hverify
      have hsound := (Token.validate_ok_iff.mp hvalid).1
      have hsent := hs.hello_of_computed hL hnul hheld hsound
        (hideal token hello hreading hframe)
      have hproduced : Inv (s.produce (.ack j token hello nonce)) := by
        refine hs.produce hheld hsound ?_
        intro k other sent drawn heq
        cases heq
        exact hsent
      simp only [createAck_drawn]
      cases written with
      | error err => exact hproduced.setServer nofun nofun
      | ok result =>
        refine hproduced.setServer nofun ?_
        intro other sent ack heq
        cases heq
        exact ⟨nonce, mem_cons_self, rfl⟩

theorem Inv.step (hs : Inv s) {ev : Event L} (hideal : s.Ideal ev) (h : s.step ev = some t) :
    Inv t := by
  cases ev with
  | startClient i token now random =>
    simp only [Network.step] at h
    split at h <;> cases h
    exact hs.startClient hideal
  | readAck i frame =>
    simp only [Network.step] at h
    split at h <;> cases h
    rename_i token hello hwaiting
    exact hs.readAck hL hnul hideal hwaiting
  | failClient i err =>
    simp only [Network.step] at h
    split at h <;> cases h
    exact hs.setClient nofun nofun
  | startServer j token =>
    simp only [Network.step] at h
    split at h <;> cases h
    refine (hs.hold hideal).setServer ?_ nofun
    intro other heq
    cases heq
    exact mem_cons_self
  | readHello j frame now random written =>
    simp only [Network.step] at h
    split at h <;> cases h
    rename_i token hreading
    exact hs.answer hL hnul hideal hreading
  | failServer j err =>
    simp only [Network.step] at h
    split at h <;> cases h
    exact hs.setServer nofun nofun

/-- In every run over a network that cannot forge MACs: a client that returns without an error was
answered by a server run under its secret that had accepted its hello; a server that returns
without an error had a hello of its own scope from a holder of its secret; and no produced frame
passes for one of the other kind. -/
theorem admission_mutual {es : List (Event L)} (hrun : Run step Ideal {} es s) :
    (∀ i token hello ack, s.clients i = .accepted token hello ack →
      ∃ j other nonce, .ack j other hello nonce ∈ s.produced ∧ SameScope other token ∧
        ack = ackFrame other hello nonce) ∧
    (∀ j token hello ack, s.servers j = .accepted token hello ack →
      ∃ other, .hello other hello ∈ s.produced ∧ SameScope other token) ∧
    ∀ (token other : Token L) hello hello' nonce now maxSkew,
      verifyHello token (ackFrame other hello nonce) now maxSkew ≠ .ok hello' ∧
      verifyAck token hello' (helloFrame other hello) ≠ .ok () := by
  have hs : Inv s :=
    hrun.invariant (fun hi hideal hst => hi.step hL hnul hideal hst) Inv.initial
  refine ⟨hs.clients, ?_, ?_⟩
  · intro j token hello ack h
    obtain ⟨nonce, hmem, -⟩ := hs.servers j token hello ack h
    exact hs.acks j token hello nonce hmem
  · intro token other hello hello' nonce now maxSkew
    constructor
    · intro h
      exact helloFrame_ne_ackFrame (verifyHello_ok.mp h).2.1.symm
    · intro h
      obtain ⟨n, hn⟩ := verifyAck_ok.mp h
      exact helloFrame_ne_ackFrame hn

end Assumptions

end Network

variable {token : Token L}

theorem createHello_drawn {now : Time} (h : token.validate now = .ok ())
    (nonce : Block nonceSize) :
    createHello token now none (.ok nonce) = .ok
      (helloFrame token ⟨toUInt64 now.toUnix, nonce⟩, ⟨toUInt64 now.toUnix, nonce⟩) := by
  refine bind_eq_ok.mpr ⟨(), h, bind_eq_ok.mpr ⟨nonce, rfl, ?_⟩⟩
  refine bind_eq_ok.mpr ⟨_, calculateMAC_eq .., ?_⟩
  rw [helloFrame]

theorem helloFrame_injective {hello hello' : Hello}
    (h : helloFrame token hello = helloFrame token hello') : hello = hello' := by
  have hdecode : ∀ sent : Hello, decode (helloFrame token sent) clientHello = .ok ⟨clientHello,
      sent.timestamp, sent.clientNonce,
      mac token (macInput "client" token sent.timestamp sent.clientNonce.val [])⟩ :=
    fun sent => decode_ok_iff.mpr ⟨rfl, rfl⟩
  have heq := hdecode hello
  rw [h, hdecode] at heq
  have hframe := Except.ok.inj heq
  obtain ⟨timestamp, nonce⟩ := hello
  obtain ⟨timestamp', nonce'⟩ := hello'
  simp only [Frame.mk.injEq] at hframe
  obtain ⟨-, rfl, rfl, -⟩ := hframe
  rfl

namespace Network

/-- Where the network only delivers, a client and a server that hold the same token accept each
other. -/
theorem accepted_of_delivered {now : Time} (hvalid : token.validate now = .ok ())
    (drawn nonce : Block nonceSize) {hello : Hello} (hhello : hello = ⟨toUInt64 now.toUnix, drawn⟩)
    (hverified : verifyHello token (helloFrame token hello) now maxClockSkew = .ok hello) :
    ∃ es s, Run step Ideal ({} : Network L) es s ∧
      s.clients 0 = .accepted token hello (ackFrame token hello nonce) ∧
      s.servers 0 = .accepted token hello (ackFrame token hello nonce) := by
  let s₁ := ((({} : Network L).hold token).produce (.hello token hello)).setClient 0
    (.waiting token hello)
  let s₂ := (s₁.hold token).setServer 0 (.reading token)
  let s₃ := (s₂.produce (.ack 0 token hello nonce)).setServer 0
    (.accepted token hello (ackFrame token hello nonce))
  let s₄ := s₃.setClient 0 (.accepted token hello (ackFrame token hello nonce))
  have h₁ : step {} (.startClient 0 token now (.ok drawn)) = some s₁ := by
    simp only [step, startClient, createHello_drawn hvalid, ← hhello]
    rfl
  have h₂ : s₁.step (.startServer 0 token) = some s₂ := rfl
  have h₃ : s₂.step (.readHello 0 (helloFrame token hello) now (.ok nonce) (.ok ())) =
      some s₃ := by
    have hreading : s₂.servers 0 = .reading token := rfl
    simp only [step, hreading, answer, hverified, createAck_drawn]
    rfl
  have h₄ : s₃.step (.readAck 0 (ackFrame token hello nonce)) = some s₄ := by
    have hwaiting : s₃.clients 0 = .waiting token hello := rfl
    have hack : verifyAck token hello (ackFrame token hello nonce) = .ok () :=
      verifyAck_ok.mpr ⟨nonce, rfl⟩
    simp only [step, hwaiting, hack]
    rfl
  refine ⟨_, s₄, .cons ?_ h₁ (.cons ?_ h₂ (.cons ?_ h₃ (.cons ?_ h₄ (.nil s₄)))), rfl, rfl⟩
  · intro other hother
    exact absurd hother not_mem_nil
  · intro other hother _
    rw [mem_singleton.mp hother]
  · intro other sent hreading hframe
    cases hreading
    obtain rfl := helloFrame_injective hframe
    exact ⟨_, mem_cons_self, rfl, rfl⟩
  · intro other sent drawn hwaiting hframe
    cases hwaiting
    have hnonce := congrArg nonceOf hframe
    rw [nonceOf_ackFrame, nonceOf_ackFrame] at hnonce
    obtain rfl : nonce = drawn := Subtype.ext hnonce
    exact ⟨_, mem_cons_self, rfl, rfl⟩

theorem plainLibraries_nul {id other : PeerID}
    (h : plainLibraries.decodeID (plainLibraries.idString id) = .ok other) :
    (0 : UInt8) ∉ plainLibraries.idString id := by
  intro hmem
  exact absurd ((plainID_ok h).2.2 0 hmem).1 (by decide)

theorem admission_mutual_example :
    ∃ (es : List (Event plainLibraries)) (s : Network plainLibraries)
      (token : Token plainLibraries) (hello : Hello) (ack : Bytes),
      Run step Ideal {} es s ∧ s.clients 0 = .accepted token hello ack ∧
      s.servers 0 = .accepted token hello ack ∧
      (∃ j other nonce, .ack j other hello nonce ∈ s.produced ∧ SameScope other token ∧
        ack = ackFrame other hello nonce) ∧
      ∃ other, .hello other hello ∈ s.produced ∧ SameScope other token := by
  have hvalid : (Token.forRelays []).validate (unix 1800000000) = .ok () := by decide
  obtain ⟨es, s, hrun, hclient, hserver⟩ := accepted_of_delivered hvalid (nonceOfByte 1)
    (nonceOfByte 2) rfl (verifyHello_ok.mpr ⟨hvalid, rfl, by decide⟩)
  obtain ⟨hclients, hservers, -⟩ :=
    admission_mutual plainLibraries_lawful plainLibraries_nul hrun
  exact ⟨es, s, _, _, _, hrun, hclient, hserver, hclients _ _ _ _ hclient,
    hservers _ _ _ _ hserver⟩

end Network

end P2PNetcat.Admission
