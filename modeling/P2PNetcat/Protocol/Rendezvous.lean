import P2PNetcat.Tunnels.Teardown

/-!
# The provider records of a token

A listener provides the records of three epochs of five minutes and does so again
every five minutes. A client looks for it in the three of its own clock.
-/

namespace P2PNetcat.Pairing
open List ByteCodec Fallible GoTime Hmac Sha256 Tunnels
variable {L : Libraries} {now : Time}

/-- A CID of version 1 for raw data, with its SHA-256 multihash. -/
def cidOf (id : List Char) : Bytes :=
  [0x01, 0x55, 0x12, 0x20] ++ sha256 (ascii "p2p-netcat:rendezvous:v1:" ++ Utf8.encode id)

def providerCID (rendezvousID : List Char) : Except String Bytes :=
  match Base64Url.decode true rendezvousID with
  | none => .error "invalid rendezvous identifier"
  | some decoded =>
    if decoded.length ≠ 32 ∨ Base64Url.encode decoded ≠ rendezvousID then
      .error "invalid rendezvous identifier"
    else .ok (cidOf rendezvousID)

theorem providerCID_encode {b : Bytes} (hb : b.length = 32) :
    providerCID (Base64Url.encode b) = .ok (cidOf (Base64Url.encode b)) := by
  rw [providerCID, Base64Url.decode_encode]
  exact if_neg (by simp [hb])

namespace Token
variable {t : Token L}

def rendezvousMessage (t : Token L) (purpose : String) (epoch : Nat) : Bytes :=
  ascii "p2p-netcat/rendezvous/v1" ++ 0 :: (ascii purpose ++ 0 :: (L.idString t.peerID ++
    0 :: (decimal t.service.toNat ++ 0 :: decimal epoch)))

def rendezvousID (t : Token L) (purpose : String) (epoch : UInt64) : Except String (List Char) :=
  if purpose ∉ ["dht", "pubsub", "signaling"] then
    .error ("unsupported rendezvous purpose: " ++ purpose)
  else do
    let key ← t.deriveKey "rendezvous"
    .ok (Base64Url.encode (hmac key (t.rendezvousMessage purpose epoch.toNat)))

def providerCIDs (t : Token L) (now : Time) : Except String (List Bytes) :=
  (providerEpochs now).mapM fun epoch => do
    let id ← t.rendezvousID "dht" epoch.toNat.toUInt64
    providerCID id

def digest (t : Token L) (epoch : Int) : Bytes :=
  hmac (hkdf t.secret (ascii "p2p-netcat/pairing/v1")
    (ascii ("p2p-netcat/" ++ "rendezvous" ++ "/v1"))) (t.rendezvousMessage "dht" epoch.toNat)

def record (t : Token L) (epoch : Int) : Bytes := cidOf (Base64Url.encode (t.digest epoch))

theorem length_digest (t : Token L) (epoch : Int) : (t.digest epoch).length = 32 := by
  rw [digest, length_hmac]

theorem rendezvousID_dht (t : Token L) {epoch : Int} (hepoch : epoch.toNat < 2 ^ 64) :
    t.rendezvousID "dht" epoch.toNat.toUInt64 = .ok (Base64Url.encode (t.digest epoch)) := by
  have hkey : t.deriveKey "rendezvous" = .ok (hkdf t.secret (ascii "p2p-netcat/pairing/v1")
      (ascii ("p2p-netcat/" ++ "rendezvous" ++ "/v1"))) := if_pos (by simp)
  have hnat : epoch.toNat.toUInt64.toNat = epoch.toNat := UInt64.toNat_ofNat_of_lt' hepoch
  rw [rendezvousID, if_neg (by simp), hnat, digest]
  exact bind_eq_ok.mpr ⟨_, hkey, rfl⟩

theorem mem_providerEpochs (hnow : 0 ≤ now.nanos) {epoch : Int} : epoch ∈ providerEpochs now ↔
    0 ≤ epoch ∧ now.toUnix / 300 - 1 ≤ epoch ∧ epoch ≤ now.toUnix / 300 + 1 := by
  have hunix : 0 ≤ now.toUnix := by
    rw [Time.toUnix_of_nonneg hnow, second]
    omega
  simp only [providerEpochs, Int.tdiv_eq_ediv_of_nonneg hunix, mem_filter, map_cons, map_nil,
    mem_cons, not_mem_nil, or_false, decide_eq_true_eq]
  omega

theorem providerCIDs_eq (hnow : 0 ≤ now.nanos) :
    t.providerCIDs now = .ok ((providerEpochs now).map t.record) := by
  have hrange : now.toUnix < 2 ^ 63 := (wrap64_range _).2
  rw [providerCIDs, mapM_eq_ok_iff, forall₂_map_right_iff, forall₂_same]
  intro epoch hepoch
  rw [mem_providerEpochs hnow] at hepoch
  rw [record]
  exact bind_eq_ok.mpr ⟨_, rendezvousID_dht t (by omega), providerCID_encode (length_digest ..)⟩

end Token

end P2PNetcat.Pairing
