import P2PNetcat.Library.Text
import P2PNetcat.Library.Fallible
import Mathlib.Data.List.Nodup
import Mathlib.Data.List.Pairwise

/-!
# Tunnel configuration

The schema of the multi-tunnel daemon and its validation, with the texts of
its errors.
-/

namespace P2PNetcat.Tunnels
open List GoText Fallible

/-- `other` holds any text that names no known type. -/
inductive TunnelType where
  | forward | socks | pty | exec
  | other (text : String)
  deriving DecidableEq

def TunnelType.text : TunnelType → String
  | .forward => "forward"
  | .socks => "socks"
  | .pty => "pty"
  | .exec => "exec"
  | .other text => text

inductive Mode where
  | server | client
  | other (text : String)
  deriving DecidableEq

inductive Protocol where
  | tcp | udp
  | other (text : String)
  deriving DecidableEq

structure Relay where
  addr : String
  priority : Int
  deriving DecidableEq

structure Tunnel where
  name : String
  type : TunnelType
  mode : Mode
  logicalPort : UInt16
  protocol : Protocol := .other ""
  target : String := ""
  listen : String := ""
  peer : String := ""
  exec : String := ""
  tokenFile : String := ""
  allowUnauthenticated : Bool := false
  deriving DecidableEq

structure Config where
  identity : String := ""
  relays : List Relay := []
  fallbackToPublicDHT : Option Bool := none
  upstreamSOCKS : String := ""
  tunnels : List Tunnel
  deriving DecidableEq

def blank (text : String) : Bool := trimSpace text.toList = []

def validPort (text : List Char) : Bool :=
  match atoi text with
  | some value => 1 ≤ value && value ≤ 65535
  | none => false

def checkType (t : Tunnel) : Except String Unit :=
  match t.type with
  | .forward | .socks | .pty | .exec => .ok ()
  | .other "" => .error "type is required (forward, socks, pty, or exec)"
  | .other text => .error ("unknown type " ++ quote text)

def checkMode (t : Tunnel) : Except String Unit :=
  match t.mode with
  | .server | .client => .ok ()
  | .other "" => .error "mode is required (server or client)"
  | .other text => .error ("unknown mode " ++ quote text)

def checkPort (t : Tunnel) : Except String Unit :=
  if t.logicalPort = 0 then .error "logical_port must be between 1 and 65535" else .ok ()

def checkClient (t : Tunnel) : Except String Unit :=
  if t.mode = .client then
    if t.type = .socks ∨ t.type = .pty ∨ t.type = .exec then
      .error ("type " ++ quote t.type.text ++ " is server-only")
    else if blank t.peer then .error "peer is required in client mode"
    else .ok ()
  else .ok ()

def checkAddress (field required value : String) : Except String Unit :=
  if blank value then .error required
  else
    match splitHostPort value.toList with
    | .error err => .error (field ++ ": " ++ err)
    | .ok (_, port) =>
      if validPort port then .ok ()
      else .error (field ++ ": invalid port " ++ quote (String.ofList port))

def checkFields (t : Tunnel) : Except String Unit :=
  match t.type with
  | .forward =>
    if t.protocol ≠ .tcp ∧ t.protocol ≠ .udp then
      .error "protocol must be \"tcp\" or \"udp\" for a forward tunnel"
    else if t.mode = .server then
      checkAddress "target" "target is required for a server forward tunnel" t.target
    else checkAddress "listen" "listen is required for a client forward tunnel" t.listen
  | .exec => if blank t.exec then .error "exec is required for an exec tunnel" else .ok ()
  | _ => .ok ()

def checkToken (t : Tunnel) : Except String Unit :=
  if t.mode = .server ∧ t.type ≠ .forward ∧ !t.allowUnauthenticated ∧ blank t.tokenFile then
    .error ("type " ++ quote t.type.text ++
      " requires token_file, or explicit allow_unauthenticated: true")
  else .ok ()

def Tunnel.validate (t : Tunnel) : Except String Unit := do
  checkType t
  checkMode t
  checkPort t
  checkClient t
  checkFields t
  checkToken t

def orIndex (name : String) (i : Nat) : String := if name = "" then "#" ++ toString i else name

def checkRelays : Nat → List Relay → Except String Unit
  | _, [] => .ok ()
  | i, relay :: rest =>
    if blank relay.addr then .error ("relays[" ++ toString i ++ "]: addr is required")
    else checkRelays (i + 1) rest

/-- The loop over the tunnels; `names` and `serverPorts` are its two maps. -/
def checkTunnels : Nat → List (String × Nat) → List (UInt16 × String) → List Tunnel →
    Except String Unit
  | _, _, _, [] => .ok ()
  | i, names, serverPorts, t :: rest =>
    match t.validate with
    | .error err => .error ("tunnels[" ++ toString i ++ "] (" ++ orIndex t.name i ++ "): " ++ err)
    | .ok () =>
      if t.name = "" then .error ("tunnels[" ++ toString i ++ "]: name is required")
      else
        match names.lookup t.name with
        | some prev => .error ("tunnels[" ++ toString i ++ "] (" ++ t.name ++
            "): name duplicates tunnels[" ++ toString prev ++ "]")
        | none =>
          if t.mode = .server then
            match serverPorts.lookup t.logicalPort with
            | some prev => .error ("tunnels[" ++ toString i ++ "] (" ++ t.name ++
                "): logical_port " ++ toString t.logicalPort.toNat ++
                " already used by server tunnel " ++ quote prev)
            | none =>
              checkTunnels (i + 1) ((t.name, i) :: names) ((t.logicalPort, t.name) :: serverPorts) rest
          else checkTunnels (i + 1) ((t.name, i) :: names) serverPorts rest

def checkUpstream (upstreamSOCKS : String) : Except String Unit :=
  if upstreamSOCKS = "" then .ok ()
  else
    match splitHostPort upstreamSOCKS.toList with
    | .error err => .error ("upstream_socks: " ++ err)
    | .ok _ => .ok ()

def Config.validate (c : Config) : Except String Unit :=
  if c.tunnels = [] then .error "tunnel config: at least one tunnel is required"
  else do
    checkUpstream c.upstreamSOCKS
    checkRelays 0 c.relays
    checkTunnels 0 [] [] c.tunnels

/-- The loop has checked each tunnel, found no name twice and none that `names` already holds. -/
theorem checkTunnels_ok {i : Nat} {names : List (String × Nat)}
    {serverPorts : List (UInt16 × String)} {tunnels : List Tunnel}
    (h : checkTunnels i names serverPorts tunnels = .ok ()) :
    (tunnels.map Tunnel.name).Nodup ∧
      (∀ t ∈ tunnels, t.validate = .ok () ∧ t.name ≠ "" ∧ names.lookup t.name = none) := by
  induction tunnels generalizing i names serverPorts with
  | nil => simp
  | cons t rest ih =>
    -- Both continuations add the name to the map, so one statement covers them.
    have key : ∀ ports, checkTunnels (i + 1) ((t.name, i) :: names) ports rest = .ok () →
        t.validate = .ok () → t.name ≠ "" → names.lookup t.name = none →
        ((t :: rest).map Tunnel.name).Nodup ∧ (∀ u ∈ t :: rest,
          u.validate = .ok () ∧ u.name ≠ "" ∧ names.lookup u.name = none) := by
      intro ports hrest hvalid hname hnew
      obtain ⟨hnodup, hall⟩ := ih hrest
      have hother : ∀ u ∈ rest, u.name ≠ t.name ∧ names.lookup u.name = none := by
        intro u hu
        have hlookup := (hall u hu).2.2
        rw [lookup_cons] at hlookup
        split at hlookup
        · cases hlookup
        next hne =>
          exact ⟨by simpa using hne, hlookup⟩
      refine ⟨?_, ?_⟩
      · rw [map_cons, nodup_cons]
        refine ⟨?_, hnodup⟩
        intro hmem
        obtain ⟨u, hu, heq⟩ := mem_map.mp hmem
        exact (hother u hu).1 heq
      · intro u hu
        rcases mem_cons.mp hu with rfl | hu
        · exact ⟨hvalid, hname, hnew⟩
        · exact ⟨(hall u hu).1, (hall u hu).2.1, (hother u hu).2⟩
    simp only [checkTunnels] at h
    split at h
    · cases h
    rename_i hvalid
    split at h
    · cases h
    rename_i hname
    split at h
    · cases h
    rename_i hnew
    split at h
    · split at h
      · cases h
      · exact key _ h hvalid hname hnew
    · exact key _ h hvalid hname hnew

/-- The loop has found no port of a server tunnel twice and none that `serverPorts` already holds. -/
theorem checkTunnels_ports {i : Nat} {names : List (String × Nat)}
    {serverPorts : List (UInt16 × String)} {tunnels : List Tunnel}
    (h : checkTunnels i names serverPorts tunnels = .ok ()) :
    tunnels.Pairwise (fun t u => t.mode = .server → u.mode = .server →
        t.logicalPort ≠ u.logicalPort) ∧
      ∀ t ∈ tunnels, t.mode = .server → serverPorts.lookup t.logicalPort = none := by
  induction tunnels generalizing i names serverPorts with
  | nil => simp
  | cons t rest ih =>
    simp only [checkTunnels] at h
    split at h
    · cases h
    split at h
    · cases h
    split at h
    · cases h
    split at h
    · split at h
      · cases h
      next hserver _ hfree =>
        obtain ⟨hpair, hrest⟩ := ih h
        -- the port of this tunnel is in the map when the rest is checked
        have hother : ∀ u ∈ rest, u.mode = .server →
            u.logicalPort ≠ t.logicalPort ∧ serverPorts.lookup u.logicalPort = none := by
          intro u hu hmode
          have hlookup := hrest u hu hmode
          rw [lookup_cons] at hlookup
          split at hlookup
          · cases hlookup
          next hne =>
            exact ⟨by simpa using hne, hlookup⟩
        refine ⟨pairwise_cons.mpr ⟨?_, hpair⟩, ?_⟩
        · intro u hu _ hmode
          exact (hother u hu hmode).1.symm
        · intro u hu hmode
          rcases mem_cons.mp hu with rfl | hu
          · exact hfree
          · exact (hother u hu hmode).2
    next hclient =>
      obtain ⟨hpair, hrest⟩ := ih h
      refine ⟨pairwise_cons.mpr ⟨fun u _ hserver => absurd hserver hclient, hpair⟩, ?_⟩
      intro u hu hmode
      rcases mem_cons.mp hu with rfl | hu
      · exact absurd hmode hclient
      · exact hrest u hu hmode

section Validated
variable {c : Config} (h : c.validate = .ok ())
include h

theorem Config.checked : c.tunnels ≠ [] ∧ checkTunnels 0 [] [] c.tunnels = .ok () := by
  rw [validate, ite_error_eq_ok] at h
  obtain ⟨hne, h⟩ := h
  simp only [bind_eq_ok] at h
  obtain ⟨_, -, _, -, h⟩ := h
  exact ⟨hne, h⟩

theorem Config.validate_ok :
    c.tunnels ≠ [] ∧ (c.tunnels.map Tunnel.name).Nodup ∧
      ∀ t ∈ c.tunnels, t.validate = .ok () := by
  obtain ⟨hnodup, hall⟩ := checkTunnels_ok (checked h).2
  exact ⟨(checked h).1, hnodup, fun t ht => (hall t ht).1⟩

theorem Config.server_port_unique {t u : Tunnel}
    (ht : t ∈ c.tunnels) (hu : u ∈ c.tunnels) (htmode : t.mode = .server)
    (humode : u.mode = .server) (hport : t.logicalPort = u.logicalPort) : t = u := by
  have hpair := (checkTunnels_ports (checked h).2).1
  have hsymm : Std.Symm fun t u : Tunnel => t.mode = .server → u.mode = .server →
      t.logicalPort ≠ u.logicalPort := ⟨fun _ _ hne hu ht heq => hne ht hu heq.symm⟩
  refine Classical.byContradiction fun hne => ?_
  exact hpair.forall ht hu hne htmode humode hport

end Validated

theorem logicalPort_ne_zero {t : Tunnel} (h : t.validate = .ok ()) : t.logicalPort ≠ 0 := by
  rw [Tunnel.validate] at h
  obtain ⟨_, _, h⟩ := bind_eq_ok.mp h
  obtain ⟨_, _, h⟩ := bind_eq_ok.mp h
  obtain ⟨_, hport, _⟩ := bind_eq_ok.mp h
  exact (ite_error_eq_ok.mp hport).1

end P2PNetcat.Tunnels
