import P2PNetcat.Library.Text

/-!
# Options of the root command

The values the flags of the root command set, and the combinations it refuses.
-/

namespace P2PNetcat.Cli
open GoText

/-- The defaults are those of the flags; `portChanged` and `udpIdleTimeoutChanged` say that the
flag was given. -/
structure Options where
  listen : Bool := false
  keepOpen : Bool := false
  timeout : Int := 60
  quitDelay : Int := 0
  destination : String := ""
  port : Int := 0
  portChanged : Bool := false
  quiet : Bool := false
  socks : Bool := false
  tor : Bool := false
  upstreamSOCKS : String := ""
  interactive : Bool := false
  zero : Bool := false
  exec : String := ""
  udp : Bool := false
  udpIdleTimeout : Int := 300
  udpIdleTimeoutChanged : Bool := false
  transportPort : Int := 0
  ipv4 : Bool := false
  ipv6 : Bool := false
  relays : List String := []
  noWebRTC : Bool := false
  allowUnauthenticatedListener : Bool := false
  allowUnauthenticatedNativeWebRTC : Bool := false
  pairingToken : String := ""
  pairingTokenFile : String := ""
  deriving DecidableEq

def privilegedListenerMode (opts : Options) : Bool :=
  opts.interactive || opts.exec ≠ "" || opts.socks || opts.port ≠ 0

def given (text : String) : Bool := trimSpace text.toList ≠ []

/-- `tokenVariable` is the value of `P2P_NETCAT_TOKEN`. -/
def pairingTokenConfigured (opts : Options) (tokenVariable : String) : Bool :=
  given opts.pairingToken || given opts.pairingTokenFile || given tokenVariable

def namesUDP (relay : String) : Bool :=
  relay.toList.tails.any fun rest => "/udp/".toList.isPrefixOf rest

def refusals (opts : Options) (tokenVariable : String) (args : List String) :
    List (Bool × String) :=
  [(opts.timeout ≤ 0, "-w/--timeout must be greater than zero"),
   (opts.quitDelay < 0 || opts.transportPort < 0 || opts.transportPort > 65535,
    "ports and delays cannot be negative"),
   (opts.udpIdleTimeout < 0, "--udp-idle-timeout cannot be negative"),
   (opts.udpIdleTimeoutChanged && !opts.udp, "--udp-idle-timeout requires -u/--udp"),
   (opts.port < 0 || opts.port > 65535 || (opts.portChanged && opts.port = 0),
    "-p/--port must be between 1 and 65535"),
   (opts.ipv4 && opts.ipv6, "-4 and -6 cannot be used together"),
   (opts.udp && opts.port = 0, "-u/--udp requires -p/--port for UDP forwarding"),
   (opts.udp && (opts.socks || opts.interactive || opts.zero || opts.exec ≠ "" ||
      opts.quitDelay ≠ 0), "-u cannot be combined with -S, -i, -z, -e, or --quit-delay"),
   (opts.keepOpen && !opts.listen, "-k/--keep-open is available only with -l"),
   (opts.zero && opts.listen, "-z/--zero is available only in client mode"),
   (opts.exec ≠ "" && !opts.listen, "-e is available only with -l"),
   (opts.exec ≠ "" && (opts.port ≠ 0 || opts.destination ≠ "" || opts.socks),
    "-e cannot be combined with -p, -d, or -S"),
   (opts.destination ≠ "" && (!opts.listen || opts.port = 0),
    "-d is available only with -l -p <port>"),
   (opts.socks && !opts.listen, "-S is available only with -l"),
   (opts.socks && (opts.destination ≠ "" || opts.port ≠ 0),
    "-S cannot be combined with server-side -d/-p"),
   (opts.interactive && (opts.exec ≠ "" || opts.socks || opts.port ≠ 0 || opts.destination ≠ ""),
    "-i cannot be combined with -e, -S, -p, or -d"),
   (!opts.listen && opts.port ≠ 0 && (opts.interactive || opts.zero),
    "client-side -p cannot be combined with -i or -z"),
   (opts.tor && opts.listen, "-T is supported only in client mode"),
   (opts.quitDelay ≠ 0 && (opts.port ≠ 0 || opts.socks || opts.interactive || opts.zero ||
      opts.exec ≠ ""), "--quit-delay is available only for raw stream mode"),
   (opts.tor && opts.relays.isEmpty, "-T requires an explicit --relay"),
   (opts.tor && opts.relays.any namesUDP, "Tor cannot carry QUIC/UDP; use a TCP/WS/WSS relay"),
   (opts.listen && args.length > 1, "listener mode accepts only a logical port: p2p-nc -l 8080"),
   (opts.allowUnauthenticatedListener && (!opts.listen || !privilegedListenerMode opts),
    "--allow-unauthenticated-listener requires -l with -i, -e, -S, or -p"),
   (opts.listen && privilegedListenerMode opts && !pairingTokenConfigured opts tokenVariable &&
      !opts.allowUnauthenticatedListener,
    "privileged listener modes require a pairing token; use --allow-unauthenticated-listener only if public access is intended"),
   (opts.tor && opts.upstreamSOCKS ≠ "", "-T/--tor and --upstream-socks cannot be combined"),
   (opts.allowUnauthenticatedNativeWebRTC && (opts.noWebRTC || opts.tor),
    "--allow-unauthenticated-native-webrtc cannot be combined with --no-webrtc or -T/--tor")]

def validateOptions (opts : Options) (tokenVariable : String) (args : List String) :
    Except String Unit :=
  match (refusals opts tokenVariable args).find? (·.1) with
  | some (_, err) => .error err
  | none => .ok ()

theorem validateOptions_ok_iff {opts : Options} {tokenVariable : String} {args : List String} :
    validateOptions opts tokenVariable args = .ok () ↔
      ∀ rule ∈ refusals opts tokenVariable args, rule.1 = false := by
  rw [validateOptions]
  constructor
  · intro h
    split at h
    · cases h
    rename_i hnone
    intro rule hrule
    exact Bool.eq_false_iff.mpr (List.find?_eq_none.mp hnone rule hrule)
  · intro h
    have hnone : (refusals opts tokenVariable args).find? (·.1) = none :=
      List.find?_eq_none.mpr fun rule hrule => Bool.eq_false_iff.mp (h rule hrule)
    rw [hnone]

end P2PNetcat.Cli
