import P2PNetcat.Cli.Arguments
import P2PNetcat.Cli.Listener
import P2PNetcat.Cli.LoadToken
import P2PNetcat.Cli.OpenStream
import P2PNetcat.Cli.RouteRace
import P2PNetcat.Identity.FirstStart
import P2PNetcat.NativeWebRTC.Deadlock
import P2PNetcat.NativeWebRTC.FlowControl
import P2PNetcat.NativeWebRTC.Forwarding
import P2PNetcat.NativeWebRTC.FrameQueue
import P2PNetcat.NativeWebRTC.GraceTimer
import P2PNetcat.NativeWebRTC.HandshakeLimits
import P2PNetcat.NativeWebRTC.Integrity
import P2PNetcat.NativeWebRTC.ListenerScript
import P2PNetcat.NativeWebRTC.NostrScript
import P2PNetcat.NativeWebRTC.Ownership
import P2PNetcat.NativeWebRTC.Reattachment
import P2PNetcat.NativeWebRTC.ReceiveQueue
import P2PNetcat.NativeWebRTC.Session
import P2PNetcat.NativeWebRTC.StreamReads
import P2PNetcat.NativeWebRTC.StreamScript
import P2PNetcat.NativeWebRTC.WireScript
import P2PNetcat.Protocol.AdmissionNetwork
import P2PNetcat.Protocol.AuthenticatedStream
import P2PNetcat.Protocol.Datagram
import P2PNetcat.Protocol.Pty
import P2PNetcat.Protocol.Rendezvous
import P2PNetcat.Protocol.RouteRecordAgreement
import P2PNetcat.Protocol.RouteRecordSign
import P2PNetcat.Protocol.Tokenfile
import P2PNetcat.Session.Exec
import P2PNetcat.Session.PtyInput
import P2PNetcat.Session.Udp
import P2PNetcat.Tunnels.RelayOrder
import P2PNetcat.Tunnels.ReloadLocks
import P2PNetcat.Tunnels.Watch
import P2PNetcat.Web.BrowserClient
