import WebSocketHost.Main
import WebSocketHost.Text.Utf8
import WebSocketHost.Frame
import WebSocketHost.Frame.Wire
import WebSocketHost.CloseCode
import WebSocketHost.CloseNotice
import WebSocketHost.Reassembly
import WebSocketHost.Session
import WebSocketHost.Text.Blank
import WebSocketHost.Text.Ascii
import WebSocketHost.Base64
import WebSocketHost.Sha1
import WebSocketHost.RequestHead.Reader
import WebSocketHost.Negotiation
import WebSocketHost.Text.Quoted
import WebSocketHost.Address.Socket
import WebSocketHost.Address.Choice
import WebSocketHost.Notification
import WebSocketHost.Registry
import WebSocketHost.Bus
import WebSocketHost.CommandLine
import WebSocketHost.Engine
import WebSocketHost.Proofs.Frame.RoundTrip
import WebSocketHost.Proofs.Session.Chunking
import WebSocketHost.Proofs.Reassembly.Push
import WebSocketHost.Proofs.Session.Stream
import WebSocketHost.Proofs.Session.Delivery
import WebSocketHost.Proofs.Session.Closing
import WebSocketHost.Proofs.Conversation.Agreement
import WebSocketHost.Proofs.Reassembly.Runs
import WebSocketHost.Proofs.Frame.Verdict
import WebSocketHost.Proofs.Frame.Normalisation
import WebSocketHost.Proofs.Hub.FanOut
import WebSocketHost.Proofs.Session.Traffic
import WebSocketHost.Proofs.Session.Ending
import WebSocketHost.Proofs.RequestHead.Steady
import WebSocketHost.Proofs.RequestHead.Lines
import WebSocketHost.Proofs.Negotiation.Literal
import WebSocketHost.Proofs.Negotiation.Arrival
import WebSocketHost.Proofs.Connection.Transition
import WebSocketHost.Proofs.Session.Next
import WebSocketHost.Proofs.Connection.Deadline
import WebSocketHost.Proofs.Connection.Refinement
import WebSocketHost.Proofs.Switchboard.Announcements
import WebSocketHost.Proofs.Switchboard.Bystander
import WebSocketHost.Proofs.Switchboard.Outbound
import WebSocketHost.Proofs.Engine.LifeCycle
import WebSocketHost.Proofs.Engine.CleanStop
import WebSocketHost.Proofs.Engine.Ports
import WebSocketHost.Proofs.Switchboard.Independence
import WebSocketHost.Proofs.Reassembly.Limits
import WebSocketHost.Proofs.Session.Bounds
import WebSocketHost.Proofs.RequestHead.Extent
import WebSocketHost.Proofs.RequestHead.Format
import WebSocketHost.Proofs.Engine.UncleanStop
import WebSocketHost.Proofs.Negotiation.Bounds
import WebSocketHost.Proofs.Text.Boundary
import WebSocketHost.Proofs.Session.CloseFrame
import WebSocketHost.Proofs.Base64.Canonical
import WebSocketHost.Proofs.Text.Tokens
import WebSocketHost.Proofs.RequestHead.Headers
import WebSocketHost.Proofs.Upgrade.Rewording
import WebSocketHost.Proofs.Upgrade.Granted
import WebSocketHost.Proofs.Certificate.Concealment
import WebSocketHost.Proofs.CommandLine.Validity
import WebSocketHost.Proofs.Switchboard.CloseTimeout
import WebSocketHost.Proofs.Engine.AbandonedStop
import WebSocketHost.Proofs.Upgrade.Advertised
import WebSocketHost.Proofs.Address.Least
import WebSocketHost.Proofs.Address.Identity
import WebSocketHost.Proofs.CommandLine.Layers
import WebSocketHost.Proofs.Json.Lines
import WebSocketHost.Proofs.Session.Handed
import WebSocketHost.Proofs.Switchboard.ClosesOnce
import WebSocketHost.Proofs.Engine.DrainTimeout
