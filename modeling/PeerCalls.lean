import PeerCalls.Go.Basic
import PeerCalls.Go.Path
import PeerCalls.Go.Clean
import PeerCalls.Go.Strconv
import PeerCalls.WsHandler.HandleRoom
import PeerCalls.WsHandler.Teardown
import PeerCalls.WsHandler.Route
import PeerCalls.WsHandler.Lifecycle
import PeerCalls.WsHandler.Rooms
import PeerCalls.WsHandler.Registry
import PeerCalls.Signals.Payload
import PeerCalls.Signals.Signaller
import PeerCalls.Signals.Emission
import PeerCalls.Signals.Lifecycle
import PeerCalls.Signals.Negotiator
import PeerCalls.Signals.Negotiation
import PeerCalls.Config.Read
import PeerCalls.Config.Fields
import PeerCalls.Config.Environment
