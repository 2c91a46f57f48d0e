import PeerCalls.Signals.Payload

/-!
# The signaller

`signals.Signaller` binds one peer connection to the room-level relay.
Its collaborators answer through a `Peer`: what `PeerConnection` and
`MediaEngine` return is any function of all the calls made before, so one
`Peer` stands for any pattern of success and failure over a run. A `Call`
is one effect with what it returned; `negotiate` and `addTransceiverRequest`
record `negotiator.Negotiate()` and `negotiator.AddTransceiverFromKind`, and
`onSignal` records the callback `s.onSignal(payload)`.

The negotiator is not in the sources. Here the signaller's calls on it are
recorded, and its two callbacks, `handleLocalOffer` and
`handleLocalRequestNegotiation`, arrive as inputs of a run like `Signal`
does; `Signals.Negotiator` models the negotiator itself from the spec. The
parser `NewPayloadFromMap` is not in the sources either and is a parameter.
Log lines are left out: no branch reads them.

`Signaller` holds `signals.Signaller`'s fixed fields. Its one mutable field,
`closeOnce`, is passed alongside as whether it has fired: `close` closes the
peer connection and the channel the first time only. `tagged` puts
`"[" + remotePeerID + "] "` before the text of an error the signaller makes.
-/

namespace PeerCalls.Signals

open PeerCalls.Go

set_option autoImplicit false

inductive ICEConnectionState where
  | unknown
  | new
  | checking
  | connected
  | completed
  | disconnected
  | failed
  | closed
deriving Repr, DecidableEq

inductive Call where
  | registerDefaultCodecs
  | populateFromSDP (description : SessionDescription) (err : Option GoError)
  | addICECandidate (candidate : ICECandidateInit) (err : Option GoError)
  | addTransceiverFromKind (kind : RTPCodecType) (direction : RTPTransceiverDirection)
      (err : Option GoError)
  | setRemoteDescription (description : SessionDescription) (err : Option GoError)
  | setLocalDescription (description : SessionDescription) (err : Option GoError)
  | createAnswer (answer : SessionDescription) (err : Option GoError)
  | createOffer (offer : SessionDescription) (err : Option GoError)
  | closePeerConnection (err : Option GoError)
  | closeChannel
  | negotiate
  | addTransceiverRequest (kind : RTPCodecType) (direction : RTPTransceiverDirection)
  | onSignal (payload : Payload)
deriving Repr, DecidableEq

/-- What the peer connection and the media engine answer, given every call
made before. -/
structure Peer where
  addICECandidate : List Call → ICECandidateInit → Option GoError
  addTransceiverFromKind : List Call → RTPCodecType → RTPTransceiverDirection → Option GoError
  setRemoteDescription : List Call → SessionDescription → Option GoError
  setLocalDescription : List Call → SessionDescription → Option GoError
  createAnswer : List Call → SessionDescription × Option GoError
  close : List Call → Option GoError
  populateFromSDP : List Call → SessionDescription → Option GoError

abbrev SignalM := StateM (List Call)

def record (c : Call) : SignalM Unit :=
  modify (· ++ [c])

def ask {α : Type} (answer : List Call → α) (recorded : α → Call) : SignalM α := do
  let result := answer (← get)
  record (recorded result)
  return result

@[simp] theorem pure_run {α : Type} (a : α) (history : List Call) :
    (pure a : SignalM α).run history = (a, history) := rfl

@[simp] theorem record_run (c : Call) (history : List Call) :
    (record c).run history = ((), history ++ [c]) := rfl

@[simp] theorem record_bind_run {β : Type} (c : Call) (k : Unit → SignalM β)
    (history : List Call) :
    (record c >>= k).run history = (k ()).run (history ++ [c]) := rfl

@[simp] theorem ask_run {α : Type} (answer : List Call → α) (recorded : α → Call)
    (history : List Call) :
    (ask answer recorded).run history = (answer history, history ++ [recorded (answer history)]) :=
  rfl

@[simp] theorem ask_bind_run {α β : Type} (answer : List Call → α) (recorded : α → Call)
    (k : α → SignalM β) (history : List Call) :
    (ask answer recorded >>= k).run history =
      (k (answer history)).run (history ++ [recorded (answer history)]) := rfl

namespace Peer

variable (pc : Peer)

def AddICECandidate (candidate : ICECandidateInit) : SignalM (Option GoError) :=
  ask (pc.addICECandidate · candidate) (.addICECandidate candidate)

def AddTransceiverFromKind (kind : RTPCodecType) (direction : RTPTransceiverDirection) :
    SignalM (Option GoError) :=
  ask (pc.addTransceiverFromKind · kind direction) (.addTransceiverFromKind kind direction)

def SetRemoteDescription (description : SessionDescription) : SignalM (Option GoError) :=
  ask (pc.setRemoteDescription · description) (.setRemoteDescription description)

def SetLocalDescription (description : SessionDescription) : SignalM (Option GoError) :=
  ask (pc.setLocalDescription · description) (.setLocalDescription description)

def CreateAnswer : SignalM (SessionDescription × Option GoError) :=
  ask pc.createAnswer fun result => .createAnswer result.1 result.2

def Close : SignalM (Option GoError) :=
  ask pc.close .closePeerConnection

def PopulateFromSDP (description : SessionDescription) : SignalM (Option GoError) :=
  ask (pc.populateFromSDP · description) (.populateFromSDP description)

end Peer

structure Signaller where
  initiator : Bool
  localPeerID : String
  remotePeerID : String
deriving Repr, DecidableEq

namespace Signaller

variable (pc : Peer) (s : Signaller)

def tagged (text : String) : String :=
  "[" ++ s.remotePeerID ++ "] " ++ text

def negotiate : SignalM Unit :=
  record .negotiate

/-- The part of `initialize` after the initiator's codec registration. -/
def preAddTransceivers : SignalM (Option GoError) := do
  if let some err ← pc.AddTransceiverFromKind .video .recvonly then
    return some (.errorf (s.tagged "NewSignaller: Error pre-adding video transceiver: ") err)
  if let some err ← pc.AddTransceiverFromKind .audio .recvonly then
    return some (.errorf (s.tagged "NewSignaller: Error pre-adding audio transceiver: ") err)
  if s.initiator then
    negotiate
  return none

/-- `initialize`, renamed: the word is reserved in Lean. -/
def initializeSignaller : SignalM (Option GoError) := do
  if s.initiator then
    record .registerDefaultCodecs
  s.preAddTransceivers pc

def close (closed : Bool) : SignalM (Bool × Option GoError) := do
  if closed then
    return (true, none)
  let err ← pc.Close
  record .closeChannel
  return (true, err)

def handleICEConnectionStateChange (closed : Bool) (state : ICEConnectionState) : SignalM Bool := do
  if state = .closed ∨ state = .disconnected ∨ state = .failed then
    let (closed, _) ← close pc closed
    return closed
  return closed

def handleTransceiverRequest (kind : RTPCodecType) : SignalM Unit :=
  record (.addTransceiverRequest kind .sendrecv)

def handleRemoteOffer (description : SessionDescription) : SignalM (Option GoError) := do
  if let some err ← pc.PopulateFromSDP description then
    return some (.errorf (s.tagged "Error populating codec info from SDP: ") err)
  if let some err ← pc.SetRemoteDescription description then
    return some (.wrapf (s.tagged "Error setting remote description: ") err)
  let (answer, err) ← pc.CreateAnswer
  if let some err := err then
    return some (.wrapf (s.tagged "Error creating answer: ") err)
  if let some err ← pc.SetLocalDescription answer then
    return some (.wrapf (s.tagged "Error setting local description: ") err)
  record (.onSignal (newPayloadSDP s.localPeerID answer))
  return none

def handleRemoteAnswer (description : SessionDescription) : SignalM (Option GoError) := do
  if let some err ← pc.SetRemoteDescription description then
    return some (.wrapf (s.tagged "Error setting remote description: ") err)
  return none

def handleRemoteSDP (description : SessionDescription) : SignalM (Option GoError) :=
  match description.type with
  | .offer => s.handleRemoteOffer pc description
  | .answer => s.handleRemoteAnswer pc description
  | type => return some (.new (s.tagged ("Unexpected sdp type: " ++ type.toString)))

section

variable {PayloadMap : Type} (newPayloadFromMap : PayloadMap → Except GoError Payload)

def signal (payload : PayloadMap) : SignalM (Option GoError) :=
  match newPayloadFromMap payload with
  | .error err => return some (.errorf "Error constructing signal from payload: " err)
  | .ok signalPayload =>
    match signalPayload.signal with
    | .candidate candidate => pc.AddICECandidate candidate
    | .renegotiate _ => do
      negotiate
      return none
    | .transceiverRequest kind _ => do
      handleTransceiverRequest kind
      return none
    | .sessionDescription description => s.handleRemoteSDP pc description
    | .other goSyntax => return some (.new (s.tagged ("Unexpected signal: " ++ goSyntax ++ " ")))

end

def handleLocalRequestNegotiation : SignalM Unit :=
  record (.onSignal (newPayloadRenegotiate s.localPeerID))

def handleLocalOffer (offer : SessionDescription) (err : Option GoError) : SignalM Unit := do
  if err.isSome then
    return
  if (← pc.SetLocalDescription offer).isSome then
    return
  record (.onSignal (newPayloadSDP s.localPeerID offer))

def sendTransceiverRequest (kind : RTPCodecType) (direction : RTPTransceiverDirection) :
    SignalM Unit := do
  if !s.initiator then
    record (.onSignal (newTransceiverRequest s.localPeerID kind direction))

end Signaller

def newSignaller (pc : Peer) (initiator : Bool) (localPeerID remotePeerID : String) :
    SignalM (Signaller × Option GoError) := do
  let s : Signaller := ⟨initiator, localPeerID, remotePeerID⟩
  return (s, ← s.initializeSignaller pc)

end PeerCalls.Signals
