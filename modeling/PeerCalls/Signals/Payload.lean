import PeerCalls.Go.Basic

/-!
# Signalling envelopes

The values the signaller reads and sends: pion's `webrtc.SDPType` (with
its `String()`), `SessionDescription`, `RTPCodecType`,
`RTPTransceiverDirection` and `ICECandidateInit` (the enumerations are Go
`int`s, whose zero value is `unknown`), and the `signals.Payload` envelope.
Its `Signal` field holds one of four dynamic types: a `Candidate`, a
`Renegotiate`, a `TransceiverRequest` or a session description; a value of
any other type is kept as the text `%#v` prints for it. `signals/payload.go`
is not in the sources: the envelope's shape and its constructors follow the
spec's wire format.
-/

namespace PeerCalls.Signals

open PeerCalls.Go

set_option autoImplicit false

inductive SDPType where
  | unknown
  | offer
  | pranswer
  | answer
  | rollback
deriving Repr, DecidableEq

def SDPType.toString : SDPType → String
  | unknown => "unknown"
  | offer => "offer"
  | pranswer => "pranswer"
  | answer => "answer"
  | rollback => "rollback"

structure SessionDescription where
  type : SDPType
  sdp : String
deriving Repr, DecidableEq

inductive RTPCodecType where
  | unknown
  | audio
  | video
deriving Repr, DecidableEq

inductive RTPTransceiverDirection where
  | unknown
  | sendrecv
  | sendonly
  | recvonly
  | inactive
deriving Repr, DecidableEq

structure ICECandidateInit where
  candidate : String
  sdpMid : Option String
  sdpMLineIndex : Option UInt16
  usernameFragment : String
deriving Repr, DecidableEq

inductive Signal where
  | candidate (candidate : ICECandidateInit)
  | renegotiate (renegotiate : Bool)
  | transceiverRequest (kind : RTPCodecType) (direction : RTPTransceiverDirection)
  | sessionDescription (description : SessionDescription)
  | other (goSyntax : String)
deriving Repr, DecidableEq

structure Payload where
  userID : String
  signal : Signal
deriving Repr, DecidableEq

/-- Modelled from the spec: `NewPayloadSDP(userID, sd)`, the envelope
`{userID, signal: {type, sdp}}`. -/
def newPayloadSDP (userID : String) (description : SessionDescription) : Payload :=
  ⟨userID, .sessionDescription description⟩

/-- Modelled from the spec: `NewPayloadRenegotiate(userID)`, the envelope
`{userID, signal: {renegotiate: true}}`. -/
def newPayloadRenegotiate (userID : String) : Payload :=
  ⟨userID, .renegotiate true⟩

/-- Modelled from the spec: `NewTransceiverRequest(userID, kind, direction)`,
the envelope `{userID, signal: {transceiverRequest: {kind, init: {direction}}}}`. -/
def newTransceiverRequest (userID : String) (kind : RTPCodecType)
    (direction : RTPTransceiverDirection) : Payload :=
  ⟨userID, .transceiverRequest kind direction⟩

end PeerCalls.Signals
