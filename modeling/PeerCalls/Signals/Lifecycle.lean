import PeerCalls.Signals.Emission

/-!
# Opening and closing a signaller

`NewSignaller` registers the default codecs if it is the initiator, pre-adds
a receive-only video and then audio transceiver, stopping at the first
failure, and only then lets the initiator negotiate. `Close` goes through
`closeOnce`: over any run, whatever the ICE state changes and the explicit
calls, the peer connection is closed at most once, and never again once the
latch is set. The latch fires on `Close` and on the ICE connection states
closed, disconnected and failed, and on nothing else.
-/

namespace PeerCalls.Signals

open PeerCalls.Go

set_option autoImplicit false

/-! ## Opening -/

/-- What `initialize` does after the initiator's codec registration. -/
inductive InitLaw (s : Signaller) : List Call → Option GoError → Prop
  | videoFailed (err : GoError) :
    InitLaw s [.addTransceiverFromKind .video .recvonly (some err)]
      (some (.errorf (s.tagged "NewSignaller: Error pre-adding video transceiver: ") err))
  | audioFailed (err : GoError) :
    InitLaw s [.addTransceiverFromKind .video .recvonly none,
        .addTransceiverFromKind .audio .recvonly (some err)]
      (some (.errorf (s.tagged "NewSignaller: Error pre-adding audio transceiver: ") err))
  | ready :
    InitLaw s ([.addTransceiverFromKind .video .recvonly none,
        .addTransceiverFromKind .audio .recvonly none] ++ if s.initiator then [.negotiate] else [])
      none

theorem preAddTransceivers_law (pc : Peer) (s : Signaller) (history : List Call) :
    ∃ calls, ((s.preAddTransceivers pc).run history).2 = history ++ calls ∧
      InitLaw s calls ((s.preAddTransceivers pc).run history).1 := by
  simp only [Signaller.preAddTransceivers, Peer.AddTransceiverFromKind, ask_bind_run]
  split
  next err video => rw [video]; exact ⟨_, rfl, .videoFailed err⟩
  next video =>
  rw [Option.eq_none_iff_forall_not_mem.mpr video]
  simp only [pure_bind, ask_bind_run, List.append_assoc, List.singleton_append]
  split
  next err audio => rw [audio]; exact ⟨_, rfl, .audioFailed err⟩
  next audio =>
  rw [Option.eq_none_iff_forall_not_mem.mpr audio]
  have law : InitLaw s _ none := .ready
  cases initiator : s.initiator <;>
    simp only [initiator, Bool.false_eq_true, if_true, if_false] at law ⊢ <;>
    exact ⟨_, by simp [Signaller.negotiate], law⟩

theorem initializeSignaller_run (pc : Peer) (s : Signaller) (history : List Call) :
    (s.initializeSignaller pc).run history =
      (s.preAddTransceivers pc).run
        (history ++ if s.initiator then [.registerDefaultCodecs] else []) := by
  cases initiator : s.initiator <;> simp [Signaller.initializeSignaller, initiator]

/-- `NewSignaller` registers the default codecs first if it is the initiator,
then pre-adds a receive-only video and then audio transceiver, stopping at
the first failure, which it returns; only when both succeed does the
initiator start negotiating. -/
theorem newSignaller_law (pc : Peer) (initiator : Bool) (localPeerID remotePeerID : String)
    (history : List Call) :
    ((newSignaller pc initiator localPeerID remotePeerID).run history).1.1 =
        ⟨initiator, localPeerID, remotePeerID⟩ ∧
    ∃ calls, ((newSignaller pc initiator localPeerID remotePeerID).run history).2 =
        history ++ (if initiator then [.registerDefaultCodecs] else []) ++ calls ∧
      InitLaw ⟨initiator, localPeerID, remotePeerID⟩ calls
        ((newSignaller pc initiator localPeerID remotePeerID).run history).1.2 := by
  obtain ⟨calls, extends_, law⟩ :=
    preAddTransceivers_law pc ⟨initiator, localPeerID, remotePeerID⟩
      (history ++ if initiator then [.registerDefaultCodecs] else [])
  refine ⟨rfl, calls, ?_, ?_⟩
  · simpa [newSignaller, initializeSignaller_run] using extends_
  · simpa [newSignaller, initializeSignaller_run] using law

/-! ## Closing -/

def Call.closesPeer : Call → Bool
  | .closePeerConnection _ => true
  | _ => false

/-- The entry points that fire `closeOnce`: `Close`, and an ICE connection
state of closed, disconnected or failed. -/
def Input.requestsClose {PayloadMap : Type} : Input PayloadMap → Bool
  | .close => true
  | .iceConnectionStateChange state =>
    decide (state = .closed ∨ state = .disconnected ∨ state = .failed)
  | _ => false

theorem AnswersOffer.countP_closesPeer {s : Signaller} {offer : SessionDescription}
    {calls : List Call} {result : Option GoError} (law : AnswersOffer s offer calls result) :
    calls.countP Call.closesPeer = 0 := by
  cases law <;> rfl

theorem SignalLaw.countP_closesPeer {s : Signaller} {parsed : Except GoError Payload}
    {calls : List Call} {result : Option GoError} (law : SignalLaw s parsed calls result) :
    calls.countP Call.closesPeer = 0 := by
  cases law with
  | offer _ _ _ answers => exact answers.countP_closesPeer
  | _ => rfl

theorem LocalOfferLaw.countP_closesPeer {s : Signaller} {offer : SessionDescription}
    {err : Option GoError} {calls : List Call} (law : LocalOfferLaw s offer err calls) :
    calls.countP Call.closesPeer = 0 := by
  cases law <;> rfl

section

variable {PayloadMap : Type} (newPayloadFromMap : PayloadMap → Except GoError Payload)
  (pc : Peer) (s : Signaller) (history : List Call)

/-- One entry point closes the peer connection only if `closeOnce` has not
fired, and then sets it; nothing clears it. -/
theorem step_closesPeer (closed : Bool) (input : Input PayloadMap) :
    ∃ calls, ((step newPayloadFromMap pc s closed input).run history).2 = history ++ calls ∧
      calls.countP Call.closesPeer =
        (if closed then 0
          else if ((step newPayloadFromMap pc s closed input).run history).1.1 then 1 else 0) ∧
      (closed = true → ((step newPayloadFromMap pc s closed input).run history).1.1 = true) := by
  cases input with
  | signal payload =>
    obtain ⟨calls, extends_, law⟩ := signal_law newPayloadFromMap pc s history payload
    exact ⟨calls, extends_, by cases closed <;> exact law.countP_closesPeer, id⟩
  | localOffer offer err =>
    obtain ⟨calls, extends_, law⟩ := handleLocalOffer_law pc s history offer err
    exact ⟨calls, extends_, by cases closed <;> exact law.countP_closesPeer, id⟩
  | iceConnectionStateChange state =>
    by_cases closing : state = .closed ∨ state = .disconnected ∨ state = .failed <;>
      cases closed <;> simp [step, Signaller.handleICEConnectionStateChange, Signaller.close,
        Peer.Close, closing, Call.closesPeer]
  | close =>
    simp only [step, Signaller.close, Peer.Close]
    cases closed <;> simp [Call.closesPeer]
  | _ => cases closed <;> simp [step, Signaller.handleLocalRequestNegotiation,
      Signaller.sendTransceiverRequest, Signaller.negotiate, Call.closesPeer] <;> split <;> simp

theorem step_latch (closed : Bool) (input : Input PayloadMap) :
    ((step newPayloadFromMap pc s closed input).run history).1.1 =
      (closed || input.requestsClose) := by
  cases input with
  | iceConnectionStateChange state =>
    by_cases closing : state = .closed ∨ state = .disconnected ∨ state = .failed <;>
      cases closed <;> simp [step, Signaller.handleICEConnectionStateChange, Signaller.close,
        Peer.Close, Input.requestsClose, closing]
  | close => cases closed <;> simp [step, Signaller.close, Peer.Close, Input.requestsClose]
  | _ => simp [step, Input.requestsClose]

/-- Over any run, `closeOnce` keeps `PeerConnection.Close` to at most one
call: none if it had already fired, else one exactly when it fires during
the run. -/
theorem close_at_most_once (closed : Bool) (inputs : List (Input PayloadMap)) :
    ((run newPayloadFromMap pc s closed history inputs).flatMap Step.calls).countP Call.closesPeer =
      (if closed then 0
        else if (exec newPayloadFromMap pc s closed history inputs).1 then 1 else 0) ∧
    (closed = true → (exec newPayloadFromMap pc s closed history inputs).1 = true) := by
  induction inputs generalizing closed history with
  | nil => cases closed <;> simp [run, exec]
  | cons input inputs ih =>
    obtain ⟨calls, extends_, count, latched⟩ :=
      step_closesPeer newPayloadFromMap pc s history closed input
    obtain ⟨restCount, restLatched⟩ :=
      ih (history ++ calls) ((step newPayloadFromMap pc s closed input).run history).1.1
    simp only [run, exec, extends_, List.drop_left, List.flatMap_cons, List.countP_append, count,
      restCount]
    revert latched restLatched
    generalize ((step newPayloadFromMap pc s closed input).run history).1.1 = stepped
    generalize (exec newPayloadFromMap pc s stepped (history ++ calls) inputs).1 = final
    cases closed <;> cases stepped <;> cases final <;> simp

/-- `closeOnce` has fired after a run exactly when it had before, or the run
called `Close` or saw the ICE connection closed, disconnected or failed; no
other entry point fires it. -/
theorem close_fires_iff_requested (closed : Bool) (inputs : List (Input PayloadMap)) :
    (exec newPayloadFromMap pc s closed history inputs).1 =
      (closed || inputs.any Input.requestsClose) := by
  induction inputs generalizing closed history with
  | nil => simp [exec]
  | cons input inputs ih => simp only [exec, ih, step_latch, List.any_cons, Bool.or_assoc]

end

end PeerCalls.Signals
