import PeerCalls.Signals.Signaller

/-!
# Every SDP the signaller sends is one it has just installed

A run of the signaller is any sequence of its entry points: `Signal` with
any payload, the negotiator's two callbacks, `SendTransceiverRequest`,
`Negotiate`, ICE state changes and `Close`, against any `Peer`. For each
entry point, `CallLaw` says what one call does, in the words of the
contract; `step_callLaw` proves the code keeps it, and `CallLaw` alone gives
`EmitsOnlyInstalled`: every session description handed to `onSignal` was
installed, successfully, by the `SetLocalDescription` made just before.
The same law says what `Signal`'s error tells its caller: it is nil exactly
when nothing failed, and `errors.Is` finds in it the failed peer call's error
except where the code formats that error with `%s` (`SignalLaw.reportsFailure`,
which `Signals.Negotiation` carries over to the signaller with its
negotiator).
-/

namespace PeerCalls.Signals

open PeerCalls.Go

set_option autoImplicit false

/-! ## Runs -/

/-- An entry point of the signaller, called from outside or by the negotiator. -/
inductive Input (PayloadMap : Type) where
  | signal (payload : PayloadMap)
  | localOffer (offer : SessionDescription) (err : Option GoError)
  | localRequestNegotiation
  | sendTransceiverRequest (kind : RTPCodecType) (direction : RTPTransceiverDirection)
  | negotiate
  | iceConnectionStateChange (state : ICEConnectionState)
  | close

/-- One call of an entry point: the input, the calls it made, what it returned. -/
structure Step (PayloadMap : Type) where
  input : Input PayloadMap
  calls : List Call
  result : Option GoError

section

variable {PayloadMap : Type} (newPayloadFromMap : PayloadMap → Except GoError Payload)
  (pc : Peer) (s : Signaller)

/-- One entry point, with whether `closeOnce` has fired before and after it. -/
def step (closed : Bool) : Input PayloadMap → SignalM (Bool × Option GoError)
  | .signal payload => return (closed, ← s.signal pc newPayloadFromMap payload)
  | .localOffer offer err => do
    s.handleLocalOffer pc offer err
    return (closed, none)
  | .localRequestNegotiation => do
    s.handleLocalRequestNegotiation
    return (closed, none)
  | .sendTransceiverRequest kind direction => do
    s.sendTransceiverRequest kind direction
    return (closed, none)
  | .negotiate => do
    Signaller.negotiate
    return (closed, none)
  | .iceConnectionStateChange state =>
    return (← Signaller.handleICEConnectionStateChange pc closed state, none)
  | .close => Signaller.close pc closed

def run : Bool → List Call → List (Input PayloadMap) → List (Step PayloadMap)
  | _, _, [] => []
  | closed, history, input :: inputs =>
    let after := (step newPayloadFromMap pc s closed input).run history
    ⟨input, after.2.drop history.length, after.1.2⟩ :: run after.1.1 after.2 inputs

def exec : Bool → List Call → List (Input PayloadMap) → Bool × List Call
  | closed, history, [] => (closed, history)
  | closed, history, input :: inputs =>
    let after := (step newPayloadFromMap pc s closed input).run history
    exec after.1.1 after.2 inputs

end

/-! ## What one call may do -/

/-- Every session description `calls` hands to `onSignal` was installed by
the successful `SetLocalDescription` right before it. -/
def EmitsOnlyInstalled (calls : List Call) : Prop :=
  ∀ before after payload description, calls = before ++ .onSignal payload :: after →
    payload.signal = .sessionDescription description →
    before.getLast? = some (.setLocalDescription description none)

/-- Answering a remote offer: `PopulateFromSDP`, `SetRemoteDescription`,
`CreateAnswer` and `SetLocalDescription` in that order, stopping at the
first failure and returning it; the answer goes out only when all succeed. -/
inductive AnswersOffer (s : Signaller) (offer : SessionDescription) :
    List Call → Option GoError → Prop
  | populateFailed (err : GoError) :
    AnswersOffer s offer [.populateFromSDP offer (some err)]
      (some (.errorf (s.tagged "Error populating codec info from SDP: ") err))
  | remoteFailed (err : GoError) :
    AnswersOffer s offer [.populateFromSDP offer none, .setRemoteDescription offer (some err)]
      (some (.wrapf (s.tagged "Error setting remote description: ") err))
  | createFailed (answer : SessionDescription) (err : GoError) :
    AnswersOffer s offer [.populateFromSDP offer none, .setRemoteDescription offer none,
        .createAnswer answer (some err)]
      (some (.wrapf (s.tagged "Error creating answer: ") err))
  | localFailed (answer : SessionDescription) (err : GoError) :
    AnswersOffer s offer [.populateFromSDP offer none, .setRemoteDescription offer none,
        .createAnswer answer none, .setLocalDescription answer (some err)]
      (some (.wrapf (s.tagged "Error setting local description: ") err))
  | answered (answer : SessionDescription) :
    AnswersOffer s offer [.populateFromSDP offer none, .setRemoteDescription offer none,
        .createAnswer answer none, .setLocalDescription answer none,
        .onSignal (newPayloadSDP s.localPeerID answer)]
      none

/-- A parsed payload `Signal` does not handle: a parse error, a signal of
another type, or a session description that is neither offer nor answer. -/
def Unexpected : Except GoError Payload → Prop
  | .error _ => True
  | .ok ⟨_, .other _⟩ => True
  | .ok ⟨_, .sessionDescription description⟩ =>
    description.type ≠ .offer ∧ description.type ≠ .answer
  | .ok _ => False

/-- What `Signal` does with what the parser made of its payload. -/
inductive SignalLaw (s : Signaller) :
    Except GoError Payload → List Call → Option GoError → Prop
  | candidate (userID : String) (candidate : ICECandidateInit) (err : Option GoError) :
    SignalLaw s (.ok ⟨userID, .candidate candidate⟩) [.addICECandidate candidate err] err
  | renegotiate (userID : String) (flag : Bool) :
    SignalLaw s (.ok ⟨userID, .renegotiate flag⟩) [.negotiate] none
  | transceiverRequest (userID : String) (kind : RTPCodecType)
      (direction : RTPTransceiverDirection) :
    SignalLaw s (.ok ⟨userID, .transceiverRequest kind direction⟩)
      [.addTransceiverRequest kind .sendrecv] none
  | offer (userID : String) (description : SessionDescription) {calls : List Call}
      {result : Option GoError} (isOffer : description.type = .offer)
      (answers : AnswersOffer s description calls result) :
    SignalLaw s (.ok ⟨userID, .sessionDescription description⟩) calls result
  | answer (userID : String) (description : SessionDescription) (err : Option GoError)
      (isAnswer : description.type = .answer) :
    SignalLaw s (.ok ⟨userID, .sessionDescription description⟩)
      [.setRemoteDescription description err]
      (err.map (.wrapf (s.tagged "Error setting remote description: ")))
  | rejected {parsed : Except GoError Payload} (unexpected : Unexpected parsed) (err : GoError) :
    SignalLaw s parsed [] (some err)

/-- What the negotiator's offer callback does: nothing if the offer could
not be created, else `SetLocalDescription(offer)`, and the offer goes out
only if that succeeded. -/
inductive LocalOfferLaw (s : Signaller) (offer : SessionDescription) :
    Option GoError → List Call → Prop
  | createFailed (err : GoError) : LocalOfferLaw s offer (some err) []
  | localFailed (err : GoError) :
    LocalOfferLaw s offer none [.setLocalDescription offer (some err)]
  | sent :
    LocalOfferLaw s offer none
      [.setLocalDescription offer none, .onSignal (newPayloadSDP s.localPeerID offer)]

/-- What one call of each entry point does. -/
def CallLaw {PayloadMap : Type} (newPayloadFromMap : PayloadMap → Except GoError Payload)
    (s : Signaller) : Input PayloadMap → List Call → Option GoError → Prop
  | .signal payload, calls, result => SignalLaw s (newPayloadFromMap payload) calls result
  | .localOffer offer err, calls, result => LocalOfferLaw s offer err calls ∧ result = none
  | .localRequestNegotiation, calls, result =>
    calls = [.onSignal (newPayloadRenegotiate s.localPeerID)] ∧ result = none
  | .sendTransceiverRequest kind direction, calls, result =>
    calls = (if s.initiator then []
      else [.onSignal (newTransceiverRequest s.localPeerID kind direction)]) ∧ result = none
  | .negotiate, calls, result => calls = [.negotiate] ∧ result = none
  | .iceConnectionStateChange _, calls, _ => ∀ payload, .onSignal payload ∉ calls
  | .close, calls, _ => ∀ payload, .onSignal payload ∉ calls

/-! ## The law keeps every emitted description installed -/

theorem emitsOnlyInstalled_append {xs ys : List Call} (left : EmitsOnlyInstalled xs)
    (right : EmitsOnlyInstalled ys) : EmitsOnlyInstalled (xs ++ ys) := by
  intro before after payload description split isSDP
  rcases List.append_eq_append_iff.mp split with ⟨mid, rfl, rest⟩ | ⟨mid, rest, tail⟩
  · simp [right mid after payload description rest isSDP]
  · cases mid with
    | nil => simpa using right [] after payload description (by simpa using tail.symm) isSDP
    | cons x mid =>
      obtain ⟨rfl, -⟩ := List.cons_eq_cons.mp tail
      exact left before mid payload description rest isSDP

theorem emitsOnlyInstalled_of_quiet {calls : List Call}
    (quiet : ∀ payload, .onSignal payload ∈ calls →
      ∀ description, payload.signal ≠ .sessionDescription description) :
    EmitsOnlyInstalled calls := by
  intro before after payload description split isSDP
  exact absurd isSDP (quiet payload (by simp [split]) description)

theorem emitsOnlyInstalled_installed (description : SessionDescription) (payload : Payload)
    (isSDP : payload.signal = .sessionDescription description) :
    EmitsOnlyInstalled [.setLocalDescription description none, .onSignal payload] := by
  intro before after payload' description' split isSDP'
  match before, split with
  | [], split => simp at split
  | [_], split =>
    simp only [List.singleton_append, List.cons.injEq, Call.onSignal.injEq] at split
    obtain ⟨rfl, rfl, -⟩ := split
    simp_all
  | _ :: _ :: _, split => simp at split

theorem AnswersOffer.emitsOnlyInstalled {s : Signaller} {offer : SessionDescription}
    {calls : List Call} {result : Option GoError} (law : AnswersOffer s offer calls result) :
    EmitsOnlyInstalled calls := by
  cases law with
  | answered answer =>
    show EmitsOnlyInstalled ([_, _, _] ++ [_, _])
    exact emitsOnlyInstalled_append (emitsOnlyInstalled_of_quiet (by simp))
      (emitsOnlyInstalled_installed answer _ rfl)
  | _ => exact emitsOnlyInstalled_of_quiet (by simp)

theorem SignalLaw.emitsOnlyInstalled {s : Signaller} {parsed : Except GoError Payload}
    {calls : List Call} {result : Option GoError} (law : SignalLaw s parsed calls result) :
    EmitsOnlyInstalled calls := by
  cases law with
  | offer _ _ _ answers => exact answers.emitsOnlyInstalled
  | _ => exact emitsOnlyInstalled_of_quiet (by simp)

theorem CallLaw.emitsOnlyInstalled {PayloadMap : Type}
    {newPayloadFromMap : PayloadMap → Except GoError Payload} {s : Signaller}
    {input : Input PayloadMap} {calls : List Call} {result : Option GoError}
    (law : CallLaw newPayloadFromMap s input calls result) : EmitsOnlyInstalled calls := by
  cases input with
  | signal payload => exact SignalLaw.emitsOnlyInstalled law
  | localOffer offer err =>
    cases law.1 with
    | sent => exact emitsOnlyInstalled_installed offer _ rfl
    | _ => exact emitsOnlyInstalled_of_quiet (by simp)
  | iceConnectionStateChange _ | close =>
    exact emitsOnlyInstalled_of_quiet fun payload sent => absurd sent (law payload)
  | _ =>
    rw [law.1]
    exact emitsOnlyInstalled_of_quiet (by simp [newPayloadRenegotiate, newTransceiverRequest])

theorem SignalLaw.sentAsLocal {s : Signaller} {parsed : Except GoError Payload}
    {calls : List Call} {result : Option GoError} (law : SignalLaw s parsed calls result)
    (payload : Payload) (sent : .onSignal payload ∈ calls) :
    payload.userID = s.localPeerID ∧
      ∀ kind direction, payload.signal ≠ .transceiverRequest kind direction := by
  cases law with
  | offer _ _ _ answers => cases answers <;> simp_all [newPayloadSDP]
  | _ => simp at sent

/-- Every payload one call hands to `onSignal` carries the signaller's own
ID, and an initiator's never asks for a transceiver. -/
theorem CallLaw.sentAsLocal {PayloadMap : Type}
    {newPayloadFromMap : PayloadMap → Except GoError Payload} {s : Signaller}
    {input : Input PayloadMap} {calls : List Call} {result : Option GoError}
    (law : CallLaw newPayloadFromMap s input calls result) (payload : Payload)
    (sent : .onSignal payload ∈ calls) :
    payload.userID = s.localPeerID ∧
      (s.initiator = true →
        ∀ kind direction, payload.signal ≠ .transceiverRequest kind direction) := by
  cases input with
  | signal _ =>
    obtain ⟨fromLocal, notRequest⟩ := SignalLaw.sentAsLocal law payload sent
    exact ⟨fromLocal, fun _ => notRequest⟩
  | localOffer offer err =>
    cases law.1 <;> simp_all [newPayloadSDP]
  | localRequestNegotiation =>
    simp_all [CallLaw, newPayloadRenegotiate]
  | sendTransceiverRequest kind direction =>
    rw [law.1] at sent
    cases initiator : s.initiator <;> simp_all [newTransceiverRequest]
  | negotiate => simp [law.1] at sent
  | iceConnectionStateChange _ | close => exact absurd sent (law payload)

theorem emitsOnlyInstalled_flatMap {PayloadMap : Type}
    {newPayloadFromMap : PayloadMap → Except GoError Payload} {s : Signaller}
    {steps : List (Step PayloadMap)}
    (laws : ∀ st ∈ steps, CallLaw newPayloadFromMap s st.input st.calls st.result) :
    EmitsOnlyInstalled (steps.flatMap Step.calls) := by
  induction steps with
  | nil => exact emitsOnlyInstalled_of_quiet (by simp)
  | cons st steps ih =>
    rw [List.flatMap_cons]
    exact emitsOnlyInstalled_append (laws st (List.mem_cons_self _ _)).emitsOnlyInstalled
      (ih fun st' member => laws st' (List.mem_cons_of_mem _ member))

/-! ## The code keeps the law -/

section

variable {PayloadMap : Type} (newPayloadFromMap : PayloadMap → Except GoError Payload)
  (pc : Peer) (s : Signaller) (history : List Call)

theorem handleRemoteOffer_law (offer : SessionDescription) :
    ∃ calls, ((s.handleRemoteOffer pc offer).run history).2 = history ++ calls ∧
      AnswersOffer s offer calls ((s.handleRemoteOffer pc offer).run history).1 := by
  simp only [Signaller.handleRemoteOffer, Peer.PopulateFromSDP, Peer.SetRemoteDescription,
    Peer.CreateAnswer, Peer.SetLocalDescription, ask_bind_run, pure_bind]
  split
  next err populated => rw [populated]; exact ⟨_, rfl, .populateFailed err⟩
  next populated =>
  rw [Option.eq_none_iff_forall_not_mem.mpr populated]
  simp only [ask_bind_run, List.append_assoc, List.singleton_append]
  split
  next err remote => rw [remote]; exact ⟨_, rfl, .remoteFailed err⟩
  next remote =>
  rw [Option.eq_none_iff_forall_not_mem.mpr remote]
  simp only [ask_bind_run, List.append_assoc, List.singleton_append, List.cons_append]
  split
  next err created => rw [created]; exact ⟨_, rfl, .createFailed _ err⟩
  next created =>
  rw [Option.eq_none_iff_forall_not_mem.mpr created]
  simp only [ask_bind_run, List.append_assoc, List.singleton_append, List.cons_append]
  split
  next err installed => rw [installed]; exact ⟨_, rfl, .localFailed _ err⟩
  next installed =>
  rw [Option.eq_none_iff_forall_not_mem.mpr installed]
  simp only [record_bind_run, pure_run, List.append_assoc, List.singleton_append, List.cons_append]
  exact ⟨_, rfl, .answered _⟩

theorem signal_law (payload : PayloadMap) :
    ∃ calls, ((s.signal pc newPayloadFromMap payload).run history).2 = history ++ calls ∧
      SignalLaw s (newPayloadFromMap payload) calls
        ((s.signal pc newPayloadFromMap payload).run history).1 := by
  unfold Signaller.signal
  rcases newPayloadFromMap payload with err | ⟨userID, signal⟩
  · exact ⟨[], by simp, .rejected (by simp [Unexpected]) _⟩
  cases signal with
  | candidate candidate => exact ⟨_, rfl, .candidate userID candidate _⟩
  | renegotiate flag => exact ⟨_, rfl, .renegotiate userID flag⟩
  | transceiverRequest kind direction =>
    exact ⟨_, rfl, .transceiverRequest userID kind direction⟩
  | other goSyntax => exact ⟨[], by simp, .rejected (by simp [Unexpected]) _⟩
  | sessionDescription description =>
    simp only [Signaller.handleRemoteSDP]
    rcases kind : description.type with _ | _ | _ | _ | _ <;>
      try exact ⟨[], by simp, .rejected (by simp [Unexpected, kind]) _⟩
    · obtain ⟨calls, extends_, answers⟩ := handleRemoteOffer_law pc s history description
      exact ⟨calls, extends_, .offer userID description kind answers⟩
    · simp only [Signaller.handleRemoteAnswer, Peer.SetRemoteDescription, ask_bind_run]
      split
      next err remote =>
        rw [remote]
        exact ⟨_, rfl, .answer userID description (some err) kind⟩
      next remote =>
        rw [Option.eq_none_iff_forall_not_mem.mpr remote]
        exact ⟨_, rfl, .answer userID description none kind⟩

theorem handleLocalOffer_law (offer : SessionDescription) (err : Option GoError) :
    ∃ calls, ((s.handleLocalOffer pc offer err).run history).2 = history ++ calls ∧
      LocalOfferLaw s offer err calls := by
  rcases err with _ | err
  · simp only [Signaller.handleLocalOffer, Option.isSome_none, Peer.SetLocalDescription,
      ask_bind_run, Bool.false_eq_true, if_false, pure_bind]
    split
    next installed =>
      rw [Option.isSome_iff_exists.mp installed |>.choose_spec]
      exact ⟨_, rfl, .localFailed _⟩
    next installed =>
      rw [Option.not_isSome_iff_eq_none.mp installed]
      exact ⟨_, by simp, .sent⟩
  · exact ⟨[], by simp [Signaller.handleLocalOffer], .createFailed err⟩

theorem step_callLaw (closed : Bool) (input : Input PayloadMap) :
    ∃ calls, ((step newPayloadFromMap pc s closed input).run history).2 = history ++ calls ∧
      CallLaw newPayloadFromMap s input calls
        ((step newPayloadFromMap pc s closed input).run history).1.2 := by
  cases input with
  | signal payload => exact signal_law newPayloadFromMap pc s history payload
  | localOffer offer err =>
    obtain ⟨calls, extends_, law⟩ := handleLocalOffer_law pc s history offer err
    exact ⟨calls, extends_, law, rfl⟩
  | localRequestNegotiation => exact ⟨_, rfl, rfl, rfl⟩
  | sendTransceiverRequest kind direction =>
    cases initiator : s.initiator <;>
      simp [step, Signaller.sendTransceiverRequest, CallLaw, initiator]
  | negotiate => exact ⟨_, rfl, rfl, rfl⟩
  | iceConnectionStateChange state =>
    simp only [step, Signaller.handleICEConnectionStateChange, Signaller.close, Peer.Close]
    split_ifs <;> cases closed <;> simp [CallLaw]
  | close =>
    simp only [step, Signaller.close, Peer.Close]
    cases closed <;> simp [CallLaw]

theorem run_callLaw (closed : Bool) (inputs : List (Input PayloadMap)) :
    ∀ st ∈ run newPayloadFromMap pc s closed history inputs,
      CallLaw newPayloadFromMap s st.input st.calls st.result := by
  induction inputs generalizing closed history with
  | nil => simp [run]
  | cons input inputs ih =>
    obtain ⟨calls, extends_, law⟩ := step_callLaw newPayloadFromMap pc s history closed input
    simp only [run, List.mem_cons, forall_eq_or_imp]
    exact ⟨by rw [extends_, List.drop_left]; exact law, ih _ _⟩

theorem run_flatMap_calls (closed : Bool) (inputs : List (Input PayloadMap)) :
    (exec newPayloadFromMap pc s closed history inputs).2 =
      history ++ (run newPayloadFromMap pc s closed history inputs).flatMap Step.calls := by
  induction inputs generalizing closed history with
  | nil => simp [exec, run]
  | cons input inputs ih =>
    obtain ⟨calls, extends_, -⟩ := step_callLaw newPayloadFromMap pc s history closed input
    simp only [exec, run, List.flatMap_cons, ih, extends_, List.drop_left, List.append_assoc]

theorem run_inputs (closed : Bool) (inputs : List (Input PayloadMap)) :
    (run newPayloadFromMap pc s closed history inputs).map Step.input = inputs := by
  induction inputs generalizing closed history with
  | nil => rfl
  | cons input inputs ih => simp only [run, List.map_cons, ih]

/-- Over any run of the signaller, against any peer and any payload parser,
each call of an entry point does what its law says and hands to `onSignal`
only session descriptions it had just installed with a successful
`SetLocalDescription`; so does the run as a whole. The run has one step per
input, in order, and its calls are all that is added to the history. -/
theorem signaller_emits_only_installed (closed : Bool) (inputs : List (Input PayloadMap)) :
    (∀ st ∈ run newPayloadFromMap pc s closed history inputs,
      CallLaw newPayloadFromMap s st.input st.calls st.result ∧ EmitsOnlyInstalled st.calls) ∧
    EmitsOnlyInstalled ((run newPayloadFromMap pc s closed history inputs).flatMap Step.calls) ∧
    (run newPayloadFromMap pc s closed history inputs).map Step.input = inputs ∧
    (exec newPayloadFromMap pc s closed history inputs).2 =
      history ++ (run newPayloadFromMap pc s closed history inputs).flatMap Step.calls := by
  have laws := run_callLaw newPayloadFromMap pc s history closed inputs
  exact ⟨fun st member => ⟨laws st member, (laws st member).emitsOnlyInstalled⟩,
    emitsOnlyInstalled_flatMap laws, run_inputs newPayloadFromMap pc s history closed inputs,
    run_flatMap_calls newPayloadFromMap pc s history closed inputs⟩

/-- Over any run, every payload handed to `onSignal` names the signaller's
own `localPeerID` as its sender, and an initiator never sends a transceiver
request. -/
theorem signaller_sends_as_local (closed : Bool) (inputs : List (Input PayloadMap))
    (payload : Payload)
    (sent : .onSignal payload ∈
      (run newPayloadFromMap pc s closed history inputs).flatMap Step.calls) :
    payload.userID = s.localPeerID ∧
      (s.initiator = true →
        ∀ kind direction, payload.signal ≠ .transceiverRequest kind direction) := by
  obtain ⟨st, member, inStep⟩ := List.mem_flatMap.mp sent
  exact (run_callLaw newPayloadFromMap pc s history closed inputs st member).sentAsLocal payload
    inStep

theorem signaller_sends_as_local_request :
    let s : Signaller := ⟨false, "local", "remote"⟩
    let pc : Peer := ⟨fun _ _ => none, fun _ _ _ => none, fun _ _ => none, fun _ _ => none,
      fun _ => (⟨.answer, ""⟩, none), fun _ => none, fun _ _ => none⟩
    let inputs : List (Input Unit) := [.sendTransceiverRequest .video .recvonly]
    .onSignal (newTransceiverRequest "local" .video .recvonly) ∈
        (run (fun _ => .error (.new "")) pc s false [] inputs).flatMap Step.calls ∧
      (newTransceiverRequest "local" .video .recvonly).userID = s.localPeerID ∧
      (s.initiator = true → ∀ kind direction,
        (newTransceiverRequest "local" .video .recvonly).signal ≠
          .transceiverRequest kind direction) :=
  ⟨by decide, signaller_sends_as_local (fun _ : Unit => .error (.new ""))
    ⟨fun _ _ => none, fun _ _ _ => none, fun _ _ => none, fun _ _ => none,
      fun _ => (⟨.answer, ""⟩, none), fun _ => none, fun _ _ => none⟩
    ⟨false, "local", "remote"⟩ [] false [.sendTransceiverRequest .video .recvonly] _
    (by decide)⟩

/-! ## What `Signal`'s error tells its caller -/

def Call.peerError : Call → Option GoError
  | .populateFromSDP _ err | .addICECandidate _ err | .addTransceiverFromKind _ _ err
  | .setRemoteDescription _ err | .setLocalDescription _ err | .createAnswer _ err
  | .createOffer _ err | .closePeerConnection err => err
  | _ => none

/-- `PopulateFromSDP`, the one peer call whose error `Signal` formats with `%s`. -/
def Call.isPopulateFromSDP : Call → Bool
  | .populateFromSDP _ _ => true
  | _ => false

/-- A call of `Signal` reports an error exactly when the payload is not one
it handles or a call on the peer failed, and the error unwraps to the peer's
error unless that came from `PopulateFromSDP`. -/
theorem SignalLaw.reportsFailure {s : Signaller} {parsed : Except GoError Payload}
    {calls : List Call} {result : Option GoError} (law : SignalLaw s parsed calls result) :
    (result = none ↔ ¬Unexpected parsed ∧ ∀ c ∈ calls, c.peerError = none) ∧
    ∀ err, result = some err → ∀ c ∈ calls, ∀ cause, c.peerError = some cause →
      (cause ∈ err.chain ↔ c.isPopulateFromSDP = false) := by
  cases law with
  | candidate =>
    cases result <;>
      simp [Unexpected, Call.peerError, Call.isPopulateFromSDP, GoError.mem_chain_self]
  | offer _ _ isOffer answers =>
    cases answers <;> simp [Unexpected, isOffer, Call.peerError, Call.isPopulateFromSDP,
      GoError.chain, GoError.mem_chain_self, (GoError.errorf_ne _ _).symm]
  | answer _ _ err isAnswer =>
    cases err <;> simp [Unexpected, isAnswer, Call.peerError, Call.isPopulateFromSDP,
      GoError.chain, GoError.mem_chain_self]
  | rejected unexpected => simp [unexpected]
  | _ => simp [Unexpected, Call.peerError]

end

end PeerCalls.Signals
