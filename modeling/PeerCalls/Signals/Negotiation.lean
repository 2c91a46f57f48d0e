import PeerCalls.Signals.Negotiator

/-!
# The signaller with its negotiator

`NewSignaller` builds the negotiator with the signaller's `handleLocalOffer`
and `handleLocalRequestNegotiation` as its callbacks, and the signaller calls
`Negotiate()` and `AddTransceiverFromKind` on it; the negotiator does its
work inside those calls. Here each entry point runs as the sources have it,
and the negotiator then answers the calls it made on it, before the entry
point returns: in every law of `CallLaw` and `InitLaw` a call on the
negotiator is the entry point's last, so this is the order of the code.

What drives the system from outside is an `Event`: an entry point other
than the two callbacks, which only the negotiator calls, or the peer
connection reporting that the remote answer has been handled.
`handleRemoteAnswer` does not tell the negotiator, so that report comes
through the peer connection, at any point of a run.

Over this system, `NewSignaller` sends one offer for an initiator (S3);
`Signal` reports the failures of its own calls and never those the
negotiator meets inside it; a stretch of a run in which no answer is handled
creates at most one offer; the answer to an offer made during a glare
applies the queued requests and creates exactly one follow-up offer (S4);
and every run sends only the signaller's own payloads and only installed
descriptions.
-/

namespace PeerCalls.Signals

open PeerCalls.Go

set_option autoImplicit false

inductive Event (PayloadMap : Type) where
  | signal (payload : PayloadMap)
  | sendTransceiverRequest (kind : RTPCodecType) (direction : RTPTransceiverDirection)
  | negotiate
  | iceConnectionStateChange (state : ICEConnectionState)
  | close
  | answerHandled

def Event.toInput {PayloadMap : Type} : Event PayloadMap → Option (Input PayloadMap)
  | .signal payload => some (.signal payload)
  | .sendTransceiverRequest kind direction => some (.sendTransceiverRequest kind direction)
  | .negotiate => some .negotiate
  | .iceConnectionStateChange state => some (.iceConnectionStateChange state)
  | .close => some .close
  | .answerHandled => none

def Event.isAnswerHandled {PayloadMap : Type} : Event PayloadMap → Bool
  | .answerHandled => true
  | _ => false

theorem Event.toInput_of_isAnswerHandled {PayloadMap : Type} {event : Event PayloadMap}
    (other : event.isAnswerHandled = false) : ∃ input, event.toInput = some input := by
  cases event <;> simp_all [Event.toInput, Event.isAnswerHandled]

section

variable {PayloadMap : Type} (newPayloadFromMap : PayloadMap → Except GoError Payload)
  (conn : Connection) (s : Signaller)

def negotiatedStep (n : Negotiator) (closed : Bool) (event : Event PayloadMap) :
    SignalM (Negotiator × Bool × Option GoError) := fun history =>
  match event.toInput with
  | none =>
    let answered := (n.answerHandled conn s).run history
    ((answered.1, closed, none), answered.2)
  | some input =>
    let signalled := (step newPayloadFromMap conn.toPeer s closed input).run history
    let answered := (n.react conn s (signalled.2.drop history.length)).run signalled.2
    ((answered.1, signalled.1.1, signalled.1.2), answered.2)

def negotiatedExec : Negotiator → Bool → List Call → List (Event PayloadMap) →
    Negotiator × Bool × List Call
  | n, closed, history, [] => (n, closed, history)
  | n, closed, history, event :: events =>
    let after := (negotiatedStep newPayloadFromMap conn s n closed event).run history
    negotiatedExec after.1.1 after.1.2.1 after.2 events

end

/-- `NewSignaller`, with the negotiator it builds answering its calls. -/
def newSignallerNegotiating (conn : Connection) (initiator : Bool)
    (localPeerID remotePeerID : String) : SignalM (Signaller × Negotiator × Option GoError) :=
  fun history =>
    let made := (newSignaller conn.toPeer initiator localPeerID remotePeerID).run history
    let answered := (Negotiator.init.react conn made.1.1 (made.2.drop history.length)).run made.2
    ((made.1.1, answered.1, made.1.2), answered.2)

/-! ## An entry point, then the negotiator -/

section

variable {PayloadMap : Type} (newPayloadFromMap : PayloadMap → Except GoError Payload)
  (pc : Peer) (s : Signaller) (history : List Call)

theorem SignalLaw.createsNoOffer {parsed : Except GoError Payload} {calls : List Call}
    {result : Option GoError} (law : SignalLaw s parsed calls result) :
    calls.countP Call.isCreateOffer = 0 := by
  cases law with
  | offer _ _ _ answers => cases answers <;> rfl
  | _ => rfl

theorem step_creates_no_offer (closed : Bool) (input : Input PayloadMap) :
    ∃ calls, ((step newPayloadFromMap pc s closed input).run history).2 = history ++ calls ∧
      calls.countP Call.isCreateOffer = 0 := by
  cases input with
  | signal payload =>
    obtain ⟨calls, extends_, law⟩ := signal_law newPayloadFromMap pc s history payload
    exact ⟨calls, extends_, SignalLaw.createsNoOffer s law⟩
  | localOffer offer err =>
    obtain ⟨calls, extends_, law⟩ := handleLocalOffer_law pc s history offer err
    exact ⟨calls, extends_, by cases law <;> rfl⟩
  | iceConnectionStateChange state =>
    by_cases closing : state = .closed ∨ state = .disconnected ∨ state = .failed <;>
      cases closed <;> simp [step, Signaller.handleICEConnectionStateChange, Signaller.close,
        Peer.Close, closing, Call.isCreateOffer]
  | close => cases closed <;> simp [step, Signaller.close, Peer.Close, Call.isCreateOffer]
  | _ => simp [step, Signaller.handleLocalRequestNegotiation, Signaller.sendTransceiverRequest,
      Signaller.negotiate, Call.isCreateOffer] <;> split <;> simp [Call.isCreateOffer]

end

section

variable {PayloadMap : Type} (newPayloadFromMap : PayloadMap → Except GoError Payload)
  (conn : Connection) (s : Signaller) (history : List Call)

/-- An event that calls an entry point: the entry point's calls, then the
negotiator's answer to them. -/
theorem negotiatedStep_of_step {event : Event PayloadMap} {input : Input PayloadMap}
    (calls : event.toInput = some input) (n : Negotiator) {closed closed' : Bool}
    {result : Option GoError} {own : List Call}
    (stepped : (step newPayloadFromMap conn.toPeer s closed input).run history =
      ((closed', result), history ++ own)) :
    (negotiatedStep newPayloadFromMap conn s n closed event).run history =
      ((((n.react conn s own).run (history ++ own)).1, closed', result),
        ((n.react conn s own).run (history ++ own)).2) := by
  simp only [StateT.run] at stepped
  simp only [negotiatedStep, StateT.run, calls, stepped, List.drop_left]

theorem step_run (closed : Bool) (input : Input PayloadMap) {own : List Call}
    (extends_ : ((step newPayloadFromMap conn.toPeer s closed input).run history).2 =
      history ++ own) :
    (step newPayloadFromMap conn.toPeer s closed input).run history =
      ((((step newPayloadFromMap conn.toPeer s closed input).run history).1.1,
        ((step newPayloadFromMap conn.toPeer s closed input).run history).1.2), history ++ own) :=
  Prod.ext rfl extends_

theorem negotiatedStep_answerHandled (n : Negotiator) (closed : Bool) :
    (negotiatedStep newPayloadFromMap conn s n closed .answerHandled).run history =
      ((((n.answerHandled conn s).run history).1, closed, none),
        ((n.answerHandled conn s).run history).2) := rfl

/-! ## Offers one at a time -/

/-- One event other than the answer handled creates at most one offer, only
when one may be created, after which none may. -/
theorem negotiatedStep_offers {event : Event PayloadMap} (other : event.isAnswerHandled = false)
    (n : Negotiator) (closed : Bool) :
    ∃ calls, ((negotiatedStep newPayloadFromMap conn s n closed event).run history).2 =
        history ++ calls ∧
      calls.countP Call.isCreateOffer +
          (if ((negotiatedStep newPayloadFromMap conn s n closed event).run history).1.1.canOffer s
            then 1 else 0) ≤
        if n.canOffer s then 1 else 0 := by
  obtain ⟨input, calls⟩ := Event.toInput_of_isAnswerHandled other
  obtain ⟨own, extends_, noOffer⟩ :=
    step_creates_no_offer newPayloadFromMap conn.toPeer s history closed input
  obtain ⟨made, reacted, acts⟩ := react_acts conn s (history ++ own) n own
  rw [negotiatedStep_of_step newPayloadFromMap conn s history calls n
    (step_run newPayloadFromMap conn s history closed input extends_)]
  refine ⟨own ++ made, by rw [reacted, List.append_assoc], ?_⟩
  have offers := acts.offers
  dsimp only
  rw [List.countP_append, noOffer]
  omega

theorem negotiatedExec_offers (n : Negotiator) (closed : Bool) (events : List (Event PayloadMap))
    (unanswered : ∀ event ∈ events, event.isAnswerHandled = false) :
    ∃ calls, (negotiatedExec newPayloadFromMap conn s n closed history events).2.2 =
        history ++ calls ∧
      calls.countP Call.isCreateOffer +
          (if (negotiatedExec newPayloadFromMap conn s n closed history events).1.canOffer s
            then 1 else 0) ≤
        if n.canOffer s then 1 else 0 := by
  induction events generalizing n closed history with
  | nil => exact ⟨[], by simp [negotiatedExec], by simp [negotiatedExec]⟩
  | cons event events ih =>
    obtain ⟨first, extends_, offers⟩ := negotiatedStep_offers newPayloadFromMap conn s history
      (unanswered event (List.mem_cons_self _ _)) n closed
    obtain ⟨rest, restExtends, restOffers⟩ :=
      ih ((negotiatedStep newPayloadFromMap conn s n closed event).run history).2
        ((negotiatedStep newPayloadFromMap conn s n closed event).run history).1.1
        ((negotiatedStep newPayloadFromMap conn s n closed event).run history).1.2.1
        fun other member => unanswered other (List.mem_cons_of_mem _ member)
    simp only [negotiatedExec]
    refine ⟨first ++ rest, by rw [restExtends, extends_, List.append_assoc], ?_⟩
    rw [List.countP_append]
    omega

/-- However the events interleave, a stretch of a run in which no remote
answer is handled creates at most one offer, none if an offer is already
out or the signaller is not the initiator; and an offer it creates is still
out at the end of the stretch. -/
theorem offers_one_at_a_time (n : Negotiator) (closed : Bool) (events : List (Event PayloadMap))
    (unanswered : ∀ event ∈ events, event.isAnswerHandled = false) :
    ((negotiatedExec newPayloadFromMap conn s n closed history events).2.2.drop
        history.length).countP Call.isCreateOffer ≤ (if s.initiator && !n.offering then 1 else 0) ∧
      (((negotiatedExec newPayloadFromMap conn s n closed history events).2.2.drop
        history.length).countP Call.isCreateOffer = 1 →
        (negotiatedExec newPayloadFromMap conn s n closed history events).1.offering = true) := by
  obtain ⟨calls, extends_, offers⟩ :=
    negotiatedExec_offers newPayloadFromMap conn s history n closed events unanswered
  rw [extends_, List.drop_left]
  refine ⟨by simp only [Negotiator.canOffer] at offers; omega, fun one => ?_⟩
  cases final : (negotiatedExec newPayloadFromMap conn s n closed history events).1.offering
  · cases initiator : s.initiator <;> cases offering : n.offering <;>
      simp [Negotiator.canOffer, initiator, offering, final, one] at offers
  · rfl

theorem offers_one_at_a_time_three_requests :
    let conn : Connection := ⟨⟨fun _ _ => none, fun _ _ _ => none, fun _ _ => none,
      fun _ _ => none, fun _ => (⟨.answer, ""⟩, none), fun _ => none, fun _ _ => none⟩,
      fun _ => (⟨.offer, "v=0"⟩, none)⟩
    let s : Signaller := ⟨true, "local", "remote"⟩
    let events : List (Event Unit) := [.negotiate, .signal (), .negotiate]
    let parse : Unit → Except GoError Payload := fun _ => .ok ⟨"remote", .renegotiate true⟩
    (∀ event ∈ events, event.isAnswerHandled = false) ∧
      ((negotiatedExec parse conn s Negotiator.init false [] events).2.2.drop 0).countP
          Call.isCreateOffer ≤ (if s.initiator && !Negotiator.init.offering then 1 else 0) ∧
      (((negotiatedExec parse conn s Negotiator.init false [] events).2.2.drop 0).countP
          Call.isCreateOffer = 1 →
        (negotiatedExec parse conn s Negotiator.init false [] events).1.offering = true) :=
  ⟨by decide, offers_one_at_a_time _ _ _ [] _ _ _ (by decide)⟩

/-! ## Every run sends safely -/

theorem answerHandled_sendsSafely (n : Negotiator) :
    ∃ calls, ((n.answerHandled conn s).run history).2 = history ++ calls ∧ SendsSafely s calls := by
  obtain ⟨stable, unqueued, queued⟩ := answerHandled_law conn s history n
  cases offering : n.offering
  · exact ⟨[], by simp [stable offering], sendsSafely_of_silent (by simp)⟩
  cases bit : n.queuedRenegotiate
  · exact ⟨[], by simp [unqueued offering bit], sendsSafely_of_silent (by simp)⟩
  obtain ⟨applied, calls, extends_, shape, law⟩ := queued offering bit
  exact ⟨applied ++ calls, by rw [extends_, List.append_assoc],
    (Negotiator.acts_of_applied shape n).sendsSafely.append law.acts.sendsSafely⟩

theorem negotiatedStep_sendsSafely (n : Negotiator) (closed : Bool) (event : Event PayloadMap) :
    ∃ calls, ((negotiatedStep newPayloadFromMap conn s n closed event).run history).2 =
      history ++ calls ∧ SendsSafely s calls := by
  cases other : event.isAnswerHandled
  · obtain ⟨input, calls⟩ := Event.toInput_of_isAnswerHandled other
    obtain ⟨own, extends_, law⟩ := step_callLaw newPayloadFromMap conn.toPeer s history closed input
    obtain ⟨made, reacted, acts⟩ := react_acts conn s (history ++ own) n own
    rw [negotiatedStep_of_step newPayloadFromMap conn s history calls n
      (step_run newPayloadFromMap conn s history closed input extends_)]
    have own_safe : SendsSafely s own := ⟨law.emitsOnlyInstalled, law.sentAsLocal⟩
    exact ⟨own ++ made, by rw [reacted, List.append_assoc], own_safe.append acts.sendsSafely⟩
  · cases event <;> simp only [Event.isAnswerHandled, Bool.false_eq_true] at other
    rw [negotiatedStep_answerHandled]
    exact answerHandled_sendsSafely conn s history n

/-- With its negotiator, over any run of events from any state of the
negotiator, however they interleave: every session description the
signaller sends through `onSignal` was installed by the successful
`SetLocalDescription` right before it, every payload it sends carries its
own `localPeerID`, and an initiator never sends a transceiver request. -/
theorem negotiated_sends_safely (n : Negotiator) (closed : Bool)
    (events : List (Event PayloadMap)) :
    EmitsOnlyInstalled
        ((negotiatedExec newPayloadFromMap conn s n closed history events).2.2.drop
          history.length) ∧
      ∀ payload, .onSignal payload ∈
          (negotiatedExec newPayloadFromMap conn s n closed history events).2.2.drop
            history.length →
        payload.userID = s.localPeerID ∧
          (s.initiator = true → ∀ kind direction,
            payload.signal ≠ .transceiverRequest kind direction) := by
  suffices run : ∃ calls, (negotiatedExec newPayloadFromMap conn s n closed history events).2.2 =
      history ++ calls ∧ SendsSafely s calls by
    obtain ⟨calls, extends_, safe⟩ := run
    rw [extends_, List.drop_left]
    exact safe
  induction events generalizing n closed history with
  | nil => exact ⟨[], by simp [negotiatedExec], sendsSafely_of_silent (by simp)⟩
  | cons event events ih =>
    obtain ⟨first, extends_, safe⟩ :=
      negotiatedStep_sendsSafely newPayloadFromMap conn s history n closed event
    obtain ⟨rest, restExtends, restSafe⟩ :=
      ih ((negotiatedStep newPayloadFromMap conn s n closed event).run history).2
        ((negotiatedStep newPayloadFromMap conn s n closed event).run history).1.1
        ((negotiatedStep newPayloadFromMap conn s n closed event).run history).1.2.1
    simp only [negotiatedExec]
    exact ⟨first ++ rest, by rw [restExtends, extends_, List.append_assoc], safe.append restSafe⟩

/-! ## One follow-up offer after a glare -/

/-- While an offer is out, the system is the signaller alone: the
negotiator makes no call, and only remembers whether negotiation was asked
for and which transceivers were requested, in order. -/
theorem negotiatedExec_offering {n : Negotiator} (offering : n.offering = true) (closed : Bool)
    (events : List (Event PayloadMap))
    (unanswered : ∀ event ∈ events, event.isAnswerHandled = false) :
    negotiatedExec newPayloadFromMap conn s n closed history events =
      ({ n with
          queuedRenegotiate := n.queuedRenegotiate ||
            ((exec newPayloadFromMap conn.toPeer s closed history
              (events.filterMap Event.toInput)).2.drop history.length).any Call.onNegotiator
          queued := n.queued ++
            ((exec newPayloadFromMap conn.toPeer s closed history
              (events.filterMap Event.toInput)).2.drop history.length).filterMap
                Call.requestedTransceiver? },
        exec newPayloadFromMap conn.toPeer s closed history (events.filterMap Event.toInput)) := by
  induction events generalizing n closed history with
  | nil =>
    obtain ⟨_, bit, queued⟩ := n
    simp [negotiatedExec, exec]
  | cons event events ih =>
    obtain ⟨input, calls⟩ :=
      Event.toInput_of_isAnswerHandled (unanswered event (List.mem_cons_self _ _))
    obtain ⟨own, extends_, -⟩ := step_callLaw newPayloadFromMap conn.toPeer s history closed input
    obtain ⟨rest, restExtends⟩ : ∃ rest, (exec newPayloadFromMap conn.toPeer s
        ((step newPayloadFromMap conn.toPeer s closed input).run history).1.1 (history ++ own)
        (events.filterMap Event.toInput)).2 = history ++ own ++ rest :=
      ⟨_, run_flatMap_calls newPayloadFromMap conn.toPeer s (history ++ own) _ _⟩
    have stepped := negotiatedStep_of_step newPayloadFromMap conn s history calls n
      (step_run newPayloadFromMap conn s history closed input extends_)
    rw [react_offering conn s (history ++ own) offering] at stepped
    simp only [negotiatedExec, stepped, List.filterMap_cons_some calls, exec, extends_]
    rw [@ih (history ++ own) { n with
        queuedRenegotiate := n.queuedRenegotiate || own.any Call.onNegotiator
        queued := n.queued ++ own.filterMap Call.requestedTransceiver? } offering _
        fun other member => unanswered other (List.mem_cons_of_mem _ member),
      restExtends, List.drop_left (history ++ own) rest]
    simp [List.any_append, List.filterMap_append, Bool.or_assoc]

/-- While the initiator's offer is out, the system is the signaller alone
and the negotiator only remembers what was asked of it. When the answer is
handled, if negotiation was asked for, by `Negotiate()`, a renegotiation or
a transceiver request, the requested transceivers are applied in order and
exactly one follow-up offer is created and handed on as `handleLocalOffer`
does; if nothing was asked for, the negotiator is stable again and calls
nothing. -/
theorem follow_up_once (n : Negotiator) (initiator : s.initiator = true)
    (offering : n.offering = true) (closed : Bool) (events : List (Event PayloadMap))
    (unanswered : ∀ event ∈ events, event.isAnswerHandled = false) :
    let faithful :=
      exec newPayloadFromMap conn.toPeer s closed history (events.filterMap Event.toInput)
    let requested := faithful.2.drop history.length
    let stretch := negotiatedExec newPayloadFromMap conn s n closed history events
    let answered :=
      (negotiatedStep newPayloadFromMap conn s stretch.1 stretch.2.1 .answerHandled).run stretch.2.2
    stretch.2 = faithful ∧
    stretch.1 = { n with
      queuedRenegotiate := n.queuedRenegotiate || requested.any Call.onNegotiator
      queued := n.queued ++ requested.filterMap Call.requestedTransceiver? } ∧
    if stretch.1.queuedRenegotiate then
      answered.1.1 = ⟨true, false, []⟩ ∧
        ∃ applied offer err sent,
          answered.2 = stretch.2.2 ++ applied ++ .createOffer offer err :: sent ∧
          applied.map Call.appliedTransceiver? = stretch.1.queued.map some ∧
          LocalOfferLaw s offer err sent
    else answered.1.1 = { stretch.1 with offering := false } ∧ answered.2 = stretch.2.2 := by
  dsimp only
  rw [negotiatedExec_offering newPayloadFromMap conn s history offering closed events unanswered,
    negotiatedStep_answerHandled]
  exact ⟨rfl, rfl, answerHandled_follow_up conn s _ initiator offering⟩

/-- Scenario S4: the initiator's offer is out when the peer asks for a video
transceiver; once the answer is handled the transceiver is applied and one
follow-up offer is created. -/
theorem follow_up_once_transceiver_request :
    let conn : Connection := ⟨⟨fun _ _ => none, fun _ _ _ => none, fun _ _ => none,
      fun _ _ => none, fun _ => (⟨.answer, ""⟩, none), fun _ => none, fun _ _ => none⟩,
      fun _ => (⟨.offer, "v=0"⟩, none)⟩
    let s : Signaller := ⟨true, "local", "remote"⟩
    let n : Negotiator := ⟨true, false, []⟩
    let events : List (Event Unit) := [.signal ()]
    let parse : Unit → Except GoError Payload :=
      fun _ => .ok ⟨"remote", .transceiverRequest .video .sendrecv⟩
    (s.initiator = true ∧ n.offering = true ∧ ∀ event ∈ events, event.isAnswerHandled = false) ∧
      let faithful := exec parse conn.toPeer s false [] (events.filterMap Event.toInput)
      let requested := faithful.2.drop 0
      let stretch := negotiatedExec parse conn s n false [] events
      let answered :=
        (negotiatedStep parse conn s stretch.1 stretch.2.1 .answerHandled).run stretch.2.2
      stretch.2 = faithful ∧
      stretch.1 = { n with
        queuedRenegotiate := n.queuedRenegotiate || requested.any Call.onNegotiator
        queued := n.queued ++ requested.filterMap Call.requestedTransceiver? } ∧
      if stretch.1.queuedRenegotiate then
        answered.1.1 = ⟨true, false, []⟩ ∧
          ∃ applied offer err sent,
            answered.2 = stretch.2.2 ++ applied ++ .createOffer offer err :: sent ∧
            applied.map Call.appliedTransceiver? = stretch.1.queued.map some ∧
            LocalOfferLaw s offer err sent
      else answered.1.1 = { stretch.1 with offering := false } ∧ answered.2 = stretch.2.2 :=
  ⟨⟨rfl, rfl, by decide⟩, follow_up_once _ _ _ [] _ rfl rfl _ _ (by decide)⟩

/-! ## What `Signal`'s error tells its caller -/

theorem SignalLaw.quiet_or_nil {parsed : Except GoError Payload} {calls : List Call}
    {result : Option GoError} (law : SignalLaw s parsed calls result) :
    (∀ c ∈ calls, c.onNegotiator = false) ∨ result = none := by
  cases law with
  | renegotiate | transceiverRequest => exact .inr rfl
  | offer _ _ _ answers => exact .inl (by cases answers <;> simp [Call.onNegotiator])
  | _ => exact .inl (by simp [Call.onNegotiator])

/-- Whatever the payload, the parser and the peer connection's answers, and
whatever state the negotiator is in: `Signal` returns nil exactly when the
payload is a signal it handles and none of its own calls on the peer
connection or the media engine failed. Its error lets `errors.Is` find the
error of the call that failed, unless that call was `PopulateFromSDP`,
whose error is formatted with `%s`, and never finds the parser's. The
negotiator's work on a renegotiation or a transceiver request comes after
all of `Signal`'s own calls, and `Signal` then returns nil whatever that
work met: a failed `CreateOffer`, `AddTransceiverFromKind` or
`SetLocalDescription` of the offer is never reported. -/
theorem signal_error_chain (n : Negotiator) (closed : Bool) (payload : PayloadMap) :
    let made := (negotiatedStep newPayloadFromMap conn s n closed (.signal payload)).run history
    ∃ own reaction, made.2 = history ++ own ++ reaction ∧
      SignalLaw s (newPayloadFromMap payload) own made.1.2.2 ∧
      (made.1.2.2 = none ↔
        ¬Unexpected (newPayloadFromMap payload) ∧ ∀ c ∈ own, c.peerError = none) ∧
      (∀ err, made.1.2.2 = some err →
        (∀ c ∈ own, ∀ cause, c.peerError = some cause →
          (cause ∈ err.chain ↔ c.isPopulateFromSDP = false)) ∧
        ∀ cause, newPayloadFromMap payload = .error cause → cause ∉ err.chain) ∧
      (reaction ≠ [] → made.1.2.2 = none) := by
  obtain ⟨own, extends_, law⟩ := signal_law newPayloadFromMap conn.toPeer s history payload
  obtain ⟨reaction, reacted, -⟩ := react_acts conn s (history ++ own) n own
  have stepped : (step newPayloadFromMap conn.toPeer s closed (.signal payload)).run history =
      ((closed, ((s.signal conn.toPeer newPayloadFromMap payload).run history).1),
        history ++ own) := by
    simp [step, extends_]
  rw [negotiatedStep_of_step newPayloadFromMap conn s history
    (show (Event.signal payload).toInput = some (.signal payload) from rfl) n stepped]
  dsimp only
  refine ⟨own, reaction, reacted, law, law.reportsFailure.1, fun err failed =>
    ⟨law.reportsFailure.2 err failed, fun cause parsed => ?_⟩, fun moved => ?_⟩
  · simp only [Signaller.signal, parsed, pure_run, Option.some.injEq] at failed
    simp [← failed, GoError.chain, (GoError.errorf_ne _ _).symm]
  · rcases law.quiet_or_nil with quiet | done
    · rw [react_quiet conn s (history ++ own) quiet] at reacted
      exact absurd (by simpa using reacted.symm) moved
    · exact done

end

/-! ## Opening: one offer from the initiator -/

theorem newSignallerNegotiating_run (conn : Connection) (initiator : Bool)
    (localPeerID remotePeerID : String) (history : List Call) :
    (newSignallerNegotiating conn initiator localPeerID remotePeerID).run history =
      let made := (newSignaller conn.toPeer initiator localPeerID remotePeerID).run history
      let answered :=
        (Negotiator.init.react conn made.1.1 (made.2.drop history.length)).run made.2
      ((made.1.1, answered.1, made.1.2), answered.2) := rfl

/-- `NewSignaller` with its negotiator: the initiator first registers the
default codecs; a receive-only video and then audio transceiver are
pre-added, stopping at the first failure, which is returned. Only when both
succeed does the initiator negotiate: its negotiator creates an offer inside
the call, which `handleLocalOffer` sends exactly when it was created and
installed, so one offer at most goes out, and the negotiator is left with
it out. A responder, and an initiator whose pre-adding failed, sends
nothing and leaves the negotiator stable. -/
theorem newSignaller_negotiates (conn : Connection) (initiator : Bool)
    (localPeerID remotePeerID : String) (history : List Call) :
    let made := (newSignallerNegotiating conn initiator localPeerID remotePeerID).run history
    let s : Signaller := ⟨initiator, localPeerID, remotePeerID⟩
    made.1.1 = s ∧
    ∃ calls offered,
      made.2 = history ++ (if initiator then [.registerDefaultCodecs] else []) ++ calls ++ offered ∧
      InitLaw s calls made.1.2.2 ∧
      if initiator = true ∧ made.1.2.2 = none then
        made.1.2.1 = ⟨true, false, []⟩ ∧
          ∃ offer err sent,
            offered = .createOffer offer err :: sent ∧ LocalOfferLaw s offer err sent
      else made.1.2.1 = Negotiator.init ∧ offered = [] := by
  obtain ⟨fields, calls, extends_, law⟩ :=
    newSignaller_law conn.toPeer initiator localPeerID remotePeerID history
  have codecs : ∀ c ∈ (if initiator then [Call.registerDefaultCodecs] else []),
      c.onNegotiator = false := by
    cases initiator <;> simp [Call.onNegotiator]
  rw [newSignallerNegotiating_run]
  dsimp only
  rw [fields, extends_, List.append_assoc, List.drop_left, react_quiet_append conn _ _ _ codecs,
    law.react conn]
  dsimp only
  refine ⟨rfl, calls, ?_⟩
  by_cases ready : initiator = true ∧
      ((newSignaller conn.toPeer initiator localPeerID remotePeerID).run history).1.2 = none
  · obtain ⟨offered, negotiated, negotiateLaw⟩ := negotiate_law conn ⟨initiator, localPeerID,
      remotePeerID⟩ (history ++ ((if initiator then [.registerDefaultCodecs] else []) ++ calls))
      Negotiator.init
    obtain ⟨state, offer, err, sent, rfl, installed⟩ := negotiateLaw.offer_of_init ready.1
    simp only [if_pos ready]
    exact ⟨_, by rw [negotiated]; simp only [List.append_assoc], law, state, offer, err, sent, rfl,
      installed⟩
  · simp only [if_neg ready]
    exact ⟨[], by simp, law, by simp⟩

/-- Scenario S3: an initiator whose calls all succeed sends exactly one offer. -/
example :
    let conn : Connection := ⟨⟨fun _ _ => none, fun _ _ _ => none, fun _ _ => none,
      fun _ _ => none, fun _ => (⟨.answer, ""⟩, none), fun _ => none, fun _ _ => none⟩,
      fun _ => (⟨.offer, "v=0"⟩, none)⟩
    ((newSignallerNegotiating conn true "local" "remote").run []).2 =
      [.registerDefaultCodecs, .addTransceiverFromKind .video .recvonly none,
        .addTransceiverFromKind .audio .recvonly none, .negotiate,
        .createOffer ⟨.offer, "v=0"⟩ none, .setLocalDescription ⟨.offer, "v=0"⟩ none,
        .onSignal (newPayloadSDP "local" ⟨.offer, "v=0"⟩)] := by
  decide

end PeerCalls.Signals
