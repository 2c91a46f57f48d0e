import PeerCalls.Signals.Lifecycle

/-!
# The negotiator

`negotiator.Negotiator` is not in the sources; it is modelled from the
spec's state table. It is `stable` or has a local offer out
(`have-local-offer`, `offering` here), and it remembers one bit, a queued
renegotiation, and the transceiver requests it has queued.

* `Negotiate()` from `stable` makes an initiator create an offer, which it
  hands to the signaller's `handleLocalOffer`, and makes a responder call
  the signaller's `handleLocalRequestNegotiation`; with an offer out it
  only sets the bit.
* `AddTransceiverFromKind(request)` applies the request to the peer
  connection, or queues it while an offer is out, and then negotiates.
* When the remote answer has been handled the offer is no longer out, and
  if a renegotiation was queued the queued requests are applied, in order,
  just before one follow-up offer.

Where the table is silent the model takes the reading the rest of the spec
gives: a failed `CreateOffer` still moves to `have-local-offer`, the table's
next state, and a request queued while an offer is out asks for the
follow-up offer too, as scenario S4 has it. The mutex that guards the state
makes each transition atomic, so a transition is one function here. The
peer connection answers `CreateOffer`, the one call of the negotiator the
signaller never makes, like every other call: as a function of all calls
made before.
-/

namespace PeerCalls.Signals

open PeerCalls.Go

set_option autoImplicit false

structure Connection extends Peer where
  createOffer : List Call → SessionDescription × Option GoError

def Connection.CreateOffer (conn : Connection) : SignalM (SessionDescription × Option GoError) :=
  ask conn.createOffer fun result => .createOffer result.1 result.2

/-- Modelled from the spec: the negotiator's state. -/
structure Negotiator where
  offering : Bool
  queuedRenegotiate : Bool
  queued : List (RTPCodecType × RTPTransceiverDirection)
deriving Repr, DecidableEq

def Call.isCreateOffer : Call → Bool
  | .createOffer _ _ => true
  | _ => false

def Call.onNegotiator : Call → Bool
  | .negotiate | .addTransceiverRequest _ _ => true
  | _ => false

def Call.requestedTransceiver? : Call → Option (RTPCodecType × RTPTransceiverDirection)
  | .addTransceiverRequest kind direction => some (kind, direction)
  | _ => none

def Call.appliedTransceiver? : Call → Option (RTPCodecType × RTPTransceiverDirection)
  | .addTransceiverFromKind kind direction _ => some (kind, direction)
  | _ => none

namespace Negotiator

/-- Modelled from the spec: `NewNegotiator`, stable with nothing queued. -/
def init : Negotiator := ⟨false, false, []⟩

variable (conn : Connection) (s : Signaller)

/-- Modelled from the spec: `Negotiate()`. -/
def negotiate (n : Negotiator) : SignalM Negotiator :=
  if n.offering then
    return { n with queuedRenegotiate := true }
  else if s.initiator then do
    let offer ← conn.CreateOffer
    s.handleLocalOffer conn.toPeer offer.1 offer.2
    return { n with offering := true }
  else do
    s.handleLocalRequestNegotiation
    return n

/-- Modelled from the spec: `AddTransceiverFromKind(request)`. -/
def addTransceiverFromKind (n : Negotiator) (kind : RTPCodecType)
    (direction : RTPTransceiverDirection) : SignalM Negotiator :=
  if n.offering then
    negotiate conn s { n with queued := n.queued ++ [(kind, direction)] }
  else do
    let _ ← conn.toPeer.AddTransceiverFromKind kind direction
    negotiate conn s n

def applyQueued : List (RTPCodecType × RTPTransceiverDirection) → SignalM Unit
  | [] => return ()
  | (kind, direction) :: queued => do
    let _ ← conn.toPeer.AddTransceiverFromKind kind direction
    applyQueued queued

/-- Modelled from the spec: the remote answer has been handled. -/
def answerHandled (n : Negotiator) : SignalM Negotiator :=
  if n.offering then
    if n.queuedRenegotiate then do
      applyQueued conn n.queued
      negotiate conn s init
    else return { n with offering := false }
  else return n

def receive (n : Negotiator) : Call → SignalM Negotiator
  | .negotiate => negotiate conn s n
  | .addTransceiverRequest kind direction => addTransceiverFromKind conn s n kind direction
  | _ => return n

/-- The negotiator answers, in order, the calls an entry point made on it. -/
def react (n : Negotiator) : List Call → SignalM Negotiator
  | [] => return n
  | c :: calls => do react (← receive conn s n c) calls

end Negotiator

/-! ## What each transition does -/

/-- `Negotiate()`, row by row of the spec's table. -/
inductive NegotiateLaw (s : Signaller) (n : Negotiator) : Negotiator → List Call → Prop
  | queue (offering : n.offering = true) :
    NegotiateLaw s n { n with queuedRenegotiate := true } []
  | offer (stable : n.offering = false) (initiator : s.initiator = true)
      (offer : SessionDescription) (err : Option GoError) {calls : List Call}
      (installed : LocalOfferLaw s offer err calls) :
    NegotiateLaw s n { n with offering := true } (.createOffer offer err :: calls)
  | request (stable : n.offering = false) (responder : s.initiator = false) :
    NegotiateLaw s n n [.onSignal (newPayloadRenegotiate s.localPeerID)]

/-- One offer may still be created: the signaller is the initiator and no
offer is out. -/
def Negotiator.canOffer (s : Signaller) (n : Negotiator) : Bool :=
  s.initiator && !n.offering

/-- Every payload `calls` sends is the signaller's own, an initiator's is
never a transceiver request, and every session description sent was
installed just before. -/
def SendsSafely (s : Signaller) (calls : List Call) : Prop :=
  EmitsOnlyInstalled calls ∧ ∀ payload, .onSignal payload ∈ calls →
    payload.userID = s.localPeerID ∧
      (s.initiator = true → ∀ kind direction, payload.signal ≠ .transceiverRequest kind direction)

/-- What the negotiator's actions keep, other than handling the answer: they
send safely, and they create at most one offer, only when one may be
created, after which none may. -/
structure Negotiator.Acts (s : Signaller) (n n' : Negotiator) (calls : List Call) : Prop where
  sendsSafely : SendsSafely s calls
  offers : calls.countP Call.isCreateOffer + (if n'.canOffer s then 1 else 0) ≤
    if n.canOffer s then 1 else 0

section

variable {s : Signaller}

theorem SendsSafely.append {xs ys : List Call} (left : SendsSafely s xs)
    (right : SendsSafely s ys) : SendsSafely s (xs ++ ys) := by
  refine ⟨emitsOnlyInstalled_append left.1 right.1, fun payload sent => ?_⟩
  rcases List.mem_append.mp sent with inLeft | inRight
  · exact left.2 payload inLeft
  · exact right.2 payload inRight

theorem sendsSafely_of_silent {calls : List Call} (silent : ∀ payload, .onSignal payload ∉ calls) :
    SendsSafely s calls :=
  ⟨emitsOnlyInstalled_of_quiet fun payload sent => absurd sent (silent payload),
    fun payload sent => absurd sent (silent payload)⟩

theorem LocalOfferLaw.sendsSafely {offer : SessionDescription} {err : Option GoError}
    {calls : List Call} (law : LocalOfferLaw s offer err calls) : SendsSafely s calls := by
  cases law with
  | sent =>
    exact ⟨emitsOnlyInstalled_installed offer _ rfl, by simp [newPayloadSDP]⟩
  | _ => exact sendsSafely_of_silent (by simp)

theorem Negotiator.Acts.refl (n : Negotiator) : Negotiator.Acts s n n [] :=
  ⟨sendsSafely_of_silent (by simp), by simp⟩

theorem Negotiator.Acts.trans {n n₁ n₂ : Negotiator} {xs ys : List Call}
    (first : Negotiator.Acts s n n₁ xs) (second : Negotiator.Acts s n₁ n₂ ys) :
    Negotiator.Acts s n n₂ (xs ++ ys) := by
  refine ⟨first.sendsSafely.append second.sendsSafely, ?_⟩
  have before := first.offers
  have after := second.offers
  rw [List.countP_append]
  omega

theorem NegotiateLaw.acts {n n' : Negotiator} {calls : List Call}
    (law : NegotiateLaw s n n' calls) : Negotiator.Acts s n n' calls := by
  cases law with
  | queue offering =>
    exact ⟨sendsSafely_of_silent (by simp), by simp [Negotiator.canOffer, offering]⟩
  | offer stable initiator offer err installed =>
    have created : SendsSafely s [.createOffer offer err] := sendsSafely_of_silent (by simp)
    refine ⟨created.append installed.sendsSafely, ?_⟩
    cases installed <;> simp [Negotiator.canOffer, stable, initiator, Call.isCreateOffer]
  | request stable responder =>
    refine ⟨⟨emitsOnlyInstalled_of_quiet (by simp [newPayloadRenegotiate]), ?_⟩,
      by simp [Call.isCreateOffer]⟩
    simp [newPayloadRenegotiate, responder]

theorem Negotiator.acts_of_applied {applied : List Call}
    {queued : List (RTPCodecType × RTPTransceiverDirection)}
    (shape : applied.map Call.appliedTransceiver? = queued.map some) (n : Negotiator) :
    Negotiator.Acts s n n applied := by
  have applies : ∀ c ∈ applied, ∃ kind direction err,
      c = .addTransceiverFromKind kind direction err := by
    intro c member
    obtain ⟨_, -, found⟩ := List.mem_map.mp (shape ▸ List.mem_map_of_mem _ member)
    cases c <;> simp [Call.appliedTransceiver?] at found ⊢
  refine ⟨sendsSafely_of_silent fun payload sent => ?_, ?_⟩
  · obtain ⟨_, _, _, same⟩ := applies _ sent
    cases same
  · rw [List.countP_eq_zero.mpr fun c member => ?_]
    · simp
    · obtain ⟨_, _, _, rfl⟩ := applies c member
      simp [Call.isCreateOffer]

theorem NegotiateLaw.offer_of_init {n' : Negotiator} {calls : List Call}
    (law : NegotiateLaw s Negotiator.init n' calls) (initiator : s.initiator = true) :
    n' = ⟨true, false, []⟩ ∧
      ∃ offer err sent,
        calls = .createOffer offer err :: sent ∧ LocalOfferLaw s offer err sent := by
  cases law with
  | queue offering => simp [Negotiator.init] at offering
  | offer _ _ offer err installed => exact ⟨rfl, offer, err, _, rfl, installed⟩
  | request _ responder => simp [initiator] at responder

end

@[simp] theorem bind_run {α β : Type} (x : SignalM α) (f : α → SignalM β) (history : List Call) :
    (x >>= f).run history = (f (x.run history).1).run (x.run history).2 := rfl

section

variable (conn : Connection) (s : Signaller) (history : List Call)

theorem negotiate_law (n : Negotiator) :
    ∃ calls, ((n.negotiate conn s).run history).2 = history ++ calls ∧
      NegotiateLaw s n ((n.negotiate conn s).run history).1 calls := by
  obtain ⟨_ | _, bit, queued⟩ := n
  · cases initiator : s.initiator
    · refine ⟨[.onSignal (newPayloadRenegotiate s.localPeerID)], ?_, ?_⟩
      · simp [Negotiator.negotiate, initiator, Signaller.handleLocalRequestNegotiation]
      · simpa [Negotiator.negotiate, initiator] using NegotiateLaw.request rfl initiator
    · obtain ⟨calls, extends_, installed⟩ := handleLocalOffer_law conn.toPeer s
        (history ++ [.createOffer (conn.createOffer history).1 (conn.createOffer history).2])
        (conn.createOffer history).1 (conn.createOffer history).2
      refine ⟨.createOffer (conn.createOffer history).1 (conn.createOffer history).2 :: calls, ?_,
        ?_⟩
      · simp [Negotiator.negotiate, initiator, Connection.CreateOffer, extends_]
      · simpa [Negotiator.negotiate, initiator, Connection.CreateOffer] using
          @NegotiateLaw.offer s ⟨false, bit, queued⟩ rfl initiator _ _ calls installed
  · exact ⟨[], by simp [Negotiator.negotiate], by
      simpa [Negotiator.negotiate] using @NegotiateLaw.queue s ⟨true, bit, queued⟩ rfl⟩

theorem addTransceiverFromKind_offering {n : Negotiator} (offering : n.offering = true)
    (kind : RTPCodecType) (direction : RTPTransceiverDirection) :
    (n.addTransceiverFromKind conn s kind direction).run history =
      ({ n with queuedRenegotiate := true, queued := n.queued ++ [(kind, direction)] },
        history) := by
  obtain ⟨_, bit, queued⟩ := n
  subst offering
  simp [Negotiator.addTransceiverFromKind, Negotiator.negotiate]

theorem addTransceiverFromKind_acts (n : Negotiator) (kind : RTPCodecType)
    (direction : RTPTransceiverDirection) :
    ∃ calls, ((n.addTransceiverFromKind conn s kind direction).run history).2 = history ++ calls ∧
      Negotiator.Acts s n ((n.addTransceiverFromKind conn s kind direction).run history).1
        calls := by
  cases offering : n.offering
  · obtain ⟨calls, extends_, law⟩ := negotiate_law conn s
      (history ++ [.addTransceiverFromKind kind direction
        (conn.addTransceiverFromKind history kind direction)]) n
    refine ⟨.addTransceiverFromKind kind direction
      (conn.addTransceiverFromKind history kind direction) :: calls, ?_, ?_⟩
    · simp [Negotiator.addTransceiverFromKind, offering, Peer.AddTransceiverFromKind, extends_]
    · simp only [Negotiator.addTransceiverFromKind, offering, Peer.AddTransceiverFromKind,
        Bool.false_eq_true, if_false, bind_run, ask_run]
      exact (@Negotiator.acts_of_applied s [.addTransceiverFromKind kind direction
        (conn.addTransceiverFromKind history kind direction)] [(kind, direction)] rfl n).trans
        law.acts
  · rw [addTransceiverFromKind_offering conn s history offering]
    exact ⟨[], by simp, sendsSafely_of_silent (by simp), by simp [Negotiator.canOffer, offering]⟩

theorem applyQueued_law (queued : List (RTPCodecType × RTPTransceiverDirection)) :
    ∃ applied, ((Negotiator.applyQueued conn queued).run history).2 = history ++ applied ∧
      applied.map Call.appliedTransceiver? = queued.map some := by
  induction queued generalizing history with
  | nil => exact ⟨[], by simp [Negotiator.applyQueued], rfl⟩
  | cons request queued ih =>
    obtain ⟨kind, direction⟩ := request
    obtain ⟨applied, extends_, shape⟩ := ih (history ++ [.addTransceiverFromKind kind direction
      (conn.addTransceiverFromKind history kind direction)])
    exact ⟨.addTransceiverFromKind kind direction
        (conn.addTransceiverFromKind history kind direction) :: applied,
      by simp [Negotiator.applyQueued, Peer.AddTransceiverFromKind, extends_],
      by simp [shape, Call.appliedTransceiver?]⟩

/-- Handling the answer: nothing while stable; with an offer out, back to
stable, and if a renegotiation was queued, the queued requests applied in
order and then `Negotiate()` from stable. -/
theorem answerHandled_law (n : Negotiator) :
    (n.offering = false → (n.answerHandled conn s).run history = (n, history)) ∧
    (n.offering = true → n.queuedRenegotiate = false →
      (n.answerHandled conn s).run history = ({ n with offering := false }, history)) ∧
    (n.offering = true → n.queuedRenegotiate = true →
      ∃ applied calls, ((n.answerHandled conn s).run history).2 = history ++ applied ++ calls ∧
        applied.map Call.appliedTransceiver? = n.queued.map some ∧
        NegotiateLaw s Negotiator.init ((n.answerHandled conn s).run history).1 calls) := by
  refine ⟨fun stable => by simp [Negotiator.answerHandled, stable],
    fun offering unqueued => by simp [Negotiator.answerHandled, offering, unqueued],
    fun offering queued => ?_⟩
  obtain ⟨applied, extends_, shape⟩ := applyQueued_law conn history n.queued
  obtain ⟨calls, negotiated, law⟩ :=
    negotiate_law conn s ((Negotiator.applyQueued conn n.queued).run history).2 Negotiator.init
  refine ⟨applied, calls, ?_, shape, ?_⟩
  · simp only [Negotiator.answerHandled, offering, queued, if_true, bind_run]
    rw [negotiated, extends_]
  · simpa [Negotiator.answerHandled, offering, queued] using law

theorem answerHandled_follow_up {n : Negotiator} (initiator : s.initiator = true)
    (offering : n.offering = true) :
    if n.queuedRenegotiate then
      ((n.answerHandled conn s).run history).1 = ⟨true, false, []⟩ ∧
        ∃ applied offer err sent,
          ((n.answerHandled conn s).run history).2 =
            history ++ applied ++ .createOffer offer err :: sent ∧
          applied.map Call.appliedTransceiver? = n.queued.map some ∧
          LocalOfferLaw s offer err sent
    else ((n.answerHandled conn s).run history).1 = { n with offering := false } ∧
      ((n.answerHandled conn s).run history).2 = history := by
  obtain ⟨-, unqueued, queued⟩ := answerHandled_law conn s history n
  split
  next bit =>
    obtain ⟨applied, calls, extends_, shape, law⟩ := queued offering bit
    obtain ⟨state, offer, err, sent, rfl, installed⟩ := law.offer_of_init initiator
    exact ⟨state, applied, offer, err, sent, by rw [extends_, List.append_assoc], shape, installed⟩
  next bit =>
    rw [unqueued offering (by simpa using bit)]
    exact ⟨rfl, rfl⟩

theorem receive_quiet {n : Negotiator} {c : Call} (quiet : c.onNegotiator = false) :
    (n.receive conn s c).run history = (n, history) := by
  cases c <;> simp_all [Negotiator.receive, Call.onNegotiator]

theorem react_quiet {n : Negotiator} {calls : List Call}
    (quiet : ∀ c ∈ calls, c.onNegotiator = false) :
    (n.react conn s calls).run history = (n, history) := by
  induction calls with
  | nil => rfl
  | cons c calls ih =>
    simp only [Negotiator.react, bind_run,
      receive_quiet conn s history (quiet c (List.mem_cons_self _ _))]
    exact ih fun c' member => quiet c' (List.mem_cons_of_mem _ member)

/-- With an offer out the negotiator calls nothing: it only remembers that
negotiation was asked for, and queues the transceiver requests. -/
theorem react_offering {n : Negotiator} (offering : n.offering = true) (calls : List Call) :
    (n.react conn s calls).run history =
      ({ n with queuedRenegotiate := n.queuedRenegotiate || calls.any Call.onNegotiator,
                queued := n.queued ++ calls.filterMap Call.requestedTransceiver? }, history) := by
  induction calls generalizing n with
  | nil => simp [Negotiator.react]
  | cons c calls ih =>
    obtain ⟨_, bit, queued⟩ := n
    subst offering
    cases c <;> simp [Negotiator.react, Negotiator.receive, Negotiator.negotiate, ih,
      addTransceiverFromKind_offering, Call.onNegotiator, Call.requestedTransceiver?]

theorem receive_acts (n : Negotiator) (c : Call) :
    ∃ calls, ((n.receive conn s c).run history).2 = history ++ calls ∧
      Negotiator.Acts s n ((n.receive conn s c).run history).1 calls := by
  cases c with
  | negotiate =>
    obtain ⟨calls, extends_, law⟩ := negotiate_law conn s history n
    exact ⟨calls, extends_, law.acts⟩
  | addTransceiverRequest kind direction =>
    exact addTransceiverFromKind_acts conn s history n kind direction
  | _ => exact ⟨[], by simp [Negotiator.receive], by
      simpa [Negotiator.receive] using Negotiator.Acts.refl n⟩

theorem react_acts (n : Negotiator) (calls : List Call) :
    ∃ made, ((n.react conn s calls).run history).2 = history ++ made ∧
      Negotiator.Acts s n ((n.react conn s calls).run history).1 made := by
  induction calls generalizing n history with
  | nil => exact ⟨[], (List.append_nil history).symm, Negotiator.Acts.refl n⟩
  | cons c calls ih =>
    obtain ⟨first, extends_, acts⟩ := receive_acts conn s history n c
    obtain ⟨rest, restExtends, restActs⟩ :=
      ih ((n.receive conn s c).run history).2 ((n.receive conn s c).run history).1
    simp only [Negotiator.react, bind_run]
    exact ⟨first ++ rest, by rw [restExtends, extends_, List.append_assoc], acts.trans restActs⟩

theorem react_quiet_append {n : Negotiator} {xs : List Call} (ys : List Call)
    (quiet : ∀ c ∈ xs, c.onNegotiator = false) :
    (n.react conn s (xs ++ ys)).run history = (n.react conn s ys).run history := by
  induction xs with
  | nil => rfl
  | cons c xs ih =>
    simp only [List.cons_append, Negotiator.react, bind_run,
      receive_quiet conn s history (quiet c (List.mem_cons_self _ _))]
    exact ih fun c' member => quiet c' (List.mem_cons_of_mem _ member)

/-- The negotiator's answer to what `initialize` does: `Negotiate()` from
stable if the initiator pre-added both transceivers, and nothing otherwise. -/
theorem InitLaw.react {calls : List Call} {err : Option GoError} (law : InitLaw s calls err) :
    (Negotiator.init.react conn s calls).run history =
      if s.initiator = true ∧ err = none then (Negotiator.init.negotiate conn s).run history
      else (Negotiator.init, history) := by
  cases law with
  | ready =>
    cases initiator : s.initiator <;> simp [initiator, Negotiator.react, Negotiator.receive]
  | _ => simp [Negotiator.react, Negotiator.receive]

end

end PeerCalls.Signals
