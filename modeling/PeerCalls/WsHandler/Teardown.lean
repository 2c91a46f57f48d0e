import PeerCalls.WsHandler.HandleRoom

/-!
# The order of the handler's calls on the room plane

Whatever the world answers, a run of `handleRoomWithCleanup` makes its calls
on the room plane (the log lines set aside) in one order, `roomPlaneRun`.
The defer stack runs `adapter.Remove` before `cleanup`, because `Remove`
was deferred after it; the spec's teardown order, `specRoomPlaneRun`, has
them the other way round.
-/

namespace PeerCalls.WsHandler

open PeerCalls.Go PeerCalls.Go.Path

set_option autoImplicit false

def Call.isLog : Call → Bool
  | .log _ _ => true
  | _ => false

/-- The calls on the room plane: everything but the log lines. -/
def roomPlane (calls : List Call) : List Call :=
  calls.filter fun c => !c.isLog

@[simp] theorem roomPlane_nil : roomPlane [] = [] := rfl

@[simp] theorem roomPlane_append (xs ys : List Call) :
    roomPlane (xs ++ ys) = roomPlane xs ++ roomPlane ys :=
  List.filter_append xs ys

@[simp] theorem roomPlane_cons (c : Call) (rest : List Call) :
    roomPlane (c :: rest) = if c.isLog then roomPlane rest else c :: roomPlane rest := by
  by_cases log : c.isLog <;> simp [roomPlane, log]

theorem roomPlane_map {α : Type} (xs : List α) (f : α → Call)
    (notLog : ∀ a, (f a).isLog = false) :
    roomPlane (xs.map f) = xs.map f := by
  induction xs with
  | nil => rfl
  | cons a xs ih => simp [notLog, ih]

/-- The room-plane calls of one run, in the order the defer stack gives. -/
def roomPlaneRun (env : Env) (cleanup : Bool) : List Call :=
  match env.accept with
  | some _ => []
  | none =>
    let (room, clientID) := roomClientID env.urlPath
    let adapter := env.enter room
    [.enter room adapter, .add adapter clientID env.add] ++
    (match env.add with
      | some _ => []
      | none =>
        env.frames.map (fun message => .handleMessage ⟨clientID, room, adapter, message⟩) ++
        [.remove adapter clientID env.remove] ++
        if cleanup then [.cleanup ⟨clientID, room, adapter⟩] else []) ++
    [.exit room, .closeClient clientID, .closeSocket statusInternalError ""]

/-- Modelled from the spec: the room-plane calls as its teardown order has
them, `cleanup` first, then `adapter.Remove`. -/
def specRoomPlaneRun (env : Env) (cleanup : Bool) : List Call :=
  match env.accept with
  | some _ => []
  | none =>
    let (room, clientID) := roomClientID env.urlPath
    let adapter := env.enter room
    [.enter room adapter, .add adapter clientID env.add] ++
    (match env.add with
      | some _ => []
      | none =>
        env.frames.map (fun message => .handleMessage ⟨clientID, room, adapter, message⟩) ++
        (if cleanup then [.cleanup ⟨clientID, room, adapter⟩] else []) ++
        [.remove adapter clientID env.remove]) ++
    [.exit room, .closeClient clientID, .closeSocket statusInternalError ""]

@[simp] theorem call_run (c : Call) (f : Frame) :
    (call c).run f = ((), { f with calls := f.calls ++ [c] }) := rfl

@[simp] theorem logf_run (format : String) (args : List LogArg) (f : Frame) :
    (logf format args).run f = ((), { f with calls := f.calls ++ [.log format args] }) := rfl

@[simp] theorem defer_run (d : Deferred) (f : Frame) :
    («defer» d).run f = ((), { f with deferred := d :: f.deferred }) := rfl

theorem subscribe_run (frames : List Message) (result : Option GoError) (g : Message → Call)
    (f : Frame) :
    (subscribe frames result fun message => call (g message)).run f =
      (result, { f with calls := f.calls ++ frames.map g }) := by
  induction frames generalizing f with
  | nil => simp [subscribe]
  | cons message frames ih =>
    simp only [subscribe, List.forM_cons] at ih ⊢
    simpa using ih { f with calls := f.calls ++ [g message] }

def subscriptionLog (err : Option GoError) : List Call :=
  if isCanceled err ∨ closeStatus err = statusNormalClosure ∨ closeStatus err = statusGoingAway
  then [] else err.toList.map fun e => .log "Subscription error: %s" [.err e]

@[simp] theorem logSubscriptionError_run (err : Option GoError) (f : Frame) :
    (logSubscriptionError err).run f =
      ((), { f with calls := f.calls ++ subscriptionLog err }) := by
  unfold logSubscriptionError subscriptionLog
  by_cases canceled : isCanceled err
  · simp [canceled]
  by_cases quiet : closeStatus err = statusNormalClosure ∨ closeStatus err = statusGoingAway
  · simp [canceled, quiet]
  · cases err <;> simp [canceled, quiet]

@[simp] theorem roomPlane_subscriptionLog (err : Option GoError) :
    roomPlane (subscriptionLog err) = [] := by
  unfold subscriptionLog
  split_ifs <;> cases err <;> simp [Call.isLog]

def openingCalls (env : Env) : List Call :=
  let (room, clientID) := roomClientID env.urlPath
  [.log "New websocket connection - room: %s, clientID: %s" [.str room, .str clientID],
    .enter room (env.enter room), .add (env.enter room) clientID env.add]

def openingDefers (env : Env) : List Deferred :=
  let (room, clientID) := roomClientID env.urlPath
  [.exitRoom room clientID, .closeClient clientID, .closeSocket room clientID]

def sessionDefers (env : Env) (cleanup : Bool) : List Deferred :=
  let (room, clientID) := roomClientID env.urlPath
  .removeClient (env.enter room) room clientID ::
    if cleanup then [.cleanup ⟨clientID, room, env.enter room⟩] else []

def handled (env : Env) (message : Message) : Call :=
  let (room, clientID) := roomClientID env.urlPath
  .handleMessage ⟨clientID, room, env.enter room, message⟩

theorem handleRoomWithCleanup_of_accept_failed {env : Env} {err : GoError}
    (failed : env.accept = some err) (cleanup : Bool) :
    handleRoomWithCleanup env cleanup =
      [.log "Error accepting websocket connection: %s" [.err err]] := by
  simp [handleRoomWithCleanup, handleRoomWithCleanup.body, failed, Frame.ret]

theorem handleRoomWithCleanup_of_add_failed {env : Env} {err : GoError}
    (accepted : env.accept = none) (failed : env.add = some err) (cleanup : Bool) :
    handleRoomWithCleanup env cleanup =
      openingCalls env ++ [.log "Error adding client to room: %s" [.err err]] ++
        (openingDefers env).flatMap (Deferred.run env) := by
  simp [handleRoomWithCleanup, handleRoomWithCleanup.body, accepted, failed, Frame.ret,
    openingCalls, openingDefers]

/-- A session: the frames are handled in order, the end of the subscription
is logged, and the defer stack runs from `adapter.Remove` down to the socket
close. -/
theorem handleRoomWithCleanup_of_added {env : Env} (accepted : env.accept = none)
    (added : env.add = none) (cleanup : Bool) :
    handleRoomWithCleanup env cleanup =
      openingCalls env ++ env.frames.map (handled env) ++ subscriptionLog env.subscribe ++
        (sessionDefers env cleanup ++ openingDefers env).flatMap (Deferred.run env) := by
  cases cleanup <;>
  simp [handleRoomWithCleanup, handleRoomWithCleanup.body, accepted, added, subscribe_run,
    Frame.ret, openingCalls, openingDefers, sessionDefers, handled]

theorem handleRoomWithCleanup_roomPlane (env : Env) (cleanup : Bool) :
    roomPlane (handleRoomWithCleanup env cleanup) = roomPlaneRun env cleanup := by
  rcases accepted : env.accept with _ | acceptErr
  · rcases added : env.add with _ | addErr
    · have frames := roomPlane_map env.frames (handled env) fun _ => rfl
      rw [handleRoomWithCleanup_of_added accepted added]
      rcases removed : env.remove with _ | removeErr <;> cases cleanup <;>
      simp [roomPlaneRun, accepted, added, removed, openingCalls, openingDefers, sessionDefers,
        Deferred.run, Call.isLog, frames, handled]
    · rw [handleRoomWithCleanup_of_add_failed accepted added]
      simp [roomPlaneRun, accepted, added, openingCalls, openingDefers, Deferred.run, Call.isLog]
  · rw [handleRoomWithCleanup_of_accept_failed accepted]
    simp [roomPlaneRun, accepted, Call.isLog]

/-- At `/ws/r/c`, with every call succeeding and a cleanup callback given,
`adapter.Remove` runs before the cleanup callback, not after it. -/
theorem remove_runs_before_cleanup :
    let env : Env :=
      ⟨[47, 119, 115, 47, 114, 47, 99], none, fun _ => ⟨0⟩, none, [], none, none⟩
    roomPlane (handleRoomWithCleanup env true) =
      [.enter [114] ⟨0⟩, .add ⟨0⟩ [99] none, .remove ⟨0⟩ [99] none,
        .cleanup ⟨[99], [114], ⟨0⟩⟩, .exit [114], .closeClient [99],
        .closeSocket statusInternalError ""] ∧
    roomPlane (handleRoomWithCleanup env true) ≠ specRoomPlaneRun env true := by
  decide

end PeerCalls.WsHandler
