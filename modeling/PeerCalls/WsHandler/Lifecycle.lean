import PeerCalls.WsHandler.Teardown

/-!
# What every run of the handler keeps balanced

Read off the handler's three paths (`handleRoomWithCleanup_of_accept_failed`,
`_of_add_failed`, `_of_added`), a run's calls on the room manager and on its
adapter are `Enter`, the adapter calls, then `Exit`
(`handleRoomWithCleanup_span`). So an accepted socket enters its room once
and exits it once, after, and `adapter.Remove` is called exactly when
`adapter.Add` succeeded, on the adapter `rooms.Enter` returned. Apart from
that, a subscription that ends by cancellation, by a normal closure or by the
peer going away is not logged as an error, while any other error is logged
once.
-/

namespace PeerCalls.WsHandler

open PeerCalls.Go

set_option autoImplicit false

def Call.isRoomCall : Call → Bool
  | .enter _ _ | .exit _ => true
  | _ => false

def Call.isRemove : Call → Bool
  | .remove _ _ _ => true
  | _ => false

def Call.usesAdapter : Call → Bool
  | .add _ _ _ | .handleMessage _ | .cleanup _ | .remove _ _ _ => true
  | _ => false

def Call.onRoom (c : Call) : Bool :=
  c.isRoomCall || c.usesAdapter

/-- The calls on the adapter, in order: `Add`, then, if it succeeded, one
`handleMessage` per frame, `Remove` and the cleanup callback. -/
def adapterCalls (env : Env) (cleanup : Bool) : List Call :=
  let (room, clientID) := roomClientID env.urlPath
  .add (env.enter room) clientID env.add ::
    match env.add with
    | some _ => []
    | none => env.frames.map (handled env) ++ .remove (env.enter room) clientID env.remove ::
        if cleanup then [.cleanup ⟨clientID, room, env.enter room⟩] else []

def Call.isSubscriptionError : Call → Bool
  | .log format _ => format = "Subscription error: %s"
  | _ => false

section

variable (p : Call → Bool)

theorem filter_frames (env : Env) (notHandled : ∀ event, p (.handleMessage event) = false) :
    (env.frames.map (handled env)).filter p = [] := by
  induction env.frames with
  | nil => rfl
  | cons message frames ih => simp [ih, handled, notHandled]

theorem filter_frames_self (env : Env) (kept : ∀ event, p (.handleMessage event) = true) :
    (env.frames.map (handled env)).filter p = env.frames.map (handled env) := by
  induction env.frames with
  | nil => rfl
  | cons message frames ih => simp [ih, handled, kept]

theorem filter_onRoom (within : ∀ c, p c = true → c.onRoom = true) (calls : List Call) :
    (calls.filter Call.onRoom).filter p = calls.filter p := by
  rw [List.filter_filter]
  congr 1
  funext c
  cases kept : p c <;> simp [within c, kept]

theorem filter_subscriptionLog (err : Option GoError)
    (notLog : ∀ format args, p (.log format args) = false) :
    (subscriptionLog err).filter p = [] := by
  unfold subscriptionLog
  split_ifs <;> cases err <;> simp [notLog]

end

theorem filter_subscriptionLog_self (err : Option GoError) :
    (subscriptionLog err).filter Call.isSubscriptionError = subscriptionLog err := by
  unfold subscriptionLog
  split_ifs <;> cases err <;> simp [Call.isSubscriptionError]

/-- The calls of a run on the room manager and on the adapter: none if the
socket was not accepted, else `Enter`, the adapter calls, and `Exit`. -/
theorem handleRoomWithCleanup_span (env : Env) (cleanup : Bool) :
    (handleRoomWithCleanup env cleanup).filter Call.onRoom =
      if env.accept = none then
        .enter (roomClientID env.urlPath).1 (env.enter (roomClientID env.urlPath).1) ::
          (adapterCalls env cleanup ++ [.exit (roomClientID env.urlPath).1])
      else [] := by
  rcases accepted : env.accept with _ | acceptErr
  · rcases added : env.add with _ | addErr
    · rw [handleRoomWithCleanup_of_added accepted added]
      rcases removed : env.remove with _ | removeErr <;> cases cleanup <;>
      simp [filter_frames_self, filter_subscriptionLog, Call.onRoom, Call.isRoomCall,
        Call.usesAdapter, openingCalls, openingDefers, sessionDefers, Deferred.run, adapterCalls,
        added, removed]
    · rw [handleRoomWithCleanup_of_add_failed accepted added]
      simp [Call.onRoom, Call.isRoomCall, Call.usesAdapter, openingCalls, openingDefers,
        Deferred.run, adapterCalls, added]
  · simp [handleRoomWithCleanup_of_accept_failed accepted, Call.onRoom, Call.isRoomCall,
      Call.usesAdapter]

theorem adapterCalls_usesAdapter (env : Env) (cleanup : Bool) :
    ∀ c ∈ adapterCalls env cleanup, c.usesAdapter = true := by
  rcases added : env.add with _ | addErr <;> cases cleanup <;>
    simp [adapterCalls, Call.usesAdapter, handled, roomClientID, added, or_imp, forall_and]

theorem filter_isRoomCall_adapterOnly {mids : List Call}
    (uses : ∀ m ∈ mids, m.usesAdapter = true) :
    mids.filter Call.isRoomCall = [] :=
  List.filter_eq_nil_iff.mpr fun c member => by
    have adapterCall := uses c member
    cases c <;> simp_all [Call.isRoomCall, Call.usesAdapter]

theorem onRoom_of_isRoomCall (c : Call) (room : c.isRoomCall = true) : c.onRoom = true := by
  simp [Call.onRoom, room]

/-- An accepted socket enters its room and exits it, once each, Exit last;
a socket that was not accepted touches no room. -/
theorem enter_exit_balanced (env : Env) (cleanup : Bool) :
    (handleRoomWithCleanup env cleanup).filter Call.isRoomCall =
      if env.accept = none then
        [.enter (roomClientID env.urlPath).1 (env.enter (roomClientID env.urlPath).1),
          .exit (roomClientID env.urlPath).1]
      else [] := by
  rw [← filter_onRoom _ onRoom_of_isRoomCall, handleRoomWithCleanup_span]
  split <;>
    simp [Call.isRoomCall, filter_isRoomCall_adapterOnly (adapterCalls_usesAdapter env cleanup)]

/-- `adapter.Remove(clientID)` is called once, on the adapter `rooms.Enter`
returned, exactly when `adapter.Add` succeeded. -/
theorem remove_iff_added (env : Env) (cleanup : Bool) :
    (handleRoomWithCleanup env cleanup).filter Call.isRemove =
      if env.accept = none ∧ env.add = none then
        [.remove (env.enter (roomClientID env.urlPath).1) (roomClientID env.urlPath).2 env.remove]
      else [] := by
  rw [← filter_onRoom _ (fun c removes => by cases c <;> simp_all [Call.onRoom, Call.isRemove,
    Call.usesAdapter]), handleRoomWithCleanup_span]
  rcases accepted : env.accept with _ | acceptErr
  · rcases added : env.add with _ | addErr <;> cases cleanup <;>
      simp [adapterCalls, filter_frames, Call.isRemove, handled, added]
  · rfl

/-- A subscription error is logged once, and only when the client was in
the room and the error is neither `context.Canceled` nor a close with
status 1000 or 1001, looked up through any `%w` wrapping. -/
theorem subscription_error_logged (env : Env) (cleanup : Bool) :
    (handleRoomWithCleanup env cleanup).filter Call.isSubscriptionError =
      match env.accept, env.add, env.subscribe with
      | none, none, some err =>
        if err.isCanceled ∨ err.closeCode = statusNormalClosure ∨
            err.closeCode = statusGoingAway then []
        else [.log "Subscription error: %s" [.err err]]
      | _, _, _ => [] := by
  rcases accepted : env.accept with _ | acceptErr
  · rcases added : env.add with _ | addErr
    · have logged : (handleRoomWithCleanup env cleanup).filter Call.isSubscriptionError =
          subscriptionLog env.subscribe := by
        rw [handleRoomWithCleanup_of_added accepted added]
        rcases removed : env.remove with _ | removeErr <;> cases cleanup <;>
        simp [filter_frames, filter_subscriptionLog_self, Call.isSubscriptionError, openingCalls,
          openingDefers, sessionDefers, Deferred.run, removed]
      rw [logged]
      rcases subscribed : env.subscribe with _ | err <;>
        simp [subscriptionLog, isCanceled, closeStatus]
    · rw [handleRoomWithCleanup_of_add_failed accepted added]
      simp [Call.isSubscriptionError, openingCalls, openingDefers, Deferred.run]
  · simp [handleRoomWithCleanup_of_accept_failed accepted, Call.isSubscriptionError]

end PeerCalls.WsHandler
