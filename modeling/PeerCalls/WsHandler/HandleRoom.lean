import PeerCalls.Go.Path

/-!
# `WSS.HandleRoomWithCleanup`

The socket handler of `wshandler.go`, with its defer stack made explicit.
The world's answers (whether `websocket.Accept` succeeds, the adapter
`rooms.Enter` returns, what `adapter.Add`, `client.Subscribe` and
`adapter.Remove` report, the frames read in between) are an `Env`, and a run
is the list of calls the handler makes. Each `defer` pushes a closure with
the values it captured; returning (`Frame.ret`) runs them newest first, as
Go does. `client.Subscribe` is not in the sources and is modelled from the
spec.

`Env` holds `r.URL.Path`, the errors of `websocket.Accept`, `adapter.Add`,
`client.Subscribe` and `adapter.Remove`, the adapter `wss.rooms.Enter(room)`
returns, and the frames `client.Subscribe` reads before it returns. An
`Adapter` is only passed on, and so is a `wsmessage.Message`, whose
`interface{}` payload stays the JSON text it was read from. `handleRoom` is
`WSS.HandleRoom`, `handleRoomWithCleanup` with no cleanup callback.
-/

namespace PeerCalls.WsHandler

open PeerCalls.Go PeerCalls.Go.Path

set_option autoImplicit false

structure Adapter where
  id : Nat
deriving Repr, DecidableEq

structure Message where
  type : String
  room : String
  payload : String
deriving Repr, DecidableEq

structure RoomEvent where
  clientID : GoString
  room : GoString
  adapter : Adapter
  message : Message
deriving Repr, DecidableEq

structure CleanupEvent where
  clientID : GoString
  room : GoString
  adapter : Adapter
deriving Repr, DecidableEq

inductive LogArg where
  | str (s : GoString)
  | err (e : GoError)
deriving Repr, DecidableEq

inductive Call where
  | enter (room : GoString) (adapter : Adapter)
  | add (adapter : Adapter) (clientID : GoString) (err : Option GoError)
  | handleMessage (event : RoomEvent)
  | cleanup (event : CleanupEvent)
  | remove (adapter : Adapter) (clientID : GoString) (err : Option GoError)
  | exit (room : GoString)
  | closeClient (clientID : GoString)
  | closeSocket (code : StatusCode) (reason : String)
  | log (format : String) (args : List LogArg)
deriving Repr, DecidableEq

structure Env where
  urlPath : GoString
  accept : Option GoError
  enter : GoString → Adapter
  add : Option GoError
  frames : List Message
  subscribe : Option GoError
  remove : Option GoError

/-- `room := path.Base(path.Dir(r.URL.Path))` and `clientID := path.Base(r.URL.Path)`. -/
def roomClientID (urlPath : GoString) : GoString × GoString :=
  (base (dir urlPath), base urlPath)

inductive Deferred where
  | closeSocket (room clientID : GoString)
  | closeClient (clientID : GoString)
  | exitRoom (room clientID : GoString)
  | cleanup (event : CleanupEvent)
  | removeClient (adapter : Adapter) (room clientID : GoString)
deriving Repr, DecidableEq

def Deferred.run (env : Env) : Deferred → List Call
  | closeSocket room clientID =>
    [.log "Closing websocket connection room: %s, clientID: %s" [.str room, .str clientID],
      .closeSocket statusInternalError ""]
  | closeClient clientID => [.closeClient clientID]
  | exitRoom room clientID =>
    [.log "wss.rooms.Exit room: %s, clientID: %s" [.str room, .str clientID], .exit room]
  | cleanup event => [.cleanup event]
  | removeClient adapter room clientID =>
    [.log "adapter.Remove room: %s, clientID: %s" [.str room, .str clientID],
      .remove adapter clientID env.remove] ++
    match env.remove with
    | some err => [.log "Error removing client from adapter: %s" [.err err]]
    | none => []

/-- A running call of the handler: what it did so far, and its defer stack,
newest first. `cleanup != nil` is a flag of `handleRoomWithCleanup`. -/
structure Frame where
  calls : List Call
  deferred : List Deferred

abbrev HandlerM := StateM Frame

def call (c : Call) : HandlerM Unit :=
  modify fun f => { f with calls := f.calls ++ [c] }

def logf (format : String) (args : List LogArg) : HandlerM Unit :=
  call (.log format args)

def «defer» (d : Deferred) : HandlerM Unit :=
  modify fun f => { f with deferred := d :: f.deferred }

def Frame.ret (env : Env) (f : Frame) : List Call :=
  f.calls ++ f.deferred.flatMap (Deferred.run env)

/-- Modelled from the spec: `client.Subscribe(ctx, handler)` invokes the
handler on every frame it reads, in order, and returns the error that ended
the subscription. -/
def subscribe (frames : List Message) (result : Option GoError)
    (handler : Message → HandlerM Unit) : HandlerM (Option GoError) := do
  frames.forM handler
  return result

/-- The end of the handler: a subscription ended by cancellation, by a
normal closure or by the peer going away is not logged as an error. -/
def logSubscriptionError (err : Option GoError) : HandlerM Unit := do
  if isCanceled err then return
  if closeStatus err = statusNormalClosure ∨ closeStatus err = statusGoingAway then return
  if let some err := err then
    logf "Subscription error: %s" [.err err]

def handleRoomWithCleanup (env : Env) (cleanup : Bool) : List Call :=
  ((body.run ⟨[], []⟩).2).ret env
where
  body : HandlerM Unit := do
    if let some err := env.accept then
      logf "Error accepting websocket connection: %s" [.err err]
      return
    let (room, clientID) := roomClientID env.urlPath
    «defer» (.closeSocket room clientID)
    «defer» (.closeClient clientID)
    logf "New websocket connection - room: %s, clientID: %s" [.str room, .str clientID]
    let adapter := env.enter room
    call (.enter room adapter)
    «defer» (.exitRoom room clientID)
    call (.add adapter clientID env.add)
    if let some err := env.add then
      logf "Error adding client to room: %s" [.err err]
      return
    if cleanup then
      «defer» (.cleanup ⟨clientID, room, adapter⟩)
    «defer» (.removeClient adapter room clientID)
    let err ← subscribe env.frames env.subscribe fun message =>
      call (.handleMessage ⟨clientID, room, adapter, message⟩)
    logSubscriptionError err

def handleRoom (env : Env) : List Call :=
  handleRoomWithCleanup env false

end PeerCalls.WsHandler
