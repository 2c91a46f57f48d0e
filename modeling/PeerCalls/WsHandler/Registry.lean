import Mathlib.Data.List.Nodup
import PeerCalls.WsHandler.Rooms

/-!
# The room manager behind the handlers

`WSS` sees the room manager only through `RoomManager` (`Enter`, `Exit`);
its implementation is not in the sources. Modelled from the spec, it is a
registry from each room to its adapter and reference count: `Enter` hands
out the room's adapter and counts one more user, or makes a new adapter with
a count of one; `Exit` counts one user less and, at zero, removes the room
and closes its adapter. The spec closes the adapter outside the lock, once
the entry is gone; nothing can reach the adapter by then, so the model
closes it in the same step.

`Managed` runs the handlers of a `Server` against this registry: a handler's
`Enter` is answered with the registry's adapter, and the handler goes on as
`handleRoomWithCleanup` does in a world whose `Enter` returned that adapter
(`handleRoomWithCleanup_withAdapter`). Under every schedule the registry's
count of a room is the count `Rooms` reasons about, every adapter call a
handler makes is on the adapter registered for its room, which is open, no
two rooms share an adapter, and once every handler has returned the registry
is empty and every adapter it made has been closed exactly once.
-/

namespace PeerCalls.WsHandler

open PeerCalls.Go

set_option autoImplicit false

/-! ## A handler run against another answer of `Enter` -/

def Call.adapter? : Call → Option Adapter
  | .enter _ adapter | .add adapter _ _ | .remove adapter _ _ => some adapter
  | .handleMessage event => some event.adapter
  | .cleanup event => some event.adapter
  | _ => none

def Call.withAdapter (adapter : Adapter) : Call → Call
  | .enter room _ => .enter room adapter
  | .add _ clientID err => .add adapter clientID err
  | .handleMessage event => .handleMessage { event with adapter := adapter }
  | .cleanup event => .cleanup { event with adapter := adapter }
  | .remove _ clientID err => .remove adapter clientID err
  | c => c

section

variable (adapter : Adapter) (c : Call)

@[simp] theorem isRoomCall_withAdapter : (c.withAdapter adapter).isRoomCall = c.isRoomCall := by
  cases c <;> rfl

@[simp] theorem usesAdapter_withAdapter : (c.withAdapter adapter).usesAdapter = c.usesAdapter := by
  cases c <;> rfl

@[simp] theorem onRoom_withAdapter : (c.withAdapter adapter).onRoom = c.onRoom := by
  simp [Call.onRoom]

theorem withAdapter_of_not_onRoom (outside : c.onRoom = false) : c.withAdapter adapter = c := by
  cases c <;> simp_all [Call.onRoom, Call.isRoomCall, Call.usesAdapter, Call.withAdapter]

theorem adapter?_withAdapter (uses : c.usesAdapter = true) :
    (c.withAdapter adapter).adapter? = some adapter := by
  cases c <;> simp_all [Call.usesAdapter, Call.withAdapter, Call.adapter?]

end

@[simp] theorem subscriptionLog_withAdapter (adapter : Adapter) (err : Option GoError) :
    (subscriptionLog err).map (Call.withAdapter adapter) = subscriptionLog err := by
  unfold subscriptionLog
  split_ifs <;> cases err <;> rfl

/-- The handler only passes `Enter`'s adapter on: giving every call of a run
the adapter `adapter` is the run in a world whose `Enter` returned it. -/
theorem handleRoomWithCleanup_withAdapter (env : Env) (cleanup : Bool) (adapter : Adapter) :
    (handleRoomWithCleanup env cleanup).map (Call.withAdapter adapter) =
      handleRoomWithCleanup { env with enter := fun _ => adapter } cleanup := by
  obtain ⟨urlPath, accept, enter, add, frames, subscribe, remove⟩ := env
  rcases accept with _ | acceptErr
  · rcases add with _ | addErr
    · rw [@handleRoomWithCleanup_of_added
          ⟨urlPath, none, enter, none, frames, subscribe, remove⟩ rfl rfl,
        @handleRoomWithCleanup_of_added ⟨urlPath, none, fun _ => adapter, none, frames, subscribe,
          remove⟩ rfl rfl]
      rcases remove with _ | removeErr <;> cases cleanup <;>
        simp [openingCalls, openingDefers, sessionDefers, Deferred.run, handled, Call.withAdapter,
          Function.comp_def]
    · rw [@handleRoomWithCleanup_of_add_failed ⟨urlPath, none, enter, some addErr, frames,
          subscribe, remove⟩ _ rfl rfl,
        @handleRoomWithCleanup_of_add_failed
          ⟨urlPath, none, fun _ => adapter, some addErr, frames, subscribe, remove⟩ _ rfl rfl]
      simp [openingCalls, openingDefers, Deferred.run, Call.withAdapter]
  · rw [@handleRoomWithCleanup_of_accept_failed ⟨urlPath, some acceptErr, enter, add, frames,
        subscribe, remove⟩ _ rfl,
      @handleRoomWithCleanup_of_accept_failed ⟨urlPath, some acceptErr, fun _ => adapter, add,
        frames, subscribe, remove⟩ _ rfl]
    rfl

theorem withAdapter_before_enter {env : Env} {cleanup : Bool} {pre post : List Call}
    {room : GoString} {entered : Adapter}
    (run : pre ++ .enter room entered :: post = handleRoomWithCleanup env cleanup)
    (adapter : Adapter) : pre.map (Call.withAdapter adapter) = pre := by
  have span := handleRoomWithCleanup_span env cleanup
  rw [← run, List.filter_append, List.filter_cons_of_pos rfl] at span
  have before : pre.filter Call.onRoom = [] := by
    split at span
    · rcases List.append_eq_cons_iff.mp span with ⟨empty, -⟩ | ⟨earlier, -, later⟩
      · exact empty
      · have member : Call.enter room entered ∈ adapterCalls env cleanup ++ [.exit _] :=
          later ▸ List.mem_append_right earlier (List.mem_cons_self _ _)
        rcases List.mem_append.mp member with adapterCall | exitCall
        · cases adapterCalls_usesAdapter env cleanup _ adapterCall
        · cases List.mem_singleton.mp exitCall
    · cases List.append_eq_nil.mp span |>.2
  refine (List.map_congr_left fun c member => ?_).trans (List.map_id' pre)
  exact withAdapter_of_not_onRoom adapter c
    (by simpa using List.filter_eq_nil_iff.mp before c member)

/-! ## The registry -/

/-- Modelled from the spec: the room manager's registry, from each room to
its adapter and reference count. `fresh` numbers the adapters `newAdapter`
makes, and `closed` lists the adapters closed so far. -/
structure Registry where
  rooms : GoString → Option (Adapter × Nat)
  fresh : Nat
  closed : List Adapter

def Registry.init : Registry := ⟨fun _ => none, 0, []⟩

/-- Modelled from the spec: `Enter(room)` returns the room's adapter and
counts one more user, or makes a new adapter with a count of one. -/
def Registry.enter (reg : Registry) (room : GoString) : Registry × Adapter :=
  match reg.rooms room with
  | some (adapter, count) =>
    ({ reg with rooms := Function.update reg.rooms room (some (adapter, count + 1)) }, adapter)
  | none =>
    ({ reg with rooms := Function.update reg.rooms room (some (⟨reg.fresh⟩, 1)),
                fresh := reg.fresh + 1 }, ⟨reg.fresh⟩)

/-- Modelled from the spec: `Exit(room)` counts one user less and, at zero,
removes the room and closes its adapter. -/
def Registry.exit (reg : Registry) (room : GoString) : Registry :=
  match reg.rooms room with
  | some (adapter, count) =>
    if count - 1 = 0 then
      { reg with rooms := Function.update reg.rooms room none, closed := reg.closed ++ [adapter] }
    else { reg with rooms := Function.update reg.rooms room (some (adapter, count - 1)) }
  | none => reg

def Registry.count (reg : Registry) (room : GoString) : Nat :=
  match reg.rooms room with
  | some (_, count) => count
  | none => 0

/-- What every state of the registry keeps: each entry counts at least one
user and holds an adapter made so far and still open, no two rooms share an
adapter, and every adapter made so far is registered or closed, none twice. -/
structure Registry.WellFormed (reg : Registry) : Prop where
  entry : ∀ room adapter count, reg.rooms room = some (adapter, count) →
    0 < count ∧ adapter.id < reg.fresh ∧ adapter ∉ reg.closed
  unshared : ∀ room room' adapter count count', reg.rooms room = some (adapter, count) →
    reg.rooms room' = some (adapter, count') → room = room'
  closedMade : ∀ adapter ∈ reg.closed, adapter.id < reg.fresh
  closedOnce : reg.closed.Nodup
  accounted : ∀ adapter : Adapter, adapter.id < reg.fresh →
    adapter ∈ reg.closed ∨ ∃ room count, reg.rooms room = some (adapter, count)

theorem Registry.wellFormed_init : Registry.init.WellFormed where
  entry _ _ _ found := by cases found
  unshared _ _ _ _ _ found := by cases found
  closedMade _ closed := by cases closed
  closedOnce := List.nodup_nil
  accounted _ made := by cases made

section

variable {reg : Registry} (wf : reg.WellFormed) {room : GoString} {adapter : Adapter}
  {count : Nat} (found : reg.rooms room = some (adapter, count))
include wf found

theorem Registry.WellFormed.recount {newCount : Nat} (pos : 0 < newCount) :
    ({ reg with rooms := Function.update reg.rooms room (some (adapter, newCount)) } :
      Registry).WellFormed := by
  obtain ⟨-, made, stillOpen⟩ := wf.entry room adapter count found
  refine ⟨fun r a k entry => ?_, fun r r' a k k' entry entry' => ?_, wf.closedMade, wf.closedOnce,
    fun a lt => ?_⟩
  · simp only [Function.update_apply] at entry
    split_ifs at entry
    · cases entry
      exact ⟨pos, made, stillOpen⟩
    · exact wf.entry r a k entry
  · simp only [Function.update_apply] at entry entry'
    split_ifs at entry entry' with same same' same'
    · exact same.trans same'.symm
    · cases entry
      exact same.trans (wf.unshared room r' adapter count k' found entry')
    · cases entry'
      exact (wf.unshared room r adapter count k found entry).symm.trans same'.symm
    · exact wf.unshared r r' a k k' entry entry'
  · rcases wf.accounted a lt with closed | ⟨r, k, entry⟩
    · exact .inl closed
    · by_cases same : r = room
      · subst same
        rw [found] at entry
        cases entry
        exact .inr ⟨r, newCount, by simp⟩
      · exact .inr ⟨r, k, by simp [Function.update_apply, same, entry]⟩

theorem Registry.WellFormed.release :
    ({ reg with rooms := Function.update reg.rooms room none, closed := reg.closed ++ [adapter] } :
      Registry).WellFormed := by
  obtain ⟨-, made, stillOpen⟩ := wf.entry room adapter count found
  refine ⟨fun r a k entry => ?_, fun r r' a k k' entry entry' => ?_, fun a closed => ?_,
    wf.closedOnce.append (List.nodup_singleton _) (List.disjoint_singleton.mpr stillOpen),
    fun a lt => ?_⟩
  · simp only [Function.update_apply] at entry
    split_ifs at entry with same
    obtain ⟨pos, made', stillOpen'⟩ := wf.entry r a k entry
    have other : a ≠ adapter := by
      rintro rfl
      exact same (wf.unshared r room a k count entry found)
    simpa [pos, made', stillOpen'] using other
  · simp only [Function.update_apply] at entry entry'
    split_ifs at entry entry'
    exact wf.unshared r r' a k k' entry entry'
  · rcases List.mem_append.mp closed with closed | last
    · exact wf.closedMade a closed
    · exact List.mem_singleton.mp last ▸ made
  · rcases wf.accounted a lt with closed | ⟨r, k, entry⟩
    · exact .inl (List.mem_append_left _ closed)
    · by_cases same : r = room
      · subst same
        rw [found] at entry
        cases entry
        exact .inl (List.mem_append_right _ (List.mem_singleton_self _))
      · exact .inr ⟨r, k, by simp [Function.update_apply, same, entry]⟩

end

theorem Registry.WellFormed.create {reg : Registry} (wf : reg.WellFormed) {room : GoString}
    (absent : reg.rooms room = none) :
    ({ reg with rooms := Function.update reg.rooms room (some (⟨reg.fresh⟩, 1)),
                fresh := reg.fresh + 1 } : Registry).WellFormed := by
  have unmade : ∀ r k, reg.rooms r ≠ some (⟨reg.fresh⟩, k) := fun r k entry =>
    (wf.entry r _ k entry).2.1.false
  refine ⟨fun r a k entry => ?_, fun r r' a k k' entry entry' => ?_, fun a closed => ?_,
    wf.closedOnce, fun a lt => ?_⟩
  · simp only [Function.update_apply] at entry
    split_ifs at entry
    · cases entry
      exact ⟨Nat.one_pos, Nat.lt_succ_self _, fun closed => (wf.closedMade _ closed).false⟩
    · obtain ⟨pos, made, stillOpen⟩ := wf.entry r a k entry
      exact ⟨pos, Nat.lt_succ_of_lt made, stillOpen⟩
  · simp only [Function.update_apply] at entry entry'
    split_ifs at entry entry' with same same' same'
    · exact same.trans same'.symm
    · cases entry
      exact absurd entry' (unmade r' k')
    · cases entry'
      exact absurd entry (unmade r k)
    · exact wf.unshared r r' a k k' entry entry'
  · exact Nat.lt_succ_of_lt (wf.closedMade a closed)
  · rcases Nat.lt_succ_iff_lt_or_eq.mp lt with old | new
    · rcases wf.accounted a old with closed | ⟨r, k, entry⟩
      · exact .inl closed
      · have other : r ≠ room := fun same => by simp [same, absent] at entry
        exact .inr ⟨r, k, by simp [Function.update_apply, other, entry]⟩
    · exact .inr ⟨room, 1, by cases a; simp_all⟩

theorem Registry.WellFormed.enter {reg : Registry} (wf : reg.WellFormed) (room : GoString) :
    (reg.enter room).1.WellFormed := by
  unfold Registry.enter
  split
  next adapter count found => exact wf.recount found (Nat.succ_pos count)
  next absent => exact wf.create absent

theorem Registry.WellFormed.exit {reg : Registry} (wf : reg.WellFormed) (room : GoString) :
    (reg.exit room).WellFormed := by
  unfold Registry.exit
  split
  next adapter count found =>
    split_ifs with last
    · exact wf.release found
    · exact wf.recount found (Nat.pos_of_ne_zero last)
  next => exact wf

/-! ### What `Enter` and `Exit` do to one room -/

section

variable (reg : Registry) (room : GoString)

theorem Registry.enter_rooms_self :
    (reg.enter room).1.rooms room = some ((reg.enter room).2, reg.count room + 1) := by
  unfold Registry.enter Registry.count
  split <;> simp_all

theorem Registry.enter_rooms_ne {r : GoString} (other : r ≠ room) :
    (reg.enter room).1.rooms r = reg.rooms r := by
  unfold Registry.enter
  split <;> simp [Function.update_apply, other]

theorem Registry.exit_rooms_ne {r : GoString} (other : r ≠ room) :
    (reg.exit room).rooms r = reg.rooms r := by
  unfold Registry.exit
  split
  · split_ifs <;> simp [Function.update_apply, other]
  · rfl

theorem Registry.count_enter (r : GoString) :
    ((reg.enter room).1.count r : Int) = reg.count r + if room = r then 1 else 0 := by
  by_cases same : room = r
  · subst same
    simp [Registry.count, Registry.enter_rooms_self]
  · simp [Registry.count, Registry.enter_rooms_ne reg room (Ne.symm same), same]

theorem Registry.count_exit (r : GoString) :
    (reg.exit room).count r = reg.count r - if room = r then 1 else 0 := by
  by_cases same : room = r
  · subst same
    rcases found : reg.rooms room with _ | ⟨adapter, count⟩
    · simp [Registry.exit, Registry.count, found]
    · by_cases last : count - 1 = 0 <;> simp [Registry.exit, Registry.count, found, last]
  · simp [Registry.count, Registry.exit_rooms_ne reg room (Ne.symm same), same]

theorem Registry.enter_existing {adapter : Adapter} {count : Nat}
    (found : reg.rooms room = some (adapter, count)) : (reg.enter room).2 = adapter := by
  simp [Registry.enter, found]

theorem Registry.exit_keeps_adapter {r : GoString} {adapter adapter' : Adapter}
    {count count' : Nat} (found : reg.rooms r = some (adapter, count))
    (after : (reg.exit room).rooms r = some (adapter', count')) : adapter' = adapter := by
  by_cases same : r = room
  · subst same
    simp only [Registry.exit, found] at after
    split_ifs at after <;> simp_all
  · rw [Registry.exit_rooms_ne reg room same, found] at after
    exact (Prod.mk.inj (Option.some.inj after)).1.symm

end

theorem Registry.entry_of_count_pos {reg : Registry} {room : GoString}
    (pos : 1 ≤ (reg.count room : Int)) :
    ∃ adapter count, reg.rooms room = some (adapter, count) := by
  unfold Registry.count at pos
  split at pos
  next adapter count found => exact ⟨adapter, count, found⟩
  next => simp at pos

/-! ## The handlers against the registry -/

/-- The room manager answers handler `i`'s `Enter` with `adapter`: the
handler goes on with `adapter` in place of the one it was written with. -/
def Server.answer (sv : Server) (i : Nat) (adapter : Adapter) : Server :=
  match sv.pending[i]? with
  | some calls => { sv with pending := sv.pending.set i (calls.map (Call.withAdapter adapter)) }
  | none => sv

/-- The handlers of a server and the room manager they share. -/
structure Managed where
  server : Server
  registry : Registry

def Managed.start (runs : List (Env × Bool)) : Managed :=
  ⟨Server.start runs, Registry.init⟩

/-- Handler `i` makes the call `c`, and the room manager does its part. -/
def Managed.handle (m : Managed) (i : Nat) : Call → Managed
  | .enter room _ =>
    ⟨(m.server.answer i (m.registry.enter room).2).step i, (m.registry.enter room).1⟩
  | .exit room => ⟨m.server.step i, m.registry.exit room⟩
  | _ => ⟨m.server.step i, m.registry⟩

def Managed.step (m : Managed) (i : Nat) : Managed :=
  match m.server.pending[i]? with
  | some (c :: _) => m.handle i c
  | _ => m

def Managed.run (m : Managed) : List Nat → Managed
  | [] => m
  | i :: schedule => (m.step i).run schedule

def Server.madeBy (sv : Server) (i : Nat) : List Call :=
  (sv.made.filter fun made => made.1 == i).map Prod.snd

/-! ### One step of one handler -/

section

variable {sv : Server} {i : Nat} {c : Call} {rest : List Call}
  (pending : sv.pending[i]? = some (c :: rest))
include pending

theorem Server.pending_step (j : Nat) :
    (sv.step i).pending[j]? = if i = j then some rest else sv.pending[j]? := by
  simp [Server.step, pending, List.getElem?_set, (List.getElem?_eq_some_iff.mp pending).1]

theorem Server.made_step : (sv.step i).made = sv.made ++ [(i, c)] := by
  simp [Server.step, pending]

theorem Server.madeBy_step (j : Nat) :
    (sv.step i).madeBy j = if i = j then sv.madeBy j ++ [c] else sv.madeBy j := by
  simp only [Server.madeBy, Server.made_step pending, List.filter_append, List.map_append]
  by_cases same : i = j <;> simp [same]

end

section

variable {sv : Server} {i : Nat} {calls : List Call} (pending : sv.pending[i]? = some calls)
  (adapter : Adapter)
include pending

theorem Server.answer_pending (j : Nat) :
    (sv.answer i adapter).pending[j]? =
      if i = j then some (calls.map (Call.withAdapter adapter)) else sv.pending[j]? := by
  simp [Server.answer, pending, List.getElem?_set, (List.getElem?_eq_some_iff.mp pending).1]

theorem Server.madeBy_answer (j : Nat) : (sv.answer i adapter).madeBy j = sv.madeBy j := by
  simp [Server.answer, pending, Server.madeBy]

theorem Server.made_answer : (sv.answer i adapter).made = sv.made := by
  simp [Server.answer, pending]

end

/-! ### The handlers' phases under another answer of `Enter` -/

theorem map_withAdapter_eq_exit {adapter : Adapter} {room : GoString} :
    ∀ {calls : List Call},
      calls.map (Call.withAdapter adapter) = [.exit room] ↔ calls = [.exit room]
  | [] => by simp
  | [c] => by cases c <;> simp [Call.withAdapter]
  | _ :: _ :: _ => by simp

@[simp] theorem inside_map_withAdapter (adapter : Adapter) (room : GoString) (calls : List Call) :
    inside room (calls.map (Call.withAdapter adapter)) = inside room calls := by
  simp [inside, List.filter_map, Function.comp_def, map_withAdapter_eq_exit]

theorem roomSpan_map_withAdapter {room : GoString} {calls : List Call} (span : RoomSpan room calls)
    (adapter : Adapter) : RoomSpan room (calls.map (Call.withAdapter adapter)) := by
  have filtered : (calls.map (Call.withAdapter adapter)).filter Call.onRoom =
      (calls.filter Call.onRoom).map (Call.withAdapter adapter) := by
    simp [List.filter_map, Function.comp_def]
  rcases span with empty | ⟨mids, uses, middle | ⟨entered, whole⟩⟩
  · exact .inl (by simp [filtered, empty])
  · exact .inr ⟨mids.map (Call.withAdapter adapter), by simpa using uses,
      .inl (by simp [filtered, middle, Call.withAdapter])⟩
  · exact .inr ⟨mids.map (Call.withAdapter adapter), by simpa using uses,
      .inr ⟨adapter, by simp [filtered, whole, Call.withAdapter]⟩⟩

theorem inside_cons_of_not_roomCall {c : Call} (notRoom : c.isRoomCall = false) (room : GoString)
    (rest : List Call) : inside room (c :: rest) = inside room rest := by
  simp [inside, List.filter_cons, notRoom]

theorem inside_unique {room r : GoString} {calls : List Call} (here : inside room calls = true)
    (there : inside r calls = true) : r = room := by
  simp only [inside, decide_eq_true_eq] at here there
  rw [here] at there
  simpa using there.symm

theorem span_after_enter {room r : GoString} {entered : Adapter} {rest : List Call}
    (span : RoomSpan room (.enter r entered :: rest)) :
    r = room ∧ inside room rest = true := by
  have shape := roomCalls_of_span span
  rw [List.filter_cons_of_pos rfl] at shape
  rcases shape with empty | exiting | ⟨adapter, entering⟩
  · cases empty
  · cases exiting
  · simp only [List.cons.injEq, Call.enter.injEq] at entering
    exact ⟨entering.1.1, by simp [inside, entering.2]⟩

theorem span_after_exit {room r : GoString} {rest : List Call}
    (span : RoomSpan room (.exit r :: rest)) : rest.filter Call.onRoom = [] := by
  rcases span with empty | ⟨mids, uses, middle | ⟨adapter, whole⟩⟩
  · simp [List.filter_cons, Call.onRoom, Call.isRoomCall] at empty
  · cases mids with
    | nil =>
      simp [List.filter_cons, Call.onRoom, Call.isRoomCall] at middle ⊢
      exact middle.2
    | cons m mids =>
      simp only [List.filter_cons, Call.onRoom, Call.isRoomCall, Bool.true_or, if_true,
        List.cons_append, List.cons.injEq] at middle
      cases middle.1 ▸ uses m (List.mem_cons_self m mids)
  · simp [List.filter_cons, Call.onRoom, Call.isRoomCall] at whole

theorem not_inside_after_exit {room r : GoString} {rest : List Call}
    (span : RoomSpan room (.exit r :: rest)) (r' : GoString) : inside r' rest = false := by
  rw [inside, ← filter_onRoom _ onRoom_of_isRoomCall, span_after_exit span]
  simp

theorem Server.Invariant.answer {runs : List (Env × Bool)} {sv : Server}
    (inv : sv.Invariant runs) (i : Nat) (adapter : Adapter) :
    (sv.answer i adapter).Invariant runs := by
  unfold Server.answer
  split
  next calls pending =>
    have bound := (List.getElem?_eq_some_iff.mp pending).1
    refine ⟨by simp [inv.length], fun j run rest found pending' => ?_, fun room => ?_⟩
    · by_cases same : i = j
      · subst same
        rw [List.getElem?_set_self bound, Option.some.injEq] at pending'
        exact pending' ▸ roomSpan_map_withAdapter (inv.spans i run calls found pending) adapter
      · rw [List.getElem?_set_ne same] at pending'
        exact inv.spans j run rest found pending'
    · have counted := countP_set_int (inside room) sv.pending i
        (calls.map (Call.withAdapter adapter)) bound
      rw [(List.getElem?_eq_some_iff.mp pending).2, inside_map_withAdapter] at counted
      have before := inv.counts room
      simp only at before ⊢
      omega
  next => exact inv

/-! ### Every handler runs the handler's code -/

/-- Every handler makes the calls of `handleRoomWithCleanup` in a world that
differs from its own only in what `Enter` returned. -/
def Server.Faithful (runs : List (Env × Bool)) (sv : Server) : Prop :=
  ∀ i run, runs[i]? = some run → ∃ (enter : GoString → Adapter) (rest : List Call),
    sv.pending[i]? = some rest ∧
      sv.madeBy i ++ rest = handleRoomWithCleanup { run.1 with enter := enter } run.2

theorem faithful_start (runs : List (Env × Bool)) : (Server.start runs).Faithful runs :=
  fun _ run found => ⟨run.1.enter, handleRoomWithCleanup run.1 run.2,
    by simp [Server.start, found], rfl⟩

theorem Server.Faithful.step {runs : List (Env × Bool)} {sv : Server} (faithful : sv.Faithful runs)
    (i : Nat) : (sv.step i).Faithful runs := by
  intro j run found
  obtain ⟨enter, rest, pending, calls⟩ := faithful j run found
  obtain ⟨c, after, next⟩ | idle : (∃ c after, sv.pending[i]? = some (c :: after)) ∨
      sv.step i = sv := by
    rcases next : sv.pending[i]? with _ | ⟨_ | ⟨c, after⟩⟩ <;> simp [Server.step, next]
  · refine ⟨enter, ?_⟩
    by_cases same : i = j
    · subst same
      rw [next, Option.some.injEq] at pending
      subst pending
      exact ⟨after, by simp [Server.pending_step next],
        by simpa [Server.madeBy_step next] using calls⟩
    · exact ⟨rest, by simp [Server.pending_step next, same, pending], by
        simpa [Server.madeBy_step next, same] using calls⟩
  · rw [idle]
    exact ⟨enter, rest, pending, calls⟩

/-- Answering a handler's `Enter` with `adapter` is running it in the world
whose `Enter` returned `adapter`. -/
theorem Server.Faithful.answer {runs : List (Env × Bool)} {sv : Server}
    (faithful : sv.Faithful runs) {i : Nat} {room : GoString} {entered : Adapter}
    {rest : List Call} (pending : sv.pending[i]? = some (.enter room entered :: rest))
    (adapter : Adapter) : (sv.answer i adapter).Faithful runs := by
  intro j run found
  obtain ⟨enter, rest', pending', calls⟩ := faithful j run found
  by_cases same : i = j
  · subst same
    rw [pending, Option.some.injEq] at pending'
    subst pending'
    have answered := congrArg (List.map (Call.withAdapter adapter)) calls
    rw [List.map_append, withAdapter_before_enter calls adapter,
      handleRoomWithCleanup_withAdapter] at answered
    exact ⟨fun _ => adapter, .enter room adapter :: rest.map (Call.withAdapter adapter),
      by simp [Server.answer_pending pending, Call.withAdapter],
      by rw [Server.madeBy_answer pending]; exact answered⟩
  · exact ⟨enter, rest', by simp [Server.answer_pending pending, same, pending'], by
      rw [Server.madeBy_answer pending]; exact calls⟩

/-! ### The registry behind the handlers -/

/-- A handler with `rest` still to do calls, on `room`'s behalf, the adapter
the registry holds for `room`. -/
def Registry.Serves (reg : Registry) (room : GoString) (rest : List Call) : Prop :=
  ∃ adapter count, reg.rooms room = some (adapter, count) ∧
    ∀ c ∈ rest, c.usesAdapter = true → c.adapter? = some adapter

/-- What every reachable state of the handlers and the registry keeps: the
server's invariant, every handler runs the handler's code, the registry is
well formed and counts what the server counts, and a handler inside a room
calls the adapter the registry holds for it. -/
structure Managed.Invariant (runs : List (Env × Bool)) (m : Managed) : Prop where
  server : m.server.Invariant runs
  faithful : m.server.Faithful runs
  registry : m.registry.WellFormed
  counts : ∀ room, (m.registry.count room : Int) = refcount room (m.server.made.map Prod.snd)
  serves : ∀ (i : Nat) (rest : List Call) (room : GoString), m.server.pending[i]? = some rest →
    inside room rest = true →
    m.registry.Serves room rest

theorem Managed.start_invariant (runs : List (Env × Bool)) :
    (Managed.start runs).Invariant runs where
  server := invariant_start runs
  faithful := faithful_start runs
  registry := Registry.wellFormed_init
  counts room := by simp [Managed.start, Server.start, Registry.init, Registry.count]
  serves i rest room pending isInside := by
    simp only [Managed.start, Server.start, List.getElem?_map, Option.map_eq_some'] at pending
    obtain ⟨run, -, rfl⟩ := pending
    simp [inside_start] at isInside

section

variable {runs : List (Env × Bool)} {m : Managed} (inv : m.Invariant runs) {i : Nat}
include inv

theorem Managed.Invariant.other {c : Call} {rest : List Call}
    (pending : m.server.pending[i]? = some (c :: rest)) (notRoom : c.isRoomCall = false) :
    (⟨m.server.step i, m.registry⟩ : Managed).Invariant runs where
  server := inv.server.step i
  faithful := inv.faithful.step i
  registry := inv.registry
  counts room := by
    have still : c.refDelta room = 0 := by cases c <;> simp_all [Call.isRoomCall, Call.refDelta]
    simp [Server.made_step pending, inv.counts room, still]
  serves j rest' room pending' isInside := by
    rw [Server.pending_step pending] at pending'
    split_ifs at pending' with same
    · subst same
      cases pending'
      obtain ⟨adapter, count, found, uses⟩ := inv.serves i (c :: rest) room pending
        (by rwa [inside_cons_of_not_roomCall notRoom])
      exact ⟨adapter, count, found, fun c' member => uses c' (List.mem_cons_of_mem c member)⟩
    · exact inv.serves j rest' room pending' isInside

theorem Managed.Invariant.enter {room : GoString} {entered : Adapter} {rest : List Call}
    (pending : m.server.pending[i]? = some (.enter room entered :: rest)) :
    (m.handle i (.enter room entered)).Invariant runs := by
  obtain ⟨_, _, span⟩ := inv.server.span_of_pending pending
  obtain ⟨sameRoom, entering⟩ := span_after_enter span
  rw [← sameRoom] at entering
  have answered := Server.answer_pending pending (m.registry.enter room).2
  simp only [List.map_cons, Call.withAdapter] at answered
  have next := answered i
  rw [if_pos rfl] at next
  refine ⟨(inv.server.answer i _).step i, (inv.faithful.answer pending _).step i,
    inv.registry.enter room, fun r => ?_, fun j rest' r pending' isInside => ?_⟩
  · have entered := Registry.count_enter m.registry room r
    simp only [Managed.handle, Server.made_step next, Server.made_answer pending, List.map_append,
      refcount_append, ← inv.counts r] at entered ⊢
    simpa [Call.refDelta] using entered
  · simp only [Managed.handle] at pending' ⊢
    rw [Server.pending_step next, answered] at pending'
    split_ifs at pending' with same
    · cases pending'
      rw [inside_map_withAdapter] at isInside
      rw [inside_unique entering isInside]
      exact ⟨_, _, Registry.enter_rooms_self m.registry room, fun c member uses => by
        obtain ⟨c', -, rfl⟩ := List.mem_map.mp member
        exact adapter?_withAdapter _ c' (by simpa using uses)⟩
    · obtain ⟨adapter, count, found, uses⟩ := inv.serves j rest' r pending' isInside
      by_cases other : r = room
      · subst other
        refine ⟨adapter, count + 1, ?_, uses⟩
        rw [Registry.enter_rooms_self, Registry.enter_existing m.registry r found]
        simp [Registry.count, found]
      · exact ⟨adapter, count,
          by rw [Registry.enter_rooms_ne m.registry room other, found], uses⟩

/-- `Exit`: the registry counts one user less, and drops the room's adapter
only once no handler is left inside. -/
theorem Managed.Invariant.exit {room : GoString} {rest : List Call}
    (pending : m.server.pending[i]? = some (.exit room :: rest)) :
    (m.handle i (.exit room)).Invariant runs := by
  obtain ⟨_, _, span⟩ := inv.server.span_of_pending pending
  have occupied : 1 ≤ (m.registry.count room : Int) :=
    inv.counts room ▸ inv.server.count_pos pending (inside_of_exit span)
  have counts : ∀ r, ((m.registry.exit room).count r : Int) =
      refcount r ((m.server.step i).made.map Prod.snd) := by
    intro r
    have before := inv.counts r
    rw [Registry.count_exit, Server.made_step pending]
    by_cases same : room = r
    · subst same
      simp [Call.refDelta]
      omega
    · simp [before, Call.refDelta, same]
  have server := inv.server.step i
  refine ⟨server, inv.faithful.step i, inv.registry.exit room, counts,
    fun j rest' r pending' isInside => ?_⟩
  simp only [Managed.handle] at pending' ⊢
  have present := Registry.entry_of_count_pos
    (counts r ▸ server.count_pos pending' isInside)
  rw [Server.pending_step pending] at pending'
  split_ifs at pending' with same
  · cases pending'
    rw [not_inside_after_exit span] at isInside
    cases isInside
  · obtain ⟨adapter, count, found, uses⟩ := inv.serves j rest' r pending' isInside
    obtain ⟨adapter', count', after⟩ := present
    exact ⟨adapter', count', after,
      (Registry.exit_keeps_adapter m.registry room found after) ▸ uses⟩

theorem Managed.Invariant.step : (m.step i).Invariant runs := by
  unfold Managed.step
  split
  next c rest pending =>
    cases c with
    | enter room entered => exact inv.enter pending
    | exit room => exact inv.exit pending
    | _ => exact inv.other pending rfl
  next => exact inv

end

theorem Managed.Invariant.run {runs : List (Env × Bool)} {m : Managed} (inv : m.Invariant runs)
    (schedule : List Nat) : (m.run schedule).Invariant runs := by
  induction schedule generalizing m with
  | nil => exact inv
  | cons i schedule ih => exact ih (inv.step)

/-! ## The room manager under every schedule -/

/-- A registry whose counts are all zero holds no room, so every adapter it
has made is closed, each once. -/
theorem Registry.WellFormed.released {reg : Registry} (wf : reg.WellFormed)
    (empty : ∀ room, reg.rooms room = none) :
    reg.closed.Perm ((List.range reg.fresh).map Adapter.mk) := by
  refine (List.perm_ext_iff_of_nodup wf.closedOnce
    ((List.nodup_range _).map fun _ _ same => Adapter.mk.inj same)).mpr fun adapter => ?_
  constructor
  · intro closed
    exact List.mem_map.mpr ⟨adapter.id, List.mem_range.mpr (wf.closedMade adapter closed), rfl⟩
  · intro made
    obtain ⟨id, below, rfl⟩ := List.mem_map.mp made
    rcases wf.accounted ⟨id⟩ (List.mem_range.mp below) with closed | ⟨room, count, entry⟩
    · exact closed
    · simp [empty room] at entry

/-- Under every schedule of any handlers sharing the room manager, each
handler makes the calls of `handleRoomWithCleanup` in a world that differs
from its own only in the adapter `Enter` returned; a handler about to call
its adapter (`Add`, `handleMessage`, the cleanup callback, `Remove`) calls
the adapter the registry holds for its room, which has not been closed; no
two rooms share an adapter; and no adapter is closed twice. -/
theorem managed_adapters_live (runs : List (Env × Bool)) (schedule : List Nat) :
    let m := (Managed.start runs).run schedule
    m.server.Faithful runs ∧
    (∀ (i : Nat) (run : Env × Bool) (c : Call) (rest : List Call), runs[i]? = some run →
      m.server.pending[i]? = some (c :: rest) → c.usesAdapter = true →
      ∃ adapter count, m.registry.rooms (roomClientID run.1.urlPath).1 = some (adapter, count) ∧
        c.adapter? = some adapter ∧ adapter ∉ m.registry.closed) ∧
    (∀ (room room' : GoString) (adapter : Adapter) (count count' : Nat),
      m.registry.rooms room = some (adapter, count) →
      m.registry.rooms room' = some (adapter, count') → room = room') ∧
    m.registry.closed.Nodup := by
  intro m
  have inv := (Managed.start_invariant runs).run schedule
  refine ⟨inv.faithful, fun i run c rest found pending uses => ?_, inv.registry.unshared,
    inv.registry.closedOnce⟩
  obtain ⟨run', found', span⟩ := inv.server.span_of_pending pending
  rw [found, Option.some.injEq] at found'
  subst found'
  obtain ⟨adapter, count, entry, onAdapter⟩ :=
    inv.serves i _ _ pending (inside_of_usesAdapter span uses)
  exact ⟨adapter, count, entry, onAdapter c (List.mem_cons_self c rest) uses,
    (inv.registry.entry _ adapter count entry).2.2⟩

/-- The registry refines the reference count: under every schedule its
count of a room is the count of `Enter` less `Exit` calls made on the room,
which is the number of handlers inside the room, and a room has an entry
exactly when that count is positive. -/
theorem registry_refines_refcount (runs : List (Env × Bool)) (schedule : List Nat) :
    let m := (Managed.start runs).run schedule
    ∀ room, (m.registry.count room : Int) = refcount room (m.server.made.map Prod.snd) ∧
      m.registry.count room = m.server.pending.countP (inside room) ∧
      (m.registry.rooms room = none ↔ m.registry.count room = 0) := by
  intro m room
  have inv := (Managed.start_invariant runs).run schedule
  refine ⟨inv.counts room,
    by exact_mod_cast (inv.counts room).trans (inv.server.counts room), ?_⟩
  unfold Registry.count
  split
  next adapter count entry =>
    simp [entry, Nat.pos_iff_ne_zero.mp (inv.registry.entry room adapter count entry).1]
  next absent => simp [absent]

/-- Once every handler has returned, under any schedule, the registry holds
no room and every adapter it made has been closed exactly once. -/
theorem registry_released (runs : List (Env × Bool)) (schedule : List Nat)
    (done : ∀ rest ∈ ((Managed.start runs).run schedule).server.pending, rest = []) :
    let m := (Managed.start runs).run schedule
    (∀ room, m.registry.rooms room = none) ∧
      m.registry.closed.Perm ((List.range m.registry.fresh).map Adapter.mk) := by
  intro m
  have inv := (Managed.start_invariant runs).run schedule
  have empty : ∀ room, m.registry.rooms room = none := fun room => by
    have counted := (inv.counts room).trans (inv.server.counts room)
    rw [List.countP_eq_zero.mpr fun rest member => by simp [done rest member, inside]] at counted
    unfold Registry.count at counted
    split at counted
    next adapter count entry =>
      have := (inv.registry.entry room adapter count entry).1
      omega
    next absent => exact absent
  exact ⟨empty, inv.registry.released empty⟩

set_option maxRecDepth 4000 in
/-- Two sockets in room `r`, their calls interleaved, both run to the end:
the registry is empty again and every adapter it made is closed. -/
theorem registry_released_two_sockets :
    let runs : List (Env × Bool) :=
      [(⟨[47, 119, 115, 47, 114, 47, 97], none, fun _ => ⟨9⟩, none, [], none, none⟩, true),
       (⟨[47, 119, 115, 47, 114, 47, 98], none, fun _ => ⟨9⟩, none, [], none, none⟩, false)]
    let schedule := [0, 0, 1, 1, 0, 1] ++ List.replicate 9 0 ++ List.replicate 9 1
    (∀ rest ∈ ((Managed.start runs).run schedule).server.pending, rest = []) ∧
      ((∀ room, ((Managed.start runs).run schedule).registry.rooms room = none) ∧
        ((Managed.start runs).run schedule).registry.closed.Perm
          ((List.range ((Managed.start runs).run schedule).registry.fresh).map Adapter.mk)) :=
  ⟨by decide, registry_released _ _ (by decide)⟩

end PeerCalls.WsHandler
