import PeerCalls.WsHandler.Lifecycle

/-!
# Many handlers, one room manager

The server runs one `HandleRoomWithCleanup` per socket, all at once, and
they share the room manager. A `Server` holds what each handler still has to
do and every call made so far; a schedule picks, step after step, the
handler that makes its next call, so every interleaving of the handlers'
runs is the run of some schedule.

The room manager is not in the sources; modelled from the spec, its
reference count of a room goes up by one on `Enter` and down by one on
`Exit`, and it releases the room's adapter at zero. Under every schedule
the count of a room is the number of handlers that have entered it and not
yet left. So no `Exit` finds the count at zero, a handler calls its adapter
only while its room's count is positive, and once every handler has
returned every count is zero again.
-/

namespace PeerCalls.WsHandler

open PeerCalls.Go

set_option autoImplicit false

/-! ## The room manager's counts -/

/-- Modelled from the spec: what one call does to the room manager's
reference count of `room`. -/
def Call.refDelta (room : GoString) : Call → Int
  | .enter r _ => if r = room then 1 else 0
  | .exit r => if r = room then -1 else 0
  | _ => 0

/-- The reference count of `room` after `calls`. -/
def refcount (room : GoString) : List Call → Int
  | [] => 0
  | c :: calls => c.refDelta room + refcount room calls

@[simp] theorem refcount_nil (room : GoString) : refcount room [] = 0 := rfl

@[simp] theorem refcount_append (room : GoString) (xs ys : List Call) :
    refcount room (xs ++ ys) = refcount room xs + refcount room ys := by
  induction xs with
  | nil => simp
  | cons c xs ih => simp [refcount, ih, Int.add_assoc]

@[simp] theorem refcount_singleton (room : GoString) (c : Call) :
    refcount room [c] = c.refDelta room := by
  simp [refcount]

/-! ## The server -/

/-- The handlers running at once: what each still has to do, and every call
made so far with the handler that made it. -/
structure Server where
  pending : List (List Call)
  made : List (Nat × Call)

def Server.start (runs : List (Env × Bool)) : Server :=
  ⟨runs.map fun run => handleRoomWithCleanup run.1 run.2, []⟩

/-- Handler `i` makes its next call, if it has one left. -/
def Server.step (sv : Server) (i : Nat) : Server :=
  match sv.pending[i]? with
  | some (c :: rest) => ⟨sv.pending.set i rest, sv.made ++ [(i, c)]⟩
  | _ => sv

def Server.run (sv : Server) : List Nat → Server
  | [] => sv
  | i :: schedule => (sv.step i).run schedule

/-- A handler with `rest` still to do is in `room`: it has entered it and
has not yet exited. -/
def inside (room : GoString) (rest : List Call) : Bool :=
  rest.filter Call.isRoomCall = [.exit room]

/-! ## One handler's phases -/

/-- What is left of a handler's calls on its room and its adapter: all of
`Enter`, the adapter calls and `Exit`; some adapter calls and `Exit`; or
nothing. -/
def RoomSpan (room : GoString) (rest : List Call) : Prop :=
  rest.filter Call.onRoom = [] ∨
  ∃ mids, (∀ m ∈ mids, m.usesAdapter = true) ∧
    (rest.filter Call.onRoom = mids ++ [.exit room] ∨
      ∃ adapter, rest.filter Call.onRoom = .enter room adapter :: (mids ++ [.exit room]))

theorem roomSpan_start (env : Env) (cleanup : Bool) :
    RoomSpan (roomClientID env.urlPath).1 (handleRoomWithCleanup env cleanup) := by
  rw [RoomSpan, handleRoomWithCleanup_span]
  split
  · exact .inr ⟨_, adapterCalls_usesAdapter env cleanup, .inr ⟨_, rfl⟩⟩
  · exact .inl rfl

theorem inside_start (env : Env) (cleanup : Bool) (room : GoString) :
    inside room (handleRoomWithCleanup env cleanup) = false := by
  rw [inside, ← filter_onRoom _ onRoom_of_isRoomCall, handleRoomWithCleanup_span]
  split <;>
    simp [Call.isRoomCall, filter_isRoomCall_adapterOnly (adapterCalls_usesAdapter env cleanup)]

theorem roomSpan_tail {room : GoString} {c : Call} {rest : List Call}
    (span : RoomSpan room (c :: rest)) : RoomSpan room rest := by
  by_cases kept : c.onRoom
  · simp only [RoomSpan, List.filter_cons, kept, if_true] at span
    rcases span with empty | ⟨mids, uses, middle | ⟨adapter, whole⟩⟩
    · cases empty
    · cases mids with
      | nil => exact .inl (List.cons.inj middle).2
      | cons m mids =>
        exact .inr ⟨mids, fun x member => uses x (List.mem_cons_of_mem m member),
          .inl (List.cons.inj middle).2⟩
    · exact .inr ⟨mids, uses, .inl (List.cons.inj whole).2⟩
  · simpa [RoomSpan, List.filter_cons, kept] using span

theorem roomCalls_of_span {room : GoString} {rest : List Call} (span : RoomSpan room rest) :
    rest.filter Call.isRoomCall = [] ∨ rest.filter Call.isRoomCall = [.exit room] ∨
      ∃ adapter, rest.filter Call.isRoomCall = [.enter room adapter, .exit room] := by
  rw [← filter_onRoom _ onRoom_of_isRoomCall]
  rcases span with empty | ⟨mids, uses, middle | ⟨adapter, whole⟩⟩
  · exact .inl (by rw [empty]; rfl)
  · exact .inr (.inl (by simp [middle, Call.isRoomCall, filter_isRoomCall_adapterOnly uses]))
  · exact .inr (.inr ⟨adapter,
      by simp [whole, Call.isRoomCall, filter_isRoomCall_adapterOnly uses]⟩)

/-- One call moves a handler into a room or out of it exactly by what it
adds to the room's count. -/
theorem inside_step {room : GoString} {c : Call} {rest : List Call}
    (span : RoomSpan room (c :: rest)) (r : GoString) :
    (if inside r rest then 1 else 0 : Int) =
      (if inside r (c :: rest) then 1 else 0) + c.refDelta r := by
  have shape := roomCalls_of_span span
  cases c with
  | enter r' adapter =>
    rw [List.filter_cons_of_pos rfl] at shape
    rcases shape with empty | exiting | ⟨adapter', entering⟩
    · cases empty
    · cases exiting
    · simp only [List.cons.injEq, Call.enter.injEq] at entering
      obtain ⟨⟨rfl, -⟩, restRoom⟩ := entering
      by_cases same : r' = r <;>
        simp [inside, restRoom, List.filter_cons, Call.isRoomCall, Call.refDelta, same]
  | exit r' =>
    rw [List.filter_cons_of_pos rfl] at shape
    rcases shape with empty | exiting | ⟨adapter', entering⟩
    · cases empty
    · simp only [List.cons.injEq, Call.exit.injEq] at exiting
      obtain ⟨rfl, restRoom⟩ := exiting
      by_cases same : r' = r <;>
        simp [inside, restRoom, List.filter_cons, Call.isRoomCall, Call.refDelta, same]
    · cases entering
  | _ => simp [inside, List.filter_cons, Call.isRoomCall, Call.refDelta]

theorem inside_of_usesAdapter {room : GoString} {c : Call} {rest : List Call}
    (span : RoomSpan room (c :: rest)) (uses : c.usesAdapter = true) :
    inside room (c :: rest) = true := by
  have kept : c.onRoom = true := by simp [Call.onRoom, uses]
  rcases span with empty | ⟨mids, allUses, middle | ⟨adapter, whole⟩⟩
  · simp [List.filter_cons, kept] at empty
  · rw [inside, ← filter_onRoom _ onRoom_of_isRoomCall, middle]
    simp [filter_isRoomCall_adapterOnly allUses, Call.isRoomCall]
  · rw [List.filter_cons_of_pos kept] at whole
    obtain ⟨rfl, -⟩ := List.cons.inj whole
    cases uses

theorem inside_of_exit {room r : GoString} {rest : List Call}
    (span : RoomSpan room (.exit r :: rest)) : inside r (.exit r :: rest) = true := by
  have shape := roomCalls_of_span span
  rw [List.filter_cons_of_pos rfl] at shape
  rcases shape with empty | exiting | ⟨adapter, entering⟩
  · cases empty
  · simp only [List.cons.injEq, Call.exit.injEq] at exiting
    simp [inside, exiting.2, List.filter_cons, Call.isRoomCall]
  · cases entering

/-! ## The whole server -/

theorem countP_set_int {α : Type} (p : α → Bool) (l : List α) (i : Nat) (a : α)
    (bound : i < l.length) :
    ((l.set i a).countP p : Int) + (if p l[i] then 1 else 0) =
      l.countP p + (if p a then 1 else 0) := by
  have le := List.boole_getElem_le_countP p l i bound
  rw [List.countP_set p l i a bound]
  split_ifs at le ⊢ <;> omega

/-- What every reachable state of the server keeps: each handler is within
its span, and each room's count is the number of handlers inside it. -/
structure Server.Invariant (runs : List (Env × Bool)) (sv : Server) : Prop where
  length : sv.pending.length = runs.length
  spans : ∀ (i : Nat) (run : Env × Bool) (rest : List Call), runs[i]? = some run →
    sv.pending[i]? = some rest →
    RoomSpan (roomClientID run.1.urlPath).1 rest
  counts : ∀ room, refcount room (sv.made.map Prod.snd) = sv.pending.countP (inside room)

theorem invariant_start (runs : List (Env × Bool)) : (Server.start runs).Invariant runs where
  length := by simp [Server.start]
  spans i run rest found pending := by
    simp only [Server.start, List.getElem?_map, found, Option.map_some', Option.some.injEq]
      at pending
    exact pending ▸ roomSpan_start run.1 run.2
  counts room := by
    have outside :
        (runs.map fun run => handleRoomWithCleanup run.1 run.2).countP (inside room) = 0 :=
      List.countP_eq_zero.mpr fun rest member => by
        obtain ⟨run, -, rfl⟩ := List.mem_map.mp member
        simp [inside_start]
    simp [Server.start, outside]

theorem Server.Invariant.span_of_pending {runs : List (Env × Bool)} {sv : Server}
    (inv : sv.Invariant runs) {i : Nat} {rest : List Call} (pending : sv.pending[i]? = some rest) :
    ∃ run, runs[i]? = some run ∧ RoomSpan (roomClientID run.1.urlPath).1 rest := by
  have bound := (List.getElem?_eq_some_iff.mp pending).1
  obtain ⟨run, found⟩ : ∃ run, runs[i]? = some run :=
    Option.isSome_iff_exists.mp (by simp [List.getElem?_eq_getElem (inv.length ▸ bound)])
  exact ⟨run, found, inv.spans i run rest found pending⟩

theorem Server.Invariant.step {runs : List (Env × Bool)} {sv : Server} (inv : sv.Invariant runs)
    (i : Nat) : (sv.step i).Invariant runs := by
  unfold Server.step
  split
  next c rest pending =>
    have bound : i < sv.pending.length := (List.getElem?_eq_some_iff.mp pending).1
    have current : sv.pending[i] = c :: rest := (List.getElem?_eq_some_iff.mp pending).2
    obtain ⟨run, found, span⟩ := inv.span_of_pending pending
    refine ⟨by simp [inv.length], fun j run' rest' found' pending' => ?_, fun room => ?_⟩
    · by_cases same : i = j
      · subst same
        rw [List.getElem?_set_self bound, Option.some.injEq] at pending'
        rw [found, Option.some.injEq] at found'
        exact pending' ▸ found' ▸ roomSpan_tail span
      · rw [List.getElem?_set_ne same] at pending'
        exact inv.spans j run' rest' found' pending'
    · have moved := inside_step span room
      have counted := countP_set_int (inside room) sv.pending i rest bound
      rw [current] at counted
      simp only [List.map_append, List.map_cons, List.map_nil, refcount_append, refcount_singleton,
        inv.counts room]
      omega
  next => exact inv

/-- A handler inside a room keeps the room's count positive. -/
theorem Server.Invariant.count_pos {runs : List (Env × Bool)} {sv : Server}
    (inv : sv.Invariant runs) {room : GoString} {i : Nat} {rest : List Call}
    (pending : sv.pending[i]? = some rest) (isInside : inside room rest = true) :
    1 ≤ refcount room (sv.made.map Prod.snd) := by
  rw [inv.counts room]
  exact_mod_cast List.countP_pos_iff.mpr ⟨rest, List.getElem?_mem pending, isInside⟩

theorem Server.Invariant.run {runs : List (Env × Bool)} {sv : Server} (inv : sv.Invariant runs)
    (schedule : List Nat) : (sv.run schedule).Invariant runs := by
  induction schedule generalizing sv with
  | nil => exact inv
  | cons i schedule ih => exact ih (inv.step i)

/-! ## The reference-count law -/

/-- Under every schedule of any handlers, each room's count is the number
of handlers inside it; a handler about to exit a room, or to call its
adapter, finds its room's count positive, so the room manager never
releases an adapter in use; and once every handler has returned, every
count is zero. -/
theorem room_refcount_law (runs : List (Env × Bool)) (schedule : List Nat) :
    let sv := (Server.start runs).run schedule
    (∀ room, refcount room (sv.made.map Prod.snd) = sv.pending.countP (inside room)) ∧
    (∀ (i : Nat) (room : GoString) (rest : List Call),
      sv.pending[i]? = some (.exit room :: rest) → 1 ≤ refcount room (sv.made.map Prod.snd)) ∧
    (∀ (i : Nat) (run : Env × Bool) (c : Call) (rest : List Call), runs[i]? = some run →
      sv.pending[i]? = some (c :: rest) →
      c.usesAdapter = true →
        1 ≤ refcount (roomClientID run.1.urlPath).1 (sv.made.map Prod.snd)) ∧
    ((∀ rest ∈ sv.pending, rest = []) →
      ∀ room, refcount room (sv.made.map Prod.snd) = 0) := by
  intro sv
  have inv := (invariant_start runs).run schedule
  refine ⟨inv.counts, fun i room rest pending => ?_, fun i run c rest found pending uses => ?_,
    fun done room => ?_⟩
  · obtain ⟨_, -, span⟩ := inv.span_of_pending pending
    exact inv.count_pos pending (inside_of_exit span)
  · obtain ⟨run', found', span⟩ := inv.span_of_pending pending
    rw [found, Option.some.injEq] at found'
    exact found' ▸ inv.count_pos pending (inside_of_usesAdapter span uses)
  · rw [inv.counts room]
    exact_mod_cast List.countP_eq_zero.mpr fun rest member => by simp [done rest member, inside]

end PeerCalls.WsHandler
