import PeerCalls.Go.Clean
import PeerCalls.WsHandler.HandleRoom

/-!
# Reading the room and the client ID off the socket URL

The socket URL is `/ws/<room>/<clientID>`, under any base URL. The handler
takes `path.Base` of the path as the client ID and `path.Base` of
`path.Dir` as the room, so what matters is how `Clean` treats everything
before the room: whatever it is, the room survives as the last element.
On any path that starts with a slash the room is the last directory element
`Clean`'s lexical rules keep, so it is never empty, `.` or `..`, and the
client ID is the last non-empty element.
-/

namespace PeerCalls.WsHandler

open PeerCalls.Go PeerCalls.Go.Path

set_option autoImplicit false

theorem layout_split (pre room clientID : GoString) :
    pre ++ slash :: (room ++ slash :: clientID) =
      (pre ++ slash :: (room ++ [slash])) ++ clientID ∧
    (pre ++ slash :: (room ++ [slash])).getLast? = some slash := by
  refine ⟨by simp, ?_⟩
  rw [← List.cons_append, ← List.append_assoc]
  exact List.getLast?_concat _

theorem base_layout (pre room clientID : GoString) (nonempty : clientID ≠ [])
    (noSlash : slash ∉ clientID) :
    base (pre ++ slash :: (room ++ slash :: clientID)) = clientID := by
  obtain ⟨split, ends⟩ := layout_split pre room clientID
  rw [split, base_append _ _ nonempty noSlash (.inr ends)]

theorem base_dir_layout (pre room clientID : GoString) (nonempty : room ≠ [])
    (noSlash : slash ∉ room) (notDot : room ≠ [dot]) (notDotDot : room ≠ [dot, dot])
    (clientNoSlash : slash ∉ clientID) :
    base (dir (pre ++ slash :: (room ++ slash :: clientID))) = room := by
  obtain ⟨split, dirEnds⟩ := layout_split pre room clientID
  obtain ⟨front, ends, cleaned⟩ :=
    clean_last_element pre room ⟨nonempty, noSlash, notDot, notDotDot⟩
  rw [dir, split, split_append _ _ clientNoSlash (.inr dirEnds), cleaned,
    base_append front room nonempty noSlash ends]

/-- Under any prefix, `<room>/<clientID>` is read back as exactly that pair,
so two different pairs under one prefix never reach the same identity. -/
theorem roomClientID_layout (pre room clientID : GoString)
    (roomNonempty : room ≠ []) (roomNoSlash : slash ∉ room)
    (roomNotDot : room ≠ [dot]) (roomNotDotDot : room ≠ [dot, dot])
    (clientNonempty : clientID ≠ []) (clientNoSlash : slash ∉ clientID) :
    roomClientID (pre ++ slash :: (room ++ slash :: clientID)) = (room, clientID) ∧
    ∀ room' clientID', room' ≠ [] → slash ∉ room' → room' ≠ [dot] →
      room' ≠ [dot, dot] → clientID' ≠ [] → slash ∉ clientID' →
      roomClientID (pre ++ slash :: (room' ++ slash :: clientID')) =
        roomClientID (pre ++ slash :: (room ++ slash :: clientID)) →
      room' = room ∧ clientID' = clientID := by
  have parsed : ∀ room clientID : GoString, room ≠ [] → slash ∉ room → room ≠ [dot] →
      room ≠ [dot, dot] → clientID ≠ [] → slash ∉ clientID →
      roomClientID (pre ++ slash :: (room ++ slash :: clientID)) = (room, clientID) :=
    fun room clientID nonempty noSlash notDot notDotDot clientNonempty clientNoSlash =>
      Prod.ext (base_dir_layout pre room clientID nonempty noSlash notDot notDotDot clientNoSlash)
        (base_layout pre room clientID clientNonempty clientNoSlash)
  refine ⟨parsed room clientID roomNonempty roomNoSlash roomNotDot roomNotDotDot clientNonempty
    clientNoSlash, fun room' clientID' nonempty noSlash notDot notDotDot clientNonempty'
      clientNoSlash' same => ?_⟩
  rw [parsed room' clientID' nonempty noSlash notDot notDotDot clientNonempty' clientNoSlash',
    parsed room clientID roomNonempty roomNoSlash roomNotDot roomNotDotDot clientNonempty
      clientNoSlash] at same
  exact Prod.ext_iff.mp same

theorem roomClientID_layout_ws :
    ([114] : GoString) ≠ [] ∧ slash ∉ ([114] : GoString) ∧ ([114] : GoString) ≠ [dot] ∧
    ([114] : GoString) ≠ [dot, dot] ∧ ([99] : GoString) ≠ [] ∧
    slash ∉ ([99] : GoString) ∧
    roomClientID ([47, 119, 115] ++ slash :: ([114] ++ slash :: [99])) = ([114], [99]) :=
  ⟨by decide, by decide, by decide, by decide, by decide, by decide,
    (roomClientID_layout [47, 119, 115] [114] [99] (by decide) (by decide) (by decide) (by decide)
      (by decide) (by decide)).1⟩

/-- A URL ending in a slash has an empty client ID, and the handler does not
reject it: `path.Base` drops the trailing slash, so the room is read as the
client ID too. -/
theorem roomClientID_trailing_slash (pre room : GoString) (roomNonempty : room ≠ [])
    (roomNoSlash : slash ∉ room) (roomNotDot : room ≠ [dot])
    (roomNotDotDot : room ≠ [dot, dot]) :
    roomClientID (pre ++ slash :: (room ++ [slash])) = (room, room) := by
  have ends := (layout_split pre room []).2
  have whole : split (pre ++ slash :: (room ++ [slash])) =
      (pre ++ slash :: (room ++ [slash]), []) := by
    simpa using
      split_append (pre ++ slash :: (room ++ [slash])) [] (List.not_mem_nil _) (.inr ends)
  obtain ⟨front, frontEnds, cleaned⟩ :=
    clean_last_element pre room ⟨roomNonempty, roomNoSlash, roomNotDot, roomNotDotDot⟩
  have stripped : pre ++ slash :: (room ++ [slash]) = ((pre ++ [slash]) ++ room) ++ [slash] := by
    simp
  have slashEnds : (pre ++ [slash]).getLast? = some slash := List.getLast?_concat _
  refine Prod.ext ?_ ?_
  · rw [roomClientID, dir, whole, cleaned,
      base_append front room roomNonempty roomNoSlash frontEnds]
  · rw [roomClientID, stripped, base_concat_slash _ (by simp [roomNonempty]),
      base_append _ room roomNonempty roomNoSlash (.inr slashEnds)]

theorem roomClientID_trailing_slash_ws :
    ([114] : GoString) ≠ [] ∧ slash ∉ ([114] : GoString) ∧ ([114] : GoString) ≠ [dot] ∧
    ([114] : GoString) ≠ [dot, dot] ∧
    roomClientID ([47, 119, 115] ++ slash :: ([114] ++ [slash])) = ([114], [114]) :=
  ⟨by decide, by decide, by decide, by decide,
    roomClientID_trailing_slash [47, 119, 115] [114] (by decide) (by decide) (by decide)
      (by decide)⟩

/-- On every URL path an HTTP request can carry, one that starts with a
slash, the room is the root `/` or one clean path element: non-empty,
without a slash, and neither `.` nor `..`, however the path is written. The
client ID is `/` or a non-empty name without a slash, but may be `.` or
`..`. -/
theorem roomClientID_names (urlPath : GoString) (rooted : urlPath.head? = some slash) :
    ((roomClientID urlPath).1 = [slash] ∨ IsElement (roomClientID urlPath).1) ∧
    ((roomClientID urlPath).2 = [slash] ∨
      (roomClientID urlPath).2 ≠ [] ∧ slash ∉ (roomClientID urlPath).2) := by
  obtain ⟨rest, rfl⟩ : ∃ rest, urlPath = slash :: rest := by
    cases urlPath with
    | nil => simp at rooted
    | cons c rest => exact ⟨rest, by simpa using rooted⟩
  have kept := cleanElements_isElement fun elem member =>
    not_mem_of_mem_splitOn rest elem (List.dropLast_subset _ member)
  simp only [roomClientID, dir_rooted, base_rendered _ kept, base_rooted]
  refine ⟨?_, ?_⟩
  · cases last : (cleanElements (rest.splitOn slash).dropLast).getLast? with
    | none => exact .inl rfl
    | some elem => exact .inr (kept elem (List.mem_of_getLast?_eq_some last))
  · cases last : ((rest.splitOn slash).filter (· ≠ [])).getLast? with
    | none => exact .inl rfl
    | some elem =>
      obtain ⟨piece, nonempty⟩ := List.mem_filter.mp (List.mem_of_getLast?_eq_some last)
      exact .inr ⟨of_decide_eq_true nonempty, not_mem_of_mem_splitOn rest elem piece⟩

/-- `/ws/../r/..`: the room is `r`, the client ID `..`. -/
theorem roomClientID_names_dotdot :
    let urlPath : GoString := [47, 119, 115, 47, 46, 46, 47, 114, 47, 46, 46]
    roomClientID urlPath = ([114], [dot, dot]) ∧ urlPath.head? = some slash ∧
    ((roomClientID urlPath).1 = [slash] ∨ IsElement (roomClientID urlPath).1) ∧
    ((roomClientID urlPath).2 = [slash] ∨
      (roomClientID urlPath).2 ≠ [] ∧ slash ∉ (roomClientID urlPath).2) :=
  ⟨by decide, rfl, roomClientID_names _ rfl⟩

/-- On every URL path that starts with a slash, the handler reads the room
as the last element of the directory part that `Clean`'s lexical rules
keep, or the root when none is kept, and the client ID as the last
non-empty element, or the root when there is none. -/
theorem roomClientID_spec (rest : GoString) :
    roomClientID (slash :: rest) =
      ((cleanElements (rest.splitOn slash).dropLast).getLast?.getD [slash],
        ((rest.splitOn slash).filter (· ≠ [])).getLast?.getD [slash]) := by
  rw [roomClientID, dir_rooted, base_rendered _ (cleanElements_isElement fun elem member =>
    not_mem_of_mem_splitOn rest elem (List.dropLast_subset _ member)), base_rooted]

end PeerCalls.WsHandler
