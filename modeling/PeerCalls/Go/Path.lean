import Mathlib.Data.List.DropRight
import Mathlib.Data.List.GetD
import PeerCalls.Go.Basic

/-!
# Go's `path` package on byte strings

`clean`, `split`, `base` and `dir` transcribe `path.Clean`, `path.Split`,
`path.Base` and `path.Dir` of the Go standard library, which the socket
handler uses to read the room and the client ID off the URL path. `Clean`'s
`lazybuf` is kept as the bytes written so far; its laziness only avoids a
copy. The loop over the input is one step per `switch` case, and copying a
real element is the inner `for` loop, `copyElement`; what that loop keeps is
in `Go.Clean`. The `..` test `r+2 == n || path[r+2] == '/'` is
`elementEnds`, on the bytes after the `..`; the backtracking loop
`for out.w > dotdot && out.index(out.w) != '/' { out.w-- }` is
`backtrackLoop`. `lastIndexSlash` is `strings.LastIndex(s, "/")`.

This module reads paths back: the last slash, `Split`, and `Base` of a path
ending in a given element.
-/

namespace PeerCalls.Go.Path

set_option autoImplicit false

/-- The state of `Clean`'s loop: `out.buf[:out.w]`, and `dotdot`, the index
where `..` must stop backtracking. -/
structure CleanState where
  out : GoString
  dotdot : Nat
deriving Repr, DecidableEq

def CleanState.append (st : CleanState) (c : UInt8) : CleanState :=
  { st with out := st.out ++ [c] }

def elementEnds (rest : GoString) : Bool :=
  rest.head?.all (· = slash)

def backtrackLoop (out : GoString) (dotdot : Nat) : Nat → Nat
  | 0 => 0
  | w + 1 =>
    if dotdot < w + 1 ∧ out.getD (w + 1) 0 ≠ slash then backtrackLoop out dotdot w else w + 1

/-- The `..` case: remove the last element if there is one above `dotdot`,
otherwise append `..` when the path is not rooted. -/
def CleanState.dotDot (rooted : Bool) (st : CleanState) : CleanState :=
  if st.dotdot < st.out.length then
    { st with out := st.out.take (backtrackLoop st.out st.dotdot (st.out.length - 1)) }
  else if !rooted then
    let out := (if 0 < st.out.length then st.out ++ [slash] else st.out) ++ [dot, dot]
    { out := out, dotdot := out.length }
  else st

def CleanState.startElement (rooted : Bool) (st : CleanState) : CleanState :=
  if rooted ∧ st.out.length ≠ 1 ∨ !rooted ∧ st.out.length ≠ 0 then st.append slash else st

mutual
/-- The `for r < n` loop of `Clean` on the unread bytes `path[r:]`. -/
def cleanLoop (rooted : Bool) : GoString → CleanState → CleanState
  | [], st => st
  | [c], st =>
    if c = slash ∨ c = dot then cleanLoop rooted [] st
    else copyElement rooted [] ((st.startElement rooted).append c)
  | c :: d :: rest, st =>
    if c = slash then cleanLoop rooted (d :: rest) st
    else if c = dot ∧ d = slash then cleanLoop rooted (d :: rest) st
    else if c = dot ∧ d = dot ∧ elementEnds rest then cleanLoop rooted rest (st.dotDot rooted)
    else copyElement rooted (d :: rest) ((st.startElement rooted).append c)

/-- The inner loop copying a real element up to the next slash, which the
outer loop then skips as an empty element. -/
def copyElement (rooted : Bool) : GoString → CleanState → CleanState
  | [], st => st
  | c :: rest, st =>
    if c = slash then cleanLoop rooted rest st else copyElement rooted rest (st.append c)
end

def clean : GoString → GoString
  | [] => [dot]
  | c :: rest =>
    let st := if c = slash then cleanLoop true rest ⟨[slash], 1⟩
      else cleanLoop false (c :: rest) ⟨[], 0⟩
    if st.out = [] then [dot] else st.out

/-- The loop of `strings.LastIndexByte`, run with `i + 1` in place of `i`:
`for i := len(s) - 1; i >= 0; i-- { if s[i] == c { return i } }`. -/
def lastIndexLoop (s : GoString) (c : UInt8) : Nat → Int
  | 0 => -1
  | i + 1 => if s.getD i 0 = c then i else lastIndexLoop s c i

def lastIndexSlash (s : GoString) : Int :=
  lastIndexLoop s slash s.length

def split (path : GoString) : GoString × GoString :=
  let i := lastIndexSlash path
  (path.take (i + 1).toNat, path.drop (i + 1).toNat)

def base (path : GoString) : GoString :=
  if path = [] then [dot] else
  let path := path.rdropWhile (· = slash)
  let i := lastIndexSlash path
  let path := if 0 ≤ i then path.drop (i + 1).toNat else path
  if path = [] then [slash] else path

def dir (path : GoString) : GoString :=
  clean (split path).1

example : clean [97, 47, 46, 46, 47, 98] = [98] := by decide

example : dir [47, 97, 47, 47, 98, 47, 99] = [47, 97, 47, 98] := by decide

/-! ## Scanning back to the last slash -/

theorem lastIndexLoop_skip (s : GoString) (c : UInt8) (k : Nat) :
    ∀ m, (∀ j, k ≤ j → j < k + m → s.getD j 0 ≠ c) →
      lastIndexLoop s c (k + m) = lastIndexLoop s c k
  | 0, _ => rfl
  | m + 1, skipped => by
    rw [← Nat.add_assoc, lastIndexLoop, if_neg (skipped _ (by omega) (by omega))]
    exact lastIndexLoop_skip s c k m fun j low high => skipped j low (by omega)

theorem getD_append_right_of_le (xs ys : GoString) (j : Nat) (after : xs.length ≤ j) :
    (xs ++ ys).getD j 0 = ys.getD (j - xs.length) 0 := by
  simp only [List.getD_eq_getElem?_getD, List.getElem?_append_right after]

theorem lastIndexSlash_append (xs ys : GoString) (noSlash : slash ∉ ys)
    (ends : xs = [] ∨ xs.getLast? = some slash) :
    lastIndexSlash (xs ++ ys) = xs.length - 1 := by
  have skip := lastIndexLoop_skip (xs ++ ys) slash xs.length ys.length fun j low high found => by
    rw [getD_append_right_of_le xs ys j low,
      List.getD_eq_getElem ys 0 (show j - xs.length < ys.length by omega)] at found
    exact noSlash (found ▸ List.getElem_mem _)
  rw [lastIndexSlash, List.length_append, skip]
  rcases ends with rfl | ends
  · rfl
  · obtain ⟨init, rfl⟩ : ∃ init, xs = init ++ [slash] :=
      ⟨xs.dropLast, (List.dropLast_append_getLast? slash ends).symm⟩
    simp [lastIndexLoop, List.getElem_append_right]

/-! ## Reading the last element -/

theorem split_append (xs ys : GoString) (noSlash : slash ∉ ys)
    (ends : xs = [] ∨ xs.getLast? = some slash) : split (xs ++ ys) = (xs, ys) := by
  have index : ((xs.length : Int) - 1 + 1).toNat = xs.length := by omega
  simp [split, lastIndexSlash_append xs ys noSlash ends, index]

/-- `Base` returns a last element that does not end in a slash. -/
theorem base_append (xs ys : GoString) (nonempty : ys ≠ []) (noSlash : slash ∉ ys)
    (ends : xs = [] ∨ xs.getLast? = some slash) : base (xs ++ ys) = ys := by
  have kept : (xs ++ ys).rdropWhile (· = slash) = xs ++ ys := by
    rw [List.rdropWhile_eq_self_iff]
    intro _ last
    rw [List.getLast_append_of_ne_nil nonempty] at last
    exact noSlash (of_decide_eq_true last ▸ List.getLast_mem nonempty)
  have notEmpty : xs ++ ys ≠ [] := by simp [nonempty]
  simp only [base, notEmpty, kept, lastIndexSlash_append xs ys noSlash ends, if_false]
  rcases ends with rfl | ends
  · simp [nonempty]
  · have low : (0 : Int) ≤ xs.length - 1 := by
      have : xs ≠ [] := by rintro rfl; simp at ends
      have := List.length_pos.mpr this
      omega
    have index : ((xs.length : Int) - 1 + 1).toNat = xs.length := by omega
    simp [low, index, nonempty]

theorem base_concat_slash (path : GoString) (nonempty : path ≠ []) :
    base (path ++ [slash]) = base path := by
  simp [base, nonempty, List.rdropWhile_concat_pos]

end PeerCalls.Go.Path
