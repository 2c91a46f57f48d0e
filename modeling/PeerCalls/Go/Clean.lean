import PeerCalls.Go.Path

/-!
# What `path.Clean` computes

`Clean`'s loop reads its input one element at a time: an empty element and
`.` are skipped, `..` removes the last element written (or is written, on a
relative path with nothing to remove), and any other element is copied after
the separator it needs. `elemStep` is what the loop does with one element,
and the loop is the fold of `elemStep` over the elements of its input
(`cleanLoop_fold`), so a property of its state that `..` and the copy of a
real element keep holds after any input. On a rooted path this gives what
`Clean` is for (`clean_rooted`): the root, then the elements the lexical
rules keep (`cleanElements`), each after one slash. What `Base` and `Dir`
return on a rooted path follows.
-/

namespace PeerCalls.Go.Path

set_option autoImplicit false

/-- A path element `Clean` writes as it is: non-empty, without a slash, and
neither `.` nor `..`. -/
def IsElement (elem : GoString) : Prop :=
  elem ≠ [] ∧ slash ∉ elem ∧ elem ≠ [dot] ∧ elem ≠ [dot, dot]

instance (elem : GoString) : Decidable (IsElement elem) :=
  inferInstanceAs (Decidable (_ ∧ _))

theorem isElement_of_kept {elem : GoString} (noSlash : slash ∉ elem)
    (kept : ¬(elem = [] ∨ elem = [dot])) (notDotDot : elem ≠ [dot, dot]) : IsElement elem :=
  ⟨fun empty => kept (.inl empty), noSlash, fun single => kept (.inr single), notDotDot⟩

/-! ## One element at a time -/

@[simp] theorem cleanLoop_nil (rooted : Bool) (st : CleanState) : cleanLoop rooted [] st = st := by
  simp [cleanLoop]

theorem cleanLoop_slash (rooted : Bool) (rest : GoString) (st : CleanState) :
    cleanLoop rooted (slash :: rest) st = cleanLoop rooted rest st := by
  cases rest <;> simp [cleanLoop]

theorem copyElement_chunk (rooted : Bool) (rest : GoString) :
    ∀ (chunk : GoString) (st : CleanState), slash ∉ chunk →
      copyElement rooted (chunk ++ slash :: rest) st =
        cleanLoop rooted rest { st with out := st.out ++ chunk }
  | [], st, _ => by simp [copyElement]
  | c :: chunk, st, noSlash => by
    have notSlash : c ≠ slash := fun same => noSlash (same ▸ List.mem_cons_self c chunk)
    rw [List.cons_append, copyElement, if_neg notSlash,
      copyElement_chunk rooted rest chunk _
        (fun inChunk => noSlash (List.mem_cons_of_mem c inChunk))]
    simp [CleanState.append]

theorem copyElement_tail (rooted : Bool) :
    ∀ (chunk : GoString) (st : CleanState), slash ∉ chunk →
      copyElement rooted chunk st = { st with out := st.out ++ chunk }
  | [], st, _ => by simp [copyElement]
  | c :: chunk, st, noSlash => by
    have notSlash : c ≠ slash := fun same => noSlash (same ▸ List.mem_cons_self c chunk)
    rw [copyElement, if_neg notSlash,
      copyElement_tail rooted chunk _ (fun inChunk => noSlash (List.mem_cons_of_mem c inChunk))]
    simp [CleanState.append]

theorem cleanLoop_element (rooted : Bool) (rest elem : GoString) (st : CleanState)
    (element : IsElement elem) :
    cleanLoop rooted (elem ++ slash :: rest) st =
      cleanLoop rooted rest { out := (st.startElement rooted).out ++ elem,
                              dotdot := (st.startElement rooted).dotdot } := by
  obtain ⟨nonempty, noSlash, notDot, notDotDot⟩ := element
  obtain ⟨c, tail, rfl⟩ := List.exists_cons_of_ne_nil nonempty
  have cSlash : c ≠ slash := fun same => noSlash (same ▸ List.mem_cons_self c tail)
  cases tail with
  | nil =>
    have cDot : c ≠ dot := fun same => notDot (by rw [same])
    simp [cleanLoop, copyElement, cSlash, cDot, CleanState.append]
  | cons d tail =>
    have dSlash : d ≠ slash := fun same => noSlash (by simp [same])
    have notDotDot' : ¬(c = dot ∧ d = dot ∧ elementEnds (tail ++ slash :: rest)) := by
      rintro ⟨rfl, rfl, ends⟩
      cases tail with
      | nil => exact notDotDot rfl
      | cons e tail => exact noSlash (by simp_all [elementEnds])
    have copied := copyElement_chunk rooted rest (d :: tail)
      ((st.startElement rooted).append c) (fun inChunk => noSlash (List.mem_cons_of_mem c inChunk))
    rw [List.cons_append, List.cons_append, cleanLoop, if_neg cSlash, if_neg (by tauto),
      if_neg notDotDot', ← List.cons_append, copied]
    simp [CleanState.append]

theorem cleanLoop_concat_slash (rooted : Bool) :
    ∀ (elem : GoString) (st : CleanState), slash ∉ elem →
      cleanLoop rooted (elem ++ [slash]) st = cleanLoop rooted elem st
  | [], st, _ => cleanLoop_slash rooted [] st
  | [c], st, noSlash => by
    have cSlash : c ≠ slash := fun same => noSlash (by simp [same])
    by_cases cDot : c = dot <;> simp [cleanLoop, copyElement, cSlash, cDot]
  | c :: d :: rest, st, noSlash => by
    have cSlash : c ≠ slash := fun same => noSlash (by simp [same])
    have dSlash : d ≠ slash := fun same => noSlash (by simp [same])
    have restNoSlash : slash ∉ rest := fun inRest => noSlash (by simp [inRest])
    have ends : elementEnds (rest ++ [slash]) = elementEnds rest := by cases rest <;> rfl
    rw [List.cons_append, List.cons_append, cleanLoop, cleanLoop, if_neg cSlash, if_neg cSlash,
      ends]
    simp only [dSlash, and_false, if_false]
    split_ifs
    · exact cleanLoop_concat_slash rooted rest _ restNoSlash
    · have chunkNoSlash : slash ∉ d :: rest := by simp [Ne.symm dSlash, restNoSlash]
      rw [← List.cons_append, copyElement_chunk rooted [] (d :: rest) _ chunkNoSlash,
        copyElement_tail rooted (d :: rest) _ chunkNoSlash, cleanLoop_nil]

theorem exists_first_element : ∀ (pre : GoString),
    ∃ elem, slash ∉ elem ∧ (pre = elem ∨ ∃ after, pre = elem ++ slash :: after)
  | [] => ⟨[], List.not_mem_nil _, .inl rfl⟩
  | c :: pre => by
    by_cases isSlash : c = slash
    · exact ⟨[], List.not_mem_nil _, .inr ⟨pre, by simp [isSlash]⟩⟩
    · obtain ⟨elem, noSlash, split⟩ := exists_first_element pre
      refine ⟨c :: elem, by simp [noSlash, Ne.symm isSlash], ?_⟩
      rcases split with rfl | ⟨after, rfl⟩
      · exact .inl rfl
      · exact .inr ⟨after, rfl⟩

/-- Induction over a path one element at a time: the path is its first
element, alone or followed by a slash and the rest. -/
theorem elements_induction {motive : GoString → Prop}
    (last : ∀ elem, slash ∉ elem → motive elem)
    (next : ∀ elem after, slash ∉ elem → motive after → motive (elem ++ slash :: after))
    (path : GoString) : motive path := by
  obtain ⟨elem, noSlash, rfl | ⟨after, split⟩⟩ := exists_first_element path
  · exact last _ noSlash
  · rw [split]
    exact next elem after noSlash (elements_induction last next after)
termination_by path.length
decreasing_by rw [split]; simp; omega

theorem splitOn_of_not_mem {elem : GoString} (noSlash : slash ∉ elem) :
    elem.splitOn slash = [elem] :=
  List.splitOnP_eq_single _ elem fun _ member found => noSlash (eq_of_beq found ▸ member)

theorem splitOn_first {elem : GoString} (noSlash : slash ∉ elem) (rest : GoString) :
    (elem ++ slash :: rest).splitOn slash = elem :: rest.splitOn slash :=
  List.splitOnP_first (· == slash) elem
    (fun _ member found => noSlash (eq_of_beq found ▸ member)) slash (by simp) rest

theorem splitOn_append_slash (pre rest : GoString) :
    (pre ++ slash :: rest).splitOn slash = pre.splitOn slash ++ rest.splitOn slash := by
  induction pre using elements_induction with
  | last elem noSlash => rw [splitOn_first noSlash, splitOn_of_not_mem noSlash]; rfl
  | next elem after noSlash ih =>
    rw [List.append_assoc, List.cons_append, splitOn_first noSlash, ih, splitOn_first noSlash,
      List.cons_append]

theorem not_mem_of_mem_splitOn (path : GoString) :
    ∀ elem ∈ path.splitOn slash, slash ∉ elem := by
  induction path using elements_induction with
  | last elem noSlash => simpa [splitOn_of_not_mem noSlash] using noSlash
  | next elem after noSlash ih =>
    rw [splitOn_first noSlash]
    exact List.forall_mem_cons.mpr ⟨noSlash, ih⟩

/-- What the loop does with one element of its input. -/
def elemStep (rooted : Bool) (st : CleanState) (elem : GoString) : CleanState :=
  if elem = [] ∨ elem = [dot] then st
  else if elem = [dot, dot] then st.dotDot rooted
  else ⟨(st.startElement rooted).out ++ elem, (st.startElement rooted).dotdot⟩

theorem cleanLoop_elemStep (rooted : Bool) (rest elem : GoString) (st : CleanState)
    (noSlash : slash ∉ elem) :
    cleanLoop rooted (elem ++ slash :: rest) st =
      cleanLoop rooted rest (elemStep rooted st elem) := by
  unfold elemStep
  by_cases empty : elem = []
  · simp [empty, cleanLoop_slash]
  by_cases single : elem = [dot]
  · simp [single, cleanLoop, cleanLoop_slash]
  by_cases double : elem = [dot, dot]
  · have dotSlash : dot ≠ slash := by decide
    simp [double, cleanLoop, elementEnds, cleanLoop_slash, dotSlash]
  rw [if_neg (by tauto), if_neg double]
  exact cleanLoop_element rooted rest elem st ⟨empty, noSlash, single, double⟩

/-- `Clean`'s loop is the fold of `elemStep` over the elements of its input. -/
theorem cleanLoop_fold (rooted : Bool) (path : GoString) (st : CleanState) :
    cleanLoop rooted path st = (path.splitOn slash).foldl (elemStep rooted) st := by
  induction path using elements_induction generalizing st with
  | last elem noSlash =>
    rw [splitOn_of_not_mem noSlash, ← cleanLoop_concat_slash rooted elem st noSlash,
      cleanLoop_elemStep rooted [] elem st noSlash, cleanLoop_nil]
    rfl
  | next elem after noSlash ih =>
    rw [cleanLoop_elemStep rooted after elem st noSlash, splitOn_first noSlash, List.foldl_cons, ih]

/-! ## Any property the two kinds of element keep -/

section

variable {rooted : Bool} (Inv : CleanState → Prop)
  (keepsDotDot : ∀ st, Inv st → Inv (st.dotDot rooted))
  (keepsElement : ∀ st elem, IsElement elem → Inv st →
    Inv ⟨(st.startElement rooted).out ++ elem, (st.startElement rooted).dotdot⟩)
include keepsDotDot keepsElement

theorem foldl_elemStep_keeps (elems : List GoString) (noSlash : ∀ elem ∈ elems, slash ∉ elem)
    (st : CleanState) (inv : Inv st) : Inv (elems.foldl (elemStep rooted) st) := by
  induction elems generalizing st with
  | nil => exact inv
  | cons elem elems ih =>
    obtain ⟨elemNoSlash, restNoSlash⟩ := List.forall_mem_cons.mp noSlash
    refine ih restNoSlash _ ?_
    unfold elemStep
    split_ifs with skipped double
    · exact inv
    · exact keepsDotDot st inv
    · exact keepsElement st elem (isElement_of_kept elemNoSlash skipped double) inv

theorem cleanLoop_through_slash (rest pre : GoString) (st : CleanState) (inv : Inv st) :
    ∃ st', Inv st' ∧
      cleanLoop rooted (pre ++ slash :: rest) st = cleanLoop rooted rest st' :=
  ⟨_, foldl_elemStep_keeps Inv keepsDotDot keepsElement _ (not_mem_of_mem_splitOn pre) st inv,
    by rw [cleanLoop_fold, cleanLoop_fold, splitOn_append_slash, List.foldl_append]⟩

end

/-! ## The root stays -/

/-- What `Clean`'s loop keeps true of a rooted path: the leading slash stays
first in `out`, and `dotdot` keeps `..` from backtracking over it. -/
def Rooted (rooted : Bool) (st : CleanState) : Prop :=
  rooted = true → 1 ≤ st.dotdot ∧ st.out.head? = some slash

theorem rooted_extend {rooted : Bool} {st : CleanState} (bytes : GoString)
    (inv : Rooted rooted st) : Rooted rooted { st with out := st.out ++ bytes } := by
  intro isRooted
  obtain ⟨low, head⟩ := inv isRooted
  simp [low, List.head?_append, head]

theorem rooted_startElement {rooted : Bool} {st : CleanState} (inv : Rooted rooted st) :
    Rooted rooted (st.startElement rooted) := by
  unfold CleanState.startElement CleanState.append
  split
  · exact rooted_extend [slash] inv
  · exact inv

theorem le_backtrackLoop (out : GoString) (dotdot : Nat) :
    ∀ w, dotdot ≤ w → dotdot ≤ backtrackLoop out dotdot w
  | 0, low => low
  | w + 1, low => by
    unfold backtrackLoop
    split
    · exact le_backtrackLoop out dotdot w (by omega)
    · exact low

theorem rooted_dotDot {rooted : Bool} (st : CleanState) (inv : Rooted rooted st) :
    Rooted rooted (st.dotDot rooted) := by
  intro isRooted
  obtain ⟨low, head⟩ := inv isRooted
  unfold CleanState.dotDot
  split
  · have kept := le_backtrackLoop st.out st.dotdot (st.out.length - 1) (by omega)
    simp only [List.head?_take, head]
    exact ⟨low, if_neg (by omega)⟩
  · simp [isRooted, low, head]

theorem rooted_element {rooted : Bool} (st : CleanState) (elem : GoString)
    (_element : IsElement elem) (inv : Rooted rooted st) :
    Rooted rooted ⟨(st.startElement rooted).out ++ elem, (st.startElement rooted).dotdot⟩ :=
  rooted_extend elem (rooted_startElement inv)

theorem startElement_ends {rooted : Bool} {st : CleanState} (inv : Rooted rooted st) :
    (st.startElement rooted).out = [] ∨ (st.startElement rooted).out.getLast? = some slash := by
  unfold CleanState.startElement CleanState.append
  split
  · exact .inr (by simp)
  · rename_i kept
    cases rooted with
    | true =>
      obtain ⟨-, head⟩ := inv rfl
      obtain ⟨b, single⟩ := List.length_eq_one.mp (by simpa using kept)
      simp_all
    | false => exact .inl (by simpa using kept)

/-- The last element before a trailing slash survives `Clean`, after a
slash or alone, whatever comes before it. -/
theorem clean_last_element (pre elem : GoString) (element : IsElement elem) :
    ∃ front, (front = [] ∨ front.getLast? = some slash) ∧
      clean (pre ++ slash :: (elem ++ [slash])) = front ++ elem := by
  have rootedStart : Rooted true ⟨[slash], 1⟩ := fun _ => ⟨le_refl 1, rfl⟩
  obtain ⟨rooted, st, inv, loop⟩ : ∃ rooted st, Rooted rooted st ∧
      clean (pre ++ slash :: (elem ++ [slash])) =
        if (cleanLoop rooted (elem ++ [slash]) st).out = [] then [dot]
        else (cleanLoop rooted (elem ++ [slash]) st).out := by
    cases pre with
    | nil => exact ⟨true, _, rootedStart, by simp [clean]⟩
    | cons c pre =>
      by_cases isSlash : c = slash
      · obtain ⟨st, inv, through⟩ := cleanLoop_through_slash (Rooted true) rooted_dotDot
          rooted_element (elem ++ [slash]) pre _ rootedStart
        exact ⟨true, st, inv, by simp [clean, isSlash, through]⟩
      · obtain ⟨st, inv, through⟩ := cleanLoop_through_slash (Rooted false) rooted_dotDot
          rooted_element (elem ++ [slash]) (c :: pre) ⟨[], 0⟩ nofun
        refine ⟨false, st, inv, ?_⟩
        simp only [clean, if_neg isSlash, List.cons_append] at through ⊢
        rw [through]
  refine ⟨(st.startElement rooted).out, startElement_ends inv, ?_⟩
  rw [loop, cleanLoop_element rooted [] elem st element]
  simp [element.1]

/-! ## The lexical rules on a rooted path -/

/-- `Clean`'s rules on one element of a rooted path, given the elements
kept so far: an empty element and `.` are dropped, `..` drops the element
before it (at the root there is none), and any other element is kept. -/
def cleanStep (kept : List GoString) (elem : GoString) : List GoString :=
  if elem = [] ∨ elem = [dot] then kept
  else if elem = [dot, dot] then kept.dropLast
  else kept ++ [elem]

/-- The elements of a rooted path that `Clean` keeps, in order. -/
def cleanElements (elems : List GoString) : List GoString :=
  elems.foldl cleanStep []

theorem foldl_cleanStep_isElement (elems : List GoString)
    (noSlash : ∀ elem ∈ elems, slash ∉ elem) (kept : List GoString)
    (elements : ∀ e ∈ kept, IsElement e) :
    ∀ e ∈ elems.foldl cleanStep kept, IsElement e := by
  induction elems generalizing kept with
  | nil => exact elements
  | cons elem elems ih =>
    obtain ⟨elemNoSlash, restNoSlash⟩ := List.forall_mem_cons.mp noSlash
    refine ih restNoSlash _ ?_
    unfold cleanStep
    split_ifs with skipped double
    · exact elements
    · exact fun e member => elements e (List.dropLast_subset kept member)
    · intro e member
      rcases List.mem_append.mp member with old | new
      · exact elements e old
      · exact List.mem_singleton.mp new ▸ isElement_of_kept elemNoSlash skipped double

theorem cleanElements_isElement {elems : List GoString}
    (noSlash : ∀ elem ∈ elems, slash ∉ elem) :
    ∀ e ∈ cleanElements elems, IsElement e :=
  foldl_cleanStep_isElement elems noSlash [] nofun

@[simp] theorem intercalate_slash_nil : [slash].intercalate ([] : List GoString) = [] := rfl

@[simp] theorem intercalate_slash_singleton (e : GoString) : [slash].intercalate [e] = e := by
  simp [List.intercalate]

theorem intercalate_concat : ∀ (xs : List GoString) (e : GoString), xs ≠ [] →
    [slash].intercalate (xs ++ [e]) = [slash].intercalate xs ++ slash :: e
  | [], _, nonempty => absurd rfl nonempty
  | [x], e, _ => by simp [List.intercalate]
  | x :: y :: rest, e, _ => by
    have ih := intercalate_concat (y :: rest) e (List.cons_ne_nil _ _)
    simp only [List.cons_append] at ih ⊢
    simp [List.intercalate] at ih ⊢
    simp [ih]

theorem intercalate_ne_nil {kept : List GoString} (nonempty : kept ≠ [])
    (elements : ∀ e ∈ kept, IsElement e) : [slash].intercalate kept ≠ [] := by
  obtain ⟨k, rest, rfl⟩ := List.exists_cons_of_ne_nil nonempty
  have first := (elements k (List.mem_cons_self k rest)).1
  cases rest <;> simp [List.intercalate, first]

/-- The loop's state on a rooted path is the root followed by the elements
kept so far, and `dotdot` stays at the root. -/
def RootedStack (st : CleanState) (kept : List GoString) : Prop :=
  st.dotdot = 1 ∧ st.out = slash :: [slash].intercalate kept ∧ ∀ e ∈ kept, IsElement e

theorem rootedStack_push {st : CleanState} {kept : List GoString} (rel : RootedStack st kept)
    {elem : GoString} (element : IsElement elem) :
    RootedStack ⟨(st.startElement true).out ++ elem, (st.startElement true).dotdot⟩
      (kept ++ [elem]) := by
  obtain ⟨dotdot, out, elements⟩ := rel
  have allElements : ∀ e ∈ kept ++ [elem], IsElement e := by
    simpa [or_imp, forall_and] using ⟨elements, element⟩
  rcases eq_or_ne kept [] with rfl | nonempty
  · have kept : st.startElement true = st := by simp [CleanState.startElement, out]
    rw [kept]
    exact ⟨dotdot, by simp [out], allElements⟩
  · have long : st.out.length ≠ 1 := by
      simp [out, intercalate_ne_nil nonempty elements]
    have appended : st.startElement true = st.append slash := by
      simp [CleanState.startElement, long]
    rw [appended]
    exact ⟨dotdot, by simp [CleanState.append, out, intercalate_concat kept elem nonempty],
      allElements⟩

theorem getD_ne_slash {elem : GoString} (noSlash : slash ∉ elem) (i : Nat) :
    elem.getD i 0 ≠ slash := by
  rw [List.getD_eq_getElem?_getD]
  cases found : elem[i]? with
  | none => decide
  | some b =>
    rintro rfl
    exact noSlash (List.getElem?_mem found)

theorem getD_after_slash (xs elem : GoString) (noSlash : slash ∉ elem) (j : Nat)
    (after : xs.length < j) : (xs ++ slash :: elem).getD j 0 ≠ slash := by
  rw [getD_append_right_of_le xs _ j (le_of_lt after)]
  obtain ⟨i, index⟩ : ∃ i, j - xs.length = i + 1 := ⟨j - xs.length - 1, by omega⟩
  rw [index, List.getD_cons_succ]
  exact getD_ne_slash noSlash i

theorem backtrackLoop_skip (out : GoString) (dotdot k : Nat) (low : dotdot ≤ k) :
    ∀ m, (∀ j, k < j → j ≤ k + m → out.getD j 0 ≠ slash) →
      backtrackLoop out dotdot (k + m) = backtrackLoop out dotdot k
  | 0, _ => rfl
  | m + 1, kept => by
    rw [← Nat.add_assoc, backtrackLoop, if_pos ⟨by omega, kept _ (by omega) (by omega)⟩]
    exact backtrackLoop_skip out dotdot k low m fun j above below => kept j above (by omega)

theorem backtrackLoop_stop (out : GoString) (dotdot k : Nat)
    (stops : k ≤ dotdot ∨ out.getD k 0 = slash) : backtrackLoop out dotdot k = k := by
  cases k with
  | zero => rfl
  | succ w =>
    rw [backtrackLoop, if_neg fun ⟨above, notSlash⟩ => stops.elim (by omega) notSlash]

theorem dotDot_first {elem : GoString} (element : IsElement elem) :
    (⟨slash :: elem, 1⟩ : CleanState).dotDot true = ⟨[slash], 1⟩ := by
  have nonempty := List.length_pos.mpr element.1
  have back : backtrackLoop (slash :: elem) 1 (1 + (elem.length - 1)) = 1 := by
    rw [backtrackLoop_skip (slash :: elem) 1 1 le_rfl (elem.length - 1)
        fun j above _ => getD_after_slash [] elem element.2.1 j (by simp; omega),
      backtrackLoop_stop _ 1 1 (.inl le_rfl)]
  rw [show 1 + (elem.length - 1) = elem.length by omega] at back
  unfold CleanState.dotDot
  rw [if_pos (by simp; omega)]
  simp [back]

theorem dotDot_next {prev elem : GoString} (nonempty : prev ≠ []) (element : IsElement elem) :
    (⟨prev ++ slash :: elem, 1⟩ : CleanState).dotDot true = ⟨prev, 1⟩ := by
  have long := List.length_pos.mpr nonempty
  have back : backtrackLoop (prev ++ slash :: elem) 1 (prev.length + elem.length) =
      prev.length := by
    rw [backtrackLoop_skip _ 1 prev.length (by omega) elem.length
        fun j above _ => getD_after_slash prev elem element.2.1 j above,
      backtrackLoop_stop _ 1 _
        (.inr (by rw [getD_append_right_of_le _ _ _ le_rfl, Nat.sub_self]; rfl))]
  unfold CleanState.dotDot
  rw [if_pos (by simp; omega)]
  simp [show prev.length + (elem.length + 1) - 1 = prev.length + elem.length by omega, back]

theorem rootedStack_dotDot {st : CleanState} {kept : List GoString} (rel : RootedStack st kept) :
    RootedStack (st.dotDot true) kept.dropLast := by
  obtain ⟨out, dotdot⟩ := st
  obtain ⟨rfl, rfl, elements⟩ := rel
  have initElements : ∀ e ∈ kept.dropLast, IsElement e :=
    fun e member => elements e (List.dropLast_subset kept member)
  rcases List.eq_nil_or_concat' kept with rfl | ⟨init, last, rfl⟩
  · exact ⟨rfl, by simp [CleanState.dotDot], nofun⟩
  · have element := elements last (by simp)
    rw [List.dropLast_concat] at initElements ⊢
    rcases eq_or_ne init [] with rfl | nonempty
    · rw [List.nil_append, intercalate_slash_singleton,
        dotDot_first element]
      exact ⟨rfl, rfl, nofun⟩
    · rw [intercalate_concat init last nonempty, ← List.cons_append,
        dotDot_next (List.cons_ne_nil _ _) element]
      exact ⟨rfl, rfl, initElements⟩

theorem rootedStack_foldl (elems : List GoString) (noSlash : ∀ elem ∈ elems, slash ∉ elem)
    (st : CleanState) (kept : List GoString) (rel : RootedStack st kept) :
    RootedStack (elems.foldl (elemStep true) st) (elems.foldl cleanStep kept) := by
  induction elems generalizing st kept with
  | nil => exact rel
  | cons elem elems ih =>
    obtain ⟨elemNoSlash, restNoSlash⟩ := List.forall_mem_cons.mp noSlash
    refine ih restNoSlash _ _ ?_
    unfold elemStep cleanStep
    split_ifs with skipped double
    · exact rel
    · exact rootedStack_dotDot rel
    · exact rootedStack_push rel (isElement_of_kept elemNoSlash skipped double)

/-- On a rooted path `Clean` writes the root and then the elements the
lexical rules keep, each after one slash. -/
theorem clean_rooted (rest : GoString) :
    clean (slash :: rest) = slash :: [slash].intercalate (cleanElements (rest.splitOn slash)) := by
  have rel := rootedStack_foldl (rest.splitOn slash) (not_mem_of_mem_splitOn rest)
    ⟨[slash], 1⟩ [] ⟨rfl, rfl, nofun⟩
  show (if (cleanLoop true rest ⟨[slash], 1⟩).out = [] then [dot]
    else (cleanLoop true rest ⟨[slash], 1⟩).out) = _
  rw [cleanLoop_fold, rel.2.1, if_neg (List.cons_ne_nil _ _)]
  rfl

/-! ## `Base` and `Dir` of a rooted path -/

/-- `Base` of the root followed by clean elements is the last element, or
the root when there is none. -/
theorem base_rendered (kept : List GoString) (elements : ∀ e ∈ kept, IsElement e) :
    base (slash :: [slash].intercalate kept) = kept.getLast?.getD [slash] := by
  rcases List.eq_nil_or_concat' kept with rfl | ⟨init, last, rfl⟩
  · rfl
  · have element := elements last (by simp)
    rcases eq_or_ne init [] with rfl | nonempty
    · rw [List.nil_append, intercalate_slash_singleton,
        ← List.singleton_append, base_append [slash] last element.1 element.2.1 (.inr rfl)]
      simp
    · rw [intercalate_concat init last nonempty, ← List.cons_append, List.append_cons,
        base_append _ last element.1 element.2.1 (.inr (List.getLast?_concat _))]
      simp

/-- `Dir` of a rooted path is the root followed by the clean elements of
everything before its last slash. -/
theorem dir_rooted (rest : GoString) :
    dir (slash :: rest) =
      slash :: [slash].intercalate (cleanElements (rest.splitOn slash).dropLast) := by
  have noSlash := not_mem_of_mem_splitOn rest
  rcases List.eq_nil_or_concat' (rest.splitOn slash) with empty | ⟨init, last, pieces⟩
  · exact absurd empty (List.splitOnP_ne_nil _ _)
  have whole : rest = [slash].intercalate (init ++ [last]) := by
    rw [← pieces, List.intercalate_splitOn]
  rw [pieces] at noSlash ⊢
  have lastNoSlash : slash ∉ last := noSlash last (by simp)
  have initNoSlash : ∀ elem ∈ init, slash ∉ elem :=
    fun elem member => noSlash elem (by simp [member])
  rw [List.dropLast_concat]
  rcases eq_or_ne init [] with rfl | nonempty
  · rw [whole, List.nil_append, intercalate_slash_singleton, dir,
      ← List.singleton_append, split_append [slash] last lastNoSlash (.inr rfl)]
    rfl
  · have dirPieces : ([slash].intercalate init ++ [slash]).splitOn slash = init ++ [[]] := by
      rw [← intercalate_concat init [] nonempty]
      exact List.splitOn_intercalate _ _ (by simpa [or_imp, forall_and] using initNoSlash) (by simp)
    rw [whole, intercalate_concat init last nonempty, dir, ← List.cons_append, List.append_cons,
      split_append _ last lastNoSlash (.inr (List.getLast?_concat _)), List.cons_append,
      clean_rooted, dirPieces, cleanElements, List.foldl_append]
    simp [cleanStep, cleanElements]

/-- `Base` of a rooted path is its last non-empty element, or the root when
there is none. -/
theorem base_intercalate (pieces : List GoString) (nonempty : pieces ≠ [])
    (noSlash : ∀ elem ∈ pieces, slash ∉ elem) :
    base (slash :: [slash].intercalate pieces) =
      (pieces.filter (· ≠ [])).getLast?.getD [slash] := by
  induction pieces using List.reverseRecOn with
  | nil => exact absurd rfl nonempty
  | append_singleton init last ih =>
    have lastNoSlash : slash ∉ last := noSlash last (by simp)
    rcases eq_or_ne init [] with rfl | initNonempty
    · rw [List.nil_append, intercalate_slash_singleton]
      rcases eq_or_ne last [] with rfl | lastNonempty
      · rfl
      · rw [← List.singleton_append,
          base_append [slash] last lastNonempty lastNoSlash (.inr rfl)]
        simp [lastNonempty]
    · rw [intercalate_concat init last initNonempty]
      rcases eq_or_ne last [] with rfl | lastNonempty
      · rw [← List.cons_append, base_concat_slash _ (List.cons_ne_nil _ _),
          ih initNonempty fun elem member => noSlash elem (by simp [member])]
        simp
      · rw [← List.cons_append, List.append_cons,
          base_append _ last lastNonempty lastNoSlash (.inr (List.getLast?_concat _))]
        simp [lastNonempty]

theorem base_rooted (rest : GoString) :
    base (slash :: rest) = ((rest.splitOn slash).filter (· ≠ [])).getLast?.getD [slash] := by
  conv_lhs => rw [← List.intercalate_splitOn rest slash]
  exact base_intercalate _ (List.splitOnP_ne_nil _ _) (not_mem_of_mem_splitOn rest)

end PeerCalls.Go.Path
