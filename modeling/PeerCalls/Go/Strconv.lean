import Mathlib.Data.Nat.Digits
import Mathlib.Tactic.IntervalCases
import PeerCalls.Go.Basic

/-!
# `strconv.Atoi`

On a 64-bit platform `Atoi` accepts an optional sign and then one or more
ASCII digits whose value fits an `int`, and nothing else: its fast path for
short strings and its `ParseInt` path agree on that. The digits are read by
one loop, `digitsLoop`. What `Atoi` reads back is what `strconv.Itoa` (and
Lean's `toString` on `Int`, which prints the same decimal form) writes, for
every `int`.
-/

namespace PeerCalls.Go

set_option autoImplicit false

/-- The digit loop of `Atoi`: the value of the ASCII digits read so far, or
`none` at the first character that is not one. -/
def digitsLoop : List Char → Nat → Option Nat
  | [], n => some n
  | ch :: rest, n => if ch.isDigit then digitsLoop rest (n * 10 + (ch.toNat - '0'.toNat)) else none

def signedValue (negative : Bool) (digits : List Char) : Option Int :=
  if digits = [] then none else
  (digitsLoop digits 0).bind fun n =>
    let value : Int := if negative then -n else n
    if -2 ^ 63 ≤ value ∧ value < 2 ^ 63 then some value else none

def atoi (s : String) : Option Int :=
  match s.data with
  | '-' :: digits => signedValue true digits
  | '+' :: digits => signedValue false digits
  | digits => signedValue false digits

example :
    atoi "+0042" = some 42 ∧ atoi "-7" = some (-7) ∧ atoi "" = none ∧ atoi "4a" = none := by
  decide

theorem digitChar_digit {d : Nat} (small : d < 10) :
    (Nat.digitChar d).isDigit = true ∧ (Nat.digitChar d).toNat - '0'.toNat = d ∧
      Nat.digitChar d ≠ '-' ∧ Nat.digitChar d ≠ '+' := by
  interval_cases d <;> decide

theorem digitsLoop_toDigitsCore (fuel n : Nat) (acc : List Char) (fits : n < fuel) :
    digitsLoop (Nat.toDigitsCore 10 fuel n acc) 0 = digitsLoop acc n := by
  induction fuel generalizing n acc with
  | zero => omega
  | succ fuel ih =>
    obtain ⟨isDigit, value, -⟩ := digitChar_digit (Nat.mod_lt n (by norm_num : 10 > 0))
    simp only [Nat.toDigitsCore]
    split
    next last =>
      simp only [digitsLoop, isDigit, if_true, value]
      congr 1
      omega
    next more =>
      rw [ih (n / 10) _ (by omega)]
      simp only [digitsLoop, isDigit, if_true, value]
      congr 1
      omega

theorem toDigitsCore_head (fuel n : Nat) (acc : List Char) (fits : n < fuel) :
    ∃ d rest, d < 10 ∧ Nat.toDigitsCore 10 fuel n acc = Nat.digitChar d :: rest := by
  induction fuel generalizing n acc with
  | zero => omega
  | succ fuel ih =>
    simp only [Nat.toDigitsCore]
    split
    · exact ⟨_, _, Nat.mod_lt n (by norm_num), rfl⟩
    · exact ih (n / 10) _ (by omega)

theorem signedValue_toDigits (negative : Bool) (n : Nat)
    (fits : -2 ^ 63 ≤ (if negative then -(n : Int) else n) ∧
      (if negative then -(n : Int) else n) < 2 ^ 63) :
    signedValue negative (Nat.toDigits 10 n) = some (if negative then -(n : Int) else n) := by
  obtain ⟨d, rest, -, head⟩ := toDigitsCore_head (n + 1) n [] (by omega)
  have read : digitsLoop (Nat.toDigits 10 n) 0 = some n :=
    digitsLoop_toDigitsCore (n + 1) n [] (by omega)
  rw [Nat.toDigits, head] at read ⊢
  simp only [signedValue, read, reduceCtorEq, if_false, Option.some_bind, fits, and_self, if_true]

/-- Every `int` is read back from its decimal form. -/
theorem atoi_toString (n : Int) (fits : -2 ^ 63 ≤ n ∧ n < 2 ^ 63) :
    atoi (toString n) = some n := by
  cases n with
  | ofNat m =>
    obtain ⟨d, rest, small, head⟩ := toDigitsCore_head (m + 1) m [] (by omega)
    obtain ⟨-, -, notMinus, notPlus⟩ := digitChar_digit small
    have printed : (toString (Int.ofNat m)).data = Nat.toDigits 10 m := rfl
    have value := signedValue_toDigits false m (by simpa using fits)
    rw [Nat.toDigits, head] at value printed
    simp only [atoi, printed]
    split
    next minus => exact absurd (List.cons.inj minus).1 notMinus
    next plus => exact absurd (List.cons.inj plus).1 notPlus
    next => simpa using value
  | negSucc m =>
    have printed : (toString (Int.negSucc m)).data = '-' :: Nat.toDigits 10 (m + 1) := rfl
    have value := signedValue_toDigits true (m + 1) (by simpa [Int.negSucc_eq] using fits)
    simp only [atoi, printed]
    simpa [Int.negSucc_eq] using value

end PeerCalls.Go
