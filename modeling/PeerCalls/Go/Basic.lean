import Mathlib.Data.List.Basic

/-!
# Go values the server passes around

Go strings are byte strings, so `GoString` is a list of bytes: a URL path
need not be valid UTF-8. `StatusCode` is `websocket.StatusCode` of
`nhooyr.io/websocket`, a Go `int`.

Errors keep only the shape the server's code inspects: `context.Canceled`,
a `websocket.CloseError`, an error with no cause (`errors.New`), and
`fmt.Errorf(format, ..., cause)` ending in `%s` (`errorf`, whose `text` is
the message before the cause's own text) or in `%w` (`wrapf`).
`errors.Is(err, context.Canceled)` (`isCanceled`) and `websocket.CloseStatus`
(`closeStatus`, -1 for an error that is not a close error) walk the chain
that `%w` builds; an error formatted with `%s` embeds its cause's text but
does not unwrap to it.
-/

namespace PeerCalls.Go

set_option autoImplicit false

abbrev GoString := List UInt8

def slash : UInt8 := 47

def dot : UInt8 := 46

abbrev StatusCode := Int

def statusNormalClosure : StatusCode := 1000

def statusGoingAway : StatusCode := 1001

def statusInternalError : StatusCode := 1011

inductive GoError where
  | canceled
  | closeError (code : StatusCode) (reason : String)
  | new (text : String)
  | errorf (text : String) (cause : GoError)
  | wrapf (text : String) (cause : GoError)
deriving Repr, DecidableEq

namespace GoError

def isCanceled : GoError → Bool
  | canceled => true
  | wrapf _ cause => cause.isCanceled
  | _ => false

def closeCode : GoError → StatusCode
  | closeError code _ => code
  | wrapf _ cause => cause.closeCode
  | _ => -1

/-- The unwrap chain of an error: itself, then what `%w` wrapped. -/
def chain : GoError → List GoError
  | wrapf text cause => wrapf text cause :: cause.chain
  | err => [err]

theorem mem_chain_self (err : GoError) : err ∈ err.chain := by
  cases err <;> simp [chain]

theorem errorf_ne (text : String) (cause : GoError) : errorf text cause ≠ cause := fun same => by
  simpa using congrArg sizeOf same

end GoError

def closeStatus : Option GoError → StatusCode
  | none => -1
  | some err => err.closeCode

def isCanceled : Option GoError → Bool
  | none => false
  | some err => err.isCanceled

end PeerCalls.Go
