/-!
# Failures of embedded scripts

What can go wrong between a host program and the engine.
-/
namespace PluginRelay.Embedding

/-- An exception as a host program sees it: its text, its trace if it is an error, and a number by which the
context knows the value again. -/
structure Thrown where
  message : String
  trace : Option String
  serial : UInt64
  deriving DecidableEq, Repr, Inhabited

inductive Failure where
  | engineStart
  | contextStart
  /-- A text holds a NUL, which names and scripts must not. -/
  | nul (position : Nat)
  | thrown (e : Thrown)
  /-- A text with a lone surrogate; this many bytes before it are well formed. -/
  | illFormed (validUpTo : Nat)
  | indexOverflow
  | badLength
  | unsupported (what : String)
  /-- A function of the host program gave up. -/
  | refused (reason : String)
  deriving DecidableEq, Repr, Inhabited

namespace Thrown

/-- The text, and the trace below it. -/
def report (e : Thrown) : String :=
  match e.trace with
  | some t => e.message ++ "\n" ++ t
  | none => e.message

end Thrown

namespace Failure

def message : Failure → String
  | engineStart => "quickjs failed to initialize runtime"
  | contextStart => "quickjs failed to initialize context"
  | nul _ => "unexpected null byte"
  | thrown e => "Uncaught " ++ e.report
  | illFormed _ => "utf-8 error"
  | indexOverflow => "integer overflow"
  | badLength => "invalid length"
  | unsupported what => "unsupported operation: " ++ what
  | refused reason => reason

/-- What lies behind the failure, in words, where there is more to say. -/
def cause? : Failure → Option String
  | nul position =>
    some ("nul byte found in provided data at position: " ++ toString position)
  | illFormed n =>
    some ("invalid utf-8 sequence of 1 bytes from index " ++ toString n)
  | indexOverflow => some "out of range integral type conversion attempted"
  | _ => none

def hasCause (f : Failure) : Bool := f.cause?.isSome

end Failure

end PluginRelay.Embedding
