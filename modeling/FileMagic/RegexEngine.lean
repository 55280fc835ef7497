import FileMagic.Text.Basic

/-! Engines of regular expressions. A test hands its expression to an engine once and then uses
nothing but the search for it, so that any engine can stand here. -/

namespace FileMagic

/-- Where a match starts and ends. -/
structure Regex.Span where
  start : Nat
  stop : Nat
deriving DecidableEq, Repr

/-- An expression that has been compiled: the search for it in some octets. -/
structure Regex where
  search : Bytes → Option Regex.Span

class RegexEngine where
  /-- The expression that octets write, if they write one. With `fold`, a letter stands for
  either case of it. -/
  compile? (fold : Bool) (source : Bytes) : Option Regex

end FileMagic
