import FileMagic.Text.Quoted

/-! What can be wrong with a rule, a test or an offset that is being put together, and the
sentence that reports it. -/

namespace FileMagic

inductive Fault where
  /-- Nothing, or a second sign, where the digits of an integer should start. -/
  | integerLiteral (text : Text)
  /-- A text that is no numeral in the base its marks announce. -/
  | numeral (base : Nat) (figures : Text)
  | numeralTooLong (digits : Nat)
  /-- An integer that has too many digits to be written. -/
  | numberTooLong
  | realNumeral (text : Text)
  /-- A number beyond the range of the floating-point type named. -/
  | realRange (shown : Text) (type : Text)
  | integerRange (text : Text) (bits : Nat)
  | integerWidth (octets : Int)
  | pointerWidth (octets : Int)
  | relativeOffset (text : Text)
  | indirectOffset (text : Text)
  | emptyChain
  | endianness (name : Text)
  | typeName (text : Text)
  | notUnsigned (text : Text)
  | emptyValue
  | clearValue (text : Text)
  | defaultValue (text : Text)
  | missingFields
  | extenderFlag (flag : Char) (text : Text)
  /-- A regular expression that cannot be read. -/
  | pattern
deriving DecidableEq, Repr

/-- Quoted texts of numerals are cut to this many characters. -/
def shownNumeralLimit : Nat := 200

def Fault.message : Fault → Text
  | .integerLiteral t => "invalid integer literal '".toList ++ t ++ ['\'']
  | .numeral base t =>
    "invalid literal for int() with base ".toList ++ Text.ofNat base ++ [':', ' '] ++
      t.quoted.take shownNumeralLimit
  | .numeralTooLong n =>
    "Exceeds the limit (4300 digits) for integer string conversion: value has ".toList ++
      Text.ofNat n ++
      " digits; use sys.set_int_max_str_digits() to increase the limit".toList
  | .numberTooLong =>
    "Exceeds the limit (4300 digits) for integer string conversion".toList ++
      "; use sys.set_int_max_str_digits() to increase the limit".toList
  | .realNumeral t => "could not convert string to float: ".toList ++ t.quoted
  | .realRange shown type =>
    "value ".toList ++ shown ++ " doesn't fit in a ".toList ++ type
  | .integerRange t bits =>
    "value '".toList ++ t ++ "' doesn't fit in ".toList ++ Text.ofNat bits ++ " bits".toList
  | .integerWidth n => "integers can't be ".toList ++ Text.ofInt n ++ " bytes wide".toList
  | .pointerWidth n =>
    "an indirect offset can't be ".toList ++ Text.ofInt n ++ " bytes wide".toList
  | .relativeOffset t => "relative offset '".toList ++ t ++ "' is not supported".toList
  | .indirectOffset t => "invalid indirect offset '".toList ++ t ++ ['\'']
  | .emptyChain => "a chained offset needs at least one stage".toList
  | .endianness name => ['\''] ++ name.quoted ++ "' is not a valid endianess".toList
  | .typeName t => "invalid read type '".toList ++ t ++ ['\'']
  | .notUnsigned t => "type '".toList ++ t ++ "' can't be unsigned".toList
  | .emptyValue => "empty test value".toList
  | .clearValue t => "invalid clear test value '".toList ++ t ++ ['\'']
  | .defaultValue t => "invalid default test value '".toList ++ t ++ ['\'']
  | .missingFields => "a rule needs an offset, a type and a test value".toList
  | .extenderFlag flag t =>
    "invalid regex flag '".toList ++ [flag] ++ "' in '".toList ++ t ++ ['\'']
  | .pattern => "invalid pattern".toList

end FileMagic
