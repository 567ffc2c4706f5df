/-!
# Bytes

A byte string is a list of octets: what is on the wire, in a log segment and in a
record's value. Reading takes bytes off the front of the list, so a list is all the
structure the rest of the library needs.

The second half writes bytes as hexadecimal digits, two lower-case digits to a byte,
as topic ids and error texts show them.
-/

namespace LogBroker

/-- A byte string, first byte first. -/
abbrev Bytes := List UInt8

/-! ## Hexadecimal text -/

/-- The lower-case digit of a number below sixteen. -/
def hexDigit (n : Nat) : Char :=
  if n < 10 then Char.ofNat (n + 48) else Char.ofNat (n + 87)

/-- The two digits of a byte, the high half first. -/
def hexDigits (b : UInt8) : List Char := [hexDigit (b.toNat / 16), hexDigit (b.toNat % 16)]

/-- A byte string as two digits a byte, without separators. -/
def Bytes.toHex (bs : Bytes) : String := String.ofList (bs.flatMap hexDigits)

end LogBroker
