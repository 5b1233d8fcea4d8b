import PluginHost.Text.Digits

/-!
# Decimal numbers

A decimal is a natural number times a power of ten.  `read?` reads the usual notation: digits
with at most one point and at least one digit beside it, and an exponent that may follow.
`isFinite` says that the nearest double is a number, which is so below the middle between the
greatest double and the next power of two.
-/

namespace PluginHost

/-- The number `digits * 10 ^ exponent`. -/
structure Decimal where
  digits : Nat
  exponent : Int
  deriving DecidableEq, Repr

namespace Decimal

/-- The exponent after its letter: an optional sign and at least one digit, to the end. -/
def readExponent? : List Char → Option Int
  | '+' :: cs => (Text.numberIn? 10 cs).map Int.ofNat
  | '-' :: cs => (Text.numberIn? 10 cs).map fun n => -(Int.ofNat n)
  | cs => (Text.numberIn? 10 cs).map Int.ofNat

/-- The decimal that a text without a sign spells. -/
def read? (cs : List Char) : Option Decimal :=
  let whole := cs.takeWhile Text.isDigit
  let (fraction, rest) := match cs.dropWhile Text.isDigit with
    | '.' :: more => (more.takeWhile Text.isDigit, more.dropWhile Text.isDigit)
    | more => ([], more)
  (Text.numberIn? 10 (whole ++ fraction)).bind fun digits =>
    match rest with
    | [] => some ⟨digits, -fraction.length⟩
    | e :: more =>
      if e = 'e' ∨ e = 'E' then
        (readExponent? more).map fun exponent => ⟨digits, exponent - fraction.length⟩
      else none

/-- The least number whose nearest double is infinite. -/
def doubleEnd : Nat := (Nat.pow 2 54 - 1) * Nat.pow 2 970

/-- Whether the nearest double is finite.  Numbers far from the end of the doubles are told by
their number of digits. -/
def isFinite (d : Decimal) : Bool :=
  let size : Int := (Nat.toDigits 10 d.digits).length + d.exponent
  if d.digits = 0 ∨ size ≤ 308 then true
  else if 309 < size then false
  else if 0 ≤ d.exponent then d.digits * Nat.pow 10 d.exponent.toNat < doubleEnd
  else d.digits < doubleEnd * Nat.pow 10 (-d.exponent).toNat

end Decimal

end PluginHost
