import StartPage.Value

/-!
Decimal numerals and the numbers they stand for. A numeral without fraction and exponent
that fits 64 bits, signed or unsigned, is that whole number. Any other numeral is a double
obtained in two roundings: as many digits as fit 64 bits are taken as a whole number, and
that is multiplied or divided by a power of ten. The result may differ in the last bit from
the double nearest the numeral; a numeral beyond the largest double stands for nothing.
-/
namespace StartPage.Decimal

/-- Digits are numbers below ten; a numeral without a fraction has no fraction digits. -/
structure Numeral where
  negative : Bool
  whole : List Nat
  fraction : List Nat
  exponent : Option Int
deriving DecidableEq, Inhabited

/-- Appends digits to `start` as long as the result fits 64 bits; the digits left over come
second. -/
def absorb (start : Nat) : List Nat → Nat × List Nat
  | [] => (start, [])
  | digit :: rest =>
    if 10 * start + digit < UInt64.size then absorb (10 * start + digit) rest else (start, digit :: rest)

/-- Powers of ten are stepped through in strides of 308, the largest that is a finite
double. -/
def stride : Nat := 308

def shift (x : Binary64) (power : Int) : Option Binary64 :=
  if 0 ≤ power then
    if power ≤ stride then
      let product := x.times (.tenTo power.toNat)
      if product.isFinite then some product else none
    else if x.isZero then some x
    else none
  else if -stride ≤ power then some (x.dividedBy (.tenTo (-power).toNat))
  else if x.isZero then some x
  else shift (x.dividedBy (.tenTo stride)) (power + stride)
termination_by (-power).toNat
decreasing_by simp only [stride] at *; omega

namespace Numeral

/-- The whole number of a numeral that is only digits, zero excepted when negative. -/
def integer? (numeral : Numeral) : Option Int :=
  let (value, dropped) := absorb 0 numeral.whole
  if numeral.fraction ≠ [] ∨ numeral.exponent.isSome ∨ dropped ≠ [] then none
  else if !numeral.negative then some value
  else if 0 < value ∧ value ≤ 0x8000000000000000 then some (-value)
  else none

def double? (numeral : Numeral) : Option Binary64 :=
  let (value, dropped) := absorb 0 numeral.whole
  -- Digits after the point are taken up even when digits before it were left over.
  let (value, unread) := absorb value numeral.fraction
  let read := numeral.fraction.length - unread.length
  let power := (dropped.length : Int) - read + numeral.exponent.getD 0
  (shift (.ofNat value) power).map fun x => if numeral.negative then x.negate else x

def number? (numeral : Numeral) : Option Number :=
  match numeral.integer? with
  | some value => some (.integer value)
  | none => numeral.double?.map .double

example : number? ⟨true, [0], [], none⟩ = some (.double (Binary64.zero.negate)) := by
  decide +kernel
example : number? ⟨false, [1], [], some 309⟩ = none := by decide +kernel

end Numeral
end StartPage.Decimal
