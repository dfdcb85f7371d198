/-!
Doubles as their 64 bits. A finite double is a sign and `significand * 2 ^ scale`;
`nearest` rounds a quotient of naturals to a double, a tie going to the even
significand, and the two operations that reading a numeral needs are exact
quotients rounded once. Machine floating point is not used.
-/
namespace StartPage

structure Binary64 where
  bits : UInt64
deriving DecidableEq, Inhabited

namespace Binary64

def signBit : Nat := 0x8000000000000000

/-- The significands of normal doubles start here. -/
def unit : Nat := 0x10000000000000

def magnitude (x : Binary64) : Nat := x.bits.toNat % signBit
def negative (x : Binary64) : Bool := decide (signBit ≤ x.bits.toNat)
def exponent (x : Binary64) : Nat := x.magnitude / unit
def fraction (x : Binary64) : Nat := x.magnitude % unit

def isFinite (x : Binary64) : Bool := x.exponent < 2047
def isZero (x : Binary64) : Bool := x.magnitude == 0

def significand (x : Binary64) : Nat :=
  if x.exponent = 0 then x.fraction else unit + x.fraction

/-- Power of two that the significand counts. -/
def scale (x : Binary64) : Int := (max x.exponent 1 : Nat) - 1075

def withSign (negative : Bool) (magnitude : Nat) : Binary64 :=
  ⟨UInt64.ofNat (magnitude + if negative then signBit else 0)⟩

def negate (x : Binary64) : Binary64 := withSign (!x.negative) x.magnitude

def zero : Binary64 := ⟨0⟩

end Binary64

/-- The natural nearest `num / den`, a half going to the even neighbour. -/
def roundHalfEven (num den : Nat) : Nat :=
  let whole := num / den
  let double := 2 * (num % den)
  if double < den then whole else if den < double then whole + 1 else whole + whole % 2

def scaleBy (num den : Nat) (scale : Int) : Nat × Nat :=
  if 0 ≤ scale then (num <<< scale.toNat, den) else (num, den <<< (-scale).toNat)

namespace Binary64

/-- The power of two that leaves a 53-bit significand for `num / den`, not below that of
the smallest doubles. -/
def scaleFor (num den : Nat) : Int :=
  let guess : Int := (num.log2 : Int) - den.log2 - 53
  let (n, d) := scaleBy num den (-guess)
  max (-1074) (if n < d * (2 * unit) then guess else guess + 1)

/-- The double nearest `num / den`; infinity when it lies beyond the largest double. -/
def nearest (negative : Bool) (num den : Nat) : Binary64 :=
  if num = 0 then withSign negative 0
  else
    let scale := scaleFor num den
    let (n, d) := scaleBy num den (-scale)
    withSign negative (min (2047 * unit) ((scale + 1074).toNat * unit + roundHalfEven n d))

def ofNat (n : Nat) : Binary64 := nearest false n 1

def tenTo (k : Nat) : Binary64 := ofNat (Nat.pow 10 k)

def times (x y : Binary64) : Binary64 :=
  let (n, d) := scaleBy (x.significand * y.significand) 1 (x.scale + y.scale)
  nearest (x.negative != y.negative) n d

def dividedBy (x y : Binary64) : Binary64 :=
  let (n, d) := scaleBy x.significand y.significand (x.scale - y.scale)
  nearest (x.negative != y.negative) n d

/-- The double with the value of a 32-bit float, or nothing for an infinity or a NaN. -/
def ofBinary32? (bits : UInt32) : Option Binary64 :=
  let magnitude := bits.toNat % 0x80000000
  let exponent := magnitude / 0x800000
  let fraction := magnitude % 0x800000
  if exponent = 255 then none
  else
    let significand := if exponent = 0 then fraction else 0x800000 + fraction
    let (n, d) := scaleBy significand 1 ((max exponent 1 : Nat) - 150)
    some (nearest (decide (0x80000000 ≤ bits.toNat)) n d)

example : ofNat 1 = ⟨0x3FF0000000000000⟩ := by decide +kernel
example : ofNat 0x20000000000001 = ofNat 0x20000000000000 := by decide +kernel
example : (ofNat 1).dividedBy (ofNat 10) = ⟨0x3FB999999999999A⟩ := by decide +kernel
example : (tenTo 308).times (ofNat 10) = ⟨0x7FF0000000000000⟩ := by decide +kernel

end Binary64
end StartPage
