import StartPage.Decimal.Binary64

/-!
Shortest decimal text of a double. Of the decimals that round to the double the ones
with the fewest digits are considered, and of those the nearest to its value, an exact
tie going to the even last digit.
-/
namespace StartPage.Decimal

structure Scientific where
  digits : Nat
  exponent : Int
deriving DecidableEq, Repr

/-- The reals that round to a positive double, as `value`, `low` and `high` over a common
unit `2 ^ scale`; the ends belong to it when `closed`. -/
structure Interval where
  value : Nat
  low : Nat
  high : Nat
  scale : Int
  closed : Bool

def Interval.of (x : Binary64) : Interval :=
  let m := x.significand
  -- Below a power of two the doubles lie twice as close.
  let narrow := x.fraction = 0 ∧ 1 < x.exponent
  { value := 4 * m
    low := 4 * m - if narrow then 1 else 2
    high := 4 * m + 2
    scale := x.scale - 2
    closed := m % 2 == 0 }

/-- The largest `p` with `10 ^ p ≤ num / den`. -/
def leadingPower (num den : Nat) : Int :=
  if den ≤ num then (Nat.toDigits 10 (num / den)).length - 1
  else -((Nat.toDigits 10 ((den + num - 1) / num - 1)).length : Int)

def Interval.contains (range : Interval) (digits : Nat) (exponent : Int) : Bool :=
  let (num, den) := if 0 ≤ exponent then (digits * Nat.pow 10 exponent.toNat, 1)
    else (digits, Nat.pow 10 (-exponent).toNat)
  let (num, den) := scaleBy num den (-range.scale)
  if range.closed then range.low * den ≤ num && num ≤ range.high * den
  else range.low * den < num && num < range.high * den

/-- The value's nearest point, among its two neighbours on the grid of multiples of
`10 ^ exponent`, that lies in the interval. -/
def Interval.pick (range : Interval) (num den : Nat) (exponent : Int) : Option Scientific :=
  let (n, d) := if 0 ≤ exponent then (num, den * Nat.pow 10 exponent.toNat)
    else (num * Nat.pow 10 (-exponent).toNat, den)
  let near := roundHalfEven n d
  let far := if near * d ≤ n then near + 1 else near - 1
  if range.contains near exponent then some ⟨near, exponent⟩
  else if range.contains far exponent then some ⟨far, exponent⟩
  else none

def shortest (x : Binary64) : Scientific :=
  let range := Interval.of x
  let (num, den) := scaleBy range.value 1 range.scale
  let top := leadingPower num den
  -- Seventeen digits always read back.
  ((List.range 17).findSome? fun (more : Nat) => range.pick num den (top - more)).getD
    ⟨range.value, 0⟩

def Scientific.parts (s : Scientific) : List Char × Int :=
  let digits := Nat.toDigits 10 s.digits
  let kept := (digits.reverse.dropWhile (· == '0')).reverse
  (kept, s.exponent + digits.length - 1)

/-- How a double is written: the powers of ten of the first digit that are written out
in full. -/
structure Layout where
  leastPositional : Int
  mostPositional : Int

def positional (digits : List Char) (power : Int) : List Char :=
  if power < 0 then
    '0' :: '.' :: List.replicate ((-power).toNat - 1) '0' ++ digits
  else
    let whole := power.toNat + 1
    if digits.length ≤ whole then
      digits ++ List.replicate (whole - digits.length) '0' ++ ['.', '0']
    else digits.take whole ++ '.' :: digits.drop whole

def scientific (digits : List Char) (power : Int) : List Char :=
  digits.take 1 ++ (if digits.length ≤ 1 then [] else '.' :: digits.drop 1) ++
    'e' :: (if power < 0 then '-' else '+') :: Nat.toDigits 10 power.natAbs

def Layout.write (layout : Layout) (x : Binary64) : List Char :=
  let body :=
    if x.isZero then ['0', '.', '0']
    else
      let (digits, power) := (shortest x).parts
      if layout.leastPositional ≤ power ∧ power ≤ layout.mostPositional then positional digits power
      else scientific digits power
  if x.negative then '-' :: body else body

end StartPage.Decimal
