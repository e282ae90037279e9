import ApiCompiler.Text.Digits

/-!
Binary floating-point numbers of sixty-four bits: reading a decimal, and writing the fewest digits
that read back as the same number. Both are exact computations on natural numbers.
-/

namespace ApiCompiler

/-- A double by its bits: sign, eleven bits of exponent, fifty-two of fraction. -/
structure Binary64 where
  bits : UInt64
  deriving DecidableEq, Inhabited

namespace Binary64

def ofFloat (x : Float) : Binary64 := ⟨x.toBits⟩

def toFloat (x : Binary64) : Float := Float.ofBits x.bits

def isNegative (x : Binary64) : Bool :=
  Nat.pow 2 63 ≤ x.bits.toNat

def exponentBits (x : Binary64) : Nat :=
  x.bits.toNat / Nat.pow 2 52 % Nat.pow 2 11

def fractionBits (x : Binary64) : Nat :=
  x.bits.toNat % Nat.pow 2 52

def isNaN (x : Binary64) : Bool :=
  x.exponentBits = 2047 && x.fractionBits ≠ 0

def isInfinite (x : Binary64) : Bool :=
  x.exponentBits = 2047 && x.fractionBits = 0

def isZero (x : Binary64) : Bool :=
  x.exponentBits = 0 && x.fractionBits = 0

def infinity (negative : Bool) : Binary64 :=
  ⟨UInt64.ofNat ((if negative then Nat.pow 2 63 else 0) + 2047 * Nat.pow 2 52)⟩

def nan : Binary64 :=
  ⟨UInt64.ofNat (2047 * Nat.pow 2 52 + Nat.pow 2 51)⟩

/-- The integer and the power of two whose product is the magnitude of a finite number. -/
def magnitude (x : Binary64) : Nat × Int :=
  if x.exponentBits = 0 then (x.fractionBits, -1074)
  else (Nat.pow 2 52 + x.fractionBits, (x.exponentBits : Int) - 1075)

/-- The quotient rounded to the nearest integer, a half to the even one. -/
def roundDiv (num den : Nat) : Nat :=
  let quotient := num / den
  let rest := 2 * (num % den)
  if rest < den then quotient
  else if den < rest then quotient + 1
  else quotient + quotient % 2

/-- The number nearest to a positive fraction; too large a fraction gives infinity. -/
def ofFraction (negative : Bool) (num den : Nat) : Binary64 :=
  let sign := if negative then Nat.pow 2 63 else 0
  let guess : Int := (Nat.log2 num : Int) - Nat.log2 den - 53
  let shift (exponent : Int) : Nat × Nat :=
    if 0 ≤ exponent then (num, den * Nat.pow 2 exponent.toNat)
    else (num * Nat.pow 2 (-exponent).toNat, den)
  let fits (exponent : Int) : Bool :=
    let (n, d) := shift exponent
    n < d * Nat.pow 2 53
  let exponent :=
    max (-1074) (if fits guess then guess else if fits (guess + 1) then guess + 1 else guess + 2)
  let (n, d) := shift exponent
  let rounded := roundDiv n d
  let (mantissa, exponent) :=
    if rounded = Nat.pow 2 53 then (Nat.pow 2 52, exponent + 1) else (rounded, exponent)
  if mantissa < Nat.pow 2 52 then ⟨UInt64.ofNat (sign + mantissa)⟩
  else if 971 < exponent then infinity negative
  else
    ⟨UInt64.ofNat
      (sign + (exponent + 1075).toNat * Nat.pow 2 52 + (mantissa - Nat.pow 2 52))⟩

/-- The number nearest to `digits * 10 ^ exponent`. -/
def ofDecimal (negative : Bool) (digits : Nat) (exponent : Int) : Binary64 :=
  let width : Int := (Text.decimal digits).length
  if digits = 0 || width + exponent < -330 then
    ⟨UInt64.ofNat (if negative then Nat.pow 2 63 else 0)⟩
  else if 330 < width + exponent then infinity negative
  else if 0 ≤ exponent then ofFraction negative (digits * Nat.pow 10 exponent.toNat) 1
  else ofFraction negative digits (Nat.pow 10 (-exponent).toNat)

/--
The shortest decimal in the interval of numbers that round to the magnitude `m * 2 ^ q`, as digits
and a power of ten. Of two with equally many digits the nearer one is taken.
-/
def shortest (m : Nat) (q : Int) : Nat × Int :=
  let twos := q - 2
  -- Four times the magnitude and the distances to the ends of its interval, over a common unit.
  let below := if m = Nat.pow 2 52 && -1074 < q then 1 else 2
  let scaled (n : Nat) : Nat × Nat :=
    if 0 ≤ twos then (n * Nat.pow 2 twos.toNat, 1) else (n, Nat.pow 2 (-twos).toNat)
  let (value, unit) := scaled (4 * m)
  let (low, _) := scaled (4 * m - below)
  let (high, _) := scaled (4 * m + 2)
  let inclusive := m % 2 = 0
  let inside (n : Nat) (d : Nat) : Bool :=
    if inclusive then low * d ≤ n * unit && n * unit ≤ high * d
    else low * d < n * unit && n * unit < high * d
  let widest : Int := (Text.decimal (value / unit)).length
  let leading : Int :=
    if unit ≤ value then widest
    else
      -- The first power of ten that the fraction does not reach.
      let digits (n : Nat) : Int := (Text.decimal n).length
      digits value - digits unit + (if unit * Nat.pow 10 (digits value - digits unit + 400).toNat ≤
        value * Nat.pow 10 400 then 1 else 0)
  let candidate (count : Nat) : Option (Nat × Int) :=
    let place : Int := leading - count
    let (tens, parts) :=
      if 0 ≤ place then (Nat.pow 10 place.toNat, 1) else (1, Nat.pow 10 (-place).toNat)
    let floor := value * parts / (unit * tens)
    let distance (n : Nat) : Nat :=
      let grid := n * tens * unit
      if grid ≤ value * parts then value * parts - grid else grid - value * parts
    let floorIn := inside (floor * tens) parts && floor ≠ 0
    let ceilingIn := inside ((floor + 1) * tens) parts
    match floorIn, ceilingIn with
    | true, true =>
        if distance floor < distance (floor + 1) then some (floor, place)
        else if distance (floor + 1) < distance floor then some (floor + 1, place)
        else some (floor + floor % 2, place)
    | true, false => some (floor, place)
    | false, true => some (floor + 1, place)
    | false, false => none
  ((List.range 20).findSome? fun i => candidate (i + 1)).getD (m, 0)

/-- Digits without the zeros at their end, and the power of ten that makes up for them. -/
private def dropZeros : Nat → Nat → Int → Nat × Int
  | 0, digits, exponent => (digits, exponent)
  | fuel + 1, digits, exponent =>
      if digits ≠ 0 && digits % 10 = 0 then dropZeros fuel (digits / 10) (exponent + 1)
      else (digits, exponent)

/--
Positional from 0.0001 up to below 10 ^ 16 and always with a fraction; otherwise with an exponent
of at least two digits and its sign.
-/
def layout (digits : List Char) (exponent : Int) : List Char :=
  let point : Int := digits.length + exponent
  if -4 < point && point ≤ 16 then
    if point ≤ 0 then '0' :: '.' :: List.replicate (-point).toNat '0' ++ digits
    else if 0 ≤ exponent then digits ++ List.replicate exponent.toNat '0' ++ ['.', '0']
    else digits.take point.toNat ++ '.' :: digits.drop point.toNat
  else
    let power := point - 1
    let powerDigits := Text.decimal power.natAbs
    let mantissa :=
      match digits with
      | [] => []
      | [d] => [d]
      | d :: rest => d :: '.' :: rest
    mantissa ++ 'e' :: (if power < 0 then '-' else '+') ::
      List.replicate (2 - powerDigits.length) '0' ++ powerDigits

/-- The shortest text that reads back as the number. -/
def text (x : Binary64) : List Char :=
  let sign := if x.isNegative then ['-'] else []
  if x.isNaN then ['n', 'a', 'n']
  else if x.isInfinite then sign ++ ['i', 'n', 'f']
  else if x.isZero then sign ++ ['0', '.', '0']
  else
    let (m, q) := x.magnitude
    let (digits, exponent) := shortest m q
    let (digits, exponent) := dropZeros 20 digits exponent
    sign ++ layout (Text.decimal digits) exponent

def toInt? (x : Binary64) : Option Int :=
  if x.exponentBits = 2047 then none
  else
    let (m, q) := x.magnitude
    let signed (n : Nat) : Int := if x.isNegative then -(n : Int) else n
    if 0 ≤ q then some (signed (m * Nat.pow 2 q.toNat))
    else if m % Nat.pow 2 (-q).toNat = 0 then some (signed (m / Nat.pow 2 (-q).toNat))
    else none

/--
A decimal with an optional sign, at least one digit before or after its point, and an optional
exponent.
-/
def ofText? (text : List Char) : Option Binary64 :=
  let (negative, body) :=
    match text with
    | '-' :: rest => (true, rest)
    | '+' :: rest => (false, rest)
    | rest => (false, rest)
  let whole := body.takeWhile Char.isDigit
  let afterWhole := body.dropWhile Char.isDigit
  let (fraction, afterFraction) :=
    match afterWhole with
    | '.' :: rest => (rest.takeWhile Char.isDigit, rest.dropWhile Char.isDigit)
    | rest => ([], rest)
  let value (digits : List Char) : Nat := Text.ofDigits 10 (digits.filterMap Text.digit?)
  let build (exponent : Int) : Binary64 :=
    ofDecimal negative (value (whole ++ fraction)) (exponent - fraction.length)
  if whole.isEmpty && fraction.isEmpty then none
  else
    match afterFraction with
    | [] => some (build 0)
    | e :: rest =>
        let (negativePower, power) :=
          match rest with
          | '-' :: digits => (true, digits)
          | '+' :: digits => (false, digits)
          | digits => (false, digits)
        if (e = 'e' || e = 'E') && !power.isEmpty && power.all Char.isDigit then
          let n : Int := value power
          some (build (if negativePower then -n else n))
        else none

end Binary64

end ApiCompiler
