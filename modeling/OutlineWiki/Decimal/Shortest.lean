/-!
Shortest decimal text of a floating point number.

A finite number is an integer times a power of two, and the reals that round to it form
an interval. The text has the fewest digits with which a decimal lies in that interval,
and of two such decimals it is the nearer. Exponents from -5 to 15 are written by the
position of the point and all others after an `e`.
-/

namespace OutlineWiki.Decimal

/-- A mantissa times a power of two, and how far the interval reaches below. -/
structure Binary where
  mantissa : Nat
  exponent : Int
  /-- How far the lower end lies below the number, in quarters of a unit. -/
  below : Nat

/-- The magnitude of a finite number. -/
def Binary.ofBits (bits : Nat) : Binary :=
  let field := bits / 0x10000000000000 % 0x800
  let fraction := bits % 0x10000000000000
  if field = 0 then
    ⟨fraction, -1074, 2⟩
  else
    ⟨0x10000000000000 + fraction, Int.ofNat field - 1075, if fraction = 0 ∧ 1 < field then 1 else 2⟩

/-- A count of quarter units times a power of two, over a power of ten, as a fraction. -/
def ratio (quarters : Nat) (two ten : Int) : Nat × Nat :=
  let up := quarters * Nat.pow 2 (two - 2).toNat * Nat.pow 10 (-ten).toNat
  let down := Nat.pow 2 (2 - two).toNat * Nat.pow 10 ten.toNat
  (up, down)

/-- Whether a decimal on the grid of a power of ten lies in the interval. -/
def Binary.holds (number : Binary) (decimal : Nat) (ten : Int) : Bool :=
  let low := ratio (4 * number.mantissa - number.below) number.exponent ten
  let high := ratio (4 * number.mantissa + 2) number.exponent ten
  if number.mantissa % 2 = 0 then
    low.1 ≤ decimal * low.2 && decimal * high.2 ≤ high.1
  else
    low.1 < decimal * low.2 && decimal * high.2 < high.1

/-- The nearest decimal of the interval on the grid of a power of ten. -/
def Binary.onGrid? (number : Binary) (ten : Int) : Option Nat :=
  let exact := ratio (4 * number.mantissa) number.exponent ten
  let floor := exact.1 / exact.2
  let isLowNear := 2 * (exact.1 % exact.2) ≤ exact.2
  match number.holds floor ten, number.holds (floor + 1) ten with
  | true, true => some (if isLowNear then floor else floor + 1)
  | true, false => some floor
  | false, true => some (floor + 1)
  | false, false => none

/-- The exponent of the first digit. -/
def Binary.leading (number : Binary) : Int :=
  let candidates := (List.range 640).map fun k => 309 - Int.ofNat k
  (candidates.find? fun k =>
    let exact := ratio (4 * number.mantissa) number.exponent k
    exact.2 ≤ exact.1).getD 0

/-- The fewest digits, and the exponent of the first of them. -/
def Binary.shortest (number : Binary) : List Char × Int :=
  let leading := number.leading
  let found := (List.range 17).findSome? fun k =>
    (number.onGrid? (leading - Int.ofNat k)).map fun decimal => (decimal, k)
  match found with
  | none => (['0'], 0)
  | some (decimal, k) =>
    let digits := Nat.toDigits 10 decimal
    let kept := (digits.reverse.dropWhile (· == '0')).reverse
    (kept, leading + (Int.ofNat digits.length - Int.ofNat (k + 1)))

/-- Digits with a point after the leading ones, and a zero on a side that has none. -/
def positional (digits : List Char) (leading : Int) : List Char :=
  if leading < 0 then
    ['0', '.'] ++ List.replicate ((-leading).toNat - 1) '0' ++ digits
  else
    let count := leading.toNat + 1
    let whole := digits.take count
    let rest := digits.drop count
    whole ++ List.replicate (count - whole.length) '0' ++
      '.' :: (if rest.isEmpty then ['0'] else rest)

/-- Digits with a signed exponent of at least two digits. -/
def scientific (digits : List Char) (leading : Int) : List Char :=
  let power := Nat.toDigits 10 leading.natAbs
  let padded := if power.length < 2 then '0' :: power else power
  let point := if digits.length < 2 then [] else ['.']
  digits.take 1 ++ point ++ digits.drop 1 ++
    ['e', if leading < 0 then '-' else '+'] ++ padded

/-- The text of a finite number. -/
def text (value : Float) : List Char :=
  let bits := value.toBits.toNat
  let sign := if 0x8000000000000000 ≤ bits then ['-'] else []
  let number := Binary.ofBits bits
  if number.mantissa = 0 then
    sign ++ ['0', '.', '0']
  else
    let (digits, leading) := number.shortest
    sign ++
      if -5 ≤ leading ∧ leading ≤ 15 then positional digits leading else scientific digits leading

end OutlineWiki.Decimal
