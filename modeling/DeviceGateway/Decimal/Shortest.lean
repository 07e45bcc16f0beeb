/-!
# Shortest decimals

A floating-point number stands for every real that rounds to it. Among the decimals of that
interval, `shortest` picks one with the fewest digits, and of those the one nearest to the number:
it is a multiple of the largest power of ten that has a multiple in the interval.
-/

namespace DeviceGateway.Decimal

/-- The finite number `m * 2 ^ q` behind a bit pattern, without its sign; `m` has at most 53
bits. -/
structure Binary where
  m : Nat
  q : Int
  /-- The neighbour below is half as far away as the one above. -/
  closeBelow : Bool

/-- The fractions of 52 bits are below. -/
def fractionLimit : Nat := 4503599627370496

/-- Takes a bit pattern of sign, eleven exponent bits and 52 fraction bits apart. -/
def Binary.ofBits (bits : UInt64) : Binary :=
  let e : Nat := bits.toNat / fractionLimit % 2048
  let f : Nat := bits.toNat % fractionLimit
  if e = 0 then ⟨f, -1074, false⟩
  else ⟨fractionLimit + f, (e : Int) - 1075, f == 0 && decide (1 < e)⟩

def tenTo (n : Nat) : Nat := Nat.pow 10 n

/-- A decimal number `digits * 10 ^ exponent`. -/
structure Dec where
  digits : Nat
  exponent : Int
  deriving DecidableEq, Repr

/-- The reals that round to a number, as the interval from `low / den` to `high / den` about
`mid / den`; its ends belong to it when `closed`. -/
structure Interval where
  low : Nat
  mid : Nat
  high : Nat
  den : Nat
  closed : Bool

/-- The interval of a positive number: half way to each neighbour, the ends included for an even
significand, to which ties round. -/
def Interval.ofBinary (b : Binary) : Interval :=
  let unit := 1 <<< (b.q - 2).toNat
  let below := if b.closeBelow then 1 else 2
  { low := (4 * b.m - below) * unit, mid := 4 * b.m * unit, high := (4 * b.m + 2) * unit
    den := 1 <<< (2 - b.q).toNat, closed := b.m % 2 = 0 }

/-- Whether `d * 10 ^ e` lies in the interval. -/
def Interval.contains (i : Interval) (d : Nat) (e : Int) : Bool :=
  let x := d * i.den * tenTo e.toNat
  let s := tenTo (-e).toNat
  if i.closed then i.low * s ≤ x && x ≤ i.high * s else i.low * s < x && x < i.high * s

/-- The multiple of `10 ^ e` in the interval that is nearest to its middle, if any. -/
def Interval.multiple? (i : Interval) (e : Int) : Option Nat :=
  let s := tenTo (-e).toNat
  let t := i.den * tenTo e.toNat
  let d := i.mid * s / t
  match 0 < d && i.contains d e, i.contains (d + 1) e with
  | true, true =>
    let below := i.mid * s - d * t
    let above := (d + 1) * t - i.mid * s
    if below < above || (below == above && d % 2 == 0) then some d else some (d + 1)
  | true, false => some d
  | false, true => some (d + 1)
  | false, false => none

def Interval.search (i : Interval) : Nat → Int → Dec
  | 0, _ => ⟨0, 0⟩
  | n + 1, e =>
    match i.multiple? e with
    | some d => ⟨d, e⟩
    | none => i.search n (e - 1)

/-- **The shortest decimal** that reads back as the positive number with this bit pattern. Every
such number has a multiple of some power of ten between the 309th and the -324th. -/
def shortest (bits : UInt64) : Dec :=
  (Interval.ofBinary (Binary.ofBits bits)).search 634 309

/-- How numbers are laid out: those whose first digit has an exponent from `least` to below
`limit` in full, all others with an exponent. -/
structure Style where
  least : Int
  limit : Int

/-- The digits with a point after the first `n`, filled up with zeros so that there is a digit on
each side. -/
def positional (digits : List Char) (n : Int) : String :=
  let whole := digits.take n.toNat ++ List.replicate (n.toNat - digits.length) '0'
  let part := List.replicate (-n).toNat '0' ++ digits.drop n.toNat
  String.ofList ((if whole.isEmpty then ['0'] else whole) ++ ['.'] ++
    (if part.isEmpty then ['0'] else part))

/-- The digits with a point after the first, and the exponent with its sign. -/
def scientific (digits : List Char) (exponent : Int) : String :=
  let part := digits.drop 1
  let sign := if exponent < 0 then '-' else '+'
  String.ofList (digits.take 1 ++ (if part.isEmpty then [] else '.' :: part) ++ ['e', sign]) ++
    toString exponent.natAbs

/-- **The text of a finite number**: its shortest decimal, laid out by a style. -/
def render (style : Style) (bits : UInt64) : String :=
  let magnitude := bits &&& 0x7FFFFFFFFFFFFFFF
  let text :=
    if magnitude = 0 then "0.0"
    else
      let d := shortest magnitude
      let digits := Nat.toDigits 10 d.digits
      let first := d.exponent + digits.length - 1
      if style.least ≤ first && first < style.limit then positional digits (first + 1)
      else scientific digits first
  if bits = magnitude then text else "-" ++ text

end DeviceGateway.Decimal
