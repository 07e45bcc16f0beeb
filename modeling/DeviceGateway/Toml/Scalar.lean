import DeviceGateway.Toml.Value

/-!
# Numbers, dates and words

A value that is not quoted and has no brackets is one word: all characters up to a blank, a comma,
a bracket or a comment. The word is a truth value, a whole number in one of four bases, a double, or
a date or time. Underscores may stand between digits.
-/

namespace DeviceGateway.Toml

abbrev Chars := List Char

def isDigit (c : Char) : Bool := '0' ≤ c && c ≤ '9'

def isHexDigit (c : Char) : Bool := isDigit c || ('a' ≤ c && c ≤ 'f') || ('A' ≤ c && c ≤ 'F')

/-- The value of a digit in any base up to sixteen. -/
def digitValue (c : Char) : Nat :=
  if isDigit c then c.toNat - 48 else if 'a' ≤ c then c.toNat - 87 else c.toNat - 55

def numeral (base : Nat) (digits : Chars) : Nat :=
  digits.foldl (fun n c => n * base + digitValue c) 0

/-- The digits of a group without the underscores between them. -/
def ungroup (isDigit : Char → Bool) (cs : Chars) : Option Chars :=
  let parts := cs.splitOn '_'
  if parts.all fun p => !p.isEmpty && p.all isDigit then some parts.flatten else none

/-- A sign, if there is one, and whether it is a minus. -/
def splitSign : Chars → Bool × Chars
  | '+' :: cs => (false, cs)
  | '-' :: cs => (true, cs)
  | cs => (false, cs)

/-- Digits that do not start with a zero, unless they are one. -/
def decimalDigits (cs : Chars) : Option Chars :=
  match ungroup isDigit cs with
  | some ('0' :: _ :: _) => none
  | digits => digits

/-! ## Whole numbers -/

/-- Whether a number is in the range of 64 bits with a sign. -/
def inRange (n : Int) : Bool := -9223372036854775808 ≤ n && n < 9223372036854775808

def ranged (n : Int) : Option Value := if inRange n then some (.integer n) else none

/-- A whole number in a base that its first characters name, or in base ten. -/
def integer? (cs : Chars) : Option Value :=
  match cs with
  | '0' :: 'x' :: cs => (ungroup isHexDigit cs).bind fun ds => ranged (numeral 16 ds)
  | '0' :: 'o' :: cs =>
    (ungroup (fun c => '0' ≤ c && c ≤ '7') cs).bind fun ds => ranged (numeral 8 ds)
  | '0' :: 'b' :: cs =>
    (ungroup (fun c => c == '0' || c == '1') cs).bind fun ds => ranged (numeral 2 ds)
  | cs =>
    let (negative, cs) := splitSign cs
    (decimalDigits cs).bind fun ds =>
      let n : Int := numeral 10 ds
      ranged (if negative then -n else n)

/-! ## Doubles -/

/-- The double nearest to a significand times a power of ten. What is beyond the largest double is
infinite, and what is far below the smallest one is zero. -/
def nearest (significand : Nat) (exponent : Int) : Float :=
  let size : Int := exponent + (Nat.toDigits 10 significand).length
  if significand = 0 || size < -400 then 0
  else if 400 < size then 1 / 0
  else Float.ofScientific significand (exponent < 0) exponent.natAbs

/-- A double is written with a point, an exponent or both. One that outgrows the range upwards is
refused. -/
def finite? (negative : Bool) (cs : Chars) : Option Value :=
  let mantissa := cs.takeWhile fun c => c != 'e' && c != 'E'
  let power := cs.drop mantissa.length
  let whole := mantissa.takeWhile (· != '.')
  let part := mantissa.drop whole.length
  if part.isEmpty && power.isEmpty then none
  else do
    let whole ← decimalDigits whole
    let part ← if part.isEmpty then some [] else ungroup isDigit part.tail
    let (down, digits) := splitSign power.tail
    let digits ← if power.isEmpty then some ['0'] else ungroup isDigit digits
    let exponent : Int := numeral 10 digits
    let x := nearest (numeral 10 (whole ++ part))
      ((if down then -exponent else exponent) - part.length)
    if x.isInf && !negative then none
    else some (.real (if negative then -x else x).toBits)

/-- The bits of the two doubles that are no numbers of a finite size, and their sign. -/
def special? (negative : Bool) (cs : Chars) : Option Value :=
  let sign : UInt64 := if negative then 0x8000000000000000 else 0
  if cs = ['i', 'n', 'f'] then some (.real (sign ||| 0x7FF0000000000000))
  else if cs = ['n', 'a', 'n'] then some (.real (sign ||| 0x7FF8000000000000))
  else none

def real? (cs : Chars) : Option Value :=
  let (negative, cs) := splitSign cs
  finite? negative cs <|> special? negative cs

/-! ## Dates and times -/

/-- A number of a fixed count of digits, within bounds, and what follows it. -/
def field (count low high : Nat) (cs : Chars) : Option (Nat × Chars) :=
  let ds := cs.take count
  let n := numeral 10 ds
  if ds.length = count && ds.all isDigit && low ≤ n && n ≤ high then some (n, cs.drop count)
  else none

def expect (allowed : List Char) : Chars → Option Chars
  | c :: cs => if allowed.contains c then some cs else none
  | [] => none

def daysIn (year month : Nat) : Nat :=
  if month = 2 then
    if year % 4 = 0 && (year % 100 ≠ 0 || year % 400 = 0) then 29 else 28
  else if month = 4 || month = 6 || month = 9 || month = 11 then 30
  else 31

def passDate (cs : Chars) : Option Chars := do
  let (year, cs) ← field 4 0 9999 cs
  let cs ← expect ['-'] cs
  let (month, cs) ← field 2 1 12 cs
  let cs ← expect ['-'] cs
  let (_, cs) ← field 2 1 (daysIn year month) cs
  some cs

/-- Passes a time of day; the second may be a leap second, and may have decimals. -/
def passTime (cs : Chars) : Option Chars := do
  let (_, cs) ← field 2 0 23 cs
  let cs ← expect [':'] cs
  let (_, cs) ← field 2 0 59 cs
  let cs ← expect [':'] cs
  let (_, cs) ← field 2 0 60 cs
  match cs with
  | '.' :: c :: cs => if isDigit c then some (cs.dropWhile isDigit) else none
  | cs => some cs

/-- Passes the distance from Greenwich, if there is one. -/
def passOffset (cs : Chars) : Option Chars :=
  match cs with
  | 'Z' :: cs | 'z' :: cs => some cs
  | '+' :: cs | '-' :: cs => do
    let (_, cs) ← field 2 0 23 cs
    let cs ← expect [':'] cs
    let (_, cs) ← field 2 0 59 cs
    some cs
  | cs => some cs

/-- Whether characters are a time of day, perhaps with an offset, and nothing else. -/
def isTimeOfDate (cs : Chars) : Bool := (passTime cs).bind passOffset == some []

/-- Whether characters are a date and nothing else. -/
def isDate (cs : Chars) : Bool := passDate cs == some []

/-- A date with a time behind a letter, a date alone, or a time alone. -/
def isMoment (cs : Chars) : Bool :=
  passTime cs == some [] ||
  match passDate cs with
  | some [] => true
  | some (c :: cs) => (c == 'T' || c == 't') && isTimeOfDate cs
  | none => false

/-! ## Words -/

def endsWord (c : Char) : Bool := [' ', '\t', '\n', '\r', '#', ',', ']', '\x7d'].contains c

def word? (cs : Chars) : Option Value :=
  if cs = ['t', 'r', 'u', 'e'] then some (.boolean true)
  else if cs = ['f', 'a', 'l', 's', 'e'] then some (.boolean false)
  else if isMoment cs then some (.moment (String.ofList cs))
  else integer? cs <|> real? cs

/-- **The word at the front of a text**, and what follows it. A date takes in a time behind a single
blank. -/
def scalar (cs : Chars) : Option (Value × Chars) :=
  let word := cs.takeWhile (!endsWord ·)
  let rest := cs.drop word.length
  let time := rest.tail.takeWhile (!endsWord ·)
  if rest.head? == some ' ' && isDate word && isTimeOfDate time then
    some (.moment (String.ofList (word ++ ' ' :: time)), rest.tail.drop time.length)
  else (word? word).map (·, rest)

end DeviceGateway.Toml
