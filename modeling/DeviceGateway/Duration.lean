/-!
# Spans of time

A span is a whole number of nanoseconds. Messages show it in the largest unit that it fills, with
as many decimals as it needs.
-/

namespace DeviceGateway

/-- A span of time. -/
structure Duration where
  nanos : Nat
  deriving DecidableEq, Repr, Inhabited

namespace Duration

def ofSeconds (secs nanos : Nat) : Duration := ⟨secs * 1000000000 + nanos⟩
def ofMillis (ms : Nat) : Duration := ⟨ms * 1000000⟩

def millis (d : Duration) : Nat := d.nanos / 1000000

/-- The decimals of `part / 10 ^ places`, without zeros at the end. -/
def decimals (places part : Nat) : List Char :=
  let digits := Nat.toDigits 10 part
  ((List.replicate (places - digits.length) '0' ++ digits).reverse.dropWhile (· == '0')).reverse

def tenTo (n : Nat) : Nat := Nat.pow 10 n

/-- A span in a unit of `10 ^ places` nanoseconds. -/
def inUnit (d : Duration) (places : Nat) (name : String) : String :=
  let part := d.nanos % tenTo places
  toString (d.nanos / tenTo places) ++
    (if part = 0 then "" else "." ++ String.ofList (decimals places part)) ++ name

/-- **The span as messages show it.** -/
def text (d : Duration) : String :=
  if 1000000000 ≤ d.nanos then d.inUnit 9 "s"
  else if 1000000 ≤ d.nanos then d.inUnit 6 "ms"
  else if 1000 ≤ d.nanos then d.inUnit 3 "µs"
  else d.inUnit 0 "ns"

end Duration

end DeviceGateway
