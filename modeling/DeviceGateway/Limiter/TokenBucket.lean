/-!
# Token buckets

A bucket starts full. Each admitted unit takes tokens out; time puts tokens back, but only when a
request finds too few, and never beyond the capacity. The refill clock moves on only when at least
one whole token was gained, so the time between refills adds up however often the bucket is asked.

Instants are nanoseconds on a clock that may also stand before its start. The gain is worked out in
64-bit words and stops at the largest one.
-/

namespace DeviceGateway

/-- The largest 64-bit word. -/
def maxWord : Nat := UInt64.size - 1

/-- A bucket of tokens. -/
structure TokenBucket where
  capacity : Nat
  /-- Tokens gained in a second. -/
  rate : Nat
  tokens : Nat
  /-- The instant up to which gains have been counted. -/
  lastRefill : Int
  deriving DecidableEq, Repr, Inhabited

namespace TokenBucket

/-- A full bucket whose clock starts at an instant. -/
def full (capacity rate : Nat) (start : Int) : TokenBucket := ⟨capacity, rate, capacity, start⟩

/-- The bucket of the screen pipeline when nothing else is configured. -/
def standard (start : Int) : TokenBucket := full 30 15 start

/-- Whole milliseconds from one instant to another, none when the other is earlier. -/
def elapsedMillis (since now : Int) : Nat := min (((now - since).toNat) / 1000000) maxWord

/-- The tokens gained up to an instant. -/
def gained (b : TokenBucket) (now : Int) : Nat :=
  min (elapsedMillis b.lastRefill now * b.rate) maxWord / 1000

/-- Puts in what was gained up to an instant. -/
def refill (b : TokenBucket) (now : Int) : TokenBucket :=
  if 0 < b.gained now then
    { b with tokens := min (min (b.tokens + b.gained now) maxWord) b.capacity, lastRefill := now }
  else b

/-- **Asking for a number of tokens at an instant**: whether they were there, and the bucket
afterwards. -/
def tryAcquire (b : TokenBucket) (permits : Nat) (now : Int) : Bool × TokenBucket :=
  if permits ≤ b.tokens then (true, { b with tokens := b.tokens - permits })
  else
    let b := b.refill now
    if permits ≤ b.tokens then (true, { b with tokens := b.tokens - permits }) else (false, b)

end TokenBucket

end DeviceGateway
