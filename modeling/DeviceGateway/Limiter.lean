import DeviceGateway.Limiter.TokenBucket
import DeviceGateway.Limiter.FixedWindow
import DeviceGateway.Error
import DeviceGateway.Text.Quoted

/-!
# Limiters

What stands before the screen encoder: either kind of limiter, asked for one unit at a time. A
unit that is not admitted is dropped, which is no error.
-/

namespace DeviceGateway

/-- A limiter of either kind. -/
inductive Limiter where
  | bucket (b : TokenBucket)
  | window (w : FixedWindow)
  deriving DecidableEq, Repr, Inhabited

namespace Limiter

/-- **Asking for one unit at an instant.** -/
def allow (l : Limiter) (now : Int) : Bool × Limiter :=
  match l with
  | bucket b => let (ok, b) := b.tryAcquire 1 now; (ok, bucket b)
  | window w => let (ok, w) := w.allow now; (ok, window w)

/-- Whether each of a number of requests at one instant is admitted, after those answered so far
(last first). -/
def burst (now : Int) : Nat → List Bool → Limiter → List Bool
  | 0, answers, _ => answers.reverse
  | n + 1, answers, l => let (ok, l) := l.allow now; burst now n (ok :: answers) l

/-- The limiter of a configured kind. A window lasts at least one millisecond. -/
def ofKind (kind : String) (capacity rate windowMillis : Nat) (now : Int) :
    Except GatewayError Limiter :=
  match kind with
  | "token-bucket" => .ok (bucket (.full capacity rate now))
  | "fixed-window" => .ok (window (.new capacity (.ofMillis (max windowMillis 1)) now))
  | other => .error (.configuration ("unknown limiter kind " ++ Text.quote other))

end Limiter

end DeviceGateway
