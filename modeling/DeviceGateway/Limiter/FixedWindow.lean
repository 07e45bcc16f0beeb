import DeviceGateway.Duration

/-!
# Fixed windows

At most so many units are admitted in a window of time. A window starts with the first request
after the one before it has run out.
-/

namespace DeviceGateway

/-- A counter of admitted units in the current window. -/
structure FixedWindow where
  limit : Nat
  window : Duration
  count : Nat
  start : Int
  deriving DecidableEq, Repr, Inhabited

namespace FixedWindow

/-- Nothing admitted yet, the first window starting at an instant. -/
def new (limit : Nat) (window : Duration) (start : Int) : FixedWindow := ⟨limit, window, 0, start⟩

/-- Starts a new window if the current one has run out. -/
def advance (w : FixedWindow) (now : Int) : FixedWindow :=
  if w.window.nanos ≤ (now - w.start).toNat then { w with count := 0, start := now } else w

/-- **Asking for one unit at an instant**: whether it is admitted, and the counter afterwards. -/
def allow (w : FixedWindow) (now : Int) : Bool × FixedWindow :=
  let w := w.advance now
  if w.limit ≤ w.count then (false, w) else (true, { w with count := w.count + 1 })

end FixedWindow

end DeviceGateway
