import DeviceGateway.Error

/-!
# Bounded work

Work for somebody else is given a limit of time, and may be withdrawn while it runs. Clocks tick in
milliseconds: a span that ends between two ticks ends with the later one. Work that is ready at the
tick on which its limit ends still counts, and so does either when the withdrawal comes with the
same tick; work that is withdrawn before it starts is not started.
-/

namespace DeviceGateway

/-- The tick with which a span that starts now ends. -/
def Duration.tick (d : Duration) : Nat := (d.nanos + 999999) / 1000000

/-- Work that will have a result after a span, or never. -/
structure Work (α : Type) where
  readyAfter : Option Duration
  result : Except GatewayError α

namespace Work

variable {α : Type}

/-- When the work, or the limit put on it, is over, and what comes of it. -/
def bounded (w : Work α) (limit : Duration) : Nat × Except GatewayError α :=
  match w.readyAfter with
  | some d =>
    if d.tick ≤ limit.tick then (d.tick, w.result) else (limit.tick, .error (.timeout limit))
  | none => (limit.tick, .error (.timeout limit))

/-- **Work with a limit.** -/
def withTimeout (w : Work α) (limit : Duration) : Except GatewayError α := (w.bounded limit).2

/-- **Work with a limit that is withdrawn after a span**, if ever. -/
def withDeadline (w : Work α) (limit : Duration) (cancelAfter : Option Duration) :
    Except GatewayError α :=
  let (tick, result) := w.bounded limit
  match cancelAfter with
  | some c => if c.tick = 0 ∨ c.tick < tick then .error .cancelled else result
  | none => result

end Work

end DeviceGateway
