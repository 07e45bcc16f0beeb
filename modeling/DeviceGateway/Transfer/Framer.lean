import DeviceGateway.Transfer.Format
import DeviceGateway.Error

/-!
# Sending a transfer

The framer turns a source of octets into the messages of a transfer, one at a time. It holds its
source until the source ends or fails, and never asks for more than one chunk at once.
-/

namespace DeviceGateway.Transfer

/-! ## Sources -/

/-- What one read of a source will give: octets, or a failure of the system. -/
inductive Read where
  | data (bs : Bytes)
  | fail (text : String)
  deriving DecidableEq, Repr

/-- The reads that a source has left. No octets, or no reads, are the end of the source. -/
abbrev Source := List Read

namespace Source

/-- Reads at most `limit` octets; what a read has beyond that is left for the next. -/
def read (limit : Nat) : Source → Except String Bytes × Source
  | [] => (.ok [], [])
  | .fail text :: rest => (.error text, rest)
  | .data bs :: rest =>
    let more := bs.drop limit
    (.ok (bs.take limit), if more.isEmpty then rest else .data more :: rest)

/-- The octets and reads left; every read of something lowers it. -/
def size : Source → Nat
  | [] => 0
  | .fail _ :: rest => size rest + 1
  | .data bs :: rest => size rest + bs.length + 1

theorem size_read_lt {limit : Nat} (hl : 0 < limit) {s s' : Source} {bs : Bytes}
    (h : s.read limit = (.ok bs, s')) (hb : bs ≠ []) : size s' < size s := by
  cases s with
  | nil => simp [read] at h; exact absurd h.1.symm (by simpa using hb)
  | cons r rest =>
    cases r with
    | fail text => simp [read] at h
    | data data =>
      simp only [read, Prod.mk.injEq, Except.ok.injEq] at h
      obtain ⟨rfl, rfl⟩ := h
      have hd : data ≠ [] := by rintro rfl; simp at hb
      have : 0 < data.length := List.length_pos_iff.2 hd
      split
      · simp only [size]; omega
      · simp only [size, List.length_drop]; omega

end Source

/-! ## The framer -/

/-- How far a transfer has got. -/
inductive Phase where
  | emitMode
  | emitLength
  | streamBody
  | done
  deriving DecidableEq, Repr, Inhabited

/-- A transfer that is being sent from a source. -/
structure Framer (σ : Type) where
  phase : Phase
  declared : Option UInt64
  source : Option σ
  /-- The octets sent as chunks so far. -/
  bodyBytes : Nat

namespace Framer

variable {σ : Type}

def new (declared : Option UInt64) (source : σ) : Framer σ :=
  { phase := .emitMode, declared, source := some source, bodyBytes := 0 }

def holdsSource (f : Framer σ) : Bool := f.source.isSome

/-- The transfer is over, and the source is let go. -/
def finish (f : Framer σ) : Framer σ := { f with phase := .done, source := none }

/-- **The next message**, or nothing when the transfer is over. The source is read only for a
chunk. -/
def step (read : σ → Except String Bytes × σ) (f : Framer σ) :
    Except GatewayError (Option Bytes) × Framer σ :=
  match f.phase with
  | .emitMode =>
    match f.declared with
    | some _ => (.ok (some [declaredMode]), { f with phase := .emitLength })
    | none => (.ok (some [undeclaredMode]), { f with phase := .streamBody })
  | .emitLength =>
    match f.declared with
    | some n => (.ok (some (Bytes.ofNatBE lengthSize n.toNat)), { f with phase := .streamBody })
    | none => (.error (.protocol "length phase without declared length"), f)
  | .streamBody =>
    match f.source with
    | none => (.ok none, f.finish)
    | some s =>
      match read s with
      | (.error text, _) => (.error (.io text), f.finish)
      | (.ok [], _) => (.ok none, f.finish)
      | (.ok bs, s') =>
        (.ok (some bs), { f with source := some s', bodyBytes := f.bodyBytes + bs.length })
  | .done => (.ok none, f)

/-! ## A whole transfer -/

/-- Steps left in the header. -/
def Phase.rank : Phase → Nat
  | .emitMode => 2
  | .emitLength => 1
  | .streamBody | .done => 0

/-- What a framer over a list of reads has left to do. -/
def work (f : Framer Source) : Nat :=
  Phase.rank f.phase + (f.source.elim 0 fun s => Source.size s + 1)

theorem work_step_lt {f f' : Framer Source} {m : Bytes}
    (h : f.step (Source.read chunkSize) = (.ok (some m), f')) : work f' < work f := by
  unfold step at h
  split at h
  · next hp =>
    split at h
    · cases h
      simp [work, hp, Phase.rank]
    · cases h
      simp [work, hp, Phase.rank]
  · next hp =>
    split at h
    · cases h
      simp [work, hp, Phase.rank]
    · cases h
  · next hp =>
    split at h
    · cases h
    · next s hs =>
      split at h
      · cases h
      · cases h
      · next bs s' hne hr =>
        cases h
        have hread : s'.size < s.size := Source.size_read_lt (by decide) hr hne
        simpa [work, hs, hp, Phase.rank] using hread
  · cases h

/-- **A whole transfer into a sink.** The sink may refuse a message, which ends the transfer with
its error; so does a source that fails. The result is the number of octets in chunks. -/
def drive {τ : Type} (send : τ → Bytes → Except GatewayError τ) (f : Framer Source) (sink : τ) :
    Except GatewayError Nat × τ :=
  match h : f.step (Source.read chunkSize) with
  | (.error e, _) => (.error e, sink)
  | (.ok none, f') => (.ok f'.bodyBytes, sink)
  | (.ok (some m), f') =>
    match send sink m with
    | .error e => (.error e, sink)
    | .ok sink =>
      have := work_step_lt h
      drive send f' sink
termination_by work f

/-- A sink that keeps a number of messages (last first) and then finds its channel closed. -/
def keep : Nat × List Bytes → Bytes → Except GatewayError (Nat × List Bytes)
  | (0, _), _ => .error .channelClosed
  | (n + 1, kept), m => .ok (n, m :: kept)

end Framer

end DeviceGateway.Transfer
