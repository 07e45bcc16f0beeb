import DeviceGateway.Error
import DeviceGateway.Text.Utf8

/-!
# Layouts

A layout says how values of one type lie on the wire: `write` lays a value out, `read` takes one
from the front of a byte string and hands back the rest. Numbers have a fixed width and start with
their least significant octet, texts and lists start with their length in eight octets, an absent
value is one zero octet, and records are their fields in order. Nothing marks the end of a value,
so octets after it are simply left over.
-/

namespace DeviceGateway.Wire

/-- Why octets are no value of a layout. -/
inductive Fault where
  /-- The octets end inside a number, a flag, a tag, a length or a list of octets. -/
  | cutShort
  /-- The octets end inside a text. -/
  | textCutShort
  | notText (fault : Text.Utf8.Fault)
  | notFlag (octet : UInt8)
  | notTag (octet : UInt8)
  /-- The number of a variant that the type does not have. -/
  | notVariant (number count : Nat)
  deriving DecidableEq, Repr

def Fault.message : Fault → String
  | cutShort => "io error: unexpected end of file"
  | textCutShort => "io error: "
  | notText fault => "string is not valid utf8: " ++ fault.message
  | notFlag octet => s!"invalid u8 while decoding bool, expected 0 or 1, found {octet.toNat}"
  | notTag octet => s!"tag for enum is not valid, found {octet.toNat}"
  | notVariant number count =>
    s!"invalid value: integer `{number}`, expected variant index 0 <= i < {count}"

/-- How values of a type lie on the wire. -/
structure Layout (α : Type) where
  write : α → Bytes
  read : Bytes → Except Fault (α × Bytes)

namespace Layout

/-- A number of `k` octets. -/
def number (k : Nat) : Layout Nat where
  write := Bytes.ofNatLE k
  read bs :=
    match Bytes.split? k bs with
    | some (digits, rest) => .ok (Bytes.toNatLE digits, rest)
    | none => .error .cutShort

/-- Reads with one layout and goes on with what was read. -/
def readThen {α β : Type} (l : Layout α) (next : α → Bytes → Except Fault (β × Bytes))
    (bs : Bytes) : Except Fault (β × Bytes) :=
  match l.read bs with
  | .error fault => .error fault
  | .ok (value, rest) => next value rest

def map {α β : Type} (l : Layout α) (forth : α → β) (back : β → α) : Layout β where
  write b := l.write (back b)
  read := l.readThen fun a rest => .ok (forth a, rest)

def pair {α β : Type} (l : Layout α) (m : Layout β) : Layout (α × β) where
  write v := l.write v.1 ++ m.write v.2
  read := l.readThen fun a => m.readThen fun b rest => .ok ((a, b), rest)

def word64 : Layout UInt64 := (number 8).map UInt64.ofNat UInt64.toNat

/-- A flag is one octet, zero or one. -/
def flag : Layout Bool where
  write b := [if b then 1 else 0]
  read
    | [] => .error .cutShort
    | b :: rest => if b = 0 then .ok (false, rest) else if b = 1 then .ok (true, rest)
      else .error (.notFlag b)

/-- A list of octets, its length first. -/
def octets : Layout Bytes where
  write data := (number 8).write data.length ++ data
  read := (number 8).readThen fun n bs =>
    match Bytes.split? n bs with
    | some split => .ok split
    | none => .error .cutShort

/-- A text, the length of its octets first. -/
def text : Layout String where
  write s := octets.write (Text.Utf8.encode s)
  read := (number 8).readThen fun n bs =>
    match Bytes.split? n bs with
    | none => .error .textCutShort
    | some (data, rest) =>
      match Text.Utf8.decode data with
      | .ok s => .ok (s, rest)
      | .error fault => .error (.notText fault)

def optional {α : Type} (l : Layout α) : Layout (Option α) where
  write
    | none => [0]
    | some v => 1 :: l.write v
  read
    | [] => .error .cutShort
    | b :: rest =>
      if b = 0 then .ok (none, rest)
      else if b = 1 then l.readThen (fun v rest => .ok (some v, rest)) rest
      else .error (.notTag b)

/-- A number of values one after the other, behind those already read (last first). -/
def readMany {α : Type} (l : Layout α) : Nat → List α → Bytes → Except Fault (List α × Bytes)
  | 0, seen, bs => .ok (seen.reverse, bs)
  | n + 1, seen, bs =>
    match l.read bs with
    | .error fault => .error fault
    | .ok (v, rest) => readMany l n (v :: seen) rest

/-- A list of values, their number first. -/
def listOf {α : Type} (l : Layout α) : Layout (List α) where
  write vs := (number 8).write vs.length ++ vs.flatMap l.write
  read := (number 8).readThen fun n => readMany l n []

end Layout

end DeviceGateway.Wire
