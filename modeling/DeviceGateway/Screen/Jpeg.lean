import DeviceGateway.Screen.RawFrame

/-!
# The outline of a JPEG picture

A baseline JPEG file is a sequence of marked segments around the compressed picture. An outline
holds what the segments say: the size of the picture, its components, and the two tables by which
the compression rounds. The tables come from those of the standard, scaled by a quality. The
compressed picture itself is not part of an outline, which stands for every file with its segments.
-/

namespace DeviceGateway.Jpeg

/-- The standard's table for brightness, row by row. -/
def brightness : List Nat :=
  [16, 11, 10, 16, 24, 40, 51, 61, 12, 12, 14, 19, 26, 58, 60, 55,
    14, 13, 16, 24, 40, 57, 69, 56, 14, 17, 22, 29, 51, 87, 80, 62,
    18, 22, 37, 56, 68, 109, 103, 77, 24, 35, 55, 64, 81, 104, 113, 92,
    49, 64, 78, 87, 103, 121, 120, 101, 72, 92, 95, 98, 112, 100, 103, 99]

/-- The standard's table for colour, row by row. -/
def colour : List Nat :=
  [17, 18, 24, 47, 99, 99, 99, 99, 18, 21, 26, 66, 99, 99, 99, 99,
    24, 26, 56, 99, 99, 99, 99, 99, 47, 66, 99, 99, 99, 99, 99, 99,
    99, 99, 99, 99, 99, 99, 99, 99, 99, 99, 99, 99, 99, 99, 99, 99,
    99, 99, 99, 99, 99, 99, 99, 99, 99, 99, 99, 99, 99, 99, 99, 99]

/-- The order in which a table is written: along the diagonals, back and forth. -/
def zigzag : List Nat :=
  [0, 1, 8, 16, 9, 2, 3, 10, 17, 24, 32, 25, 18, 11, 4, 5,
    12, 19, 26, 33, 40, 48, 41, 34, 27, 20, 13, 6, 7, 14, 21, 28,
    35, 42, 49, 56, 57, 50, 43, 36, 29, 22, 15, 23, 30, 37, 44, 51,
    58, 59, 52, 45, 38, 31, 39, 46, 53, 60, 61, 54, 47, 55, 62, 63]

/-- A quality from 1 to 100 as a percentage of the standard's tables. -/
def percentage (quality : Nat) : Nat := if quality < 50 then 5000 / quality else 200 - 2 * quality

/-- A table scaled by a quality, in the order in which it is written. -/
def scaledTable (quality : Nat) (table : List Nat) : Bytes :=
  zigzag.map fun i =>
    UInt8.ofNat (max 1 (min 255 ((table.getD i 0 * percentage quality + 50) / 100)))

/-- What the segments of a picture say. -/
structure Outline where
  precision : UInt8
  height : Nat
  width : Nat
  /-- Three octets a component: its number, its sampling and its table. -/
  components : Bytes
  /-- The tables, each behind its number. -/
  tables : List Bytes
  deriving DecidableEq, Repr, Inhabited

namespace Outline

/-- The largest size that a segment can hold. -/
def maxSide : Nat := 65535

/-- The outline of a picture of a size and quality: three components without subsampling. -/
def ofSize (width height quality : Nat) : Outline :=
  { precision := 8, height, width
    components := [1, 0x11, 0, 2, 0x11, 1, 3, 0x11, 1]
    tables := [0 :: scaledTable quality brightness, 1 :: scaledTable quality colour] }

/-- A segment: its marker, its length and its body. -/
def segment (marker : UInt8) (body : Bytes) : Bytes :=
  [0xFF, marker] ++ Bytes.ofNatBE 2 (body.length + 2) ++ body

/-- The body of the segment that starts the picture. -/
def frameBody (o : Outline) : Bytes :=
  o.precision :: Bytes.ofNatBE 2 o.height ++ Bytes.ofNatBE 2 o.width ++
    UInt8.ofNat (o.components.length / 3) :: o.components

/-- **The segments of an outline** between the marks of start and end. -/
def toBytes (o : Outline) : Bytes :=
  [0xFF, 0xD8] ++ o.tables.flatMap (segment 0xDB) ++ segment 0xC0 o.frameBody ++ [0xFF, 0xD9]

/-- Reads segments up to the one that starts the picture. -/
def readSegments : Nat → List Bytes → Bytes → Option Outline
  | 0, _, _ => none
  | n + 1, tables, 0xFF :: marker :: a :: b :: rest =>
    match Bytes.split? (Bytes.toNatBE [a, b] - 2) rest with
    | none => none
    | some (body, rest) =>
      if marker = 0xDB then readSegments n (body :: tables) rest
      else if marker = 0xC0 then
        match body with
        | p :: h1 :: h0 :: w1 :: w0 :: _ :: components =>
          some ⟨p, Bytes.toNatBE [h1, h0], Bytes.toNatBE [w1, w0], components, tables.reverse⟩
        | _ => none
      else readSegments n tables rest
  | _, _, _ => none

/-- **The outline of a file**, if it starts like one. -/
def ofBytes? (bs : Bytes) : Option Outline :=
  match bs with
  | 0xFF :: 0xD8 :: rest => readSegments bs.length [] rest
  | _ => none

end Outline

end DeviceGateway.Jpeg
