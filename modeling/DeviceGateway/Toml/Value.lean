/-!
# Values of a configuration text

A configuration text is a table of named values, in the TOML format. A table remembers how it came
to be, because a text may add to some tables later and not to others: a table that a header or a
dotted key only passes through may still be added to in the same way, while one that has had its
header, or stands in braces, is closed.
-/

namespace DeviceGateway.Toml

/-- How a table came to be. -/
inductive Origin where
  /-- A header of a table below it passed through. -/
  | passed
  /-- A dotted key passed through. -/
  | dotted
  /-- It has a header of its own, or is the table of the whole text. -/
  | headed
  /-- It stands in braces. -/
  | braces
  deriving DecidableEq, Repr, Inhabited

/-- Whether anything but a passage has made the table. -/
def Origin.isImplied : Origin → Bool
  | passed | dotted => true
  | headed | braces => false

/-- A value. -/
inductive Value where
  | text (s : String)
  | integer (n : Int)
  /-- A double, by its bits. -/
  | real (bits : UInt64)
  | boolean (b : Bool)
  /-- A date, a time of day or both, as it is written. -/
  | moment (written : String)
  | list (items : List Value)
  | table (origin : Origin) (entries : List (String × Value))
  /-- The tables of one name that have headers in double brackets. -/
  | rows (tables : List (List (String × Value)))
  deriving Inhabited

abbrev Entries := List (String × Value)

namespace Entries

def get? (es : Entries) (name : String) : Option Value := es.lookup name

/-- Changes the value of a name, if the change is allowed. -/
def alter (es : Entries) (name : String) (f : Option Value → Option Value) : Option Entries :=
  match es with
  | [] => (f none).map fun v => [(name, v)]
  | (n, v) :: rest =>
    if n = name then (f (some v)).map fun v => (n, v) :: rest
    else (alter rest name f).map ((n, v) :: ·)

/-- Adds a value under a name that is free. -/
def insertNew (es : Entries) (name : String) (v : Value) : Option Entries :=
  es.alter name fun
    | none => some v
    | some _ => none

end Entries

/-- **Changes the table that a path leads to**, if the way is open. Tables that are missing on the
way are made. A dotted key may only pass through tables that nothing but a passage has made; a
header passes through the last of several rows. -/
def descend (byDots : Bool) (change : Origin → Entries → Option (Origin × Entries)) :
    List String → Origin → Entries → Option (Origin × Entries)
  | [], origin, es => change origin es
  | name :: path, origin, es =>
    let changed := es.alter name fun
      | none =>
        (descend byDots change path (if byDots then .dotted else .passed) []).map fun t =>
          .table t.1 t.2
      | some (.table .braces _) => none
      | some (.table origin es) =>
        if byDots && !origin.isImplied then none
        else (descend byDots change path origin es).map fun t => .table t.1 t.2
      | some (.rows tables) =>
        match tables.getLast? with
        | none => none
        | some row => (descend byDots change path .headed row).map fun t =>
          .rows (tables.dropLast ++ [t.2])
      | some _ => none
    changed.map (origin, ·)

/-- Adds a value under a dotted key. -/
def assign (path : List String) (name : String) (v : Value) (origin : Origin) (es : Entries) :
    Option (Origin × Entries) :=
  descend true (fun origin es =>
    if (origin == .dotted) == path.isEmpty then none
    else (es.insertNew name v).map (origin, ·)) path origin es

def openTable (path : List String) (name : String) (es : Entries) : Option Entries :=
  (descend false (fun origin es =>
    (es.alter name fun
      | none => some (.table .headed [])
      | some (.table .passed es) => some (.table .headed es)
      | some _ => none).map (origin, ·)) path .headed es).map (·.2)

/-- Opens one more row by its header. -/
def openRow (path : List String) (name : String) (es : Entries) : Option Entries :=
  (descend false (fun origin es =>
    (es.alter name fun
      | none => some (.rows [[]])
      | some (.rows tables) => some (.rows (tables ++ [[]]))
      | some _ => none).map (origin, ·)) path .headed es).map (·.2)

/-- Adds a value in the table whose header came last. -/
def assignIn (header path : List String) (name : String) (v : Value) (es : Entries) :
    Option Entries :=
  (descend false (assign path name v) header .headed es).map (·.2)

end DeviceGateway.Toml
