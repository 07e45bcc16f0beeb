import DeviceGateway.Toml.Text

/-!
# Reading a configuration text

A text is a sequence of lines: headers that open tables, and keys with their values. The readers
take a count that bounds their steps; every step but the first of a value takes a character, so the
length of the text is enough.
-/

namespace DeviceGateway.Toml

mutual

/-- A value with so many levels of nesting left. -/
def value : Nat → Nat → Chars → Read Value
  | 0, _, _ => none
  | n + 1, depth, cs =>
    match cs with
    | '[' :: cs => if depth = 0 then none else items n (depth - 1) [] (skipFiller false cs)
    | '\x7b' :: cs => if depth = 0 then none else members n (depth - 1) true [] (skipBlanks cs)
    | '"' :: _ | '\'' :: _ => (quoted cs).map fun (s, cs) => (.text s, cs)
    | cs => scalar cs

/-- The rest of a list after the items read so far (last first). -/
def items : Nat → Nat → List Value → Chars → Read Value
  | 0, _, _, _ => none
  | n + 1, depth, read, cs =>
    match cs with
    | ']' :: cs => some (.list read.reverse, cs)
    | cs =>
      match value n depth cs with
      | none => none
      | some (v, cs) =>
        match skipFiller false cs with
        | ',' :: cs => items n depth (v :: read) (skipFiller false cs)
        | ']' :: cs => some (.list (v :: read).reverse, cs)
        | _ => none

/-- The rest of a table in braces after the members read so far. -/
def members : Nat → Nat → Bool → Entries → Chars → Read Value
  | 0, _, _, _, _ => none
  | n + 1, depth, first, read, cs =>
    match first, cs with
    | true, '\x7d' :: cs => some (.table .braces read, cs)
    | _, cs =>
      match key cs with
      | some ((path, last), '=' :: cs) =>
        match value n depth (skipBlanks cs) with
        | none => none
        | some (v, cs) =>
          match assign path last v .braces read with
          | none => none
          | some (_, read) =>
            match skipBlanks cs with
            | ',' :: cs => members n depth false read cs
            | '\x7d' :: cs => some (.table .braces read, cs)
            | _ => none
      | _ => none

end

/-- What has been read: the tables, and the header that came last. -/
structure Draft where
  header : List String
  entries : Entries
  deriving Inhabited

def Draft.open (d : Draft) (row : Bool) (path : List String) (last : String) : Option Draft :=
  ((if row then openRow else openTable) path last d.entries).map fun es => ⟨path ++ [last], es⟩

def Draft.assign (d : Draft) (path : List String) (last : String) (v : Value) : Option Draft :=
  (assignIn d.header path last v d.entries).map fun es => { d with entries := es }

def pair (n : Nat) (d : Draft) (cs : Chars) : Read Draft :=
  match key cs with
  | some ((path, last), '=' :: cs) =>
    match value n maxDepth (skipBlanks cs) with
    | none => none
    | some (v, cs) => (d.assign path last v).map (·, cs)
  | _ => none

/-- A header, its opening brackets already passed. -/
def header (row : Bool) (d : Draft) (cs : Chars) : Read Draft :=
  match key cs with
  | none => none
  | some ((path, last), cs) =>
    match row, cs with
    | false, ']' :: cs | true, ']' :: ']' :: cs => (d.open row path last).map (·, cs)
    | _, _ => none

def lines : Nat → Draft → Chars → Option Draft
  | 0, _, _ => none
  | n + 1, d, cs =>
    let cs := skipBlanks cs
    if cs.isEmpty then some d
    else
      let statement : Read Draft := match cs with
        | '[' :: '[' :: cs => header true d cs
        | '[' :: cs => header false d cs
        | '#' :: _ | '\n' :: _ | '\r' :: _ => some (d, cs)
        | cs => pair n d cs
      match statement with
      | none => none
      | some (d, cs) =>
        match lineEnd cs with
        | none => none
        | some cs => lines n d cs

/-- **Reading a configuration text**; nothing if it is not one. A mark of the order of octets may
stand in front. -/
def parse (s : String) : Option Entries :=
  let cs := match s.toList with
    | '\uFEFF' :: cs => cs
    | cs => cs
  (lines (cs.length + 2) ⟨[], []⟩ cs).map (·.entries)

end DeviceGateway.Toml
