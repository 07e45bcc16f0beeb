import DeviceGateway.Decimal.Shortest
import DeviceGateway.Text.Quoted

/-!
# JSON values and their text

Providers speak JSON. An object keeps its members sorted by key, one member a key, so equal objects
have equal texts. Whole numbers of 64 bits stay exact; every other number is a double.
-/

namespace DeviceGateway

/-- A JSON value. -/
inductive Json where
  | null
  | bool (b : Bool)
  | int (n : Int)
  | real (x : Float)
  | str (s : String)
  | arr (items : List Json)
  | obj (members : List (String × Json))
  deriving Inhabited

namespace Json

/-- Puts a member in its place among sorted members; a later value replaces an earlier one. -/
def insert (key : String) (value : Json) : List (String × Json) → List (String × Json)
  | [] => [(key, value)]
  | (k, v) :: rest =>
    if key < k then (key, value) :: (k, v) :: rest
    else if key = k then (key, value) :: rest
    else (k, v) :: insert key value rest

/-- The object with these members, the last of each key. -/
def ofMembers (members : List (String × Json)) : Json :=
  .obj (members.foldl (fun sorted m => insert m.1 m.2 sorted) [])

def get? (key : String) : Json → Option Json
  | .obj members => members.lookup key
  | _ => none

/-! ## Text -/

/-- Doubles are written in full from a hundred-thousandth to below ten to the sixteenth. -/
def realStyle : Decimal.Style := ⟨-5, 16⟩

/-- One character of a string: controls are escaped, everything else stands for itself. -/
def escapeChar (c : Char) : String :=
  match c with
  | '"' => "\\\""
  | '\\' => "\\\\"
  | '\x08' => "\\b"
  | '\x0c' => "\\f"
  | '\n' => "\\n"
  | '\r' => "\\r"
  | '\t' => "\\t"
  | c =>
    if c.toNat < 0x20 then
      "\\u00" ++ (if c.toNat < 0x10 then "0" else "") ++ Text.hex c.toNat
    else c.toString

def escape (s : String) : String := "\"" ++ String.join (s.toList.map escapeChar) ++ "\""

mutual

/-- **The compact text of a value**, without blanks. -/
def text : Json → String
  | .null => "null"
  | .bool b => if b then "true" else "false"
  | .int n => toString n
  | .real x => Decimal.render realStyle x.toBits
  | .str s => escape s
  | .arr items => "[" ++ itemsText items ++ "]"
  | .obj members => "\x7b" ++ membersText members ++ "\x7d"

def itemsText : List Json → String
  | [] => ""
  | [v] => text v
  | v :: rest => text v ++ "," ++ itemsText rest

def membersText : List (String × Json) → String
  | [] => ""
  | [(k, v)] => escape k ++ ":" ++ text v
  | (k, v) :: rest => escape k ++ ":" ++ text v ++ "," ++ membersText rest

end

end Json

end DeviceGateway
