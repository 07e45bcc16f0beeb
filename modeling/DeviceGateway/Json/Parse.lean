import DeviceGateway.Json.Basic
import DeviceGateway.Text.Utf8

/-!
# Reading JSON

A recursive-descent reader over the octets of a text. It keeps count of the octets it has passed,
so a fault can name the line and column where it stopped. Nesting is limited, and numbers are read
the quick way: as many digits as a 64-bit word holds, then scaled by a power of ten.
-/

namespace DeviceGateway.Json

/-- Why a text is not JSON. -/
inductive Cause where
  | eofInList | eofInObject | eofInString | eofInValue
  | expectedColon | expectedListEnd | expectedObjectEnd | expectedWord | expectedValue
  | invalidEscape | invalidNumber | numberOutOfRange | loneSurrogate | unfinishedSurrogate
  | controlCharacter | keyNotString | trailingComma | trailingText | tooDeep
  deriving DecidableEq, Repr

def Cause.message : Cause → String
  | eofInList => "EOF while parsing a list"
  | eofInObject => "EOF while parsing an object"
  | eofInString => "EOF while parsing a string"
  | eofInValue => "EOF while parsing a value"
  | expectedColon => "expected `:`"
  | expectedListEnd => "expected `,` or `]`"
  | expectedObjectEnd => "expected `,` or `\x7d`"
  | expectedWord => "expected ident"
  | expectedValue => "expected value"
  | invalidEscape => "invalid escape"
  | invalidNumber => "invalid number"
  | numberOutOfRange => "number out of range"
  | loneSurrogate => "lone leading surrogate in hex escape"
  | unfinishedSurrogate => "unexpected end of hex escape"
  | controlCharacter => "control character (\\u0000-\\u001F) found while parsing a string"
  | keyNotString => "key must be a string"
  | trailingComma => "trailing comma"
  | trailingText => "trailing characters"
  | tooDeep => "recursion limit exceeded"

/-- A cause and the number of octets before the place where it shows. -/
structure Fault where
  cause : Cause
  index : Nat
  deriving DecidableEq, Repr

/-- Where the reader stands: how many octets it has passed, and those ahead. -/
structure Cursor where
  index : Nat
  ahead : Bytes

abbrev Step (α : Type) := Except Fault (α × Cursor)

namespace Cursor

def skip (c : Cursor) : Cursor := ⟨c.index + 1, c.ahead.tail⟩

/-- The octet ahead, zero at the end. -/
def peek (c : Cursor) : UInt8 := c.ahead.headD 0

/-- A fault at what has been passed. -/
def fault {α : Type} (c : Cursor) (cause : Cause) : Except Fault α := .error ⟨cause, c.index⟩

def faultAhead {α : Type} (c : Cursor) (cause : Cause) : Except Fault α :=
  .error ⟨cause, if c.ahead.isEmpty then c.index else c.index + 1⟩

end Cursor

/-- Blanks between tokens: space, line feed, carriage return and tab. -/
def isSpace (b : UInt8) : Bool := b == 0x20 || b == 0x0A || b == 0x0D || b == 0x09

/-- Passes octets while they satisfy a test. -/
def skipWhile (p : UInt8 → Bool) (index : Nat) : Bytes → Cursor
  | [] => ⟨index, []⟩
  | b :: bs => if p b then skipWhile p (index + 1) bs else ⟨index, b :: bs⟩

def skipBlanks (c : Cursor) : Cursor := skipWhile isSpace c.index c.ahead

def isDigit (b : UInt8) : Bool := 0x30 ≤ b && b ≤ 0x39

def digit (b : UInt8) : Nat := b.toNat - 0x30

/-! ## Numbers -/

/-- Divides by powers of ten until the exponent is in reach or nothing is left. -/
def scaleDown : Nat → Float → Nat → Float
  | 0, f, _ => f
  | n + 1, f, e =>
    if e ≤ 308 then f / Float.ofScientific 1 false e
    else if f == 0.0 then f
    else scaleDown n (f / Float.ofScientific 1 false 308) (e - 308)

/-- The double for a significand times a power of ten, if it is in range. Small exponents are one
multiplication or division by an exact power; far smaller ones are divided twice. -/
def scaled (significand : Nat) (exponent : Int) : Option Float :=
  let f := (UInt64.ofNat significand).toFloat
  if exponent < 0 then some (scaleDown (exponent.natAbs / 308 + 1) f exponent.natAbs)
  else if exponent ≤ 308 then
    let x := f * Float.ofScientific 1 false exponent.natAbs
    if x.isInf then none else some x
  else if significand = 0 then some f
  else none

/-- A number with a sign, a significand and an exponent. -/
def finish (negative : Bool) (significand : Nat) (exponent : Int) (c : Cursor) : Step Json :=
  match scaled significand exponent with
  | some x => .ok (.real (if negative then -x else x), c)
  | none => c.fault .numberOutOfRange

/-- Exponents from here on are out of range. -/
def exponentLimit : Nat := 2147483648

/-- The digits of an exponent; one that outgrows 31 bits is out of range at once, unless it only
makes the number vanish. -/
def exponentDigits (acc : Nat) (vanishes : Bool) (index : Nat) : Bytes → Except Fault (Nat × Cursor)
  | [] => .ok (acc, ⟨index, []⟩)
  | b :: bs =>
    if isDigit b then
      if exponentLimit ≤ acc * 10 + digit b then
        if vanishes then .ok (exponentLimit, skipWhile isDigit (index + 1) bs)
        else .error ⟨.numberOutOfRange, index + 1⟩
      else exponentDigits (acc * 10 + digit b) vanishes (index + 1) bs
    else .ok (acc, ⟨index, b :: bs⟩)

/-- From the letter of an exponent on. -/
def exponentPart (negative : Bool) (significand : Nat) (exponent : Int) (c : Cursor) : Step Json :=
  let c := c.skip
  let down := c.peek == 0x2D
  let c := if down || c.peek == 0x2B then c.skip else c
  match c.ahead with
  | [] => c.fault .eofInValue
  | b :: _ =>
    if isDigit b then
      match exponentDigits 0 (down || significand == 0) c.index c.ahead with
      | .error f => .error f
      | .ok (e, c) => finish negative significand (if down then exponent - e else exponent + e) c
    else c.skip.fault .invalidNumber

/-- After the digits of a number: an exponent may follow. -/
def afterDigits (negative : Bool) (significand : Nat) (exponent : Int) (c : Cursor) : Step Json :=
  if c.peek == 0x65 || c.peek == 0x45 then exponentPart negative significand exponent c
  else finish negative significand exponent c

/-- Digits while the significand stays within 64 bits. -/
def significandDigits (acc count index : Nat) : Bytes → Nat × Nat × Cursor
  | [] => (acc, count, ⟨index, []⟩)
  | b :: bs =>
    if isDigit b && acc * 10 + digit b < UInt64.size then
      significandDigits (acc * 10 + digit b) (count + 1) (index + 1) bs
    else (acc, count, ⟨index, b :: bs⟩)

/-- From the decimal point on. Digits past 64 bits are passed over. -/
def decimalPart (negative : Bool) (significand : Nat) (exponent : Int) (c : Cursor) : Step Json :=
  let c := c.skip
  let (s, count, d) := significandDigits significand 0 c.index c.ahead
  if isDigit d.peek then
    afterDigits negative s (exponent - count) (skipWhile isDigit d.index d.ahead)
  else if count = 0 then
    d.faultAhead (if d.ahead.isEmpty then .eofInValue else .invalidNumber)
  else afterDigits negative s (exponent - count) d

/-- The magnitude of the least signed number. -/
def signedLimit : Nat := 9223372036854775808

/-- After the whole part of a number that fits 64 bits. A negative zero, and what is below the
signed range, becomes a double. -/
def wholePart (negative : Bool) (significand : Nat) (c : Cursor) : Step Json :=
  if c.peek == 0x2E then decimalPart negative significand 0 c
  else if c.peek == 0x65 || c.peek == 0x45 then exponentPart negative significand 0 c
  else if !negative then .ok (.int significand, c)
  else if significand = 0 || signedLimit < significand then
    .ok (.real (-(UInt64.ofNat significand).toFloat), c)
  else .ok (.int (-significand), c)

def number (negative : Bool) (c : Cursor) : Step Json :=
  match c.ahead with
  | [] => c.fault .eofInValue
  | b :: _ =>
    if b == 0x30 then
      let c := c.skip
      if isDigit c.peek then c.faultAhead .invalidNumber else wholePart negative 0 c
    else if isDigit b then
      let (s, _, c) := significandDigits 0 0 c.index c.ahead
      if isDigit c.peek then
        let d := skipWhile isDigit c.index c.ahead
        let exponent : Int := d.index - c.index
        if d.peek == 0x2E then decimalPart negative s exponent d
        else afterDigits negative s exponent d
      else wholePart negative s c
    else c.skip.fault .invalidNumber

/-! ## Strings -/

def hexDigit? (b : UInt8) : Option Nat :=
  if isDigit b then some (digit b)
  else if 0x61 ≤ b && b ≤ 0x66 then some (b.toNat - 0x57)
  else if 0x41 ≤ b && b ≤ 0x46 then some (b.toNat - 0x37)
  else none

def hexUnit (c : Cursor) : Step Nat :=
  match c.ahead with
  | a :: b :: d :: e :: rest =>
    let c : Cursor := ⟨c.index + 4, rest⟩
    match hexDigit? a, hexDigit? b, hexDigit? d, hexDigit? e with
    | some a, some b, some d, some e => .ok (((a * 16 + b) * 16 + d) * 16 + e, c)
    | _, _, _, _ => c.fault .invalidEscape
  | rest => Cursor.fault ⟨c.index + rest.length, []⟩ .eofInString

/-- A code point written as one or two units of sixteen bits, its first mark already passed. -/
def unicodeEscape (c : Cursor) : Step Char :=
  match hexUnit c with
  | .error f => .error f
  | .ok (n, c) =>
    if 0xDC00 ≤ n && n ≤ 0xDFFF then c.fault .loneSurrogate
    else if n < 0xD800 || 0xDBFF < n then .ok (Char.ofNat n, c)
    else match c.ahead with
      | [] => c.fault .eofInString
      | [a] =>
        if a == 0x5C then c.skip.fault .eofInString else c.skip.fault .unfinishedSurrogate
      | a :: b :: _ =>
        if a != 0x5C then c.skip.fault .unfinishedSurrogate
        else if b != 0x75 then c.skip.skip.fault .unfinishedSurrogate
        else match hexUnit c.skip.skip with
          | .error f => .error f
          | .ok (m, c) =>
            if m < 0xDC00 || 0xDFFF < m then c.fault .loneSurrogate
            else .ok (Char.ofNat ((n - 0xD800) * 1024 + (m - 0xDC00) + 0x10000), c)

/-- What an escape stands for, its backslash already passed. -/
def escaped (c : Cursor) : Step Char :=
  match c.ahead with
  | [] => c.fault .eofInString
  | b :: _ =>
    let c := c.skip
    match b with
    | 0x22 => .ok ('"', c)
    | 0x5C => .ok ('\\', c)
    | 0x2F => .ok ('/', c)
    | 0x62 => .ok ('\x08', c)
    | 0x66 => .ok ('\x0c', c)
    | 0x6E => .ok ('\n', c)
    | 0x72 => .ok ('\r', c)
    | 0x74 => .ok ('\t', c)
    | 0x75 => unicodeEscape c
    | _ => c.fault .invalidEscape

/-- The rest of a string after the octets read so far (last first). The count bounds the steps. -/
def stringRest : Nat → Bytes → Cursor → Step String
  | 0, _, c => c.fault .eofInString
  | n + 1, read, c =>
    match c.ahead with
    | [] => c.fault .eofInString
    | b :: _ =>
      if b == 0x22 then .ok (Text.Utf8.decodeLossy read.reverse, c.skip)
      else if b == 0x5C then
        match escaped c.skip with
        | .error f => .error f
        | .ok (x, c) => stringRest n ((Text.Utf8.encodeChar x).reverse ++ read) c
      else if b < 0x20 then c.skip.fault .controlCharacter
      else stringRest n (b :: read) c.skip

/-- A string, its opening quote already passed. -/
def string (n : Nat) (c : Cursor) : Step String := stringRest n [] c

/-! ## Values -/

/-- The rest of a word such as `null`. -/
def word (value : Json) : Bytes → Cursor → Step Json
  | [], c => .ok (value, c)
  | w :: ws, c =>
    match c.ahead with
    | [] => c.fault .eofInValue
    | b :: _ => if b == w then word value ws c.skip else c.skip.fault .expectedWord

/-- Nesting deeper than this is refused. -/
def maxDepth : Nat := 127

mutual

/-- A value at a nesting depth. The count bounds the steps. -/
def value : Nat → Nat → Cursor → Step Json
  | 0, _, c => c.fault .eofInValue
  | n + 1, depth, c =>
    let c := skipBlanks c
    match c.ahead with
    | [] => c.faultAhead .eofInValue
    | b :: _ =>
      match b with
      | 0x6E => word .null [0x75, 0x6C, 0x6C] c.skip
      | 0x74 => word (.bool true) [0x72, 0x75, 0x65] c.skip
      | 0x66 => word (.bool false) [0x61, 0x6C, 0x73, 0x65] c.skip
      | 0x2D => number true c.skip
      | 0x22 =>
        match string n c.skip with
        | .error f => .error f
        | .ok (s, c) => .ok (.str s, c)
      | 0x5B =>
        if maxDepth ≤ depth then c.faultAhead .tooDeep else items n (depth + 1) true [] c.skip
      | 0x7B =>
        if maxDepth ≤ depth then c.faultAhead .tooDeep else members n (depth + 1) true [] c.skip
      | b => if isDigit b then number false c else c.faultAhead .expectedValue

/-- The rest of a list after the items read so far (last first). -/
def items : Nat → Nat → Bool → List Json → Cursor → Step Json
  | 0, _, _, _, c => c.fault .eofInList
  | n + 1, depth, first, read, c =>
    let c := skipBlanks c
    match c.ahead with
    | [] => c.faultAhead .eofInList
    | b :: _ =>
      if b == 0x5D then .ok (.arr read.reverse, c.skip)
      else if first then
        match value n depth c with
        | .error f => .error f
        | .ok (v, c) => items n depth false (v :: read) c
      else if b == 0x2C then
        let c := skipBlanks c.skip
        if c.ahead.isEmpty then c.faultAhead .eofInValue
        else if c.peek == 0x5D then c.faultAhead .trailingComma
        else
          match value n depth c with
          | .error f => .error f
          | .ok (v, c) => items n depth false (v :: read) c
      else c.faultAhead .expectedListEnd

/-- The rest of an object after the members read so far. -/
def members : Nat → Nat → Bool → List (String × Json) → Cursor → Step Json
  | 0, _, _, _, c => c.fault .eofInObject
  | n + 1, depth, first, read, c =>
    let c := skipBlanks c
    match c.ahead with
    | [] => c.faultAhead .eofInObject
    | b :: _ =>
      if b == 0x7D then .ok (.obj read, c.skip)
      else if first then
        if b == 0x22 then member n depth read c.skip else c.faultAhead .keyNotString
      else if b == 0x2C then
        let c := skipBlanks c.skip
        if c.ahead.isEmpty then c.faultAhead .eofInValue
        else if c.peek == 0x22 then member n depth read c.skip
        else if c.peek == 0x7D then c.faultAhead .trailingComma
        else c.faultAhead .keyNotString
      else c.faultAhead .expectedObjectEnd

/-- One member, the opening quote of its key already passed, and the rest of the object. -/
def member : Nat → Nat → List (String × Json) → Cursor → Step Json
  | 0, _, _, c => c.fault .eofInObject
  | n + 1, depth, read, c =>
    match string n c with
    | .error f => .error f
    | .ok (key, c) =>
      let c := skipBlanks c
      if c.ahead.isEmpty then c.faultAhead .eofInObject
      else if c.peek != 0x3A then c.faultAhead .expectedColon
      else
        match value n depth c.skip with
        | .error f => .error f
        | .ok (v, c) => members n depth false (insert key v read) c

end

/-- The line and column after a number of octets; both count from one, but a column just after a
line feed is zero. -/
def position (text : Bytes) (index : Nat) : Nat × Nat :=
  let passed := text.take index
  (1 + passed.count 0x0A, (passed.reverse.takeWhile (· != 0x0A)).length)

/-- **Reading a text as one JSON value**, or the first fault in words, with its place. -/
def parse (s : String) : Except String Json :=
  let text := Text.Utf8.encode s
  let outcome : Except Fault Json :=
    match value (2 * text.length + 2) 0 ⟨0, text⟩ with
    | .error f => .error f
    | .ok (v, c) =>
      let c := skipBlanks c
      if c.ahead.isEmpty then .ok v else c.faultAhead .trailingText
  match outcome with
  | .ok v => .ok v
  | .error f =>
    let (line, column) := position text f.index
    .error s!"{f.cause.message} at line {line} column {column}"

end DeviceGateway.Json
