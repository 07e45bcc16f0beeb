import DeviceGateway.Toml.Scalar

/-!
# Quoted text, keys and what lies between

Text stands between quotes or apostrophes, once or three times. Between quotes a backslash starts
an escape; between three of either, the text may run over several lines. A key is one or more names
with points between them, and a name is quoted or made of letters, digits, hyphens and underscores.
-/

namespace DeviceGateway.Toml

/-- What a reading step takes, and what it leaves. -/
abbrev Read (α : Type) := Option (α × Chars)

/-! ## Between the values -/

def isBlank (c : Char) : Bool := c == ' ' || c == '\t'

def skipBlanks (cs : Chars) : Chars := cs.dropWhile isBlank

/-- What a comment may hold: everything but controls. -/
def inComment (c : Char) : Bool := c == '\t' || (0x20 ≤ c.toNat && c.toNat != 0x7F)

/-- Passes a comment, if there is one, up to the end of its line. -/
def skipComment : Chars → Chars
  | '#' :: cs => cs.dropWhile inComment
  | cs => cs

def lineBreak : Chars → Option Chars
  | '\n' :: cs | '\r' :: '\n' :: cs => some cs
  | _ => none

/-- Passes what may follow a value on its line, and the end of the line or of the text. -/
def lineEnd (cs : Chars) : Option Chars :=
  match skipComment (skipBlanks cs) with
  | [] => some []
  | cs => lineBreak cs

/-- Passes blanks, comments and line breaks, as between the items of a list. -/
def skipFiller (commenting : Bool) : Chars → Chars
  | [] => []
  | '\r' :: '\n' :: cs | '\n' :: cs => skipFiller false cs
  | c :: cs =>
    if commenting then if inComment c then skipFiller true cs else c :: cs
    else if c == '#' then skipFiller true cs
    else if isBlank c then skipFiller false cs
    else c :: cs

/-! ## Quoted text -/

/-- The character of a short escape. -/
def shortEscape : Char → Option Char
  | 'b' => some '\x08'
  | 't' => some '\t'
  | 'n' => some '\n'
  | 'f' => some '\x0c'
  | 'r' => some '\r'
  | '"' => some '"'
  | '\\' => some '\\'
  | _ => none

/-- The character of a code point in hexadecimal. -/
def codePoint (digits : Chars) : Option Char :=
  let n := numeral 16 digits
  if digits.all isHexDigit && (n < 0xD800 || (0xDFFF < n && n < 0x110000)) then some (Char.ofNat n)
  else none

def isLiteral (c : Char) : Bool := inComment c && c != '\''

/-- What may stand between quotes as it is. -/
def isPlain (c : Char) : Bool := inComment c && c != '"' && c != '\\'

/-- The rest of a text between quotes, after the characters read so far (last first). -/
def quotedRest (read : Chars) : Chars → Read String
  | '"' :: cs => some (String.ofList read.reverse, cs)
  | '\\' :: 'u' :: a :: b :: c :: d :: cs =>
    match codePoint [a, b, c, d] with
    | some x => quotedRest (x :: read) cs
    | none => none
  | '\\' :: 'U' :: a :: b :: c :: d :: e :: f :: g :: h :: cs =>
    match codePoint [a, b, c, d, e, f, g, h] with
    | some x => quotedRest (x :: read) cs
    | none => none
  | '\\' :: c :: cs =>
    match shortEscape c with
    | some x => quotedRest (x :: read) cs
    | none => none
  | c :: cs => if isPlain c then quotedRest (c :: read) cs else none
  | [] => none

/-- The rest of a text between apostrophes. -/
def literalRest (read : Chars) : Chars → Read String
  | '\'' :: cs => some (String.ofList read.reverse, cs)
  | c :: cs => if isLiteral c then literalRest (c :: read) cs else none
  | [] => none

/-- What a backslash at the end of a line takes away. -/
inductive Fold where
  | off
  /-- Blanks before the line break. -/
  | upToBreak
  /-- Blanks and line breaks after it. -/
  | afterBreak
  deriving DecidableEq, Repr, Inhabited

/-- Ends a text over several lines, one or two more quotes belonging to it. -/
def closed (read : Chars) (mark : Char) (more : Nat) (cs : Chars) : Read String :=
  some (String.ofList (read.reverse ++ List.replicate more mark), cs)

/-- The rest of a text between three quotes. -/
def quotedLines (fold : Fold) (read : Chars) : Chars → Read String
  | '\r' :: '\n' :: cs | '\n' :: cs =>
    match fold with
    | .off => quotedLines .off ('\n' :: read) cs
    | .upToBreak | .afterBreak => quotedLines .afterBreak read cs
  | '"' :: '"' :: '"' :: '"' :: '"' :: cs =>
    if fold == .upToBreak then none else closed read '"' 2 cs
  | '"' :: '"' :: '"' :: '"' :: cs => if fold == .upToBreak then none else closed read '"' 1 cs
  | '"' :: '"' :: '"' :: cs => if fold == .upToBreak then none else closed read '"' 0 cs
  | '\\' :: 'u' :: a :: b :: c :: d :: cs =>
    match fold, codePoint [a, b, c, d] with
    | .off, some x | .afterBreak, some x => quotedLines .off (x :: read) cs
    | _, _ => none
  | '\\' :: 'U' :: a :: b :: c :: d :: e :: f :: g :: h :: cs =>
    match fold, codePoint [a, b, c, d, e, f, g, h] with
    | .off, some x | .afterBreak, some x => quotedLines .off (x :: read) cs
    | _, _ => none
  | '\\' :: '\r' :: '\n' :: cs | '\\' :: '\n' :: cs =>
    if fold == .upToBreak then none else quotedLines .afterBreak read cs
  | '\\' :: c :: cs =>
    if fold == .upToBreak then none
    else if isBlank c then quotedLines .upToBreak read cs
    else match shortEscape c with
      | some x => quotedLines .off (x :: read) cs
      | none => none
  | c :: cs =>
    match fold with
    | .off => if isPlain c || c == '"' then quotedLines .off (c :: read) cs else none
    | .upToBreak => if isBlank c then quotedLines .upToBreak read cs else none
    | .afterBreak =>
      if isBlank c then quotedLines .afterBreak read cs
      else if isPlain c || c == '"' then quotedLines .off (c :: read) cs
      else none
  | [] => none

/-- The rest of a text between three apostrophes. -/
def literalLines (read : Chars) : Chars → Read String
  | '\'' :: '\'' :: '\'' :: '\'' :: '\'' :: cs => closed read '\'' 2 cs
  | '\'' :: '\'' :: '\'' :: '\'' :: cs => closed read '\'' 1 cs
  | '\'' :: '\'' :: '\'' :: cs => closed read '\'' 0 cs
  | '\r' :: '\n' :: cs => literalLines ('\n' :: read) cs
  | c :: cs =>
    if isLiteral c || c == '\n' || c == '\'' then literalLines (c :: read) cs else none
  | [] => none

/-- Passes a line break right behind the opening of a text over several lines. -/
def skipFirstBreak (cs : Chars) : Chars := (lineBreak cs).getD cs

/-- **A quoted text**, if one starts here. -/
def quoted : Chars → Read String
  | '"' :: '"' :: '"' :: cs => quotedLines .off [] (skipFirstBreak cs)
  | '"' :: cs => quotedRest [] cs
  | '\'' :: '\'' :: '\'' :: cs => literalLines [] (skipFirstBreak cs)
  | '\'' :: cs => literalRest [] cs
  | _ => none

/-! ## Keys -/

/-- What a name without quotes is made of. -/
def isNameChar (c : Char) : Bool :=
  isDigit c || ('a' ≤ c && c ≤ 'z') || ('A' ≤ c && c ≤ 'Z') || c == '-' || c == '_'

def name : Chars → Read String
  | '"' :: cs => quotedRest [] cs
  | '\'' :: cs => literalRest [] cs
  | cs =>
    let plain := cs.takeWhile isNameChar
    if plain.isEmpty then none else some (String.ofList plain, cs.drop plain.length)

/-- The names of a key, after those read so far (last first). The count bounds the steps. -/
def keyRest : Nat → List String → Chars → Read (List String)
  | 0, _, _ => none
  | n + 1, read, cs =>
    match name (skipBlanks cs) with
    | none => none
    | some (k, cs) =>
      match skipBlanks cs with
      | '.' :: cs => keyRest n (k :: read) cs
      | cs => some ((k :: read).reverse, cs)

/-- Keys have no more names than this, and values are not nested deeper. -/
def maxDepth : Nat := 80

/-- **A key**: the names on the way, and the last one. -/
def key (cs : Chars) : Read (List String × String) :=
  match keyRest (maxDepth + 1) [] cs with
  | none => none
  | some (names, cs) =>
    match names.getLast? with
    | none => none
    | some last => if maxDepth < names.length then none else some ((names.dropLast, last), cs)

end DeviceGateway.Toml
