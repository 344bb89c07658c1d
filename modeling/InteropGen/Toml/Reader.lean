import InteropGen.Toml.Number
import InteropGen.Toml.Table

set_option autoImplicit false

/-!
# Reading TOML

A document is a sequence of statements, one a line: a key with its value, or the header of a table.
Keys have fewer than eighty parts, and values nest fewer than eighty deep.
-/

namespace InteropGen.Toml

open Json (push word)

def maxDepth : Nat := 80

def isBareKeyChar (c : Char) : Bool := c.isAlphanum || c == '-' || c == '_'

def readKeyPart : List Char → Option (List Char × List Char)
  | '"' :: rest => readBasic rest
  | '\'' :: rest => readLiteral rest
  | c :: rest =>
    if isBareKeyChar c then
      some (c :: rest.takeWhile isBareKeyChar, rest.dropWhile isBareKeyChar)
    else none
  | [] => none

/-- Reads the parts of a key, with the blanks around them; the counter bounds their number. -/
def readKeyParts : Nat → List Char → Option (List String × List Char)
  | 0, _ => none
  | bound + 1, cs =>
    (readKeyPart (skipSpace cs)).bind fun (part, rest) =>
      match skipSpace rest with
      | '.' :: rest => push (String.ofList part) (readKeyParts bound rest)
      | rest => some ([String.ofList part], rest)

def readKey (cs : List Char) : Option (List String × List Char) := readKeyParts (maxDepth - 1) cs

def isCommentChar (c : Char) : Bool := isPlain c

def dropComment : List Char → List Char
  | '#' :: rest => rest.dropWhile isCommentChar
  | cs => cs

def lineEnd (cs : List Char) : Option (List Char) :=
  match dropComment (skipSpace cs) with
  | [] => some []
  | rest => newline? rest

/-- Strips blanks, line ends and commented lines between the items of a list; the counter bounds
their number. -/
def skipBetween : Nat → List Char → List Char
  | 0, cs => cs
  | bound + 1, cs =>
    match skipSpace cs with
    | '#' :: rest =>
      match newline? (rest.dropWhile isCommentChar) with
      | some rest => skipBetween bound rest
      | none => '#' :: rest
    | cs =>
      match newline? cs with
      | some rest => skipBetween bound rest
      | none => cs

def between (cs : List Char) : List Char := skipBetween cs.length cs

def readItems (item : List Char → Option (Data × List Char)) :
    Nat → List Char → Option (List Data × List Char)
  | 0, _ => none
  | bound + 1, cs =>
    match between cs with
    | ']' :: rest => some ([], rest)
    | cs =>
      (item cs).bind fun (value, rest) =>
        match between rest with
        | ',' :: rest => push value (readItems item bound rest)
        | ']' :: rest => some ([value], rest)
        | _ => none

def readFields (item : List Char → Option (Data × List Char)) :
    Nat → List Char → Option (List (List String × Data) × List Char)
  | 0, _ => none
  | bound + 1, cs =>
    (readKey cs).bind fun (path, rest) =>
      match rest with
      | '=' :: rest =>
        (item (skipSpace rest)).bind fun (value, rest) =>
          match skipSpace rest with
          | ',' :: rest => push (path, value) (readFields item bound rest)
          | '\x7d' :: rest => some ([(path, value)], rest)
          | _ => none
      | _ => none

def inlineTable (fields : List (List String × Data)) : Option Data :=
  (Entries.assignAll [] fields).map fun es => .record (entriesToData es)

/-- Reads one value; the counter bounds how deep lists and inline tables nest. -/
def readValue : Nat → List Char → Option (Data × List Char)
  | _, [] => none
  | bound, c :: rest =>
    if c = '"' || c = '\'' then
      (readText (c :: rest)).map fun (s, rest) => (.text (String.ofList s), rest)
    else if c = '[' then
      match bound with
      | 0 => none
      | bound + 1 =>
        (readItems (readValue bound) (rest.length + 1) rest).map fun (items, rest) =>
          (.list items, rest)
    else if c = '\x7b' then
      match bound with
      | 0 => none
      | bound + 1 =>
        match skipSpace rest with
        | '\x7d' :: rest => some (.record [], rest)
        | _ =>
          (readFields (readValue bound) (rest.length + 1) rest).bind fun (fields, rest) =>
            (inlineTable fields).map fun table => (table, rest)
    else if c = 't' then (word ['r', 'u', 'e'] rest).map fun rest => (.boolean true, rest)
    else if c = 'f' then (word ['a', 'l', 's', 'e'] rest).map fun rest => (.boolean false, rest)
    else if c = 'i' || c = 'n' then readSpecial (c :: rest)
    else if c = '+' || c = '-' || c.isDigit then readNumber (c :: rest)
    else none

def readHeading (kind : Heading) (cs : List Char) : Option (Statement × List Char) :=
  (readKey cs).bind fun (path, rest) =>
    let close := match kind with
      | .table => [']']
      | .element => [']', ']']
    (word close rest).bind fun rest => (lineEnd rest).map fun rest => (.heading kind path, rest)

def readAssignment (cs : List Char) : Option (Statement × List Char) :=
  (readKey cs).bind fun (path, rest) =>
    match rest with
    | '=' :: rest =>
      (readValue (maxDepth - 1) (skipSpace rest)).bind fun (value, rest) =>
        (lineEnd rest).map fun rest => (.assign path value, rest)
    | _ => none

def readStatement : List Char → Option (Statement × List Char)
  | '[' :: '[' :: rest => readHeading .element rest
  | '[' :: rest => readHeading .table rest
  | cs => readAssignment cs

def readStatements : Nat → List Char → Option (List Statement)
  | 0, _ => none
  | bound + 1, cs =>
    match skipSpace cs with
    | [] => some []
    | cs =>
      match newline? cs with
      | some rest => readStatements bound rest
      | none =>
        if cs.head? = some '#' then (lineEnd cs).bind (readStatements bound)
        else
          (readStatement cs).bind fun (statement, rest) =>
            (readStatements bound rest).map fun statements => statement :: statements

def dropByteOrderMark : List Char → List Char
  | '\uFEFF' :: rest => rest
  | cs => cs

def read (s : String) : Option Data :=
  let cs := dropByteOrderMark s.toList
  (readStatements (cs.length + 1) cs).bind assemble

end InteropGen.Toml
