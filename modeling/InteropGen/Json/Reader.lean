import InteropGen.Data

set_option autoImplicit false

/-!
# Reading JSON

The reader accepts JSON texts and nothing else: no comments, no trailing commas, no leading zeros.
Values that are well formed but that no field could hold are read as `Data.other`, so that they can
still be skipped where a document has a key nobody asks for.
-/

namespace InteropGen.Json

def isSpace (c : Char) : Bool := c == ' ' || c == '\n' || c == '\t' || c == '\r'

def skipSpace (cs : List Char) : List Char := cs.dropWhile isSpace

def hexValue (c : Char) : Option Nat :=
  if c.isDigit then some (c.toNat - 48)
  else if 'a' ≤ c && c ≤ 'f' then some (c.toNat - 87)
  else if 'A' ≤ c && c ≤ 'F' then some (c.toNat - 55)
  else none

def hexNumber (cs : List Char) : Option Nat :=
  cs.foldlM (fun n c => (n * 16 + ·) <$> hexValue c) 0

/-- One written element of a text: a character, or a code unit spelled with four digits. -/
inductive Piece where
  | char (c : Char)
  | unit (n : Nat)
  deriving DecidableEq

def shortEscape : Char → Option Char
  | '"' => some '"'
  | '\\' => some '\\'
  | '/' => some '/'
  | 'b' => some '\x08'
  | 'f' => some '\x0c'
  | 'n' => some '\n'
  | 'r' => some '\r'
  | 't' => some '\t'
  | _ => none

def push {α : Type} (a : α) (r : Option (List α × List Char)) : Option (List α × List Char) :=
  r.map fun (as, rest) => (a :: as, rest)

def readPieces : List Char → Option (List Piece × List Char)
  | [] => none
  | '"' :: rest => some ([], rest)
  | '\\' :: 'u' :: a :: b :: c :: d :: rest =>
    (hexNumber [a, b, c, d]).bind fun n => push (.unit n) (readPieces rest)
  | '\\' :: c :: rest => (shortEscape c).bind fun e => push (.char e) (readPieces rest)
  | c :: rest => if c.toNat < 0x20 then none else push (.char c) (readPieces rest)

def isHigh (n : Nat) : Bool := 0xD800 ≤ n && n < 0xDC00

def isLow (n : Nat) : Bool := 0xDC00 ≤ n && n < 0xE000

/-- The characters of the pieces; none when a surrogate lacks its partner. -/
def joinPieces : List Piece → Option (List Char)
  | [] => some []
  | .char c :: rest => (joinPieces rest).map (c :: ·)
  | .unit n :: .unit m :: rest =>
    if isHigh n && isLow m then
      (joinPieces rest).map (Char.ofNat (0x10000 + (n - 0xD800) * 0x400 + (m - 0xDC00)) :: ·)
    else if isHigh n || isLow n then none
    else (joinPieces (.unit m :: rest)).map (Char.ofNat n :: ·)
  | .unit n :: rest =>
    if isHigh n || isLow n then none else (joinPieces rest).map (Char.ofNat n :: ·)

def readText (cs : List Char) : Option (Option String × List Char) :=
  (readPieces cs).map fun (ps, rest) => ((joinPieces ps).map String.ofList, rest)

def digitValue (cs : List Char) : Nat := cs.foldl (fun n c => n * 10 + (c.toNat - 48)) 0

def dropDigits (cs : List Char) : Option (List Char) :=
  match cs with
  | c :: rest => if c.isDigit then some (rest.dropWhile Char.isDigit) else none
  | [] => none

def dropFraction : List Char → Option (List Char)
  | '.' :: rest => dropDigits rest
  | cs => some cs

def dropExponent : List Char → Option (List Char)
  | [] => some []
  | c :: rest =>
    if c == 'e' || c == 'E' then
      match rest with
      | '+' :: rest => dropDigits rest
      | '-' :: rest => dropDigits rest
      | _ => dropDigits rest
    else some (c :: rest)

/-- The digits of a whole number: a lone zero, or digits that do not start with one. -/
def readWhole : List Char → Option (List Char × List Char)
  | [] => none
  | '0' :: rest =>
    match rest with
    | c :: _ => if c.isDigit then none else some (['0'], rest)
    | [] => some (['0'], [])
  | c :: rest =>
    if c.isDigit then some (c :: rest.takeWhile Char.isDigit, rest.dropWhile Char.isDigit) else none

/-- A number is an integer when it has neither fraction nor exponent and is not a negative zero. -/
def readNumber (cs : List Char) : Option (Data × List Char) :=
  let (negative, body) := match cs with
    | '-' :: rest => (true, rest)
    | _ => (false, cs)
  (readWhole body).bind fun (digits, rest) =>
    (dropFraction rest).bind fun afterFraction =>
      (dropExponent afterFraction).map fun afterExponent =>
        let n := digitValue digits
        if afterExponent.length < rest.length then (.other, afterExponent)
        else if negative then (if n = 0 then .other else .integer (-n), afterExponent)
        else (.integer n, afterExponent)

/-- An object with a key that names no text cannot be a record. -/
def recordOf (entries : List (Option String × Data)) : Data :=
  match entries.mapM fun (key, value) => key.map fun k => (k, value) with
  | some entries => .record entries
  | none => .other

def word (w : List Char) (cs : List Char) : Option (List Char) :=
  if w.isPrefixOf cs then some (cs.drop w.length) else none

mutual

/-- Reads one value; the counter bounds the number of nested calls. -/
def readValue : Nat → List Char → Option (Data × List Char)
  | 0, _ => none
  | bound + 1, cs =>
    match skipSpace cs with
    | [] => none
    | '\x7b' :: rest =>
      match skipSpace rest with
      | '\x7d' :: rest => some (.record [], rest)
      | rest => (readEntries bound rest).map fun (es, rest) => (recordOf es, rest)
    | '[' :: rest =>
      match skipSpace rest with
      | ']' :: rest => some (.list [], rest)
      | rest => (readItems bound rest).map fun (items, rest) => (.list items, rest)
    | '"' :: rest =>
      (readText rest).map fun (s, rest) =>
        (match s with
          | some s => .text s
          | none => .other, rest)
    | 't' :: rest => (word ['r', 'u', 'e'] rest).map fun rest => (.boolean true, rest)
    | 'f' :: rest => (word ['a', 'l', 's', 'e'] rest).map fun rest => (.boolean false, rest)
    | 'n' :: rest => (word ['u', 'l', 'l'] rest).map fun rest => (.absent, rest)
    | c :: rest => readNumber (c :: rest)

def readItems : Nat → List Char → Option (List Data × List Char)
  | 0, _ => none
  | bound + 1, cs =>
    (readValue bound cs).bind fun (item, rest) =>
      match skipSpace rest with
      | ',' :: rest => push item (readItems bound rest)
      | ']' :: rest => some ([item], rest)
      | _ => none

def readEntries : Nat → List Char → Option (List (Option String × Data) × List Char)
  | 0, _ => none
  | bound + 1, cs =>
    match skipSpace cs with
    | '"' :: rest =>
      (readText rest).bind fun (key, rest) =>
        match skipSpace rest with
        | ':' :: rest =>
          (readValue bound rest).bind fun (value, rest) =>
            match skipSpace rest with
            | ',' :: rest => push (key, value) (readEntries bound rest)
            | '\x7d' :: rest => some ([(key, value)], rest)
            | _ => none
        | _ => none
    | _ => none

end

def read (s : String) : Option Data :=
  let cs := s.toList
  match readValue (2 * cs.length + 2) cs with
  | some (value, rest) => if skipSpace rest = [] then some value else none
  | none => none

end InteropGen.Json
