import InteropGen.Json.Reader

set_option autoImplicit false

/-!
# Quoted texts of TOML, read

There are four forms: basic texts with escapes, literal texts without, and a form of either between
three quotation marks that may span lines.  A line feed directly after the opening marks is not part
of the text, and a carriage return before a line feed never is.
-/

namespace InteropGen.Toml

open Json (push hexNumber)

def isSpace (c : Char) : Bool := c == ' ' || c == '\t'

def skipSpace (cs : List Char) : List Char := cs.dropWhile isSpace

/-- The characters that stand for themselves in every form: no controls but the tab. -/
def isPlain (c : Char) : Bool := c == '\t' || (0x20 ≤ c.toNat && c.toNat != 0x7F)

def shortEscape : Char → Option Char
  | 'b' => some '\x08'
  | 't' => some '\t'
  | 'n' => some '\n'
  | 'f' => some '\x0c'
  | 'r' => some '\r'
  | '"' => some '"'
  | '\\' => some '\\'
  | _ => none

/-- The character with the code point that the digits spell, which is no surrogate. -/
def codePoint (digits : List Char) : Option Char :=
  (hexNumber digits).bind fun n => if n.isValidChar then some (Char.ofNat n) else none

/-- Strips one line end. -/
def newline? : List Char → Option (List Char)
  | '\n' :: rest => some rest
  | '\r' :: '\n' :: rest => some rest
  | _ => none

def dropNewline (cs : List Char) : List Char := (newline? cs).getD cs

/-- Nothing but blanks stands before the next line end. -/
def endsLine (cs : List Char) : Bool := (newline? (skipSpace cs)).isSome

def readBasic : List Char → Option (List Char × List Char)
  | [] => none
  | '"' :: rest => some ([], rest)
  | '\\' :: 'u' :: a :: b :: c :: d :: rest =>
    (codePoint [a, b, c, d]).bind fun e => push e (readBasic rest)
  | '\\' :: 'U' :: a :: b :: c :: d :: e :: f :: g :: h :: rest =>
    (codePoint [a, b, c, d, e, f, g, h]).bind fun x => push x (readBasic rest)
  | '\\' :: c :: rest => (shortEscape c).bind fun e => push e (readBasic rest)
  | c :: rest => if isPlain c then push c (readBasic rest) else none

/-- Reads a basic text of several lines; while `folding`, blanks and line ends are skipped.  Up to
two quotation marks may stand directly before the closing three. -/
def readMultiBasic : Bool → List Char → Option (List Char × List Char)
  | _, [] => none
  | _, '"' :: '"' :: '"' :: rest =>
    match rest with
    | '"' :: '"' :: rest => some (['"', '"'], rest)
    | '"' :: rest => some (['"'], rest)
    | _ => some ([], rest)
  | folding, '\r' :: '\n' :: rest =>
    if folding then readMultiBasic true rest else push '\n' (readMultiBasic false rest)
  | _, '\\' :: 'u' :: a :: b :: c :: d :: rest =>
    (codePoint [a, b, c, d]).bind fun e => push e (readMultiBasic false rest)
  | _, '\\' :: 'U' :: a :: b :: c :: d :: e :: f :: g :: h :: rest =>
    (codePoint [a, b, c, d, e, f, g, h]).bind fun x => push x (readMultiBasic false rest)
  | _, '\\' :: c :: rest =>
    if endsLine (c :: rest) then readMultiBasic true (c :: rest)
    else (shortEscape c).bind fun e => push e (readMultiBasic false rest)
  | folding, c :: rest =>
    if folding && (isSpace c || c == '\n') then readMultiBasic true rest
    else if isPlain c || c == '\n' then push c (readMultiBasic false rest)
    else none

def readLiteral : List Char → Option (List Char × List Char)
  | [] => none
  | '\'' :: rest => some ([], rest)
  | c :: rest => if isPlain c then push c (readLiteral rest) else none

def readMultiLiteral : List Char → Option (List Char × List Char)
  | [] => none
  | '\'' :: '\'' :: '\'' :: rest =>
    match rest with
    | '\'' :: '\'' :: rest => some (['\'', '\''], rest)
    | '\'' :: rest => some (['\''], rest)
    | _ => some ([], rest)
  | '\r' :: '\n' :: rest => push '\n' (readMultiLiteral rest)
  | c :: rest => if isPlain c || c == '\n' then push c (readMultiLiteral rest) else none

def readText : List Char → Option (List Char × List Char)
  | '"' :: '"' :: '"' :: rest => readMultiBasic false (dropNewline rest)
  | '"' :: rest => readBasic rest
  | '\'' :: '\'' :: '\'' :: rest => readMultiLiteral (dropNewline rest)
  | '\'' :: rest => readLiteral rest
  | _ => none

end InteropGen.Toml
