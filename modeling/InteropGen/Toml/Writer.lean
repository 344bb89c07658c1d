import InteropGen.Data

set_option autoImplicit false

/-!
# Writing TOML

A document is written as the scalars of the root, then one section for each table of scalars.  A
text takes the first form that shows it without escapes; when there is none it is a basic text, over
several lines if it has line feeds.
-/

namespace InteropGen.Toml

inductive Scalar where
  | text (s : String)
  | integer (i : Int)
  deriving DecidableEq

abbrev Fields := List (String × Scalar)

structure Document where
  root : Fields
  tables : List (String × Fields)

/-- The longest run of the character; `run` of them stand directly before. -/
def longestRun (mark : Char) : Nat → List Char → Nat
  | run, [] => run
  | run, c :: cs =>
    if c = mark then longestRun mark (run + 1) cs else max run (longestRun mark 0 cs)

/-- Controls that only an escape can spell; the tab and the line feed are none of them. -/
def needsEscape (c : Char) : Bool :=
  (c.toNat < 0x20 && c != '\t' && c != '\n') || c.toNat == 0x7F

inductive Form where
  | basic
  | literal
  | multiBasic
  | multiLiteral
  deriving DecidableEq

def chooseForm (cs : List Char) : Form :=
  let controls := cs.any needsEscape
  let backslash := cs.contains '\\'
  let newline := cs.contains '\n'
  let singles := longestRun '\'' 0 cs
  let doubles := longestRun '"' 0 cs
  if !controls && !backslash && doubles = 0 && !newline then .basic
  else if !controls && singles = 0 && !newline then .literal
  else if !controls && !backslash && doubles ≤ 2 then .multiBasic
  else if !controls && singles ≤ 2 then .multiLiteral
  else if newline then .multiBasic
  else .basic

def upperHexDigit (n : Nat) : Char :=
  if n < 10 then Char.ofNat (48 + n) else Char.ofNat (55 + n)

def escapeControl (c : Char) : List Char :=
  if c = '\x08' then ['\\', 'b']
  else if c = '\t' then ['\\', 't']
  else if c = '\n' then ['\\', 'n']
  else if c = '\x0c' then ['\\', 'f']
  else if c = '\r' then ['\\', 'r']
  else if c = '\\' then ['\\', '\\']
  else if needsEscape c then
    ['\\', 'u', '0', '0', upperHexDigit (c.toNat / 16), upperHexDigit (c.toNat % 16)]
  else [c]

/-- The inside of a basic text.  At most `quotes` quotation marks stand in a row unescaped, and line
feeds stand as they are when the text spans lines. -/
def escape (quotes : Nat) (spansLines : Bool) : Nat → List Char → List Char
  | _, [] => []
  | run, c :: cs =>
    if c = '"' then
      if run < quotes then c :: escape quotes spansLines (run + 1) cs
      else '\\' :: c :: escape quotes spansLines 0 cs
    else if c = '\n' && spansLines then c :: escape quotes spansLines 0 cs
    else escapeControl c ++ escape quotes spansLines 0 cs

def openLines (cs : List Char) : List Char := if cs.contains '\n' then ['\n'] else []

def quoteAs (form : Form) (cs : List Char) : List Char :=
  match form with
  | .basic => ['"'] ++ escape 0 false 0 cs ++ ['"']
  | .literal => ['\''] ++ cs ++ ['\'']
  | .multiBasic => ['"', '"', '"'] ++ openLines cs ++ escape 2 true 0 cs ++ ['"', '"', '"']
  | .multiLiteral => ['\'', '\'', '\''] ++ openLines cs ++ cs ++ ['\'', '\'', '\'']

def quote (cs : List Char) : List Char := quoteAs (chooseForm cs) cs

def Scalar.write : Scalar → String
  | .text s => String.ofList (quote s.toList)
  | .integer i => toString i

def writeFields (fields : Fields) : String :=
  String.join (fields.map fun (key, value) => key ++ " = " ++ value.write ++ "\n")

def writeTable (name : String) (fields : Fields) : String :=
  "\n[" ++ name ++ "]\n" ++ writeFields fields

def Document.write (d : Document) : String :=
  writeFields d.root ++ String.join (d.tables.map fun (name, fields) => writeTable name fields)

end InteropGen.Toml
