set_option autoImplicit false

/-!
# Values of schema and configuration documents

Both notations a schema may be written in are read into one tree, and what a schema means is decided
on that tree alone.
-/

namespace InteropGen

/-- A document value.  `other` is a well-formed value that no field can hold: a fraction, or a
text whose escapes name no character. -/
inductive Data where
  | absent
  | boolean (b : Bool)
  | integer (i : Int)
  | text (s : String)
  | list (items : List Data)
  | record (entries : List (String × Data))
  | other
  deriving Inhabited

namespace Data

def field? (key : String) : Data → Option Data
  | record entries => entries.lookup key
  | _ => none

def text? : Data → Option String
  | text s => some s
  | _ => none

def integer? : Data → Option Int
  | integer i => some i
  | _ => none

def boolean? : Data → Option Bool
  | boolean b => some b
  | _ => none

def list? : Data → Option (List Data)
  | list items => some items
  | _ => none

def entries? : Data → Option (List (String × Data))
  | record entries => some entries
  | _ => none

def ofOption {α : Type} (f : α → Data) : Option α → Data
  | none => absent
  | some a => f a

end Data

end InteropGen
