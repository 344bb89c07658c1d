import InteropGen.Dialect.Spelling

set_option autoImplicit false

/-!
# Dependencies of an artifact

The dependencies of an artifact are a set in ascending order.  `TypeNames` spells types in one
dialect and collects what the spellings depend on.
-/

namespace InteropGen

/-- Inserts a text into an ascending list, unless it is there already. -/
def insertAscending (entry : String) : List String → List String
  | [] => [entry]
  | e :: es =>
    if entry < e then entry :: e :: es
    else if entry = e then e :: es
    else e :: insertAscending entry es

structure IncludeSet where
  /-- In ascending order, without repetition. -/
  entries : List String := []
  deriving DecidableEq, Repr

namespace IncludeSet

def empty : IncludeSet := ⟨[]⟩

def insert (s : IncludeSet) (entry : String) : IncludeSet := ⟨insertAscending entry s.entries⟩

def insertAll (s : IncludeSet) (entries : List String) : IncludeSet := entries.foldl insert s

def ofList (entries : List String) : IncludeSet := empty.insertAll entries

def remove (s : IncludeSet) (entry : String) : IncludeSet := ⟨s.entries.filter (· ≠ entry)⟩

def contains (s : IncludeSet) (entry : String) : Bool := s.entries.contains entry

def size (s : IncludeSet) : Nat := s.entries.length

def isEmpty (s : IncludeSet) : Bool := s.entries.isEmpty

end IncludeSet

structure TypeNames where
  dialect : Dialect
  includes : IncludeSet := .empty

namespace TypeNames

/-- Spells a type and adds its dependency; a type without a spelling adds nothing. -/
def name (n : TypeNames) (s : Schema) (position : Position) (type : TypeRef) :
    Except Failure String × TypeNames :=
  match s.resolve n.dialect position type with
  | .ok spelling =>
    (.ok spelling.literal, { n with includes := n.includes.insertAll spelling.include.toList })
  | .error e => (.error e, n)

end TypeNames

theorem mem_insertAscending {entry x : String} {es : List String} :
    x ∈ insertAscending entry es ↔ x = entry ∨ x ∈ es := by
  induction es with
  | nil => simp [insertAscending]
  | cons e es ih =>
    simp only [insertAscending]
    split
    · simp
    · split
      · rename_i h
        simp [h]
      · simp [ih, or_left_comm]

namespace IncludeSet

@[simp] theorem mem_insert {s : IncludeSet} {entry x : String} :
    x ∈ (s.insert entry).entries ↔ x = entry ∨ x ∈ s.entries := mem_insertAscending

@[simp] theorem mem_remove {s : IncludeSet} {entry x : String} :
    x ∈ (s.remove entry).entries ↔ x ∈ s.entries ∧ x ≠ entry := by
  simp [remove]

end IncludeSet

end InteropGen
