set_option autoImplicit false

/-!
# Pieces and lines of a text

A line ends at a line feed, and one carriage return before that line feed belongs to the line end.
Text after the last line feed is a line of its own unless it is empty.
-/

namespace InteropGen.Text

/-- The pieces between the separators: one more than there are separators. -/
def pieces (sep : Char) : List Char → List (List Char)
  | [] => [[]]
  | c :: cs =>
    if c = sep then [] :: pieces sep cs
    else
      match pieces sep cs with
      | [] => [[c]]
      | piece :: rest => (c :: piece) :: rest

def dropReturn (cs : List Char) : List Char :=
  if cs.getLast? = some '\r' then cs.dropLast else cs

def endedLines : List (List Char) → List (List Char)
  | [] => []
  | [rest] => if rest = [] then [] else [rest]
  | line :: rest => dropReturn line :: endedLines rest

def lines (s : String) : List String :=
  (endedLines (pieces '\n' s.toList)).map String.ofList

theorem pieces_ne_nil (sep : Char) (cs : List Char) : pieces sep cs ≠ [] := by
  cases cs with
  | nil => simp [pieces]
  | cons c cs =>
    simp only [pieces]
    split
    · simp
    · split <;> simp

theorem not_mem_of_mem_pieces {sep : Char} {cs piece : List Char}
    (h : piece ∈ pieces sep cs) : sep ∉ piece := by
  induction cs generalizing piece with
  | nil =>
    simp only [pieces, List.mem_singleton] at h
    simp [h]
  | cons c cs ih =>
    simp only [pieces] at h
    split at h
    · rcases List.mem_cons.1 h with rfl | h
      · simp
      · exact ih h
    · rename_i hc
      split at h
      · simp only [List.mem_singleton] at h
        simp [h, Ne.symm hc]
      · rename_i head rest eq
        rcases List.mem_cons.1 h with rfl | h
        · simp [Ne.symm hc, ih (eq ▸ List.mem_cons_self)]
        · exact ih (eq ▸ List.mem_cons_of_mem _ h)

end InteropGen.Text
