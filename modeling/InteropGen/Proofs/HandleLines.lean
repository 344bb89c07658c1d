import InteropGen.Proofs.FragmentLines
import InteropGen.Proofs.ImportLines
import InteropGen.Proofs.Planning
import InteropGen.Proofs.QuietLines

set_option autoImplicit false

/-!
# Lines about the managed handle

The storage of the handle, its accessors, and the calls that attach and release it are lines that
nothing else in the generated code can be mistaken for, whatever the types and members are called.
-/

namespace InteropGen

open Text

/-- Lines that are looked for, with what is enough to tell other lines from them: the characters
with which they begin, and those with which they end, read from the end. -/
structure Marks where
  lines : List String
  starts : List (List Char)
  ends : List (List Char)
  begins : ∀ m ∈ lines, ∃ start ∈ starts, start <+: m.toList
  finishes : ∀ m ∈ lines, ∃ last ∈ ends, last <+: m.toList.reverse

namespace Marks

variable {marks : Marks} {front back : List Char}

def Apart (marks : Marks) (x : String) : Prop := x ∉ marks.lines

instance (marks : Marks) (x : String) : Decidable (marks.Apart x) :=
  inferInstanceAs (Decidable (x ∉ marks.lines))

theorem Apart.start (apart : (marks.starts.all fun start => diverges start front) = true)
    (rest : String) : marks.Apart (String.ofList front ++ rest) := fun mem => by
  obtain ⟨start, known, isPrefix⟩ := marks.begins _ mem
  rw [String.toList_append, String.toList_ofList] at isPrefix
  exact not_prefix_of_diverges (List.all_eq_true.1 apart start known) isPrefix

theorem Apart.closed (apart : (marks.starts.all fun start => diverges start front) = true) :
    marks.Apart (String.ofList front) := by
  rw [← String.append_empty (s := String.ofList front)]
  exact .start apart ""

theorem Apart.ending (apart : (marks.ends.all fun last => diverges last back.reverse) = true)
    (rest : String) : marks.Apart (rest ++ String.ofList back) := fun mem => by
  obtain ⟨last, known, isSuffix⟩ := marks.finishes _ mem
  rw [String.toList_append, String.toList_ofList, List.reverse_append] at isSuffix
  exact not_prefix_of_diverges (List.all_eq_true.1 apart last known) isSuffix

end Marks

/-! ### The native class -/

namespace Fragment

end Fragment

/-! ### The wrapper -/

section Members

variable {objectClass : String}

end Members

section Imports

variable {s : Schema} {t : ApiType} {c : Config}

end Imports

namespace Wrapper

variable {c : Config} {w : Wrapper} {p : String → Prop}

end Wrapper

end InteropGen
