import InteropGen.Proofs.Layout
import InteropGen.Proofs.Views
import InteropGen.Generation.Plan

set_option autoImplicit false

/-!
# The dress of generated files

The header comment and the indentation dress a file.  The header is a block of its own lines at the
top, and the indentation is made of spaces in front of lines, so neither can change what is planned
or what the lines of a file say.
-/

namespace InteropGen

namespace Text

/-- The text without the spaces in front of its lines, read from the start of a line or from inside
one. -/
def flushFrom : Bool → List Char → List Char
  | _, [] => []
  | atStart, c :: cs =>
    if atStart && c = ' ' then flushFrom true cs else c :: flushFrom (c = '\n') cs

def flush (s : String) : String := String.ofList (flushFrom true s.toList)

theorem flushFrom_line (atStart : Bool) (xs ys : List Char) :
    flushFrom atStart (xs ++ '\n' :: ys) = flushFrom atStart xs ++ '\n' :: flushFrom true ys := by
  induction xs generalizing atStart with
  | nil => simp [flushFrom]
  | cons x xs ih =>
    rw [List.cons_append, flushFrom, flushFrom]
    split
    · exact ih true
    · rw [ih, List.cons_append]

theorem flushFrom_spaces (n : Nat) (xs : List Char) :
    flushFrom true (List.replicate n ' ' ++ xs) = flushFrom true xs := by
  induction n with
  | zero => rfl
  | succ n ih => simpa [List.replicate_succ, flushFrom] using ih

end Text

open Text

namespace Code

/-- What code says is the same in every indentation. -/
theorem flush_render (c c' : Config) (code : Code) :
    flush (code.render c.indentUnit) = flush (code.render c'.indentUnit) := by
  refine congrArg String.ofList ?_
  induction code with
  | nil => rfl
  | cons l code ih =>
    obtain ⟨n, hn⟩ := lead_toList c l
    obtain ⟨n', hn'⟩ := lead_toList c' l
    rw [toList_render_cons, toList_render_cons, flushFrom_line, flushFrom_line, hn, hn',
      flushFrom_spaces, flushFrom_spaces, ih]

end Code

namespace Config

/-- The comment lines at the top of a file: one for each line of the header, and none in a file that
is handed over for editing. -/
def heading (c : Config) : FileKind → String
  | .generated => String.join (c.headerLines.map fun text => commentLine text ++ "\n")
  | .scaffold => ""

theorem render_header (c : Config) : c.header.render c.indentUnit = c.heading .generated := by
  have margin (text : String) : Line.render c.indentUnit ⟨0, text, false⟩ = text ++ "\n" := by
    have lead : Line.lead c.indentUnit ⟨0, text, false⟩ = "" := by
      rw [Line.lead]
      split <;> rfl
    rw [Line.render, lead, String.empty_append]
  rw [header, Code.render, Code.lines, List.map_map, List.map_map]
  exact congrArg String.join (List.map_congr_left fun text _ => margin (commentLine text))

theorem generatedFile_eq (c : Config) (code : Code) :
    c.generatedFile code = c.heading .generated ++ code.render c.indentUnit := by
  rw [generatedFile, Code.render_append, render_header]

theorem scaffoldFile_eq (c : Config) (code : Code) :
    c.scaffoldFile code = c.heading .scaffold ++ code.render c.indentUnit := by
  rw [scaffoldFile, heading, String.empty_append]

end Config

namespace PlannedFile

/-- Files that stand in the same place and say the same below the headings of their
configurations. -/
structure DressedAlike (c c' : Config) (f f' : PlannedFile) : Prop where
  path : f.path = f'.path
  kind : f.kind = f'.kind
  content : ∃ body body', f.content = c.heading f.kind ++ body ∧
    f'.content = c'.heading f'.kind ++ body' ∧ flush body = flush body'

variable (c c' : Config) (dir : Path) (name : String) (code : Code)

theorem dressedAlike_generated :
    DressedAlike c c' (c.generated dir name code) (c'.generated dir name code) :=
  ⟨rfl, rfl, code.render c.indentUnit, code.render c'.indentUnit, c.generatedFile_eq code,
    c'.generatedFile_eq code, code.flush_render c c'⟩

theorem dressedAlike_scaffold :
    DressedAlike c c' (c.scaffold dir name code) (c'.scaffold dir name code) :=
  ⟨rfl, rfl, code.render c.indentUnit, code.render c'.indentUnit, c.scaffoldFile_eq code,
    c'.scaffoldFile_eq code, code.flush_render c c'⟩

end PlannedFile

open PlannedFile

variable (c : Config) (dress : OutputSettings)

theorem TypeArtifacts.dressedAlike (a : TypeArtifacts) :
    List.Forall₂ (DressedAlike c { c with output := dress }) (a.files c)
      (a.files { c with output := dress }) :=
  .cons (dressedAlike_generated ..) <| .cons (dressedAlike_generated ..) <|
    .cons (dressedAlike_generated ..) <| .cons (dressedAlike_generated ..) .nil

theorem ClassArtifacts.dressedAlike (s : Schema) (a : ClassArtifacts) :
    List.Forall₂ (DressedAlike c { c with output := dress }) (a.files c s)
      (a.files { c with output := dress } s) :=
  .cons (dressedAlike_generated ..) <| .cons (dressedAlike_generated ..) <|
    .cons (dressedAlike_generated ..) <| .cons (dressedAlike_scaffold ..) <|
    .cons (dressedAlike_scaffold ..) .nil

theorem Artifacts.dressedAlike (a : Artifacts) :
    List.Forall₂ (DressedAlike c { c with output := dress }) (a.files c)
      (a.files { c with output := dress }) := by
  have classes : List.Forall₂ (DressedAlike c { c with output := dress })
      (a.classes.flatMap (ClassArtifacts.files c a.schema))
      (a.classes.flatMap (ClassArtifacts.files { c with output := dress } a.schema)) := by
    induction a.classes with
    | nil => exact .nil
    | cons t ts ih =>
      rw [List.flatMap_cons, List.flatMap_cons]
      exact List.rel_append (t.dressedAlike c dress a.schema) ih
  exact List.rel_append (List.rel_append (a.types.dressedAlike c dress) classes)
    (.cons (dressedAlike_generated ..) .nil)

/-- Header and indentation change nothing but the dress: with others, the same schemas are refused
for the same reasons, and otherwise the same files are planned, which say the same. -/
theorem Plan.build_dressedAlike (s : Schema) :
    Agree (List.Forall₂ (DressedAlike c { c with output := dress })) (build c s)
      (build { c with output := dress } s) :=
  (Agree.refl (Artifacts.build s)).map fun a _ same => same ▸ a.dressedAlike c dress

end InteropGen
