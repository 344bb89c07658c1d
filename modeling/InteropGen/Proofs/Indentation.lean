import InteropGen.Code.Writer
import InteropGen.Proofs.Layout

set_option autoImplicit false

/-!
# Indentation of written code

A program whose guards are dropped where their bodies end describes lines of code, and the writer
appends the text of these lines.  Run at a higher level, it appends the same lines behind a longer
indentation: what a program writes does not depend on where it is called, but for that.
-/

namespace InteropGen

open Text

structure OneLine where
  text : String
  isOneLine : IsOneLine text

/-- A program of lines, blocks, and bodies that a guard puts one level deeper.  A formatted line is
a line of its formatted text. -/
inductive Script where
  | done
  | line (s : OneLine) (next : Script)
  | blank (next : Script)
  | unindented (s : String) (next : Script)
  | block (header : Option OneLine) (suffix : OneLine) (body next : Script)
  | indented (body next : Script)

namespace Script

/-- The steps of the program, when so many guards are there before: the guard of a body is made last
and dropped at the end of the body. -/
def steps (guards : Nat) : Script → List WriteStep
  | done => []
  | line s next => .line s.text :: next.steps guards
  | blank next => .blank :: next.steps guards
  | unindented s next => .unindented s :: next.steps guards
  | block header suffix body next =>
    .block (header.map OneLine.text) suffix.text (body.steps guards) :: next.steps guards
  | indented body next =>
    .indent :: (body.steps (guards + 1) ++ .dedent guards :: next.steps guards)

def code : Script → Code
  | done => []
  | line s next => Code.line s.text ++ next.code
  | blank next => Code.blank ++ next.code
  | unindented s next => Code.unindented ((pieces '\n' s.toList).map String.ofList) ++ next.code
  | block none suffix body next => Code.bracesEnding suffix.text body.code ++ next.code
  | block (some header) suffix body next =>
    Code.blockEnding header.text suffix.text body.code ++ next.code
  | indented body next => Code.nest body.code ++ next.code

end Script

def copies (n : Nat) (unit : String) : String := String.join (List.replicate n unit)

theorem copies_add (m n : Nat) (unit : String) :
    copies (m + n) unit = copies m unit ++ copies n unit := by
  rw [copies, List.replicate_add, String.join_append]
  rfl

namespace Text

/-- The text with the lead in front of each of its lines, but for blank lines and pinned ones. -/
def leadLines (lead : String) (pins : List Bool) (text : String) : String :=
  String.join ((pins.zip (fileLines text)).map fun (pinned, cs) =>
    (if pinned || cs.all isBlank then "" else lead) ++ String.ofList cs ++ "\n")

end Text

namespace Code

variable {c d : Code} {unit : String}

def deepen (n : Nat) (c : Code) : Code := c.map fun l => { l with depth := l.depth + n }

theorem deepen_append (n : Nat) : deepen n (c ++ d) = deepen n c ++ deepen n d := List.map_append

theorem deepen_zero : deepen 0 c = c := List.map_id c

theorem deepen_nest (n : Nat) : deepen n (nest c) = deepen (n + 1) c := by
  rw [deepen, nest, List.map_map, deepen]
  refine List.map_congr_left fun l _ => ?_
  simp [Nat.add_comm, Nat.add_left_comm]

theorem render_deepen_line (n : Nat) (l : Line) :
    Line.render unit { l with depth := l.depth + n } =
      (if l.pinned || allBlank l.text then "" else copies n unit) ++ l.render unit := by
  have deeper : String.join (List.replicate (l.depth + n) unit) =
      copies n unit ++ String.join (List.replicate l.depth unit) := by
    rw [Nat.add_comm]
    exact copies_add n l.depth unit
  rw [Line.render, Line.render, Line.lead, Line.lead]
  dsimp only
  split
  · simp
  · rw [deeper, String.append_assoc, String.append_assoc, String.append_assoc]

/-- Lines are blank as they are shown exactly when their texts are, or else they have no lead. -/
theorem isUnled_shown (l : Line) :
    (l.pinned || ((l.lead unit).toList ++ l.text.toList).all isBlank) =
      (l.pinned || allBlank l.text) := by
  rw [Line.lead, List.all_append, allBlank]
  cases l.pinned with
  | true => rfl
  | false => cases l.text.toList.all isBlank <;> simp

theorem leadLines_render {lead : String} (oneLine : IsOneLine unit) (each : Each IsOneLine c) :
    leadLines lead (c.map Line.pinned) (render unit c) =
      String.join (c.map fun l =>
        (if l.pinned || allBlank l.text then "" else lead) ++ l.render unit) := by
  induction c with
  | nil => rfl
  | cons l c ih =>
    have here : '\n' ∉ (l.lead unit).toList ++ l.text.toList := by
      rw [List.mem_append, not_or]
      refine ⟨?_, each l.text List.mem_cons_self⟩
      rw [Line.lead]
      split
      · exact List.not_mem_nil
      · rw [String.toList_join, List.flatMap_replicate]
        intro mem
        obtain ⟨_, copy, mem⟩ := List.mem_flatten.1 mem
        exact oneLine (List.eq_of_mem_replicate copy ▸ mem)
    have more := ih fun x hx => each x (List.mem_cons_of_mem _ hx)
    have lines : fileLines (render unit (l :: c)) =
        ((l.lead unit).toList ++ l.text.toList) :: fileLines (render unit c) := by
      rw [fileLines, toList_render_cons, pieces_append_sep, pieces_of_not_mem here]
      rfl
    rw [leadLines, lines, List.map_cons, List.zip_cons_cons, List.map_cons, String.join_cons,
      List.map_cons, String.join_cons, ← more, leadLines]
    dsimp only
    rw [isUnled_shown]
    simp [Line.render, String.append_assoc]

theorem render_deepen (oneLine : IsOneLine unit) (each : Each IsOneLine c) (n : Nat) :
    render unit (deepen n c) = leadLines (copies n unit) (c.map Line.pinned) (render unit c) := by
  rw [leadLines_render oneLine each, render, deepen, List.map_map]
  exact congrArg String.join (List.map_congr_left fun l _ => render_deepen_line n l)

end Code

namespace Writer

variable {unit t : String} {n : Nat}

def opened (unit : String) (level : Nat) (t : String) : Writer where
  sink := { text := t }
  unit := unit
  level := level

theorem lead_unlimited (k : Nat) (atStart : Bool) :
    lead k (⟨⟨t, none⟩, unit, n, atStart⟩ : Writer) =
      (true, ⟨⟨t ++ copies k unit, none⟩, unit, n, atStart⟩) := by
  induction k generalizing t with
  | zero => simp [lead, copies]
  | succ k ih =>
    have first : copies (k + 1) unit = unit ++ copies k unit := String.join_cons
    rw [first, ← String.append_assoc]
    exact ih

theorem line_opened (s : String) : line s (opened unit n t) =
    (true, opened unit n (t ++ Line.render unit ⟨n, s, false⟩)) := by
  rw [Line.render, Line.lead, Bool.false_or]
  cases blank : allBlank s with
  | true =>
    -- A blank text is written as it is, and an empty one not at all.
    have written : text s (opened unit n t) = (true, opened unit n (t ++ s)) := by
      rw [text]
      split
      · rename_i empty
        rw [String.isEmpty_iff.1 empty, String.append_empty]
      · rw [if_neg (by simp [blank])]
        rfl
    rw [line, Write.andThen, written, if_pos rfl, String.empty_append]
    simp [endLine, Write.andThen, raw, opened, TextSink.append, Sink.append, Sink.accepts,
      String.append_assoc]
  | false =>
    have filled : s.isEmpty = false := by
      rw [Bool.eq_false_iff, Ne, String.isEmpty_iff]
      rintro rfl
      cases blank
    have written : text s (opened unit n t) =
        (true, ⟨⟨t ++ copies n unit ++ s, none⟩, unit, n, false⟩) := by
      rw [text, filled, if_neg (by decide), if_pos (by simp [blank, opened])]
      change Write.andThen (lead n) _ (⟨⟨t, none⟩, unit, n, true⟩ : Writer) = _
      rw [Write.andThen, lead_unlimited]
      rfl
    rw [line, Write.andThen, written, if_neg (by decide)]
    simp [endLine, Write.andThen, raw, opened, TextSink.append, Sink.append, Sink.accepts, copies,
      String.append_assoc]

theorem header_opened (header : Option OneLine) :
    Write.andThen (Writer.header (header.map OneLine.text)) (line "\x7b") (opened unit n t) =
      (true, opened unit n (t ++
        ((header.map fun h => Line.render unit ⟨n, h.text, false⟩).getD "" ++
          Line.render unit ⟨n, "\x7b", false⟩))) := by
  cases header with
  | none =>
    change line "\x7b" (opened unit n t) = _
    rw [line_opened, Option.map_none, Option.getD_none, String.empty_append]
  | some h =>
    change Write.andThen (line h.text) (line "\x7b") (opened unit n t) = _
    rw [Write.andThen, line_opened]
    refine (line_opened "\x7b").trans ?_
    rw [String.append_assoc]
    rfl

end Writer

open Writer

theorem runSteps_append {σ : Type} [TextSink σ] {guards : Nat} {w : Writer σ}
    {front back : List WriteStep} : runSteps guards w (front ++ back) =
      if (runSteps guards w front).ok then
        runSteps (runSteps guards w front).guards (runSteps guards w front).writer back
      else runSteps guards w front := by
  induction front generalizing guards w with
  | nil => rfl
  | cons step front ih =>
    rw [List.cons_append, runSteps, runSteps]
    split
    · exact ih
    · rfl

theorem runSteps_cons {σ : Type} [TextSink σ] {guards guards' : Nat} {w w' : Writer σ}
    {step : WriteStep} {steps : List WriteStep} (h : step.run guards w = ⟨true, guards', w'⟩) :
    runSteps guards w (step :: steps) = runSteps guards' w' steps := by
  rw [runSteps, h]
  rfl

namespace Text

theorem flatMap_pieces (sep : Char) (cs : List Char) :
    (pieces sep cs).flatMap (fun piece => piece ++ [sep]) = cs ++ [sep] := by
  induction cs with
  | nil => rfl
  | cons c cs ih =>
    rw [pieces]
    split
    · rename_i same
      rw [List.flatMap_cons, ih, same]
      rfl
    · split
      · rename_i none
        exact absurd none (pieces_ne_nil sep cs)
      · rename_i first rest eq
        rw [eq, List.flatMap_cons] at ih
        rw [List.flatMap_cons, List.cons_append, List.cons_append, ih]
        rfl

end Text

namespace Code

variable {unit : String} {n : Nat}

theorem render_deepen_text (x : String) :
    render unit (deepen n (line x)) = Line.render unit ⟨n, x, false⟩ := by
  simp [render, deepen, line]

theorem render_unindented (s : String) :
    render unit (deepen n (unindented ((pieces '\n' s.toList).map String.ofList))) = s ++ "\n" := by
  have plain (cs : List Char) : Line.render unit ⟨0 + n, String.ofList cs, true⟩ =
      String.ofList (cs ++ ['\n']) := by
    simp [Line.render, Line.lead]
  have shown : render unit (deepen n (unindented ((pieces '\n' s.toList).map String.ofList))) =
      String.join ((pieces '\n' s.toList).map fun piece => String.ofList (piece ++ ['\n'])) := by
    rw [render, deepen, unindented, List.map_map, List.map_map, List.map_map]
    exact congrArg String.join (List.map_congr_left fun cs _ => plain cs)
  have chars : (String.join ((pieces '\n' s.toList).map fun piece =>
      String.ofList (piece ++ ['\n']))).toList = (s ++ "\n").toList := by
    rw [String.toList_join, List.flatMap_map, String.toList_append]
    simpa using flatMap_pieces '\n' s.toList
  rw [shown]
  exact String.toList_inj.1 chars

theorem render_bracesEnding (suffix : String) (c : Code) :
    render unit (deepen n (bracesEnding suffix c)) =
      Line.render unit ⟨n, "\x7b", false⟩ ++ render unit (deepen (n + 1) c) ++
        Line.render unit ⟨n, "\x7d" ++ suffix, false⟩ := by
  rw [bracesEnding, deepen_append, deepen_append, deepen_nest, render_append, render_append,
    render_deepen_text, render_deepen_text]

end Code

namespace Script

open Code

variable {unit t : String} {n guards : Nat}

/-- A block writes its header and its braces around what its body writes one level deeper. -/
theorem run_block {header : Option OneLine} {suffix inside : String} {body : List WriteStep}
    (h : ∀ t, runSteps guards (opened unit (n + 1) t) body =
      ⟨true, guards, opened unit (n + 1) (t ++ inside)⟩) :
    (WriteStep.block (header.map OneLine.text) suffix body).run guards (opened unit n t) =
      ⟨true, guards, opened unit n (t ++
        ((header.map fun x => Line.render unit ⟨n, x.text, false⟩).getD "" ++
          Line.render unit ⟨n, "\x7b", false⟩ ++ inside ++
            Line.render unit ⟨n, "\x7d" ++ suffix, false⟩))⟩ := by
  have raised (t : String) : (opened unit n t).raiseLevel = opened unit (n + 1) t := rfl
  have lowered (t : String) : (opened unit (n + 1) t).lowerLevel = opened unit n t := rfl
  rw [WriteStep.run, header_opened]
  dsimp only
  rw [raised, h, if_pos rfl, lowered, line_opened]
  simp only [WriteResult.ofWrite, String.append_assoc]

/-- At a level, a program appends the text of its lines, as much deeper. -/
theorem runSteps_steps (p : Script) : runSteps guards (opened unit n t) (p.steps guards) =
    ⟨true, guards, opened unit n (t ++ (p.code.deepen n).render unit)⟩ := by
  induction p generalizing guards n t with
  | done =>
    change _ = (⟨true, guards, opened unit n (t ++ "")⟩ : WriteResult)
    rw [String.append_empty]
    rfl
  | line s next ih =>
    have written : (WriteStep.line s.text).run guards (opened unit n t) =
        ⟨true, guards, opened unit n (t ++ Line.render unit ⟨n, s.text, false⟩)⟩ := by
      rw [WriteStep.run, line_opened]
      rfl
    rw [steps, runSteps_cons written, ih, code, deepen_append, render_append, render_deepen_text,
      String.append_assoc]
  | blank next ih =>
    have written : WriteStep.blank.run guards (opened unit n t) =
        ⟨true, guards, opened unit n (t ++ "\n")⟩ := rfl
    have shown : render unit (deepen n Code.blank) = "\n" := by
      simp [Code.blank, deepen, render, Line.render, Line.lead, allBlank]
    rw [steps, runSteps_cons written, ih, code, deepen_append, render_append, shown,
      String.append_assoc]
  | unindented s next ih =>
    have written : (WriteStep.unindented s).run guards (opened unit n t) =
        ⟨true, guards, opened unit n (t ++ s ++ "\n")⟩ := rfl
    rw [steps, runSteps_cons written, ih, code, deepen_append, render_append, render_unindented,
      String.append_assoc, String.append_assoc, String.append_assoc]
  | block header suffix body next body_ih ih =>
    rw [steps, runSteps_cons (run_block fun t => body_ih), ih]
    cases header with
    | none =>
      rw [code, deepen_append, render_append, render_bracesEnding]
      simp [String.append_assoc]
    | some header =>
      rw [code, blockEnding, deepen_append, deepen_append, render_append, render_append,
        render_deepen_text, render_bracesEnding]
      simp [String.append_assoc]
  | indented body next body_ih ih =>
    have made : WriteStep.indent.run guards (opened unit n t) =
        ⟨true, guards + 1, opened unit (n + 1) t⟩ := rfl
    have dropped (t : String) : (WriteStep.dedent guards).run (guards + 1) (opened unit (n + 1) t) =
        ⟨true, guards, opened unit n t⟩ := by
      rw [WriteStep.run, if_pos (Nat.lt_succ_self guards)]
      rfl
    rw [steps, runSteps_cons made, runSteps_append, body_ih, if_pos rfl, runSteps_cons (dropped _),
      ih, code, deepen_append, deepen_nest, render_append, String.append_assoc]

theorem isFrame_isOneLine : IsFrame IsOneLine where
  empty := by decide
  opening := by decide
  closing := by decide

theorem each_isOneLine_code (p : Script) : Each IsOneLine p.code := by
  have ending (suffix : OneLine) : IsOneLine ("\x7d" ++ suffix.text) :=
    suffix.isOneLine.prefixed (by decide)
  induction p with
  | done => exact each_nil
  | line s next ih => exact each_append.2 ⟨each_line.2 s.isOneLine, ih⟩
  | blank next ih => exact each_append.2 ⟨each_blank isFrame_isOneLine, ih⟩
  | unindented s next ih =>
    refine each_append.2 ⟨fun x hx => ?_, ih⟩
    simp only [Code.unindented, texts, List.map_map, List.mem_map] at hx
    obtain ⟨piece, mem, rfl⟩ := hx
    simpa [IsOneLine] using not_mem_of_mem_pieces mem
  | block header suffix body next body_ih ih =>
    cases header with
    | none =>
      exact each_append.2 ⟨(each_bracesEnding isFrame_isOneLine).2 ⟨body_ih, ending suffix⟩, ih⟩
    | some header =>
      exact each_append.2 ⟨(each_blockEnding isFrame_isOneLine).2
        ⟨header.isOneLine, body_ih, ending suffix⟩, ih⟩
  | indented body next body_ih ih => exact each_append.2 ⟨each_nest.2 body_ih, ih⟩

/-- Indentation is compositional.  Run at the start of a line, a program appends the text of its
lines; run at a higher level, it appends that very text with one more unit for each level in front
of every line that is not blank and not written at the margin.  Either way it ends where a line
starts, at the level and with the guards it began with. -/
theorem run_appends (unit : OneLine) (p : Script) :
    let added := p.code.render unit.text
    (∀ guards t, runSteps guards (opened unit.text 0 t) (p.steps guards) =
      ⟨true, guards, opened unit.text 0 (t ++ added)⟩) ∧
    ∀ n guards t, runSteps guards (opened unit.text n t) (p.steps guards) =
      ⟨true, guards, opened unit.text n
        (t ++ leadLines (copies n unit.text) (p.code.map Line.pinned) added)⟩ := by
  refine ⟨fun guards t => ?_, fun n guards t => ?_⟩
  · rw [runSteps_steps, deepen_zero]
  · rw [runSteps_steps, render_deepen unit.isOneLine p.each_isOneLine_code]

end Script

end InteropGen
