import InteropGen.Text.Blank

set_option autoImplicit false

/-!
# Writing code step by step

A writer appends to a sink that may refuse: one with a limit takes no piece that would make its text
longer than that.  The writer puts the indentation in front of the first text of a line.  A guard
raises the level until it is dropped, which may be long after the body in which it was made.  A
block holds a guard of its own while its body runs.  A write that is refused ends the body and every
body around it, up to one that is only attempted.
-/

namespace InteropGen

/-- What a writer appends to.  A sink tells whether it took a piece, and may refuse any. -/
class TextSink (σ : Type) where
  append : σ → String → Bool × σ

structure Sink where
  text : String := ""
  limit : Option Nat := none
  deriving DecidableEq, Repr

namespace Sink

def accepts (s : Sink) (piece : String) : Bool :=
  match s.limit with
  | none => true
  | some limit => s.text.utf8ByteSize + piece.utf8ByteSize ≤ limit

/-- Takes a piece as a whole or not at all. -/
def append (s : Sink) (piece : String) : Bool × Sink :=
  if s.accepts piece then (true, { s with text := s.text ++ piece }) else (false, s)

instance : TextSink Sink := ⟨append⟩

end Sink

structure Writer (σ : Type := Sink) where
  sink : σ
  /-- What is written for each level. -/
  unit : String
  level : Nat := 0
  atLineStart : Bool := true
  deriving DecidableEq, Repr

inductive WriteStep where
  | text (s : String)
  | line (s : String)
  | blank
  /-- A line at the margin. -/
  | unindented (s : String)
  /-- Makes a guard. -/
  | indent
  /-- Drops the guard at a position in the order of making, if there is one. -/
  | dedent (index : Nat)
  /-- A body between braces, below a header line if there is one. -/
  | block (header : Option String) (suffix : String) (body : List WriteStep)
  /-- A body that holds a guard of its own, which is dropped however the body ends. -/
  | scope (body : List WriteStep)
  /-- A body whose failure ends nothing but the body. -/
  | attempt (body : List WriteStep)
  /-- A step that cannot be taken. -/
  | refused

section Writing

variable {σ : Type}

namespace Writer

abbrev Write (σ : Type) := Writer σ → Bool × Writer σ

def Write.andThen (first second : Write σ) : Write σ := fun w =>
  match first w with
  | (true, w) => second w
  | (false, w) => (false, w)

def leaveStart : Write σ := fun w => (true, { w with atLineStart := false })

def raiseLevel (w : Writer σ) : Writer σ := { w with level := w.level + 1 }

def lowerLevel (w : Writer σ) : Writer σ := { w with level := w.level - 1 }

variable [TextSink σ]

def raw (piece : String) : Write σ := fun w =>
  match TextSink.append w.sink piece with
  | (ok, sink) => (ok, { w with sink })

def lead : Nat → Write σ
  | 0 => fun w => (true, w)
  | n + 1 => Write.andThen (fun w => raw w.unit w) (lead n)

def endLine : Write σ := Write.andThen (raw "\n") fun w => (true, { w with atLineStart := true })

/-- A text gets the indentation in front when it starts a line and is not blank. -/
def text (s : String) : Write σ := fun w =>
  if s.isEmpty then (true, w)
  else if w.atLineStart && !Text.allBlank s then
    Write.andThen (lead w.level) (Write.andThen leaveStart (raw s)) w
  else raw s w

def line (s : String) : Write σ := Write.andThen (text s) endLine

def unindented (s : String) : Write σ := Write.andThen (raw s) endLine

def header : Option String → Write σ
  | none => fun w => (true, w)
  | some s => line s

end Writer

structure WriteResult (σ : Type := Sink) where
  ok : Bool
  /-- The number of guards that are not dropped yet. -/
  guards : Nat
  writer : Writer σ
  deriving DecidableEq, Repr

namespace WriteResult

def ofWrite (guards : Nat) : Bool × Writer σ → WriteResult σ
  | (ok, w) => ⟨ok, guards, w⟩

end WriteResult

variable [TextSink σ]

mutual

def WriteStep.run (guards : Nat) (w : Writer σ) : WriteStep → WriteResult σ
  | .text s => .ofWrite guards (Writer.text s w)
  | .line s => .ofWrite guards (Writer.line s w)
  | .blank => .ofWrite guards (Writer.endLine w)
  | .unindented s => .ofWrite guards (Writer.unindented s w)
  | .indent => ⟨true, guards + 1, w.raiseLevel⟩
  | .dedent index =>
    if index < guards then ⟨true, guards - 1, w.lowerLevel⟩ else ⟨true, guards, w⟩
  | .block header suffix body =>
    match Writer.Write.andThen (Writer.header header) (Writer.line "\x7b") w with
    | (false, w) => ⟨false, guards, w⟩
    | (true, w) =>
      let inner := runSteps guards w.raiseLevel body
      let w := inner.writer.lowerLevel
      if inner.ok then .ofWrite inner.guards (Writer.line ("\x7d" ++ suffix) w)
      else ⟨false, inner.guards, w⟩
  | .scope body =>
    let inner := runSteps guards w.raiseLevel body
    { inner with writer := inner.writer.lowerLevel }
  | .attempt body => { runSteps guards w body with ok := true }
  | .refused => ⟨false, guards, w⟩

/-- Takes steps up to the first that is refused. -/
def runSteps (guards : Nat) (w : Writer σ) : List WriteStep → WriteResult σ
  | [] => ⟨true, guards, w⟩
  | step :: steps =>
    let r := step.run guards w
    if r.ok then runSteps r.guards r.writer steps else r

end

end Writing

end InteropGen
