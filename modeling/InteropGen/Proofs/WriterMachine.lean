import Mathlib.Logic.Relation
import InteropGen.Code.Writer

set_option autoImplicit false

/-!
# Writing as a machine

A machine shows a running program between any two appends to the sink.  It keeps a list of what is
left to do, in which the ends of the bodies that are open are marked.  After a failure it passes
over everything but these marks, which is how an error leaves the bodies around it.  It gets where
the program gets.
-/

namespace InteropGen

inductive WriteTask where
  | take (step : WriteStep)
  | text (s : String)
  /-- Appends a piece to the sink as it is. -/
  | put (piece : String)
  | leaveStart
  | startLine
  /-- Drops a guard: one that a step has picked, or that of a body that has ended. -/
  | release
  /-- Makes up for a failure. -/
  | recover

namespace WriteTask

def IsMark : WriteTask → Prop
  | release | recover => True
  | take _ | text _ | put _ | leaveStart | startLine => False

def lineEnd : List WriteTask := [put "\n", startLine]

def line (s : String) : List WriteTask := text s :: lineEnd

def header : Option String → List WriteTask
  | none => []
  | some s => line s

/-- What a text comes to for a writer that is about to write it. -/
def ofText {σ : Type} (w : Writer σ) (s : String) : List WriteTask :=
  if s.isEmpty then []
  else if w.atLineStart && !Text.allBlank s then
    List.replicate w.level (put w.unit) ++ [leaveStart, put s]
  else [put s]

theorem unmarked_lineEnd : ∀ t ∈ lineEnd, ¬ t.IsMark := by
  simp [lineEnd, IsMark]

theorem unmarked_line (s : String) : ∀ t ∈ line s, ¬ t.IsMark := by
  simp [line, lineEnd, IsMark]

theorem unmarked_header (above : Option String) : ∀ t ∈ header above, ¬ t.IsMark := by
  cases above with
  | none => exact List.forall_mem_nil _
  | some s => exact unmarked_line s

theorem unmarked_replicate (n : Nat) (piece : String) :
    ∀ t ∈ List.replicate n (put piece), ¬ t.IsMark := by
  intro t mem
  rw [List.eq_of_mem_replicate mem]
  exact id

theorem unmarked_ofText {σ : Type} (w : Writer σ) (s : String) : ∀ t ∈ ofText w s, ¬ t.IsMark := by
  rw [ofText]
  split
  · exact List.forall_mem_nil _
  · split
    · exact List.forall_mem_append.2 ⟨unmarked_replicate _ _, by simp [IsMark]⟩
    · simp [IsMark]

theorem unmarked_steps (steps : List WriteStep) : ∀ t ∈ steps.map take, ¬ t.IsMark := by
  intro t mem
  obtain ⟨_, _, rfl⟩ := List.mem_map.1 mem
  exact id

end WriteTask

/-- A running program.  It counts the guards that its steps have made and not dropped. -/
structure Machine (σ : Type) where
  tasks : List WriteTask
  failing : Bool := false
  guards : Nat := 0
  writer : Writer σ

def Writer.opening {σ : Type} [TextSink σ] (above : Option String) : Writer.Write σ :=
  Writer.Write.andThen (Writer.header above) (Writer.line "\x7b")

theorem WriteResult.ofWrite_andThen {σ : Type} {guards : Nat} {w : Writer σ}
    (x y : Writer.Write σ) : ofWrite guards (Writer.Write.andThen x y w) =
      if (ofWrite guards (x w)).ok then ofWrite guards (y (x w).2) else ofWrite guards (x w) := by
  rw [Writer.Write.andThen]
  split
  all_goals
    rename_i done
    rw [done]
    rfl

namespace Machine

open WriteTask

variable {σ : Type}

def take (m : Machine σ) (rest : List WriteTask) : WriteStep → Machine σ
  | .text s => { m with tasks := text s :: rest }
  | .line s => { m with tasks := line s ++ rest }
  | .blank => { m with tasks := lineEnd ++ rest }
  | .unindented s => { m with tasks := put s :: lineEnd ++ rest }
  | .indent => { m with tasks := rest, guards := m.guards + 1, writer := m.writer.raiseLevel }
  | .dedent index =>
    if index < m.guards then
      { m with tasks := release :: rest, guards := m.guards - 1 }
    else { m with tasks := rest }
  | .block above suffix body =>
    { m with
      tasks := header above ++ line "\x7b" ++
        .take (.scope body) :: (line ("\x7d" ++ suffix) ++ rest) }
  | .scope body =>
    { m with tasks := body.map .take ++ release :: rest, writer := m.writer.raiseLevel }
  | .attempt body => { m with tasks := body.map .take ++ recover :: rest }
  | .refused => { m with tasks := rest, failing := true }

variable [TextSink σ]

def next (m : Machine σ) : Option (Machine σ) :=
  match m.failing, m.tasks with
  | _, [] => none
  | _, release :: rest => some { m with tasks := rest, writer := m.writer.lowerLevel }
  | _, recover :: rest => some { m with tasks := rest, failing := false }
  | true, _ :: rest => some { m with tasks := rest }
  | false, .take step :: rest => some (m.take rest step)
  | false, text s :: rest => some { m with tasks := ofText m.writer s ++ rest }
  | false, put piece :: rest =>
    let (ok, writer) := Writer.raw piece m.writer
    some { m with tasks := rest, failing := !ok, writer }
  | false, leaveStart :: rest =>
    some { m with tasks := rest, writer := { m.writer with atLineStart := false } }
  | false, startLine :: rest =>
    some { m with tasks := rest, writer := { m.writer with atLineStart := true } }

def Reaches : Machine σ → Machine σ → Prop := Relation.ReflTransGen fun m m' => m.next = some m'

def start (sink : σ) (unit : String) (steps : List WriteStep) : Machine σ where
  tasks := steps.map .take
  writer := { sink, unit }

def after (rest : List WriteTask) (r : WriteResult σ) : Machine σ where
  tasks := rest
  failing := !r.ok
  guards := r.guards
  writer := r.writer

theorem Reaches.first {m m' m'' : Machine σ} (h : m.next = some m') (more : m'.Reaches m'') :
    m.Reaches m'' := Relation.ReflTransGen.head h more

variable {rest ts us : List WriteTask} {guards : Nat} {w : Writer σ}

theorem next_failing {t : WriteTask} (unmarked : ¬ t.IsMark) :
    next ⟨t :: rest, true, guards, w⟩ = some ⟨rest, true, guards, w⟩ := by
  cases t with
  | release => exact absurd trivial unmarked
  | recover => exact absurd trivial unmarked
  | take | text | put | leaveStart | startLine => rfl

/-- A failing program gets past everything that is not a mark, and writes nothing on its way. -/
theorem reaches_past (unmarked : ∀ t ∈ ts, ¬ t.IsMark) :
    Reaches ⟨ts ++ rest, true, guards, w⟩ ⟨rest, true, guards, w⟩ := by
  induction ts with
  | nil => exact .refl
  | cons t ts ih =>
    obtain ⟨here, more⟩ := List.forall_mem_cons.1 unmarked
    exact .first (next_failing here) (ih more)

/-- What is next is done after success and passed over after a failure. -/
theorem reaches_after {r r' : WriteResult σ} (unmarked : ∀ t ∈ ts, ¬ t.IsMark)
    (going : Reaches ⟨ts ++ rest, false, r.guards, r.writer⟩ (after rest r')) :
    Reaches (after (ts ++ rest) r) (after rest (if r.ok then r' else r)) := by
  obtain ⟨ok, guards, w⟩ := r
  cases ok with
  | true => exact going
  | false => exact reaches_past unmarked

/-- Tasks do a write when the machine gets from them to what the write leaves, whatever is behind
them. -/
def Does (ts : List WriteTask) (x : Writer.Write σ) (w : Writer σ) : Prop :=
  ∀ rest guards, Reaches ⟨ts ++ rest, false, guards, w⟩ (after rest (.ofWrite guards (x w)))

open Writer

theorem does_andThen {x y : Write σ} (first : Does ts x w) (unmarked : ∀ t ∈ us, ¬ t.IsMark)
    (second : Does us y (x w).2) : Does (ts ++ us) (Write.andThen x y) w := by
  intro rest guards
  rw [List.append_assoc, WriteResult.ofWrite_andThen]
  exact (first (us ++ rest) guards).trans (reaches_after unmarked (second rest guards))

theorem does_cons {t : WriteTask} {x y : Write σ} (first : Does [t] x w)
    (unmarked : ∀ t ∈ us, ¬ t.IsMark) (second : Does us y (x w).2) :
    Does (t :: us) (Write.andThen x y) w :=
  does_andThen first unmarked second

theorem does_put (piece : String) : Does [put piece] (raw piece) w :=
  fun _ _ => .first rfl .refl

theorem does_lineEnd : Does lineEnd endLine w :=
  does_cons (does_put "\n") (by simp [IsMark]) fun _ _ => .first rfl .refl

theorem unit_raw (piece : String) : (raw piece w).2.unit = w.unit := rfl

theorem does_lead (n : Nat) : Does (List.replicate n (put w.unit)) (lead n) w := by
  induction n generalizing w with
  | zero => exact fun _ _ => .refl
  | succ n ih =>
    refine does_cons (does_put w.unit) (unmarked_replicate n w.unit) ?_
    rw [← unit_raw w.unit]
    exact ih

theorem does_text (s : String) : Does [text s] (Writer.text s) w := by
  have does : Does (ofText w s) (Writer.text s) w := by
    rw [Does, Writer.text, ofText]
    split
    · exact fun _ _ => .refl
    · split
      · exact does_andThen (does_lead w.level) (by simp [IsMark])
          (does_cons (fun _ _ => .first rfl .refl) (by simp [IsMark])
            (does_put s))
      · exact does_put s
  exact fun rest guards => .first rfl (does rest guards)

theorem does_line (s : String) : Does (line s) (Writer.line s) w :=
  does_cons (does_text s) unmarked_lineEnd does_lineEnd

theorem does_unindented (s : String) : Does (put s :: lineEnd) (Writer.unindented s) w :=
  does_cons (does_put s) unmarked_lineEnd does_lineEnd

theorem does_header (above : Option String) : Does (header above) (Writer.header above) w := by
  cases above with
  | none => exact fun _ _ => .refl
  | some s => exact does_line s

theorem does_opening (above : Option String) :
    Does (header above ++ line "\x7b") (Writer.opening above) w :=
  does_andThen (does_header above) (unmarked_line "\x7b") (does_line "\x7b")

variable (σ) in
/-- Whatever is behind them, the machine takes the steps of a body to what they leave. -/
def Follows (body : List WriteStep) : Prop :=
  ∀ rest guards (w : Writer σ),
    Reaches ⟨body.map .take ++ rest, false, guards, w⟩ (after rest (runSteps guards w body))

/-- At the end of a body its guard is dropped, whether the body failed or not. -/
theorem reaches_scope {body : List WriteStep} (h : Follows σ body) (rest : List WriteTask)
    (guards : Nat) (w : Writer σ) : Reaches ⟨.take (.scope body) :: rest, false, guards, w⟩
      (after rest ((WriteStep.scope body).run guards w)) := by
  have ended (r : WriteResult σ) : Reaches (after (release :: rest) r)
      (after rest { r with writer := r.writer.lowerLevel }) :=
    .first (by obtain ⟨_ | _, _, _⟩ := r <;> rfl) .refl
  exact .first rfl ((h (release :: rest) guards w.raiseLevel).trans (ended _))

theorem reaches_attempt {body : List WriteStep} (h : Follows σ body) (rest : List WriteTask)
    (guards : Nat) (w : Writer σ) : Reaches ⟨.take (.attempt body) :: rest, false, guards, w⟩
      (after rest ((WriteStep.attempt body).run guards w)) := by
  have ended (r : WriteResult σ) :
      Reaches (after (recover :: rest) r) (after rest { r with ok := true }) :=
    .first (by obtain ⟨_ | _, _, _⟩ := r <;> rfl) .refl
  exact .first rfl ((h (recover :: rest) guards w).trans (ended _))

theorem run_block (above : Option String) (suffix : String) (body : List WriteStep) :
    (WriteStep.block above suffix body).run guards w =
      let opened := WriteResult.ofWrite guards (opening above w)
      if opened.ok then
        let inner := (WriteStep.scope body).run guards opened.writer
        if inner.ok then .ofWrite inner.guards (Writer.line ("\x7d" ++ suffix) inner.writer)
        else inner
      else opened := by
  rw [WriteStep.run, ← opening]
  split
  · rename_i refused
    rw [refused]
    rfl
  · rename_i opened
    rw [opened]
    dsimp only [WriteResult.ofWrite]
    rw [WriteStep.run, if_pos rfl]
    dsimp only
    split
    · rfl
    · rename_i failed
      rw [Bool.not_eq_true] at failed
      rw [failed]

mutual

/-- The machine takes a step to what the step leaves. -/
theorem reaches_run (step : WriteStep) (rest : List WriteTask) (guards : Nat) (w : Writer σ) :
    Reaches ⟨.take step :: rest, false, guards, w⟩ (after rest (step.run guards w)) := by
  cases step with
  | text s => exact .first rfl (does_text s rest guards)
  | line s => exact .first rfl (does_line s rest guards)
  | blank => exact .first rfl (does_lineEnd rest guards)
  | unindented s => exact .first rfl (does_unindented s rest guards)
  | indent => exact .first rfl .refl
  | dedent index =>
    refine .first rfl ?_
    rw [take, WriteStep.run]
    split
    · exact .first rfl .refl
    · exact .refl
  | block above suffix body =>
    have closing : ∀ t ∈ WriteTask.line ("\x7d" ++ suffix), ¬ t.IsMark := unmarked_line _
    rw [run_block]
    refine .first rfl ((does_opening above _ guards).trans ?_)
    refine reaches_after (List.forall_mem_cons.2 ⟨id, closing⟩) ?_
    refine (reaches_scope (reaches_runSteps body) _ _ _).trans ?_
    exact reaches_after closing (does_line _ rest _)
  | scope body => exact reaches_scope (reaches_runSteps body) rest guards w
  | attempt body => exact reaches_attempt (reaches_runSteps body) rest guards w
  | refused => exact .first rfl .refl

theorem reaches_runSteps (steps : List WriteStep) (rest : List WriteTask) (guards : Nat)
    (w : Writer σ) :
    Reaches ⟨steps.map .take ++ rest, false, guards, w⟩ (after rest (runSteps guards w steps)) := by
  cases steps with
  | nil => exact .refl
  | cons step steps =>
    rw [runSteps]
    refine (reaches_run step (steps.map .take ++ rest) guards w).trans ?_
    exact reaches_after (unmarked_steps steps) (reaches_runSteps steps rest _ _)

end

end Machine

end InteropGen
