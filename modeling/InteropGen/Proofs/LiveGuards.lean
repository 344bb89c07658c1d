import InteropGen.Proofs.WriterMachine

set_option autoImplicit false

/-!
# Live guards

The indent level of a writer is the number of guards that are alive: those that steps have made, and
those of the bodies that are open.  A failure drops the guards of the bodies that it leaves and no
others, so the level is right again wherever the program goes on.
-/

namespace InteropGen

namespace WriteTask

/-- The guards that a task drops. -/
def drops : WriteTask → Nat
  | release => 1
  | take _ | text _ | put _ | leaveStart | startLine | recover => 0

/-- The guards that tasks are going to drop. -/
def due : List WriteTask → Nat
  | [] => 0
  | t :: rest => due rest + t.drops

theorem due_append_of_unmarked {ts rest : List WriteTask} (unmarked : ∀ t ∈ ts, ¬ t.IsMark) :
    due (ts ++ rest) = due rest := by
  induction ts with
  | nil => rfl
  | cons t ts ih =>
    obtain ⟨here, more⟩ := List.forall_mem_cons.1 unmarked
    have none : t.drops = 0 := by
      cases t with
      | release => exact absurd trivial here
      | recover | take | text | put | leaveStart | startLine => rfl
    rw [List.cons_append, due, none, ih more]
    rfl

end WriteTask

namespace Machine

open WriteTask

variable {σ : Type} {m m' : Machine σ} {rest : List WriteTask}

/-- The guards that are alive: those that steps have made, and those that are due to be dropped. -/
def live (m : Machine σ) : Nat := m.guards + due m.tasks

/-- The level counts the guards that are alive. -/
def Counts (m : Machine σ) : Prop := m.writer.level = m.live

theorem counts_take {step : WriteStep} (h : m.writer.level = m.guards + due rest) :
    (m.take rest step).Counts := by
  cases step with
  | text | line | blank | unindented | refused => exact h
  | indent =>
    change m.writer.level + 1 = m.guards + 1 + due rest
    rw [h, Nat.add_right_comm]
  | dedent index =>
    rw [take]
    split
    · change m.writer.level = m.guards - 1 + (due rest + 1)
      omega
    · exact h
  | block above suffix body =>
    change m.writer.level = m.guards + due (header above ++ line "\x7b" ++
      .take (.scope body) :: (line ("\x7d" ++ suffix) ++ rest))
    rw [List.append_assoc, due_append_of_unmarked (unmarked_header above),
      due_append_of_unmarked (unmarked_line _)]
    exact h
  | scope body =>
    change m.writer.level + 1 = m.guards + due (body.map .take ++ release :: rest)
    rw [due_append_of_unmarked (unmarked_steps body), h]
    rfl
  | attempt body =>
    change m.writer.level = m.guards + due (body.map .take ++ recover :: rest)
    rw [due_append_of_unmarked (unmarked_steps body), h]
    rfl

variable [TextSink σ]

/-- Whatever the machine does next, the level counts the live guards afterwards if it did before. -/
theorem counts_next (h : m.next = some m') (counts : m.Counts) : m'.Counts := by
  obtain ⟨tasks, failing, guards, w⟩ := m
  cases tasks with
  | nil => cases h
  | cons t rest =>
    cases t with
    | release =>
      have counted : w.level = guards + due rest + 1 := counts
      cases failing
      all_goals
        cases h
        change w.level - 1 = guards + due rest
        rw [counted, Nat.add_sub_cancel]
    | recover =>
      cases failing
      all_goals
        cases h
        exact counts
    | take step =>
      cases failing with
      | true =>
        cases h
        exact counts
      | false =>
        cases h
        exact counts_take counts
    | text s =>
      cases failing with
      | true =>
        cases h
        exact counts
      | false =>
        cases h
        change w.level = guards + due (ofText w s ++ rest)
        rw [due_append_of_unmarked (unmarked_ofText w s)]
        exact counts
    | put | leaveStart | startLine =>
      cases failing
      all_goals
        cases h
        exact counts

theorem counts_of_reaches (h : m.Reaches m') (counts : m.Counts) : m'.Counts := by
  induction h with
  | refl => exact counts
  | tail _ next ih => exact counts_next next ih

omit [TextSink σ] in
theorem counts_start (sink : σ) (unit : String) (steps : List WriteStep) :
    (start sink unit steps).Counts := by
  change 0 = 0 + due (steps.map .take)
  rw [← List.append_nil (steps.map WriteTask.take), due_append_of_unmarked (unmarked_steps steps)]
  rfl

/-- A failing program writes nothing. -/
theorem sink_next (h : m.next = some m') (failing : m.failing = true) :
    m'.writer.sink = m.writer.sink := by
  obtain ⟨tasks, _, guards, w⟩ := m
  cases failing
  cases tasks with
  | nil => cases h
  | cons t rest =>
    cases t
    all_goals
      cases h
      rfl

end Machine

open Writer

/-- A write in two parts fails in the first or in the second. -/
theorem Writer.andThen_refused {σ : Type} {w left : Writer σ} {x y : Write σ}
    (h : Write.andThen x y w = (false, left)) :
    x w = (false, left) ∨ ∃ between, x w = (true, between) ∧ y between = (false, left) := by
  rw [Write.andThen] at h
  split at h
  · rename_i between done
    exact .inr ⟨between, done, h⟩
  · rename_i done
    cases h
    exact .inl done

variable {σ : Type} [TextSink σ] {guards : Nat} {w : Writer σ} {above : Option String}
  {suffix : String} {body : List WriteStep}

/-- The ways in which a block fails, with what it leaves.  Only in the last of them the closing
brace has been written. -/
inductive FailedBlock (guards : Nat) (w : Writer σ) (above : Option String) (suffix : String)
    (body : List WriteStep) : WriteResult σ → Prop where
  /-- The header or the opening brace is refused, and nothing is written after it. -/
  | opening {left : Writer σ} (refused : opening above w = (false, left)) :
      FailedBlock guards w above suffix body ⟨false, guards, left⟩
  /-- The body fails, and nothing is written after it. -/
  | body {entered : Writer σ} {inner : WriteResult σ}
      (opened : opening above w = (true, entered))
      (ran : runSteps guards entered.raiseLevel body = inner) (failed : inner.ok = false) :
      FailedBlock guards w above suffix body ⟨false, inner.guards, inner.writer.lowerLevel⟩
  /-- The closing brace is refused, and nothing is written after it. -/
  | closing {entered left : Writer σ} {inner : WriteResult σ}
      (opened : opening above w = (true, entered))
      (ran : runSteps guards entered.raiseLevel body = inner) (ended : inner.ok = true)
      (refused : text ("\x7d" ++ suffix) inner.writer.lowerLevel = (false, left)) :
      FailedBlock guards w above suffix body ⟨false, inner.guards, left⟩
  /-- The closing brace is written, but the end of its line is refused. -/
  | lineEnd {entered closed left : Writer σ} {inner : WriteResult σ}
      (opened : opening above w = (true, entered))
      (ran : runSteps guards entered.raiseLevel body = inner) (ended : inner.ok = true)
      (written : text ("\x7d" ++ suffix) inner.writer.lowerLevel = (true, closed))
      (refused : raw "\n" closed = (false, left)) :
      FailedBlock guards w above suffix body ⟨false, inner.guards, left⟩

theorem failedBlock_run (h : ((WriteStep.block above suffix body).run guards w).ok = false) :
    FailedBlock guards w above suffix body ((WriteStep.block above suffix body).run guards w) := by
  rw [WriteStep.run, ← opening] at h ⊢
  cases begun : opening above w with | mk opened entered
  rw [begun] at h
  cases opened with
  | false => exact .opening begun
  | true =>
    dsimp only at h ⊢
    generalize ran : runSteps guards entered.raiseLevel body = inner at h ⊢
    split at h
    · rename_i ended
      rw [if_pos ended]
      cases last : line ("\x7d" ++ suffix) inner.writer.lowerLevel with | mk closed left
      rw [last] at h
      cases closed with
      | true => cases h
      | false =>
        rcases andThen_refused last with refused | ⟨closed, written, refused⟩
        · exact .closing begun ran ended refused
        · rcases andThen_refused refused with refused | ⟨_, _, never⟩
          · exact .lineEnd begun ran ended written refused
          · cases never
    · rename_i failed
      rw [if_neg failed]
      exact .body begun ran (Bool.eq_false_iff.2 failed)

namespace Machine

open WriteTask

/-- The indent level survives errors.  A program gets where its steps lead, and in every state on
the way the level is the number of live guards.  A guard is never dropped at level zero, and a
failing program writes nothing until it has left the body that is only attempted.  A block leaves
the level where it was but for the guards that its body has made or dropped, and if it fails, it
writes its closing brace only when the end of that line is all that is refused. -/
theorem levels_survive (sink : σ) (unit : String) (steps : List WriteStep) :
    (start sink unit steps).Reaches (after [] (runSteps 0 { sink, unit } steps)) ∧
    ∀ m, (start sink unit steps).Reaches m →
      m.writer.level = m.live ∧
      (∀ rest, m.tasks = release :: rest → 0 < m.writer.level) ∧
      (∀ m', m.failing = true → m.next = some m' → m'.writer.sink = m.writer.sink) ∧
      ∀ above suffix body rest, m.failing = false →
        m.tasks = .take (.block above suffix body) :: rest →
        let r := (WriteStep.block above suffix body).run m.guards m.writer
        m.Reaches (after rest r) ∧
        r.writer.level + m.guards = m.writer.level + r.guards ∧
        (r.ok = false → FailedBlock m.guards m.writer above suffix body r) := by
  have begun := counts_start sink unit steps
  refine ⟨?_, fun m reached => ?_⟩
  · have reaches := reaches_runSteps steps [] 0 ({ sink, unit } : Writer σ)
    rwa [List.append_nil] at reaches
  · have counts := counts_of_reaches reached begun
    refine ⟨counts, fun rest dropping => ?_, fun m' failing next => sink_next next failing, ?_⟩
    · rw [counts, live, dropping]
      exact Nat.succ_pos _
    · intro above suffix body rest going taking r
      have reaches : m.Reaches (after rest r) := by
        obtain ⟨tasks, failing, guards, w⟩ := m
        cases going
        cases taking
        exact reaches_run _ rest guards w
      have counts' : r.writer.level = r.guards + due rest := counts_of_reaches reaches counts
      have counted : m.writer.level = m.guards + due rest := by
        rw [counts, live, taking]
        rfl
      refine ⟨reaches, ?_, failedBlock_run⟩
      omega

-- The guard made in the failed body is alive after it, so the next line stands one level deeper.
example : (runSteps 0 ({ sink := {}, unit := "  " } : Writer)
    [.attempt [.block (some "a") "" [.scope [.indent, .line "b", .refused]]],
      .line "c"]).writer.sink.text = "a\n\x7b\n      b\n  c\n" := by
  decide +kernel

/-- A block can fail after its closing brace, when only the end of the line does not fit.  A body
that fails can have dropped a guard from before it, and the block then leaves a lower level. -/
theorem closed_or_lowered_failure :
    let small : Writer := { sink := { limit := some 5 }, unit := "    " }
    let closed := (WriteStep.block (some "h") "" []).run 0 small
    let large : Writer := { sink := {}, unit := "    " }
    let before := runSteps 0 large [.indent]
    let lowered :=
      (WriteStep.block (some "h") "" [.dedent 0, .refused]).run before.guards before.writer
    (closed.ok = false ∧ closed.writer.sink.text = "h\n\x7b\n\x7d") ∧
      before.writer.level = 1 ∧ lowered.ok = false ∧ lowered.writer.level = 0 := by
  decide +kernel

end Machine

end InteropGen
