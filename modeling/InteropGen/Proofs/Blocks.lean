import InteropGen.Proofs.Enumerations

set_option autoImplicit false

/-!
# Blocks in generated files

A block is a headline and lines between braces of their own.  A reader of declarations looks at the
blocks without a block inside, each with the lines directly above and below it.
-/

namespace InteropGen

open Text

structure Block where
  above : List Char
  headline : List Char
  inside : List (List Char)
  below : List Char

def opensBlock (line : List Char) : Bool := line = ['\x7b']

def isBrace (line : List Char) : Bool := opensBlock line || startsWithBrace line

def block? (above : List Char) : List (List Char) → Option Block
  | headline :: opening :: rest =>
    match rest.dropWhile fun line => !isBrace line with
    | closing :: below =>
      if opensBlock opening && startsWithBrace closing then
        some ⟨above, headline, rest.takeWhile fun line => !isBrace line, below.headD []⟩
      else none
    | [] => none
  | _ => none

def blocks : List (List Char) → List Block
  | [] => []
  | line :: rest => (block? line rest).toList ++ blocks rest

section Blocks

variable {α : Type} {read : Block → Option α} {line above headline closing : List Char}
  {inside lines rest : List (List Char)} {b : Block} {found : List α}

theorem headline_of_block? (h : block? above (headline :: rest) = some b) :
    b.headline = headline := by
  cases rest with
  | nil => cases h
  | cons opening rest =>
    rw [block?] at h
    split at h
    · split at h
      · cases h
        rfl
      · cases h
    · cases h

def StartsCalmly (lines : List (List Char)) : Prop := ∀ x ∈ lines.take 2, opensBlock x = false

theorem startsCalmly_append (calm : ∀ x ∈ lines, opensBlock x = false) (h : StartsCalmly rest) :
    StartsCalmly (lines ++ rest) := by
  intro x hx
  rw [List.take_append, List.mem_append] at hx
  rcases hx with hx | hx
  · exact calm x (List.mem_of_mem_take hx)
  · exact h x (List.take_subset_take_left _ (Nat.sub_le _ _) hx)

theorem StartsCalmly.closed (h : StartsCalmly rest) {i : Nat} (hi : i < 2) :
    ∀ x ∈ rest[i]?, opensBlock x = false := by
  intro x hx
  refine h x (List.mem_of_getElem? (i := i) ?_)
  rwa [List.getElem?_take_of_lt hi]

theorem blocks_cons (closed : ∀ x ∈ rest[1]?, opensBlock x = false) :
    blocks (line :: rest) = blocks rest := by
  have none : block? line rest = none := by
    match rest with
    | [] => rfl
    | [headline] => rfl
    | headline :: opening :: rest =>
      have closed : opensBlock opening = false := closed opening rfl
      rw [block?, closed]
      split <;> rfl
  rw [blocks, none, Option.toList_none, List.nil_append]

theorem blocks_append_of_calm (calm : ∀ x ∈ lines, opensBlock x = false) (h : StartsCalmly rest) :
    blocks (lines ++ rest) = blocks rest := by
  induction lines with
  | nil => rfl
  | cons line lines ih =>
    have later : ∀ x ∈ lines, opensBlock x = false :=
      fun x hx => calm x (List.mem_cons_of_mem line hx)
    rw [List.cons_append, blocks_cons ((startsCalmly_append later h).closed (by decide)), ih later]

theorem blocks_block (quiet : ∀ x ∈ inside, isBrace x = false)
    (closes : startsWithBrace closing = true) (h : StartsCalmly (closing :: rest)) :
    blocks (above :: headline :: ['\x7b'] :: (inside ++ closing :: rest)) =
      ⟨above, headline, inside, rest.headD []⟩ :: blocks (closing :: rest) := by
  have calm : ∀ x ∈ inside, opensBlock x = false :=
    fun x hx => (Bool.or_eq_false_iff.1 (quiet x hx)).1
  have through : ∀ x ∈ inside, (!isBrace x) = true := by simpa using quiet
  have stops : ¬ (!isBrace closing) = true := by simp [isBrace, closes]
  have found : block? above (headline :: ['\x7b'] :: (inside ++ closing :: rest)) =
      some ⟨above, headline, inside, rest.headD []⟩ := by
    rw [block?, List.dropWhile_append_of_pos through, List.takeWhile_append_of_pos through,
      List.dropWhile_cons_of_neg (p := fun line => !isBrace line) stops,
      List.takeWhile_cons_of_neg (p := fun line => !isBrace line) stops, List.append_nil]
    simp [closes, opensBlock]
  have body := startsCalmly_append calm h
  rw [blocks, found, blocks_cons, blocks_cons (body.closed (by decide)),
    blocks_append_of_calm calm h]
  · rfl
  · exact body.closed (by decide : 0 < 2)

/-- What is left of a file behind a block: a blank line, the end of an outer block, or nothing. -/
structure IsGap (lines : List (List Char)) : Prop where
  calm : StartsCalmly lines
  head : ∀ x ∈ lines.head?, x = [] ∨ startsWithBrace x = true

theorem opensBlock_closing (closes : startsWithBrace closing = true) :
    opensBlock closing = false := by
  refine eq_false_of_ne_true fun opens => ?_
  have eq : closing = ['\x7b'] := of_decide_eq_true opens
  rw [eq] at closes
  exact absurd closes (by decide)

theorem blocks_shown {marks after : List (List Char)}
    (marks_calm : ∀ x ∈ marks, opensBlock x = false) (headline_calm : opensBlock headline = false)
    (quiet : ∀ x ∈ inside, isBrace x = false) (closes : startsWithBrace closing = true)
    (after_calm : ∀ x ∈ after, opensBlock x = false) (gap : IsGap rest) :
    blocks (above :: (marks ++ headline :: ['\x7b'] :: (inside ++ closing :: (after ++ rest)))) =
      ⟨marks.getLastD above, headline, inside, (after ++ rest).headD []⟩ :: blocks rest := by
  have ends : ∀ x ∈ closing :: after, opensBlock x = false :=
    List.forall_mem_cons.2 ⟨opensBlock_closing closes, after_calm⟩
  induction marks generalizing above with
  | nil =>
    have calm : StartsCalmly (closing :: (after ++ rest)) := startsCalmly_append ends gap.calm
    have behind : blocks (closing :: (after ++ rest)) = blocks rest :=
      blocks_append_of_calm ends gap.calm
    rw [List.nil_append, blocks_block quiet closes calm, behind]
    rfl
  | cons mark marks ih =>
    obtain ⟨mark_calm, marks_calm⟩ := List.forall_mem_cons.1 marks_calm
    rw [List.cons_append, blocks_cons, ih marks_calm]
    · rw [List.getLastD_cons]
    · intro x hx
      cases marks with
      | nil =>
        cases hx
        exact headline_calm
      | cons next marks =>
        cases hx
        exact marks_calm _ List.mem_cons_self

/-- Below the line `lead`, a reader finds `found` in the lines, whatever stands behind them. -/
structure Reads (read : Block → Option α) (lead : List Char) (lines : List (List Char))
    (found : List α) : Prop where
  begins : ∃ x xs, lines = x :: xs ∧ opensBlock x = false
  reads : ∀ rest, IsGap rest →
    (blocks (lead :: (lines ++ rest))).filterMap read = found ++ (blocks rest).filterMap read

theorem reads_block {marks after : List (List Char)} {a : α}
    (marks_calm : ∀ x ∈ marks, opensBlock x = false) (headline_calm : opensBlock headline = false)
    (quiet : ∀ x ∈ inside, isBrace x = false) (closes : startsWithBrace closing = true)
    (after_calm : ∀ x ∈ after, opensBlock x = false)
    (readable : ∀ rest, IsGap rest →
      read ⟨marks.getLastD above, headline, inside, (after ++ rest).headD []⟩ = some a) :
    Reads read above (marks ++ headline :: ['\x7b'] :: (inside ++ closing :: after)) [a] := by
  constructor
  · cases marks with
    | nil => exact ⟨_, _, rfl, headline_calm⟩
    | cons mark marks => exact ⟨_, _, rfl, marks_calm mark List.mem_cons_self⟩
  · intro rest gap
    simp only [List.append_assoc, List.cons_append]
    rw [blocks_shown marks_calm headline_calm quiet closes after_calm gap,
      List.filterMap_cons_some (readable rest gap)]
    rfl

theorem Reads.isGap (h : Reads read [] lines found) : IsGap ([] :: (lines ++ rest)) := by
  obtain ⟨x, xs, rfl, calm⟩ := h.begins
  refine ⟨fun y hy => ?_, fun y hy => ?_⟩
  · have two : y = [] ∨ y = x := by simpa using hy
    rcases two with rfl | rfl
    · rfl
    · exact calm
  · cases hy
    exact .inl rfl

/-- Pieces with a blank line above each are read one after the other. -/
theorem filterMap_blocks_pieces {pieces : List (List (List Char))} {founds : List (List α)}
    (each : List.Forall₂ (Reads read []) pieces founds) (gap : IsGap rest) :
    (blocks ((pieces.flatMap fun p => [] :: p) ++ rest)).filterMap read =
        founds.flatten ++ (blocks rest).filterMap read ∧
      IsGap ((pieces.flatMap fun p => [] :: p) ++ rest) := by
  induction each with
  | nil => exact ⟨rfl, gap⟩
  | cons head _ ih =>
    rw [List.flatMap_cons, List.cons_append, List.cons_append, List.append_assoc]
    refine ⟨?_, head.isGap⟩
    rw [head.reads _ ih.2, ih.1, List.flatten_cons, List.append_assoc]

theorem filterMap_blocks_cons (unread : ∀ b : Block, b.headline = headline → read b = none) :
    (blocks (line :: headline :: rest)).filterMap read =
      (blocks (headline :: rest)).filterMap read := by
  rw [blocks, List.filterMap_append]
  cases found : block? line (headline :: rest) with
  | none => rfl
  | some b =>
    rw [Option.toList_some, List.filterMap_cons_none (unread b (headline_of_block? found))]
    rfl

end Blocks

end InteropGen
