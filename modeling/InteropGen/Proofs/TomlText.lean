import Mathlib.Tactic.SplitIfs
import InteropGen.Toml.Quoting
import InteropGen.Toml.Writer

set_option autoImplicit false

/-!
# Quoted texts of TOML that are read back

Whatever characters a text is made of, the form that the writer chooses for it is read as that text
again, as long as no further quotation mark follows.  Each form is read for itself: a form that
needs escapes for all texts, one that has none for the texts that the writer chooses it for.
-/

namespace InteropGen.Toml

open Json (push)

variable {c d : Char} {cs rest : List Char}

section Runs

variable {mark : Char} {run most : Nat}

theorem longestRun_cons_le : longestRun mark run (c :: cs) ≤ most ↔
    if c = mark then longestRun mark (run + 1) cs ≤ most
    else run ≤ most ∧ longestRun mark 0 cs ≤ most := by
  rw [longestRun]
  split
  · rfl
  · exact Nat.max_le

theorem le_longestRun : run ≤ longestRun mark run cs := by
  induction cs generalizing run with
  | nil => exact Nat.le_refl run
  | cons c cs ih =>
    rw [longestRun]
    split
    · exact Nat.le_of_succ_le ih
    · exact Nat.le_max_left run _

theorem not_mem_of_longestRun (h : longestRun mark run cs = 0) : mark ∉ cs := by
  induction cs generalizing run with
  | nil => exact List.not_mem_nil
  | cons c cs ih =>
    have h := longestRun_cons_le.1 (Nat.le_of_eq h)
    split at h
    · have := Nat.le_trans le_longestRun h
      omega
    · rename_i other
      exact List.not_mem_cons_of_ne_of_not_mem (Ne.symm other) (ih (Nat.le_zero.1 h.2))

end Runs

section Characters

/-- Characters that need no escape stand for themselves, a line feed where lines may end. -/
theorem isPlain_of_not_needsEscape (h : needsEscape c = false) (line : c ≠ '\n') :
    isPlain c = true := by
  simp only [needsEscape, isPlain, Bool.or_eq_false_iff, Bool.and_eq_false_iff,
    decide_eq_false_iff_not, bne_eq_false_iff_eq, beq_eq_false_iff_ne, Bool.or_eq_true,
    Bool.and_eq_true, decide_eq_true_eq, bne_iff_ne, beq_iff_eq] at *
  obtain ⟨(high | tab) | feed, delete⟩ := h
  · exact .inr ⟨by omega, delete⟩
  · exact .inl tab
  · exact absurd feed line

theorem codePoint_control (h : needsEscape c = true) :
    codePoint ['0', '0', upperHexDigit (c.toNat / 16), upperHexDigit (c.toNat % 16)] = some c := by
  have small : c.toNat < 0x80 := by
    simp only [needsEscape, Bool.or_eq_true, Bool.and_eq_true, decide_eq_true_eq,
      beq_iff_eq] at h
    omega
  have spelled : ∀ n < 0x80,
      codePoint ['0', '0', upperHexDigit (n / 16), upperHexDigit (n % 16)] =
        some (Char.ofNat n) := by decide
  rw [spelled c.toNat small, Char.ofNat_toNat]

/-- What stands for a character: itself, a letter behind a backslash, or its number. -/
theorem escapeControl_cases (c : Char) :
    (escapeControl c = [c] ∧ c ≠ '\\' ∧ isPlain c = true) ∨
      (∃ letter, escapeControl c = ['\\', letter] ∧ shortEscape letter = some c) ∨
      ∃ high low, escapeControl c = ['\\', 'u', '0', '0', high, low] ∧
        codePoint ['0', '0', high, low] = some c := by
  by_cases short : c = '\x08' ∨ c = '\t' ∨ c = '\n' ∨ c = '\x0c' ∨ c = '\r' ∨ c = '\\'
  · rcases short with rfl | rfl | rfl | rfl | rfl | rfl <;> exact .inr (.inl ⟨_, rfl, rfl⟩)
  · simp only [not_or] at short
    cases control : needsEscape c with
    | true =>
      refine .inr (.inr ⟨_, _, ?_, codePoint_control control⟩)
      simp [escapeControl, short, control]
    | false =>
      refine .inl ⟨?_, short.2.2.2.2.2, isPlain_of_not_needsEscape control short.2.2.1⟩
      simp [escapeControl, short, control]

theorem shortEscape_eq_some {letter : Char} (h : shortEscape letter = some c) :
    letter = 'b' ∨ letter = 't' ∨ letter = 'n' ∨ letter = 'f' ∨ letter = 'r' ∨ letter = '"' ∨
      letter = '\\' := by
  unfold shortEscape at h
  split at h <;> simp_all

end Characters

section Basic

theorem readBasic_plain (quote : c ≠ '"') (backslash : c ≠ '\\') (plain : isPlain c = true) :
    readBasic (c :: rest) = push c (readBasic rest) := by
  rw [readBasic.eq_6 c rest quote (fun _ _ _ _ _ h => absurd h backslash)
    (fun _ _ _ _ _ _ _ _ _ h => absurd h backslash) (fun _ _ h => absurd h backslash),
    if_pos plain]

theorem readBasic_short {letter : Char} (h : shortEscape letter = some c) :
    readBasic ('\\' :: letter :: rest) = push c (readBasic rest) := by
  rcases shortEscape_eq_some h with rfl | rfl | rfl | rfl | rfl | rfl | rfl
  all_goals
    cases h
    rfl

theorem readBasic_escapeControl (quote : c ≠ '"') :
    readBasic (escapeControl c ++ rest) = push c (readBasic rest) := by
  rcases escapeControl_cases c with
    ⟨eq, backslash, plain⟩ | ⟨letter, eq, short⟩ | ⟨high, low, eq, spelled⟩
  · rw [eq]
    exact readBasic_plain quote backslash plain
  · rw [eq]
    exact readBasic_short short
  · rw [eq]
    change (codePoint _).bind _ = _
    rw [spelled, Option.bind_some]
    rfl

theorem readBasic_escape (run : Nat) :
    readBasic (escape 0 false run cs ++ '"' :: rest) = some (cs, rest) := by
  induction cs generalizing run with
  | nil => rfl
  | cons c cs ih =>
    rw [escape]
    split
    · rename_i quote
      subst quote
      rw [if_neg (Nat.not_lt_zero run)]
      rw [List.cons_append, List.cons_append, readBasic_short rfl, ih]
      rfl
    · rename_i quote
      rw [if_neg (by simp), List.append_assoc, readBasic_escapeControl quote, ih]
      rfl

end Basic

/-- A quoted text is over: no quotation mark of either kind follows. -/
def EndsText (rest : List Char) : Prop := ∀ c ∈ rest.head?, c ≠ '"' ∧ c ≠ '\''

theorem EndsText.ne_cons (h : EndsText rest) (quote : d = '"' ∨ d = '\'') : rest ≠ d :: cs := by
  rintro rfl
  rcases quote with rfl | rfl
  · exact (h '"' rfl).1 rfl
  · exact (h '\'' rfl).2 rfl

/-- What the inside of a basic text begins with: a quotation mark, a line feed or a carriage return
only where the writer may leave them as they are. -/
theorem exists_start_escape (quotes : Nat) (spansLines : Bool) (run : Nat) (c : Char)
    (cs : List Char) : ∃ d ds, escape quotes spansLines run (c :: cs) = d :: ds ∧
      (d = '"' → c = '"' ∧ run < quotes) ∧ (d = '\n' → c = '\n') ∧ d ≠ '\r' := by
  rw [escape]
  split
  · rename_i quote
    subst quote
    split
    · rename_i few
      exact ⟨_, _, rfl, fun _ => ⟨rfl, few⟩, id, by decide⟩
    · exact ⟨_, _, rfl, fun h => absurd h (by decide), fun h => absurd h (by decide), by decide⟩
  · rename_i quote
    split
    · rename_i line
      rw [Bool.and_eq_true, decide_eq_true_eq] at line
      exact ⟨_, _, rfl, fun h => absurd h quote, id, by rw [line.1]; decide⟩
    · rcases escapeControl_cases c with ⟨eq, _, plain⟩ | ⟨letter, eq, _⟩ | ⟨high, low, eq, _⟩
      · refine ⟨_, _, by rw [eq]; rfl, fun h => absurd h quote, id, ?_⟩
        rintro rfl
        exact absurd plain (by decide)
      all_goals
        refine ⟨_, _, by rw [eq]; rfl, ?_, ?_, by decide⟩ <;> exact fun h => absurd h (by decide)

section MultiBasic

theorem readMultiBasic_plain (triple : ∀ t, c = '"' → rest ≠ '"' :: '"' :: t)
    (backslash : c ≠ '\\') (plain : isPlain c = true ∨ c = '\n') :
    readMultiBasic false (c :: rest) = push c (readMultiBasic false rest) := by
  have unreturned : c ≠ '\r' := by
    rintro rfl
    exact absurd plain (by decide)
  rw [readMultiBasic]
  · simp [plain]
  · exact fun t quote eq => triple t quote eq
  · exact fun _ h => absurd h unreturned
  · exact fun _ _ _ _ _ h => absurd h backslash
  · exact fun _ _ _ _ _ _ _ _ _ h => absurd h backslash
  · exact fun _ _ h => absurd h backslash

theorem readMultiBasic_short (h : shortEscape d = some c) :
    readMultiBasic false ('\\' :: d :: rest) = push c (readMultiBasic false rest) := by
  rcases shortEscape_eq_some h with rfl | rfl | rfl | rfl | rfl | rfl | rfl
  all_goals
    cases h
    rfl

theorem readMultiBasic_escapeControl (quote : c ≠ '"') :
    readMultiBasic false (escapeControl c ++ rest) = push c (readMultiBasic false rest) := by
  rcases escapeControl_cases c with
    ⟨eq, backslash, plain⟩ | ⟨letter, eq, short⟩ | ⟨high, low, eq, spelled⟩
  · rw [eq]
    exact readMultiBasic_plain (fun _ h => absurd h quote) backslash (.inl plain)
  · rw [eq]
    exact readMultiBasic_short short
  · rw [eq]
    change (codePoint _).bind _ = _
    rw [spelled, Option.bind_some]
    rfl

/-- Behind an unescaped quotation mark two more follow only when the text is over after the first or
the second of them. -/
theorem quotes_of_escape {run : Nat} {t : List Char} (behind : 0 < run)
    (h : escape 2 true run cs ++ '"' :: '"' :: '"' :: rest = '"' :: '"' :: t) :
    cs = [] ∨ cs = ['"'] ∧ run < 2 := by
  cases cs with
  | nil => exact .inl rfl
  | cons c cs =>
    obtain ⟨d, ds, eq, quoted, -⟩ := exists_start_escape 2 true run c cs
    rw [eq, List.cons_append, List.cons.injEq] at h
    obtain ⟨rfl, few⟩ := quoted h.1
    rw [escape, if_pos rfl, if_pos few] at eq
    cases cs with
    | nil => exact .inr ⟨rfl, few⟩
    | cons c cs =>
      obtain ⟨e, es, eq', quoted', -⟩ := exists_start_escape 2 true (run + 1) c cs
      rw [← (List.cons.inj eq).2, eq', List.cons_append, List.cons.injEq] at h
      have := (quoted' h.2.1).2
      omega

theorem readMultiBasic_escape (ends : EndsText rest) (run : Nat) :
    readMultiBasic false (escape 2 true run cs ++ '"' :: '"' :: '"' :: rest) = some (cs, rest) := by
  induction cs generalizing run with
  | nil =>
    exact readMultiBasic.eq_4 false rest (fun _ => ends.ne_cons (.inl rfl))
      (fun _ => ends.ne_cons (.inl rfl))
  | cons c cs ih =>
    rw [escape]
    split
    · rename_i quote
      subst quote
      split
      · -- Two quotation marks at the end are read together with the closing ones.
        by_cases last : cs = [] ∨ cs = ['"'] ∧ run + 1 < 2
        · rcases last with rfl | ⟨rfl, few⟩
          · exact readMultiBasic.eq_3 false rest (fun _ => ends.ne_cons (.inl rfl))
          · rw [escape, if_pos rfl, if_pos few]
            rfl
        · rw [List.cons_append, readMultiBasic_plain _ (by decide) (.inl (by decide)), ih]
          · rfl
          · exact fun t _ h => last (quotes_of_escape (Nat.succ_pos run) h)
      · rw [List.cons_append, List.cons_append, readMultiBasic_short rfl, ih]
        rfl
    · rename_i quote
      split
      · rename_i line
        rw [Bool.and_eq_true, decide_eq_true_eq] at line
        rw [List.cons_append, readMultiBasic_plain (fun _ h => absurd h quote)
          (by rw [line.1]; decide) (.inr line.1), ih]
        rfl
      · rw [List.append_assoc, readMultiBasic_escapeControl quote, ih]
        rfl

end MultiBasic

section Literal

theorem readLiteral_append (plain : ∀ c ∈ cs, isPlain c = true ∧ c ≠ '\'') :
    readLiteral (cs ++ '\'' :: rest) = some (cs, rest) := by
  induction cs with
  | nil => rfl
  | cons c cs ih =>
    obtain ⟨⟨plain, quote⟩, more⟩ := List.forall_mem_cons.1 plain
    rw [List.cons_append, readLiteral, if_pos plain, ih more]
    · rfl
    · exact quote

theorem readMultiLiteral_plain (triple : ∀ t, c = '\'' → rest ≠ '\'' :: '\'' :: t)
    (plain : isPlain c = true ∨ c = '\n') :
    readMultiLiteral (c :: rest) = push c (readMultiLiteral rest) := by
  have unreturned : c ≠ '\r' := by
    rintro rfl
    exact absurd plain (by decide)
  rw [readMultiLiteral]
  · simp [plain]
  · exact fun t quote eq => triple t quote eq
  · exact fun _ h => absurd h unreturned

theorem readMultiLiteral_append (ends : EndsText rest) (run : Nat)
    (plain : ∀ c ∈ cs, isPlain c = true ∨ c = '\n') (few : longestRun '\'' run cs ≤ 2) :
    readMultiLiteral (cs ++ '\'' :: '\'' :: '\'' :: rest) = some (cs, rest) := by
  induction cs generalizing run with
  | nil =>
    exact readMultiLiteral.eq_4 rest (fun _ => ends.ne_cons (.inr rfl))
      (fun _ => ends.ne_cons (.inr rfl))
  | cons c cs ih =>
    obtain ⟨here, more⟩ := List.forall_mem_cons.1 plain
    rw [longestRun_cons_le] at few
    split at few
    · rename_i quote
      subst quote
      cases cs with
      | nil => exact readMultiLiteral.eq_3 rest (fun _ => ends.ne_cons (.inr rfl))
      | cons d ds =>
        by_cases last : d = '\'' ∧ ds = []
        · obtain ⟨rfl, rfl⟩ := last
          rfl
        · rw [List.cons_append, readMultiLiteral_plain _ here, ih (run + 1) more few]
          · rfl
          · -- A third quotation mark in a row would be one too many.
            intro t _ h
            obtain ⟨rfl, behind⟩ := List.cons.inj h
            cases ds with
            | nil => exact last ⟨rfl, rfl⟩
            | cons e es =>
              obtain ⟨rfl, -⟩ := List.cons.inj behind
              rw [longestRun_cons_le, if_pos rfl, longestRun_cons_le, if_pos rfl] at few
              have := Nat.le_trans le_longestRun few
              omega
    · rename_i quote
      rw [List.cons_append, readMultiLiteral_plain (fun _ h => absurd h quote) here,
        ih 0 more few.2]
      rfl

end Literal

section Forms

theorem chooseForm_eq_literal (h : chooseForm cs = .literal) :
    (∀ c ∈ cs, isPlain c = true ∧ c ≠ '\'') ∧ cs ≠ [] := by
  refine ⟨fun c hc => ?_, by rintro rfl; cases h⟩
  simp only [chooseForm] at h
  split_ifs at h with basic literal
  simp only [Bool.and_eq_true, Bool.not_eq_true', List.any_eq_false, Bool.not_eq_true,
    decide_eq_true_eq, List.contains_eq_mem, decide_eq_false_iff_not] at literal
  obtain ⟨⟨controls, singles⟩, newline⟩ := literal
  refine ⟨isPlain_of_not_needsEscape (controls c hc) ?_, ?_⟩
  · rintro rfl
    exact newline hc
  · rintro rfl
    exact not_mem_of_longestRun singles hc

theorem chooseForm_eq_multiLiteral (h : chooseForm cs = .multiLiteral) :
    (∀ c ∈ cs, isPlain c = true ∨ c = '\n') ∧ longestRun '\'' 0 cs ≤ 2 := by
  simp only [chooseForm] at h
  split_ifs at h with basic literal multiBasic multiLiteral
  simp only [Bool.and_eq_true, Bool.not_eq_true', List.any_eq_false, Bool.not_eq_true,
    decide_eq_true_eq] at multiLiteral
  refine ⟨fun c hc => ?_, multiLiteral.2⟩
  by_cases line : c = '\n'
  · exact .inr line
  · exact .inl (isPlain_of_not_needsEscape (multiLiteral.1 c hc) line)

theorem newline?_eq_none (feed : c ≠ '\n') (unreturned : c ≠ '\r') : newline? (c :: cs) = none := by
  rw [newline?]
  · exact fun _ h => feed (List.cons.inj h).1
  · exact fun _ h => unreturned (List.cons.inj h).1

/-- The line feed behind the opening marks is there exactly when the text could lose its own. -/
theorem dropNewline_openLines {inside : List Char}
    (h : '\n' ∉ cs → ∃ d ds, inside = d :: ds ∧ d ≠ '\n' ∧ d ≠ '\r') :
    dropNewline (openLines cs ++ inside) = inside := by
  unfold openLines
  split
  · rfl
  · rename_i lineless
    obtain ⟨d, ds, rfl, feed, unreturned⟩ := h (by simpa using lineless)
    rw [List.nil_append, dropNewline, newline?_eq_none feed unreturned]
    rfl

theorem readText_basic (ends : EndsText rest) :
    readText (quoteAs .basic cs ++ rest) = some (cs, rest) := by
  have read : readBasic (escape 0 false 0 cs ++ '"' :: rest) = some (cs, rest) :=
    readBasic_escape 0
  rw [quoteAs, List.append_assoc, List.append_assoc, List.singleton_append, List.singleton_append,
    readText, read]
  intro t h
  cases cs with
  | nil => exact ends.ne_cons (.inl rfl) (List.cons.inj h).2
  | cons c cs =>
    obtain ⟨d, ds, eq, quoted, -⟩ := exists_start_escape 0 false 0 c cs
    rw [eq] at h
    exact Nat.not_lt_zero 0 (quoted (List.cons.inj h).1).2

theorem readText_literal (form : chooseForm cs = .literal) :
    readText (quoteAs .literal cs ++ rest) = some (cs, rest) := by
  obtain ⟨plain, more⟩ := chooseForm_eq_literal form
  rw [quoteAs, List.append_assoc, List.append_assoc, List.singleton_append, List.singleton_append,
    readText, readLiteral_append plain]
  intro t h
  cases cs with
  | nil => exact more rfl
  | cons c cs => exact (plain c List.mem_cons_self).2 (List.cons.inj h).1

theorem readText_multiBasic (ends : EndsText rest) :
    readText (quoteAs .multiBasic cs ++ rest) = some (cs, rest) := by
  have opened : dropNewline (openLines cs ++ (escape 2 true 0 cs ++ '"' :: '"' :: '"' :: rest)) =
      escape 2 true 0 cs ++ '"' :: '"' :: '"' :: rest := by
    refine dropNewline_openLines fun lineless => ?_
    cases cs with
    | nil => exact ⟨_, _, rfl, by decide, by decide⟩
    | cons c cs =>
      obtain ⟨d, ds, eq, -, feed, unreturned⟩ := exists_start_escape 2 true 0 c cs
      refine ⟨d, _, by rw [eq]; rfl, fun h => ?_, unreturned⟩
      exact lineless (feed h ▸ List.mem_cons_self)
  simp only [quoteAs, List.append_assoc, List.cons_append, List.nil_append]
  rw [readText, opened, readMultiBasic_escape ends]

theorem readText_multiLiteral (form : chooseForm cs = .multiLiteral) (ends : EndsText rest) :
    readText (quoteAs .multiLiteral cs ++ rest) = some (cs, rest) := by
  obtain ⟨plain, few⟩ := chooseForm_eq_multiLiteral form
  have opened : dropNewline (openLines cs ++ (cs ++ '\'' :: '\'' :: '\'' :: rest)) =
      cs ++ '\'' :: '\'' :: '\'' :: rest := by
    refine dropNewline_openLines fun lineless => ?_
    cases cs with
    | nil => exact ⟨_, _, rfl, by decide, by decide⟩
    | cons c cs =>
      have feed : c ≠ '\n' := fun h => lineless (h ▸ List.mem_cons_self)
      refine ⟨c, _, rfl, feed, ?_⟩
      rintro rfl
      exact absurd (plain _ List.mem_cons_self) (by decide)
  simp only [quoteAs, List.append_assoc, List.cons_append, List.nil_append]
  rw [readText, opened, readMultiLiteral_append ends 0 plain few]

theorem readText_quote (ends : EndsText rest) : readText (quote cs ++ rest) = some (cs, rest) := by
  unfold quote
  cases form : chooseForm cs with
  | basic => exact readText_basic ends
  | literal => exact readText_literal form
  | multiBasic => exact readText_multiBasic ends
  | multiLiteral => exact readText_multiLiteral form ends

end Forms

end InteropGen.Toml
