import InteropGen.Code.Header
import InteropGen.Proofs.Words

set_option autoImplicit false

/-!
# Reading generated files back

The text of generated code is its lines, each behind its indentation.  As long as no line holds a
line feed of its own, cutting the text at line feeds gives those lines back.
-/

namespace InteropGen

open Text

namespace Text

variable {sep : Char} {xs ys : List Char}

theorem pieces_of_not_mem (h : sep ∉ xs) : pieces sep xs = [xs] := by
  induction xs with
  | nil => rfl
  | cons x xs ih =>
    obtain ⟨hx, hxs⟩ := not_or.1 (mt List.mem_cons.2 h)
    rw [pieces, if_neg (Ne.symm hx), ih hxs]

theorem pieces_append_sep :
    pieces sep (xs ++ sep :: ys) = pieces sep xs ++ pieces sep ys := by
  induction xs with
  | nil => simp [pieces]
  | cons x xs ih =>
    rw [List.cons_append, pieces, pieces, ih]
    by_cases hx : x = sep
    · rw [if_pos hx, if_pos hx, List.cons_append]
    · rw [if_neg hx, if_neg hx]
      cases ps : pieces sep xs with
      | nil => exact absurd ps (pieces_ne_nil sep xs)
      | cons piece rest => rfl

/-- Only separators are left out of the pieces. -/
theorem exists_piece_of_mem {x : Char} (hx : x ∈ xs) (ne : x ≠ sep) :
    ∃ piece ∈ pieces sep xs, x ∈ piece := by
  induction xs with
  | nil => cases hx
  | cons y ys ih =>
    rw [pieces]
    by_cases hy : y = sep
    · rw [if_pos hy]
      rcases List.mem_cons.1 hx with rfl | hx
      · exact absurd hy ne
      · obtain ⟨piece, hpiece, mem⟩ := ih hx
        exact ⟨piece, List.mem_cons_of_mem _ hpiece, mem⟩
    · rw [if_neg hy]
      cases ps : pieces sep ys with
      | nil => exact absurd ps (pieces_ne_nil sep ys)
      | cons first rest =>
        rcases List.mem_cons.1 hx with rfl | hx
        · exact ⟨x :: first, List.mem_cons_self, List.mem_cons_self⟩
        · obtain ⟨piece, hpiece, mem⟩ := ih hx
          rw [ps] at hpiece
          rcases List.mem_cons.1 hpiece with rfl | hpiece
          · exact ⟨y :: piece, List.mem_cons_self, List.mem_cons_of_mem y mem⟩
          · exact ⟨piece, List.mem_cons_of_mem _ hpiece, mem⟩

def fileLines (file : String) : List (List Char) := pieces '\n' file.toList

/-- The lines of a file without the blanks in front. -/
def trimmedLines (file : String) : List (List Char) := (fileLines file).map trimLeft

theorem trimLeft_replicate (n : Nat) : trimLeft (List.replicate n ' ' ++ xs) = trimLeft xs := by
  induction n with
  | zero => rfl
  | succ n ih =>
    rw [List.replicate_succ, List.cons_append, trimLeft, List.dropWhile_cons_of_pos (by decide)]
    exact ih

theorem trimLeft_append (h : trimLeft xs ≠ []) : trimLeft (xs ++ ys) = trimLeft xs ++ ys := by
  rw [trimLeft, List.dropWhile_append]
  split
  · rename_i empty
    exact absurd (List.isEmpty_iff.1 empty) h
  · rfl

theorem trimLeft_of_head {x : Char} (h : isBlank x = false) : trimLeft (x :: xs) = x :: xs := by
  rw [trimLeft, List.dropWhile_cons_of_neg (by simp [h])]

theorem isBlank_of_isIdentifierPart {c : Char} (h : isIdentifierPart c = true) :
    isBlank c = false := by
  have range : (48 ≤ c.toNat ∧ c.toNat ≤ 57) ∨ (65 ≤ c.toNat ∧ c.toNat ≤ 90) ∨ c.toNat = 95 ∨
      97 ≤ c.toNat ∧ c.toNat ≤ 122 := by
    unfold isIdentifierPart Char.isAlphanum Char.isAlpha Char.isUpper Char.isLower Char.isDigit at h
    simp only [Bool.or_eq_true, Bool.and_eq_true, decide_eq_true_eq, beq_iff_eq,
      UInt32.le_iff_toNat_le, ge_iff_le] at h
    rcases h with ((⟨h₁, h₂⟩ | ⟨h₁, h₂⟩) | ⟨h₁, h₂⟩) | rfl
    · exact .inr (.inl ⟨h₁, h₂⟩)
    · exact .inr (.inr (.inr ⟨h₁, h₂⟩))
    · exact .inl ⟨h₁, h₂⟩
    · exact .inr (.inr (.inl rfl))
  simp only [isBlank, Bool.or_eq_false_iff, Bool.and_eq_false_iff, decide_eq_false_iff_not,
    beq_eq_false_iff_ne]
  omega

theorem trimLeft_of_unindented (h : ∀ c ∈ xs.head?, isBlank c = false) : trimLeft xs = xs := by
  cases xs with
  | nil => rfl
  | cons x xs => exact trimLeft_of_head (h x rfl)

theorem isOneLine_of_mem_lines {text line : String} (h : line ∈ lines text) : IsOneLine line := by
  obtain ⟨cs, hcs, rfl⟩ := List.mem_map.1 h
  have ended (ps : List (List Char)) (clean : ∀ p ∈ ps, '\n' ∉ p) :
      ∀ p ∈ endedLines ps, '\n' ∉ p := by
    induction ps with
    | nil => exact fun p hp => absurd hp List.not_mem_nil
    | cons a rest ih =>
      have ha := clean a List.mem_cons_self
      have hrest := ih fun p hp => clean p (List.mem_cons_of_mem a hp)
      cases rest with
      | nil =>
        intro p hp
        rw [endedLines] at hp
        split at hp
        · cases hp
        · rwa [List.mem_singleton.1 hp]
      | cons b rest =>
        intro p hp
        rw [endedLines] at hp
        · rcases List.mem_cons.1 hp with rfl | hp
          · rw [dropReturn]
            split
            · exact fun mem => ha (List.dropLast_subset a mem)
            · exact ha
          · exact hrest p hp
        · exact fun h => nomatch h
  rw [IsOneLine, String.toList_ofList]
  exact ended _ (fun p hp => not_mem_of_mem_pieces hp) cs hcs

end Text

theorem filterMap_flatMap_eq_map {α β γ : Type} {xs : List α} {f : α → List β} {g : β → Option γ}
    {h : α → γ} (each : ∀ x ∈ xs, (f x).filterMap g = [h x]) :
    (xs.flatMap f).filterMap g = xs.map h := by
  induction xs with
  | nil => rfl
  | cons x xs ih =>
    have rest := ih fun y hy => each y (List.mem_cons_of_mem x hy)
    rw [List.flatMap_cons, List.filterMap_append, each x List.mem_cons_self, rest]
    rfl

theorem filterMap_map_eq_map {α β γ : Type} {xs : List α} {f : α → β} {g : β → Option γ} {h : α → γ}
    (each : ∀ x ∈ xs, g (f x) = some (h x)) : (xs.map f).filterMap g = xs.map h := by
  induction xs with
  | nil => rfl
  | cons x xs ih =>
    have rest := ih fun y hy => each y (List.mem_cons_of_mem x hy)
    rw [List.map_cons, List.filterMap_cons_some (each x List.mem_cons_self), rest, List.map_cons]

namespace Code

/-- The lines without their indentation. -/
def texts (c : Code) : List String := c.map Line.text

section Texts

variable {c d : Code} {x : String} {xs : List String} {α : Type} {as : List α} {f : α → Code}

@[simp] theorem texts_nil : texts [] = [] := rfl

@[simp] theorem texts_append : texts (c ++ d) = texts c ++ texts d := List.map_append

@[simp] theorem texts_line : texts (line x) = [x] := rfl

@[simp] theorem texts_lines : texts (lines xs) = xs := by
  rw [texts, lines, List.map_map]
  exact List.map_id xs

@[simp] theorem texts_blank : texts blank = [""] := rfl

@[simp] theorem texts_nest : texts (nest c) = texts c := by
  rw [texts, nest, List.map_map]
  rfl

@[simp] theorem texts_bracesEnding :
    texts (bracesEnding x c) = "\x7b" :: texts c ++ ["\x7d" ++ x] := by
  rw [bracesEnding, texts_append, texts_append, texts_nest]
  rfl

@[simp] theorem texts_braces : texts (braces c) = "\x7b" :: texts c ++ ["\x7d"] := texts_bracesEnding

@[simp] theorem texts_block : texts (block x c) = x :: "\x7b" :: texts c ++ ["\x7d"] := by
  rw [block, texts_append, texts_braces]
  rfl

@[simp] theorem texts_blockEnding {y : String} :
    texts (blockEnding x y c) = x :: "\x7b" :: texts c ++ ["\x7d" ++ y] := by
  rw [blockEnding, texts_append, texts_bracesEnding]
  rfl

@[simp] theorem texts_given {b : Bool} : texts (given b c) = if b then texts c else [] := by
  cases b <;> rfl

@[simp] theorem texts_flatMap : texts (as.flatMap f) = as.flatMap fun a => texts (f a) := by
  rw [texts, List.map_flatMap]
  rfl

theorem mem_texts_apart : x ∈ texts (apart c) ↔ c ≠ [] ∧ x = "" ∨ x ∈ texts c := by
  cases c with
  | nil => simp [apart]
  | cons l c => simp [apart, texts, blank]

theorem texts_infix_flatMap {a : α} (h : a ∈ as) : texts (f a) <:+: texts (as.flatMap f) := by
  rw [texts_flatMap]
  exact List.infix_of_mem_flatten (List.mem_map_of_mem h)

theorem texts_infix_left (h : texts c <:+: texts d) (below : Code) :
    texts c <:+: texts (d ++ below) := by
  rw [texts_append]
  exact h.trans (List.prefix_append _ _).isInfix

theorem texts_infix_right (h : texts c <:+: texts d) (above : Code) :
    texts c <:+: texts (above ++ d) := by
  rw [texts_append]
  exact h.trans (List.suffix_append _ _).isInfix

end Texts

def Each (p : String → Prop) (c : Code) : Prop := ∀ x ∈ c.texts, p x

/-- Blank lines and braces have the property. -/
structure IsFrame (p : String → Prop) : Prop where
  empty : p ""
  opening : p "\x7b"
  closing : p "\x7d"

section Each

variable {p q : String → Prop} {c d : Code} {x y : String} {xs ys : List String}

theorem each_nil : Each p [] := fun _ h => absurd h List.not_mem_nil

theorem Each.imp (h : Each p c) (sub : ∀ x, p x → q x) : Each q c := fun x hx => sub x (h x hx)

theorem each_append : Each p (c ++ d) ↔ Each p c ∧ Each p d := by
  rw [Each, texts_append, List.forall_mem_append]
  rfl

theorem each_line : Each p (line x) ↔ p x := by
  rw [Each, texts_line, List.forall_mem_singleton]

theorem each_lines : Each p (lines xs) ↔ ∀ x ∈ xs, p x := by
  rw [Each, texts_lines]

theorem each_lines_cons : Each p (lines (x :: xs)) ↔ p x ∧ Each p (lines xs) := by
  rw [each_lines, each_lines, List.forall_mem_cons]

theorem each_lines_append : Each p (lines (xs ++ ys)) ↔ Each p (lines xs) ∧ Each p (lines ys) := by
  simp only [each_lines, List.forall_mem_append]

theorem each_nest : Each p (nest c) ↔ Each p c := by
  rw [Each, texts_nest, Each]

theorem each_given (b : Bool) (h : Each p c) : Each p (given b c) := by
  cases b with
  | false => exact each_nil
  | true => exact h

theorem each_flatMap {α : Type} {as : List α} {f : α → Code} (h : ∀ a ∈ as, Each p (f a)) :
    Each p (as.flatMap f) := by
  intro x hx
  rw [texts_flatMap] at hx
  obtain ⟨a, ha, hx⟩ := List.mem_flatMap.1 hx
  exact h a ha x hx

theorem each_getD {o : Option Code} (h : ∀ c ∈ o, Each p c) : Each p (o.getD []) := by
  cases o with
  | none => exact each_nil
  | some c => exact h c rfl

variable (frame : IsFrame p)
include frame

theorem each_blank : Each p blank := each_line.2 frame.empty

theorem each_apart (h : Each p c) : Each p (apart c) := by
  intro x hx
  rcases mem_texts_apart.1 hx with ⟨_, rfl⟩ | hx
  · exact frame.empty
  · exact h x hx

theorem each_bracesEnding : Each p (bracesEnding y c) ↔ Each p c ∧ p ("\x7d" ++ y) := by
  rw [bracesEnding, each_append, each_append, each_line, each_line, each_nest,
    and_iff_right frame.opening]

theorem each_braces : Each p (braces c) ↔ Each p c := by
  rw [braces, each_bracesEnding frame]
  exact and_iff_left frame.closing

theorem each_block : Each p (block x c) ↔ p x ∧ Each p c := by
  rw [block, each_append, each_line, each_braces frame]

theorem each_blockEnding :
    Each p (blockEnding x y c) ↔ p x ∧ Each p c ∧ p ("\x7d" ++ y) := by
  rw [blockEnding, each_append, each_line, each_bracesEnding frame]

end Each

def shownLines (unit : String) (c : Code) : List (List Char) :=
  c.map fun l => (l.lead unit).toList ++ l.text.toList

theorem lead_toList (config : Config) (l : Line) :
    ∃ n, (l.lead config.indentUnit).toList = List.replicate n ' ' := by
  rw [Line.lead]
  split
  · exact ⟨0, rfl⟩
  · refine ⟨l.depth * config.output.indent, ?_⟩
    rw [String.toList_join, List.flatMap_replicate, Config.indentUnit, String.toList_ofList,
      List.flatten_replicate_replicate]

theorem toList_render_cons (unit : String) (l : Line) (c : Code) :
    (render unit (l :: c)).toList =
      ((l.lead unit).toList ++ l.text.toList) ++ '\n' :: (c.render unit).toList := by
  rw [← List.singleton_append, render_append]
  simp [render, Line.render]

theorem fileLines_render_append (unit : String) (c d : Code) :
    fileLines (render unit (c ++ d)) =
      (c.shownLines unit).flatMap (pieces '\n') ++ fileLines (d.render unit) := by
  induction c with
  | nil => rfl
  | cons l c ih =>
    rw [List.cons_append, fileLines, toList_render_cons, pieces_append_sep]
    change _ ++ fileLines (render unit (c ++ d)) = _
    rw [ih, ← List.append_assoc, ← List.flatMap_cons]
    rfl

theorem pieces_shownLines {config : Config} {c : Code} (h : ∀ x ∈ c.texts, IsOneLine x) :
    (c.shownLines config.indentUnit).flatMap (pieces '\n') = c.shownLines config.indentUnit := by
  rw [shownLines, List.flatMap_map, List.map_eq_flatMap]
  refine List.flatMap_congr fun l hl => pieces_of_not_mem ?_
  obtain ⟨n, hn⟩ := lead_toList config l
  rw [hn, List.mem_append, not_or]
  exact ⟨fun mem => absurd (List.eq_of_mem_replicate mem) (by decide),
    h l.text (List.mem_map_of_mem hl)⟩

theorem fileLines_render {config : Config} {c : Code} (h : ∀ x ∈ c.texts, IsOneLine x) :
    fileLines (c.render config.indentUnit) = c.shownLines config.indentUnit ++ [[]] := by
  have whole := fileLines_render_append config.indentUnit c []
  rwa [List.append_nil, pieces_shownLines h] at whole

end Code

namespace Config

open Code

variable {c : Config} {body : Code}

theorem isOneLine_header : ∀ x ∈ c.header.texts, IsOneLine x := by
  intro x hx
  rw [header, texts_lines] at hx
  obtain ⟨comment, hcomment, rfl⟩ := List.mem_map.1 hx
  rw [commentLine]
  split
  · decide
  · exact (isOneLine_of_mem_lines hcomment).prefixed (by decide)

/-- The lines of a generated file are the comment lines, the lines of the code, and an empty one. -/
theorem fileLines_generatedFile (h : ∀ x ∈ body.texts, IsOneLine x) :
    fileLines (c.generatedFile body) =
      c.header.shownLines c.indentUnit ++ body.shownLines c.indentUnit ++ [[]] := by
  rw [generatedFile, fileLines_render]
  · rw [shownLines, List.map_append]
    rfl
  · rw [texts_append]
    exact List.forall_mem_append.2 ⟨isOneLine_header, h⟩

theorem mem_shownLines_header {cs : List Char} (h : cs ∈ c.header.shownLines c.indentUnit) :
    ∃ rest, cs = '/' :: rest := by
  obtain ⟨l, hl, rfl⟩ := List.mem_map.1 h
  obtain ⟨text, htext, rfl⟩ := List.mem_map.1 hl
  obtain ⟨comment, _, rfl⟩ := List.mem_map.1 htext
  have margin : Line.lead c.indentUnit ⟨0, commentLine comment, false⟩ = "" := by
    rw [Line.lead]
    split <;> rfl
  rw [margin, commentLine]
  split
  · exact ⟨['/'], by simp⟩
  · exact ⟨'/' :: ' ' :: comment.toList, by simp⟩

theorem trimLeft_shownLines (code : Code) :
    (code.shownLines c.indentUnit).map trimLeft = code.texts.map fun x => trimLeft x.toList := by
  rw [shownLines, texts, List.map_map, List.map_map]
  refine List.map_congr_left fun l _ => ?_
  obtain ⟨n, hn⟩ := lead_toList c l
  simp only [Function.comp_apply, hn, trimLeft_replicate]

theorem trimLeft_header :
    (c.header.shownLines c.indentUnit).map trimLeft = c.header.shownLines c.indentUnit := by
  refine (List.map_congr_left fun cs hcs => ?_).trans (List.map_id _)
  obtain ⟨rest, rfl⟩ := mem_shownLines_header hcs
  exact trimLeft_of_head (by decide)

section Parts

variable {above below : Code}

theorem trimmedLines_render_append (h : ∀ x ∈ above.texts, IsOneLine x) :
    trimmedLines (render c.indentUnit (above ++ below)) =
      above.texts.map (fun x => trimLeft x.toList) ++ trimmedLines (below.render c.indentUnit) := by
  rw [trimmedLines, fileLines_render_append, pieces_shownLines h, List.map_append,
    trimLeft_shownLines]
  rfl

theorem trimmedLines_render (h : ∀ x ∈ body.texts, IsOneLine x) :
    trimmedLines (body.render c.indentUnit) =
      body.texts.map (fun x => trimLeft x.toList) ++ [[]] := by
  have whole : trimmedLines (render c.indentUnit (body ++ [])) = _ := trimmedLines_render_append h
  rwa [List.append_nil] at whole

theorem trimmedLines_above (h : ∀ x ∈ above.texts, IsOneLine x) :
    trimmedLines (c.generatedFile (above ++ below)) =
      c.header.shownLines c.indentUnit ++ above.texts.map (fun x => trimLeft x.toList) ++
        trimmedLines (below.render c.indentUnit) := by
  rw [generatedFile, trimmedLines_render_append isOneLine_header, trimmedLines_render_append h,
    ← trimLeft_shownLines c.header, trimLeft_header, List.append_assoc]

theorem trimmedLines_below (h : ∀ x ∈ below.texts, IsOneLine x) :
    ∃ before, trimmedLines (c.generatedFile (above ++ below)) =
      before ++ (below.texts.map (fun x => trimLeft x.toList) ++ [[]]) := by
  rw [← trimmedLines_render h, trimmedLines, generatedFile, fileLines_render_append,
    fileLines_render_append, ← List.append_assoc, List.map_append]
  exact ⟨_, rfl⟩

theorem text_infix_generatedFile {x : String} (shown : x ∈ body.texts) :
    x.toList <:+: (c.generatedFile body).toList := by
  obtain ⟨l, hl, rfl⟩ := List.mem_map.1 shown
  obtain ⟨above, below, split⟩ :=
    List.append_of_mem (List.mem_append_right c.header hl : l ∈ c.header ++ body)
  have line : l.text.toList <:+: (render c.indentUnit (l :: below)).toList := by
    rw [toList_render_cons]
    exact (List.suffix_append _ _).isInfix.trans (List.prefix_append _ _).isInfix
  rw [generatedFile, split, render_append, String.toList_append]
  exact line.trans (List.suffix_append _ _).isInfix

/-- The pieces of a text, the first behind blanks, stand together in the file. -/
theorem pieces_infix_fileLines {x : String} (shown : x ∈ body.texts) :
    ∃ n, pieces '\n' (List.replicate n ' ' ++ x.toList) <:+: fileLines (c.generatedFile body) := by
  obtain ⟨l, hl, rfl⟩ := List.mem_map.1 shown
  obtain ⟨n, blanks⟩ := lead_toList c l
  obtain ⟨above, below, split⟩ :=
    List.append_of_mem (List.mem_append_right c.header hl : l ∈ c.header ++ body)
  have text : c.generatedFile body = render c.indentUnit (above ++ [l] ++ below) := by
    rw [generatedFile, split, List.append_assoc]
    rfl
  refine ⟨n, ?_⟩
  rw [← blanks, text, fileLines_render_append, shownLines, List.map_append, List.flatMap_append,
    List.map_singleton, List.flatMap_singleton]
  exact List.infix_append _ _ _

/-- A text with line feeds is cut into lines of the file. -/
theorem mem_fileLines_of_text {x : String} {front line rest : List Char} (shown : x ∈ body.texts)
    (text : x.toList = front ++ '\n' :: (line ++ '\n' :: rest)) (oneLine : '\n' ∉ line) :
    line ∈ fileLines (c.generatedFile body) := by
  obtain ⟨n, part⟩ := pieces_infix_fileLines (c := c) shown
  refine part.subset ?_
  rw [text, ← List.append_assoc, pieces_append_sep, pieces_append_sep, pieces_of_not_mem oneLine]
  simp

theorem infix_trimmedLines {block : List String} (part : block <:+: body.texts)
    (shown : ∀ x ∈ block, IsOneLine x ∧ trimLeft x.toList = x.toList) :
    block.map String.toList <:+: trimmedLines (c.generatedFile body) := by
  obtain ⟨before, after, eq⟩ := part
  obtain ⟨front, below, rfl, front_texts, _⟩ := List.map_eq_append_iff.1 eq.symm
  obtain ⟨above, middle, rfl, _, middle_texts⟩ := List.map_eq_append_iff.1 front_texts
  change Code.texts middle = block at middle_texts
  subst middle_texts
  have text : c.generatedFile (above ++ middle ++ below) =
      render c.indentUnit (c.header ++ above ++ (middle ++ below)) := by
    simp only [generatedFile, List.append_assoc]
  have middle_shown : (texts middle).map (fun x => trimLeft x.toList) =
      (texts middle).map String.toList := List.map_congr_left fun x hx => (shown x hx).2
  have later : trimmedLines (render c.indentUnit (middle ++ below)) = _ :=
    trimmedLines_render_append fun x hx => (shown x hx).1
  rw [text, trimmedLines, fileLines_render_append, List.map_append]
  change _ <:+: _ ++ trimmedLines (render c.indentUnit (middle ++ below))
  rw [later, middle_shown]
  exact List.infix_append' _ _ _

end Parts

theorem trimmedLines_generatedFile (h : ∀ x ∈ body.texts, IsOneLine x) :
    trimmedLines (c.generatedFile body) =
      c.header.shownLines c.indentUnit ++ body.texts.map (fun x => trimLeft x.toList) ++ [[]] := by
  rw [← List.append_nil body, trimmedLines_above h, List.append_nil]
  rfl

section Reading

variable {α : Type} {read : List Char → Option α} (comment : ∀ rest, read ('/' :: rest) = none)
  (empty : read [] = none) (oneLine : ∀ x ∈ body.texts, IsOneLine x)
include comment

theorem filterMap_header : (c.header.shownLines c.indentUnit).filterMap read = [] := by
  rw [List.filterMap_eq_nil_iff]
  intro cs hcs
  obtain ⟨rest, rfl⟩ := mem_shownLines_header hcs
  exact comment rest

include empty oneLine

/-- Reading a generated file line by line, without the indentation, is reading its code. -/
theorem filterMap_trimmedLines :
    (trimmedLines (c.generatedFile body)).filterMap read =
      body.texts.filterMap fun x => read (trimLeft x.toList) := by
  rw [trimmedLines_generatedFile oneLine, List.filterMap_append, List.filterMap_append,
    filterMap_header comment, List.filterMap_map, List.nil_append,
    List.filterMap_cons_none empty, List.filterMap_nil, List.append_nil]
  rfl

/-- A reader that takes no indented line reads the code at the margin. -/
theorem filterMap_fileLines (blank : ∀ rest, read (' ' :: rest) = none)
    (margin : ∀ l ∈ body, l.depth = 0 ∨ read l.text.toList = none) :
    (fileLines (c.generatedFile body)).filterMap read =
      body.texts.filterMap fun x => read x.toList := by
  rw [fileLines_generatedFile oneLine, List.filterMap_append, List.filterMap_append,
    filterMap_header comment, List.nil_append, List.filterMap_cons_none empty, List.filterMap_nil,
    List.append_nil, shownLines, texts, List.filterMap_map, List.filterMap_map]
  refine List.filterMap_congr fun l hl => ?_
  change read ((l.lead c.indentUnit).toList ++ l.text.toList) = read l.text.toList
  rcases margin l hl with depth | unread
  · have atMargin : l.lead c.indentUnit = "" := by
      rw [Line.lead, depth]
      split <;> rfl
    rw [atMargin]
    rfl
  · obtain ⟨n, hn⟩ := lead_toList c l
    rw [hn]
    cases n with
    | zero => rfl
    | succ n => rw [List.replicate_succ, List.cons_append, blank, unread]

end Reading

end Config

end InteropGen
