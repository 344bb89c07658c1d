import InteropGen.Proofs.WovenPlans
import InteropGen.Proofs.WrapperText

set_option autoImplicit false

/-!
# Reading include lines

What a native file includes is read off its text.  If the word of such a line is in no name, then only
the lines that are meant to include a file do so, and each gives back the path that was written.
-/

namespace InteropGen

open Text

def includeStart : List Char := ['#', 'i', 'n', 'c', 'l', 'u', 'd', 'e', ' ', '"']

def includeWord : List Char := ['#', 'i', 'n', 'c', 'l', 'u', 'd', 'e']

/-- The path that a line includes. -/
def includedPath? (line : List Char) : Option String := nameAfter? includeStart '"' line

def includedPaths (file : String) : List String := (trimmedLines file).filterMap includedPath?

variable {N : String → Prop} {c : Config} {paths : List String}

section Pieces

namespace Text

variable {xs piece : List Char} {sep : Char}

theorem within_of_pieces {first : List Char} {rest : List (List Char)}
    (h : pieces sep xs = first :: rest) : first <+: xs ∧ ∀ piece ∈ rest, piece <:+: xs := by
  induction xs generalizing first rest with
  | nil =>
    cases h
    exact ⟨List.prefix_rfl, fun piece h => absurd h List.not_mem_nil⟩
  | cons x xs ih =>
    cases tail : pieces sep xs with
    | nil => exact absurd tail (pieces_ne_nil sep xs)
    | cons head others =>
      obtain ⟨isPrefix, inside⟩ := ih tail
      have behind : ∀ piece ∈ others, piece <:+: x :: xs :=
        fun piece h => List.infix_cons (inside piece h)
      rw [pieces, tail] at h
      split at h
      · cases h
        exact ⟨List.nil_prefix,
          List.forall_mem_cons.2 ⟨List.infix_cons isPrefix.isInfix, behind⟩⟩
      · cases h
        exact ⟨(List.prefix_cons_inj x).2 isPrefix, behind⟩

theorem infix_of_mem_pieces (h : piece ∈ pieces sep xs) : piece <:+: xs := by
  cases eq : pieces sep xs with
  | nil => exact absurd eq (pieces_ne_nil sep xs)
  | cons first rest =>
    obtain ⟨isPrefix, inside⟩ := within_of_pieces eq
    have all : ∀ piece ∈ first :: rest, piece <:+: xs :=
      List.forall_mem_cons.2 ⟨isPrefix.isInfix, inside⟩
    exact all piece (eq ▸ h)

end Text

end Pieces

section Reading

variable {x path : String} {cs : List Char} {n : Nat}

theorem includedPath?_includeLine (h : '"' ∉ path.toList) :
    includedPath? (Code.includeLine path).toList = some path := by
  have chars : (Code.includeLine path).toList = includeStart ++ (path.toList ++ '"' :: []) := by
    rw [Code.includeLine, String.toList_append, String.toList_append, List.append_assoc]
    rfl
  have isPrefix : includeStart.isPrefixOf (includeStart ++ (path.toList ++ ['"'])) = true :=
    List.isPrefixOf_iff_prefix.2 (List.prefix_append _ _)
  rw [includedPath?, chars, nameAfter?, if_pos isPrefix, List.drop_left, takeWhile_ne_append h,
    String.ofList_toList]

theorem includeWord_infix (h : (includedPath? cs).isSome = true) : includeWord <:+: cs := by
  have start : includeStart <+: cs := by
    by_contra none
    rw [includedPath?, nameAfter?_eq_none none] at h
    cases h
  have word : includeWord <+: includeStart := by decide
  exact (word.trans start).isInfix

theorem includedPath?_platformIncludes : ∀ x ∈ platformIncludes,
    IsOneLine x ∧ trimLeft x.toList = x.toList ∧ includedPath? x.toList = none := by
  simp only [platformIncludes, NativeSupport.libraries, NativeSupport.libraryLine, List.map_cons,
    List.map_nil, List.forall_mem_cons, IsOneLine, String.toList_append]
  repeat rw [String.toList_ofList]
  decide

theorem shown_of_isOneLine (h : IsOneLine x)
    (piece : cs ∈ pieces '\n' (List.replicate n ' ' ++ x.toList)) :
    cs = List.replicate n ' ' ++ x.toList := by
  have line : '\n' ∉ List.replicate n ' ' ++ x.toList := by
    rw [List.mem_append, not_or]
    exact ⟨fun mem => absurd (List.eq_of_mem_replicate mem) (by decide), h⟩
  rwa [pieces_of_not_mem line, List.mem_singleton] at piece

/-- The path can stand between quotation marks in one line. -/
def IsQuotable (path : String) : Prop := '"' ∉ path.toList ∧ IsOneLine path

/-- Wherever the line stands in a file, it includes nothing but these paths. -/
def IncludesOnly (paths : List String) (x : String) : Prop :=
  ∀ n, ∀ cs ∈ pieces '\n' (List.replicate n ' ' ++ x.toList),
    ∀ path ∈ includedPath? (trimLeft cs), path ∈ paths

theorem includesOnly_of_isOneLine (line : IsOneLine x) (margin : trimLeft x.toList = x.toList)
    (h : ∀ path ∈ includedPath? x.toList, path ∈ paths) : IncludesOnly paths x := by
  intro n cs piece path found
  rw [shown_of_isOneLine line piece, trimLeft_replicate, margin] at found
  exact h path found

theorem includesOnly_of_avoids (h : Avoids includeWord x) : IncludesOnly paths x := by
  intro n cs piece path found
  have word : includeWord <:+: trimLeft cs := includeWord_infix (by rw [found]; rfl)
  have inside := (word.trans (List.dropWhile_suffix _).isInfix).trans (infix_of_mem_pieces piece)
  have blank : '#' ∉ List.replicate n ' ' := fun mem =>
    absurd (List.eq_of_mem_replicate mem) (by decide)
  exact absurd (infix_of_infix_append blank inside) h

theorem includesOnly_of_includesOf (quotable : ∀ path ∈ paths, IsQuotable path)
    (h : IncludesOf N paths x) : IncludesOnly paths x := by
  rcases h with ⟨path, mem, _, rfl⟩ | platform
  · obtain ⟨quoted, line⟩ := quotable path mem
    refine includesOnly_of_isOneLine ((line.prefixed (by decide)).suffixed (by decide)) ?_
      fun path' found => ?_
    · rw [Code.includeLine, String.toList_append, String.toList_append, List.append_assoc]
      exact trimLeft_of_head (by decide)
    · rw [includedPath?_includeLine quoted] at found
      cases found
      exact mem
  · obtain ⟨line, margin, none⟩ := includedPath?_platformIncludes x platform
    refine includesOnly_of_isOneLine line margin fun path found => ?_
    rw [none] at found
    cases found

/-- The comment lines of the header include nothing, whatever they say. -/
theorem includesOnly_header : ∀ x ∈ c.header.texts, IncludesOnly paths x := by
  intro x hx
  have line := Config.isOneLine_header x hx
  rw [Config.header, Code.texts_lines] at hx
  obtain ⟨text, _, rfl⟩ := List.mem_map.1 hx
  have slash : ∃ rest, (Config.commentLine text).toList = '/' :: rest := by
    rw [Config.commentLine]
    split
    · exact ⟨['/'], rfl⟩
    · exact ⟨'/' :: ' ' :: text.toList, by simp⟩
  obtain ⟨rest, chars⟩ := slash
  refine includesOnly_of_isOneLine line ?_ fun path found => ?_
  · rw [chars]
    exact trimLeft_of_head (by decide)
  · have apart : diverges includeStart ['/'] = true := by decide
    have none : includedPath? ('/' :: rest) = none :=
      nameAfter?_eq_none (not_prefix_of_diverges apart)
    rw [chars, none] at found
    cases found

theorem exists_text_of_mem_fileLines {code : Code}
    (h : cs ∈ fileLines (code.render c.indentUnit)) :
    cs = [] ∨ ∃ x ∈ code.texts, ∃ n, cs ∈ pieces '\n' (List.replicate n ' ' ++ x.toList) := by
  have whole := Code.fileLines_render_append c.indentUnit code []
  rw [List.append_nil] at whole
  rw [whole, List.mem_append] at h
  rcases h with shown | last
  · obtain ⟨line, hline, piece⟩ := List.mem_flatMap.1 shown
    obtain ⟨l, hl, rfl⟩ := List.mem_map.1 hline
    obtain ⟨n, lead⟩ := Code.lead_toList c l
    rw [lead] at piece
    exact .inr ⟨l.text, List.mem_map_of_mem hl, n, piece⟩
  · exact .inl (List.mem_singleton.1 last)

theorem includedPaths_render {code : Code} (h : ∀ x ∈ code.texts, IncludesOnly paths x) :
    includedPaths (code.render c.indentUnit) ⊆ paths := by
  intro path found
  obtain ⟨line, hline, found⟩ := List.mem_filterMap.1 found
  obtain ⟨cs, hcs, rfl⟩ := List.mem_map.1 hline
  rcases exists_text_of_mem_fileLines hcs with rfl | ⟨x, hx, n, piece⟩
  · cases found
  · exact h x hx n cs piece path found

theorem includedPaths_generatedFile {code : Code} (h : ∀ x ∈ code.texts, IncludesOnly paths x) :
    includedPaths (c.generatedFile code) ⊆ paths := by
  refine includedPaths_render ?_
  rw [Code.texts_append]
  exact List.forall_mem_append.2 ⟨includesOnly_header, h⟩

/-- Code that is woven of such names includes what it is meant to include. -/
theorem Code.IsWoven.includesOnly {code : Code} (names : ∀ x, N x → Avoids includeWord x)
    (quotable : ∀ path ∈ paths, IsQuotable path) (h : code.IsWoven N (IncludesOf N paths)) :
    ∀ x ∈ code.texts, IncludesOnly paths x := by
  intro x hx
  rcases h.avoids includeWord (by decide) names x hx with absent | includes
  · exact includesOnly_of_avoids absent
  · exact includesOnly_of_includesOf quotable includes

end Reading

end InteropGen
