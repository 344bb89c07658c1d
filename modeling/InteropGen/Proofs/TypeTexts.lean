import InteropGen.Proofs.Layout
import InteropGen.Proofs.WrittenTypes

set_option autoImplicit false

/-!
# The written form of a type reference

Reading takes the suffixes off a text from the right, and whatever blanks stand around them.  So what
is read can always be written and read again, and a text differs from the written form in blanks
alone.  A reference that was put together by hand can be read back exactly when it is well formed.
-/

namespace InteropGen

open Text

namespace TypeRef

def IsKeyword (word : String) : Prop :=
  word = "void" ∨ word = "string" ∨ ∃ p : Primitive, word = p.keyword

/-- An identifier, and behind it arguments between angle brackets, whatever they are. -/
def IsInstantiation (spelling : String) : Prop :=
  ∃ head arguments : List Char, isIdentifier head = true ∧
    spelling.toList = head ++ '<' :: (arguments ++ ['>'])

/-- Names are identifiers and no keywords, nothing nullable is made nullable again, and `void` takes
no suffix. -/
def IsWellFormed : TypeRef → Prop
  | void | primitive _ | text => True
  | named name => isIdentifier name.toList = true ∧ ¬ IsKeyword name
  | nullable inner => inner.IsWellFormed ∧ inner ≠ void ∧ ∀ t, inner ≠ nullable t
  | array element => element.IsWellFormed ∧ element ≠ void
  | generic spelling => IsInstantiation spelling

end TypeRef

def Text.unblanked (cs : List Char) : List Char := cs.filter fun c => !isBlank c

section Characters

variable {cs xs ys : List Char} {c : Char}

theorem unblanked_append : unblanked (xs ++ ys) = unblanked xs ++ unblanked ys :=
  List.filter_append xs ys

theorem unblanked_trimLeft : unblanked (trimLeft cs) = unblanked cs := by
  induction cs with
  | nil => rfl
  | cons c cs ih =>
    rw [trimLeft, List.dropWhile_cons]
    split
    · rename_i blank
      have dropped : unblanked (c :: cs) = unblanked cs :=
        List.filter_cons_of_neg (by simp [blank])
      rw [dropped]
      exact ih
    · rfl

theorem not_suffix_of_isIdentifierPart (h : isIdentifierPart c = true) :
    c ≠ ']' ∧ c ≠ '?' ∧ c ≠ '<' ∧ isBlank c = false := by
  refine ⟨?_, ?_, ?_, isBlank_of_isIdentifierPart h⟩
  all_goals
    rintro rfl
    revert h
    decide

theorem isIdentifierPart_of_mem (h : isIdentifier cs = true) (hc : c ∈ cs) :
    isIdentifierPart c = true := by
  cases cs with
  | nil => cases hc
  | cons d ds =>
    rw [isIdentifier_cons, Bool.and_eq_true, List.all_eq_true] at h
    rcases List.mem_cons.1 hc with rfl | hc
    · exact isIdentifierPart_of_start h.1
    · exact h.2 c hc

end Characters

namespace TypeRef

variable {t : TypeRef} {stem reversed : List Char}

section Stems

theorem isKeyword_iff {word : String} :
    IsKeyword word ↔ word = "void" ∨ word = "string" ∨ (Primitive.ofKeyword? word).isSome = true := by
  refine or_congr_right (or_congr_right ⟨?_, fun found => ?_⟩)
  · rintro ⟨p, rfl⟩
    rw [Primitive.ofKeyword?_keyword]
    rfl
  · obtain ⟨p, hp⟩ := Option.isSome_iff_exists.1 found
    exact ⟨p, Primitive.eq_keyword_of_ofKeyword? hp⟩

theorem isInstantiation_iff : IsInstantiation (String.ofList stem) ↔
    '<' ∈ stem ∧ stem.getLast? = some '>' ∧ isIdentifier (stem.takeWhile (· != '<')) = true := by
  have plain {head : List Char} (h : isIdentifier head = true) : ∀ c ∈ head, (c != '<') = true :=
    fun c hc => bne_iff_ne.2 (not_suffix_of_isIdentifierPart (isIdentifierPart_of_mem h hc)).2.2.1
  rw [IsInstantiation, String.toList_ofList]
  constructor
  · rintro ⟨head, arguments, identifier, rfl⟩
    refine ⟨by simp, ?_, ?_⟩
    · rw [List.getLast?_append, ← List.cons_append, List.getLast?_append]
      rfl
    · rw [List.takeWhile_append_of_pos (plain identifier),
        List.takeWhile_cons_of_neg (by decide), List.append_nil]
      exact identifier
  · rintro ⟨opened, closed, identifier⟩
    -- Behind the identifier stands the bracket that opens, and the last character closes.
    have whole := List.takeWhile_append_dropWhile (p := (· != '<')) (l := stem)
    cases rest : stem.dropWhile (· != '<') with
    | nil =>
      rw [rest, List.append_nil] at whole
      rw [← whole] at opened
      exact absurd (plain identifier '<' opened) (by decide)
    | cons c behind =>
      have bracket : c = '<' := by
        have head := List.head?_dropWhile_not (· != '<') stem
        rw [rest] at head
        simpa using head
      subst bracket
      rw [rest] at whole
      rw [← whole, List.getLast?_append] at closed
      rcases List.eq_nil_or_concat behind with rfl | ⟨arguments, last, rfl⟩
      · simp at closed
      · have angle : last = '>' := by
          rw [List.concat_eq_append, ← List.cons_append, List.getLast?_append] at closed
          simpa using closed
        subst angle
        refine ⟨_, arguments, identifier, ?_⟩
        rw [← List.concat_eq_append]
        exact whole.symm

theorem ofStem_eq_ok (h : ofStem stem = .ok t) : t.IsWellFormed ∧ t.displayChars = stem := by
  have chars : (String.ofList stem).toList = stem := String.toList_ofList
  simp only [ofStem] at h
  split at h
  · rename_i opened
    split at h
    · rename_i delimited
      rw [Bool.and_eq_true, decide_eq_true_eq] at delimited
      cases h
      exact ⟨isInstantiation_iff.2 ⟨List.contains_iff_mem.1 opened, delimited⟩, chars⟩
    · cases h
  · split at h
    · rename_i keyword
      cases h
      exact ⟨trivial, by rw [← chars, keyword]; rfl⟩
    · rename_i notVoid
      split at h
      · rename_i keyword
        cases h
        exact ⟨trivial, by rw [← chars, keyword]; rfl⟩
      · rename_i notText
        split at h
        · rename_i p keyword
          cases h
          exact ⟨trivial, by rw [← chars, Primitive.eq_keyword_of_ofKeyword? keyword]; rfl⟩
        · rename_i notPrimitive
          split at h
          · rename_i identifier
            cases h
            have word : ¬ IsKeyword (String.ofList stem) := by
              rw [isKeyword_iff, notPrimitive]
              simp [notVoid, notText]
            exact ⟨⟨by rwa [chars], word⟩, chars⟩
          · cases h

theorem ofStem_named {name : String} (h : IsWellFormed (named name)) :
    ofStem name.toList = .ok (named name) := by
  obtain ⟨identifier, word⟩ := h
  rw [isKeyword_iff, not_or, not_or, Option.not_isSome_iff_eq_none] at word
  obtain ⟨notVoid, notText, notPrimitive⟩ := word
  have unopened : name.toList.contains '<' = false := by
    rw [← Bool.not_eq_true, List.contains_iff_mem]
    intro opened
    exact (not_suffix_of_isIdentifierPart (isIdentifierPart_of_mem identifier opened)).2.2.1 rfl
  simp only [ofStem, unopened, String.ofList_toList, notVoid, notText, notPrimitive, identifier]
  rfl

theorem ofStem_generic {spelling : String} (h : IsWellFormed (generic spelling)) :
    ofStem spelling.toList = .ok (generic spelling) := by
  rw [IsWellFormed, ← String.ofList_toList (s := spelling), isInstantiation_iff] at h
  obtain ⟨opened, closed, identifier⟩ := h
  have opens : spelling.toList.contains '<' = true := List.contains_iff_mem.2 opened
  simp only [ofStem, opens, closed, identifier, String.ofList_toList]
  rfl

end Stems

section Suffixes

theorem parseReversed_brackets (rest : List Char) :
    parseReversed (']' :: '[' :: rest) =
      parseReversed rest >>= fun element => blame (']' :: '[' :: rest) element.brackets := rfl

theorem parseReversed_question (rest : List Char) :
    parseReversed ('?' :: rest) =
      parseReversed rest >>= fun inner => blame ('?' :: rest) inner.question := rfl

/-- A text that does not end in a suffix or a blank is a stem. -/
theorem parseReversed_stem {c : Char} {rest : List Char} (bracket : c ≠ ']') (question : c ≠ '?')
    (blank : isBlank c = false) :
    parseReversed (c :: rest) = blame (c :: rest) (ofStem (c :: rest).reverse) := by
  unfold parseReversed
  split
  · rename_i empty
    cases empty
  · rename_i bracketed
    exact absurd (List.cons.inj bracketed).1 bracket
  · rename_i same
    obtain ⟨rfl, rfl⟩ := List.cons.inj same
    rw [blank, if_neg Bool.false_ne_true, if_neg question]

theorem isWellFormed_question {inner : TypeRef} (h : inner.IsWellFormed)
    (ok : inner.question = .ok t) :
    t.IsWellFormed ∧ t.displayChars = inner.displayChars ++ ['?'] := by
  cases inner <;> cases ok <;> exact ⟨⟨h, by simp, by simp⟩, rfl⟩

theorem isWellFormed_brackets {element : TypeRef} (h : element.IsWellFormed)
    (ok : element.brackets = .ok t) :
    t.IsWellFormed ∧ t.displayChars = element.displayChars ++ ['[', ']'] := by
  cases element <;> cases ok <;> exact ⟨⟨h, by simp⟩, rfl⟩

theorem question_of_isWellFormed {inner : TypeRef} (h : IsWellFormed (nullable inner)) :
    inner.question = .ok (nullable inner) := by
  obtain ⟨_, notVoid, notNullable⟩ := h
  cases inner with
  | void => exact absurd rfl notVoid
  | nullable t => exact absurd rfl (notNullable t)
  | _ => rfl

theorem brackets_of_isWellFormed {element : TypeRef} (h : IsWellFormed (array element)) :
    element.brackets = .ok (array element) := by
  obtain ⟨_, notVoid⟩ := h
  cases element with
  | void => exact absurd rfl notVoid
  | _ => rfl

/-- What is read is well formed, and its written form has the characters that are not blank. -/
theorem isWellFormed_parseReversed (h : parseReversed reversed = .ok t) :
    t.IsWellFormed ∧ unblanked reversed.reverse = unblanked t.displayChars := by
  fun_induction parseReversed reversed generalizing t with
  | case1 => cases h
  | case2 rest ih =>
    obtain ⟨element, helement, h⟩ := bind_eq_ok.1 h
    obtain ⟨formed, same⟩ := ih helement
    obtain ⟨formed, chars⟩ := isWellFormed_brackets formed (blame_eq_ok.1 h)
    refine ⟨formed, ?_⟩
    rw [List.reverse_cons, List.reverse_cons, List.append_assoc, List.singleton_append,
      unblanked_append, same, chars, unblanked_append]
  | case3 c rest notArray blank ih =>
    obtain ⟨formed, same⟩ := ih h
    refine ⟨formed, ?_⟩
    have none : unblanked [c] = [] := List.filter_cons_of_neg (by simp [blank])
    rw [List.reverse_cons, unblanked_append, none, List.append_nil, same]
  | case4 rest notArray notBlank ih =>
    obtain ⟨inner, hinner, h⟩ := bind_eq_ok.1 h
    obtain ⟨formed, same⟩ := ih hinner
    obtain ⟨formed, chars⟩ := isWellFormed_question formed (blame_eq_ok.1 h)
    refine ⟨formed, ?_⟩
    rw [List.reverse_cons, unblanked_append, same, chars, unblanked_append]
  | case5 c rest notArray notBlank notQuestion =>
    obtain ⟨formed, chars⟩ := ofStem_eq_ok (blame_eq_ok.1 h)
    exact ⟨formed, by rw [chars]⟩

theorem parseReversed_named {name : String} (h : IsWellFormed (named name)) :
    parseReversed name.toList.reverse = .ok (named name) := by
  cases last : name.toList.reverse with
  | nil =>
    have empty : isIdentifier name.toList = true := h.1
    rw [List.reverse_eq_nil_iff.1 last] at empty
    cases empty
  | cons c rest =>
    have mem : c ∈ name.toList := List.mem_reverse.1 (last ▸ List.mem_cons_self)
    obtain ⟨bracket, question, _, blank⟩ :=
      not_suffix_of_isIdentifierPart (isIdentifierPart_of_mem h.1 mem)
    rw [parseReversed_stem bracket question blank, ← last, List.reverse_reverse, ofStem_named h]
    rfl

theorem parseReversed_generic {spelling : String} (h : IsWellFormed (generic spelling)) :
    parseReversed spelling.toList.reverse = .ok (generic spelling) := by
  obtain ⟨head, arguments, _, chars⟩ := id h
  have last : spelling.toList.reverse = '>' :: (head ++ '<' :: arguments).reverse := by
    rw [chars]
    simp
  rw [last, parseReversed_stem (by decide) (by decide) (by decide), ← last, List.reverse_reverse,
    ofStem_generic h]
  rfl

/-- The suffixes are taken off in the order in which they were put on. -/
theorem parseReversed_displayChars (h : t.IsWellFormed) :
    parseReversed t.displayChars.reverse = .ok t := by
  induction t with
  | void => decide
  | primitive p => cases p <;> decide
  | text => decide
  | named name => exact parseReversed_named h
  | nullable inner ih =>
    rw [displayChars, List.reverse_append]
    change parseReversed ('?' :: inner.displayChars.reverse) = _
    rw [parseReversed_question, ih h.1]
    change blame _ inner.question = _
    rw [question_of_isWellFormed h]
    rfl
  | array element ih =>
    rw [displayChars, List.reverse_append]
    change parseReversed (']' :: '[' :: element.displayChars.reverse) = _
    rw [parseReversed_brackets, ih h.1]
    change blame _ element.brackets = _
    rw [brackets_of_isWellFormed h]
    rfl
  | generic spelling => exact parseReversed_generic h

end Suffixes

section Texts

variable {s : String}

theorem exists_start_displayChars (h : t.IsWellFormed) :
    ∃ c cs, t.displayChars = c :: cs ∧ isIdentifierStart c = true := by
  have start {head : List Char} (identifier : isIdentifier head = true) (rest : List Char) :
      ∃ c cs, head ++ rest = c :: cs ∧ isIdentifierStart c = true := by
    cases head with
    | nil => cases identifier
    | cons c cs => exact ⟨c, cs ++ rest, rfl, (Bool.and_eq_true_iff.1 identifier).1⟩
  induction t with
  | void => exact ⟨'v', ['o', 'i', 'd'], rfl, by decide⟩
  | primitive p => cases p <;> exact ⟨_, _, rfl, by decide⟩
  | text => exact ⟨'s', ['t', 'r', 'i', 'n', 'g'], rfl, by decide⟩
  | named name =>
    have whole := start h.1 []
    rwa [List.append_nil] at whole
  | nullable inner ih =>
    obtain ⟨c, cs, chars, letter⟩ := ih h.1
    exact ⟨c, cs ++ ['?'], by rw [displayChars, chars, List.cons_append], letter⟩
  | array element ih =>
    obtain ⟨c, cs, chars, letter⟩ := ih h.1
    exact ⟨c, cs ++ ['[', ']'], by rw [displayChars, chars, List.cons_append], letter⟩
  | generic spelling =>
    obtain ⟨head, arguments, identifier, chars⟩ := h
    rw [displayChars, chars]
    exact start identifier _

theorem parse_display_of_isWellFormed (h : t.IsWellFormed) : parse t.display = .ok t := by
  obtain ⟨c, cs, chars, letter⟩ := exists_start_displayChars h
  have blank := (not_suffix_of_isIdentifierPart (isIdentifierPart_of_start letter)).2.2.2
  have margin : trimLeft t.displayChars = t.displayChars := by
    rw [chars]
    exact trimLeft_of_head blank
  rw [parse, display, String.toList_ofList, margin, parseReversed_displayChars h]

theorem isWellFormed_of_parse (h : parse s = .ok t) :
    t.IsWellFormed ∧ unblanked s.toList = unblanked t.display.toList := by
  obtain ⟨formed, same⟩ := isWellFormed_parseReversed h
  rw [List.reverse_reverse, unblanked_trimLeft] at same
  exact ⟨formed, by rw [same, display, String.toList_ofList]⟩

/-- Reading gives well-formed references only, each of which its written form gives back, and the
text read differs from that form in blanks alone.  A reference can be read back from its written form
exactly when it is well formed. -/
theorem parse_display :
    (∀ s t, parse s = .ok t → t.IsWellFormed ∧ parse t.display = .ok t ∧
      unblanked s.toList = unblanked t.display.toList) ∧
    ∀ t, parse t.display = .ok t ↔ t.IsWellFormed := by
  refine ⟨fun s t h => ?_, fun t => ⟨fun h => ?_, parse_display_of_isWellFormed⟩⟩
  · obtain ⟨formed, same⟩ := isWellFormed_of_parse h
    exact ⟨formed, parse_display_of_isWellFormed formed, same⟩
  · exact (isWellFormed_of_parse h).1

/-- A text with blanks around its suffixes, and in the arguments, where they stay. -/
theorem parse_display_spaced :
    parse " Map<int, bool> [] ?" = .ok (nullable (array (generic "Map<int, bool>"))) ∧
      (nullable (array (generic "Map<int, bool>"))).IsWellFormed ∧
      parse "Map<int, bool>[]?" = .ok (nullable (array (generic "Map<int, bool>"))) ∧
      unblanked " Map<int, bool> [] ?".toList = unblanked "Map<int, bool>[]?".toList := by
  have read : parse " Map<int, bool> [] ?" = .ok (nullable (array (generic "Map<int, bool>"))) := by
    decide
  exact ⟨read, parse_display.1 _ _ read⟩

end Texts

end TypeRef

end InteropGen
