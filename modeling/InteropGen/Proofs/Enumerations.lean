import InteropGen.Proofs.Layout

set_option autoImplicit false

/-!
# Enumerations in generated files

An enumeration is a headline with its members between braces, one on each line with a comma behind
it.  A property of a type called "enum" has the same headline in a wrapper, so the last headline in
a file is the one that counts.
-/

namespace InteropGen

open Text

def belowLast (headline : List Char) : List (List Char) → Option (List (List Char))
  | [] => none
  | line :: rest =>
    match belowLast headline rest with
    | some below => some below
    | none => if line = headline then some rest else none

theorem belowLast_eq_none {headline : List Char} {lines : List (List Char)}
    (h : ∀ line ∈ lines, line ≠ headline) : belowLast headline lines = none := by
  induction lines with
  | nil => rfl
  | cons line lines ih =>
    rw [belowLast, ih fun l hl => h l (List.mem_cons_of_mem line hl)]
    exact if_neg (h line List.mem_cons_self)

theorem belowLast_append {headline : List Char} {before below : List (List Char)}
    (h : ∀ line ∈ below, line ≠ headline) :
    belowLast headline (before ++ headline :: below) = some below := by
  induction before with
  | nil =>
    rw [List.nil_append, belowLast, belowLast_eq_none h]
    exact if_pos rfl
  | cons line before ih => rw [List.cons_append, belowLast, ih]

/-- A member without the comma behind it. -/
def memberName (line : List Char) : String :=
  String.ofList (if line.getLast? = some ',' then line.dropLast else line)

def startsWithBrace (line : List Char) : Bool := line.head? = some '\x7d'

def membersBetween (lines : List (List Char)) : List String :=
  ((lines.drop 1).takeWhile fun line => !startsWithBrace line).map memberName

def enumMembers? (headline file : String) : Option (List String) :=
  (belowLast headline.toList (trimmedLines file)).map membersBetween

section Members

variable {names : List String}

theorem memberName_comma (name : String) : memberName (name ++ ",").toList = name := by
  have chars : (name ++ ",").toList = name.toList ++ [','] := String.toList_append
  have last : (name.toList ++ [',']).getLast? = some ',' := by simp
  rw [memberName, chars, if_pos last, List.dropLast_concat, String.ofList_toList]

theorem startsWithBrace_comma {name : String} (h : IsWord name) :
    startsWithBrace (name ++ ",").toList = false := by
  rw [startsWithBrace, decide_eq_false_iff_not]
  intro brace
  have mem := List.mem_of_mem_head? brace
  rw [String.toList_append, List.mem_append] at mem
  rcases mem with mem | mem
  · exact h.not_mem (by decide) (by simp) mem
  · exact absurd mem (by decide)

theorem membersBetween_of_words (words : ∀ name ∈ names, IsWord name) (opening : List Char)
    {closing : List Char} (closes : startsWithBrace closing = true) (below : List (List Char)) :
    membersBetween (opening :: ((names.map fun name => (name ++ ",").toList) ++ closing :: below)) =
      names := by
  have inside : ∀ line ∈ names.map fun name => (name ++ ",").toList,
      (!startsWithBrace line) = true := by
    intro line hline
    obtain ⟨name, hname, rfl⟩ := List.mem_map.1 hline
    rw [startsWithBrace_comma (words name hname)]
    rfl
  have outside : ¬ (!startsWithBrace closing) = true := by
    rw [closes]
    decide
  rw [membersBetween, List.drop_one, List.tail_cons,
    List.takeWhile_append_of_pos inside,
    List.takeWhile_cons_of_neg (p := fun line => !startsWithBrace line) outside, List.append_nil,
    List.map_map]
  exact (List.map_congr_left fun name _ => memberName_comma name).trans (List.map_id names)

end Members

/-- The headline of an enumeration ends with its name. -/
structure IsHeadline (headline : String) : Prop where
  oneLine : IsOneLine headline
  unindented : trimLeft headline.toList = headline.toList
  last : ∃ e, headline.toList.getLast? = some e ∧ isIdentifierPart e = true

/-- A line that is not taken for the headline. -/
structure IsBelow (headline : String) (line : String) : Prop where
  oneLine : IsOneLine line
  apart : trimLeft line.toList ≠ headline.toList

/-- The line does not end with a name. -/
def EndsInMark (line : String) : Prop := ∀ e ∈ line.toList.getLast?, isIdentifierPart e = false

section Below

variable {headline line rest : String} {start tail : List Char} {e : Char}

theorem isHeadline_append {d : Char} {ds : List Char} (blank : isBlank d = false)
    (hs : '\n' ∉ d :: ds) (h : IsOneLine rest) (ht : '\n' ∉ tail) (last : tail.getLast? = some e)
    (part : isIdentifierPart e = true) :
    IsHeadline (String.ofList (d :: ds) ++ rest ++ String.ofList tail) := by
  have chars : (String.ofList (d :: ds) ++ rest ++ String.ofList tail).toList =
      d :: (ds ++ (rest.toList ++ tail)) := by
    simp [String.toList_append]
  refine ⟨?_, ?_, e, ?_, part⟩
  · rw [isOneLine_append, isOneLine_append]
    exact ⟨⟨by rwa [IsOneLine, String.toList_ofList], h⟩, by rwa [IsOneLine, String.toList_ofList]⟩
  · rw [chars]
    exact trimLeft_of_head blank
  · rw [String.toList_append, String.toList_ofList, List.getLast?_append, last]
    rfl

theorem isBelow_of_last (ends : headline.toList.getLast? = some e) (h : IsOneLine line)
    (last : line.toList.getLast? ≠ some e) : IsBelow headline line := by
  refine ⟨h, fun eq => last ?_⟩
  obtain ⟨blanks, hblanks⟩ : headline.toList <:+ line.toList := by
    rw [← eq]
    exact List.dropWhile_suffix _
  rw [← hblanks, List.getLast?_append, ends]
  rfl

theorem isBelow_of_mark (hl : IsHeadline headline) (h : IsOneLine line) (mark : EndsInMark line) :
    IsBelow headline line := by
  obtain ⟨e, last, part⟩ := hl.last
  refine isBelow_of_last last h fun eq => ?_
  rw [mark e eq] at part
  cases part

theorem endsInMark_append (last : tail.getLast?.any (fun e => !isIdentifierPart e) = true) :
    EndsInMark (rest ++ String.ofList tail) := by
  intro e he
  rw [String.toList_append, String.toList_ofList, List.getLast?_append] at he
  cases found : tail.getLast? with
  | none =>
    rw [found] at last
    cases last
  | some c =>
    rw [found] at he last
    cases he
    simpa using last

theorem endsInMark_closed (last : tail.getLast?.all (fun e => !isIdentifierPart e) = true) :
    EndsInMark (String.ofList tail) := by
  intro e he
  rw [String.toList_ofList] at he
  rw [he] at last
  simpa using last

theorem isFrame_endsInMark : Code.IsFrame EndsInMark := by
  have empty : EndsInMark (String.ofList []) := endsInMark_closed (by decide)
  exact ⟨empty, endsInMark_closed (by decide), endsInMark_closed (by decide)⟩

theorem isBelow_append (hl : IsHeadline headline) (h : IsOneLine rest) (ht : '\n' ∉ tail)
    (last : tail.getLast?.any (fun e => !isIdentifierPart e) = true) :
    IsBelow headline (rest ++ String.ofList tail) := by
  refine isBelow_of_mark hl (isOneLine_append.2 ⟨h, ?_⟩) (endsInMark_append last)
  rwa [IsOneLine, String.toList_ofList]

theorem isBelow_closed (hl : IsHeadline headline) (ht : '\n' ∉ tail)
    (last : tail.getLast?.all (fun e => !isIdentifierPart e) = true) :
    IsBelow headline (String.ofList tail) := by
  refine isBelow_of_mark hl ?_ (endsInMark_closed last)
  rwa [IsOneLine, String.toList_ofList]

theorem isFrame_isBelow (hl : IsHeadline headline) : Code.IsFrame (IsBelow headline) := by
  have empty : IsBelow headline (String.ofList []) := isBelow_closed hl (by decide) (by decide)
  exact ⟨empty, isBelow_closed hl (by decide) (by decide), isBelow_closed hl (by decide) (by decide)⟩

end Below

theorem trimLeft_comma {name : String} (h : IsWord name) :
    trimLeft (name ++ ",").toList = (name ++ ",").toList := by
  refine trimLeft_of_unindented fun c hc => ?_
  have mem := List.mem_of_mem_head? hc
  rw [String.toList_append, List.mem_append] at mem
  rcases mem with mem | mem
  · exact isBlank_of_isIdentifierPart ((h c mem).resolve_right (by simp))
  · rw [List.mem_singleton.1 mem]
    decide

theorem trimLeft_brace {closing : List Char} (h : startsWithBrace closing = true) :
    trimLeft closing = closing := by
  refine trimLeft_of_unindented fun c hc => ?_
  rw [startsWithBrace, decide_eq_true_iff] at h
  rw [h] at hc
  cases hc
  decide

theorem enumMembers?_generatedFile {c : Config} {body : Code} {headline closing : String}
    {before names below : List String}
    (texts : body.texts =
      before ++ headline :: ("\x7b" :: (names.map (fun name => name ++ ",") ++ closing :: below)))
    (words : ∀ name ∈ names, IsWord name) (closes : startsWithBrace closing.toList = true)
    (hl : IsHeadline headline)
    (apart : ∀ x ∈ closing :: below, IsBelow headline x) :
    enumMembers? headline (c.generatedFile body) = some names := by
  obtain ⟨above, shown, rfl, _, shown_texts⟩ := List.map_eq_append_iff.1 texts
  change Code.texts shown = _ at shown_texts
  have entries : ∀ x ∈ names.map (fun name => name ++ ","), IsBelow headline x := by
    intro x hx
    obtain ⟨name, hname, rfl⟩ := List.mem_map.1 hx
    exact isBelow_append hl (words name hname).isOneLine (by decide) (by decide)
  have apart : ∀ x ∈ "\x7b" :: (names.map (fun name => name ++ ",") ++ closing :: below),
      IsBelow headline x :=
    List.forall_mem_cons.2 ⟨(isFrame_isBelow hl).opening, List.forall_mem_append.2 ⟨entries, apart⟩⟩
  have shown_ok : ∀ x ∈ Code.texts shown, IsOneLine x := by
    rw [shown_texts]
    exact List.forall_mem_cons.2 ⟨hl.oneLine, fun x hx => (apart x hx).oneLine⟩
  obtain ⟨earlier, lines⟩ : ∃ earlier, trimmedLines (c.generatedFile (above ++ shown)) =
      earlier ++ _ := Config.trimmedLines_below shown_ok
  rw [shown_texts, List.map_cons, hl.unindented, List.cons_append] at lines
  rw [enumMembers?, lines, belowLast_append]
  · have members : (names.map fun name => name ++ ",").map (fun x => trimLeft x.toList) =
        names.map fun name => (name ++ ",").toList := by
      rw [List.map_map]
      exact List.map_congr_left fun name hname => trimLeft_comma (words name hname)
    rw [Option.map_some, List.map_cons, List.map_append, members, List.map_cons,
      trimLeft_brace closes, List.cons_append, List.append_assoc, List.cons_append,
      membersBetween_of_words words _ closes]
  · intro line hline
    rcases List.mem_append.1 hline with hline | hline
    · obtain ⟨x, hx, rfl⟩ := List.mem_map.1 hline
      exact (apart x hx).apart
    · rw [List.mem_singleton.1 hline]
      exact (isFrame_isBelow hl).empty.apart

end InteropGen
