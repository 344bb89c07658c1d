import InteropGen.Proofs.Blocks
import InteropGen.Proofs.DeclaredSymbols
import InteropGen.Proofs.ValueLayout
import InteropGen.Proofs.WrapperBody

set_option autoImplicit false

/-!
# Value types as files declare them

The enums and structs of a file are read off its blocks.  Either file of value types declares what
the generator put into it, so the two files can be compared by what they say.
-/

namespace InteropGen

open Text

structure FieldText where
  type : String
  name : String
  /-- The line above makes the field one byte wide. -/
  isMarked : Bool
  deriving DecidableEq, Repr

inductive DeclarationText where
  | enum (name width : String) (flags : Bool) (members : List (String × String))
  | struct (name : String) (fields : List FieldText)
  deriving DecidableEq, Repr

/-- How the code of one side declares value types. -/
structure DeclarationStyle where
  enumStart : String
  /-- The enum of that name combines as bits. -/
  isFlags : String → Block → Bool
  structStart : String
  /-- The line above a struct. -/
  structMark : String
  fieldStart : String

namespace DeclarationStyle

def native : DeclarationStyle where
  enumStart := "enum class "
  isFlags name b := b.below = ("APIGEN_FLAGS_OPERATORS(" ++ name ++ ")").toList
  structStart := "struct "
  structMark := ""
  fieldStart := ""

def managed : DeclarationStyle where
  enumStart := "public enum "
  isFlags _ b := b.above = "[Flags]".toList
  structStart := "public struct "
  structMark := "[StructLayout(LayoutKind.Sequential)]"
  fieldStart := "public "

end DeclarationStyle

def afterStart? (start : String) (line : List Char) : Option (List Char) :=
  if start.toList <+: line then some (line.drop start.toList.length) else none

def firstWord (cs : List Char) : List Char := cs.takeWhile (· ≠ ' ')

def beforeLastWord (cs : List Char) : List Char := cs.take (cs.length - (lastWord cs).length - 1)

def readMember (line : List Char) : String × String :=
  (String.ofList (firstWord line), String.ofList (lastWord line).dropLast)

def boolMark : String := "[MarshalAs(UnmanagedType.I1)]"

/-- The fields that the lines declare; a mark belongs to the field below it. -/
def readFields (start : String) : Bool → List (List Char) → List FieldText
  | _, [] => []
  | isMarked, line :: rest =>
    if line = boolMark.toList then readFields start true rest
    else
      let field := line.drop start.toList.length
      ⟨String.ofList (beforeLastWord field), String.ofList (lastWord field).dropLast, isMarked⟩ ::
        readFields start false rest

namespace DeclarationStyle

def readEnum (style : DeclarationStyle) (b : Block) (headline : List Char) : DeclarationText :=
  let name := String.ofList (firstWord headline)
  .enum name (String.ofList (lastWord headline)) (style.isFlags name b) (b.inside.map readMember)

def readStruct (style : DeclarationStyle) (b : Block) (name : List Char) : DeclarationText :=
  .struct (String.ofList name) (readFields style.fieldStart false b.inside)

def read? (style : DeclarationStyle) (b : Block) : Option DeclarationText :=
  match afterStart? style.enumStart b.headline with
  | some headline => some (style.readEnum b headline)
  | none =>
    if b.above = style.structMark.toList then
      (afterStart? style.structStart b.headline).map (style.readStruct b)
    else none

/-- The enums and structs that a file declares, in order. -/
def declarations (style : DeclarationStyle) (file : String) : List DeclarationText :=
  (blocks (trimmedLines file)).filterMap style.read?

end DeclarationStyle

namespace DeclarationText

/-- The declaration of an enum, with these names of the two underlying types. -/
def ofEnum (narrow wide : String) (e : ValueEnum) : DeclarationText :=
  .enum e.name (if e.isWide then wide else narrow) e.flags
    (e.values.map fun (name, value) => (name, toString value))

def ofStruct (marks : Bool) (v : ValueStruct) : DeclarationText :=
  .struct v.name (v.fields.map fun f => ⟨f.spelling.literal, f.name, marks && f.isBool⟩)

end DeclarationText

section Lines

variable {start rest name : String} {c : Char} {cs : List Char}

theorem afterStart?_append : afterStart? start (start ++ rest).toList = some rest.toList := by
  rw [afterStart?, String.toList_append, if_pos (List.prefix_append _ _), List.drop_left]

theorem afterStart?_eq_none (h : diverges start.toList cs = true) (tail : List Char) :
    afterStart? start (cs ++ tail) = none := if_neg (not_prefix_of_diverges h)

theorem firstWord_append (h : ' ' ∉ cs) (tail : List Char) : firstWord (cs ++ ' ' :: tail) = cs :=
  takeWhile_ne_append h

theorem beforeLastWord_append {tail : List Char} (h : ' ' ∉ tail) :
    beforeLastWord (cs ++ ' ' :: tail) = cs := by
  rw [beforeLastWord, lastWord_append h]
  have length : (cs ++ ' ' :: tail).length - tail.length - 1 = cs.length := by
    rw [List.length_append, List.length_cons]
    omega
  rw [length, List.take_left]

theorem not_mem_blank (h : IsWord name) : ' ' ∉ name.toList := h.not_mem (by decide) (by simp)

theorem isOver_toString (i : Int) : IsOver "-" (toString i) := by
  have digits (n : Nat) : IsOver "-" (toString n) := by
    intro c hc
    have chars : (toString n).toList = Nat.toDigits 10 n := Nat.toList_repr
    rw [chars] at hc
    have digit := Nat.isDigit_of_mem_toDigits (by decide) (by decide) hc
    exact .inl (by simp [isIdentifierPart, Char.isAlphanum, digit])
  cases i with
  | ofNat n => exact digits n
  | negSucc n => exact isOver_append.2 ⟨by decide, digits (n + 1)⟩

theorem readMember_line (h : IsWord name) (value : Int) :
    readMember (name ++ " = " ++ toString value ++ ",").toList = (name, toString value) := by
  have chars : (name ++ " = " ++ toString value ++ ",").toList =
      name.toList ++ ' ' :: '=' :: ' ' :: ((toString value).toList ++ [',']) := by
    simp only [String.toList_append, List.append_assoc]
    rfl
  have last : ' ' ∉ (toString value).toList ++ [','] := by
    rw [List.mem_append, not_or]
    exact ⟨(isOver_toString value).not_mem (by decide) (by decide), by decide⟩
  have split : name.toList ++ ' ' :: '=' :: ' ' :: ((toString value).toList ++ [',']) =
      (name.toList ++ [' ', '=']) ++ ' ' :: ((toString value).toList ++ [',']) := by simp
  rw [readMember, chars, firstWord_append (not_mem_blank h), split, lastWord_append last,
    List.dropLast_concat, String.ofList_toList, String.ofList_toList]

theorem readFields_line {literal : String} (h : IsWord name)
    (unmarked : (start ++ literal ++ " " ++ name ++ ";").toList ≠ boolMark.toList) (isMarked : Bool)
    (lines : List (List Char)) :
    readFields start isMarked ((start ++ literal ++ " " ++ name ++ ";").toList :: lines) =
      ⟨literal, name, isMarked⟩ :: readFields start false lines := by
  have chars : (start ++ literal ++ " " ++ name ++ ";").toList.drop start.toList.length =
      literal.toList ++ ' ' :: (name.toList ++ [';']) := by
    simp only [String.toList_append, List.append_assoc]
    exact List.drop_left
  have last : ' ' ∉ name.toList ++ [';'] := by
    rw [List.mem_append, not_or]
    exact ⟨not_mem_blank h, by decide⟩
  rw [readFields, if_neg unmarked]
  dsimp only
  rw [chars, beforeLastWord_append last, lastWord_append last, List.dropLast_concat,
    String.ofList_toList, String.ofList_toList]

end Lines

/-- The text begins like a name. -/
def BeginsAsWord (text : String) : Prop := text.toList.head?.any isIdentifierPart = true

instance (text : String) : Decidable (BeginsAsWord text) :=
  inferInstanceAs (Decidable (text.toList.head?.any isIdentifierPart = true))

theorem beginsAsWord_iff {text : String} :
    BeginsAsWord text ↔ ∃ c cs, text.toList = c :: cs ∧ isIdentifierPart c = true := by
  rw [BeginsAsWord]
  cases text.toList with
  | nil => simp
  | cons c cs => simp

structure ValueEnum.HasWords (e : ValueEnum) : Prop where
  name : IsWord e.name
  values : ∀ v ∈ e.values, IsWord v.1 ∧ BeginsAsWord v.1

structure ValueField.HasWords (f : ValueField) : Prop where
  name : IsWord f.name
  oneLine : IsOneLine f.spelling.literal
  begins : BeginsAsWord f.spelling.literal

structure ValueStruct.HasWords (v : ValueStruct) : Prop where
  name : IsWord v.name
  fields : ∀ f ∈ v.fields, f.HasWords

section Starts

variable {text rest : String}

theorem BeginsAsWord.append (h : BeginsAsWord text) : BeginsAsWord (text ++ rest) := by
  obtain ⟨c, cs, eq, part⟩ := beginsAsWord_iff.1 h
  refine beginsAsWord_iff.2 ⟨c, cs ++ rest.toList, ?_, part⟩
  rw [String.toList_append, eq]
  rfl

theorem BeginsAsWord.isBrace (h : BeginsAsWord text) : isBrace text.toList = false := by
  obtain ⟨c, cs, eq, part⟩ := beginsAsWord_iff.1 h
  have ne (d : Char) (mark : isIdentifierPart d = false) : c ≠ d := by
    rintro rfl
    rw [part] at mark
    cases mark
  rw [eq, InteropGen.isBrace, opensBlock, startsWithBrace]
  simp [ne '\x7b' (by decide), ne '\x7d' (by decide)]

theorem BeginsAsWord.trimLeft (h : BeginsAsWord text) : trimLeft text.toList = text.toList := by
  obtain ⟨c, cs, eq, part⟩ := beginsAsWord_iff.1 h
  rw [eq]
  exact trimLeft_of_head (isBlank_of_isIdentifierPart part)

theorem BeginsAsWord.ne_boolMark (h : BeginsAsWord text) : text.toList ≠ boolMark.toList := by
  obtain ⟨c, cs, eq, part⟩ := beginsAsWord_iff.1 h
  intro same
  rw [eq] at same
  cases same
  exact absurd part (by decide)

end Starts

namespace Code

def shown (c : Code) : List (List Char) := c.texts.map String.toList

variable {c d : Code}

@[simp] theorem shown_append : shown (c ++ d) = shown c ++ shown d := by
  rw [shown, texts_append, List.map_append]
  rfl

@[simp] theorem shown_flatMap {α : Type} {as : List α} {f : α → Code} :
    shown (as.flatMap f) = as.flatMap fun a => shown (f a) := by
  rw [shown, texts_flatMap, List.map_flatMap]
  rfl

end Code

section Pieces

variable {e : ValueEnum} {v : ValueStruct} {name : String}

theorem map_readMember_lines (h : e.HasWords) :
    (e.lines.map String.toList).map readMember =
      e.values.map fun (name, value) => (name, toString value) := by
  rw [ValueEnum.lines, List.map_map, List.map_map]
  exact List.map_congr_left fun v hv => readMember_line (h.values v hv).1 v.2

theorem isBrace_lines (h : e.HasWords) : ∀ x ∈ e.lines.map String.toList, isBrace x = false := by
  intro x hx
  obtain ⟨line, hline, rfl⟩ := List.mem_map.1 hx
  obtain ⟨v, hv, rfl⟩ := List.mem_map.1 hline
  exact (h.values v hv).2.append.append.append.isBrace

theorem readEnum_headline {style : DeclarationStyle} {b : Block} {width : String}
    (h : IsWord name) (oneWord : ' ' ∉ width.toList) :
    style.readEnum b (name ++ " : " ++ width).toList =
      .enum name width (style.isFlags name b) (b.inside.map readMember) := by
  have chars : (name ++ " : " ++ width).toList =
      name.toList ++ ' ' :: ([':'] ++ ' ' :: width.toList) := by
    simp only [String.toList_append, List.append_assoc]
    rfl
  have split : name.toList ++ ' ' :: ([':'] ++ ' ' :: width.toList) =
      (name.toList ++ [' ', ':']) ++ ' ' :: width.toList := by simp
  rw [DeclarationStyle.readEnum, chars, firstWord_append (not_mem_blank h), split,
    lastWord_append oneWord, String.ofList_toList, String.ofList_toList]

theorem DeclarationStyle.read?_enum {style : DeclarationStyle} {b : Block} {width : String}
    (headline : b.headline = (style.enumStart ++ (name ++ " : " ++ width)).toList) (h : IsWord name)
    (oneWord : ' ' ∉ width.toList) :
    style.read? b = some (.enum name width (style.isFlags name b) (b.inside.map readMember)) := by
  rw [read?, headline, afterStart?_append]
  exact congrArg some (readEnum_headline h oneWord)

theorem DeclarationStyle.read?_struct {style : DeclarationStyle} {b : Block}
    (headline : b.headline = (style.structStart ++ name).toList)
    (noEnum : diverges style.enumStart.toList style.structStart.toList = true)
    (mark : b.above = style.structMark.toList) :
    style.read? b = some (.struct name (readFields style.fieldStart false b.inside)) := by
  have apart : afterStart? style.enumStart b.headline = none := by
    rw [headline, String.toList_append]
    exact afterStart?_eq_none noEnum _
  rw [read?, apart, if_pos mark, headline, afterStart?_append, Option.map_some, readStruct,
    String.ofList_toList]

/-- What stands behind a block is not the line that makes an enum one of flags. -/
theorem IsGap.headD_ne {rest : List (List Char)} (gap : IsGap rest) {line : List Char}
    (calm : line.head?.any (· ≠ '\x7d') = true) : rest.headD [] ≠ line := by
  rintro rfl
  cases rest with
  | nil => cases calm
  | cons x xs =>
    rcases gap.head x rfl with rfl | closes
    · cases calm
    · rw [startsWithBrace, decide_eq_true_iff] at closes
      rw [List.headD_cons, closes] at calm
      cases calm

theorem isBrace_start {start rest : String}
    (h : start.toList.head?.any (fun c => c ≠ '\x7b' && c ≠ '\x7d') = true) :
    isBrace (start ++ rest).toList = false := by
  rw [String.toList_append]
  cases chars : start.toList with
  | nil =>
    rw [chars] at h
    cases h
  | cons c cs =>
    rw [chars, List.head?_cons, Option.any_some, Bool.and_eq_true] at h
    simp only [decide_eq_true_eq] at h
    simp [isBrace, opensBlock, startsWithBrace, h.1, h.2]

theorem opensBlock_start {start rest : String}
    (h : start.toList.head?.any (fun c => c ≠ '\x7b' && c ≠ '\x7d') = true) :
    opensBlock (start ++ rest).toList = false := (Bool.or_eq_false_iff.1 (isBrace_start h)).1

theorem reads_native_enum (h : e.HasWords) :
    Reads DeclarationStyle.native.read? [] (Code.shown (NativeTypes.enumCode e)).tail
      [.ofEnum "int" "int64_t" e] := by
  let width := if e.isWide then "int64_t" else "int"
  let macroLine := ("APIGEN_FLAGS_OPERATORS(" ++ e.name ++ ")").toList
  have lines : (Code.shown (NativeTypes.enumCode e)).tail =
      [] ++ ("enum class " ++ (e.name ++ " : " ++ width)).toList :: ['\x7b'] ::
        (e.lines.map String.toList ++ "\x7d;".toList :: if e.flags then [macroLine] else []) := by
    simp only [Code.shown, NativeTypes.enumCode, Code.texts_append, Code.texts_blank,
      Code.texts_blockEnding, Code.texts_lines, Code.texts_given, Code.texts_line,
      String.append_assoc]
    cases e.flags <;> simp [width, macroLine]
  rw [lines]
  have oneWord : ' ' ∉ width.toList := by
    dsimp only [width]
    split <;> decide
  refine reads_block (fun x hx => absurd hx List.not_mem_nil) ?_ (isBrace_lines h) (by decide) ?_ ?_
  · exact opensBlock_start (by decide)
  · intro x hx
    cases flags : e.flags with
    | false =>
      rw [flags] at hx
      cases hx
    | true =>
      rw [flags] at hx
      rw [List.mem_singleton.1 hx]
      change opensBlock ("APIGEN_FLAGS_OPERATORS(" ++ e.name ++ ")").toList = false
      rw [String.append_assoc]
      exact opensBlock_start (by decide)
  · intro rest gap
    rw [DeclarationStyle.read?_enum rfl h.name oneWord, map_readMember_lines h]
    have isFlags : decide (((if e.flags then [macroLine] else []) ++ rest).headD [] = macroLine) =
        e.flags := by
      cases e.flags with
      | false => exact decide_eq_false (gap.headD_ne (by simp [macroLine]))
      | true => exact decide_eq_true rfl
    exact congrArg (fun flags => some (DeclarationText.enum e.name width flags _)) isFlags

theorem reads_managed_enum (h : e.HasWords) {lead : List Char} (plain : lead ≠ "[Flags]".toList) :
    Reads DeclarationStyle.managed.read? lead (Code.shown (ManagedTypes.enumCode e))
      [.ofEnum "int" "long" e] := by
  let width := if e.isWide then "long" else "int"
  have lines : Code.shown (ManagedTypes.enumCode e) =
      (if e.flags then ["[Flags]".toList] else []) ++
        ("public enum " ++ (e.name ++ " : " ++ width)).toList :: ['\x7b'] ::
          (e.lines.map String.toList ++ "\x7d".toList :: []) := by
    simp only [Code.shown, ManagedTypes.enumCode, Code.texts_append, Code.texts_block,
      Code.texts_lines, Code.texts_given, Code.texts_line, String.append_assoc]
    cases e.flags <;> simp [width]
  rw [lines]
  have oneWord : ' ' ∉ width.toList := by
    dsimp only [width]
    split <;> decide
  refine reads_block ?_ (opensBlock_start (by decide)) (isBrace_lines h) (by decide)
    (fun x hx => absurd hx List.not_mem_nil) fun rest _ => ?_
  · cases e.flags <;> decide
  · rw [DeclarationStyle.read?_enum rfl h.name oneWord, map_readMember_lines h]
    have isFlags : decide ((if e.flags then ["[Flags]".toList] else []).getLastD lead =
        "[Flags]".toList) = e.flags := by
      cases e.flags with
      | false => exact decide_eq_false plain
      | true => exact decide_eq_true rfl
    exact congrArg (fun flags => some (DeclarationText.enum e.name width flags _)) isFlags

theorem fieldLine_eq (f : ValueField) :
    NativeTypes.fieldLine f = "" ++ f.spelling.literal ++ " " ++ f.name ++ ";" := by
  rw [NativeTypes.fieldLine, String.empty_append]

theorem readFields_native {fs : List ValueField} (words : ∀ f ∈ fs, f.HasWords) :
    readFields "" false ((fs.map NativeTypes.fieldLine).map String.toList) =
      fs.map fun f => ⟨f.spelling.literal, f.name, false⟩ := by
  induction fs with
  | nil => rfl
  | cons f fs ih =>
    obtain ⟨own, others⟩ := List.forall_mem_cons.1 words
    have unmarked :
        ("" ++ f.spelling.literal ++ " " ++ f.name ++ ";").toList ≠ boolMark.toList := by
      rw [String.empty_append]
      exact own.begins.append.append.append.ne_boolMark
    rw [List.map_cons, List.map_cons, fieldLine_eq, readFields_line own.name unmarked, ih others,
      List.map_cons]

theorem shown_fieldCode (f : ValueField) : Code.shown (ManagedTypes.fieldCode f) =
    (if f.isBool then [boolMark.toList] else []) ++
      [("public " ++ f.spelling.literal ++ " " ++ f.name ++ ";").toList] := by
  simp only [Code.shown, ManagedTypes.fieldCode, Code.texts_append, Code.texts_given,
    Code.texts_line]
  cases f.isBool <;> rfl

theorem isBrace_fieldCode (f : ValueField) :
    ∀ x ∈ Code.shown (ManagedTypes.fieldCode f), isBrace x = false := by
  intro x hx
  rw [shown_fieldCode, List.mem_append, List.mem_singleton] at hx
  rcases hx with hx | rfl
  · cases isBool : f.isBool with
    | false =>
      rw [isBool] at hx
      cases hx
    | true =>
      rw [isBool] at hx
      rw [List.mem_singleton.1 hx]
      decide
  · simp only [String.append_assoc]
    exact isBrace_start (by decide)

theorem readFields_managed {fs : List ValueField} (words : ∀ f ∈ fs, f.HasWords) :
    readFields "public " false (Code.shown (fs.flatMap ManagedTypes.fieldCode)) =
      fs.map fun f => ⟨f.spelling.literal, f.name, f.isBool⟩ := by
  induction fs with
  | nil => rfl
  | cons f fs ih =>
    obtain ⟨own, others⟩ := List.forall_mem_cons.1 words
    have unmarked : ("public " ++ f.spelling.literal ++ " " ++ f.name ++ ";").toList ≠
        boolMark.toList := by
      simp only [String.toList_append]
      simp [boolMark]
    rw [List.flatMap_cons, Code.shown_append, shown_fieldCode, List.append_assoc, List.map_cons]
    cases f.isBool with
    | false =>
      rw [if_neg (by simp), List.nil_append, List.singleton_append,
        readFields_line own.name unmarked, ih others]
    | true =>
      rw [if_pos rfl, List.singleton_append, List.singleton_append, readFields, if_pos rfl,
        readFields_line own.name unmarked, ih others]

theorem reads_native_struct (h : v.HasWords) :
    Reads DeclarationStyle.native.read? [] (Code.shown (NativeTypes.structCode v)).tail
      [.ofStruct false v] := by
  have lines : (Code.shown (NativeTypes.structCode v)).tail =
      [] ++ ("struct " ++ v.name).toList :: ['\x7b'] ::
        ((v.fields.map NativeTypes.fieldLine).map String.toList ++ "\x7d;".toList :: []) := by
    simp [Code.shown, NativeTypes.structCode]
  rw [lines]
  refine reads_block (fun x hx => absurd hx List.not_mem_nil) (opensBlock_start (by decide)) ?_
    (by decide) (fun x hx => absurd hx List.not_mem_nil) fun rest _ => ?_
  · intro x hx
    obtain ⟨line, hline, rfl⟩ := List.mem_map.1 hx
    obtain ⟨f, hf, rfl⟩ := List.mem_map.1 hline
    exact (h.fields f hf).begins.append.append.append.isBrace
  · rw [DeclarationStyle.read?_struct rfl (by decide) rfl]
    exact congrArg (fun fields => some (DeclarationText.struct v.name fields))
      (readFields_native h.fields)

theorem reads_managed_struct (h : v.HasWords) (lead : List Char) :
    Reads DeclarationStyle.managed.read? lead (Code.shown (ManagedTypes.structCode v))
      [.ofStruct true v] := by
  have lines : Code.shown (ManagedTypes.structCode v) =
      ["[StructLayout(LayoutKind.Sequential)]".toList] ++
        ("public struct " ++ v.name).toList :: ['\x7b'] ::
          (Code.shown (v.fields.flatMap ManagedTypes.fieldCode) ++ "\x7d".toList :: []) := by
    simp [Code.shown, ManagedTypes.structCode]
  rw [lines]
  refine reads_block (by decide) (opensBlock_start (by decide)) ?_
    (by decide) (fun x hx => absurd hx List.not_mem_nil) fun rest _ => ?_
  · intro x hx
    obtain ⟨line, hline, rfl⟩ := List.mem_map.1 hx
    rw [Code.texts_flatMap] at hline
    obtain ⟨f, hf, hline⟩ := List.mem_flatMap.1 hline
    exact isBrace_fieldCode f _ (List.mem_map_of_mem hline)
  · rw [DeclarationStyle.read?_struct rfl (by decide) rfl]
    exact congrArg (fun fields => some (DeclarationText.struct v.name fields))
      (readFields_managed h.fields)

end Pieces

/-- The line stands in a file as it is, behind its indentation. -/
structure IsShown (x : String) : Prop where
  oneLine : IsOneLine x
  unindented : trimLeft x.toList = x.toList

instance (x : String) : Decidable (IsShown x) :=
  decidable_of_iff (IsOneLine x ∧ trimLeft x.toList = x.toList)
    ⟨fun h => ⟨h.1, h.2⟩, fun h => ⟨h.oneLine, h.unindented⟩⟩

theorem isFrame_isShown : Code.IsFrame IsShown := ⟨by decide, by decide, by decide⟩

theorem isShown_start {start rest : String} (h : start.toList.head?.any (!isBlank ·) = true)
    (hs : IsOneLine start) (hr : IsOneLine rest) : IsShown (start ++ rest) := by
  refine ⟨isOneLine_append.2 ⟨hs, hr⟩, ?_⟩
  rw [String.toList_append]
  cases chars : start.toList with
  | nil =>
    rw [chars] at h
    cases h
  | cons c cs =>
    rw [chars] at h
    exact trimLeft_of_head (by simpa using h)

theorem Code.each_separated {p : String → Prop} {pieces : List Code} (frame : IsFrame p)
    (each : ∀ c ∈ pieces, Each p c) : Each p (separated pieces) := by
  cases pieces with
  | nil => exact each_nil
  | cons c cs =>
    obtain ⟨first, others⟩ := List.forall_mem_cons.1 each
    exact each_append.2 ⟨first, each_flatMap fun d hd =>
      each_append.2 ⟨each_blank frame, others d hd⟩⟩

section Shown

variable {e : ValueEnum} {v : ValueStruct} {c : Config} {body : Code}

theorem trimmedLines_shown (h : body.Each IsShown) :
    trimmedLines (c.generatedFile body) =
      c.header.shownLines c.indentUnit ++ (Code.shown body ++ [[]]) := by
  have unindented : body.texts.map (fun x => trimLeft x.toList) = Code.shown body :=
    List.map_congr_left fun x hx => (h x hx).unindented
  rw [Config.trimmedLines_generatedFile fun x hx => (h x hx).oneLine, unindented,
    List.append_assoc]

theorem ValueEnum.HasWords.shown_lines (h : e.HasWords) : (Code.lines e.lines).Each IsShown := by
  refine Code.each_lines.2 fun x hx => ?_
  obtain ⟨v, hv, rfl⟩ := List.mem_map.1 hx
  obtain ⟨word, begins⟩ := h.values v hv
  refine ⟨?_, begins.append.append.append.trimLeft⟩
  have value : IsOneLine (toString v.2) := (isOver_toString v.2).isOneLine (by decide)
  simp only [isOneLine_append, word.isOneLine, value]
  decide

theorem shown_native_enum (h : e.HasWords) : (NativeTypes.enumCode e).Each IsShown := by
  have width : IsOneLine (if e.isWide then "int64_t" else "int") := by split <;> decide
  refine Code.each_append.2 ⟨Code.each_append.2 ⟨Code.each_blank isFrame_isShown, ?_⟩,
    Code.each_given _ (Code.each_line.2 ?_)⟩
  · refine (Code.each_blockEnding isFrame_isShown).2 ⟨?_, h.shown_lines, (by decide)⟩
    simp only [String.append_assoc]
    refine isShown_start (by decide) (by decide) ?_
    simp only [isOneLine_append, h.name.isOneLine, width]
    decide
  · rw [String.append_assoc]
    exact isShown_start (by decide) (by decide) (h.name.isOneLine.suffixed (by decide))

theorem shown_managed_enum (h : e.HasWords) : (ManagedTypes.enumCode e).Each IsShown := by
  have width : IsOneLine (if e.isWide then "long" else "int") := by split <;> decide
  refine Code.each_append.2 ⟨Code.each_given _ (Code.each_line.2 (by decide)), ?_⟩
  refine (Code.each_block isFrame_isShown).2 ⟨?_, h.shown_lines⟩
  simp only [String.append_assoc]
  refine isShown_start (by decide) (by decide) ?_
  simp only [isOneLine_append, h.name.isOneLine, width]
  decide

theorem shown_native_struct (h : v.HasWords) : (NativeTypes.structCode v).Each IsShown := by
  refine Code.each_append.2 ⟨Code.each_blank isFrame_isShown,
    (Code.each_blockEnding isFrame_isShown).2 ⟨?_, ?_, (by decide)⟩⟩
  · exact isShown_start (by decide) (by decide) h.name.isOneLine
  · refine Code.each_lines.2 fun x hx => ?_
    obtain ⟨f, hf, rfl⟩ := List.mem_map.1 hx
    have words := h.fields f hf
    refine ⟨?_, words.begins.append.append.append.trimLeft⟩
    simp only [NativeTypes.fieldLine, isOneLine_append, words.oneLine, words.name.isOneLine]
    decide

theorem shown_managed_struct (h : v.HasWords) : (ManagedTypes.structCode v).Each IsShown := by
  refine Code.each_append.2 ⟨Code.each_line.2 (by decide),
    (Code.each_block isFrame_isShown).2 ⟨?_, Code.each_flatMap fun f hf => ?_⟩⟩
  · exact isShown_start (by decide) (by decide) h.name.isOneLine
  · have words := h.fields f hf
    refine Code.each_append.2 ⟨Code.each_given _ (Code.each_line.2 (by decide)),
      Code.each_line.2 ?_⟩
    simp only [String.append_assoc]
    refine isShown_start (by decide) (by decide) ?_
    simp only [isOneLine_append, words.oneLine, words.name.isOneLine]
    decide

end Shown

section Files

variable {c : Config} {enums : List ValueEnum} {structs : List ValueStruct} {n : NativeTypes}
  {m : ManagedTypes}

theorem opensBlock_header : ∀ x ∈ c.header.shownLines c.indentUnit, opensBlock x = false := by
  intro x hx
  obtain ⟨rest, rfl⟩ := Config.mem_shownLines_header hx
  simp [opensBlock]

theorem isGap_end : IsGap [[]] := ⟨by simp [StartsCalmly, opensBlock], by simp⟩

theorem forall₂_map_map {α β γ : Type} {R : β → γ → Prop} {f : α → β} {g : α → γ} {xs : List α}
    (h : ∀ x ∈ xs, R (f x) (g x)) : List.Forall₂ R (xs.map f) (xs.map g) := by
  rw [List.forall₂_map_left_iff, List.forall₂_map_right_iff]
  exact List.forall₂_same.2 h

theorem NativeTypes.isShown_code (classes : ∀ name ∈ n.classes, IsOneLine name)
    (enums : ∀ e ∈ n.enums, e.HasWords) (structs : ∀ v ∈ n.structs, v.HasWords) :
    n.code.Each IsShown := by
  refine Code.each_append.2 ⟨Code.each_append.2 ⟨Code.each_append.2 ⟨?_, ?_⟩,
    Code.each_flatMap fun e he => shown_native_enum (enums e he)⟩,
    Code.each_flatMap fun v hv => shown_native_struct (structs v hv)⟩
  · exact Code.each_lines.2 (by decide)
  · refine Code.each_apart isFrame_isShown (Code.each_lines.2 fun x hx => ?_)
    obtain ⟨name, hname, rfl⟩ := List.mem_map.1 hx
    rw [classLine, String.append_assoc]
    exact isShown_start (by decide) (by decide)
      ((classes name hname).suffixed (by decide))

theorem NativeTypes.opensBlock_above (names : List String) :
    ∀ x ∈ Code.shown (Code.lines ["#pragma once", "", Code.includeLine "ApiSupport.h"] ++
      Code.apart (Code.lines (names.map classLine))), opensBlock x = false := by
  intro x hx
  obtain ⟨text, htext, rfl⟩ := List.mem_map.1 hx
  rw [Code.texts_append, List.mem_append, Code.mem_texts_apart, Code.texts_lines,
    Code.texts_lines] at htext
  rcases htext with fixed | ⟨_, rfl⟩ | htext
  · have unopened : ∀ x ∈ ["#pragma once", "", Code.includeLine "ApiSupport.h"],
        opensBlock x.toList = false := by decide
    exact unopened text fixed
  · rfl
  · obtain ⟨name, _, rfl⟩ := List.mem_map.1 htext
    rw [classLine, String.append_assoc]
    exact opensBlock_start (by decide)

theorem NativeTypes.declarations_code (classes : ∀ name ∈ n.classes, IsOneLine name)
    (enums : ∀ e ∈ n.enums, e.HasWords) (structs : ∀ v ∈ n.structs, v.HasWords) :
    DeclarationStyle.native.declarations (c.generatedFile n.code) =
      n.enums.map (.ofEnum "int" "int64_t") ++ n.structs.map (.ofStruct false) := by
  let above := Code.lines ["#pragma once", "", Code.includeLine "ApiSupport.h"] ++
    Code.apart (Code.lines (n.classes.map classLine))
  let pieces := n.enums.map (fun e => (Code.shown (enumCode e)).tail) ++
    n.structs.map fun v => (Code.shown (structCode v)).tail
  have lines : Code.shown n.code = Code.shown above ++ pieces.flatMap fun p => [] :: p := by
    simp only [NativeTypes.code, above, pieces, Code.shown_append, Code.shown_flatMap,
      List.flatMap_append, List.flatMap_map, List.append_assoc]
    rfl
  have reads : List.Forall₂ (Reads DeclarationStyle.native.read? []) pieces
      (n.enums.map (fun e => [.ofEnum "int" "int64_t" e]) ++
        n.structs.map fun v => [.ofStruct false v]) :=
    List.rel_append (forall₂_map_map fun e he => reads_native_enum (enums e he))
      (forall₂_map_map fun v hv => reads_native_struct (structs v hv))
  obtain ⟨found, gap⟩ := filterMap_blocks_pieces reads isGap_end
  have calm : ∀ x ∈ c.header.shownLines c.indentUnit ++ Code.shown above, opensBlock x = false :=
    List.forall_mem_append.2 ⟨opensBlock_header, opensBlock_above n.classes⟩
  rw [DeclarationStyle.declarations, trimmedLines_shown (isShown_code classes enums structs), lines,
    List.append_assoc, ← List.append_assoc, blocks_append_of_calm calm gap.calm, found]
  rw [List.flatten_append, ← List.flatMap_def, ← List.flatMap_def, ← List.map_eq_flatMap,
    ← List.map_eq_flatMap]
  exact List.append_nil _

theorem DeclarationStyle.read?_eq_none {style : DeclarationStyle} {b : Block}
    (noEnum : afterStart? style.enumStart b.headline = none)
    (noStruct : afterStart? style.structStart b.headline = none) : style.read? b = none := by
  rw [read?, noEnum, noStruct, Option.map_none, ite_self]

/-- The namespace is the line above the first declaration, or nothing stands in it. -/
theorem filterMap_blocks_namespace {α : Type} {read : Block → Option α} {headline : List Char}
    {pieces : List (List (List Char))} {founds : List (List α)}
    (unread : ∀ b : Block, b.headline = headline ∨ b.headline = ['\x7b'] → read b = none)
    (each : List.Forall₂ (fun p found => ∀ lead ∈ [[], ['\x7b']], Reads read lead p found)
      pieces founds) :
    (blocks ([] :: headline :: ['\x7b'] ::
      ((pieces.head?.getD [] ++ pieces.tail.flatMap fun p => [] :: p) ++
        [['\x7d'], []]))).filterMap read = founds.flatten := by
  rw [filterMap_blocks_cons fun b h => unread b (.inl h),
    filterMap_blocks_cons fun b h => unread b (.inr h)]
  have gap : IsGap [['\x7d'], []] := ⟨by simp [StartsCalmly, opensBlock], by simp [startsWithBrace]⟩
  cases each with
  | nil => rfl
  | cons first others =>
    obtain ⟨found, gap⟩ := filterMap_blocks_pieces
      (others.imp fun _ _ h => h [] (by simp)) gap
    rw [List.head?_cons, Option.getD_some, List.tail_cons, List.append_assoc,
      (first ['\x7b'] (by simp)).reads _ gap, found, List.flatten_cons]
    exact congrArg _ (List.append_nil _)

theorem Code.shown_separated (pieces : List Code) : shown (separated pieces) =
    (pieces.map shown).head?.getD [] ++ (pieces.map shown).tail.flatMap fun p => [] :: p := by
  cases pieces with
  | nil => rfl
  | cons c cs =>
    rw [separated, shown_append, spaced, shown_flatMap, List.map_cons, List.head?_cons,
      Option.getD_some, List.tail_cons, List.flatMap_map]
    rfl

theorem ManagedTypes.isShown_code (line : IsOneLine c.managed.namespace)
    (enums : ∀ e ∈ m.enums, e.HasWords) (structs : ∀ v ∈ m.structs, v.HasWords) :
    (m.code c).Each IsShown := by
  refine Code.each_append.2 ⟨Code.each_lines.2 (by decide),
    (Code.each_block isFrame_isShown).2 ⟨isShown_start (by decide) (by decide) line,
      Code.each_separated isFrame_isShown fun piece hpiece => ?_⟩⟩
  rcases List.mem_append.1 hpiece with hpiece | hpiece
  · obtain ⟨e, he, rfl⟩ := List.mem_map.1 hpiece
    exact shown_managed_enum (enums e he)
  · obtain ⟨v, hv, rfl⟩ := List.mem_map.1 hpiece
    exact shown_managed_struct (structs v hv)

theorem DeclarationStyle.managed_unread (rest : String) {b : Block}
    (h : b.headline = ("namespace " ++ rest).toList ∨ b.headline = ['\x7b']) :
    managed.read? b = none := by
  have apart (start : String) (name : diverges start.toList "namespace ".toList = true)
      (brace : diverges start.toList ['\x7b'] = true) : afterStart? start b.headline = none := by
    rcases h with eq | eq
    · rw [eq, String.toList_append]
      exact afterStart?_eq_none name _
    · rw [eq, ← List.append_nil ['\x7b']]
      exact afterStart?_eq_none brace _
  exact read?_eq_none (apart _ (by decide) (by decide)) (apart _ (by decide) (by decide))

theorem ManagedTypes.declarations_code (line : IsOneLine c.managed.namespace)
    (enums : ∀ e ∈ m.enums, e.HasWords) (structs : ∀ v ∈ m.structs, v.HasWords) :
    DeclarationStyle.managed.declarations (c.generatedFile (m.code c)) =
      m.enums.map (.ofEnum "int" "long") ++ m.structs.map (.ofStruct true) := by
  let headline := ("namespace " ++ c.managed.namespace).toList
  let pieces := (m.enums.map enumCode ++ m.structs.map structCode).map Code.shown
  have reads : List.Forall₂
      (fun p found => ∀ lead ∈ [[], ['\x7b']], Reads DeclarationStyle.managed.read? lead p found)
      pieces (m.enums.map (fun e => [.ofEnum "int" "long" e]) ++
        m.structs.map fun v => [.ofStruct true v]) := by
    dsimp only [pieces]
    rw [List.map_append, List.map_map, List.map_map]
    refine List.rel_append (forall₂_map_map fun e he lead hlead => ?_)
      (forall₂_map_map fun v hv lead _ => reads_managed_struct (structs v hv) lead)
    refine reads_managed_enum (enums e he) ?_
    revert lead
    decide
  let above := ["using System;".toList, "using System.Runtime.InteropServices;".toList]
  have lines : Code.shown (m.code c) ++ [[]] = above ++ ([] :: headline :: ['\x7b'] ::
      ((pieces.head?.getD [] ++ pieces.tail.flatMap fun p => [] :: p) ++ [['\x7d'], []])) := by
    rw [← Code.shown_separated]
    simp [Code.shown, ManagedTypes.code, above, headline]
  have calm : ∀ x ∈ c.header.shownLines c.indentUnit ++ above, opensBlock x = false :=
    List.forall_mem_append.2 ⟨opensBlock_header, by decide⟩
  have begins : StartsCalmly ([] :: headline :: ['\x7b'] ::
      ((pieces.head?.getD [] ++ pieces.tail.flatMap fun p => [] :: p) ++ [['\x7d'], []])) := by
    intro x hx
    have two : x = [] ∨ x = headline := by simpa using hx
    rcases two with rfl | rfl
    · rfl
    · exact opensBlock_start (by decide)
  rw [DeclarationStyle.declarations, trimmedLines_shown (isShown_code line enums structs), lines,
    ← List.append_assoc, blocks_append_of_calm calm begins,
    filterMap_blocks_namespace (fun b => DeclarationStyle.managed_unread _) reads,
    List.flatten_append, ← List.flatMap_def, ← List.flatMap_def, ← List.map_eq_flatMap,
    ← List.map_eq_flatMap]

end Files

end InteropGen
