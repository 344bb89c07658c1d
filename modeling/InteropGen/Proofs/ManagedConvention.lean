import InteropGen.Proofs.AttributedLines
import InteropGen.Proofs.ValueAgreement
import Mathlib.Data.List.TakeWhile

set_option autoImplicit false

/-!
# The convention in managed files

In every managed file of a plan, each import stands below the attribute of the library, and each
delegate of a class of imports below the attribute of function pointers.  Only wrappers have a class
of imports.
-/

namespace InteropGen

open Text

def importsLines (file : String) : List (List Char) :=
  (trimmedLines file).dropWhile fun line => line ≠ importsMark.toList

/-- What a managed file declares of native code, it declares with the convention. -/
structure Config.Attributes (c : Config) (file : String) : Prop where
  imports : Attributed DeclaresImport (Import.libraryAttribute c).toList (trimmedLines file)
  delegates : Attributed DeclaresDelegate (callbackAttribute c).toList (importsLines file)

/-- A line that neither declares an import nor begins a class of imports. -/
structure IsAside (x : String) : Prop where
  oneLine : IsOneLine x
  notImport : ¬ DeclaresImport (trimLeft x.toList)
  notMark : trimLeft x.toList ≠ importsMark.toList

instance (x : String) : Decidable (IsAside x) :=
  decidable_of_iff (IsOneLine x ∧ ¬ DeclaresImport (trimLeft x.toList) ∧
      trimLeft x.toList ≠ importsMark.toList)
    ⟨fun h => ⟨h.1, h.2.1, h.2.2⟩, fun h => ⟨h.oneLine, h.notImport, h.notMark⟩⟩

/-- A text that begins like this, behind its blanks, begins neither as an import nor as the mark. -/
def startsAside (start : List Char) : Bool :=
  diverges importStart (trimLeft start) && diverges importsMark.toList (trimLeft start) &&
    !start.contains '\n'

section Lines

variable {start line : List Char} {x rest : String}

theorem not_declaresImport (h : ¬ (importStart <+: line ∧ ");".toList <:+ line)) :
    ¬ DeclaresImport line := by
  refine not_not_intro ?_
  rw [importSymbol?, if_neg]
  rwa [Bool.and_eq_true, List.isPrefixOf_iff_prefix, List.isSuffixOf_iff_suffix]

theorem isAside_start (h : startsAside start = true) (hr : IsOneLine rest) :
    IsAside (String.ofList start ++ rest) := by
  simp only [startsAside, Bool.and_eq_true, Bool.not_eq_true'] at h
  obtain ⟨⟨notImport, notMark⟩, oneLine⟩ := h
  have shown : trimLeft start ≠ [] := by
    intro empty
    rw [empty] at notImport
    exact absurd notImport (by decide)
  have trimmed : trimLeft (String.ofList start ++ rest).toList = trimLeft start ++ rest.toList := by
    rw [String.toList_append, String.toList_ofList, trimLeft_append shown]
  refine ⟨isOneLine_append.2 ⟨isOneLine_ofList (by simpa using oneLine), hr⟩, ?_, ?_⟩ <;>
    rw [trimmed]
  · exact not_declaresImport fun h => not_prefix_of_diverges notImport h.1
  · intro eq
    have begins : importsMark.toList <+: trimLeft start ++ rest.toList := ⟨[], by simp [eq]⟩
    exact not_prefix_of_diverges notMark begins

theorem IsAside.closed (h : startsAside start = true) : IsAside (String.ofList start) := by
  rw [← String.append_empty (s := String.ofList start)]
  exact isAside_start h (by decide)

theorem isAside_comma (h : IsOneLine x) : IsAside (x ++ ",") := by
  have last {ending : List Char} (suffix : ending <:+ trimLeft (x ++ ",").toList)
      (ne : ending ≠ []) : ending.getLast? = some ',' := by
    obtain ⟨front, eq⟩ := suffix.trans (List.dropWhile_suffix _)
    have whole : (x ++ ",").toList.getLast? = some ',' := by simp
    rw [← eq, List.getLast?_append_of_ne_nil _ ne] at whole
    exact whole
  refine ⟨h.suffixed (by decide), not_declaresImport fun h => ?_, fun eq => ?_⟩
  · exact absurd (last h.2 (by decide)) (by decide)
  · have whole : importsMark.toList <:+ trimLeft (x ++ ",").toList := eq ▸ List.suffix_refl _
    exact absurd (last whole (by decide)) (by decide)

theorem isFrame_isAside : Code.IsFrame IsAside := ⟨by decide, by decide, by decide⟩

end Lines

section Files

variable {c : Config} {s : Schema} {t : ApiType} {body : Code}

theorem header_declares_nothing :
    ∀ x ∈ c.header.shownLines c.indentUnit, ¬ DeclaresImport x ∧ x ≠ importsMark.toList := by
  intro x hx
  obtain ⟨rest, rfl⟩ := Config.mem_shownLines_header hx
  have apart : ¬ importStart <+: ['/'] ++ rest := not_prefix_of_diverges (by decide)
  exact ⟨not_declaresImport fun h => apart h.1, fun eq => by cases eq⟩

theorem Config.attributes_of_aside (h : body.Each IsAside) : c.Attributes (c.generatedFile body) := by
  have lines := trimmedLines_generatedFile (c := c) fun x hx => (h x hx).oneLine
  have each : ∀ x ∈ trimmedLines (c.generatedFile body),
      ¬ DeclaresImport x ∧ x ≠ importsMark.toList := by
    rw [lines]
    refine List.forall_mem_append.2 ⟨List.forall_mem_append.2 ⟨header_declares_nothing, ?_⟩,
      List.forall_mem_singleton.2 ⟨isFrame_isAside.empty.notImport, by decide⟩⟩
    exact List.forall_mem_map.2 fun x hx => ⟨(h x hx).notImport, (h x hx).notMark⟩
  have noImports : importsLines (c.generatedFile body) = [] := by
    rw [importsLines, List.dropWhile_eq_nil_iff]
    exact fun x hx => decide_eq_true (each x hx).2
  refine ⟨.of_none fun x hx => (each x hx).1, ?_⟩
  rw [noImports]
  exact .of_none fun x hx => absurd hx List.not_mem_nil

theorem isAside_field {f : ValueField} (h : f.HasWords) :
    IsAside ("public " ++ f.spelling.literal ++ " " ++ f.name ++ ";") := by
  have shown : trimLeft ("public " ++ f.spelling.literal ++ " " ++ f.name ++ ";").toList =
      ("public " ++ f.spelling.literal).toList ++ (" " ++ f.name).toList ++ [';'] := by
    simp only [String.append_assoc]
    rw [String.toList_append, trimLeft_append (by decide)]
    simp [trimLeft, isBlank]
  have oneLine : IsOneLine ("public " ++ f.spelling.literal ++ " " ++ f.name ++ ";") := by
    simp only [isOneLine_append, h.oneLine, h.name.isOneLine]
    decide
  have paren : ')' ∉ (" " ++ f.name).toList := by
    rw [String.toList_append, List.mem_append, not_or]
    exact ⟨by decide, h.name.not_mem (by decide) (by simp)⟩
  refine ⟨oneLine, not_declaresImport fun declared => ?_, fun eq => ?_⟩
  · -- In front of the semicolon stands the name of the field, or a blank.
    obtain ⟨front, eq⟩ := declared.2
    rw [shown] at eq
    have closing : front ++ [')'] = ("public " ++ f.spelling.literal).toList ++
        (" " ++ f.name).toList := by
      have semicolon : ");".toList = [')'] ++ [';'] := by decide
      rw [semicolon, ← List.append_assoc] at eq
      exact List.append_cancel_right eq
    have last : [')'] <:+ (" " ++ f.name).toList := by
      refine List.suffix_of_suffix_length_le ⟨front, closing⟩ (List.suffix_append _ _) ?_
      simp
    exact paren (last.subset (by simp))
  · rw [shown] at eq
    simp [importsMark] at eq

theorem ManagedTypes.aside_code {m : ManagedTypes} (line : IsOneLine c.managed.namespace)
    (enums : ∀ e ∈ m.enums, e.HasWords) (structs : ∀ v ∈ m.structs, v.HasWords) :
    (m.code c).Each IsAside := by
  have enum {e : ValueEnum} (h : e.HasWords) : (enumCode e).Each IsAside := by
    have width : IsOneLine (if e.isWide then "long" else "int") := by split <;> decide
    refine Code.each_append.2 ⟨Code.each_given _ (Code.each_line.2 (.closed (by decide))), ?_⟩
    refine (Code.each_block isFrame_isAside).2 ⟨?_, Code.each_lines.2 fun x hx => ?_⟩
    · simp only [String.append_assoc]
      refine isAside_start (by decide) ?_
      simp only [isOneLine_append, h.name.isOneLine, width]
      decide
    · obtain ⟨v, hv, rfl⟩ := List.mem_map.1 hx
      refine isAside_comma ?_
      simp only [isOneLine_append, (h.values v hv).1.isOneLine,
        (isOver_toString v.2).isOneLine (by decide)]
      decide
  have struct {v : ValueStruct} (h : v.HasWords) : (structCode v).Each IsAside := by
    refine Code.each_append.2 ⟨Code.each_line.2 (.closed (by decide)),
      (Code.each_block isFrame_isAside).2 ⟨isAside_start (by decide) h.name.isOneLine,
        Code.each_flatMap fun f hf => ?_⟩⟩
    exact Code.each_append.2 ⟨Code.each_given _ (Code.each_line.2 (.closed (by decide))),
      Code.each_line.2 (isAside_field (h.fields f hf))⟩
  have usings : Code.Each IsAside
      (Code.lines ["using System;", "using System.Runtime.InteropServices;", ""]) := by
    simp only [Code.each_lines_cons]
    exact ⟨.closed (by decide), .closed (by decide), isFrame_isAside.empty, Code.each_nil⟩
  refine Code.each_append.2 ⟨usings,
    (Code.each_block isFrame_isAside).2 ⟨isAside_start (by decide) line, ?_⟩⟩
  refine Code.each_separated isFrame_isAside fun piece hpiece => ?_
  rcases List.mem_append.1 hpiece with hpiece | hpiece
  · obtain ⟨e, he, rfl⟩ := List.mem_map.1 hpiece
    exact enum (enums e he)
  · obtain ⟨v, hv, rfl⟩ := List.mem_map.1 hpiece
    exact struct (structs v hv)

section Wrapper

variable {exports : ExportTable} {slots : Option SlotTable} {w : Wrapper}
  (lineNames : c.HasLineNames) (oneLine : IsOneLine c.managed.nativeModule)
  (names : s.HasIdentifiers) (ht : t ∈ s.types)
  (exports_ok : ExportTable.build s t = .ok exports) (slots_ok : t.slotTable = .ok slots)
  (parts : w.Parts s t exports slots)

def Wrapper.below (c : Config) (w : Wrapper) : Code :=
  Code.lines [importsMark, w.imports.headline, "\x7b", Imports.moduleName c] ++
    w.imports.declarations c ++ Code.lines ["\x7d", "\x7d", "\x7d"]

theorem Wrapper.texts_below (c : Config) (w : Wrapper) :
    (w.code c).texts = w.front c ++ (w.below c).texts := by
  rw [texts_code, Imports.texts_code]
  simp [below]

theorem Wrapper.attributed_below (readable : w.imports.IsReadable)
    (oneLine : IsOneLine c.managed.nativeModule) :
    (w.below c).Attributed DeclaresImport (Import.libraryAttribute c) ∧
      (w.below c).Attributed DeclaresDelegate (callbackAttribute c) := by
  have headline := isQuiet_importsHeadline w.imports
  have module_ := isQuiet_moduleName oneLine
  have others : OtherLine w.imports.headline ∧ OtherLine (Imports.moduleName c) := by
    constructor
    · rw [Imports.headline]
      split <;> decide
    · change OtherLine ("private const string NativeModuleName = \"" ++ c.managed.nativeModule ++
        "\";")
      rw [String.append_assoc]
      exact otherLine_start (by decide) _
  constructor
  · refine ((Code.Attributed.of_each ?_).append readable.attributed_imports).append (.of_each ?_)
    · simp only [Code.each_lines_cons]
      exact ⟨by decide, headline.not_declaresImport, isQuiet_opening.not_declaresImport,
        module_.not_declaresImport, Code.each_nil⟩
    · simp only [Code.each_lines_cons]
      exact ⟨isQuiet_closing.not_declaresImport, isQuiet_closing.not_declaresImport,
        isQuiet_closing.not_declaresImport, Code.each_nil⟩
  · refine ((Code.Attributed.of_each ?_).append readable.attributed_delegates).append (.of_each ?_)
    · simp only [Code.each_lines_cons]
      exact ⟨by decide, others.1, by decide, others.2, Code.each_nil⟩
    · exact Code.each_lines.2 (by decide)

include lineNames oneLine names ht exports_ok slots_ok parts

theorem Wrapper.attributes_generatedFile : c.Attributes (c.generatedFile (w.code c)) := by
  have readable := Imports.isReadable_ofClass names (names t ht) exports_ok slots_ok parts.imports_ok
  have shown := shown_code lineNames names ht exports_ok slots_ok parts oneLine
  have kept := kept_front lineNames names ht exports_ok slots_ok parts
  obtain ⟨imports, delegates⟩ := attributed_below (c := c) readable oneLine
  have texts : (w.code c).texts.map (fun x => trimLeft x.toList) =
      (w.front c).map String.toList ++ (w.below c).texts.map String.toList := by
    rw [← List.map_append, ← texts_below]
    exact List.map_congr_left fun x hx => (shown x hx).2
  have lines : trimmedLines (c.generatedFile (w.code c)) =
      (c.header.shownLines c.indentUnit ++ (w.front c).map String.toList) ++
        ((w.below c).texts.map String.toList ++ [[]]) := by
    rw [Config.trimmedLines_generatedFile fun x hx => (shown x hx).1, texts]
    simp only [List.append_assoc]
  have above : ∀ x ∈ c.header.shownLines c.indentUnit ++ (w.front c).map String.toList,
      ¬ DeclaresImport x ∧ x ≠ importsMark.toList := by
    refine List.forall_mem_append.2 ⟨header_declares_nothing, List.forall_mem_map.2 fun x hx => ?_⟩
    exact ⟨not_not_intro (kept x hx).notImport, (kept x hx).notMark⟩
  have below : importsLines (c.generatedFile (w.code c)) =
      (w.below c).texts.map String.toList ++ [[]] := by
    have outside : ¬ decide (importsMark.toList ≠ importsMark.toList) = true := by simp
    have head : ∃ rest, (w.below c).texts.map String.toList ++ [[]] =
        importsMark.toList :: rest := ⟨_, rfl⟩
    obtain ⟨rest, head⟩ := head
    rw [importsLines, lines, List.dropWhile_append_of_pos fun x hx =>
      decide_eq_true (above x hx).2, head,
      List.dropWhile_cons_of_neg (p := fun line => line ≠ importsMark.toList) outside]
  constructor
  · rw [lines]
    exact (Attributed.of_none fun x hx => (above x hx).1).append
      (Attributed.append imports (.of_none (by decide)))
  · rw [below]
    exact Attributed.append delegates (.of_none (by decide))

end Wrapper

section ObjectBase

variable {name : String} (h : IsOneLine name)

include h in
theorem ObjectBase.aside_setter : (setter name).Each IsAside := by
  have stored : IsAside ("    instances[value] = new WeakReference<" ++ name ++ ">(this);") := by
    rw [String.append_assoc]
    exact isAside_start (by decide) (h.suffixed (by decide))
  refine (Code.each_block isFrame_isAside).2 ⟨.closed (by decide), ?_⟩
  simp only [Code.each_lines_cons]
  exact ⟨.closed (by decide), .closed (by decide), .closed (by decide), .closed (by decide), stored,
    Code.each_nil⟩

include h in
theorem ObjectBase.aside_lookup : (lookup name).Each IsAside := by
  have headline : IsAside
      ("public static T? GetFromNativePointer<T>(IntPtr pointer, Func<IntPtr, T>? create) " ++
        "where T : " ++ name) := by
    rw [String.append_assoc]
    exact isAside_start (by decide) (h.prefixed (by decide))
  refine (Code.each_block isFrame_isAside).2 ⟨headline, ?_⟩
  simp only [Code.each_lines_cons]
  exact ⟨.closed (by decide), .closed (by decide), isAside_start (by decide) (by decide),
    .closed (by decide), .closed (by decide), Code.each_nil⟩

theorem ObjectBase.aside_release : release.Each IsAside := by
  refine (Code.each_block isFrame_isAside).2 ⟨.closed (by decide), ?_⟩
  simp only [Code.each_lines_cons]
  exact ⟨.closed (by decide), .closed (by decide), Code.each_nil⟩

theorem ObjectBase.aside_dispose : dispose.Each IsAside := by
  refine (Code.each_block isFrame_isAside).2 ⟨.closed (by decide), ?_⟩
  simp only [Code.each_lines_cons]
  exact ⟨.closed (by decide), .closed (by decide), .closed (by decide), .closed (by decide),
    .closed (by decide), Code.each_nil⟩

include h in
theorem ObjectBase.aside_members : ∀ piece ∈ members name, piece.Each IsAside := by
  have frame := isFrame_isAside
  have line {start : List Char} (start_ok : startsAside start = true) (ending : String)
      (ending_ok : IsOneLine ending) : IsAside (String.ofList start ++ name ++ ending) := by
    rw [String.append_assoc]
    exact isAside_start start_ok (isOneLine_append.2 ⟨h, ending_ok⟩)
  simp only [members, List.forall_mem_cons, Code.each_line, Code.each_block frame,
    Code.each_lines_cons]
  exact ⟨line (by decide) _ (by decide), .closed (by decide),
    ⟨line (by decide) _ (by decide), Code.each_nil⟩,
    ⟨line (by decide) _ (by decide), .closed (by decide)⟩,
    ⟨.closed (by decide), .closed (by decide), Code.each_nil⟩, .closed (by decide),
    .closed (by decide), aside_setter h, aside_lookup h, aside_release,
    ⟨.closed (by decide), Code.each_nil⟩, aside_dispose, by simp⟩

theorem ObjectBase.aside_code (lineNames : c.HasLineNames) :
    (ObjectBase.code c).Each IsAside := by
  have frame := isFrame_isAside
  have headline : IsAside
      ("internal abstract class " ++ c.managed.objectClass ++ " : IDisposable") := by
    rw [String.append_assoc]
    exact isAside_start (by decide) (lineNames.objectClass.suffixed (by decide))
  have arguments : eventArguments.Each IsAside := by
    refine (Code.each_block frame).2 ⟨.closed (by decide), Code.each_separated frame ?_⟩
    simp only [List.forall_mem_cons, Code.each_line, Code.each_block frame]
    exact ⟨⟨.closed (by decide), .closed (by decide)⟩, .closed (by decide), .closed (by decide),
      by simp⟩
  refine Code.each_append.2 ⟨?_, (Code.each_block frame).2
    ⟨isAside_start (by decide) lineNames.namespace, Code.each_separated frame ?_⟩⟩
  · simp only [Code.each_lines_cons]
    exact ⟨.closed (by decide), frame.empty, .closed (by decide), .closed (by decide), frame.empty,
      Code.each_nil⟩
  simp only [List.forall_mem_cons, Code.each_block frame]
  exact ⟨⟨headline, Code.each_separated frame (aside_members lineNames.objectClass)⟩, arguments,
    Code.each_line.2 (isAside_start (by decide) (by decide)), by simp⟩

end ObjectBase

end Files

end InteropGen
