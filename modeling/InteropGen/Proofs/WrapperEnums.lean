import InteropGen.Proofs.Enumerations
import InteropGen.Proofs.WrapperText

set_option autoImplicit false

/-!
# Enumerations of a wrapper

The class of imports enumerates the events and the slots of its wrapper.  Below each enumeration all
lines end with a mark, except the headline of the other one.
-/

namespace InteropGen

open Text

variable {c : Config}

theorem EndsInMark.ne {line : String} (h : EndsInMark line) {e : Char}
    (part : isIdentifierPart e = true) : line.toList.getLast? ≠ some e := by
  intro last
  rw [h e last] at part
  cases part

theorem marked_callbackAttribute (c : Config) : EndsInMark (callbackAttribute c) := by
  change EndsInMark ("[UnmanagedFunctionPointer(" ++ c.native.convention.managed ++ ")]")
  exact endsInMark_append (by decide)

theorem marked_libraryAttribute (c : Config) : EndsInMark (Import.libraryAttribute c) := by
  change EndsInMark ("[DllImport(NativeModuleName, CallingConvention = " ++
    c.native.convention.managed ++ ")]")
  exact endsInMark_append (by decide)

theorem marked_marshalling {o : Option String} (h : ∀ x ∈ o, x ∈ returnAttributes) :
    Code.Each EndsInMark (Code.lines o.toList) := by
  refine Code.each_lines.2 fun x hx => ?_
  have mem := h x (Option.mem_toList.1 hx)
  simp only [returnAttributes, List.mem_cons, List.not_mem_nil, or_false] at mem
  rcases mem with rfl | rfl
  · exact endsInMark_closed (by decide)
  · exact endsInMark_closed (by decide)

theorem marked_delegate {d : SlotDelegate} (h : d.IsLine) (typeName : String) :
    Code.Each EndsInMark (d.code c typeName) := by
  have line : EndsInMark (d.line typeName) := by
    change EndsInMark ("public delegate " ++ d.result.literal ++ " " ++ typeName ++ d.slot ++
      "Trampoline(" ++ Declared.join d.parameters ++ ");")
    exact endsInMark_append (by decide)
  simp only [SlotDelegate.code, Code.each_append, Code.each_line]
  exact ⟨⟨⟨Code.each_blank isFrame_endsInMark, marked_callbackAttribute c⟩,
    marked_marshalling h.marshalling⟩, line⟩

theorem marked_import {i : Import} (h : i.IsReadable) : Code.Each EndsInMark (i.code c) := by
  have line : EndsInMark i.line := by
    rw [Import.line_eq]
    exact endsInMark_append (by decide)
  simp only [Import.code, Code.each_append, Code.each_line]
  exact ⟨⟨⟨Code.each_blank isFrame_endsInMark, marked_libraryAttribute c⟩,
    marked_marshalling h.marshalling⟩, line⟩

namespace SlotDelegates

def headline (d : SlotDelegates) : String := "public enum " ++ d.typeName ++ "Trampoline"

def types (c : Config) (d : SlotDelegates) : Code :=
  Code.blank ++ Code.line (callbackAttribute c) ++ Code.line d.locatorLine ++
    d.delegates.flatMap (SlotDelegate.code c d.typeName)

theorem texts_code (c : Config) (d : SlotDelegates) :
    (d.code c).texts = d.headline :: "\x7b" :: (d.enumerators.map (· ++ ",") ++
      "\x7d" :: (d.types c).texts) := by
  simp [code, types, headline]

theorem marked_types {d : SlotDelegates} (lines : ∀ x ∈ d.delegates, x.IsLine) :
    Code.Each EndsInMark (d.types c) := by
  have locator : EndsInMark d.locatorLine := by
    change EndsInMark ("public delegate IntPtr " ++ d.typeName ++ "TrampolineLocatorCallback(" ++
      d.typeName ++ "Trampoline trampoline);")
    exact endsInMark_append (by decide)
  simp only [types, Code.each_append, Code.each_line]
  exact ⟨⟨⟨Code.each_blank isFrame_endsInMark, marked_callbackAttribute c⟩, locator⟩,
    Code.each_flatMap fun x hx => marked_delegate (lines x hx) d.typeName⟩

theorem isHeadline {d : SlotDelegates} (own : IsWord d.typeName) : IsHeadline d.headline :=
  isHeadline_append (by decide) (by decide) own.isOneLine (by decide)
    (by decide : "Trampoline".toList.getLast? = some 'e') (by decide)

theorem last_headline (d : SlotDelegates) : d.headline.toList.getLast? = some 'e' := by
  rw [headline, String.toList_append, List.getLast?_append]
  rfl

theorem marked_code {d : SlotDelegates} (lines : ∀ x ∈ d.delegates, x.IsLine) :
    ∀ x ∈ (d.code c).texts, x = d.headline ∨ EndsInMark x := by
  intro x hx
  rw [texts_code] at hx
  simp only [List.mem_cons, List.mem_append] at hx
  rcases hx with rfl | rfl | hx | rfl | hx
  · exact .inl rfl
  · exact .inr isFrame_endsInMark.opening
  · obtain ⟨name, _, rfl⟩ := List.mem_map.1 hx
    exact .inr (endsInMark_append (by decide))
  · exact .inr isFrame_endsInMark.closing
  · exact .inr (marked_types lines x hx)

end SlotDelegates

namespace Imports

variable {imports : Imports}

def eventHeadline (imports : Imports) : String := "public enum " ++ imports.typeName ++ "Event"

theorem isHeadline_events (own : IsWord imports.typeName) : IsHeadline imports.eventHeadline :=
  isHeadline_append (by decide) (by decide) own.isOneLine (by decide)
    (by decide : "Event".toList.getLast? = some 't') (by decide)

def importCode (c : Config) (imports : Imports) : Code :=
  imports.imports.flatMap (Import.code c) ++ Code.lines ["\x7d", "\x7d", "\x7d"]

theorem IsReadable.marked_importCode (h : imports.IsReadable) :
    Code.Each EndsInMark (imports.importCode c) := by
  have closing : EndsInMark "\x7d" := isFrame_endsInMark.closing
  simp only [importCode, Code.each_append, Code.each_lines_cons]
  exact ⟨Code.each_flatMap fun i hi => marked_import (h.imports i hi), closing, closing, closing,
    Code.each_nil⟩

theorem IsReadable.oneLine_importCode (h : imports.IsReadable) :
    Code.Each IsOneLine (imports.importCode c) := by
  have closing : IsOneLine "\x7d" := by decide
  simp only [importCode, Code.each_append, Code.each_lines_cons]
  refine ⟨Code.each_flatMap fun i hi x hx => ?_, closing, closing, closing, Code.each_nil⟩
  rcases (h.imports i hi).sifts.cases_of_mem hx with quiet | mem
  · exact quiet.oneLine
  · rw [List.mem_singleton.1 mem]
    exact (h.imports i hi).isOneLine

end Imports

namespace Wrapper

variable {w : Wrapper}

def moduleFront (c : Config) (w : Wrapper) : List String :=
  w.front c ++ [importsMark, w.imports.headline, "\x7b", Imports.moduleName c]

theorem texts_declarations (c : Config) (w : Wrapper) :
    (w.code c).texts = w.moduleFront c ++
      ((Code.given (!w.imports.events.isEmpty) (w.imports.eventTypes c)).texts ++
        ((w.imports.delegates.map fun d => Code.blank ++ d.code c).getD []).texts ++
        (w.imports.importCode c).texts) := by
  rw [texts_code, Imports.texts_code]
  simp [moduleFront, Imports.declarations, Imports.importCode]

theorem enumMembers?_events (readable : w.imports.IsReadable) (some : w.imports.events ≠ []) :
    enumMembers? w.imports.eventHeadline (c.generatedFile (w.code c)) = .some w.imports.events := by
  have has : (!w.imports.events.isEmpty) = true := by
    cases events : w.imports.events with
    | nil => exact absurd events some
    | cons _ _ => rfl
  have texts : (w.code c).texts = w.moduleFront c ++ ["", callbackAttribute c,
      "public delegate IntPtr " ++ w.imports.typeName ++ "EventCallbackType(IntPtr obj, " ++
        w.imports.typeName ++ "Event e, IntPtr parameter);", ""] ++
      w.imports.eventHeadline :: ("\x7b" :: (w.imports.events.map (fun name => name ++ ",") ++
        "\x7d" :: (((w.imports.delegates.map fun d => Code.blank ++ d.code c).getD []).texts ++
          (w.imports.importCode c).texts))) := by
    rw [texts_declarations, has]
    simp [Code.given, Imports.eventTypes, Imports.eventHeadline]
  have last : w.imports.eventHeadline.toList.getLast? = .some 't' := by
    rw [Imports.eventHeadline, String.toList_append, List.getLast?_append]
    rfl
  refine enumMembers?_generatedFile texts readable.events (by decide)
    (Imports.isHeadline_events readable.typeName) ?_
  have below {code : Code} (oneLine : Code.Each IsOneLine code) (marked : Code.Each EndsInMark code) :
      ∀ x ∈ code.texts, IsBelow w.imports.eventHeadline x := fun x hx =>
    isBelow_of_last last (oneLine x hx) ((marked x hx).ne (by decide))
  refine List.forall_mem_cons.2 ⟨isBelow_of_last last (by decide) (by decide),
    List.forall_mem_append.2 ⟨?_, below readable.oneLine_importCode readable.marked_importCode⟩⟩
  cases delegates : w.imports.delegates with
  | none => exact fun x hx => absurd hx List.not_mem_nil
  | some d =>
    obtain ⟨own, lines⟩ := readable.delegates d delegates
    have quiet : QuietCode (d.code c) := quiet_delegates own lines
    intro x hx
    change x ∈ (Code.blank ++ d.code c).texts at hx
    rw [Code.texts_append] at hx
    rcases List.mem_append.1 hx with hx | hx
    · rw [List.mem_singleton.1 hx]
      exact isBelow_of_last last (by decide) (by decide)
    · refine isBelow_of_last last (quiet x hx).oneLine ?_
      rcases SlotDelegates.marked_code lines x hx with rfl | mark
      · rw [SlotDelegates.last_headline]
        decide
      · exact mark.ne (by decide)

theorem enumMembers?_slots (readable : w.imports.IsReadable) {d : SlotDelegates}
    (delegates : w.imports.delegates = some d) :
    enumMembers? d.headline (c.generatedFile (w.code c)) = some d.enumerators := by
  obtain ⟨own, lines⟩ := readable.delegates d delegates
  have quiet : QuietCode (d.code c) := quiet_delegates own lines
  have texts : (w.code c).texts = w.moduleFront c ++
      (Code.given (!w.imports.events.isEmpty) (w.imports.eventTypes c)).texts ++ [""] ++
      d.headline :: ("\x7b" :: (d.enumerators.map (fun name => name ++ ",") ++
        "\x7d" :: ((d.types c).texts ++ (w.imports.importCode c).texts))) := by
    rw [texts_declarations, delegates]
    simp [SlotDelegates.texts_code]
  have words : ∀ name ∈ d.enumerators, IsWord name := by
    intro name hname
    obtain ⟨x, hx, rfl⟩ := List.mem_map.1 hname
    exact (lines x hx).slot
  have types_ok : Code.Each IsOneLine (d.types c) := by
    intro x hx
    refine (quiet x ?_).oneLine
    rw [SlotDelegates.texts_code]
    simp [hx]
  have last := SlotDelegates.last_headline d
  have below {code : Code} (oneLine : Code.Each IsOneLine code) (marked : Code.Each EndsInMark code) :
      ∀ x ∈ code.texts, IsBelow d.headline x := fun x hx =>
    isBelow_of_last last (oneLine x hx) ((marked x hx).ne (by decide))
  refine enumMembers?_generatedFile texts words (by decide) (SlotDelegates.isHeadline own) ?_
  exact List.forall_mem_cons.2 ⟨isBelow_of_last last (by decide) (by decide),
    List.forall_mem_append.2 ⟨below types_ok (SlotDelegates.marked_types lines),
      below readable.oneLine_importCode readable.marked_importCode⟩⟩

end Wrapper

end InteropGen
