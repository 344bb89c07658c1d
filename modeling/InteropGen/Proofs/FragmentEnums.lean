import InteropGen.Proofs.DeclaredNames
import InteropGen.Proofs.Enumerations
import InteropGen.Proofs.Planning

set_option autoImplicit false

/-!
# Enumerations of a fragment

The fragment of a native class enumerates its events and, in a nested structure, its slots.  Few of
the lines below an enumeration end with a name, and those begin with other words.
-/

namespace InteropGen

open Text

variable {c : Config} {s : Schema} {t : ApiType}

section Events

variable {e : NativeEvents} {headline : String} (hl : IsHeadline headline)
  (own : IsWord e.typeName)
include own

theorem isOneLine_callbackType : IsOneLine e.callbackType :=
  own.isOneLine.suffixed (by decide)

include hl

theorem below_callbackSetter : Code.Each (IsBelow headline) e.callbackSetter := by
  have type := isOneLine_callbackType own
  have signature : IsBelow headline ("static void SetEventCallback(" ++ e.callbackType ++ " value)") :=
    isBelow_append hl (type.prefixed (by decide)) (by decide) (by decide)
  rw [NativeEvents.callbackSetter, Code.each_block (isFrame_isBelow hl), Code.each_line]
  exact ⟨signature, isBelow_closed hl (by decide) (by decide)⟩

theorem below_raise : Code.Each (IsBelow headline) e.raise := by
  have type := isOneLine_callbackType own
  have signature : IsBelow headline
      ("void* RaiseEvent(" ++ e.typeName ++ "Event event, void* parameter = nullptr)") :=
    isBelow_append hl (own.isOneLine.prefixed (by decide)) (by decide) (by decide)
  have callback : IsBelow headline (e.callbackType ++ " callback = EventCallback();") :=
    isBelow_append hl type (by decide) (by decide)
  simp only [NativeEvents.raise, Code.each_block (isFrame_isBelow hl), Code.each_append,
    Code.each_lines_cons, Code.each_nest, Code.each_line]
  exact ⟨signature, ⟨⟨callback, isBelow_closed hl (by decide) (by decide), Code.each_nil⟩,
    isBelow_closed hl (by decide) (by decide)⟩, isBelow_closed hl (by decide) (by decide)⟩

theorem below_storage : Code.Each (IsBelow headline) e.storage := by
  have type := isOneLine_callbackType own
  have signature : IsBelow headline ("static " ++ e.callbackType ++ "& EventCallback()") :=
    isBelow_append hl (type.prefixed (by decide)) (by decide) (by decide)
  have callback : IsBelow headline ("static " ++ e.callbackType ++ " callback = nullptr;") :=
    isBelow_append hl (type.prefixed (by decide)) (by decide) (by decide)
  simp only [NativeEvents.storage, Code.each_block (isFrame_isBelow hl), Code.each_lines_cons]
  exact ⟨signature, callback, isBelow_closed hl (by decide) (by decide), Code.each_nil⟩

omit own in
theorem below_revealed (base : ∀ b ∈ e.hiddenBase, IsWord b) :
    Code.Each (IsBelow headline) e.revealed := by
  rw [NativeEvents.revealed]
  split
  · exact Code.each_nil
  · rename_i b hb
    have using_ok : IsBelow headline ("using " ++ b ++ "::RaiseEvent;") :=
      isBelow_append hl ((base b hb).isOneLine.prefixed (by decide)) (by decide)
        (by decide)
    exact Code.each_append.2 ⟨Code.each_line.2 using_ok, Code.each_blank (isFrame_isBelow hl)⟩

end Events

namespace NativeEvents

variable {e : NativeEvents}

def headline (e : NativeEvents) : String := "enum class " ++ e.typeName ++ "Event"

def plumbing (e : NativeEvents) : Code :=
  Code.blank ++ Code.line e.typedefLine ++ Code.blank ++ e.callbackSetter ++ Code.blank ++
    Code.line "protected:" ++ e.revealed ++ e.raise ++ Code.blank ++ Code.line "private:" ++ e.storage

theorem texts_code (e : NativeEvents) :
    e.code.texts = "public:" :: e.headline :: ("\x7b" :: (e.names.map (fun name => name ++ ",") ++
      "\x7d;" :: e.plumbing.texts)) := by
  simp [code, plumbing, headline]

theorem isHeadline (own : IsWord e.typeName) : IsHeadline e.headline :=
  isHeadline_append (by decide) (by decide) own.isOneLine (by decide)
    (by decide : "Event".toList.getLast? = some 't') (by decide)

theorem below_plumbing {headline : String} (hl : IsHeadline headline) (own : IsWord e.typeName)
    (base : ∀ b ∈ e.hiddenBase, IsWord b) : Code.Each (IsBelow headline) e.plumbing := by
  have frame := isFrame_isBelow hl
  have typedef : IsBelow headline e.typedefLine := by
    change IsBelow headline ("typedef void* (NATIVE_CALLBACK_CALL* " ++ e.callbackType ++ ")(" ++
      e.typeName ++ "* obj, " ++ e.typeName ++ "Event event, void* parameter);")
    refine isBelow_append hl ?_ (by decide) (by decide)
    simp only [isOneLine_append, isOneLine_callbackType own, own.isOneLine]
    decide
  simp only [plumbing, Code.each_append, Code.each_line]
  exact ⟨⟨⟨⟨⟨⟨⟨⟨⟨⟨Code.each_blank frame, typedef⟩, Code.each_blank frame⟩,
    below_callbackSetter hl own⟩, Code.each_blank frame⟩, isBelow_closed hl (by decide) (by decide)⟩,
    below_revealed hl base⟩, below_raise hl own⟩, Code.each_blank frame⟩,
    isBelow_closed hl (by decide) (by decide)⟩, below_storage hl own⟩

end NativeEvents

section Slots

structure SlotWrapper.IsLine (w : SlotWrapper) : Prop where
  slot : IsWord w.slot
  result : IsOneLine w.result.literal
  parameters : ∀ d ∈ w.parameters, IsOver spellingMarks d.text
  names : ∀ d ∈ w.parameters, IsWord d.name

theorem SlotWrapper.isLine_ofSlot (names : s.HasIdentifiers) (own : t.HasIdentifiers) {slot : Slot}
    (word : IsWord slot.name) {w : SlotWrapper} (h : ofSlot s t slot = .ok w) : w.IsLine := by
  obtain ⟨result, hresult, h⟩ := bind_eq_ok.1 h
  obtain ⟨parameters, hparameters, h⟩ := bind_eq_ok.1 h
  cases h
  have words := own.isWord_parameters slot.member
  refine ⟨word, (names.isOver_resolve hresult).isOneLine (by decide),
    List.forall_mem_append.2 ⟨?_, names.isOver_declareAll words hparameters⟩,
    List.forall_mem_append.2 ⟨?_, fun d hd => ?_⟩⟩
  · cases (t.signature slot.member).isStatic with
    | true => exact fun d hd => absurd hd List.not_mem_nil
    | false => exact List.forall_mem_singleton.2 (by decide : IsOver spellingMarks "void* obj")
  · cases (t.signature slot.member).isStatic with
    | true => exact fun d hd => absurd hd List.not_mem_nil
    | false => exact List.forall_mem_singleton.2 (by decide : IsWord "obj")
  · obtain ⟨p, hp, ok⟩ :=
      exists_left_of_forall₂ ((Schema.declareAll_stepwise s .flat).forall₂ hparameters) hd
    obtain ⟨spelling, _, rfl⟩ := map_eq_ok.1 ok
    exact words p hp

variable {headline : String} (hl : IsHeadline headline)
include hl

theorem below_slotWrapper {w : SlotWrapper} (h : w.IsLine) :
    Code.Each (IsBelow headline) w.code := by
  have frame := isFrame_isBelow hl
  have slot := h.slot.isOneLine
  have join := isOneLine_join h.parameters
  have typedef : IsBelow headline w.typedefLine := by
    change IsBelow headline ("typedef " ++ w.result.literal ++ " (NATIVE_CALLBACK_CALL* T" ++
      w.slot ++ ")(" ++ Declared.join w.parameters ++ ");")
    refine isBelow_append hl ?_ (by decide) (by decide)
    simp only [isOneLine_append, h.result, slot, join]
    decide
  have signature : IsBelow headline w.signatureLine := by
    change IsBelow headline ("static " ++ w.result.literal ++ " " ++ w.slot ++ "(" ++
      Declared.join w.parameters ++ ")")
    refine isBelow_append hl ?_ (by decide) (by decide)
    simp only [isOneLine_append, h.result, slot, join]
    decide
  have call : IsOneLine w.call := by
    have arguments : IsOneLine (", ".intercalate (w.parameters.map Declared.name)) := by
      refine isOneLine_intercalate (by decide) fun name hname => ?_
      obtain ⟨d, hd, rfl⟩ := List.mem_map.1 hname
      exact (h.names d hd).isOneLine
    change IsOneLine ("reinterpret_cast<T" ++ w.slot ++ ">(Locate(Trampoline::" ++ w.slot ++
      "))(" ++ ", ".intercalate (w.parameters.map Declared.name) ++ ")")
    simp only [isOneLine_append, slot, arguments]
    decide
  have statement : IsBelow headline w.statement := by
    rw [SlotWrapper.statement]
    split
    · exact isBelow_append hl call (by decide) (by decide)
    · exact isBelow_append hl (call.prefixed (by decide)) (by decide) (by decide)
  simp only [SlotWrapper.code, Code.each_append, Code.each_line, Code.each_block frame]
  exact ⟨⟨⟨Code.each_blank frame, typedef⟩, Code.each_blank frame⟩, signature, statement⟩

theorem below_setter : Code.Each (IsBelow headline) NativeTrampolines.setter := by
  simp only [NativeTrampolines.setter, Code.each_block (isFrame_isBelow hl), Code.each_lines_cons]
  exact ⟨isBelow_closed hl (by decide) (by decide), isBelow_closed hl (by decide) (by decide),
    isBelow_closed hl (by decide) (by decide), Code.each_nil⟩

theorem below_locator : Code.Each (IsBelow headline) NativeTrampolines.locator := by
  simp only [NativeTrampolines.locator, Code.each_block (isFrame_isBelow hl), Code.each_lines_cons]
  exact ⟨isBelow_closed hl (by decide) (by decide), isBelow_closed hl (by decide) (by decide),
    isBelow_closed hl (by decide) (by decide), Code.each_nil⟩

theorem below_locate {n : NativeTrampolines} (own : IsWord n.typeName) :
    Code.Each (IsBelow headline) n.locate := by
  have unset : IsBelow headline ("throw TrampolineLocatorNotSetException(\"" ++ n.typeName ++
      "\");") :=
    isBelow_append hl (own.isOneLine.prefixed (by decide)) (by decide) (by decide)
  have unknown : IsBelow headline ("throw UnknownTrampolineException(\"" ++ n.typeName ++
      "\", static_cast<int>(trampoline));") :=
    isBelow_append hl (own.isOneLine.prefixed (by decide)) (by decide) (by decide)
  simp only [NativeTrampolines.locate, Code.each_block (isFrame_isBelow hl), Code.each_append,
    Code.each_lines_cons, Code.each_nest, Code.each_line]
  exact ⟨isBelow_closed hl (by decide) (by decide),
    ⟨⟨⟨⟨isBelow_closed hl (by decide) (by decide), isBelow_closed hl (by decide) (by decide),
      Code.each_nil⟩, unset⟩, isBelow_closed hl (by decide) (by decide),
      isBelow_closed hl (by decide) (by decide), Code.each_nil⟩, unknown⟩,
    isBelow_closed hl (by decide) (by decide)⟩

end Slots

namespace NativeTrampolines

variable {n : NativeTrampolines}

def headline : String := "enum class Trampoline"

def wrapping (n : NativeTrampolines) : Code :=
  Code.blank ++ Code.line locatorType ++ Code.blank ++ setter ++ n.wrappers.flatMap SlotWrapper.code ++
    Code.blank ++ Code.line "private:" ++ locator ++ Code.blank ++ n.locate ++ Code.line "\x7d;"

theorem texts_code (n : NativeTrampolines) :
    n.code.texts = ["public:", "struct Managed", "\x7b"] ++ headline :: ("\x7b" ::
      (n.enumerators.map (fun name => name ++ ",") ++ "\x7d;" :: n.wrapping.texts)) := by
  simp [code, body, wrapping, headline]

theorem isHeadline : IsHeadline headline :=
  ⟨by decide, by decide, 'e', by decide, by decide⟩

theorem below_wrapping {headline : String} (hl : IsHeadline headline) (own : IsWord n.typeName)
    (lines : ∀ w ∈ n.wrappers, w.IsLine) : Code.Each (IsBelow headline) n.wrapping := by
  have frame := isFrame_isBelow hl
  simp only [wrapping, Code.each_append, Code.each_line]
  exact ⟨⟨⟨⟨⟨⟨⟨⟨⟨⟨Code.each_blank frame, isBelow_closed hl (by decide) (by decide)⟩,
    Code.each_blank frame⟩, below_setter hl⟩,
    Code.each_flatMap fun w hw => below_slotWrapper hl (lines w hw)⟩, Code.each_blank frame⟩,
    isBelow_closed hl (by decide) (by decide)⟩, below_locator hl⟩, Code.each_blank frame⟩,
    below_locate hl own⟩, isBelow_closed hl (by decide) (by decide)⟩

end NativeTrampolines

namespace Fragment

section Below

variable {headline : String} (hl : IsHeadline headline)
include hl

theorem below_lifecycle (own : IsWord t.name) (selects : Visibility → Bool) :
    Code.Each (IsBelow headline) (lifecycle t selects) := by
  have constructed : IsBelow headline (constructorLine t) :=
    isBelow_append hl own.isOneLine (by decide) (by decide)
  have destructed : IsBelow headline (destructorLine t) :=
    isBelow_append hl (own.isOneLine.prefixed (by decide)) (by decide) (by decide)
  exact Code.each_append.2 ⟨Code.each_given _ (Code.each_line.2 constructed),
    Code.each_given _ (Code.each_line.2 destructed)⟩

theorem below_handlePart (accessor : IsBelow headline "void* GetManagedHandle() const") :
    Code.Each (IsBelow headline) handlePart := by
  simp only [handlePart, Code.each_append, Code.each_line, Code.each_nest,
    Code.each_block (isFrame_isBelow hl)]
  exact ⟨⟨⟨⟨isBelow_closed hl (by decide) (by decide), ⟨isBelow_closed hl (by decide) (by decide),
    isBelow_closed hl (by decide) (by decide)⟩, accessor, isBelow_closed hl (by decide) (by decide)⟩,
    Code.each_blank (isFrame_isBelow hl)⟩, isBelow_closed hl (by decide) (by decide)⟩,
    isBelow_closed hl (by decide) (by decide)⟩

end Below

/-- The names in a fragment are words. -/
structure IsReadable (f : Fragment) : Prop where
  type : IsWord f.type.name
  owner : ∀ e ∈ f.events, IsWord e.typeName
  names : ∀ e ∈ f.events, ∀ name ∈ e.names, IsWord name
  base : ∀ e ∈ f.events, ∀ b ∈ e.hiddenBase, IsWord b
  trampolines : ∀ n ∈ f.trampolines, IsWord n.typeName ∧ ∀ w ∈ n.wrappers, w.IsLine

theorem isReadable_of_parts {f : Fragment} {slots : Option SlotTable} (names : s.HasIdentifiers)
    (ht : t ∈ s.types) (slots_ok : t.slotTable = .ok slots) (parts : f.Parts s t slots) :
    f.IsReadable := by
  have own := names t ht
  have events : ∀ e ∈ f.events, e = NativeEvents.ofClass s t := by
    intro e he
    rw [parts.events_eq] at he
    split at he
    · cases he
      rfl
    · cases he
  refine ⟨?_, fun e he => ?_, fun e he name hname => ?_, fun e he b hb => ?_, fun n hn => ?_⟩
  · rw [parts.type_eq]
    exact names.isWord_name ht
  · rw [events e he]
    exact names.isWord_name ht
  · rw [events e he] at hname
    obtain ⟨event, hevent, rfl⟩ := List.mem_map.1 hname
    exact isWord_of_isIdentifier (own.events event hevent)
  · rw [events e he] at hb
    obtain ⟨base, hbase, rfl⟩ := Option.map_eq_some_iff.1 hb
    exact names.isWord_name (Schema.baseOf_mem (Option.filter_eq_some_iff.1 hbase).1)
  · rcases mapM_eq_ok.1 parts.trampolines_ok with ⟨_, none⟩ | ⟨table, n', rfl, some, ok⟩
    · rw [none] at hn
      cases hn
    · rw [some] at hn
      cases hn
      rcases ApiType.slotTable_eq_ok.1 slots_ok with ⟨_, none⟩ | ⟨_, _, eq, derived⟩
      · cases none
      · cases eq
        obtain ⟨wrappers, hwrappers, rfl⟩ := map_eq_ok.1 ok
        have steps := (SlotWrapper.ofSlots_stepwise s t).forall₂ hwrappers
        refine ⟨names.isWord_name ht, fun w hw => ?_⟩
        obtain ⟨slot, hslot, step⟩ := exists_left_of_forall₂ steps hw
        exact SlotWrapper.isLine_ofSlot names own (own.isWord_slot derived hslot) step

variable {f : Fragment}

def rest (f : Fragment) : Code :=
  Code.given f.ownsHandle (Code.blank ++ handlePart) ++
    Code.given (isHidden f.type.constructor || isHidden f.type.destructor)
      (Code.blank ++ privatePart f.type)

theorem below_rest {headline : String} (hl : IsHeadline headline)
    (accessor : IsBelow headline "void* GetManagedHandle() const") (own : IsWord f.type.name) :
    Code.Each (IsBelow headline) f.rest := by
  have frame := isFrame_isBelow hl
  have hidden : Code.Each (IsBelow headline) (privatePart f.type) :=
    Code.each_append.2 ⟨Code.each_line.2 (isBelow_closed hl (by decide) (by decide)),
      Code.each_nest.2 (below_lifecycle hl own isHidden)⟩
  exact Code.each_append.2
    ⟨Code.each_given _ (Code.each_append.2 ⟨Code.each_blank frame, below_handlePart hl accessor⟩),
      Code.each_given _ (Code.each_append.2 ⟨Code.each_blank frame, hidden⟩)⟩

theorem texts_code (f : Fragment) :
    f.code.texts = f.publicPart.texts ++
      ((f.events.map fun e => Code.blank ++ e.code).getD []).texts ++
      ((f.trampolines.map fun n => Code.blank ++ n.code).getD []).texts ++ f.rest.texts := by
  simp [code, rest]

theorem enumMembers?_events (readable : f.IsReadable) {e : NativeEvents} (he : f.events = some e) :
    enumMembers? e.headline (c.generatedFile f.code) = some e.names := by
  have own := readable.owner e he
  have hl := NativeEvents.isHeadline own
  have frame := isFrame_isBelow hl
  have last : e.headline.toList.getLast? = some 't' := by
    rw [NativeEvents.headline, String.toList_append, List.getLast?_append]
    rfl
  have accessor : IsBelow e.headline "void* GetManagedHandle() const" := by
    refine ⟨by decide, fun eq => ?_⟩
    have unindented : trimLeft "void* GetManagedHandle() const".toList =
        "void* GetManagedHandle() const".toList := by decide
    rw [unindented, NativeEvents.headline, String.toList_append, String.toList_append] at eq
    simp at eq
  have trampolines : Code.Each (IsBelow e.headline)
      ((f.trampolines.map fun n => Code.blank ++ n.code).getD []) := by
    refine Code.each_getD fun code hcode => ?_
    obtain ⟨n, hn, rfl⟩ := Option.map_eq_some_iff.1 hcode
    obtain ⟨type, lines⟩ := readable.trampolines n hn
    refine Code.each_append.2 ⟨Code.each_blank frame, fun x hx => ?_⟩
    have entries : ∀ x ∈ n.enumerators.map (fun name => name ++ ","), IsBelow e.headline x := by
      intro x hx
      obtain ⟨name, hname, rfl⟩ := List.mem_map.1 hx
      obtain ⟨w, hw, rfl⟩ := List.mem_map.1 hname
      exact isBelow_append hl (lines w hw).slot.isOneLine (by decide) (by decide)
    rw [NativeTrampolines.texts_code] at hx
    simp only [List.mem_append, List.mem_cons, List.not_mem_nil, or_false] at hx
    rcases hx with (rfl | rfl | rfl) | rfl | rfl | hx | rfl | hx
    · exact isBelow_closed hl (by decide) (by decide)
    · exact isBelow_of_last last (by decide) (by decide)
    · exact frame.opening
    · exact isBelow_of_last last (by decide) (by decide)
    · exact frame.opening
    · exact entries x hx
    · exact isBelow_closed hl (by decide) (by decide)
    · exact NativeTrampolines.below_wrapping hl type lines x hx
  have texts : f.code.texts = f.publicPart.texts ++ ["", "public:"] ++
      e.headline :: ("\x7b" :: (e.names.map (fun name => name ++ ",") ++ "\x7d;" ::
        (e.plumbing.texts ++ ((f.trampolines.map fun n => Code.blank ++ n.code).getD []).texts ++
          f.rest.texts))) := by
    rw [texts_code, he]
    simp [NativeEvents.texts_code]
  refine enumMembers?_generatedFile texts (readable.names e he) (by decide) hl ?_
  exact List.forall_mem_cons.2 ⟨isBelow_closed hl (by decide) (by decide),
    List.forall_mem_append.2 ⟨List.forall_mem_append.2
      ⟨NativeEvents.below_plumbing hl own (readable.base e he), trampolines⟩,
      below_rest hl accessor readable.type⟩⟩

theorem enumMembers?_slots (readable : f.IsReadable) {n : NativeTrampolines}
    (hn : f.trampolines = some n) :
    enumMembers? NativeTrampolines.headline (c.generatedFile f.code) = some n.enumerators := by
  obtain ⟨own, lines⟩ := readable.trampolines n hn
  have hl := NativeTrampolines.isHeadline
  have words : ∀ name ∈ n.enumerators, IsWord name := by
    intro name hname
    obtain ⟨w, hw, rfl⟩ := List.mem_map.1 hname
    exact (lines w hw).slot
  have accessor : IsBelow NativeTrampolines.headline "void* GetManagedHandle() const" :=
    isBelow_of_last (by decide : NativeTrampolines.headline.toList.getLast? = some 'e') (by decide)
      (by decide)
  have texts : f.code.texts = f.publicPart.texts ++
      ((f.events.map fun e => Code.blank ++ e.code).getD []).texts ++
      ["", "public:", "struct Managed", "\x7b"] ++
      NativeTrampolines.headline :: ("\x7b" :: (n.enumerators.map (fun name => name ++ ",") ++
        "\x7d;" :: (n.wrapping.texts ++ f.rest.texts))) := by
    rw [texts_code, hn]
    simp [NativeTrampolines.texts_code]
  refine enumMembers?_generatedFile texts words (by decide) hl ?_
  exact List.forall_mem_cons.2 ⟨isBelow_closed hl (by decide) (by decide),
    List.forall_mem_append.2 ⟨NativeTrampolines.below_wrapping hl own lines,
      below_rest hl accessor readable.type⟩⟩

end Fragment

end InteropGen
