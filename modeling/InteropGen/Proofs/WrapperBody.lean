import InteropGen.Proofs.Planning
import InteropGen.Proofs.WrapperLines

set_option autoImplicit false

/-!
# What stands above the imports

Above the imports of a wrapper there are quiet lines, the labels of its events, and the arms of its
slots, and nothing else.
-/

namespace InteropGen

open Text

variable {c : Config} {s : Schema} {t : ApiType} {exports : ExportTable}

section Lifecycle

variable {w : Wrapper}

theorem quiet_attachment : QuietCode w.attachment :=
  Code.each_given _ (Code.each_line.2 (isQuiet_closed (by decide)))

theorem quiet_staticConstructor (own : IsWord w.type.name) : QuietCode w.staticConstructor := by
  have headline : IsQuiet ("static " ++ w.type.name ++ "()") := by
    rw [String.append_assoc]
    exact isQuiet_start (by decide) (own.isOneLine.suffixed (by decide))
  have registrations : QuietCode (Code.lines (Wrapper.registrations w.type)) := by
    refine Code.each_lines_append.2 ⟨?_, ?_⟩
    · split
      · exact Code.each_line.2 (isQuiet_closed (by decide))
      · exact Code.each_nil
    · split
      · exact Code.each_line.2 (isQuiet_closed (by decide))
      · exact Code.each_nil
  exact Code.each_given _ (Code.each_append.2
    ⟨(Code.each_block isFrame_isQuiet).2 ⟨headline, registrations⟩, Code.each_blank isFrame_isQuiet⟩)

theorem isQuiet_constructor {start : List Char} {name rest : String} (own : IsWord name)
    (last : rest.toList.getLast? = some ')') (label : diverges ['c', 'a', 's', 'e', ' '] start = true)
    (mark : diverges ['[', 'S'] start = true) (unindented : start.head?.any isBlank = false)
    (hs : '\n' ∉ start) (hr : IsOneLine rest) : IsQuiet (String.ofList start ++ (name ++ rest)) := by
  have ends : (name ++ rest).toList.getLast? = some ')' := by
    rw [String.toList_append, List.getLast?_append, last]
    rfl
  exact isQuiet_ending ends label mark (by decide) (by decide) unindented hs
    (isOneLine_append.2 ⟨own.isOneLine, hr⟩)

theorem quiet_constructors (own : IsWord w.type.name) (created : ∀ call ∈ w.create, call.IsLine) :
    QuietCode w.constructors := by
  have plain : QuietCode w.plainConstructor := by
    rw [Wrapper.plainConstructor]
    cases create : w.create with
    | none =>
      refine (Code.each_block isFrame_isQuiet).2 ⟨?_, Code.each_nil⟩
      simp only [String.append_assoc]
      refine isQuiet_start (by decide) (isOneLine_append.2 ⟨own.isOneLine, ?_⟩)
      cases w.base.isSome <;> decide
    | some call =>
      have line := (created call create).isOneLine
      refine (Code.each_block isFrame_isQuiet).2 ⟨?_, Code.each_append.2 ⟨Code.each_line.2 ?_,
        quiet_attachment⟩⟩
      · simp only [String.append_assoc]
        cases w.base.isSome
        · exact isQuiet_constructor own (by decide) (by decide) (by decide) (by decide) (by decide)
            (by decide)
        · exact isQuiet_constructor own (by decide) (by decide) (by decide) (by decide) (by decide)
            (by decide)
      · rw [String.append_assoc]
        exact isQuiet_start (by decide) (line.suffixed (by decide))
  have adopting : IsQuiet ("public " ++ w.type.name ++
      "(IntPtr nativePointer) : base(nativePointer)") := by
    rw [String.append_assoc]
    exact isQuiet_constructor own (by decide) (by decide) (by decide) (by decide) (by decide)
      (by decide)
  simp only [Wrapper.constructors, Code.each_append]
  exact ⟨⟨⟨quiet_staticConstructor own, plain⟩, Code.each_blank isFrame_isQuiet⟩,
    (Code.each_block isFrame_isQuiet).2 ⟨adopting, quiet_attachment⟩⟩

theorem quiet_handleCode {symbol : String} (h : IsWord symbol) :
    QuietCode (Wrapper.handleCode symbol) := by
  have attach : (Wrapper.attachCall symbol).IsLine := isLine_self h false
    (List.forall_mem_singleton.2 (by decide : IsOneLine "GCHandle.ToIntPtr(managedHandle)"))
  have detach : (Wrapper.detachCall symbol).IsLine := isLine_self h false
    (List.forall_mem_singleton.2 (by decide : IsOneLine "IntPtr.Zero"))
  simp only [Wrapper.handleCode, Code.each_append, Code.each_block isFrame_isQuiet, Code.each_line,
    Code.each_lines_cons, Code.each_nest]
  exact ⟨⟨⟨⟨isQuiet_closed (by decide), Code.each_blank isFrame_isQuiet⟩,
    isQuiet_closed (by decide), ⟨isQuiet_closed (by decide), isQuiet_closed (by decide)⟩,
    isQuiet_closed (by decide), attach.isQuiet, Code.each_nil⟩, Code.each_blank isFrame_isQuiet⟩,
    isQuiet_closed (by decide), ⟨⟨⟨isQuiet_closed (by decide), isQuiet_closed (by decide)⟩,
    isQuiet_closed (by decide)⟩, detach.isQuiet⟩, isQuiet_closed (by decide)⟩

theorem quiet_destruction (destroyed : ∀ call ∈ w.destroy, call.IsLine) :
    QuietCode w.destruction := by
  rw [Wrapper.destruction]
  cases destroy : w.destroy with
  | none =>
    refine Code.each_given _ (Code.each_append.2 ⟨Code.each_blank isFrame_isQuiet,
      (Code.each_block isFrame_isQuiet).2 ⟨isQuiet_closed (by decide), ?_⟩⟩)
    simp only [Code.each_lines_cons]
    exact ⟨isQuiet_closed (by decide), isQuiet_closed (by decide), Code.each_nil⟩
  | some call =>
    refine Code.each_append.2 ⟨Code.each_blank isFrame_isQuiet,
      (Code.each_block isFrame_isQuiet).2 ⟨isQuiet_closed (by decide), ?_⟩⟩
    simp only [Code.each_append, Code.each_line, Code.each_lines_cons, Code.each_nest]
    exact ⟨⟨⟨Code.each_given _ (Code.each_line.2 (isQuiet_closed (by decide))),
      isQuiet_closed (by decide)⟩, isQuiet_closed (by decide)⟩,
      (destroyed call destroy).isQuiet, isQuiet_closed (by decide), Code.each_nil⟩

end Lifecycle

section Events

structure WrappedEvent.HasWords (e : WrappedEvent) : Prop where
  name : IsWord e.name
  payload : ∀ struct, e.kind = .payload struct → IsWord struct

theorem WrappedEvent.name_ofEvent {event : Event} {e : WrappedEvent} (h : ofEvent s event = .ok e) :
    e.name = event.name := by
  rw [ofEvent] at h
  split at h
  · cases h
    rfl
  · obtain ⟨shape, _, h⟩ := bind_eq_ok.1 h
    cases shape with
    | struct t =>
      cases h
      rfl
    | _ => cases h

theorem WrappedEvent.hasWords_ofEvent (names : s.HasIdentifiers) {event : Event}
    (word : IsWord event.name) {e : WrappedEvent} (h : ofEvent s event = .ok e) : e.HasWords := by
  refine ⟨name_ofEvent h ▸ word, fun struct kind => ?_⟩
  rw [ofEvent] at h
  split at h
  · cases h
    split at kind <;> cases kind
  · obtain ⟨shape, hshape, h⟩ := bind_eq_ok.1 h
    have mentioned := names.all_isWord (Schema.shape_eq_ok.1 hshape)
    cases shape with
    | struct t =>
      cases h
      cases kind
      exact mentioned
    | _ => cases h

theorem WrappedEvent.HasWords.quiet_raising {e : WrappedEvent} (h : e.HasWords) :
    QuietCode (Code.lines e.raising) := by
  have name := h.name
  rw [WrappedEvent.raising]
  cases kind : e.kind with
  | payload struct =>
    have word := (h.payload struct kind).isOneLine
    have arguments : IsQuiet ("var ea = new NativeEventArgs<" ++ struct ++
        ">(Marshal.PtrToStructure<" ++ struct ++ ">(parameter));") := by
      simp only [String.append_assoc]
      refine isQuiet_start (by decide) ?_
      simp only [isOneLine_append, word]
      decide
    simp only [Code.each_lines_cons]
    exact ⟨arguments, isQuiet_named name (by decide) (by decide) (by decide) (by decide) (by decide),
      Code.each_nil⟩
  | cancellable =>
    simp only [Code.each_lines_cons]
    exact ⟨isQuiet_closed (by decide),
      isQuiet_named name (by decide) (by decide) (by decide) (by decide) (by decide),
      isQuiet_closed (by decide), Code.each_nil⟩
  | plain =>
    exact Code.each_line.2
      (isQuiet_named name (by decide) (by decide) (by decide) (by decide) (by decide))

theorem WrappedEvent.HasWords.isQuiet_declaration {e : WrappedEvent} (h : e.HasWords) :
    IsQuiet e.declaration := by
  have name := h.name.isOneLine
  rw [WrappedEvent.declaration]
  cases kind : e.kind with
  | payload struct =>
    have word := (h.payload struct kind).isOneLine
    simp only [String.append_assoc]
    refine isQuiet_start (by decide) ?_
    simp only [isOneLine_append, word, name]
    decide
  | cancellable =>
    rw [String.append_assoc]
    exact isQuiet_start (by decide) (name.suffixed (by decide))
  | plain =>
    change IsQuiet ("public Action? " ++ e.name ++ ";")
    rw [String.append_assoc]
    exact isQuiet_start (by decide) (name.suffixed (by decide))

theorem WrappedEvent.HasWords.sifts {e : WrappedEvent} (h : e.HasWords) (typeName : String) :
    Sifts (e.code typeName).texts [e.caseLine typeName] := by
  have body : QuietCode (Code.braces (Code.lines e.raising)) :=
    (Code.each_braces isFrame_isQuiet).2 h.quiet_raising
  rw [WrappedEvent.code, Code.block, Code.texts_append]
  exact .keep _ (Sifts.of_quiet body)

variable {objectClass : String} {w : WrappedEvents}

theorem quiet_registration (object : IsOneLine objectClass) (own : IsWord w.type.name) :
    QuietCode (w.registration objectClass) := by
  have call : w.registrationCall.IsLine := by
    refine ⟨isWord_append.2 ⟨own, by decide⟩, ?_⟩
    exact List.forall_mem_singleton.2 (by decide : IsOneLine "sink")
  have lookup := isOneLine_lookup object own (by decide : IsOneLine "obj")
  have found : IsQuiet ("var w = " ++ Managed.lookup objectClass w.type "obj" ++ ";") := by
    rw [String.append_assoc]
    exact isQuiet_start (by decide) (lookup.suffixed (by decide))
  have sink : IsQuiet ("var sink = new NativeApi." ++ w.type.name ++
      "EventCallbackType((obj, e, parameter) =>") := by
    rw [String.append_assoc]
    exact isQuiet_start (by decide) (own.isOneLine.suffixed (by decide))
  simp only [WrappedEvents.registration, WrappedEvents.sink, Code.each_block isFrame_isQuiet,
    Code.each_append, Code.each_line, Code.each_braces isFrame_isQuiet, Code.each_lines_cons]
  exact ⟨isQuiet_closed (by decide), isQuiet_closed (by decide), ⟨sink, found,
    isQuiet_closed (by decide), isQuiet_closed (by decide), Code.each_nil⟩,
    isQuiet_closed (by decide), isQuiet_closed (by decide), call.isQuiet, Code.each_nil⟩

theorem WrappedEvents.sifts (object : IsOneLine objectClass) (own : IsWord w.type.name)
    (words : ∀ e ∈ w.events, e.HasWords) :
    Sifts (w.code objectClass).texts (w.events.map (WrappedEvent.caseLine w.type.name)) := by
  have above : QuietCode (Code.blank ++ Code.line "static GCHandle eventCallbackGCHandle;" ++
      Code.blank ++ w.registration objectClass ++ Code.blank) := by
    simp only [Code.each_append, Code.each_line]
    exact ⟨⟨⟨⟨Code.each_blank isFrame_isQuiet, isQuiet_closed (by decide)⟩,
      Code.each_blank isFrame_isQuiet⟩, quiet_registration object own⟩,
      Code.each_blank isFrame_isQuiet⟩
  have headline : IsQuiet
      ("IntPtr OnEvent(NativeApi." ++ w.type.name ++ "Event e, IntPtr parameter)") := by
    rw [String.append_assoc]
    exact isQuiet_start (by decide) (own.isOneLine.suffixed (by decide))
  have unexpected : IsQuiet ("default: throw new Exception(\"Unexpected " ++ w.type.name ++
      "Event value: \" + e);") := by
    rw [String.append_assoc]
    exact isQuiet_start (by decide) (own.isOneLine.suffixed (by decide))
  have opening : ∀ x ∈ ["IntPtr OnEvent(NativeApi." ++ w.type.name ++ "Event e, IntPtr parameter)",
      "\x7b", "switch (e)", "\x7b"], IsQuiet x := by
    simp only [List.forall_mem_cons]
    exact ⟨headline, isQuiet_opening, isQuiet_closed (by decide), isQuiet_opening, by simp⟩
  have closing : ∀ x ∈ ["default: throw new Exception(\"Unexpected " ++ w.type.name ++
      "Event value: \" + e);", "\x7d", "\x7d"], IsQuiet x := by
    simp only [List.forall_mem_cons]
    exact ⟨unexpected, isQuiet_closing, isQuiet_closing, by simp⟩
  have labels := Sifts.flatMap fun e he => (words e he).sifts w.type.name
  have declarations : QuietCode (Code.blank ++
      Code.lines (w.events.map WrappedEvent.declaration)) := by
    refine Code.each_append.2 ⟨Code.each_blank isFrame_isQuiet, Code.each_lines.2 fun x hx => ?_⟩
    obtain ⟨e, he, rfl⟩ := List.mem_map.1 hx
    exact (words e he).isQuiet_declaration
  rw [List.map_eq_flatMap]
  have whole := (((labels.quiet_append opening).append_quiet closing).quiet_append above).append_quiet
    declarations
  convert whole using 1
  simp [WrappedEvents.code, WrappedEvents.dispatch]

end Events

section Dispatch

variable {objectClass typeName : String}

structure SlotHandler.IsLine (objectClass : String) (h : SlotHandler) : Prop where
  slot : IsWord h.slot
  result : IsWord h.result.literal
  parameters : ∀ d ∈ h.parameters, IsOver spellingMarks d.text
  access : ∀ target, ∃ rest, IsOneLine rest ∧
    h.access.text target (", ".intercalate (h.arguments.map (Handed.text objectClass))) =
      target ++ "." ++ rest

theorem SlotHandler.text_accessOf (own : t.HasIdentifiers) (m : Member) (target : String)
    {arguments : String} (h : IsOneLine arguments) :
    ∃ rest, IsOneLine rest ∧ (accessOf t m).text target arguments = target ++ "." ++ rest := by
  cases m with
  | getter i => exact ⟨_, (own.isWord_property i).isOneLine, rfl⟩
  | setter i =>
    refine ⟨(t.property i).name ++ " = " ++ arguments, ?_, ?_⟩
    · simp only [isOneLine_append, (own.isWord_property i).isOneLine, h]
      decide
    · simp only [accessOf, Access.text, String.append_assoc]
  | method i =>
    refine ⟨(t.method i).name ++ "(" ++ arguments ++ ")", ?_, ?_⟩
    · simp only [isOneLine_append, (own.isWord_method i).isOneLine, h]
      decide
    · simp only [accessOf, Access.text, String.append_assoc]

theorem SlotHandler.line_parameterOf (object : IsOneLine objectClass) (names : s.HasIdentifiers)
    {p : Parameter} (word : IsWord p.name) {d : Declared × Handed} (h : parameterOf s p = .ok d) :
    IsOver spellingMarks d.1.text ∧ IsOneLine (d.2.text objectClass) := by
  obtain ⟨spelling, hspelling, h⟩ := bind_eq_ok.1 h
  obtain ⟨shape, hshape, h⟩ := bind_eq_ok.1 h
  cases h
  refine ⟨isOver_declared (by decide) (names.isWord_resolve_binding hspelling).over word, ?_⟩
  have mentioned := names.all_isWord (Schema.shape_eq_ok.1 hshape)
  cases shape with
  | «class» type isNullable => exact isOneLine_wrap object mentioned word.isOneLine isNullable
  | _ => exact word.isOneLine

theorem SlotHandler.isLine_ofSlot (object : IsOneLine objectClass) (names : s.HasIdentifiers)
    (own : t.HasIdentifiers) {slot : Slot} (word : IsWord slot.name) {handler : SlotHandler}
    (h : ofSlot s t slot = .ok handler) : handler.IsLine objectClass := by
  obtain ⟨parameters, hparameters, h⟩ := bind_eq_ok.1 h
  obtain ⟨result, hresult, h⟩ := bind_eq_ok.1 h
  obtain ⟨returned, _, h⟩ := bind_eq_ok.1 h
  cases h
  have steps := (parametersOf_stepwise s).forall₂ hparameters
  have each : ∀ d ∈ parameters, IsOver spellingMarks d.1.text ∧ IsOneLine (d.2.text objectClass) := by
    intro d hd
    obtain ⟨p, hp, ok⟩ := exists_left_of_forall₂ steps hd
    exact line_parameterOf object names (own.isWord_parameters slot.member p hp) ok
  refine ⟨word, names.isWord_resolve_binding hresult, List.forall_mem_append.2 ⟨?_, ?_⟩,
    fun target => text_accessOf own slot.member target ?_⟩
  · cases (t.signature slot.member).isStatic with
    | true => exact fun d hd => absurd hd List.not_mem_nil
    | false => exact List.forall_mem_singleton.2 (by decide : IsOver spellingMarks "IntPtr obj")
  · exact List.forall_mem_map.2 fun d hd => (each d hd).1
  · refine isOneLine_intercalate (by decide) fun text htext => ?_
    obtain ⟨handed, hhanded, rfl⟩ := List.mem_map.1 htext
    obtain ⟨d, hd, rfl⟩ := List.mem_map.1 hhanded
    exact (each d hd).2

theorem SlotHandler.IsLine.quiet {h : SlotHandler} (line : h.IsLine objectClass)
    (own : IsWord typeName) : QuietCode (h.code objectClass typeName) := by
  have signature : IsQuiet h.signatureLine := by
    change IsQuiet ("static " ++ h.result.literal ++ " Trampoline" ++ h.slot ++ "(" ++
      Declared.join h.parameters ++ ")")
    simp only [String.append_assoc]
    refine isQuiet_start (by decide) ?_
    simp only [isOneLine_append, line.result.isOneLine, line.slot.isOneLine,
      isOneLine_join line.parameters]
    decide
  have target : IsQuiet ("var target = (" ++ typeName ++ ")GCHandle.FromIntPtr(obj).Target!;") := by
    rw [String.append_assoc]
    exact isQuiet_start (by decide) (own.isOneLine.suffixed (by decide))
  have statement : IsQuiet (h.returned.statement (h.invocation objectClass typeName)) := by
    have word : IsWord (if h.isStatic then typeName else "target") := by
      split
      · exact own
      · decide
    obtain ⟨rest, hrest, eq⟩ := line.access (if h.isStatic then typeName else "target")
    have invocation : h.invocation objectClass typeName =
        (if h.isStatic then typeName else "target") ++ "." ++ rest := eq
    have oneLine : IsOneLine (h.invocation objectClass typeName) := by
      rw [invocation]
      exact isOneLine_append.2 ⟨word.isOneLine.suffixed (by decide), hrest⟩
    cases h.returned with
    | nothing =>
      rw [invocation]
      exact isQuiet_access word hrest
    | asIs =>
      change IsQuiet ("return " ++ h.invocation objectClass typeName ++ ";")
      rw [String.append_assoc]
      exact isQuiet_start (by decide) (oneLine.suffixed (by decide))
    | unwrapped isNullable =>
      change IsQuiet ("return " ++ Managed.unwrap isNullable (h.invocation objectClass typeName) ++
        ";")
      rw [String.append_assoc]
      exact isQuiet_start (by decide)
        ((isOneLine_unwrap oneLine isNullable).suffixed (by decide))
  refine Code.each_append.2 ⟨Code.each_blank isFrame_isQuiet, (Code.each_block isFrame_isQuiet).2
    ⟨signature, Code.each_append.2 ⟨Code.each_given _ (Code.each_line.2 target),
      Code.each_line.2 statement⟩⟩⟩

variable {d : Dispatch}

theorem quiet_storage (own : IsWord d.typeName) : QuietCode d.storage := by
  have slotEnum : IsOneLine d.slotEnum := by
    simp only [Dispatch.slotEnum, isOneLine_append, own.isOneLine]
    decide
  have pinned : IsQuiet ("static readonly ConcurrentDictionary<" ++ d.slotEnum ++
      ", Lazy<(GCHandle Pin, IntPtr Pointer)>> trampolines = new();") := by
    rw [String.append_assoc]
    exact isQuiet_start (by decide) (slotEnum.suffixed (by decide))
  have locator : IsQuiet ("static readonly NativeApi." ++ d.typeName ++
      "TrampolineLocatorCallback trampolineLocator = LocateTrampoline;") := by
    rw [String.append_assoc]
    exact isQuiet_start (by decide) (own.isOneLine.suffixed (by decide))
  simp only [Dispatch.storage, Code.each_lines_cons]
  exact ⟨pinned, locator, isQuiet_closed (by decide), Code.each_nil⟩

theorem quiet_locatorRegistration (own : IsWord d.typeName) : QuietCode d.registration := by
  have call : d.registrationCall.IsLine := by
    refine ⟨isWord_append.2 ⟨own, by decide⟩, ?_⟩
    exact List.forall_mem_singleton.2 (by decide : IsOneLine "trampolineLocator")
  simp only [Dispatch.registration, Code.each_block isFrame_isQuiet, Code.each_append,
    Code.each_line, Code.each_nest]
  exact ⟨isQuiet_closed (by decide), ⟨isQuiet_closed (by decide), isQuiet_closed (by decide)⟩,
    call.isQuiet⟩

theorem quiet_locate (own : IsWord d.typeName) : QuietCode d.locate := by
  have slotEnum : IsOneLine d.slotEnum := by
    simp only [Dispatch.slotEnum, isOneLine_append, own.isOneLine]
    decide
  have headline : IsQuiet ("static IntPtr LocateTrampoline(" ++ d.slotEnum ++ " trampoline)") := by
    rw [String.append_assoc]
    exact isQuiet_start (by decide) (slotEnum.suffixed (by decide))
  have guard : IsQuiet ("if (!Enum.IsDefined(typeof(" ++ d.slotEnum ++ "), trampoline))") := by
    rw [String.append_assoc]
    exact isQuiet_start (by decide) (slotEnum.suffixed (by decide))
  have making : IsQuiet ("slot => new Lazy<(GCHandle Pin, IntPtr Pointer)>(() => " ++
      "PinTrampoline(slot))).Value.Pointer;") := isQuiet_start (by decide) (by decide)
  simp only [Dispatch.locate, Code.each_block isFrame_isQuiet, Code.each_append, Code.each_line,
    Code.each_nest, Code.each_lines_cons]
  exact ⟨headline, ⟨⟨guard, isQuiet_closed (by decide)⟩, isQuiet_closed (by decide)⟩,
    isQuiet_closed (by decide), making, Code.each_nil⟩

theorem Dispatch.sifts (own : IsWord d.typeName)
    (lines : ∀ h ∈ d.handlers, h.IsLine objectClass) :
    Sifts (d.code objectClass).texts (d.arms.map d.arm) := by
  have above : QuietCode (d.storage ++ Code.blank ++ d.registration ++ Code.blank ++ d.locate ++
      Code.blank) := by
    simp only [Code.each_append]
    exact ⟨⟨⟨⟨⟨quiet_storage own, Code.each_blank isFrame_isQuiet⟩, quiet_locatorRegistration own⟩,
      Code.each_blank isFrame_isQuiet⟩, quiet_locate own⟩, Code.each_blank isFrame_isQuiet⟩
  have headline : IsQuiet ("static (GCHandle Pin, IntPtr Pointer) PinTrampoline(" ++ d.slotEnum ++
      " trampoline)") := by
    rw [String.append_assoc]
    refine isQuiet_start (by decide) ?_
    simp only [Dispatch.slotEnum, isOneLine_append, own.isOneLine]
    decide
  have opening : ∀ x ∈ ["static (GCHandle Pin, IntPtr Pointer) PinTrampoline(" ++ d.slotEnum ++
      " trampoline)", "\x7b", "Delegate callable = trampoline switch", "\x7b"], IsQuiet x := by
    simp only [List.forall_mem_cons]
    exact ⟨headline, isQuiet_opening, isQuiet_closed (by decide), isQuiet_opening, by simp⟩
  have closing : ∀ x ∈ ["_ => throw new ArgumentOutOfRangeException(nameof(trampoline)),",
      "\x7d;", "var pin = GCHandle.Alloc(callable);",
      "return (pin, Marshal.GetFunctionPointerForDelegate(callable));", "\x7d"], IsQuiet x := by
    simp only [List.forall_mem_cons]
    exact ⟨isQuiet_closed (by decide), isQuiet_closed (by decide), isQuiet_closed (by decide),
      isQuiet_closed (by decide), isQuiet_closing, by simp⟩
  have handlers : QuietCode (d.handlers.flatMap (SlotHandler.code objectClass d.typeName)) :=
    Code.each_flatMap fun h hh => (lines h hh).quiet own
  have whole := ((((Sifts.refl (d.arms.map d.arm)).quiet_append opening).append_quiet
    closing).quiet_append above).append_quiet handlers
  convert whole using 1
  simp [Dispatch.code, Dispatch.pin]

end Dispatch

structure Config.HasLineNames (c : Config) : Prop where
  «namespace» : IsOneLine c.managed.namespace
  objectClass : IsOneLine c.managed.objectClass

theorem not_mem_of_isName {cs : List Char} {d : Char} (h : isName cs = true)
    (mark : isNamePart d = false) : d ∉ cs := by
  cases cs with
  | nil => cases h
  | cons c cs =>
    simp only [isName, Bool.and_eq_true, List.all_eq_true] at h
    intro mem
    rcases List.mem_cons.1 mem with rfl | mem
    · have part : isNamePart d = true := by
        rcases Bool.or_eq_true_iff.1 h.1 with letter | underscore
        · simp [isNamePart, letter]
        · simp [isNamePart, underscore]
      rw [part] at mark
      cases mark
    · rw [h.2 _ mem] at mark
      cases mark

theorem isName_of_isIdentifier {cs : List Char} (h : isIdentifier cs = true) :
    isName cs = true := by
  cases cs with
  | nil => exact h
  | cons c cs =>
    simp only [isIdentifier_cons, isIdentifierStart, isIdentifierPart, Char.isAlphanum, isName,
      isNamePart, isLetter, isNumber, Bool.and_eq_true, Bool.or_eq_true, List.all_eq_true] at h ⊢
    refine ⟨h.1.imp .inl id, fun d hd => ?_⟩
    rcases h.2 d hd with (letter | digit) | underscore
    · exact .inl (.inl (.inl letter))
    · exact .inl (.inr (.inl digit))
    · exact .inr underscore

theorem Config.isName_of_validate (h : c.validate = .ok ()) :
    isDottedName c.managed.namespace.toList = true ∧ isName c.managed.objectClass.toList = true := by
  have faultless : c.fault? = none := by
    rw [validate] at h
    split at h
    · assumption
    · cases h
  by_cases dotted : isDottedName c.managed.namespace.toList = true
  · refine ⟨dotted, ?_⟩
    by_cases name : isName c.managed.objectClass.toList = true
    · exact name
    · simp [fault?, dotted, name] at faultless
      split at faultless <;> cases faultless
  · simp [fault?, dotted] at faultless

theorem Config.hasLineNames_of_validate (h : c.validate = .ok ()) : c.HasLineNames := by
  obtain ⟨dotted, name⟩ := isName_of_validate h
  refine ⟨fun mem => ?_, not_mem_of_isName name (by decide)⟩
  obtain ⟨piece, hpiece, mem⟩ := exists_piece_of_mem mem (by decide : '\n' ≠ '.')
  exact not_mem_of_isName (List.all_eq_true.1 dotted piece hpiece) (by decide) mem

namespace Wrapper

/-- The body of a wrapper above its imports. -/
def aboveImports (c : Config) (w : Wrapper) : Code :=
  w.constructors ++
    w.properties.flatMap (WrappedProperty.code c.managed.objectClass w.type.managedServer) ++
    w.methods.flatMap (WrappedMethod.code c.managed.objectClass w.type.managedServer) ++
    (w.handleSymbol.map fun symbol => Code.blank ++ handleCode symbol).getD [] ++
    w.destruction ++
    (w.events.map (WrappedEvents.code c.managed.objectClass)).getD [] ++
    (w.dispatch.map fun d => Code.blank ++ d.code c.managed.objectClass).getD [] ++
    Code.blank

def front (c : Config) (w : Wrapper) : List String :=
  ["#nullable enable", "#pragma warning disable", ""] ++ w.usings ++
    ["", "namespace " ++ c.managed.namespace, "\x7b", w.classLine c, "\x7b"] ++
    (w.aboveImports c).texts

theorem texts_code (c : Config) (w : Wrapper) :
    (w.code c).texts = w.front c ++ (w.imports.code c).texts ++ ["\x7d", "\x7d"] := by
  have body : w.body c = w.aboveImports c ++ w.imports.code c := rfl
  simp [code, body, front]

theorem infix_aboveImports (c : Config) (w : Wrapper) :
    (w.aboveImports c).texts <:+: (w.code c).texts := by
  rw [texts_code, front]
  exact (List.suffix_append _ _).isInfix.trans
    ((List.prefix_append _ _).trans (List.prefix_append _ _)).isInfix

theorem infix_events (c : Config) {w : Wrapper} {e : WrappedEvents} (he : w.events = some e) :
    (e.code c.managed.objectClass).texts <:+: (w.code c).texts := by
  refine List.IsInfix.trans ?_ (infix_aboveImports c w)
  rw [aboveImports, he, Option.map_some, Option.getD_some, Code.texts_append, Code.texts_append,
    Code.texts_append]
  exact (List.suffix_append _ _).isInfix.trans
    ((List.prefix_append _ _).trans (List.prefix_append _ _)).isInfix

theorem infix_dispatch (c : Config) {w : Wrapper} {d : Dispatch} (hd : w.dispatch = some d) :
    (d.code c.managed.objectClass).texts <:+: (w.code c).texts := by
  refine List.IsInfix.trans ?_ (infix_aboveImports c w)
  rw [aboveImports, hd, Option.map_some, Option.getD_some, Code.texts_append, Code.texts_append,
    Code.texts_append (c := Code.blank)]
  exact ((List.suffix_append _ _).trans (List.suffix_append _ _)).isInfix.trans
    (List.prefix_append _ _).isInfix

def labelLines (w : Wrapper) : List String :=
  (w.events.map fun e => e.events.map (WrappedEvent.caseLine e.type.name)).getD []

def armLines (w : Wrapper) : List String := (w.dispatch.map fun d => d.arms.map d.arm).getD []

section Front

variable {slots : Option SlotTable} {w : Wrapper} (lineNames : c.HasLineNames)
  (names : s.HasIdentifiers) (ht : t ∈ s.types) (exports_ok : ExportTable.build s t = .ok exports)
  (slots_ok : t.slotTable = .ok slots) (parts : w.Parts s t exports slots)

include parts in
theorem sifts_events (object : IsOneLine c.managed.objectClass) (names : s.HasIdentifiers)
    (own : t.HasIdentifiers) :
    Sifts ((w.events.map (WrappedEvents.code c.managed.objectClass)).getD []).texts
      w.labelLines := by
  have ok := parts.events_ok
  rw [labelLines]
  cases events : w.events with
  | none => exact .nil
  | some e =>
    rw [events, WrappedEvents.ofClass?] at ok
    split at ok
    · obtain ⟨_, ok, eq⟩ := map_eq_ok.1 ok
      cases eq
      obtain ⟨wrapped, hwrapped, rfl⟩ := map_eq_ok.1 ok
      have steps := (WrappedEvent.ofEvents_stepwise s).forall₂ hwrapped
      refine WrappedEvents.sifts object (isWord_of_isIdentifier own.name) fun x hx => ?_
      obtain ⟨event, hevent, step⟩ := exists_left_of_forall₂ steps hx
      exact WrappedEvent.hasWords_ofEvent names (isWord_of_isIdentifier (own.events event hevent)) step
    · cases ok

include parts slots_ok in
theorem sifts_dispatch (object : IsOneLine c.managed.objectClass) (names : s.HasIdentifiers)
    (own : t.HasIdentifiers) :
    Sifts ((w.dispatch.map fun d => Code.blank ++ d.code c.managed.objectClass).getD []).texts
      w.armLines := by
  have ok := parts.dispatch_ok
  rw [armLines]
  rcases mapM_eq_ok.1 ok with ⟨_, none⟩ | ⟨table, d, rfl, some, ok⟩
  · rw [none]
    exact .nil
  · rw [some]
    rcases ApiType.slotTable_eq_ok.1 slots_ok with ⟨_, none⟩ | ⟨_, _, eq, derived⟩
    · cases none
    · cases eq
      obtain ⟨handlers, hhandlers, rfl⟩ := map_eq_ok.1 ok
      have steps := (SlotHandler.ofSlots_stepwise s t).forall₂ hhandlers
      refine .drop isQuiet_empty (Dispatch.sifts (isWord_of_isIdentifier own.name) fun h hh => ?_)
      obtain ⟨slot, hslot, step⟩ := exists_left_of_forall₂ steps hh
      exact SlotHandler.isLine_ofSlot object names own (own.isWord_slot derived hslot) step

include exports_ok parts in
theorem quiet_members (object : IsOneLine c.managed.objectClass) (names : s.HasIdentifiers)
    (own : t.HasIdentifiers) :
    QuietCode (w.constructors ++
      w.properties.flatMap (WrappedProperty.code c.managed.objectClass w.type.managedServer) ++
      w.methods.flatMap (WrappedMethod.code c.managed.objectClass w.type.managedServer) ++
      (w.handleSymbol.map fun symbol => Code.blank ++ handleCode symbol).getD [] ++
      w.destruction) := by
  have type : IsWord w.type.name := by
    rw [parts.type_eq]
    exact isWord_of_isIdentifier own.name
  have created : ∀ call ∈ w.create, call.IsLine := by
    intro call hcall
    rw [parts.create_eq] at hcall
    obtain ⟨e, he, rfl⟩ := Option.map_eq_some_iff.1 hcall
    obtain ⟨_, rfl⟩ := (ExportTable.find?_eq_some exports_ok).1 he
    exact ⟨own.isWord_nameOf .create, fun _ ho => absurd ho List.not_mem_nil⟩
  have destroyed : ∀ call ∈ w.destroy, call.IsLine := by
    intro call hcall
    rw [parts.destroy_eq] at hcall
    obtain ⟨e, he, rfl⟩ := Option.map_eq_some_iff.1 hcall
    obtain ⟨_, rfl⟩ := (ExportTable.find?_eq_some exports_ok).1 he
    exact ⟨own.isWord_nameOf .destroy,
      List.forall_mem_singleton.2 (by decide : IsOneLine "NativePointer")⟩
  simp only [Code.each_append]
  refine ⟨⟨⟨⟨quiet_constructors type created, Code.each_flatMap fun p hp => ?_⟩,
    Code.each_flatMap fun m hm => ?_⟩, Code.each_getD fun code hcode => ?_⟩,
    quiet_destruction destroyed⟩
  · obtain ⟨i, declared, hdeclared, ok⟩ := WrappedProperty.exists_of_mem parts.properties_ok hp
    exact quiet_property object names own exports_ok _ (List.mem_of_getElem? hdeclared) ok
  · obtain ⟨i, declared, hdeclared, ok⟩ := WrappedMethod.exists_of_mem parts.methods_ok hm
    exact quiet_method object names own exports_ok _ (List.mem_of_getElem? hdeclared) ok
  · rw [parts.handleSymbol_eq] at hcode
    obtain ⟨symbol, hsymbol, rfl⟩ := Option.map_eq_some_iff.1 hcode
    obtain ⟨e, he, rfl⟩ := Option.map_eq_some_iff.1 hsymbol
    obtain ⟨_, rfl⟩ := (ExportTable.find?_eq_some exports_ok).1 he
    exact Code.each_append.2 ⟨Code.each_blank isFrame_isQuiet,
      quiet_handleCode (own.isWord_nameOf .setManagedHandle)⟩

theorem quiet_usings (w : Wrapper) : ∀ x ∈ w.usings, IsQuiet x := by
  rw [usings]
  cases w.dispatch.isSome with
  | false =>
    simp only [List.forall_mem_append, List.forall_mem_cons, Bool.false_eq_true, if_false]
    exact ⟨⟨⟨⟨isQuiet_closed (by decide), by simp⟩, by simp⟩, isQuiet_closed (by decide),
      isQuiet_closed (by decide), isQuiet_closed (by decide), by simp⟩, by simp⟩
  | true =>
    simp only [List.forall_mem_append, List.forall_mem_cons, if_true]
    exact ⟨⟨⟨⟨isQuiet_closed (by decide), by simp⟩, isQuiet_closed (by decide), by simp⟩,
      isQuiet_closed (by decide), isQuiet_closed (by decide), isQuiet_closed (by decide), by simp⟩,
      isQuiet_closed (by decide), by simp⟩

include lineNames names ht parts in
theorem isQuiet_classLine : IsQuiet (w.classLine c) := by
  have type : IsOneLine w.type.name := by
    rw [parts.type_eq]
    exact (names.isWord_name ht).isOneLine
  have base : IsOneLine ((w.base.map ApiType.name).getD c.managed.objectClass) := by
    rw [parts.base_eq]
    cases found : s.baseOf t with
    | none => exact lineNames.objectClass
    | some b => exact (names.isWord_name (Schema.baseOf_mem found)).isOneLine
  unfold classLine
  simp only [String.append_assoc]
  refine isQuiet_start (by decide) ?_
  simp only [isOneLine_append, type, base]
  cases w.type.isAbstract <;> decide

include lineNames names ht exports_ok slots_ok parts in
/-- Down to its imports, a reader finds the labels and the arms in a wrapper, and nothing else. -/
theorem sifts_front : Sifts (w.front c) (w.labelLines ++ w.armLines) := by
  have object := lineNames.objectClass
  have own := names t ht
  have «namespace» : IsQuiet ("namespace " ++ c.managed.namespace) :=
    isQuiet_start (by decide) lineNames.namespace
  have opening : ∀ x ∈ ["#nullable enable", "#pragma warning disable", ""] ++ w.usings ++
      ["", "namespace " ++ c.managed.namespace, "\x7b", w.classLine c, "\x7b"], IsQuiet x := by
    simp only [List.forall_mem_append, List.forall_mem_cons]
    exact ⟨⟨⟨isQuiet_closed (by decide), isQuiet_closed (by decide), isQuiet_empty, by simp⟩,
      quiet_usings w⟩, isQuiet_empty, «namespace», isQuiet_opening,
      isQuiet_classLine lineNames names ht parts, isQuiet_opening, by simp⟩
  have members := quiet_members exports_ok parts object names own
  have events := sifts_events parts object names own
  have dispatch := sifts_dispatch slots_ok parts object names own
  have body := ((Sifts.quiet_append members (events.append dispatch)).append_quiet
    (Code.each_blank isFrame_isQuiet))
  have whole := body.quiet_append opening
  convert whole using 1
  simp [front, aboveImports]

end Front

end Wrapper

end InteropGen
