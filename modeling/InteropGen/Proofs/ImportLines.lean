import InteropGen.Proofs.DeclaredNames
import InteropGen.Proofs.DeclaredSymbols
import InteropGen.Proofs.Planning
import InteropGen.Proofs.QuietLines

set_option autoImplicit false

/-!
# Lines of the class of imports

In the class of imports, all that a reader finds are the imports, one line for each, and the
attribute in front of the class.
-/

namespace InteropGen

open Text

variable {c : Config} {s : Schema} {t : ApiType} {exports : ExportTable}

def importSymbol? (line : List Char) : Option String :=
  if importStart.isPrefixOf line && ");".toList.isSuffixOf line then some (declaredSymbol line)
  else none

theorem isQuiet_callbackAttribute (c : Config) : IsQuiet (callbackAttribute c) := by
  change IsQuiet ("[UnmanagedFunctionPointer(" ++ c.native.convention.managed ++ ")]")
  rw [String.append_assoc]
  refine isQuiet_start (by decide) ?_
  cases c.native.convention <;> decide

theorem isQuiet_libraryAttribute (c : Config) : IsQuiet (Import.libraryAttribute c) := by
  change IsQuiet ("[DllImport(NativeModuleName, CallingConvention = " ++
    c.native.convention.managed ++ ")]")
  rw [String.append_assoc]
  refine isQuiet_start (by decide) ?_
  cases c.native.convention <;> decide

def returnAttributes : List String :=
  ["[return: MarshalAs(UnmanagedType.I1)]", "[return: MarshalAs(UnmanagedType.LPWStr)]"]

theorem mem_returnAttributes {type : TypeRef} {o : Option String}
    (h : s.returnAttribute type = .ok o) : ∀ x ∈ o, x ∈ returnAttributes := by
  obtain ⟨shape, _, rfl⟩ := map_eq_ok.1 h
  intro x hx
  split at hx
  · cases hx
    exact List.mem_cons_self
  · cases hx
    exact List.mem_cons_of_mem _ List.mem_cons_self
  · cases hx

theorem quiet_marshalling {o : Option String} (h : ∀ x ∈ o, x ∈ returnAttributes) :
    QuietCode (Code.lines o.toList) := by
  refine Code.each_lines.2 fun x hx => ?_
  have mem := h x (Option.mem_toList.1 hx)
  simp only [returnAttributes, List.mem_cons, List.not_mem_nil, or_false] at mem
  rcases mem with rfl | rfl
  · exact isQuiet_closed (by decide)
  · exact isQuiet_closed (by decide)

theorem isOver_handleOf (isStatic : Bool) :
    ∀ d ∈ handleOf isStatic, IsOver spellingMarks d.text := by
  cases isStatic with
  | true => exact fun d hd => absurd hd List.not_mem_nil
  | false => exact List.forall_mem_singleton.2 (by decide : IsOver spellingMarks "IntPtr obj")

section Delegates

structure SlotDelegate.IsLine (d : SlotDelegate) : Prop where
  slot : IsWord d.slot
  result : IsWord d.result.literal
  parameters : ∀ p ∈ d.parameters, IsOver spellingMarks p.text
  marshalling : ∀ x ∈ d.marshalling, x ∈ returnAttributes

theorem SlotDelegate.isLine_ofSlot (names : s.HasIdentifiers) (own : t.HasIdentifiers) {slot : Slot}
    (word : IsWord slot.name) {d : SlotDelegate} (h : ofSlot s t slot = .ok d) : d.IsLine := by
  obtain ⟨parameters, hparameters, h⟩ := bind_eq_ok.1 h
  obtain ⟨result, hresult, h⟩ := bind_eq_ok.1 h
  obtain ⟨marshalling, hmarshalling, h⟩ := bind_eq_ok.1 h
  cases h
  exact ⟨word, names.isWord_resolve_binding hresult, List.forall_mem_append.2
    ⟨isOver_handleOf _, names.isOver_declareAll (own.isWord_parameters _) hparameters⟩,
    mem_returnAttributes hmarshalling⟩

theorem SlotDelegate.IsLine.quiet {d : SlotDelegate} (h : d.IsLine) {typeName : String}
    (own : IsWord typeName) : QuietCode (d.code c typeName) := by
  have line : IsQuiet (d.line typeName) := by
    change IsQuiet ("public delegate " ++ d.result.literal ++ " " ++ typeName ++ d.slot ++
      "Trampoline(" ++ Declared.join d.parameters ++ ");")
    simp only [String.append_assoc]
    refine isQuiet_start (by decide) ?_
    simp only [isOneLine_append, h.result.isOneLine, own.isOneLine, h.slot.isOneLine,
      isOneLine_join h.parameters]
    decide
  simp only [SlotDelegate.code, Code.each_append, Code.each_line]
  exact ⟨⟨⟨Code.each_blank isFrame_isQuiet, isQuiet_callbackAttribute c⟩,
    quiet_marshalling h.marshalling⟩, line⟩

theorem quiet_entries {entries : List String} (words : ∀ name ∈ entries, IsWord name) :
    QuietCode (Code.lines (entries.map (· ++ ","))) := by
  refine Code.each_lines.2 fun x hx => ?_
  obtain ⟨name, hname, rfl⟩ := List.mem_map.1 hx
  exact isQuiet_named (words name hname) (by decide) (by decide) (by decide) (by decide) (by decide)

theorem quiet_delegates {d : SlotDelegates} (own : IsWord d.typeName)
    (lines : ∀ x ∈ d.delegates, x.IsLine) : QuietCode (d.code c) := by
  have headline : IsQuiet ("public enum " ++ d.typeName ++ "Trampoline") := by
    rw [String.append_assoc]
    exact isQuiet_start (by decide) (own.isOneLine.suffixed (by decide))
  have locator : IsQuiet d.locatorLine := by
    change IsQuiet ("public delegate IntPtr " ++ d.typeName ++ "TrampolineLocatorCallback(" ++
      d.typeName ++ "Trampoline trampoline);")
    simp only [String.append_assoc]
    refine isQuiet_start (by decide) ?_
    simp only [isOneLine_append, own.isOneLine]
    decide
  have entries : QuietCode (Code.lines (d.enumerators.map (· ++ ","))) := by
    refine quiet_entries fun name hname => ?_
    obtain ⟨x, hx, rfl⟩ := List.mem_map.1 hname
    exact (lines x hx).slot
  simp only [SlotDelegates.code, Code.each_append, Code.each_line, Code.each_block isFrame_isQuiet]
  exact ⟨⟨⟨⟨⟨headline, entries⟩, Code.each_blank isFrame_isQuiet⟩, isQuiet_callbackAttribute c⟩,
    locator⟩, Code.each_flatMap fun x hx => (lines x hx).quiet own⟩

end Delegates

namespace Import

/-- The import is declared on one line, from which its symbol can be read. -/
structure IsReadable (i : Import) : Prop where
  name : IsWord i.name
  result : IsWord i.result.literal
  parameters : ∀ d ∈ i.parameters, IsOver spellingMarks d.text
  marshalling : ∀ x ∈ i.marshalling, x ∈ returnAttributes

variable {i : Import}

theorem line_eq (i : Import) : i.line =
    "public static extern " ++ i.result.literal ++ " " ++ i.name ++ "(" ++
      Declared.join i.parameters ++ ");" := rfl

theorem IsReadable.isOneLine (h : i.IsReadable) : IsOneLine i.line := by
  rw [line_eq]
  simp only [isOneLine_append, h.result.isOneLine, h.name.isOneLine, isOneLine_join h.parameters]
  decide

theorem IsReadable.trimLeft (_ : i.IsReadable) : trimLeft i.line.toList = i.line.toList := by
  have line : i.line = String.ofList ['p'] ++ ("ublic static extern " ++ i.result.literal ++ " " ++
      i.name ++ "(" ++ Declared.join i.parameters ++ ");") := by
    have start : "public static extern " = String.ofList ['p'] ++ "ublic static extern " := by decide
    rw [line_eq, start]
    simp only [String.append_assoc]
  rw [line, String.toList_append, String.toList_ofList]
  exact trimLeft_of_head (by decide)

theorem IsReadable.importSymbol? (h : i.IsReadable) :
    importSymbol? i.line.toList = some i.symbol := by
  have start : '(' ∉ ("public static extern " ++ i.result.literal).toList := by
    rw [String.toList_append, List.mem_append, not_or]
    exact ⟨by decide, h.result.not_mem (by decide) (by simp)⟩
  have shape : i.line = ("public static extern " ++ i.result.literal) ++ " " ++ i.name ++ "(" ++
      Declared.join i.parameters ++ ")" ++ ";" := by
    have closing : ");" = ")" ++ ";" := by decide
    rw [line_eq, closing, ← String.append_assoc]
  have isImport : importStart.isPrefixOf i.line.toList = true := by
    rw [List.isPrefixOf_iff_prefix, line_eq]
    simp only [String.toList_append, List.append_assoc]
    exact List.prefix_append _ _
  have ended : ");".toList.isSuffixOf i.line.toList = true := by
    rw [List.isSuffixOf_iff_suffix, line_eq, String.toList_append]
    exact List.suffix_append _ _
  rw [InteropGen.importSymbol?, isImport, ended, Bool.and_true, if_pos rfl, shape,
    declaredSymbol_eq start h.name
      (fun d hd => (h.parameters d hd).not_mem (by decide) (by decide)) (by decide), Import.symbol]

section Kinds

theorem unmarshalled : ∀ x ∈ (none : Option String), x ∈ returnAttributes :=
  fun _ hx => absurd hx (by simp)

variable (names : s.HasIdentifiers) (own : t.HasIdentifiers)
include names own

theorem isReadable_ofMember {name : String} (word : IsWord name) {m : Member}
    (h : ofMember s t name m = .ok i) : i.IsReadable := by
  obtain ⟨parameters, hparameters, h⟩ := bind_eq_ok.1 h
  obtain ⟨result, hresult, h⟩ := bind_eq_ok.1 h
  obtain ⟨marshalling, hmarshalling, h⟩ := bind_eq_ok.1 h
  cases h
  exact ⟨word, names.isWord_resolve_binding hresult, List.forall_mem_append.2
    ⟨isOver_handleOf _, names.isOver_declareFlat (own.isWord_parameters m) hparameters⟩,
    mem_returnAttributes hmarshalling⟩

omit own in
theorem isReadable_ofArrayStep {name : String} (word : IsWord name) {index : Nat}
    {step : ArrayStep} (h : ofArrayStep s t name index step = .ok i) : i.IsReadable := by
  have array : IsOver spellingMarks (Declared.plain "IntPtr" "array").text :=
    (by decide : IsOver spellingMarks "IntPtr array")
  have position : IsOver spellingMarks (Declared.plain "int" "index").text :=
    (by decide : IsOver spellingMarks "int index")
  cases step with
  | openArray =>
    cases h
    exact ⟨word, (by decide : IsWord "IntPtr"), isOver_handleOf _, unmarshalled⟩
  | countItems =>
    cases h
    exact ⟨word, (by decide : IsWord "int"),
      List.forall_mem_append.2 ⟨isOver_handleOf _, List.forall_mem_singleton.2 array⟩, unmarshalled⟩
  | itemAt =>
    simp only [ofArrayStep] at h
    split at h
    · obtain ⟨result, hresult, h⟩ := bind_eq_ok.1 h
      obtain ⟨marshalling, hmarshalling, h⟩ := bind_eq_ok.1 h
      cases h
      exact ⟨word, names.isWord_resolve_binding hresult, List.forall_mem_append.2
        ⟨isOver_handleOf _, List.forall_mem_cons.2 ⟨array, List.forall_mem_singleton.2 position⟩⟩,
        mem_returnAttributes hmarshalling⟩
    · cases h
  | closeArray =>
    cases h
    exact ⟨word, (by decide : IsWord "void"),
      List.forall_mem_append.2 ⟨isOver_handleOf _, List.forall_mem_singleton.2 array⟩, unmarshalled⟩

theorem isReadable_ofExport {kind : ExportKind} (h : ofExport s t (t.exportOf kind) = .ok i) :
    i.IsReadable := by
  have word := own.isWord_nameOf kind
  have type := isWord_of_isIdentifier own.name
  have self : IsOver spellingMarks handleParameter.text :=
    (by decide : IsOver spellingMarks "IntPtr obj")
  cases kind with
  | member m => exact isReadable_ofMember names own word h
  | arrayAccess index step => exact isReadable_ofArrayStep names word h
  | create =>
    cases h
    exact ⟨word, (by decide : IsWord "IntPtr"), fun d hd => absurd hd List.not_mem_nil, unmarshalled⟩
  | destroy =>
    cases h
    exact ⟨word, (by decide : IsWord "void"), List.forall_mem_singleton.2 self, unmarshalled⟩
  | setEventCallback =>
    cases h
    have parameter : IsOver spellingMarks (t.name ++ "EventCallbackType" ++ " " ++ "callback") :=
      isOver_append.2 ⟨isOver_append.2 ⟨isOver_append.2 ⟨type.over, by decide⟩, by decide⟩, by decide⟩
    exact ⟨word, (by decide : IsWord "void"), List.forall_mem_singleton.2 parameter, unmarshalled⟩
  | setTrampolineLocator =>
    cases h
    have parameter :
        IsOver spellingMarks (t.name ++ "TrampolineLocatorCallback" ++ " " ++ "callback") :=
      isOver_append.2 ⟨isOver_append.2 ⟨isOver_append.2 ⟨type.over, by decide⟩, by decide⟩, by decide⟩
    exact ⟨word, (by decide : IsWord "void"), List.forall_mem_singleton.2 parameter, unmarshalled⟩
  | setManagedHandle =>
    cases h
    have handle : IsOver spellingMarks (Declared.plain "IntPtr" "handle").text :=
      (by decide : IsOver spellingMarks "IntPtr handle")
    exact ⟨word, (by decide : IsWord "void"),
      List.forall_mem_cons.2 ⟨self, List.forall_mem_singleton.2 handle⟩, unmarshalled⟩

end Kinds

/-- Of the lines of an import, a reader finds its declaration. -/
theorem IsReadable.sifts (h : i.IsReadable) : Sifts (i.code c).texts [i.line] := by
  have above : QuietCode (Code.blank ++ Code.line (libraryAttribute c) ++
      Code.lines i.marshalling.toList) := by
    simp only [Code.each_append, Code.each_line]
    exact ⟨⟨Code.each_blank isFrame_isQuiet, isQuiet_libraryAttribute c⟩,
      quiet_marshalling h.marshalling⟩
  rw [code, Code.texts_append]
  exact (Sifts.refl [i.line]).quiet_append above

end Import

namespace Imports

variable {imports : Imports} {slots : Option SlotTable}

structure IsReadable (imports : Imports) : Prop where
  typeName : IsWord imports.typeName
  events : ∀ name ∈ imports.events, IsWord name
  delegates : ∀ d ∈ imports.delegates, IsWord d.typeName ∧ ∀ x ∈ d.delegates, x.IsLine
  imports : ∀ i ∈ imports.imports, i.IsReadable

theorem lines_ofTable (names : s.HasIdentifiers) (own : t.HasIdentifiers) {table : SlotTable}
    (derived : SlotTable.derive t = .ok table) {d : SlotDelegates}
    (h : SlotDelegates.ofTable s t table = .ok d) :
    IsWord d.typeName ∧ ∀ x ∈ d.delegates, x.IsLine := by
  obtain ⟨delegates, hdelegates, rfl⟩ := map_eq_ok.1 h
  have steps := (SlotDelegate.ofSlots_stepwise s t).forall₂ hdelegates
  refine ⟨isWord_of_isIdentifier own.name, fun x hx => ?_⟩
  obtain ⟨slot, hslot, ok⟩ := exists_left_of_forall₂ steps hx
  exact SlotDelegate.isLine_ofSlot names own (own.isWord_slot derived hslot) ok

theorem isReadable_ofClass (names : s.HasIdentifiers) (own : t.HasIdentifiers)
    (exports_ok : ExportTable.build s t = .ok exports) (slots_ok : t.slotTable = .ok slots)
    (h : ofClass s t exports slots = .ok imports) : imports.IsReadable := by
  have steps := steps_ofClass h
  rw [ExportTable.entries_of_build exports_ok, List.forall₂_map_left_iff] at steps
  obtain ⟨delegates, hdelegates, h⟩ := bind_eq_ok.1 h
  obtain ⟨declared, _, h⟩ := bind_eq_ok.1 h
  cases h
  refine ⟨isWord_of_isIdentifier own.name, fun name hname => ?_, fun d hd => ?_, fun i hi => ?_⟩
  · obtain ⟨event, hevent, rfl⟩ := List.mem_map.1 hname
    exact isWord_of_isIdentifier (own.events event hevent)
  · rcases mapM_eq_ok.1 hdelegates with ⟨_, rfl⟩ | ⟨table, d', rfl, rfl, ok⟩
    · cases hd
    · cases hd
      rcases ApiType.slotTable_eq_ok.1 slots_ok with ⟨_, none⟩ | ⟨_, _, eq, derived⟩
      · cases none
      · cases eq
        exact lines_ofTable names own derived ok
  · obtain ⟨kind, _, ok⟩ := exists_left_of_forall₂ steps hi
    exact Import.isReadable_ofExport names own ok

def importLines (imports : Imports) : List String := imports.imports.map Import.line

def declarations (c : Config) (imports : Imports) : Code :=
  Code.given (!imports.events.isEmpty) (imports.eventTypes c) ++
    (imports.delegates.map fun d => Code.blank ++ d.code c).getD [] ++
    imports.imports.flatMap (Import.code c)

theorem texts_code (c : Config) (imports : Imports) :
    (imports.code c).texts = [importsMark, imports.headline, "\x7b", moduleName c] ++
      (imports.declarations c).texts ++ ["\x7d"] := by
  simp [code, declarations, importsMark]

theorem IsReadable.quiet_eventTypes (h : imports.IsReadable) : QuietCode (imports.eventTypes c) := by
  have type := h.typeName.isOneLine
  have callback : IsQuiet ("public delegate IntPtr " ++ imports.typeName ++
      "EventCallbackType(IntPtr obj, " ++ imports.typeName ++ "Event e, IntPtr parameter);") := by
    simp only [String.append_assoc]
    refine isQuiet_start (by decide) ?_
    simp only [isOneLine_append, type]
    decide
  have headline : IsQuiet ("public enum " ++ imports.typeName ++ "Event") := by
    rw [String.append_assoc]
    exact isQuiet_start (by decide) (type.suffixed (by decide))
  simp only [eventTypes, Code.each_append, Code.each_line, Code.each_block isFrame_isQuiet]
  exact ⟨⟨⟨⟨Code.each_blank isFrame_isQuiet, isQuiet_callbackAttribute c⟩, callback⟩,
    Code.each_blank isFrame_isQuiet⟩, headline, quiet_entries h.events⟩

theorem IsReadable.quiet_types (h : imports.IsReadable) :
    QuietCode (Code.given (!imports.events.isEmpty) (imports.eventTypes c) ++
      (imports.delegates.map fun d => Code.blank ++ d.code c).getD []) := by
  refine Code.each_append.2 ⟨Code.each_given _ h.quiet_eventTypes, Code.each_getD fun d hd => ?_⟩
  obtain ⟨delegates, hdelegates, rfl⟩ := Option.map_eq_some_iff.1 hd
  obtain ⟨own, lines⟩ := h.delegates delegates hdelegates
  exact Code.each_append.2 ⟨Code.each_blank isFrame_isQuiet, quiet_delegates own lines⟩

theorem IsReadable.sifts_declarations (h : imports.IsReadable) :
    Sifts (imports.declarations c).texts imports.importLines := by
  have lines := Sifts.flatMap fun i hi => (h.imports i hi).sifts (c := c)
  rw [declarations, Code.texts_append, Code.texts_flatMap, importLines, List.map_eq_flatMap]
  exact lines.quiet_append h.quiet_types

end Imports

end InteropGen
