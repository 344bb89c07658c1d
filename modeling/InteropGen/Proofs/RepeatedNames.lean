import InteropGen.Proofs.ForwardedMembers
import InteropGen.Proofs.FragmentEnums
import InteropGen.Proofs.ParameterNames
import InteropGen.Proofs.ShimText
import InteropGen.Proofs.WrapperCalls
import InteropGen.Proofs.WrapperText
import InteropGen.Schema.Validation

set_option autoImplicit false

/-!
# Names that repeat in a signature

All signatures of a class take their names from the same members.  What has no clash in the flat
functions has none anywhere else, and in a flat function only the instance and the counts can clash
with a parameter.
-/

namespace InteropGen

open Text Declared

variable {s : Schema} {t : ApiType}

/-! ### The names of each kind of signature -/

def ArrayStep.parameterNames : ArrayStep → List String
  | openArray => []
  | countItems => ["array"]
  | itemAt => ["array", "index"]
  | closeArray => ["array"]

namespace ApiType

def parameterNames (t : ApiType) : ExportKind → List String
  | .create => []
  | .destroy => ["obj"]
  | .member m =>
    receiverNames (t.signature m).isStatic ++ flatNames (t.signature m).parameters
  | .arrayAccess i step => receiverNames (t.property i).isStatic ++ step.parameterNames
  | .setEventCallback => ["callback"]
  | .setTrampolineLocator => ["callback"]
  | .setManagedHandle => ["obj", "handle"]

def slotNames (t : ApiType) (m : Member) : List String :=
  receiverNames (t.signature m).isStatic ++ (t.signature m).parameters.map Parameter.name

theorem forall_parameters {P : Bool → List Parameter → Prop} (empty : ∀ isStatic, P isStatic [])
    (value : ∀ isStatic type, P isStatic [⟨"value", type⟩])
    (methods : ∀ m ∈ t.methods, P m.isStatic m.parameters) (m : Member) :
    P (t.signature m).isStatic (t.signature m).parameters := by
  cases m with
  | getter i => exact empty _
  | setter i => exact value _ _
  | method i => exact getD_of_forall methods (empty _)

end ApiType

section Names

variable {kind : ExportKind}

theorem Shim.names_arrayFunction {name : String} {i : Nat} {step : ArrayStep} {f : Function}
    (h : arrayFunction s t name i step = .ok f) :
    f.parameters.map Declared.name = t.parameterNames (.arrayAccess i step) := by
  simp only [arrayFunction] at h
  split at h
  · obtain ⟨vector, _, h⟩ := bind_eq_ok.1 h
    cases step with
    | itemAt =>
      obtain ⟨result, _, h⟩ := bind_eq_ok.1 h
      obtain ⟨answer, _, h⟩ := bind_eq_ok.1 h
      cases h
      exact List.map_append.trans (congrArg (· ++ _) names_selfOf)
    | openArray =>
      cases h
      exact names_selfOf.trans (List.append_nil _).symm
    | countItems =>
      cases h
      exact List.map_append.trans (congrArg (· ++ _) names_selfOf)
    | closeArray =>
      cases h
      exact List.map_append.trans (congrArg (· ++ _) names_selfOf)
  · cases h

theorem Shim.names_functionOf {f : Function} (h : functionOf s t (t.exportOf kind) = .ok f) :
    f.parameters.map Declared.name = t.parameterNames kind := by
  cases kind with
  | member m =>
    obtain ⟨parameters, hparameters, h⟩ := bind_eq_ok.1 h
    obtain ⟨result, _, h⟩ := bind_eq_ok.1 h
    obtain ⟨arguments, _, h⟩ := bind_eq_ok.1 h
    obtain ⟨answer, _, h⟩ := bind_eq_ok.1 h
    cases h
    rw [List.map_append, names_selfOf, names_declareFlat hparameters]
    rfl
  | arrayAccess i step => exact names_arrayFunction h
  | create | destroy | setEventCallback | setTrampolineLocator | setManagedHandle =>
    cases h
    rfl

theorem Import.names_ofArrayStep {name : String} {index : Nat} {step : ArrayStep} {i : Import}
    (h : ofArrayStep s t name index step = .ok i) :
    i.parameters.map Declared.name = t.parameterNames (.arrayAccess index step) := by
  cases step with
  | openArray =>
    cases h
    exact names_handleOf.trans (List.append_nil _).symm
  | countItems =>
    cases h
    exact List.map_append.trans (congrArg (· ++ _) names_handleOf)
  | itemAt =>
    simp only [ofArrayStep] at h
    split at h
    · obtain ⟨result, _, h⟩ := bind_eq_ok.1 h
      obtain ⟨marshalling, _, h⟩ := bind_eq_ok.1 h
      cases h
      exact List.map_append.trans (congrArg (· ++ _) names_handleOf)
    · cases h
  | closeArray =>
    cases h
    exact List.map_append.trans (congrArg (· ++ _) names_handleOf)

theorem Import.names_ofExport {i : Import} (h : ofExport s t (t.exportOf kind) = .ok i) :
    i.parameters.map Declared.name = t.parameterNames kind := by
  cases kind with
  | member m =>
    obtain ⟨parameters, hparameters, h⟩ := bind_eq_ok.1 h
    obtain ⟨result, _, h⟩ := bind_eq_ok.1 h
    obtain ⟨marshalling, _, h⟩ := bind_eq_ok.1 h
    cases h
    rw [List.map_append, names_handleOf, names_declareFlat hparameters]
    rfl
  | arrayAccess i step => exact names_ofArrayStep h
  | create | destroy | setEventCallback | setTrampolineLocator | setManagedHandle =>
    cases h
    rfl

variable {slot : Slot}

theorem SlotWrapper.names_ofSlot {w : SlotWrapper} (h : ofSlot s t slot = .ok w) :
    w.parameters.map Declared.name = t.slotNames slot.member := by
  obtain ⟨result, _, h⟩ := bind_eq_ok.1 h
  obtain ⟨parameters, hparameters, h⟩ := bind_eq_ok.1 h
  cases h
  rw [List.map_append, names_slotSelfOf, names_declareAll hparameters]
  rfl

theorem SlotDelegate.names_ofSlot {d : SlotDelegate} (h : ofSlot s t slot = .ok d) :
    d.parameters.map Declared.name = t.slotNames slot.member := by
  obtain ⟨parameters, hparameters, h⟩ := bind_eq_ok.1 h
  obtain ⟨result, _, h⟩ := bind_eq_ok.1 h
  obtain ⟨marshalling, _, h⟩ := bind_eq_ok.1 h
  cases h
  rw [List.map_append, names_handleOf, names_declareAll hparameters]
  rfl

theorem SlotHandler.names_ofSlot {handler : SlotHandler} (h : ofSlot s t slot = .ok handler) :
    handler.parameters.map Declared.name = t.slotNames slot.member := by
  obtain ⟨parameters, hparameters, h⟩ := bind_eq_ok.1 h
  obtain ⟨result, _, h⟩ := bind_eq_ok.1 h
  obtain ⟨returned, _, h⟩ := bind_eq_ok.1 h
  cases h
  rw [List.map_append, names_handleOf, names_parametersOf hparameters]
  rfl

end Names

/-! ### The signatures of a class -/

/-- The line declares a function, or a type of functions, with these parameters. -/
inductive ClassArtifacts.Signs (a : ClassArtifacts) : String → List Declared → Prop where
  | function {f : Shim.Function} (hf : f ∈ a.shim.functions) : Signs a f.signatureLine f.parameters
  | import {i : Import} (hi : i ∈ a.wrapper.imports.imports) : Signs a i.line i.parameters
  | pointer {n : NativeTrampolines} {w : SlotWrapper} (hn : n ∈ a.fragment.trampolines)
      (hw : w ∈ n.wrappers) : Signs a w.typedefLine w.parameters
  | wrapper {n : NativeTrampolines} {w : SlotWrapper} (hn : n ∈ a.fragment.trampolines)
      (hw : w ∈ n.wrappers) : Signs a w.signatureLine w.parameters
  | delegate {ds : SlotDelegates} {d : SlotDelegate} (hds : ds ∈ a.wrapper.imports.delegates)
      (hd : d ∈ ds.delegates) : Signs a (d.line ds.typeName) d.parameters
  | handler {d : Dispatch} {h : SlotHandler} (hd : d ∈ a.wrapper.dispatch) (hh : h ∈ d.handlers) :
      Signs a h.signatureLine h.parameters

namespace ClassArtifacts

variable {a : ClassArtifacts} {slots : Option SlotTable} {exports : ExportTable} {line : String}
  {ds : List Declared}

theorem Signs.shown (h : a.Signs line ds) (c : Config) :
    line ∈ a.shim.code.texts ∨ line ∈ a.fragment.code.texts ∨ line ∈ (a.wrapper.code c).texts := by
  have imports : (a.wrapper.imports.code c).texts <:+: (a.wrapper.code c).texts := by
    rw [Wrapper.texts_code]
    exact List.infix_append _ _ _
  have declarations : (a.wrapper.imports.declarations c).texts <:+: (a.wrapper.code c).texts := by
    refine List.IsInfix.trans ?_ imports
    rw [Imports.texts_code]
    exact List.infix_append _ _ _
  have structures {n : NativeTrampolines} (hn : n ∈ a.fragment.trampolines) :
      n.body.texts <:+: a.fragment.code.texts := by
    refine List.IsInfix.trans ?_ (Fragment.structure_infix_code hn)
    rw [Code.texts_blockEnding]
    exact ((List.prefix_append _ _).isInfix.trans (List.suffix_cons _ _).isInfix).trans
      (List.suffix_cons _ _).isInfix
  cases h with
  | function hf =>
    refine .inl ((Code.texts_infix_right (Code.texts_infix_flatMap hf) _).subset ?_)
    rw [Shim.Function.texts_code]
    simp
  | «import» hi =>
    refine .inr (.inr (declarations.subset ?_))
    refine (Code.texts_infix_right (Code.texts_infix_flatMap hi) _).subset ?_
    simp [Import.code]
  | pointer hn hw =>
    refine .inr (.inl ((structures hn).subset ?_))
    refine (NativeTrampolines.wrapper_infix_body hw).subset ?_
    simp [SlotWrapper.code]
  | wrapper hn hw =>
    refine .inr (.inl ((structures hn).subset ?_))
    refine (NativeTrampolines.wrapper_infix_body hw).subset ?_
    simp [SlotWrapper.code]
  | delegate hds hd =>
    refine .inr (.inr (declarations.subset ?_))
    have types : Code.texts (SlotDelegate.code c _ _) <:+: Code.texts (SlotDelegates.code c _) :=
      Code.texts_infix_right (Code.texts_infix_flatMap hd) _
    have part := Code.texts_infix_left (Code.texts_infix_right (Code.texts_infix_right types
      Code.blank) (Code.given (!a.wrapper.imports.events.isEmpty) (a.wrapper.imports.eventTypes c)))
      (a.wrapper.imports.imports.flatMap (Import.code c))
    rw [Imports.declarations, Option.mem_def.1 hds]
    refine part.subset ?_
    simp [SlotDelegate.code]
  | handler hd hh =>
    refine .inr (.inr ((Wrapper.infix_dispatch c hd).subset ?_))
    refine (Code.texts_infix_right (Code.texts_infix_flatMap hh) _).subset ?_
    simp [SlotHandler.code]

section Origins

variable (parts : a.Parts s t slots exports)
include parts

theorem Parts.made_of_slots {α : Type} {f : SlotTable → Except Failure α} {o : Option α}
    (ok : slots.mapM f = .ok o) {x : α} (hx : x ∈ o) :
    f ⟨t.name, t.members.map (SlotTable.slotOf t)⟩ = .ok x := by
  rcases mapM_eq_ok.1 ok with ⟨_, rfl⟩ | ⟨table, y, rfl, rfl, made⟩
  · cases hx
  · cases hx
    rcases ApiType.slotTable_eq_ok.1 parts.slots_ok with ⟨_, none⟩ | ⟨_, _, eq, derived⟩
    · cases none
    · cases eq
      rw [← (SlotTable.derive_eq_ok.1 derived).2.2]
      exact made

theorem Parts.wrapper_origin {n : NativeTrampolines} {w : SlotWrapper}
    (hn : n ∈ a.fragment.trampolines) (hw : w ∈ n.wrappers) :
    ∃ m ∈ t.members, SlotWrapper.ofSlot s t (SlotTable.slotOf t m) = .ok w := by
  have fragment := Fragment.parts_of_ofClass parts.fragment_ok
  obtain ⟨wrappers, hwrappers, rfl⟩ := map_eq_ok.1 (parts.made_of_slots fragment.trampolines_ok hn)
  obtain ⟨slot, hslot, ok⟩ :=
    exists_left_of_forall₂ ((SlotWrapper.ofSlots_stepwise s t).forall₂ hwrappers) hw
  obtain ⟨m, hm, rfl⟩ := List.mem_map.1 hslot
  exact ⟨m, hm, ok⟩

theorem Parts.delegate_origin {types : SlotDelegates} {d : SlotDelegate}
    (htypes : types ∈ a.wrapper.imports.delegates) (hd : d ∈ types.delegates) :
    types.typeName = t.name ∧
      ∃ m ∈ t.members, SlotDelegate.ofSlot s t (SlotTable.slotOf t m) = .ok d := by
  have wrapper := Wrapper.parts_of_ofClass parts.wrapper_ok
  obtain ⟨delegates, hdelegates, ok⟩ := bind_eq_ok.1 wrapper.imports_ok
  obtain ⟨imports, _, ok⟩ := bind_eq_ok.1 ok
  rw [← pure_eq_ok.1 ok] at htypes
  obtain ⟨made, hmade, rfl⟩ := map_eq_ok.1 (parts.made_of_slots hdelegates htypes)
  obtain ⟨slot, hslot, ok⟩ :=
    exists_left_of_forall₂ ((SlotDelegate.ofSlots_stepwise s t).forall₂ hmade) hd
  obtain ⟨m, hm, rfl⟩ := List.mem_map.1 hslot
  exact ⟨rfl, m, hm, ok⟩

theorem Parts.handler_origin {d : Dispatch} {handler : SlotHandler} (hd : d ∈ a.wrapper.dispatch)
    (hh : handler ∈ d.handlers) :
    ∃ m ∈ t.members, SlotHandler.ofSlot s t (SlotTable.slotOf t m) = .ok handler := by
  have wrapper := Wrapper.parts_of_ofClass parts.wrapper_ok
  obtain ⟨handlers, hhandlers, rfl⟩ := map_eq_ok.1 (parts.made_of_slots wrapper.dispatch_ok hd)
  obtain ⟨slot, hslot, ok⟩ :=
    exists_left_of_forall₂ ((SlotHandler.ofSlots_stepwise s t).forall₂ hhandlers) hh
  obtain ⟨m, hm, rfl⟩ := List.mem_map.1 hslot
  exact ⟨m, hm, ok⟩

theorem Parts.names_of_signs (h : a.Signs line ds) :
    (∃ kind ∈ s.exportKinds t, ds.map Declared.name = t.parameterNames kind) ∨
      ∃ m ∈ t.members, ds.map Declared.name = t.slotNames m := by
  cases h with
  | function hf =>
    obtain ⟨kind, mem, ok⟩ := Shim.exists_kind parts.exports_ok parts.shim_ok hf
    exact .inl ⟨kind, mem, Shim.names_functionOf ok⟩
  | «import» hi =>
    have imports := (Wrapper.parts_of_ofClass parts.wrapper_ok).imports_ok
    obtain ⟨kind, mem, ok⟩ := Imports.exists_kind parts.exports_ok imports hi
    exact .inl ⟨kind, mem, Import.names_ofExport ok⟩
  | pointer hn hw =>
    obtain ⟨m, hm, ok⟩ := parts.wrapper_origin hn hw
    exact .inr ⟨m, hm, SlotWrapper.names_ofSlot ok⟩
  | wrapper hn hw =>
    obtain ⟨m, hm, ok⟩ := parts.wrapper_origin hn hw
    exact .inr ⟨m, hm, SlotWrapper.names_ofSlot ok⟩
  | delegate hds hd =>
    obtain ⟨_, m, hm, ok⟩ := parts.delegate_origin hds hd
    exact .inr ⟨m, hm, SlotDelegate.names_ofSlot ok⟩
  | handler hd hh =>
    obtain ⟨m, hm, ok⟩ := parts.handler_origin hd hh
    exact .inr ⟨m, hm, SlotHandler.names_ofSlot ok⟩

end Origins

/-! ### Reading the names -/

section Words

variable (own : t.HasIdentifiers)
include own

theorem isWord_parameterNames (kind : ExportKind) : ∀ x ∈ t.parameterNames kind, IsWord x := by
  cases kind with
  | create => exact (by decide : ∀ x ∈ ([] : List String), IsWord x)
  | destroy => exact (by decide : ∀ x ∈ ["obj"], IsWord x)
  | setEventCallback => exact (by decide : ∀ x ∈ ["callback"], IsWord x)
  | setTrampolineLocator => exact (by decide : ∀ x ∈ ["callback"], IsWord x)
  | setManagedHandle => exact (by decide : ∀ x ∈ ["obj", "handle"], IsWord x)
  | member m =>
    exact List.forall_mem_append.2
      ⟨isWord_receiverNames _, isWord_flatNames (own.isWord_parameters m)⟩
  | arrayAccess i step =>
    refine List.forall_mem_append.2 ⟨isWord_receiverNames _, ?_⟩
    cases step <;> decide

theorem isWord_slotNames (m : Member) : ∀ x ∈ t.slotNames m, IsWord x :=
  List.forall_mem_append.2
    ⟨isWord_receiverNames _, List.forall_mem_map.2 (own.isWord_parameters m)⟩

end Words

/-- What stands in front of the parameters has no mark when none of its parts has one. -/
theorem isOver_headline {keyword result between name opening : String}
    (hkeyword : IsOver spellingMarks keyword) (hresult : IsOver spellingMarks result)
    (hbetween : IsOver spellingMarks between) (hname : IsOver spellingMarks name)
    (hopening : IsOver spellingMarks opening) :
    IsOver spellingMarks (keyword ++ result ++ between ++ name ++ opening) :=
  isOver_append.2 ⟨isOver_append.2 ⟨isOver_append.2 ⟨isOver_append.2 ⟨hkeyword, hresult⟩, hbetween⟩,
    hname⟩, hopening⟩

/-- The names of a signature can be read from its line, where all declared names are identifiers. -/
theorem Parts.read_of_signs (parts : a.Parts s t slots exports) (names : s.HasIdentifiers)
    (ht : t ∈ s.types) (h : a.Signs line ds) :
    Text.parameterNames line.toList = ds.map fun d => d.name.toList := by
  have own := names t ht
  have words : ∀ x ∈ ds.map Declared.name, IsWord x := by
    rcases parts.names_of_signs h with ⟨kind, _, eq⟩ | ⟨m, _, eq⟩
    · rw [eq]
      exact isWord_parameterNames own kind
    · rw [eq]
      exact isWord_slotNames own m
  have read {front last back : String} {rest : List Char} (clean : IsOver spellingMarks (front ++ last))
      (opens : last.toList.getLast? = some '(') (closes : back.toList = ')' :: rest)
      (ends : ')' ∉ rest) (texts : ∀ d ∈ ds, IsOver spellingMarks d.text) :
      Text.parameterNames (front ++ last ++ Declared.join ds ++ back).toList =
        ds.map fun d => d.name.toList := by
    refine parameterNames_declared ?_ (clean.not_mem (by decide) (by decide)) closes ends texts words
    rw [String.toList_append, List.getLast?_append, opens]
    rfl
  have slot (m : Member) : IsWord (SlotTable.slotOf t m).name := own.isWord_signature m
  cases h with
  | function hf =>
    have readable := (Shim.isReadable_ofClass names ht parts.exports_ok parts.shim_ok).2 _ hf
    have front : IsOver spellingMarks ("NATIVE_API " ++ _ ++ " NATIVE_API_CALL " ++ _ ++ "(") :=
      isOver_headline (by decide) (readable.result.mono (by decide)) (by decide) readable.name.over
        (by decide)
    exact read front rfl (rfl : ")".toList = [')']) (by decide) readable.parameters
  | «import» hi =>
    have imports := (Wrapper.parts_of_ofClass parts.wrapper_ok).imports_ok
    obtain ⟨kind, _, ok⟩ := Imports.exists_kind parts.exports_ok imports hi
    have readable := Import.isReadable_ofExport names own ok
    have front : IsOver spellingMarks ("public static extern " ++ _ ++ " " ++ _ ++ "(") :=
      isOver_headline (by decide) readable.result.over (by decide) readable.name.over (by decide)
    exact read front rfl (rfl : ");".toList = [')', ';']) (by decide) readable.parameters
  | pointer hn hw =>
    obtain ⟨m, _, ok⟩ := parts.wrapper_origin hn hw
    have line := SlotWrapper.isLine_ofSlot names own (slot m) ok
    obtain ⟨result, hresult, ok⟩ := bind_eq_ok.1 ok
    obtain ⟨parameters, _, ok⟩ := bind_eq_ok.1 ok
    cases ok
    have front : IsOver spellingMarks ("typedef " ++ _ ++ " (NATIVE_CALLBACK_CALL* T" ++ _ ++ ")(") :=
      isOver_headline (by decide) (names.isOver_resolve hresult) (by decide) (slot m).over (by decide)
    exact read front rfl (rfl : ");".toList = [')', ';']) (by decide) line.parameters
  | wrapper hn hw =>
    obtain ⟨m, _, ok⟩ := parts.wrapper_origin hn hw
    have line := SlotWrapper.isLine_ofSlot names own (slot m) ok
    obtain ⟨result, hresult, ok⟩ := bind_eq_ok.1 ok
    obtain ⟨parameters, _, ok⟩ := bind_eq_ok.1 ok
    cases ok
    have front : IsOver spellingMarks ("static " ++ _ ++ " " ++ _ ++ "(") :=
      isOver_headline (by decide) (names.isOver_resolve hresult) (by decide) (slot m).over (by decide)
    exact read front rfl (rfl : ")".toList = [')']) (by decide) line.parameters
  | delegate hds hd =>
    obtain ⟨typeName, m, _, ok⟩ := parts.delegate_origin hds hd
    have line := SlotDelegate.isLine_ofSlot names own (slot m) ok
    have front : IsOver spellingMarks ("public delegate " ++ _ ++ " " ++ _ ++ _ ++ "Trampoline(") :=
      isOver_append.2 ⟨isOver_headline (by decide) line.result.over (by decide)
        (isWord_of_isIdentifier own.name).over line.slot.over, by decide⟩
    rw [typeName]
    exact read front rfl (rfl : ");".toList = [')', ';']) (by decide) line.parameters
  | handler hd hh =>
    obtain ⟨m, _, ok⟩ := parts.handler_origin hd hh
    have object : IsOneLine "" := by decide
    have line := SlotHandler.isLine_ofSlot object names own (slot m) ok
    have front : IsOver spellingMarks ("static " ++ _ ++ " Trampoline" ++ _ ++ "(") :=
      isOver_headline (by decide) line.result.over (by decide) line.slot.over (by decide)
    exact read front rfl (rfl : ")".toList = [')']) (by decide) line.parameters

/-! ### Where names repeat -/

theorem not_clash_member (apart : ∀ m ∈ t.methods, ¬ Clash m.isStatic m.parameters) (m : Member) :
    ¬ Clash (t.signature m).isStatic (t.signature m).parameters :=
  ApiType.forall_parameters (P := fun isStatic ps => ¬ Clash isStatic ps) not_clash_nil
    not_clash_value apart m

section Repetitions

variable (distinct : ∀ m ∈ t.methods, (m.parameters.map Parameter.name).Nodup)
include distinct

theorem distinct_parameters (m : Member) :
    ((t.signature m).parameters.map Parameter.name).Nodup :=
  ApiType.forall_parameters (P := fun _ ps => (ps.map Parameter.name).Nodup)
    (fun _ => List.nodup_nil) (fun _ _ => List.nodup_singleton _) distinct m

theorem nodup_parameterNames (apart : ∀ m ∈ t.methods, ¬ Clash m.isStatic m.parameters)
    (kind : ExportKind) : (t.parameterNames kind).Nodup := by
  cases kind with
  | member m => exact (nodup_flatNames_iff (distinct_parameters distinct m)).2 (not_clash_member apart m)
  | arrayAccess i step =>
    change (receiverNames (t.property i).isStatic ++ step.parameterNames).Nodup
    cases (t.property i).isStatic <;> cases step <;> decide
  | create => exact List.nodup_nil
  | destroy => exact List.nodup_singleton _
  | setEventCallback => exact List.nodup_singleton _
  | setTrampolineLocator => exact List.nodup_singleton _
  | setManagedHandle => exact (by decide : ["obj", "handle"].Nodup)

/-- No name repeats in any signature exactly when no parameter of a method is called like the instance
or like the count of an array. -/
theorem Parts.nodup_iff (parts : a.Parts s t slots exports) :
    (∀ line ds, a.Signs line ds → (ds.map Declared.name).Nodup) ↔
      ∀ m ∈ t.methods, ¬ Clash m.isStatic m.parameters := by
  constructor
  · intro nodup m hm
    obtain ⟨i, bound, rfl⟩ := List.getElem_of_mem hm
    have method : t.method i = t.methods[i] := ApiType.method_eq (List.getElem?_eq_getElem bound)
    have mem : .member (.method i) ∈ s.exportKinds t :=
      Schema.mem_exportKinds_member.2 ⟨ApiType.mem_members_method.2 bound, rfl⟩
    obtain ⟨f, hf, ok⟩ := Shim.exists_function parts.exports_ok parts.shim_ok mem
    have names := nodup _ _ (.function hf)
    rw [Shim.names_functionOf ok] at names
    rw [← method]
    exact (nodup_flatNames_iff (distinct_parameters distinct (.method i))).1 names
  · intro apart line ds h
    rcases parts.names_of_signs h with ⟨kind, _, eq⟩ | ⟨m, _, eq⟩
    · rw [eq]
      exact nodup_parameterNames distinct apart kind
    · rw [eq]
      exact nodup_names_of_not_clash (distinct_parameters distinct m) (not_clash_member apart m)

end Repetitions

end ClassArtifacts

namespace Plan

variable {c : Config} {files : List PlannedFile}

/-- When the parameters of each method have different names, the names in a signature differ exactly
where no method of the class has a parameter called like the instance it is called on or like the count
of an array.  The signatures are lines of the generated files, from which the names can be read. -/
theorem parameters_differ_iff (plan : build c s = .ok files) (ht : t ∈ s.classes)
    (distinct : ∀ m ∈ t.methods, (m.parameters.map Parameter.name).Nodup) :
    ∃ a, ClassArtifacts.build s t = .ok a ∧
      (c.generated c.apiDir (t.name ++ ".Api.h") a.shim.code ∈ files ∧
        c.generated c.apiDir (t.name ++ ".inc") a.fragment.code ∈ files ∧
        c.generated c.managed.dir (t.name ++ ".cs") (a.wrapper.code c) ∈ files) ∧
      (∀ line ds, a.Signs line ds → line ∈ a.shim.code.texts ∨ line ∈ a.fragment.code.texts ∨
        line ∈ (a.wrapper.code c).texts) ∧
      (s.HasIdentifiers → ∀ line ds, a.Signs line ds →
        Text.parameterNames line.toList = ds.map fun d => d.name.toList) ∧
      ((∀ line ds, a.Signs line ds → (ds.map Declared.name).Nodup) ↔
        ∀ m ∈ t.methods, ¬ Clash m.isStatic m.parameters) := by
  obtain ⟨a, ok, files_of⟩ := class_of_build plan ht
  obtain ⟨slots, exports, parts⟩ := ClassArtifacts.parts_of_build ok
  rw [parts.files_eq c] at files_of
  exact ⟨a, ok, ⟨files_of _ (by simp), files_of _ (by simp), files_of _ (by simp)⟩,
    fun line ds h => h.shown c,
    fun names line ds h => parts.read_of_signs names (Schema.mem_classes.1 ht).1 h,
    parts.nodup_iff distinct⟩

/-- A server and its base, with arrays among the parameters. -/
theorem parameters_differ_drawing :
    ∃ files figure canvas, build {} Schema.drawing = .ok files ∧
      ApiType.figure ∈ Schema.drawing.classes ∧ ApiType.canvas ∈ Schema.drawing.classes ∧
      (∀ m ∈ ApiType.figure.methods, (m.parameters.map Parameter.name).Nodup) ∧
      (∀ m ∈ ApiType.canvas.methods, (m.parameters.map Parameter.name).Nodup) ∧
      ClassArtifacts.build Schema.drawing .figure = .ok figure ∧
      ClassArtifacts.build Schema.drawing .canvas = .ok canvas ∧
      (∀ line ds, figure.Signs line ds → (ds.map Declared.name).Nodup) ∧
      ∀ line ds, canvas.Signs line ds → (ds.map Declared.name).Nodup := by
  have figureNames : ∀ m ∈ ApiType.figure.methods, (m.parameters.map Parameter.name).Nodup := by decide
  have canvasNames : ∀ m ∈ ApiType.canvas.methods, (m.parameters.map Parameter.name).Nodup := by decide
  obtain ⟨files, plan⟩ := build_drawing {}
  obtain ⟨figure, hfigure, _, _, _, figureApart⟩ :=
    parameters_differ_iff plan ApiType.figure_mem figureNames
  obtain ⟨canvas, hcanvas, _, _, _, canvasApart⟩ :=
    parameters_differ_iff plan ApiType.canvas_mem canvasNames
  refine ⟨files, figure, canvas, plan, ApiType.figure_mem, ApiType.canvas_mem, figureNames,
    canvasNames, hfigure, hcanvas, figureApart.2 ?_, canvasApart.2 ?_⟩
  · unfold Clash
    decide
  · unfold Clash
    decide

end Plan

def ApiType.ledger : ApiType where
  name := "Ledger"
  methods := [
    { name := "Book", parameters := [⟨"obj", .primitive .int⟩] },
    { name := "Total", isStatic := true,
      parameters := [⟨"items", .array (.primitive .int)⟩, ⟨"itemsCount", .primitive .int⟩] }]

def Schema.accounts : Schema := ⟨[.ledger]⟩

/-- Two parameters of a function have the same name, though those of each method differ. -/
theorem Plan.parameters_differ_unless :
    Schema.accounts.validate = .ok () ∧ ApiType.ledger ∈ Schema.accounts.classes ∧
      (∀ m ∈ ApiType.ledger.methods, (m.parameters.map Parameter.name).Nodup) ∧
      (∀ m ∈ ApiType.ledger.methods, ∀ p ∈ m.parameters, isIdentifier p.name.toList = true) ∧
      (∃ files, build {} Schema.accounts = .ok files) ∧
      ∃ a, ClassArtifacts.build Schema.accounts .ledger = .ok a ∧
        (∃ ds, a.Signs "NATIVE_API void NATIVE_API_CALL Ledger_Book(Ledger* obj, int obj)" ds ∧
          ds.map Declared.name = ["obj", "obj"]) ∧
        ∃ ds, a.Signs
            "NATIVE_API void NATIVE_API_CALL Ledger_Total(const int* items, int itemsCount, int itemsCount)"
            ds ∧
          ds.map Declared.name = ["items", "itemsCount", "itemsCount"] := by
  obtain ⟨a, ok⟩ : ∃ a, ClassArtifacts.build Schema.accounts .ledger = .ok a := ⟨_, rfl⟩
  obtain ⟨book, hbook, bookLine, bookNames⟩ : ∃ f ∈ a.shim.functions,
      f.signatureLine = "NATIVE_API void NATIVE_API_CALL Ledger_Book(Ledger* obj, int obj)" ∧
        f.parameters.map Declared.name = ["obj", "obj"] := by
    cases ok
    exact ⟨_, List.mem_of_getElem? (i := 2) rfl, rfl, rfl⟩
  obtain ⟨total, htotal, totalLine, totalNames⟩ : ∃ f ∈ a.shim.functions, f.signatureLine =
      "NATIVE_API void NATIVE_API_CALL Ledger_Total(const int* items, int itemsCount, int itemsCount)" ∧
        f.parameters.map Declared.name = ["items", "itemsCount", "itemsCount"] := by
    cases ok
    exact ⟨_, List.mem_of_getElem? (i := 3) rfl, rfl, rfl⟩
  exact ⟨rfl, by decide, by decide, by decide, ⟨_, rfl⟩, a, ok,
    ⟨_, bookLine ▸ .function hbook, bookNames⟩, _, totalLine ▸ .function htotal, totalNames⟩

end InteropGen
