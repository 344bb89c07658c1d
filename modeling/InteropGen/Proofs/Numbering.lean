import InteropGen.Proofs.FragmentEnums
import InteropGen.Proofs.TextParity
import InteropGen.Proofs.WrapperEnums

set_option autoImplicit false

/-!
# Numbers on both sides of the boundary

Slots and events cross the boundary as numbers.  Both files of a class enumerate them, and the
wrapper takes them apart again, in one order.
-/

namespace InteropGen

open Text

variable {c : Config} {s : Schema} {t : ApiType} {slots : Option SlotTable} {exports : ExportTable}
  {dir : Path} {name : String}

theorem Imports.fields_ofClass {imports : Imports} (h : ofClass s t exports slots = .ok imports) :
    imports.typeName = t.name ∧ imports.events = t.events.map Event.name ∧
      slots.mapM (SlotDelegates.ofTable s t) = .ok imports.delegates := by
  obtain ⟨delegates, hdelegates, h⟩ := bind_eq_ok.1 h
  obtain ⟨declared, _, h⟩ := bind_eq_ok.1 h
  cases h
  exact ⟨rfl, rfl, hdelegates⟩

namespace Wrapper

variable {w : Wrapper} (names : s.HasIdentifiers) (ht : t ∈ s.types)
  (slots_ok : t.slotTable = .ok slots) (parts : w.Parts s t exports slots)

include parts in
theorem exists_events (has : t.hasEvents = true) :
    ∃ e, e.type = t ∧ e.names = t.events.map Event.name ∧ w.events = some e := by
  have ok := parts.events_ok
  rw [WrappedEvents.ofClass?, if_pos has] at ok
  obtain ⟨e, he, eq⟩ := map_eq_ok.1 ok
  obtain ⟨events, hevents, rfl⟩ := map_eq_ok.1 he
  refine ⟨_, rfl, ?_, eq.symm⟩
  exact (forall₂_map_eq ((WrappedEvent.ofEvents_stepwise s).forall₂ hevents)
    fun event e h => (WrappedEvent.name_ofEvent h).symm).symm

include names ht parts in
theorem infix_onEvent {e : WrappedEvents} (he : w.events = some e) :
    e.dispatch.texts.map String.toList <:+:
      trimmedLines (c.generated dir name (w.code c)).content := by
  have part : ∀ object, e.dispatch.texts <:+: (e.code object).texts := by
    intro object
    rw [WrappedEvents.code, Code.texts_append, Code.texts_append, Code.texts_append]
    exact (List.suffix_append _ _).isInfix.trans
      ((List.prefix_append _ _).trans (List.prefix_append _ _)).isInfix
  dsimp only [Config.generated]
  refine Config.infix_trimmedLines ((part _).trans (infix_events c he)) fun x hx => ?_
  have sifts := sifts_events (c := {}) parts (by decide) names (names t ht)
  rw [he] at sifts
  rcases sifts.cases_of_mem ((part _).subset hx) with quiet | label
  · exact ⟨quiet.oneLine, quiet.trimLeft⟩
  · have kept := kept_labels names ht parts x label
    exact ⟨kept.oneLine, kept.unindented⟩

include names ht slots_ok parts in
theorem infix_pin {d : Dispatch} (hd : w.dispatch = some d) :
    d.pin.texts.map String.toList <:+:
      trimmedLines (c.generated dir name (w.code c)).content := by
  have part : ∀ object, d.pin.texts <:+: (d.code object).texts := by
    intro object
    rw [Dispatch.code, Code.texts_append, Code.texts_append]
    exact (List.suffix_append _ _).isInfix.trans (List.prefix_append _ _).isInfix
  dsimp only [Config.generated]
  refine Config.infix_trimmedLines ((part _).trans (infix_dispatch c hd)) fun x hx => ?_
  have sifts := sifts_dispatch (c := {}) slots_ok parts (by decide) names (names t ht)
  rw [hd, Option.map_some, Option.getD_some, Code.texts_append] at sifts
  rcases sifts.cases_of_mem (List.mem_append_right _ ((part _).subset hx)) with quiet | arm
  · exact ⟨quiet.oneLine, quiet.trimLeft⟩
  · have kept := kept_arms names ht slots_ok parts x arm
    exact ⟨kept.oneLine, kept.unindented⟩

end Wrapper

namespace ClassArtifacts.Parts

variable {a : ClassArtifacts} (parts : a.Parts s t slots exports) (names : s.HasIdentifiers)
  (ht : t ∈ s.types)
include parts names ht

theorem imports_readable : a.wrapper.imports.IsReadable :=
  Imports.isReadable_ofClass names (names t ht) parts.exports_ok parts.slots_ok
    (Wrapper.parts_of_ofClass parts.wrapper_ok).imports_ok

theorem fragment_readable : a.fragment.IsReadable :=
  Fragment.isReadable_of_parts names ht parts.slots_ok (Fragment.parts_of_ofClass parts.fragment_ok)

theorem native_slots {table : SlotTable} (eq : slots = some table) :
    enumMembers? NativeTrampolines.headline (c.generated dir name a.fragment.code).content =
      some table.names := by
  dsimp only [Config.generated]
  have readable := parts.fragment_readable names ht
  rcases mapM_eq_ok.1 (Fragment.parts_of_ofClass parts.fragment_ok).trampolines_ok with
    ⟨none, _⟩ | ⟨table', n, found, hn, ok⟩
  · rw [eq] at none
    cases none
  · rw [eq] at found
    cases found
    rw [Fragment.enumMembers?_slots readable hn, (NativeTrampolines.enumerators_ofTable ok).2]

theorem managed_slots {table : SlotTable} (eq : slots = some table) :
    enumMembers? ("public enum " ++ t.name ++ "Trampoline")
      (c.generated dir name (a.wrapper.code c)).content = some table.names := by
  dsimp only [Config.generated]
  have readable := parts.imports_readable names ht
  obtain ⟨_, _, delegates⟩ :=
    Imports.fields_ofClass (Wrapper.parts_of_ofClass parts.wrapper_ok).imports_ok
  rcases mapM_eq_ok.1 delegates with ⟨none, _⟩ | ⟨table', d, found, hd, ok⟩
  · rw [eq] at none
    cases none
  · rw [eq] at found
    cases found
    obtain ⟨type, enumerators⟩ := SlotDelegates.enumerators_ofTable ok
    rw [← type, ← enumerators]
    exact Wrapper.enumMembers?_slots readable hd

theorem native_events (has : t.hasEvents = true) :
    enumMembers? ("enum class " ++ t.name ++ "Event")
      (c.generated dir name a.fragment.code).content = some (t.events.map Event.name) := by
  dsimp only [Config.generated]
  have events : a.fragment.events = some (NativeEvents.ofClass s t) := by
    rw [(Fragment.parts_of_ofClass parts.fragment_ok).events_eq, if_pos has]
  have headline : "enum class " ++ t.name ++ "Event" = (NativeEvents.ofClass s t).headline := rfl
  rw [headline, Fragment.enumMembers?_events (parts.fragment_readable names ht) events]
  rfl

theorem managed_events (has : t.hasEvents = true) :
    enumMembers? ("public enum " ++ t.name ++ "Event")
      (c.generated dir name (a.wrapper.code c)).content = some (t.events.map Event.name) := by
  dsimp only [Config.generated]
  obtain ⟨type, events, _⟩ :=
    Imports.fields_ofClass (Wrapper.parts_of_ofClass parts.wrapper_ok).imports_ok
  have some : a.wrapper.imports.events ≠ [] := by
    rw [events]
    intro none
    rw [ApiType.hasEvents, List.map_eq_nil_iff.1 none] at has
    cases has
  rw [← type, ← events]
  exact Wrapper.enumMembers?_events (parts.imports_readable names ht) some

end ClassArtifacts.Parts

/-- The slots of a managed server and the events of a class are enumerated alike in its two files,
in the order of the slot table and of the declarations, so both sides number them alike.  The
switches of the wrapper have an arm for each slot and a label for each event, in the same order.
Whatever the config, those switches stand in the file; and with configured names that pass
validation there are no other arms and labels in it. -/
theorem Plan.enumerations_agree (names : s.HasIdentifiers) (ht : t ∈ s.classes) :
    (∀ typeName artifact expected emitted,
      Plan.build c s ≠ .error (.slotMismatch typeName artifact expected emitted)) ∧
    ∀ files, Plan.build c s = .ok files → ∃ inc ∈ files, ∃ cs ∈ files,
      inc.path = c.apiDir.child (t.name ++ ".inc") ∧ cs.path = c.managed.dir.child (t.name ++ ".cs") ∧
      (t.managedServer = true → ∃ table, SlotTable.derive t = .ok table ∧
        enumMembers? "enum class Trampoline" inc.content = some table.names ∧
        enumMembers? ("public enum " ++ t.name ++ "Trampoline") cs.content = some table.names ∧
        (∃ d : Dispatch, d.typeName = t.name ∧ d.arms = table.names ∧
          d.pin.texts.map String.toList <:+: trimmedLines cs.content) ∧
        (c.validate = .ok () → slotArms t.name cs.content = table.names)) ∧
      (t.hasEvents = true →
        enumMembers? ("enum class " ++ t.name ++ "Event") inc.content =
          some (t.events.map Event.name) ∧
        enumMembers? ("public enum " ++ t.name ++ "Event") cs.content =
          some (t.events.map Event.name) ∧
        (∃ e : WrappedEvents, e.type = t ∧ e.names = t.events.map Event.name ∧
          e.dispatch.texts.map String.toList <:+: trimmedLines cs.content) ∧
        (c.validate = .ok () → eventLabels t.name cs.content = t.events.map Event.name)) := by
  refine ⟨fun typeName artifact expected emitted failed => ?_, fun files plan => ?_⟩
  · exact Plan.neverMismatched_build c s _ failed trivial
  obtain ⟨a, ok, sub⟩ := Plan.class_of_build plan ht
  obtain ⟨slots, exports, parts⟩ := ClassArtifacts.parts_of_build ok
  have mem := (Schema.mem_classes.1 ht).1
  have wrapper := Wrapper.parts_of_ofClass parts.wrapper_ok
  refine ⟨c.generated c.apiDir (t.name ++ ".inc") a.fragment.code, sub _ ?_,
    c.generated c.managed.dir (t.name ++ ".cs") (a.wrapper.code c), sub _ ?_, rfl, rfl,
    fun server => ?_, fun has => ?_⟩
  · rw [← parts.type_eq]
    simp [ClassArtifacts.files]
  · rw [← parts.type_eq]
    simp [ClassArtifacts.files]
  · rcases ApiType.slotTable_eq_ok.1 parts.slots_ok with ⟨no, _⟩ | ⟨table, _, eq, derived⟩
    · rw [server] at no
      cases no
    · refine ⟨table, derived, parts.native_slots names mem eq, parts.managed_slots names mem eq,
        ?_, fun valid => ?_⟩
      · rcases mapM_eq_ok.1 wrapper.dispatch_ok with ⟨none, _⟩ | ⟨table', d, found, hd, hdispatch⟩
        · rw [eq] at none
          cases none
        · rw [eq] at found
          cases found
          obtain ⟨typeName, arms⟩ := Dispatch.arms_ofTable hdispatch
          exact ⟨d, typeName, arms, Wrapper.infix_pin names mem parts.slots_ok wrapper hd⟩
      · have arms := Wrapper.slotArms_generatedFile (Config.hasLineNames_of_validate valid) names
          mem parts.exports_ok parts.slots_ok wrapper
        rwa [eq] at arms
  · refine ⟨parts.native_events names mem has, parts.managed_events names mem has, ?_,
      fun valid => ?_⟩
    · obtain ⟨e, type, declared, he⟩ := Wrapper.exists_events wrapper has
      exact ⟨e, type, declared, Wrapper.infix_onEvent names mem wrapper he⟩
    · exact Wrapper.eventLabels_generatedFile (Config.hasLineNames_of_validate valid) names mem
        parts.exports_ok parts.slots_ok wrapper

theorem Plan.enumerations_agree_canvas :
    ∃ files, Plan.build {} Schema.drawing = .ok files ∧ ∃ inc ∈ files, ∃ cs ∈ files,
      enumMembers? "enum class Trampoline" inc.content = some ["GetScale", "SetScale", "Paint"] ∧
      slotArms "Canvas" cs.content = ["GetScale", "SetScale", "Paint"] ∧
      enumMembers? "public enum CanvasEvent" cs.content = some ["Resized", "Closing", "Closed"] ∧
      eventLabels "Canvas" cs.content = ["Resized", "Closing", "Closed"] := by
  obtain ⟨files, plan⟩ := Plan.build_drawing {}
  obtain ⟨_, texts⟩ :=
    Plan.enumerations_agree (c := {}) Schema.hasIdentifiers_drawing ApiType.canvas_mem
  obtain ⟨inc, hinc, cs, hcs, _, _, slots, events⟩ := texts files plan
  obtain ⟨table, derived, native, _, _, arms⟩ := slots rfl
  obtain ⟨_, managed, _, labels⟩ := events rfl
  cases derived
  exact ⟨files, plan, inc, hinc, cs, hcs, native, arms rfl, managed, labels rfl⟩

end InteropGen
