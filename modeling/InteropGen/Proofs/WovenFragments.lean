import InteropGen.Proofs.Planning
import InteropGen.Proofs.WovenShims

set_option autoImplicit false

/-!
# Fragments and scaffolds are woven

The fragment of a class is composed of the declared names and fixed text.  So are the scaffolds
around it, but for the lines that include other files.
-/

namespace InteropGen

-- The fixed texts are checked character by character, and some are long.
set_option maxRecDepth 1024

open Text

variable {N M : String → Prop} {s : Schema} {t : ApiType}

structure NativeMember.IsComposed (N : String → Prop) (n : NativeMember) : Prop where
  name : Composed N n.name
  result : Composed N n.result.literal
  parameters : ∀ d ∈ n.parameters, Composed N d.text ∧ Composed N d.name

variable {slots : Option SlotTable} {n : NativeMember}

theorem NativeMember.isComposed_ofClass (names : s.Named N) (own : t.Named N)
    {members : List NativeMember} (h : ofClass s t = .ok members) :
    ∀ n ∈ members, n.IsComposed N := by
  intro n hn
  obtain ⟨m, hm, ok⟩ := exists_left_of_forall₂ ((ofMembers_stepwise s t).forall₂ h) hn
  obtain ⟨result, hresult, ok⟩ := bind_eq_ok.1 ok
  obtain ⟨parameters, hparameters, ok⟩ := bind_eq_ok.1 ok
  cases ok
  exact ⟨own.composed_signature hm, names.composed_resolve hresult,
    names.composed_declareAll (own.composed_parameters hm) hparameters⟩

theorem NativeMember.IsComposed.join (h : n.IsComposed N) :
    Composed N (Declared.join n.parameters) := composed_join fun d hd => (h.parameters d hd).1

theorem NativeMember.IsComposed.declaration (h : n.IsComposed N) :
    Composed N n.declaration := by
  rw [NativeMember.declaration]
  split
  · exact ((((Begun.start _).name h.result _).name h.name _).name h.join _).closed (by decide)
  · exact ((((Begun.start _).name h.result _).name h.name _).name h.join _).closed (by decide)

structure SlotWrapper.IsComposed (N : String → Prop) (w : SlotWrapper) : Prop where
  slot : Composed N w.slot
  result : Composed N w.result.literal
  parameters : ∀ d ∈ w.parameters, Composed N d.text ∧ Composed N d.name

theorem SlotWrapper.isComposed_ofSlot (names : s.Named N) (own : t.Named N) {table : SlotTable}
    (derived : SlotTable.derive t = .ok table) {slot : Slot} (hslot : slot ∈ table.slots)
    {w : SlotWrapper} (h : ofSlot s t slot = .ok w) : w.IsComposed N := by
  have hm := (SlotTable.of_derive derived).1 slot hslot
  obtain ⟨result, hresult, h⟩ := bind_eq_ok.1 h
  obtain ⟨parameters, hparameters, h⟩ := bind_eq_ok.1 h
  cases h
  have self : ∀ d ∈ selfOf (t.signature slot.member).isStatic,
      Composed N d.text ∧ Composed N d.name := by
    have name : Composed N "obj" := .fixed _ (by decide)
    cases (t.signature slot.member).isStatic with
    | true => exact fun d hd => absurd hd List.not_mem_nil
    | false =>
      exact List.forall_mem_singleton.2
        ⟨composed_declared (.fixed ['v', 'o', 'i', 'd', '*'] (by decide)) name, name⟩
  refine ⟨?_, names.composed_resolve hresult, List.forall_mem_append.2
    ⟨self, names.composed_declareAll (own.composed_parameters hm) hparameters⟩⟩
  change Composed N slot.name
  rw [SlotTable.named_of_derive derived slot hslot]
  exact own.composed_signature hm

theorem SlotWrapper.IsComposed.isWoven {w : SlotWrapper} (h : w.IsComposed N) :
    w.code.IsWoven N M := by
  have join := composed_join fun d hd => (h.parameters d hd).1
  have arguments : Composed N (", ".intercalate (w.parameters.map Declared.name)) := by
    refine .intercalate fun text ht => ?_
    obtain ⟨d, hd, rfl⟩ := List.mem_map.1 ht
    exact (h.parameters d hd).2
  have typedef : Composed N w.typedefLine :=
    ((((Begun.start _).name h.result _).name h.slot _).name join _).closed (by decide)
  have signature : Composed N w.signatureLine :=
    ((((Begun.start _).name h.result _).name h.slot _).name join _).closed (by decide)
  have call : Composed N w.call :=
    ((((Begun.start _).name h.slot _).name h.slot _).name arguments _).closed (by decide)
  have statement : Composed N w.statement := by
    rw [SlotWrapper.statement]
    split
    · exact call.suffixed [';'] (by decide)
    · exact ((Begun.start _).name call _).closed (by decide)
  exact .append (.append (.append .blank (.line typedef)) .blank) (.block signature (.line statement))

theorem NativeTrampolines.isWoven {n : NativeTrampolines} (type : Composed N n.typeName)
    (composed : ∀ w ∈ n.wrappers, w.IsComposed N) : n.code.IsWoven N M := by
  have setter : setter.IsWoven N M := .block (.fixed _ (by decide)) <|
    .cons (.fixed _ (by decide)) <| .cons (.fixed _ (by decide)) .nil
  have locator : locator.IsWoven N M := .block (.fixed _ (by decide)) <|
    .cons (.fixed _ (by decide)) <| .cons (.fixed _ (by decide)) .nil
  have notSet : Composed N ("throw TrampolineLocatorNotSetException(\"" ++ n.typeName ++ "\");") :=
    ((Begun.start _).name type _).closed (by decide)
  have unknown : Composed N ("throw UnknownTrampolineException(\"" ++ n.typeName ++
      "\", static_cast<int>(trampoline));") :=
    ((Begun.start _).name type _).closed (by decide)
  have locate : n.locate.IsWoven N M :=
    .block (.fixed _ (by decide)) (.append (.append (.append (.append
      (.cons (.fixed _ (by decide)) (.cons (.fixed _ (by decide)) .nil))
      (.nest (.line notSet))) (.cons (.fixed _ (by decide)) (.cons (.fixed _ (by decide)) .nil)))
      (.nest (.line unknown))) (.fixed _ (by decide)))
  have entries : ∀ name ∈ n.enumerators, Composed N name := by
    intro name hname
    obtain ⟨w, hw, rfl⟩ := List.mem_map.1 hname
    exact (composed w hw).slot
  have enumeration : Code.IsWoven N M (Code.blockEnding "enum class Trampoline" ";"
      (Code.lines (n.enumerators.map (· ++ ",")))) :=
    .blockEnding (.fixed _ (by decide)) (Code.IsWoven.entries entries)
  have body : n.body.IsWoven N M :=
    .append (.append (.append (.append (.append (.append (.append (.append (.append (.append
      enumeration .blank) (.fixed _ (by decide))) .blank) setter)
      (.flatMap fun w hw => (composed w hw).isWoven)) .blank) (.fixed _ (by decide))) locator) .blank)
      locate
  exact .append (.fixed _ (by decide)) (.nest (.blockEnding (.fixed _ (by decide)) body))

structure NativeEvents.IsComposed (N : String → Prop) (e : NativeEvents) : Prop where
  type : Composed N e.typeName
  names : ∀ name ∈ e.names, Composed N name
  base : ∀ b ∈ e.hiddenBase, Composed N b

theorem NativeEvents.isComposed_ofClass (names : s.Named N) (ht : t ∈ s.types) :
    (ofClass s t).IsComposed N := by
  refine ⟨.name (names t ht).name, fun name hname => ?_, fun b hb => ?_⟩
  · obtain ⟨event, hevent, rfl⟩ := List.mem_map.1 hname
    exact .name ((names t ht).events event hevent)
  · obtain ⟨base, hbase, rfl⟩ := Option.map_eq_some_iff.1 hb
    exact .name (names base (Schema.baseOf_mem (Option.filter_eq_some_iff.1 hbase).1)).name

theorem NativeEvents.IsComposed.isWoven {e : NativeEvents} (h : e.IsComposed N) :
    e.code.IsWoven N M := by
  have callback : Composed N e.callbackType := h.type.suffixed _ (by decide)
  have typedef : Composed N e.typedefLine :=
    ((((Begun.start _).name callback _).name h.type _).name h.type _).closed (by decide)
  have setterLine : Composed N ("static void SetEventCallback(" ++ e.callbackType ++ " value)") :=
    ((Begun.start _).name callback _).closed (by decide)
  have raiseLine : Composed N
      ("void* RaiseEvent(" ++ e.typeName ++ "Event event, void* parameter = nullptr)") :=
    ((Begun.start _).name h.type _).closed (by decide)
  have storageLine : Composed N ("static " ++ e.callbackType ++ "& EventCallback()") :=
    ((Begun.start _).name callback _).closed (by decide)
  have headline : Composed N ("enum class " ++ e.typeName ++ "Event") :=
    ((Begun.start _).name h.type _).closed (by decide)
  have callbackLine : Composed N (e.callbackType ++ " callback = EventCallback();") :=
    callback.suffixed _ (by decide)
  have raise : e.raise.IsWoven N M :=
    .block raiseLine (.append (.append (.cons callbackLine (.cons (.fixed _ (by decide)) .nil))
      (.nest (.fixed _ (by decide)))) (.fixed _ (by decide)))
  have stored : Composed N ("static " ++ e.callbackType ++ " callback = nullptr;") :=
    ((Begun.start _).name callback _).closed (by decide)
  have storage : e.storage.IsWoven N M :=
    .block storageLine (.cons stored (.cons (.fixed _ (by decide)) .nil))
  have revealed : e.revealed.IsWoven N M := by
    rw [NativeEvents.revealed]
    split
    · exact .nil
    · rename_i base isBase
      exact .append (.line (((Begun.start _).name (h.base base isBase) _).closed (by decide))) .blank
  exact .append (.append (.append (.append (.append (.append (.append (.fixed _ (by decide))
    (.nest (.append (.append (.append (.append
      (.blockEnding headline (Code.IsWoven.entries h.names)) .blank) (.line typedef)) .blank)
      (.block setterLine (.fixed _ (by decide)))))) .blank) (.fixed _ (by decide)))
    (.nest (.append revealed raise))) .blank) (.fixed _ (by decide))) (.nest storage)

namespace Fragment

theorem woven_lifecycle (type : Composed N t.name) (selects : Visibility → Bool) :
    Code.IsWoven N M (lifecycle t selects) :=
  .append (.given _ (.line (type.suffixed _ (by decide))))
    (.given _ (.line (((Begun.start _).name type _).closed (by decide))))

theorem woven_handlePart : Code.IsWoven N M handlePart := by
  exact .append (.append (.append (.append (.fixed _ (by decide))
    (.nest (.append (.block (.fixed _ (by decide)) (.fixed _ (by decide)))
      (.block (.fixed _ (by decide)) (.fixed _ (by decide)))))) .blank) (.fixed _ (by decide)))
    (.nest (.fixed _ (by decide)))

theorem isWoven_of_parts (names : s.Named N) (ht : t ∈ s.types) (slots_ok : t.slotTable = .ok slots)
    {f : Fragment} (parts : f.Parts s t slots) : f.code.IsWoven N M := by
  have own := names t ht
  have type := Composed.name own.name
  have members := NativeMember.isComposed_ofClass names own parts.members_ok
  have declarations : ∀ x ∈ f.members.map NativeMember.declaration, Composed N x := by
    intro x hx
    obtain ⟨n, hn, rfl⟩ := List.mem_map.1 hx
    exact (members n hn).declaration
  have publicPart : f.publicPart.IsWoven N M := by
    rw [publicPart, parts.type_eq]
    exact .append (.line (.fixed _ (by decide)))
      (.nest (.append (woven_lifecycle type _) (.apart (.lines declarations))))
  have events : Code.IsWoven N M ((f.events.map fun e => Code.blank ++ e.code).getD []) := by
    refine .getD fun code hcode => ?_
    obtain ⟨e, he, rfl⟩ := Option.map_eq_some_iff.1 hcode
    rw [parts.events_eq] at he
    split at he
    · cases he
      exact .append .blank (NativeEvents.isComposed_ofClass names ht).isWoven
    · cases he
  have trampolines :
      Code.IsWoven N M ((f.trampolines.map fun n => Code.blank ++ n.code).getD []) := by
    refine .getD fun code hcode => ?_
    obtain ⟨n, hn, rfl⟩ := Option.map_eq_some_iff.1 hcode
    refine .append .blank ?_
    rcases mapM_eq_ok.1 parts.trampolines_ok with ⟨_, none⟩ | ⟨table, n', rfl, some, ok⟩
    · rw [none] at hn
      cases hn
    · rw [some] at hn
      cases hn
      rcases ApiType.slotTable_eq_ok.1 slots_ok with ⟨_, none⟩ | ⟨_, _, eq, derived⟩
      · cases none
      · cases eq
        obtain ⟨wrappers, hwrappers, rfl⟩ := map_eq_ok.1 ok
        refine NativeTrampolines.isWoven type fun w hw => ?_
        obtain ⟨slot, hslot, step⟩ :=
          exists_left_of_forall₂ ((SlotWrapper.ofSlots_stepwise s t).forall₂ hwrappers) hw
        exact SlotWrapper.isComposed_ofSlot names own derived hslot step
  have hidden : Code.IsWoven N M (privatePart f.type) := by
    rw [parts.type_eq]
    exact .append (.line (.fixed _ (by decide))) (.nest (woven_lifecycle type _))
  exact .append (.append (.append (.append publicPart events) trampolines)
    (.given _ (.append .blank woven_handlePart))) (.given _ (.append .blank hidden))

end Fragment

section Scaffolds

structure Definition.IsComposed (N : String → Prop) (d : Definition) : Prop where
  declared : d.declared.IsComposed N
  forward : ∀ slot ∈ d.forward, Composed N slot

variable {d : Definition}

theorem Definition.isComposed_definitions (names : s.Named N) (own : t.Named N)
    {definitions : List Definition} (h : Scaffold.definitions s t = .ok definitions) :
    ∀ d ∈ definitions, d.IsComposed N := by
  obtain ⟨table, htable, h⟩ := bind_eq_ok.1 h
  obtain ⟨members, hmembers, h⟩ := bind_eq_ok.1 h
  cases h
  intro d hd
  obtain ⟨n, hn, rfl⟩ := List.mem_map.1 hd
  refine ⟨NativeMember.isComposed_ofClass names own hmembers n hn, fun slot hslot => ?_⟩
  obtain ⟨entry, hentry, rfl⟩ := Option.map_eq_some_iff.1 hslot
  obtain ⟨table, rfl, found⟩ := Option.bind_eq_some_iff.1 hentry
  rcases ApiType.slotTable_eq_ok.1 htable with ⟨_, none⟩ | ⟨_, _, eq, derived⟩
  · cases none
  · cases eq
    have mem := List.mem_of_find?_eq_some found
    rw [SlotTable.named_of_derive derived entry mem]
    exact own.composed_signature ((SlotTable.of_derive derived).1 entry mem)

theorem Definition.IsComposed.isWoven (type : Composed N t.name) (h : d.IsComposed N) :
    Code.IsWoven N M (d.code t.name) := by
  have headline : Composed N (headline t.name d.declared) :=
    (((((Begun.first h.declared.result _).name type _).name h.declared.name _).name
      h.declared.join _)).closed (by decide)
  have arguments :
      Composed N (", ".intercalate ("GetManagedHandle()" :: d.declared.parameters.map Declared.name)) := by
    refine .intercalate (List.forall_mem_cons.2 ⟨.fixed _ (by decide), fun text ht => ?_⟩)
    obtain ⟨p, hp, rfl⟩ := List.mem_map.1 ht
    exact (h.declared.parameters p hp).2
  refine .append .blank (.block headline ?_)
  rw [Definition.body]
  split
  · rename_i slot isSlot
    have call : Composed N (forwardCall slot d.declared) :=
      ((Begun.first (h.forward slot isSlot) _).name arguments _).closed (by decide)
    refine .line ?_
    split
    · exact call.suffixed [';'] (by decide)
    · exact ((Begun.start _).name call _).closed (by decide)
  · exact .given _ (.line
      ((((Begun.start _).name type _).name h.declared.name _).closed (by decide)))

namespace Scaffold

def headerPaths (s : Schema) (t : ApiType) : List String :=
  "Api/ApiTypes.h" :: ((s.baseOf t).map ApiType.header).toList ++ ["Api/" ++ t.name ++ ".inc"]

theorem isWoven_header (names : s.Named N) (ht : t ∈ s.types) :
    (header s t).IsWoven N (IncludesOf N (headerPaths s t)) := by
  have type := Composed.name (names t ht).name
  have fragment : Composed N ("Api/" ++ t.name ++ ".inc") :=
    ((Begun.start _).name type _).closed (by decide)
  have base : ∀ b ∈ s.baseOf t, Composed N b.name :=
    fun b hb => .name (names b (Schema.baseOf_mem hb)).name
  have baseHeader : ∀ p ∈ ((s.baseOf t).map ApiType.header).toList, Composed N p := by
    intro p hp
    obtain ⟨b, hb, rfl⟩ := Option.map_eq_some_iff.1 (Option.mem_toList.1 hp)
    exact (base b hb).suffixed _ (by decide)
  have classLine : Composed N (classLine t (s.baseOf t)) := by
    cases isBase : s.baseOf t with
    | none => exact ((Begun.start _).last type (by decide))
    | some b => exact (((Begun.start _).name type _).last (base b isBase) (by decide))
  have types : "Api/ApiTypes.h" ∈ headerPaths s t := List.mem_cons_self
  have bases : Code.IsWoven N (IncludesOf N (headerPaths s t))
      (Code.lines (((s.baseOf t).map ApiType.header).toList.map Code.includeLine)) :=
    woven_includes _ baseHeader fun p hp => List.mem_append_left _ (List.mem_cons_of_mem _ hp)
  have body : Code.IsWoven N (IncludesOf N (headerPaths s t))
      (Code.line (Code.includeLine ("Api/" ++ t.name ++ ".inc"))) :=
    woven_include fragment (List.mem_append_right _ List.mem_cons_self)
  have whole : header s t =
      Code.lines ["#pragma once", ""] ++ Code.line (Code.includeLine "Api/ApiTypes.h") ++
        Code.lines (((s.baseOf t).map ApiType.header).toList.map Code.includeLine) ++
        (Code.lines ["", Scaffold.classLine t (s.baseOf t)] ++ (Code.line "\x7b" ++
          Code.line (Code.includeLine ("Api/" ++ t.name ++ ".inc")) ++ Code.line "\x7d;")) := by
    rw [header]
    cases s.baseOf t <;> rfl
  rw [whole]
  exact .append (.append (.append (.cons (.fixed _ (by decide)) (.cons (.fixed _ (by decide)) .nil))
    (woven_include (.fixed _ (by decide)) types)) bases)
    (.append (.cons (.fixed _ (by decide)) (.cons classLine .nil))
      (.enclosed (.start ['\x7b']) body (by decide)))

theorem isWoven_source (names : s.Named N) (ht : t ∈ s.types) {definitions : List Definition}
    (h : Scaffold.definitions s t = .ok definitions) :
    (sourceCode t definitions).IsWoven N (IncludesOf N [t.header]) := by
  have own := names t ht
  have type := Composed.name own.name
  have own_header : Code.IsWoven N (IncludesOf N [t.header]) (Code.line (Code.includeLine t.header)) :=
    woven_include (composed_header own.name) List.mem_cons_self
  have library : Code.IsWoven N (IncludesOf N [t.header]) (Code.line "#include <stdexcept>") :=
    woven_platformIncludes ["#include <stdexcept>"]
      (List.cons_subset.2 ⟨by decide, List.nil_subset _⟩) fun _ mem => .inr mem
  have constructor : Composed N (t.name ++ "::" ++ t.name ++ "()") :=
    ((Begun.first type _).name type _).closed (by decide)
  have destructor : Composed N (t.name ++ "::~" ++ t.name ++ "()") :=
    ((Begun.first type _).name type _).closed (by decide)
  exact .append (.append (.append (.append
    (.append (.append (.append own_header .blank) library) .blank)
    (.block constructor .nil)) .blank) (.block destructor .nil))
    (.flatMap fun d hd => (Definition.isComposed_definitions names own h d hd).isWoven type)

end Scaffold

end Scaffolds

end InteropGen
