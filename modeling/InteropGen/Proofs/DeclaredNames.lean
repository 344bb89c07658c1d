import InteropGen.Proofs.Exports
import InteropGen.Proofs.Slots
import InteropGen.Proofs.SpelledTypes

set_option autoImplicit false

/-!
# Declared names in generated code

Where all declared names are identifiers, so are the names that are made of them, and a declared
parameter is made of identifier characters and of the marks of spellings.
-/

namespace InteropGen

open Text

variable {s : Schema} {t : ApiType}

theorem isWord_append {a b : String} : IsWord (a ++ b) ↔ IsWord a ∧ IsWord b := isOver_append

theorem isWord_ofList {xs : List Char} (h : xs.all isIdentifierPart = true) :
    IsWord (String.ofList xs) := by
  intro c hc
  rw [String.toList_ofList] at hc
  exact .inl (List.all_eq_true.1 h c hc)

theorem getD_of_forall {α : Type} {P : α → Prop} {xs : List α} {d : α} {i : Nat}
    (h : ∀ x ∈ xs, P x) (hd : P d) : P (xs.getD i d) := by
  rw [List.getD_eq_getElem?_getD]
  cases found : xs[i]? with
  | none => exact hd
  | some x => exact h x (List.mem_of_getElem? found)

namespace ApiType.HasIdentifiers

variable (names : t.HasIdentifiers)
include names

theorem isWord_property (i : Nat) : IsWord (t.property i).name :=
  getD_of_forall (fun p hp => isWord_of_isIdentifier (names.properties p hp)) (by decide)

theorem isWord_method (i : Nat) : IsWord (t.method i).name :=
  getD_of_forall (fun m hm => isWord_of_isIdentifier (names.methods m hm)) (by decide)

theorem isWord_parameters (m : Member) : ∀ p ∈ (t.signature m).parameters, IsWord p.name := by
  cases m with
  | getter i => exact fun p hp => absurd hp List.not_mem_nil
  | setter i =>
    intro p hp
    rw [List.mem_singleton.1 hp]
    exact (by decide : IsWord "value")
  | method i =>
    have default : ∀ p ∈ ({ name := "" } : Method).parameters, IsWord p.name :=
      fun p hp => absurd hp List.not_mem_nil
    exact getD_of_forall
      (fun m hm p hp => isWord_of_isIdentifier (names.parameters m hm p hp)) default

theorem isWord_signature (m : Member) : IsWord (t.signature m).name := by
  cases m with
  | getter i => exact isWord_append.2 ⟨by decide, names.isWord_property i⟩
  | setter i => exact isWord_append.2 ⟨by decide, names.isWord_property i⟩
  | method i => exact names.isWord_method i

theorem isWord_qualify {name : String} (h : IsWord name) : IsWord (t.qualify name) :=
  isWord_append.2 ⟨isWord_append.2 ⟨isWord_of_isIdentifier names.name, by decide⟩, h⟩

theorem isWord_memberName (i : Nat) (step : ArrayStep) :
    IsWord (step.memberName (t.property i).name) := by
  have around {front back : List Char} (hf : front.all isIdentifierPart = true)
      (hb : back.all isIdentifierPart = true) :
      IsWord (String.ofList front ++ (t.property i).name ++ String.ofList back) :=
    isWord_append.2 ⟨isWord_append.2 ⟨isWord_ofList hf, names.isWord_property i⟩, isWord_ofList hb⟩
  cases step with
  | openArray => exact around (by decide) (by decide)
  | countItems => exact around (by decide) (by decide)
  | itemAt => exact around (by decide) (by decide)
  | closeArray => exact around (by decide) (by decide)

theorem isWord_nameOf (kind : ExportKind) : IsWord (t.nameOf kind) := by
  cases kind with
  | member m => exact names.isWord_qualify (names.isWord_signature m)
  | arrayAccess i step => exact names.isWord_qualify (names.isWord_memberName i step)
  | create => exact names.isWord_qualify (isWord_ofList (by decide))
  | destroy => exact names.isWord_qualify (isWord_ofList (by decide))
  | setEventCallback => exact names.isWord_qualify (isWord_ofList (by decide))
  | setTrampolineLocator => exact names.isWord_qualify (isWord_ofList (by decide))
  | setManagedHandle => exact names.isWord_qualify (isWord_ofList (by decide))

end ApiType.HasIdentifiers

section Slots

variable {table : SlotTable}

theorem ApiType.HasIdentifiers.isWord_slot (names : t.HasIdentifiers)
    (h : SlotTable.derive t = .ok table) {slot : Slot} (hslot : slot ∈ table.slots) :
    IsWord slot.name := by
  rw [SlotTable.named_of_derive h slot hslot]
  exact names.isWord_signature slot.member

theorem ApiType.slotTable_eq_ok {slots : Option SlotTable} :
    t.slotTable = .ok slots ↔
      t.managedServer = false ∧ slots = none ∨
        ∃ table, t.managedServer = true ∧ slots = some table ∧ SlotTable.derive t = .ok table := by
  rw [slotTable]
  by_cases server : t.managedServer = true
  · rw [if_pos server, map_eq_ok]
    constructor
    · rintro ⟨table, derived, rfl⟩
      exact .inr ⟨table, server, rfl, derived⟩
    · rintro (⟨h, _⟩ | ⟨table, _, rfl, derived⟩)
      · rw [server] at h
        cases h
      · exact ⟨table, derived, rfl⟩
  · rw [if_neg server]
    constructor
    · intro h
      cases h
      exact .inl ⟨by simpa using server, rfl⟩
    · rintro (⟨_, rfl⟩ | ⟨table, h, _⟩)
      · rfl
      · exact absurd h server

end Slots

theorem isOver_declared {marks : String} {d : Declared} (blank : ' ' ∈ marks.toList)
    (literal : IsOver marks d.spelling.literal) (name : IsWord d.name) : IsOver marks d.text := by
  refine isOver_append.2 ⟨isOver_append.2 ⟨literal, fun c hc => .inr ?_⟩, name.over⟩
  rw [show c = ' ' by simpa using hc]
  exact blank

namespace Schema.HasIdentifiers

variable (names : s.HasIdentifiers) {dialect : Dialect} {ps : List Parameter} {ds : List Declared}
  (words : ∀ p ∈ ps, IsWord p.name)
include names

theorem isOver_declare {p : Parameter} {d : Declared} (hp : IsWord p.name)
    (h : s.declare dialect p = .ok d) : IsOver spellingMarks d.text := by
  obtain ⟨spelling, hspelling, rfl⟩ := map_eq_ok.1 h
  exact isOver_declared (by decide) (names.isOver_resolve hspelling) hp

include words

theorem isOver_declareAll (h : s.declareAll dialect ps = .ok ds) :
    ∀ d ∈ ds, IsOver spellingMarks d.text := by
  induction ps generalizing ds with
  | nil =>
    cases h
    exact fun d hd => absurd hd List.not_mem_nil
  | cons p ps ih =>
    obtain ⟨d, hd, h⟩ := bind_eq_ok.1 h
    obtain ⟨rest, hrest, h⟩ := bind_eq_ok.1 h
    cases h
    refine List.forall_mem_cons.2 ⟨names.isOver_declare (words p List.mem_cons_self) hd, ?_⟩
    exact ih (fun q hq => words q (List.mem_cons_of_mem p hq)) hrest

theorem isOver_declareFlat (h : s.declareFlat dialect ps = .ok ds) :
    ∀ d ∈ ds, IsOver spellingMarks d.text := by
  induction ps generalizing ds with
  | nil =>
    cases h
    exact fun d hd => absurd hd List.not_mem_nil
  | cons p ps ih =>
    obtain ⟨d, hd, h⟩ := bind_eq_ok.1 h
    obtain ⟨rest, hrest, h⟩ := bind_eq_ok.1 h
    cases h
    have hp := words p List.mem_cons_self
    refine List.forall_mem_cons.2 ⟨names.isOver_declare hp hd, List.forall_mem_append.2 ⟨?_, ?_⟩⟩
    · intro count hcount
      rw [Declared.counts] at hcount
      split at hcount
      · rw [List.mem_singleton.1 hcount]
        exact isOver_declared (by decide) (by decide : IsOver spellingMarks "int")
          (isWord_append.2 ⟨hp, by decide⟩)
      · cases hcount
    · exact ih (fun q hq => words q (List.mem_cons_of_mem p hq)) hrest

end Schema.HasIdentifiers

theorem includesClean_declareFlat (names : s.HasIdentifiers) {ps : List Parameter}
    {ds : List Declared} (h : s.declareFlat .flat ps = .ok ds) :
    ∀ d ∈ ds, d.spelling.IncludesClean := by
  induction ps generalizing ds with
  | nil =>
    cases h
    exact fun d hd => absurd hd List.not_mem_nil
  | cons p ps ih =>
    obtain ⟨d, hd, h⟩ := bind_eq_ok.1 h
    obtain ⟨rest, hrest, h⟩ := bind_eq_ok.1 h
    cases h
    obtain ⟨spelling, hspelling, rfl⟩ := map_eq_ok.1 hd
    have head : spelling.IncludesClean := names.includesClean_resolve_flat hspelling
    refine List.forall_mem_cons.2 ⟨head, List.forall_mem_append.2 ⟨?_, ih hrest⟩⟩
    intro count hcount
    rw [Declared.counts] at hcount
    split at hcount
    · rw [List.mem_singleton.1 hcount]
      exact includesClean_none
    · cases hcount

theorem isOneLine_join {ds : List Declared} (h : ∀ d ∈ ds, IsOver spellingMarks d.text) :
    IsOneLine (Declared.join ds) := by
  refine isOneLine_intercalate (by decide) fun text ht => ?_
  obtain ⟨d, hd, rfl⟩ := List.mem_map.1 ht
  exact (h d hd).isOneLine (by decide)

end InteropGen
