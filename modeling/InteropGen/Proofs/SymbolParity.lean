import InteropGen.Proofs.Exports
import InteropGen.Proofs.Steps

set_option autoImplicit false

/-!
# Parity of exported and imported symbols

The shim and the imports of a class are both built from its export table, but each works out the
parameters of its functions by itself.  Both declare exactly the symbols of the table, in its order.
-/

namespace InteropGen

variable {s : Schema} {t : ApiType} {table : ExportTable}

theorem length_of_declareFlat {dialect : Dialect} {ps : List Parameter} {ds : List Declared}
    (h : s.declareFlat dialect ps = .ok ds) (n : Nat) :
    n + ds.length = ps.foldr (fun p n => p.arity + n) n := by
  induction ps generalizing ds with
  | nil =>
    cases h
    rfl
  | cons p ps ih =>
    obtain ⟨d, _, h⟩ := bind_eq_ok.1 h
    obtain ⟨rest, hrest, h⟩ := bind_eq_ok.1 h
    cases h
    have counts : (Declared.counts p).length + 1 = p.arity := by
      unfold Declared.counts Parameter.arity
      split <;> rfl
    rw [List.foldr_cons, ← ih hrest, List.length_cons, List.length_append]
    omega

theorem length_selfOf (isStatic : Bool) : (Shim.selfOf t isStatic).length = receiverArity isStatic := by
  cases isStatic <;> rfl

theorem length_handleOf (isStatic : Bool) : (handleOf isStatic).length = receiverArity isStatic := by
  cases isStatic <;> rfl

namespace Shim

theorem memberFunction_eq_ok {name : String} {m : Member} {f : Function}
    (h : memberFunction s t name m = .ok f) :
    f.name = name ∧ f.parameters.length = (t.signature m).arity := by
  obtain ⟨parameters, hparameters, h⟩ := bind_eq_ok.1 h
  obtain ⟨result, _, h⟩ := bind_eq_ok.1 h
  obtain ⟨arguments, _, h⟩ := bind_eq_ok.1 h
  obtain ⟨answer, _, h⟩ := bind_eq_ok.1 h
  cases h
  refine ⟨rfl, ?_⟩
  rw [List.length_append, length_selfOf, length_of_declareFlat hparameters, Signature.arity]

theorem arrayFunction_eq_ok {name : String} {i : Nat} {step : ArrayStep} {f : Function}
    (h : arrayFunction s t name i step = .ok f) :
    f.name = name ∧
      f.parameters.length = receiverArity (t.property i).isStatic + step.arity := by
  simp only [arrayFunction] at h
  split at h
  · obtain ⟨vector, _, h⟩ := bind_eq_ok.1 h
    cases step with
    | itemAt =>
      obtain ⟨result, _, h⟩ := bind_eq_ok.1 h
      obtain ⟨answer, _, h⟩ := bind_eq_ok.1 h
      cases h
      exact ⟨rfl, by rw [List.length_append, length_selfOf]; rfl⟩
    | openArray =>
      cases h
      exact ⟨rfl, length_selfOf _⟩
    | countItems =>
      cases h
      exact ⟨rfl, by rw [List.length_append, length_selfOf]; rfl⟩
    | closeArray =>
      cases h
      exact ⟨rfl, by rw [List.length_append, length_selfOf]; rfl⟩
  · cases h

theorem functionOf_exportOf {kind : ExportKind} {f : Function}
    (h : functionOf s t (t.exportOf kind) = .ok f) :
    f.name = t.nameOf kind ∧ f.parameters.length = t.arityOf kind := by
  cases kind with
  | member m => exact memberFunction_eq_ok h
  | arrayAccess i step => exact arrayFunction_eq_ok h
  | create => cases h; exact ⟨rfl, rfl⟩
  | destroy => cases h; exact ⟨rfl, rfl⟩
  | setEventCallback => cases h; exact ⟨rfl, rfl⟩
  | setTrampolineLocator => cases h; exact ⟨rfl, rfl⟩
  | setManagedHandle => cases h; exact ⟨rfl, rfl⟩

end Shim

namespace Import

theorem ofMember_eq_ok {name : String} {m : Member} {i : Import}
    (h : ofMember s t name m = .ok i) :
    i.name = name ∧ i.parameters.length = (t.signature m).arity := by
  obtain ⟨parameters, hparameters, h⟩ := bind_eq_ok.1 h
  obtain ⟨result, _, h⟩ := bind_eq_ok.1 h
  obtain ⟨marshalling, _, h⟩ := bind_eq_ok.1 h
  cases h
  refine ⟨rfl, ?_⟩
  rw [List.length_append, length_handleOf, length_of_declareFlat hparameters, Signature.arity]

theorem ofArrayStep_eq_ok {name : String} {index : Nat} {step : ArrayStep} {i : Import}
    (h : ofArrayStep s t name index step = .ok i) :
    i.name = name ∧
      i.parameters.length = receiverArity (t.property index).isStatic + step.arity := by
  cases step with
  | openArray =>
    cases h
    exact ⟨rfl, length_handleOf _⟩
  | countItems =>
    cases h
    exact ⟨rfl, by rw [List.length_append, length_handleOf]; rfl⟩
  | itemAt =>
    simp only [ofArrayStep] at h
    split at h
    · obtain ⟨result, _, h⟩ := bind_eq_ok.1 h
      obtain ⟨marshalling, _, h⟩ := bind_eq_ok.1 h
      cases h
      exact ⟨rfl, by rw [List.length_append, length_handleOf]; rfl⟩
    · cases h
  | closeArray =>
    cases h
    exact ⟨rfl, by rw [List.length_append, length_handleOf]; rfl⟩

theorem ofExport_exportOf {kind : ExportKind} {i : Import}
    (h : ofExport s t (t.exportOf kind) = .ok i) :
    i.name = t.nameOf kind ∧ i.parameters.length = t.arityOf kind := by
  cases kind with
  | member m => exact ofMember_eq_ok h
  | arrayAccess index step => exact ofArrayStep_eq_ok h
  | create => cases h; exact ⟨rfl, rfl⟩
  | destroy => cases h; exact ⟨rfl, rfl⟩
  | setEventCallback => cases h; exact ⟨rfl, rfl⟩
  | setTrampolineLocator => cases h; exact ⟨rfl, rfl⟩
  | setManagedHandle => cases h; exact ⟨rfl, rfl⟩

end Import

namespace ExportTable

def symbols (table : ExportTable) : List String := table.entries.map Export.symbol

theorem symbols_of_build (h : build s t = .ok table) :
    table.symbols =
      (s.exportKinds t).map fun kind => symbolText (t.nameOf kind) (t.arityOf kind) := by
  rw [symbols, entries_of_build h, List.map_map]
  rfl

end ExportTable

theorem symbols_of_steps {β : Type} {f : Export → Except Failure β} {symbol : β → String}
    (table_ok : ExportTable.build s t = .ok table)
    (keeps : ∀ kind b, f (t.exportOf kind) = .ok b →
      symbol b = symbolText (t.nameOf kind) (t.arityOf kind))
    {bs : List β} (h : List.Forall₂ (fun e b => f e = .ok b) table.entries bs) :
    bs.map symbol = table.symbols := by
  rw [ExportTable.entries_of_build table_ok, List.forall₂_map_left_iff] at h
  rw [ExportTable.symbols_of_build table_ok]
  exact (forall₂_map_eq h fun kind b hb => (keeps kind b hb).symm).symm

theorem Shim.symbols_ofClass {shim : Shim} (table_ok : ExportTable.build s t = .ok table)
    (h : Shim.ofClass s t table = .ok shim) : shim.symbols = table.symbols := by
  obtain ⟨functions, hfunctions, rfl⟩ := map_eq_ok.1 h
  refine symbols_of_steps table_ok (fun kind f hf => ?_)
    ((functionsOf_stepwise s t).forall₂ hfunctions)
  obtain ⟨name, arity⟩ := functionOf_exportOf hf
  rw [Function.symbol, name, arity]

section Functions

variable {shim : Shim} (table_ok : ExportTable.build s t = .ok table)
  (h : Shim.ofClass s t table = .ok shim)
include table_ok h

theorem Shim.exists_kind {f : Function} (hf : f ∈ shim.functions) :
    ∃ kind ∈ s.exportKinds t, functionOf s t (t.exportOf kind) = .ok f := by
  obtain ⟨functions, hfunctions, rfl⟩ := map_eq_ok.1 h
  obtain ⟨e, he, ok⟩ := exists_left_of_forall₂ ((functionsOf_stepwise s t).forall₂ hfunctions) hf
  rw [ExportTable.entries_of_build table_ok] at he
  obtain ⟨kind, mem, rfl⟩ := List.mem_map.1 he
  exact ⟨kind, mem, ok⟩

theorem Shim.exists_function {kind : ExportKind} (mem : kind ∈ s.exportKinds t) :
    ∃ f ∈ shim.functions, functionOf s t (t.exportOf kind) = .ok f := by
  obtain ⟨functions, hfunctions, rfl⟩ := map_eq_ok.1 h
  refine exists_right_of_forall₂ ((functionsOf_stepwise s t).forall₂ hfunctions) ?_
  rw [ExportTable.entries_of_build table_ok]
  exact List.mem_map_of_mem mem

end Functions

theorem Imports.steps_ofClass {slots : Option SlotTable} {imports : Imports}
    (h : Imports.ofClass s t table slots = .ok imports) :
    List.Forall₂ (fun e i => Import.ofExport s t e = .ok i) table.entries imports.imports := by
  obtain ⟨delegates, _, h⟩ := bind_eq_ok.1 h
  obtain ⟨declared, hdeclared, h⟩ := bind_eq_ok.1 h
  cases h
  exact (Import.ofExports_stepwise s t).forall₂ hdeclared

section Declarations

variable {slots : Option SlotTable} {imports : Imports}
  (table_ok : ExportTable.build s t = .ok table)
  (h : Imports.ofClass s t table slots = .ok imports)
include table_ok h

theorem Imports.exists_kind {i : Import} (hi : i ∈ imports.imports) :
    ∃ kind ∈ s.exportKinds t, Import.ofExport s t (t.exportOf kind) = .ok i := by
  obtain ⟨e, he, ok⟩ := exists_left_of_forall₂ (steps_ofClass h) hi
  rw [ExportTable.entries_of_build table_ok] at he
  obtain ⟨kind, mem, rfl⟩ := List.mem_map.1 he
  exact ⟨kind, mem, ok⟩

theorem Imports.exists_import {kind : ExportKind} (mem : kind ∈ s.exportKinds t) :
    ∃ i ∈ imports.imports, Import.ofExport s t (t.exportOf kind) = .ok i := by
  refine exists_right_of_forall₂ (steps_ofClass h) ?_
  rw [ExportTable.entries_of_build table_ok]
  exact List.mem_map_of_mem mem

end Declarations

theorem Imports.symbols_ofClass {slots : Option SlotTable} {imports : Imports}
    (table_ok : ExportTable.build s t = .ok table)
    (h : Imports.ofClass s t table slots = .ok imports) : imports.symbols = table.symbols := by
  refine symbols_of_steps table_ok (fun kind i hi => ?_) (steps_ofClass h)
  obtain ⟨name, arity⟩ := Import.ofExport_exportOf hi
  rw [Import.symbol, name, arity]

end InteropGen
