import InteropGen.Proofs.Collecting
import InteropGen.Surface.ExportTable

set_option autoImplicit false

/-!
# Entries of export tables

An entry of an export table is determined by what it does: the kind fixes its name and its arity.
`entries_of_build` lists the kinds of a table, and every other artifact of a class is compared with
that list.  A table is built by one run over the kinds, which `build_eq_ok` and `build_eq_error`
describe.
-/

namespace InteropGen

namespace ApiType

variable (t : ApiType)

def nameOf : ExportKind → String
  | .create => t.qualify "Create"
  | .destroy => t.qualify "Destroy"
  | .member m => t.qualify (t.signature m).name
  | .arrayAccess i step => t.qualify (step.memberName (t.property i).name)
  | .setEventCallback => t.qualify "SetEventCallback"
  | .setTrampolineLocator => t.qualify "SetTrampolineLocatorCallback"
  | .setManagedHandle => t.qualify "SetManagedHandle"

def arityOf : ExportKind → Nat
  | .create => 0
  | .destroy => 1
  | .member m => (t.signature m).arity
  | .arrayAccess i step => receiverArity (t.property i).isStatic + step.arity
  | .setEventCallback => 1
  | .setTrampolineLocator => 1
  | .setManagedHandle => 2

def exportOf (kind : ExportKind) : Export := ⟨t.nameOf kind, kind, t.arityOf kind⟩

def lifecycleKinds : List ExportKind :=
  (if t.isCreatable then [.create] else []) ++ (if t.isDestroyable then [.destroy] else [])

/-- What the functions of a member do: an array is read step by step. -/
def memberKinds (m : Member) : List ExportKind :=
  match m with
  | .getter i =>
    if (t.property i).type.isArray then ArrayStep.all.map (.arrayAccess i) else [.member m]
  | _ => [.member m]

/-- Why there is no flat function that does this: an array leaves the native side through a getter
only. -/
def refusal? : ExportKind → Option Failure
  | .member (.setter i) =>
    if (t.property i).type.isArray then
      some (.unsupportedType .flat "writable array properties" (t.property i).type.display)
    else none
  | .member (.method i) =>
    if (t.method i).returns.isArray then
      some (.unsupportedType .flat "array return values" (t.method i).returns.display)
    else none
  | _ => none

end ApiType

namespace Schema

def hookKinds (s : Schema) (t : ApiType) : List ExportKind :=
  (if t.hasEvents then [.setEventCallback] else []) ++
    (if t.managedServer then [.setTrampolineLocator] else []) ++
    (if s.ownsHandle t then [.setManagedHandle] else [])

def exportKinds (s : Schema) (t : ApiType) : List ExportKind :=
  t.lifecycleKinds ++ t.members.flatMap t.memberKinds ++ s.hookKinds t

end Schema

variable {s : Schema} {t : ApiType} {table : ExportTable}

theorem lifecycleExports_eq :
    t.lifecycleExports = t.lifecycleKinds.map t.exportOf := by
  unfold ApiType.lifecycleExports ApiType.lifecycleKinds
  cases t.isCreatable <;> cases t.isDestroyable <;> rfl

theorem hookExports_eq :
    s.hookExports t = (s.hookKinds t).map t.exportOf := by
  unfold Schema.hookExports Schema.hookKinds
  cases t.hasEvents <;> cases t.managedServer <;> cases s.ownsHandle t <;> rfl

theorem refusal?_lifecycleKinds : ∀ kind ∈ t.lifecycleKinds, t.refusal? kind = none := by
  unfold ApiType.lifecycleKinds
  cases t.isCreatable <;> cases t.isDestroyable <;> simp [ApiType.refusal?]

theorem refusal?_hookKinds : ∀ kind ∈ s.hookKinds t, t.refusal? kind = none := by
  unfold Schema.hookKinds
  cases t.hasEvents <;> cases t.managedServer <;> cases s.ownsHandle t <;> simp [ApiType.refusal?]

namespace ExportTable

/-- Appends the function that does this, if there can be one and its name is still free. -/
def enterKind (t : ApiType) (seen : List Export) (kind : ExportKind) :
    Except Failure (List Export) :=
  match t.refusal? kind with
  | some e => .error e
  | none => enter t.name seen (t.exportOf kind)

theorem isCollecting_enterKind (t : ApiType) : IsCollecting (enterKind t) t.exportOf t.nameOf
    t.refusal? fun kind => .duplicateSymbol t.name (t.nameOf kind) := by
  intro before kind
  rw [enterKind]
  cases t.refusal? kind with
  | some e => rfl
  | none =>
    have taken : (before.map t.exportOf).any (·.name = (t.exportOf kind).name) = true ↔
        t.nameOf kind ∈ before.map t.nameOf := by
      rw [any_key_iff, List.map_map]
      rfl
    dsimp only
    rw [enter, List.map_append, List.map_singleton]
    exact if_congr taken rfl rfl

theorem enterAll_eq {kinds : List ExportKind} (accepted : ∀ kind ∈ kinds, t.refusal? kind = none)
    (seen : List Export) :
    enterAll t.name seen (kinds.map t.exportOf) = kinds.foldlM (enterKind t) seen := by
  induction kinds generalizing seen with
  | nil => rfl
  | cons kind kinds ih =>
    obtain ⟨first, rest⟩ := List.forall_mem_cons.1 accepted
    rw [enterAll, List.map_cons, List.foldlM_cons, List.foldlM_cons, enterKind, first]
    exact congrArg _ (funext fun seen => ih rest seen)

theorem enterMember_eq (seen : List Export) (m : Member) :
    enterMember t seen m = (t.memberKinds m).foldlM (enterKind t) seen := by
  have single (accepted : t.refusal? (.member m) = none) :
      enterAll t.name seen [t.memberExport m] = [.member m].foldlM (enterKind t) seen :=
    enterAll_eq (List.forall_mem_singleton.2 accepted) seen
  have refused {e : Failure} (h : t.refusal? (.member m) = some e) :
      [.member m].foldlM (enterKind t) seen = .error e := by
    rw [List.foldlM_cons, enterKind, h]
    rfl
  rw [enterMember]
  cases m with
  | getter i =>
    rw [ApiType.memberExports, ApiType.memberKinds]
    split
    · have steps : ∀ kind ∈ ArrayStep.all.map (ExportKind.arrayAccess i),
          t.refusal? kind = none := by
        intro kind mem
        obtain ⟨step, _, rfl⟩ := List.mem_map.1 mem
        rfl
      exact enterAll_eq steps seen
    · exact single rfl
  | setter i | method i =>
    rw [ApiType.memberExports]
    split
    · rename_i array
      exact (refused (if_pos array)).symm
    · rename_i plain
      exact single (if_neg plain)

theorem enterMembers_eq (seen : List Export) (ms : List Member) :
    ms.foldlM (enterMember t) seen = (ms.flatMap t.memberKinds).foldlM (enterKind t) seen := by
  induction ms generalizing seen with
  | nil => rfl
  | cons m ms ih =>
    rw [List.foldlM_cons, enterMember_eq, List.flatMap_cons, List.foldlM_append]
    exact congrArg _ (funext ih)

/-- A table is built by one run over what its functions do. -/
theorem build_eq (s : Schema) (t : ApiType) : build s t =
    ((s.exportKinds t).foldlM (enterKind t) []).map (ExportTable.mk t.name) := by
  rw [build, lifecycleExports_eq, hookExports_eq, Schema.exportKinds, List.foldlM_append,
    List.foldlM_append]
  simp only [enterAll_eq refusal?_lifecycleKinds, enterMembers_eq, enterAll_eq refusal?_hookKinds]
  cases t.lifecycleKinds.foldlM (enterKind t) [] with
  | error e => rfl
  | ok life =>
    change ((t.members.flatMap t.memberKinds).foldlM (enterKind t) life >>= _) =
      ((t.members.flatMap t.memberKinds).foldlM (enterKind t) life >>= _).map _
    cases (t.members.flatMap t.memberKinds).foldlM (enterKind t) life with
    | error e => rfl
    | ok members => rfl

theorem build_eq_ok : build s t = .ok table ↔
    (∀ kind ∈ s.exportKinds t, t.refusal? kind = none) ∧ ((s.exportKinds t).map t.nameOf).Nodup ∧
      table = ⟨t.name, (s.exportKinds t).map t.exportOf⟩ := by
  rw [build_eq, map_eq_ok]
  simp only [(isCollecting_enterKind t).foldlM_eq_ok]
  constructor
  · rintro ⟨_, ⟨accepted, distinct, rfl⟩, rfl⟩
    exact ⟨accepted, distinct, rfl⟩
  · rintro ⟨accepted, distinct, rfl⟩
    exact ⟨_, ⟨accepted, distinct, rfl⟩, rfl⟩

theorem build_eq_error {e : Failure} : build s t = .error e ↔
    ∃ before kind behind, s.exportKinds t = before ++ kind :: behind ∧
      (∀ k ∈ before, t.refusal? k = none) ∧ (before.map t.nameOf).Nodup ∧
      IsRejection t.nameOf t.refusal? (fun kind => .duplicateSymbol t.name (t.nameOf kind)) before
        kind e := by
  rw [build_eq, map_eq_error, (isCollecting_enterKind t).foldlM_eq_error]

theorem entries_of_build (h : build s t = .ok table) :
    table.entries = (s.exportKinds t).map t.exportOf := by
  obtain ⟨_, _, rfl⟩ := build_eq_ok.1 h
  rfl

/-- Flat functions cannot be overloaded. -/
theorem nodup_of_build (h : build s t = .ok table) : table.names.Nodup := by
  obtain ⟨_, distinct, rfl⟩ := build_eq_ok.1 h
  rw [names, List.map_map]
  exact distinct

theorem find?_of_build (h : build s t = .ok table) (kind : ExportKind) :
    table.find? kind = if kind ∈ s.exportKinds t then some (t.exportOf kind) else none := by
  rw [find?, entries_of_build h]
  induction s.exportKinds t with
  | nil => rfl
  | cons k ks ih =>
    rw [List.map_cons, List.find?_cons]
    by_cases same : k = kind
    · subst same
      simp [ApiType.exportOf]
    · have other : (t.exportOf k).kind ≠ kind := same
      simp only [other, decide_false, ih, List.mem_cons, Ne.symm same, false_or]

theorem find?_eq_some (h : build s t = .ok table) {kind : ExportKind} {e : Export} :
    table.find? kind = some e ↔ kind ∈ s.exportKinds t ∧ e = t.exportOf kind := by
  rw [find?_of_build h]
  split
  · rename_i mem
    rw [Option.some.injEq, eq_comm]
    exact (and_iff_right mem).symm
  · rename_i absent
    constructor
    · intro h
      cases h
    · exact fun h => absurd h.1 absent

theorem find?_eq_none (h : build s t = .ok table) {kind : ExportKind} :
    table.find? kind = none ↔ kind ∉ s.exportKinds t := by
  rw [find?_of_build h]
  split
  · rename_i mem
    simp [mem]
  · rename_i absent
    simp [absent]

end ExportTable

end InteropGen
