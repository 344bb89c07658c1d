import InteropGen.Proofs.DeclaredNames
import InteropGen.Proofs.Layout
import InteropGen.Proofs.Planning
import InteropGen.Proofs.Slots
import InteropGen.Proofs.SpelledTypes

set_option autoImplicit false

/-!
# Members that forward to their slots

The source scaffold of a managed server defines each instance member as a call with the name of its
slot, the handle and then the parameters as they come.  The wrapper of that name stands in a nested
structure and takes flat types, while in the class the name is that of the member.
-/

namespace InteropGen

variable {s : Schema} {t : ApiType}

/-- The class body and the flat functions spell the shape alike in this position. -/
def Shape.isAlike (position : Position) : Shape → Bool
  | void => true
  | primitive p => p ≠ .bool
  | enum _ => true
  | struct _ => position ≠ .argument
  | «class» _ isNullable => isNullable || position = .declaration
  | text _ | nullableValue _ | array _ => false

theorem Shape.spellings_eq_iff {shape : Shape} {position : Position} {native flat : Spelling}
    (hnative : shape.native position = .ok native) (hflat : shape.flat position = .ok flat) :
    native.literal = flat.literal ↔ shape.isAlike position = true := by
  cases shape with
  | void =>
    cases hnative
    cases hflat
    simp [isAlike]
  | primitive p =>
    cases hnative
    cases p <;> cases hflat <;> simp [isAlike, Primitive.native]
  | text isNullable =>
    cases hnative
    cases hflat
    cases position <;> simp [isAlike]
  | struct u =>
    cases hnative
    cases hflat
    cases position with
    | declaration => simp [isAlike]
    | result => simp [isAlike]
    | argument =>
      refine iff_of_false (fun same => ?_) (by simp [isAlike])
      have length : ("const " ++ u.name ++ "&").length = u.name.length := congrArg String.length same
      have front : "const ".length = 6 := by decide
      rw [String.length_append, String.length_append, front] at length
      omega
  | enum u =>
    cases hnative
    cases hflat
    simp [isAlike]
  | «class» u isNullable =>
    cases hnative
    cases hflat
    by_cases declaration : position = .declaration
    · simp [isAlike, declaration]
    · cases isNullable <;> simp [isAlike, declaration]
  | nullableValue inner => cases hnative
  | array element =>
    obtain ⟨spelling, _, hnative⟩ := bind_eq_ok.1 hnative
    cases position with
    | declaration => cases hnative
    | result => cases hflat
    | argument =>
      cases hnative
      obtain ⟨inner, _, hflat⟩ := bind_eq_ok.1 hflat
      refine iff_of_false (fun same => ?_) (by simp [isAlike])
      have last := congrArg (fun literal : String => literal.toList.reverse.head?) same
      cases inner <;> cases hflat <;> simp at last

structure Schema.Passes (s : Schema) (p : Parameter) (native flat : Declared) : Prop where
  native_name : native.name = p.name
  flat_name : flat.name = p.name
  spellings : ∃ shape, s.shapeOf p.type = .ok shape ∧
    shape.native .argument = .ok native.spelling ∧ shape.flat .argument = .ok flat.spelling ∧
    (native.spelling.literal = flat.spelling.literal ↔ shape.isAlike .argument = true)

inductive Schema.PassesAll (s : Schema) :
    List Parameter → List Declared → List Declared → Prop where
  | nil : PassesAll s [] [] []
  | cons {p : Parameter} {native flat : Declared} {ps : List Parameter} {natives flats : List Declared}
      (passes : s.Passes p native flat) (rest : PassesAll s ps natives flats) :
      PassesAll s (p :: ps) (native :: natives) (flat :: flats)

namespace Schema

theorem exists_shape_of_resolve {position : Position} {type : TypeRef} {native flat : Spelling}
    (hnative : s.resolve .native position type = .ok native)
    (hflat : s.resolve .flat position type = .ok flat) :
    ∃ shape, s.shapeOf type = .ok shape ∧ shape.native position = .ok native ∧
      shape.flat position = .ok flat ∧
      (native.literal = flat.literal ↔ shape.isAlike position = true) := by
  obtain ⟨shape, shape_ok, hnative⟩ := resolve_eq_ok.1 hnative
  obtain ⟨shape', shape_ok', hflat⟩ := resolve_eq_ok.1 hflat
  obtain rfl : shape = shape' := Except.ok.inj (shape_ok.symm.trans shape_ok')
  exact ⟨shape, shape_ok, hnative, hflat, Shape.spellings_eq_iff hnative hflat⟩

theorem passes_of_declare {p : Parameter} {native flat : Declared}
    (hnative : s.declare .native p = .ok native) (hflat : s.declare .flat p = .ok flat) :
    s.Passes p native flat := by
  obtain ⟨_, native_ok, rfl⟩ := map_eq_ok.1 hnative
  obtain ⟨_, flat_ok, rfl⟩ := map_eq_ok.1 hflat
  exact ⟨rfl, rfl, exists_shape_of_resolve native_ok flat_ok⟩

theorem passesAll_of_declareAll {ps : List Parameter} {natives flats : List Declared}
    (hnatives : s.declareAll .native ps = .ok natives) (hflats : s.declareAll .flat ps = .ok flats) :
    s.PassesAll ps natives flats := by
  induction ps generalizing natives flats with
  | nil =>
    cases hnatives
    cases hflats
    exact .nil
  | cons p ps ih =>
    obtain ⟨native, hnative, hnatives⟩ := bind_eq_ok.1 hnatives
    obtain ⟨natives, rest, hnatives⟩ := bind_eq_ok.1 hnatives
    cases hnatives
    obtain ⟨flat, hflat, hflats⟩ := bind_eq_ok.1 hflats
    obtain ⟨flats, rest', hflats⟩ := bind_eq_ok.1 hflats
    cases hflats
    exact .cons (passes_of_declare hnative hflat) (ih rest rest')

theorem PassesAll.names {ps : List Parameter} {natives flats : List Declared}
    (h : s.PassesAll ps natives flats) :
    natives.map Declared.name = ps.map Parameter.name ∧
      flats.map Declared.name = ps.map Parameter.name := by
  induction h with
  | nil => exact ⟨rfl, rfl⟩
  | cons passes _ ih =>
    simp only [List.map_cons, passes.native_name, passes.flat_name, ih, and_self]

end Schema

/-- The definition hands the handle and its parameters on, as they are, to what has the name of the
wrapper, which takes a pointer and then flat parameters of the same names. -/
structure Definition.Forwards (s : Schema) (t : ApiType) (d : Definition) (w : SlotWrapper) :
    Prop where
  declared_name : d.declared.name = (t.signature d.declared.member).name
  slot : w.slot = d.declared.name
  body : (d.body t.name).texts =
    [(if (t.signature d.declared.member).returns.isVoid then "" else "return ") ++ w.slot ++ "(" ++
      ", ".intercalate ("GetManagedHandle()" ::
        (t.signature d.declared.member).parameters.map Parameter.name) ++ ");"]
  parameters : ∃ flats, w.parameters = .plain "void*" "obj" :: flats ∧
    s.PassesAll (t.signature d.declared.member).parameters d.declared.parameters flats
  result : ∃ shape, s.shapeOf (t.signature d.declared.member).returns = .ok shape ∧
    shape.native .result = .ok d.declared.result ∧ shape.flat .result = .ok w.result ∧
    (d.declared.result.literal = w.result.literal ↔ shape.isAlike .result = true)

section Forwarding

variable {m : Member} {n : NativeMember} {table : SlotTable}

theorem NativeMember.of_ofMember (h : ofMember s t m = .ok n) :
    n.member = m ∧ n.name = (t.signature m).name ∧ n.isVoid = (t.signature m).returns.isVoid ∧
      s.resolve .native .result (t.signature m).returns = .ok n.result ∧
      s.declareAll .native (t.signature m).parameters = .ok n.parameters := by
  obtain ⟨result, hresult, h⟩ := bind_eq_ok.1 h
  obtain ⟨parameters, hparameters, h⟩ := bind_eq_ok.1 h
  cases h
  exact ⟨rfl, rfl, rfl, hresult, hparameters⟩

theorem Definition.slotOf?_of_derive (h : SlotTable.derive t = .ok table) (hm : m ∈ t.members)
    (instanced : (t.signature m).isStatic = false) :
    slotOf? table m = some (SlotTable.slotOf t m) := by
  obtain ⟨_, _, rfl⟩ := SlotTable.derive_eq_ok.1 h
  cases found : slotOf? ⟨t.name, t.members.map (SlotTable.slotOf t)⟩ m with
  | none =>
    have missing := List.find?_eq_none.1 found _ (List.mem_map_of_mem hm)
    simp [SlotTable.slotOf, instanced] at missing
  | some slot =>
    have own := List.find?_some found
    obtain ⟨m', _, rfl⟩ := List.mem_map.1 (List.mem_of_find?_eq_some found)
    obtain rfl : m' = m := of_decide_eq_true (Bool.and_eq_true_iff.1 own).1
    rfl

theorem Definition.texts_body {d : Definition} {slot : String} (forward : d.forward = some slot) :
    (d.body t.name).texts = [(if d.declared.isVoid then "" else "return ") ++ slot ++ "(" ++
      ", ".intercalate ("GetManagedHandle()" :: d.declared.parameters.map Declared.name) ++ ");"] := by
  have closing : ")" ++ ";" = ");" := rfl
  rw [body, forward, ← closing]
  cases d.declared.isVoid <;>
    simp [forwardCall, String.append_assoc]

theorem Definition.forwards_of_ofSlot {w : SlotWrapper} (derived : SlotTable.derive t = .ok table)
    (hm : m ∈ t.members) (instanced : (t.signature m).isStatic = false)
    (hn : NativeMember.ofMember s t m = .ok n)
    (hw : SlotWrapper.ofSlot s t (SlotTable.slotOf t m) = .ok w) :
    (ofMember (some table) n).Forwards s t w := by
  obtain ⟨rfl, name, isVoid, hresult, hparameters⟩ := NativeMember.of_ofMember hn
  obtain ⟨result, hresult', hw⟩ := bind_eq_ok.1 hw
  obtain ⟨flats, hflats, hw⟩ := bind_eq_ok.1 hw
  cases hw
  have passes := Schema.passesAll_of_declareAll hparameters hflats
  have forward : (ofMember (some table) n).forward = some (t.signature n.member).name := by
    rw [ofMember, Option.bind_some, slotOf?_of_derive derived hm instanced]
    rfl
  refine ⟨name, name.symm, ?_, ⟨flats, ?_, passes⟩, Schema.exists_shape_of_resolve hresult hresult'⟩
  · have body := texts_body (t := t) forward
    rw [show (ofMember (some table) n).declared = n from rfl, isVoid, passes.names.1] at body
    exact body
  · change SlotWrapper.selfOf (t.signature n.member).isStatic ++ flats = _
    rw [instanced]
    rfl

end Forwarding

section Places

variable {a : ClassArtifacts} {table : SlotTable} {exports : ExportTable} {n : NativeTrampolines}

theorem Fragment.Parts.members_forall₂ {slots : Option SlotTable} {f : Fragment}
    (h : f.Parts s t slots) :
    List.Forall₂ (fun m x => NativeMember.ofMember s t m = .ok x) t.members f.members :=
  (NativeMember.ofMembers_stepwise s t).forall₂ h.members_ok

theorem Fragment.Parts.eq_of_name {slots : Option SlotTable} {f : Fragment} (h : f.Parts s t slots)
    (derived : SlotTable.derive t = .ok table) {x y : NativeMember} (hx : x ∈ f.members)
    (hy : y ∈ f.members) (same : x.name = y.name) : x = y := by
  have names : f.members.map NativeMember.name = t.members.map fun m => (t.signature m).name :=
    (forall₂_map_eq h.members_forall₂ fun m x hx => (NativeMember.of_ofMember hx).2.1.symm).symm
  refine List.inj_on_of_nodup_map ?_ hx hy same
  rw [names]
  exact (SlotTable.derive_eq_ok.1 derived).2.1

theorem ClassArtifacts.Parts.definitions_eq (h : a.Parts s t (some table) exports) :
    a.definitions = a.fragment.members.map (Definition.ofMember (some table)) := by
  obtain ⟨slots, hslots, eq⟩ := bind_eq_ok.1 h.definitions_ok
  obtain ⟨members, hmembers, eq⟩ := bind_eq_ok.1 eq
  cases hslots.symm.trans h.slots_ok
  cases hmembers.symm.trans (Fragment.parts_of_ofClass h.fragment_ok).members_ok
  exact (pure_eq_ok.1 eq).symm

theorem ClassArtifacts.Parts.exists_trampolines (h : a.Parts s t (some table) exports) :
    ∃ n, a.fragment.trampolines = some n ∧ NativeTrampolines.ofTable s t table = .ok n := by
  rcases mapM_eq_ok.1 (Fragment.parts_of_ofClass h.fragment_ok).trampolines_ok with
    ⟨none, _⟩ | ⟨_, n, same, trampolines, hn⟩
  · cases none
  · cases same
    exact ⟨n, trampolines, hn⟩

theorem NativeTrampolines.wrapper_infix_body {w : SlotWrapper} (hw : w ∈ n.wrappers) :
    w.code.texts <:+: n.body.texts := by
  have wrapper : w.code.texts <:+: Code.texts (n.wrappers.flatMap SlotWrapper.code) :=
    Code.texts_infix_flatMap hw
  exact Code.texts_infix_left (Code.texts_infix_left (Code.texts_infix_left (Code.texts_infix_left
    (Code.texts_infix_left (Code.texts_infix_right wrapper _) _) _) _) _) _

theorem Fragment.structure_infix_code {f : Fragment} (trampolines : f.trampolines = some n) :
    Code.texts (Code.blockEnding "struct Managed" ";" n.body) <:+: f.code.texts := by
  have nested : Code.texts (Code.blockEnding "struct Managed" ";" n.body) <:+: n.code.texts := by
    refine Code.texts_infix_right ?_ _
    simp only [Code.texts_nest, List.infix_rfl]
  rw [code, trampolines]
  exact Code.texts_infix_left (Code.texts_infix_left
    (Code.texts_infix_right (Code.texts_infix_right nested _) _) _) _

end Places

namespace Plan

variable {c : Config} {files : List PlannedFile}

/-- In the source scaffold of a managed server each instance member is one call: the name of its slot,
the handle, and the parameters.  The wrapper of the slot stands in the nested structure of the fragment
and takes as many arguments, spelled as in the flat functions.  Nothing leads from the call to the
wrapper: the call does not name the structure, the only member of the class with that name is the one
that is being defined, and neither arguments nor results are converted. -/
theorem members_forwarded (plan : build c s = .ok files) (ht : t ∈ s.classes)
    (server : t.managedServer = true) :
    ∃ a n, ClassArtifacts.build s t = .ok a ∧ a.fragment.trampolines = some n ∧
      c.generated c.apiDir (t.name ++ ".inc") a.fragment.code ∈ files ∧
      c.scaffold c.native.dir (t.name ++ ".cpp") (Scaffold.sourceCode t a.definitions) ∈ files ∧
      Code.texts (Code.blockEnding "struct Managed" ";" n.body) <:+: a.fragment.code.texts ∧
      a.definitions.map (fun d => d.declared.member) = t.members ∧
      ∀ d ∈ a.definitions, (t.signature d.declared.member).isStatic = false →
        (d.code t.name).texts <:+: (Scaffold.sourceCode t a.definitions).texts ∧
        (∀ x ∈ a.fragment.members, x.name = d.declared.name → x = d.declared) ∧
        ∃ w ∈ n.wrappers, w.code.texts <:+: n.body.texts ∧ d.Forwards s t w := by
  obtain ⟨a, ok, files_of⟩ := class_of_build plan ht
  obtain ⟨slots, _, parts⟩ := ClassArtifacts.parts_of_build ok
  rcases ApiType.slotTable_eq_ok.1 parts.slots_ok with ⟨no, _⟩ | ⟨table, _, rfl, derived⟩
  · rw [server] at no
    cases no
  have fragment := Fragment.parts_of_ofClass parts.fragment_ok
  obtain ⟨n, trampolines, hn⟩ := parts.exists_trampolines
  obtain ⟨wrappers, hwrappers, rfl⟩ := map_eq_ok.1 hn
  rw [parts.files_eq c] at files_of
  refine ⟨a, _, ok, trampolines, files_of _ (by simp), files_of _ (by simp),
    Fragment.structure_infix_code trampolines, ?_, ?_⟩
  · rw [parts.definitions_eq, List.map_map]
    have members : t.members.map id = a.fragment.members.map NativeMember.member :=
      forall₂_map_eq fragment.members_forall₂ fun m x hx => (NativeMember.of_ofMember hx).1.symm
    rw [List.map_id] at members
    exact members.symm
  · intro d hd instanced
    refine ⟨Code.texts_infix_right (Code.texts_infix_flatMap hd) _, ?_⟩
    · rw [parts.definitions_eq] at hd
      obtain ⟨x, hx, rfl⟩ := List.mem_map.1 hd
      obtain ⟨m, hm, step⟩ := exists_left_of_forall₂ fragment.members_forall₂ hx
      obtain rfl : x.member = m := (NativeMember.of_ofMember step).1
      have slot : SlotTable.slotOf t x.member ∈ table.slots := by
        rw [(SlotTable.derive_eq_ok.1 derived).2.2]
        exact List.mem_map_of_mem hm
      obtain ⟨w, hw, wrapped⟩ :=
        exists_right_of_forall₂ ((SlotWrapper.ofSlots_stepwise s t).forall₂ hwrappers) slot
      exact ⟨fun y hy same => fragment.eq_of_name derived hy hx same, w, hw,
        NativeTrampolines.wrapper_infix_body hw,
        Definition.forwards_of_ofSlot derived hm instanced step wrapped⟩

/-- The members of a server whose methods take what flat functions take differently. -/
theorem members_forwarded_canvas :
    ∃ files, build {} Schema.drawing = .ok files ∧ ApiType.canvas ∈ Schema.drawing.classes ∧
      ApiType.canvas.managedServer = true ∧
      ∃ a n, ClassArtifacts.build Schema.drawing .canvas = .ok a ∧
        a.fragment.trampolines = some n ∧
        ∀ d ∈ a.definitions, (ApiType.canvas.signature d.declared.member).isStatic = false →
          ∃ w ∈ n.wrappers, d.Forwards Schema.drawing .canvas w := by
  obtain ⟨files, plan⟩ := build_drawing {}
  obtain ⟨a, n, ok, trampolines, _, _, _, _, forwarded⟩ :=
    members_forwarded plan ApiType.canvas_mem rfl
  refine ⟨files, plan, ApiType.canvas_mem, rfl, a, n, ok, trampolines, fun d hd instanced => ?_⟩
  obtain ⟨_, _, w, hw, _, forwards⟩ := forwarded d hd instanced
  exact ⟨w, hw, forwards⟩

end Plan

def ApiType.renderer : ApiType where
  name := "Renderer"
  managedServer := true
  methods := [{ name := "Caption", returns := .text, parameters := [⟨"label", .text⟩] }]

def Schema.rendering : Schema := ⟨[.renderer]⟩

/-- The only line of the definition names no scope, and hands on a text of the class where the wrapper
takes characters. -/
theorem Plan.members_forwarded_astray :
    (∃ files, build {} Schema.rendering = .ok files) ∧
      ApiType.renderer ∈ Schema.rendering.classes ∧ ApiType.renderer.managedServer = true ∧
      (ApiType.renderer.signature (.method 0)).isStatic = false ∧
      ∃ a n, ClassArtifacts.build Schema.rendering .renderer = .ok a ∧
        a.fragment.trampolines = some n ∧
        n.wrappers.map SlotWrapper.signatureLine =
          ["static char16_t* Caption(void* obj, const char16_t* label)"] ∧
        a.definitions.map (fun d => d.declared.member) = [.method 0] ∧
        a.definitions.map (fun d => Definition.headline "Renderer" d.declared) =
          ["string Renderer::Caption(const string& label)"] ∧
        (a.definitions.flatMap fun d => (d.body "Renderer").texts) =
          ["return Caption(GetManagedHandle(), label);"] ∧
        ∀ d ∈ a.definitions, ∀ x ∈ (d.body "Renderer").texts, ':' ∉ x.toList := by
  obtain ⟨a, ok⟩ : ∃ a, ClassArtifacts.build Schema.rendering .renderer = .ok a := ⟨_, rfl⟩
  obtain ⟨n, trampolines⟩ : ∃ n, a.fragment.trampolines = some n := by
    cases ok
    exact ⟨_, rfl⟩
  have calls : (a.definitions.flatMap fun d => (d.body "Renderer").texts) =
      ["return Caption(GetManagedHandle(), label);"] := by
    cases ok
    rfl
  refine ⟨⟨_, rfl⟩, by decide, rfl, rfl, a, n, ok, trampolines, ?_, ?_, ?_, calls, ?_⟩
  · cases ok
    cases trampolines
    rfl
  · cases ok
    rfl
  · cases ok
    rfl
  · intro d hd x hx
    have line : x ∈ ["return Caption(GetManagedHandle(), label);"] :=
      calls ▸ List.mem_flatMap.2 ⟨d, hd, hx⟩
    rw [List.mem_singleton.1 line]
    decide

end InteropGen
