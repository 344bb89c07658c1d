import InteropGen.Proofs.ComposedText
import InteropGen.Proofs.DeclaredNames
import InteropGen.Proofs.TableSuccess
import InteropGen.Proofs.WrappedMembers

set_option autoImplicit false

/-!
# Composed names and spellings

The names that a schema declares come into the generated text alone, in names that are made of them,
and in spelled types.  A member can stand directly behind its type: behind an underscore in a flat
function, behind nothing in a slot delegate, and behind a dot where it is static.  A word may run
over such a seam, so the two have to be looked at together there.
-/

namespace InteropGen

open Text

/-- `N` holds of the names that the type declares. -/
structure ApiType.EachName (N : String → Prop) (t : ApiType) : Prop where
  name : N t.name
  properties : ∀ p ∈ t.properties, N p.name
  methods : ∀ m ∈ t.methods, N m.name
  parameters : ∀ m ∈ t.methods, ∀ p ∈ m.parameters, N p.name
  events : ∀ e ∈ t.events, N e.name
  fields : ∀ f ∈ t.fields, N f.name
  variants : ∀ v ∈ t.variants, N v.name

/-- `N` holds of the names that the type declares, and of its own name where the name of a member is
written behind it. -/
structure ApiType.Named (N : String → Prop) (t : ApiType) : Prop extends t.EachName N where
  functions : ∀ m ∈ t.methods, N (t.qualify m.name)
  slots : t.managedServer = true → ∀ m ∈ t.methods, N (t.name ++ m.name)
  staticProperties : t.managedServer = true → ∀ p ∈ t.properties, p.isStatic = true →
    N (t.name ++ "." ++ p.name)
  staticMethods : t.managedServer = true → ∀ m ∈ t.methods, m.isStatic = true →
    N (t.name ++ "." ++ m.name)

def Schema.EachName (N : String → Prop) (s : Schema) : Prop := ∀ t ∈ s.types, t.EachName N

def Schema.Named (N : String → Prop) (s : Schema) : Prop := ∀ t ∈ s.types, t.Named N

variable {N : String → Prop} {s : Schema} {t : ApiType}

theorem Composed.suffixed {x : String} (hx : Composed N x) (cs : List Char)
    (closes : joins cs [] = some []) : Composed N (x ++ String.ofList cs) :=
  (Begun.first hx cs).closed closes

theorem Composed.prefixed {x : String} (cs : List Char) (hx : Composed N x)
    (closes : begins cs [] = some []) : Composed N (String.ofList cs ++ x) :=
  (Begun.start cs).last hx closes

theorem Composed.joined {x y : String} (hx : Composed N x) (hy : Composed N y) (cs ds : List Char)
    (closes : joins (cs ++ ds) [] = some []) :
    Composed N (x ++ String.ofList cs ++ (String.ofList ds ++ y)) := by
  have whole : x ++ String.ofList cs ++ (String.ofList ds ++ y) =
      x ++ String.ofList (cs ++ ds) ++ y := by
    rw [← String.toList_inj]
    simp
  rw [whole]
  exact (Begun.first hx _).last hy closes

section Members

theorem exists_property_of_getter {i : Nat} (hm : .getter i ∈ t.members) :
    t.property i ∈ t.properties := by
  obtain ⟨p, hp, _⟩ := ApiType.mem_members_getter.1 hm
  rw [ApiType.property_eq hp]
  exact List.mem_of_getElem? hp

theorem exists_property_of_setter {i : Nat} (hm : .setter i ∈ t.members) :
    t.property i ∈ t.properties := by
  obtain ⟨p, hp, _⟩ := ApiType.mem_members_setter.1 hm
  rw [ApiType.property_eq hp]
  exact List.mem_of_getElem? hp

theorem exists_method_of_member {i : Nat} (hm : .method i ∈ t.members) :
    t.method i ∈ t.methods := by
  have bound := ApiType.mem_members_method.1 hm
  rw [ApiType.method_eq (List.getElem?_eq_getElem bound)]
  exact List.getElem_mem bound

namespace ApiType.Named

variable (own : t.Named N)
include own

theorem composed_signature {m : Member} (hm : m ∈ t.members) :
    Composed N (t.signature m).name := by
  cases m with
  | getter i =>
    exact .prefixed ['G', 'e', 't'] (.name (own.properties _ (exists_property_of_getter hm)))
      (by decide)
  | setter i =>
    exact .prefixed ['S', 'e', 't'] (.name (own.properties _ (exists_property_of_setter hm)))
      (by decide)
  | method i => exact .name (own.methods _ (exists_method_of_member hm))

theorem composed_parameters {m : Member} (hm : m ∈ t.members) :
    ∀ p ∈ (t.signature m).parameters, Composed N p.name := by
  cases m with
  | getter i => exact fun p hp => absurd hp List.not_mem_nil
  | setter i =>
    intro p hp
    rw [List.mem_singleton.1 hp]
    exact (.fixed _ (by decide) : Composed N "value")
  | method i => exact fun p hp => .name (own.parameters _ (exists_method_of_member hm) p hp)

theorem composed_qualify {rest : String} (hr : Composed N rest) (cs : List Char)
    (closes : joins ('_' :: cs) [] = some []) : Composed N (t.qualify (String.ofList cs ++ rest)) :=
  (Composed.name own.name).joined hr ['_'] cs closes

theorem composed_qualify_fixed (cs : List Char) (closes : joins ('_' :: cs) [] = some []) :
    Composed N (t.qualify (String.ofList cs)) := by
  have named := own.composed_qualify (.fixed [] (by decide)) cs closes
  rwa [String.append_empty] at named

theorem composed_step {p : Property} (hp : p ∈ t.properties) (step : ArrayStep) :
    Composed N (t.qualify (step.memberName p.name)) := by
  have property := Composed.name (own.properties p hp)
  cases step with
  | openArray =>
    have rest : Composed N (p.name ++ "Array") := property.suffixed _ (by decide)
    have name : ArrayStep.openArray.memberName p.name = "Open" ++ (p.name ++ "Array") :=
      String.append_assoc
    rw [name]
    exact own.composed_qualify rest ['O', 'p', 'e', 'n'] (by decide)
  | countItems =>
    have rest : Composed N (p.name ++ "ItemCount") := property.suffixed _ (by decide)
    have name : ArrayStep.countItems.memberName p.name = "Get" ++ (p.name ++ "ItemCount") :=
      String.append_assoc
    rw [name]
    exact own.composed_qualify rest ['G', 'e', 't'] (by decide)
  | itemAt =>
    have rest : Composed N (p.name ++ "ItemAt") := property.suffixed _ (by decide)
    have name : ArrayStep.itemAt.memberName p.name = "Get" ++ (p.name ++ "ItemAt") :=
      String.append_assoc
    rw [name]
    exact own.composed_qualify rest ['G', 'e', 't'] (by decide)
  | closeArray =>
    have rest : Composed N (p.name ++ "Array") := property.suffixed _ (by decide)
    have name : ArrayStep.closeArray.memberName p.name = "Close" ++ (p.name ++ "Array") :=
      String.append_assoc
    rw [name]
    exact own.composed_qualify rest ['C', 'l', 'o', 's', 'e'] (by decide)

theorem composed_setEventCallback : Composed N (t.qualify "SetEventCallback") :=
  own.composed_qualify_fixed _ (by decide)

theorem composed_setTrampolineLocator : Composed N (t.qualify "SetTrampolineLocatorCallback") :=
  own.composed_qualify_fixed _ (by decide)

theorem composed_nameOf {kind : ExportKind} (mem : kind ∈ s.exportKinds t) :
    Composed N (t.nameOf kind) := by
  cases kind with
  | create => exact own.composed_qualify_fixed ['C', 'r', 'e', 'a', 't', 'e'] (by decide)
  | destroy => exact own.composed_qualify_fixed ['D', 'e', 's', 't', 'r', 'o', 'y'] (by decide)
  | member m =>
    have hm := (Schema.mem_exportKinds_member.1 mem).1
    cases m with
    | getter i =>
      exact own.composed_qualify (.name (own.properties _ (exists_property_of_getter hm)))
        ['G', 'e', 't'] (by decide)
    | setter i =>
      exact own.composed_qualify (.name (own.properties _ (exists_property_of_setter hm)))
        ['S', 'e', 't'] (by decide)
    | method i => exact .name (own.functions _ (exists_method_of_member hm))
  | arrayAccess i step =>
    have hm := (Schema.mem_exportKinds_arrayAccess.1 mem).1
    exact own.composed_step (exists_property_of_getter hm) step
  | setEventCallback => exact own.composed_setEventCallback
  | setTrampolineLocator => exact own.composed_setTrampolineLocator
  | setManagedHandle => exact own.composed_qualify_fixed _ (by decide)

theorem composed_slot (server : t.managedServer = true) {m : Member} (hm : m ∈ t.members) :
    Composed N (t.name ++ (t.signature m).name) := by
  have type := Composed.name own.name
  cases m with
  | getter i =>
    have property := Composed.name (own.properties _ (exists_property_of_getter hm))
    have joined := type.joined property [] ['G', 'e', 't'] (by decide)
    rwa [String.ofList_nil, String.append_empty] at joined
  | setter i =>
    have property := Composed.name (own.properties _ (exists_property_of_setter hm))
    have joined := type.joined property [] ['S', 'e', 't'] (by decide)
    rwa [String.ofList_nil, String.append_empty] at joined
  | method i => exact .name (own.slots server _ (exists_method_of_member hm))

end ApiType.Named

end Members

section Spellings

variable {position : Position} {shape : Shape} {spelling : Spelling}

theorem composed_primitive_managed (p : Primitive) : Composed N p.managed := by
  cases p <;> exact .fixed _ (by decide)

theorem composed_primitive_native (p : Primitive) : Composed N p.native := by
  cases p <;> exact .fixed _ (by decide)

theorem composed_constant {x : String} (hx : Composed N x) : Composed N ("const " ++ x ++ "*") :=
  ((Begun.start _).name hx _).closed (by decide)

theorem composed_managed (h : shape.All fun t => N t.name) :
    Composed N (shape.managed position).literal := by
  induction shape generalizing position with
  | void => exact (.fixed _ (by decide) : Composed N "void")
  | primitive p => exact composed_primitive_managed p
  | text isNullable =>
    rw [Shape.managed]
    split
    · exact (.fixed _ (by decide) : Composed N "string?")
    · exact (.fixed _ (by decide) : Composed N "string")
  | struct t => exact .name h
  | enum t => exact .name h
  | «class» t isNullable =>
    rw [Shape.managed]
    split
    · exact (Composed.name h).suffixed ['?'] (by decide)
    · exact .name h
  | nullableValue inner ih => exact (ih h).suffixed ['?'] (by decide)
  | array element ih => exact (ih h).suffixed ['[', ']'] (by decide)

theorem composed_binding (h : shape.All fun t => N t.name)
    (ok : shape.binding position = .ok spelling) : Composed N spelling.literal := by
  cases shape with
  | void => cases ok; exact (.fixed _ (by decide) : Composed N "void")
  | primitive p =>
    have primitive : Composed N p.managed := composed_primitive_managed p
    cases p with
    | bool =>
      have plain : Composed N ("" ++ "bool") := ((Begun.start _).more _).closed (by decide)
      have marshalled : Composed N ("[MarshalAs(UnmanagedType.I1)] " ++ "bool") :=
        ((Begun.start _).more _).closed (by decide)
      cases position <;> cases ok
      · exact plain
      · exact marshalled
      · exact plain
    | _ => cases ok; exact primitive
  | text isNullable =>
    have plain : Composed N ("" ++ "string") := ((Begun.start _).more _).closed (by decide)
    have marshalled : Composed N ("[MarshalAs(UnmanagedType.LPWStr)] " ++ "string") :=
      ((Begun.start _).more _).closed (by decide)
    cases position <;> cases ok
    · exact plain
    · exact marshalled
    · exact plain
  | struct t => cases ok; exact .name h
  | enum t => cases ok; exact .name h
  | «class» t isNullable => cases ok; exact (.fixed _ (by decide) : Composed N "IntPtr")
  | nullableValue inner => cases ok
  | array element =>
    cases position with
    | declaration => cases ok
    | result => cases ok
    | argument =>
      obtain ⟨item, hitem, ok⟩ := bind_eq_ok.1 ok
      cases element with
      | «class» t isNullable =>
        cases hitem
        cases ok
        exact (.fixed _ (by decide) : Composed N "IntPtr[]")
      | primitive p =>
        have primitive : Composed N p.managed := composed_primitive_managed p
        cases p with
        | bool => cases hitem
        | _ =>
          cases hitem
          cases ok
          exact primitive.suffixed ['[', ']'] (by decide)
      | struct t => cases hitem; cases ok; exact (Composed.name h).suffixed _ (by decide)
      | enum t => cases hitem; cases ok; exact (Composed.name h).suffixed _ (by decide)
      | _ => cases hitem <;> cases ok

theorem composed_flat (h : shape.All fun t => N t.name)
    (ok : shape.flat position = .ok spelling) : Composed N spelling.literal := by
  cases shape with
  | void => cases ok; exact (.fixed _ (by decide) : Composed N "void")
  | primitive p =>
    have primitive : Composed N p.native := composed_primitive_native p
    cases p with
    | bool => cases ok; exact (.fixed _ (by decide) : Composed N "c_bool")
    | _ => cases ok; exact primitive
  | text isNullable =>
    have pointer : Composed N "char16_t*" := .fixed _ (by decide)
    cases position <;> cases ok
    · exact pointer
    · exact (.fixed _ (by decide) : Composed N "const char16_t*")
    · exact pointer
  | struct t => cases ok; exact .name h
  | enum t => cases ok; exact .name h
  | «class» t isNullable =>
    cases position <;> cases ok
    · exact .name h
    · exact (Composed.name h).suffixed _ (by decide)
    · exact (Composed.name h).suffixed _ (by decide)
  | nullableValue inner => cases ok
  | array element =>
    cases position with
    | declaration => cases ok
    | result => cases ok
    | argument =>
      obtain ⟨item, hitem, ok⟩ := bind_eq_ok.1 ok
      cases element with
      | «class» t isNullable =>
        cases hitem
        cases ok
        exact (Composed.name h).suffixed _ (by decide)
      | primitive p =>
        have primitive : Composed N p.native := composed_primitive_native p
        cases p with
        | bool => cases hitem
        | _ => cases hitem; cases ok; exact composed_constant primitive
      | struct t => cases hitem; cases ok; exact composed_constant (.name h)
      | enum t => cases hitem; cases ok; exact composed_constant (.name h)
      | _ => cases hitem <;> cases ok

theorem composed_nativeElement (h : shape.All fun t => N t.name)
    (ok : shape.nativeElement = .ok spelling) : Composed N spelling.literal := by
  cases shape with
  | primitive p => cases ok; exact composed_primitive_native p
  | text isNullable => cases ok; exact (.fixed _ (by decide) : Composed N "string")
  | struct t => cases ok; exact .name h
  | enum t => cases ok; exact .name h
  | «class» t isNullable => cases ok; exact (Composed.name h).suffixed _ (by decide)
  | _ => cases ok

theorem composed_native (h : shape.All fun t => N t.name)
    (ok : shape.native position = .ok spelling) : Composed N spelling.literal := by
  cases shape with
  | void => cases ok; exact (.fixed _ (by decide) : Composed N "void")
  | primitive p => cases ok; exact composed_primitive_native p
  | text isNullable =>
    have plain : Composed N "string" := .fixed _ (by decide)
    cases position <;> cases ok
    · exact plain
    · exact (.fixed _ (by decide) : Composed N "const string&")
    · exact plain
  | struct t =>
    cases position <;> cases ok
    · exact .name h
    · exact ((Begun.start _).name (.name h) _).closed (by decide)
    · exact .name h
  | enum t => cases ok; exact .name h
  | «class» t isNullable =>
    cases position <;> cases isNullable <;> cases ok
    · exact .name h
    · exact .name h
    all_goals exact (Composed.name h).suffixed _ (by decide)
  | nullableValue inner => cases ok
  | array element =>
    obtain ⟨item, hitem, ok⟩ := bind_eq_ok.1 ok
    have mentioned : element.All fun t => N t.name := h
    have inner := composed_nativeElement mentioned hitem
    cases position <;> cases ok
    · exact ((Begun.start _).name inner _).closed (by decide)
    · exact ((Begun.start _).name inner _).closed (by decide)

theorem composed_spell {dialect : Dialect} (h : shape.All fun t => N t.name)
    (ok : shape.spell dialect position = .ok spelling) : Composed N spelling.literal := by
  cases dialect with
  | managed =>
    cases ok
    exact composed_managed h
  | binding => exact composed_binding h ok
  | native => exact composed_native h ok
  | flat => exact composed_flat h ok

end Spellings

namespace Schema.Named

variable (names : s.Named N) {dialect : Dialect} {position : Position} {type : TypeRef}
include names

theorem all_named {shape : Shape} (h : s.shapeOf type = .ok shape) :
    shape.All fun t => N t.name :=
  (all_shapeOf h).imp fun t ht => (names t ht).name

theorem composed_resolve {spelling : Spelling}
    (h : s.resolve dialect position type = .ok spelling) : Composed N spelling.literal := by
  obtain ⟨shape, hshape, ok⟩ := resolve_eq_ok.1 h
  exact composed_spell (names.all_named hshape) ok

theorem composed_literal {literal : String} (h : s.literal dialect position type = .ok literal) :
    Composed N literal := by
  obtain ⟨spelling, hspelling, rfl⟩ := literal_eq_ok.1 h
  exact names.composed_resolve hspelling

end Schema.Named

section Declarations

theorem composed_declared {d : Declared} (literal : Composed N d.spelling.literal)
    (name : Composed N d.name) : Composed N d.text :=
  (Begun.first literal _).last name (by decide)

theorem composed_join {ds : List Declared} (h : ∀ d ∈ ds, Composed N d.text) :
    Composed N (Declared.join ds) := by
  refine .intercalate fun text ht => ?_
  obtain ⟨d, hd, rfl⟩ := List.mem_map.1 ht
  exact h d hd

namespace Schema.Named

variable (names : s.Named N) {dialect : Dialect} {ps : List Parameter} {ds : List Declared}
  (composed : ∀ p ∈ ps, Composed N p.name)
include names

theorem composed_declare {p : Parameter} {d : Declared} (hp : Composed N p.name)
    (h : s.declare dialect p = .ok d) : Composed N d.text ∧ Composed N d.name := by
  obtain ⟨spelling, hspelling, rfl⟩ := map_eq_ok.1 h
  exact ⟨composed_declared (names.composed_resolve hspelling) hp, hp⟩

include composed

theorem composed_declareAll (h : s.declareAll dialect ps = .ok ds) :
    ∀ d ∈ ds, Composed N d.text ∧ Composed N d.name := by
  intro d hd
  obtain ⟨p, hp, ok⟩ := exists_left_of_forall₂ ((s.declareAll_stepwise dialect).forall₂ h) hd
  exact names.composed_declare (composed p hp) ok

theorem composed_declareFlat (h : s.declareFlat dialect ps = .ok ds) :
    ∀ d ∈ ds, Composed N d.text := by
  induction ps generalizing ds with
  | nil =>
    cases h
    exact fun d hd => absurd hd List.not_mem_nil
  | cons p ps ih =>
    obtain ⟨d, hd, h⟩ := bind_eq_ok.1 h
    obtain ⟨rest, hrest, h⟩ := bind_eq_ok.1 h
    cases h
    have hp := composed p List.mem_cons_self
    refine List.forall_mem_cons.2
      ⟨(names.composed_declare hp hd).1, List.forall_mem_append.2 ⟨?_, ?_⟩⟩
    · intro count hcount
      rw [Declared.counts] at hcount
      split at hcount
      · rw [List.mem_singleton.1 hcount]
        exact composed_declared (.fixed _ (by decide : begins ['i', 'n', 't'] [] = some []))
          (hp.suffixed _ (by decide))
      · cases hcount
    · exact ih (fun q hq => composed q (List.mem_cons_of_mem p hq)) hrest

end Schema.Named

end Declarations

end InteropGen
