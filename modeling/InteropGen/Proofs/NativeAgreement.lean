import InteropGen.Proofs.Layout
import InteropGen.Proofs.NativeConversions
import InteropGen.Proofs.WrappedMembers

set_option autoImplicit false

/-!
# The shim and the native class

Each flat function of a member calls the native member under the name and with the parameters that
the fragment declares.  The functions that read an array property work on the vector that its getter
is declared to give.
-/

namespace InteropGen

variable {s : Schema} {t : ApiType}

namespace Shim

/-- The flat function of a member calls the native member as it is declared. -/
structure Function.CallsMember (s : Schema) (t : ApiType) (m : Member) (f : Function)
    (n : NativeMember) : Prop where
  member_eq : n.member = m
  call : ∃ answer arguments,
    f.body = .call answer (receiverOf t n.isStatic) n.name arguments ∧
      ArgumentsFit s f.parameters (t.signature m).parameters n.parameters arguments ∧
      answer.Fits s (t.signature m).returns n.result.literal

/-- An item of a vector is encoded exactly when it is text, and given back as it is otherwise. -/
structure Answer.FitsItem (vector : String) (element : Shape) (answer : Answer) : Prop where
  encoded : answer = .encoded ↔ ∃ isNullable, element = .text isNullable
  asIs : answer = .asIs ↔ ∀ isNullable, element ≠ .text isNullable
  /-- The class body spells text items as such. -/
  spelled : answer = .encoded → vector = "std::vector<string>"
  /-- So does it for nothing else, as long as no declared type takes the name. -/
  spelled_only : element.HasNames → vector = "std::vector<string>" → answer = .encoded

/-- The flat function of a step works on the vector that the native getter gives. -/
structure Function.TakesStep (s : Schema) (t : ApiType) (index : Nat) (step : ArrayStep)
    (f : Function) (n : NativeMember) : Prop where
  member_eq : n.member = .getter index
  parameters_eq : n.parameters = []
  body : match step with
    | .openArray => ∃ property, n.name = "Get" ++ property ∧
        f.body = .openArray n.result.literal (receiverOf t n.isStatic) property
    | .countItems => f.body = .countItems n.result.literal
    | .itemAt => ∃ answer element, f.body = .itemAt n.result.literal answer ∧
        s.shapeOf (t.property index).type = .ok (.array element) ∧
        answer.FitsItem n.result.literal element
    | .closeArray => f.body = .closeArray n.result.literal

/-- Whether items are encoded can be read off the type of the vector. -/
theorem Function.TakesStep.reads {index : Nat} {step : ArrayStep} {f : Function} {n : NativeMember}
    (h : f.TakesStep s t index step n) (names : (t.property index).type.HasNames)
    {vector : String} {answer : Answer} (body : f.body = .itemAt vector answer) :
    answer = .encoded ↔ vector = "std::vector<string>" := by
  have taken := h.body
  cases step with
  | itemAt =>
    obtain ⟨answer', element, eq, shape, fits⟩ := taken
    rw [body, Body.itemAt.injEq] at eq
    obtain ⟨rfl, rfl⟩ := eq
    have whole : (Shape.array element).HasNames := names.shapeOf shape
    have inner : element.HasNames := whole
    exact ⟨fits.spelled, fits.spelled_only inner⟩
  | openArray =>
    obtain ⟨_, _, eq⟩ := taken
    rw [body] at eq
    cases eq
  | countItems =>
    rw [body] at taken
    cases taken
  | closeArray =>
    rw [body] at taken
    cases taken

def Function.ReadsMember (t : ApiType) (f : Function) (n : NativeMember) : Prop :=
  ∃ answer arguments,
    f.body = .call answer (receiverOf t n.isStatic) n.name arguments ∧
      List.Forall₂ (fun d a => Argument.ReadsAs f.parameters d.name d.spelling.literal a)
        n.parameters arguments ∧
      answer.ReadsAs n.result.literal

theorem ArgumentsFit.readsAs {flat : List Declared} {ps : List Parameter} {ds : List Declared}
    {as : List Argument} (h : ArgumentsFit s flat ps ds as)
    (names : ∀ p ∈ ps, p.type.HasNames) :
    List.Forall₂ (fun d a => Argument.ReadsAs flat d.name d.spelling.literal a) ds as := by
  induction h with
  | nil => exact .nil
  | @cons p d a ps ds as name fits _ ih =>
    have head := fits.readsAs (names p List.mem_cons_self)
    rw [← name] at head
    exact .cons head (ih fun q hq => names q (List.mem_cons_of_mem p hq))

theorem Function.CallsMember.reads {m : Member} {f : Function} {n : NativeMember}
    (h : f.CallsMember s t m n) (returns : (t.signature m).returns.HasNames)
    (parameters : ∀ p ∈ (t.signature m).parameters, p.type.HasNames) : f.ReadsMember t n := by
  obtain ⟨answer, arguments, body, fit, result⟩ := h.call
  exact ⟨answer, arguments, body, fit.readsAs parameters, result.readsAs returns⟩

end Shim

theorem ApiType.IsWritten.signature (h : t.IsWritten) {m : Member} (hm : m ∈ t.members) :
    (t.signature m).returns.HasNames ∧ ∀ p ∈ (t.signature m).parameters, p.type.HasNames := by
  cases m with
  | getter i =>
    obtain ⟨p, hp, _⟩ := mem_members_getter.1 hm
    rw [ApiType.signature, property_eq hp]
    exact ⟨(h.properties p (List.mem_of_getElem? hp)).hasNames, by simp⟩
  | setter i =>
    obtain ⟨p, hp, _⟩ := mem_members_setter.1 hm
    rw [ApiType.signature, property_eq hp]
    refine ⟨trivial, fun q hq => ?_⟩
    rw [List.mem_singleton.1 hq]
    exact (h.properties p (List.mem_of_getElem? hp)).hasNames
  | method i =>
    have bound := mem_members_method.1 hm
    have mem := List.getElem_mem bound
    rw [ApiType.signature, method_eq (List.getElem?_eq_getElem bound)]
    exact ⟨(h.returns _ mem).hasNames, fun p hp => (h.parameters _ mem p hp).hasNames⟩

namespace ClassArtifacts

variable {slots : Option SlotTable} {exports : ExportTable} {a : ClassArtifacts}

end ClassArtifacts

end InteropGen
