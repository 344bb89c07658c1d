import InteropGen.Proofs.Planning

set_option autoImplicit false

/-!
# Members of a wrapper

A wrapper has one property for each declared property and one method for each method that is
exported.  What a wrapper looks up in the export table is there exactly when the member is declared,
and an array is looked up step by step.
-/

namespace InteropGen

variable {s : Schema} {t : ApiType} {exports : ExportTable}

namespace ApiType

def isSteppedGetter (t : ApiType) : Member → Bool
  | .getter i => (t.property i).type.isArray
  | _ => false

theorem mem_accessors_getter {p : Property} {i j : Nat} :
    Member.getter i ∈ p.accessors j ↔ i = j ∧ p.get = true := by
  rw [Property.accessors, List.mem_append]
  cases p.get <;> cases p.set <;> simp

theorem mem_accessors_setter {p : Property} {i j : Nat} :
    Member.setter i ∈ p.accessors j ↔ i = j ∧ p.set = true := by
  rw [Property.accessors, List.mem_append]
  cases p.get <;> cases p.set <;> simp

theorem mem_members_getter {i : Nat} :
    Member.getter i ∈ t.members ↔ ∃ p, t.properties[i]? = some p ∧ p.get = true := by
  have notMethod : Member.getter i ∉ (List.range t.methods.length).map Member.method := by simp
  rw [members, List.mem_append, or_iff_left notMethod, List.mem_flatMap]
  constructor
  · rintro ⟨⟨p, j⟩, hp, h⟩
    obtain ⟨rfl, hget⟩ := mem_accessors_getter.1 h
    exact ⟨p, List.mem_zipIdx_iff_getElem?.1 hp, hget⟩
  · rintro ⟨p, hp, hget⟩
    exact ⟨(p, i), List.mem_zipIdx_iff_getElem?.2 hp, mem_accessors_getter.2 ⟨rfl, hget⟩⟩

theorem mem_members_setter {i : Nat} :
    Member.setter i ∈ t.members ↔ ∃ p, t.properties[i]? = some p ∧ p.set = true := by
  have notMethod : Member.setter i ∉ (List.range t.methods.length).map Member.method := by simp
  rw [members, List.mem_append, or_iff_left notMethod, List.mem_flatMap]
  constructor
  · rintro ⟨⟨p, j⟩, hp, h⟩
    obtain ⟨rfl, hset⟩ := mem_accessors_setter.1 h
    exact ⟨p, List.mem_zipIdx_iff_getElem?.1 hp, hset⟩
  · rintro ⟨p, hp, hset⟩
    exact ⟨(p, i), List.mem_zipIdx_iff_getElem?.2 hp, mem_accessors_setter.2 ⟨rfl, hset⟩⟩

theorem mem_memberKinds_member {m m' : Member} :
    ExportKind.member m ∈ t.memberKinds m' ↔ m = m' ∧ t.isSteppedGetter m = false := by
  have single (plain : t.isSteppedGetter m' = false) :
      ExportKind.member m ∈ [ExportKind.member m'] ↔ m = m' ∧ t.isSteppedGetter m = false := by
    rw [List.mem_singleton, ExportKind.member.injEq]
    refine ⟨?_, And.left⟩
    rintro rfl
    exact ⟨rfl, plain⟩
  cases m' with
  | getter i =>
    rw [memberKinds]
    cases array : (t.property i).type.isArray with
    | true =>
      rw [if_pos rfl]
      constructor
      · intro h
        simp at h
      · rintro ⟨rfl, h⟩
        rw [isSteppedGetter, array] at h
        cases h
    | false => exact single array
  | setter i => exact single rfl
  | method i => exact single rfl

theorem mem_memberKinds_arrayAccess {m : Member} {i : Nat} {step : ArrayStep} :
    ExportKind.arrayAccess i step ∈ t.memberKinds m ↔
      m = .getter i ∧ t.isSteppedGetter m = true := by
  cases m with
  | getter j =>
    rw [memberKinds, isSteppedGetter]
    by_cases array : (t.property j).type.isArray = true
    · rw [if_pos array]
      cases step <;> simp [ArrayStep.all, array, eq_comm]
    · rw [if_neg array]
      simp [array]
  | setter j => simp [memberKinds]
  | method j => simp [memberKinds]

end ApiType

open ApiType

theorem Schema.mem_exportKinds {kind : ExportKind} (lifecycle : kind ∉ t.lifecycleKinds)
    (hook : kind ∉ s.hookKinds t) :
    kind ∈ s.exportKinds t ↔ ∃ m ∈ t.members, kind ∈ t.memberKinds m := by
  rw [exportKinds, List.mem_append, List.mem_append, or_iff_left hook, or_iff_right lifecycle,
    List.mem_flatMap]

theorem Schema.mem_exportKinds_member {m : Member} :
    ExportKind.member m ∈ s.exportKinds t ↔ m ∈ t.members ∧ t.isSteppedGetter m = false := by
  rw [mem_exportKinds (by simp [lifecycleKinds]) (by simp [hookKinds])]
  constructor
  · rintro ⟨m', hm, h⟩
    obtain ⟨rfl, plain⟩ := mem_memberKinds_member.1 h
    exact ⟨hm, plain⟩
  · rintro ⟨hm, plain⟩
    exact ⟨m, hm, mem_memberKinds_member.2 ⟨rfl, plain⟩⟩

theorem Schema.mem_exportKinds_arrayAccess {i : Nat} {step : ArrayStep} :
    ExportKind.arrayAccess i step ∈ s.exportKinds t ↔
      .getter i ∈ t.members ∧ (t.property i).type.isArray = true := by
  rw [mem_exportKinds (by simp [lifecycleKinds]) (by simp [hookKinds])]
  constructor
  · rintro ⟨m, hm, h⟩
    obtain ⟨rfl, array⟩ := mem_memberKinds_arrayAccess.1 h
    exact ⟨hm, array⟩
  · rintro ⟨hm, array⟩
    exact ⟨.getter i, hm, mem_memberKinds_arrayAccess.2 ⟨rfl, array⟩⟩

namespace WrappedProperty

theorem forall₂_ofProperties {index : Nat} {ps : List Property} {ws : List WrappedProperty}
    (h : ofProperties s t exports index ps = .ok ws) :
    List.Forall₂ (fun pi w => ofProperty s t exports pi.2 pi.1 = .ok w) (ps.zipIdx index) ws := by
  induction ps generalizing index ws with
  | nil =>
    cases h
    exact .nil
  | cons p ps ih =>
    obtain ⟨w, hw, h⟩ := bind_eq_ok.1 h
    obtain ⟨ws', hws, h⟩ := bind_eq_ok.1 h
    cases h
    exact .cons hw (ih hws)

theorem exists_of_property {ws : List WrappedProperty}
    (h : ofProperties s t exports 0 t.properties = .ok ws) {i : Nat} {p : Property}
    (hp : t.properties[i]? = some p) : ∃ w ∈ ws, ofProperty s t exports i p = .ok w :=
  exists_right_of_forall₂ (forall₂_ofProperties h)
    (show (p, i) ∈ t.properties.zipIdx from List.mem_zipIdx_iff_getElem?.2 hp)

theorem exists_of_mem {ws : List WrappedProperty}
    (h : ofProperties s t exports 0 t.properties = .ok ws) {w : WrappedProperty} (hw : w ∈ ws) :
    ∃ i p, t.properties[i]? = some p ∧ ofProperty s t exports i p = .ok w := by
  obtain ⟨⟨p, i⟩, hp, ok⟩ := exists_left_of_forall₂ (forall₂_ofProperties h) hw
  exact ⟨i, p, List.mem_zipIdx_iff_getElem?.1 hp, ok⟩

end WrappedProperty

namespace WrappedMethod

theorem forall₂_ofMethods {index : Nat} {ms : List Method} {ws : List WrappedMethod}
    (h : ofMethods s t exports index ms = .ok ws) :
    ∃ os, List.Forall₂ (fun mi o => ofMethod s t exports mi.2 mi.1 = .ok o) (ms.zipIdx index) os ∧
      ws = os.flatMap Option.toList := by
  induction ms generalizing index ws with
  | nil =>
    cases h
    exact ⟨[], .nil, rfl⟩
  | cons m ms ih =>
    obtain ⟨o, ho, h⟩ := bind_eq_ok.1 h
    obtain ⟨ws', hws, h⟩ := bind_eq_ok.1 h
    cases h
    obtain ⟨os, hos, rfl⟩ := ih hws
    exact ⟨o :: os, .cons ho hos, rfl⟩

theorem exists_of_method {ws : List WrappedMethod}
    (h : ofMethods s t exports 0 t.methods = .ok ws) {i : Nat} {m : Method}
    (hm : t.methods[i]? = some m) :
    ∃ o, ofMethod s t exports i m = .ok o ∧ ∀ w ∈ o, w ∈ ws := by
  obtain ⟨os, hos, rfl⟩ := forall₂_ofMethods h
  have hmi : (m, i) ∈ t.methods.zipIdx := List.mem_zipIdx_iff_getElem?.2 hm
  obtain ⟨o, ho, ok⟩ := exists_right_of_forall₂ hos hmi
  exact ⟨o, ok, fun w hw => List.mem_flatMap.2 ⟨o, ho, Option.mem_toList.2 hw⟩⟩

theorem exists_of_mem {ws : List WrappedMethod}
    (h : ofMethods s t exports 0 t.methods = .ok ws) {w : WrappedMethod} (hw : w ∈ ws) :
    ∃ i m, t.methods[i]? = some m ∧ ofMethod s t exports i m = .ok (some w) := by
  obtain ⟨os, hos, rfl⟩ := forall₂_ofMethods h
  obtain ⟨o, ho, hw⟩ := List.mem_flatMap.1 hw
  obtain rfl := Option.mem_toList.1 hw
  obtain ⟨⟨m, i⟩, hm, ok⟩ := exists_left_of_forall₂ hos ho
  exact ⟨i, m, List.mem_zipIdx_iff_getElem?.1 hm, ok⟩

end WrappedMethod

end InteropGen
