import InteropGen.Proofs.Success
import InteropGen.Schema.Document

set_option autoImplicit false

/-!
# Types that are read from text

A type reference that is read from a text names identifiers only, and never a keyword.  All type
references of a schema that is loaded are read from texts.
-/

namespace InteropGen

namespace TypeRef

/-- Every name in the reference is an identifier and no keyword. -/
def HasNames : TypeRef → Prop
  | named name => Text.isIdentifier name.toList = true ∧ name ≠ "void" ∧ name ≠ "string"
  | nullable inner => inner.HasNames
  | array element => element.HasNames
  | _ => True

/-- The reference has been read from a text. -/
def IsWritten (type : TypeRef) : Prop := ∃ text, parse text = .ok type

variable {type : TypeRef}

theorem hasNames_ofStem {stem : List Char} (h : ofStem stem = .ok type) : type.HasNames := by
  simp only [ofStem] at h
  split at h
  · split at h <;> cases h
    trivial
  · split at h
    · cases h
      trivial
    · rename_i notVoid
      split at h
      · cases h
        trivial
      · rename_i notText
        split at h
        · cases h
          trivial
        · split at h
          · rename_i identifier
            cases h
            exact ⟨by rwa [String.toList_ofList], notVoid, notText⟩
          · cases h

theorem blame_eq_ok {reversed : List Char} {result : Except Fault TypeRef} :
    blame reversed result = .ok type ↔ result = .ok type := by
  cases result <;> simp [blame]

theorem hasNames_parseReversed {reversed : List Char} (h : parseReversed reversed = .ok type) :
    type.HasNames := by
  fun_induction parseReversed reversed generalizing type with
  | case1 => cases h
  | case2 rest ih =>
    obtain ⟨inner, hinner, h⟩ := bind_eq_ok.1 h
    have names := ih hinner
    have ok := blame_eq_ok.1 h
    cases inner <;> cases ok <;> exact names
  | case3 c rest notArray blank ih => exact ih h
  | case4 rest notArray notBlank ih =>
    obtain ⟨inner, hinner, h⟩ := bind_eq_ok.1 h
    have names := ih hinner
    have ok := blame_eq_ok.1 h
    cases inner <;> cases ok <;> exact names
  | case5 c rest notArray notBlank notQuestion => exact hasNames_ofStem (blame_eq_ok.1 h)

theorem IsWritten.hasNames (h : type.IsWritten) : type.HasNames := by
  obtain ⟨text, h⟩ := h
  exact hasNames_parseReversed h

theorem isWritten_void : IsWritten .void := ⟨"void", by decide⟩

theorem isWritten_ofData? {d : Data} (h : ofData? d = some type) : type.IsWritten := by
  obtain ⟨text, _, h⟩ := Option.bind_eq_some_iff.1 h
  refine ⟨text, ?_⟩
  cases parsed : parse text with
  | ok read =>
    rw [parsed] at h
    cases h
    rfl
  | error fault =>
    rw [parsed] at h
    cases h

end TypeRef

structure ApiType.IsWritten (t : ApiType) : Prop where
  properties : ∀ p ∈ t.properties, p.type.IsWritten
  returns : ∀ m ∈ t.methods, m.returns.IsWritten
  parameters : ∀ m ∈ t.methods, ∀ p ∈ m.parameters, p.type.IsWritten
  events : ∀ e ∈ t.events, ∀ type ∈ e.data, type.IsWritten
  fields : ∀ f ∈ t.fields, f.type.IsWritten

def Schema.IsWritten (s : Schema) : Prop := ∀ t ∈ s.types, t.IsWritten

namespace Data

variable {α : Type} {read : Data → Option α} {P : α → Prop}

theorem forall_of_mapM (all : ∀ d x, read d = some x → P x) {items : List Data} {xs : List α}
    (h : items.mapM read = some xs) : ∀ x ∈ xs, P x := by
  induction items generalizing xs with
  | nil =>
    cases h
    exact fun x hx => absurd hx List.not_mem_nil
  | cons item items ih =>
    rw [List.mapM_cons] at h
    obtain ⟨y, hy, h⟩ := Option.bind_eq_some_iff.1 h
    obtain ⟨ys, hys, h⟩ := Option.bind_eq_some_iff.1 h
    cases h
    exact List.forall_mem_cons.2 ⟨all item y hy, ih hys⟩

theorem forall_of_listOf (all : ∀ d x, read d = some x → P x) {d : Data} {xs : List α}
    (h : listOf read d = some xs) : ∀ x ∈ xs, P x := by
  obtain ⟨items, _, h⟩ := Option.bind_eq_some_iff.1 h
  exact forall_of_mapM all h

theorem of_orDefault {default x : α} (hdefault : P default) (all : ∀ d x, read d = some x → P x)
    {d : Option Data} (h : orDefault default read d = some x) : P x := by
  cases d with
  | none =>
    cases h
    exact hdefault
  | some d => exact all d x h

theorem of_optional (all : ∀ d x, read d = some x → P x) {d : Option Data} {x : Option α}
    (h : optional read d = some x) : ∀ y ∈ x, P y := by
  intro y hy
  rw [Option.mem_def] at hy
  subst hy
  cases d with
  | none => cases h
  | some d =>
    cases d with
    | absent => cases h
    | _ =>
      obtain ⟨z, hz, h⟩ := Option.map_eq_some_iff.1 h
      cases h
      exact all _ _ hz

theorem forall_of_list (all : ∀ d x, read d = some x → P x) {d : Option Data} {xs : List α}
    (h : orDefault [] (listOf read) d = some xs) : ∀ x ∈ xs, P x :=
  of_orDefault (P := fun xs => ∀ x ∈ xs, P x) (fun _ hx => absurd hx List.not_mem_nil)
    (fun _ _ h => forall_of_listOf all h) h

end Data

section Documents

variable {rules : FormatRules} {d : Data}

theorem Property.isWritten_ofData? {p : Property} (h : ofData? rules d = some p) :
    p.type.IsWritten := by
  obtain ⟨field, _, h⟩ := Option.bind_eq_some_iff.1 h
  obtain ⟨name, _, h⟩ := Option.bind_eq_some_iff.1 h
  obtain ⟨type, htype, h⟩ := Option.bind_eq_some_iff.1 h
  obtain ⟨isStatic, _, h⟩ := Option.bind_eq_some_iff.1 h
  obtain ⟨get, _, h⟩ := Option.bind_eq_some_iff.1 h
  obtain ⟨set, _, h⟩ := Option.bind_eq_some_iff.1 h
  obtain ⟨text, _, htype⟩ := Option.bind_eq_some_iff.1 htype
  cases h
  exact TypeRef.isWritten_ofData? htype

theorem Parameter.isWritten_ofData? {p : Parameter} (h : ofData? rules d = some p) :
    p.type.IsWritten := by
  obtain ⟨field, _, h⟩ := Option.bind_eq_some_iff.1 h
  obtain ⟨name, _, h⟩ := Option.bind_eq_some_iff.1 h
  obtain ⟨type, htype, h⟩ := Option.bind_eq_some_iff.1 h
  obtain ⟨text, _, htype⟩ := Option.bind_eq_some_iff.1 htype
  cases h
  exact TypeRef.isWritten_ofData? htype

theorem Field.isWritten_ofData? {f : Field} (h : ofData? rules d = some f) :
    f.type.IsWritten := by
  obtain ⟨field, _, h⟩ := Option.bind_eq_some_iff.1 h
  obtain ⟨name, _, h⟩ := Option.bind_eq_some_iff.1 h
  obtain ⟨type, htype, h⟩ := Option.bind_eq_some_iff.1 h
  obtain ⟨text, _, htype⟩ := Option.bind_eq_some_iff.1 htype
  cases h
  exact TypeRef.isWritten_ofData? htype

theorem Method.isWritten_ofData? {m : Method} (h : ofData? rules d = some m) :
    m.returns.IsWritten ∧ ∀ p ∈ m.parameters, p.type.IsWritten := by
  obtain ⟨field, _, h⟩ := Option.bind_eq_some_iff.1 h
  obtain ⟨name, _, h⟩ := Option.bind_eq_some_iff.1 h
  obtain ⟨returns, hreturns, h⟩ := Option.bind_eq_some_iff.1 h
  obtain ⟨parameters, hparameters, h⟩ := Option.bind_eq_some_iff.1 h
  obtain ⟨isStatic, _, h⟩ := Option.bind_eq_some_iff.1 h
  cases h
  exact ⟨Data.of_orDefault TypeRef.isWritten_void (fun _ _ h => TypeRef.isWritten_ofData? h) hreturns,
    Data.forall_of_list (fun _ _ h => Parameter.isWritten_ofData? h) hparameters⟩

theorem Event.isWritten_ofData? {e : Event} (h : ofData? rules d = some e) :
    ∀ type ∈ e.data, type.IsWritten := by
  obtain ⟨field, _, h⟩ := Option.bind_eq_some_iff.1 h
  obtain ⟨name, _, h⟩ := Option.bind_eq_some_iff.1 h
  obtain ⟨data, hdata, h⟩ := Option.bind_eq_some_iff.1 h
  obtain ⟨cancellable, _, h⟩ := Option.bind_eq_some_iff.1 h
  cases h
  exact Data.of_optional (fun _ _ h => TypeRef.isWritten_ofData? h) hdata

theorem ApiType.isWritten_ofData? {t : ApiType} (h : ofData? rules d = some t) : t.IsWritten := by
  obtain ⟨field, _, h⟩ := Option.bind_eq_some_iff.1 h
  obtain ⟨name, _, h⟩ := Option.bind_eq_some_iff.1 h
  obtain ⟨kind, _, h⟩ := Option.bind_eq_some_iff.1 h
  obtain ⟨isAbstract, _, h⟩ := Option.bind_eq_some_iff.1 h
  obtain ⟨flags, _, h⟩ := Option.bind_eq_some_iff.1 h
  obtain ⟨managedServer, _, h⟩ := Option.bind_eq_some_iff.1 h
  obtain ⟨base, _, h⟩ := Option.bind_eq_some_iff.1 h
  obtain ⟨constructor, _, h⟩ := Option.bind_eq_some_iff.1 h
  obtain ⟨destructor, _, h⟩ := Option.bind_eq_some_iff.1 h
  obtain ⟨properties, hproperties, h⟩ := Option.bind_eq_some_iff.1 h
  obtain ⟨methods, hmethods, h⟩ := Option.bind_eq_some_iff.1 h
  obtain ⟨events, hevents, h⟩ := Option.bind_eq_some_iff.1 h
  obtain ⟨fields, hfields, h⟩ := Option.bind_eq_some_iff.1 h
  obtain ⟨variants, _, h⟩ := Option.bind_eq_some_iff.1 h
  cases h
  have written := Data.forall_of_list (fun _ _ h => Method.isWritten_ofData? h) hmethods
  exact {
    properties := Data.forall_of_list (fun _ _ h => Property.isWritten_ofData? h) hproperties
    returns := fun m hm => (written m hm).1
    parameters := fun m hm => (written m hm).2
    events := Data.forall_of_list (fun _ _ h => Event.isWritten_ofData? h) hevents
    fields := Data.forall_of_list (fun _ _ h => Field.isWritten_ofData? h) hfields }

theorem ApiType.IsWritten.own {t : ApiType} (h : t.IsWritten) : t.own.IsWritten where
  properties := by
    intro p hp
    obtain ⟨q, hq, rfl⟩ := List.mem_map.1 hp
    exact h.properties q hq
  returns := by
    intro m hm
    obtain ⟨n, hn, rfl⟩ := List.mem_map.1 hm
    exact h.returns n hn
  parameters := by
    intro m hm
    obtain ⟨n, hn, rfl⟩ := List.mem_map.1 hm
    exact h.parameters n hn
  events := h.events
  fields := h.fields

/-- All type references of a loaded schema have been read from texts. -/
theorem Schema.isWritten_of_load {format : Format} {text : String} {s : Schema}
    (h : load format text = .ok s) : s.IsWritten := by
  obtain ⟨raw, hraw, h⟩ := bind_eq_ok.1 h
  obtain ⟨_, _, rfl⟩ := map_eq_ok.1 h
  rw [parse] at hraw
  split at hraw
  · rename_i read hread
    cases hraw
    obtain ⟨d, _, hread⟩ := Option.bind_eq_some_iff.1 hread
    obtain ⟨field, _, hread⟩ := Option.bind_eq_some_iff.1 hread
    obtain ⟨types, htypes, hread⟩ := Option.bind_eq_some_iff.1 hread
    cases hread
    intro t ht
    obtain ⟨u, hu, rfl⟩ := List.mem_map.1 ht
    exact (Data.forall_of_list (fun _ _ h => ApiType.isWritten_ofData? h) htypes u hu).own
  · cases hraw

end Documents

end InteropGen
