import InteropGen.Proofs.Acceptance
import InteropGen.Proofs.Collecting
import InteropGen.Proofs.StructOrder
import InteropGen.Proofs.ValueTypes

set_option autoImplicit false

/-!
# The search for an order of structs

`Schema.Searches` is the search for an order without a counter that bounds it: what is left to do is
a list of errands, and each step deals with the first of them.  In a valid schema it ends, with the
result of `Schema.structOrder`, whatever embeds what.  An order lists every struct once, behind
those that its fields embed; a failure points at a struct that embeds itself or at a field that
holds no value.
-/

namespace InteropGen

inductive Errand where
  | visit (t : ApiType)
  | field (t : ApiType) (f : Field)
  /-- The fields of the struct are dealt with. -/
  | close (t : ApiType)

def Shape.errands : Shape → List Errand
  | .struct t => [.visit t]
  | _ => []

theorem Shape.errands_leaf {shape : Shape} (leaf : ∀ u, shape ≠ .struct u) :
    shape.errands = [] := by
  cases shape with
  | struct u => exact absurd rfl (leaf u)
  | void | primitive _ | text _ | enum _ | «class» _ _ | nullableValue _ | array _ => rfl

namespace Schema

/-- A search that goes down from struct to struct.  It keeps the names on the way down, the names
that are done with and the structs that have their place, and has the result at the end. -/
inductive Searches (s : Schema) : List String → List String → List ApiType → List Errand →
    Except Failure (List ApiType) → Prop
  | finished {path done : List String} {ordered : List ApiType} :
      Searches s path done ordered [] (.ok ordered)
  | placed {path done : List String} {ordered : List ApiType} {t : ApiType} {errands : List Errand}
      {r : Except Failure (List ApiType)} (known : t.name ∈ done)
      (rest : Searches s path done ordered errands r) :
      Searches s path done ordered (.visit t :: errands) r
  | recursive {path done : List String} {ordered : List ApiType} {t : ApiType}
      {errands : List Errand} (unplaced : t.name ∉ done) (again : t.name ∈ path) :
      Searches s path done ordered (.visit t :: errands) (.error (recursionFailure t))
  | entered {path done : List String} {ordered : List ApiType} {t : ApiType} {errands : List Errand}
      {r : Except Failure (List ApiType)} (unplaced : t.name ∉ done) (fresh : t.name ∉ path)
      (rest : Searches s (t.name :: path) done ordered
        (t.fields.map (.field t) ++ .close t :: errands) r) :
      Searches s path done ordered (.visit t :: errands) r
  /-- The last name on the way is taken back, whatever it is. -/
  | closed {path done : List String} {ordered : List ApiType} {t : ApiType} {name : String}
      {errands : List Errand} {r : Except Failure (List ApiType)}
      (rest : Searches s path (done ++ [t.name]) (ordered ++ [t]) errands r) :
      Searches s (name :: path) done ordered (.close t :: errands) r
  | held {path done : List String} {ordered : List ApiType} {t : ApiType} {f : Field}
      {shape : Shape} {errands : List Errand} {r : Except Failure (List ApiType)}
      (shape_ok : s.shapeOf f.type = .ok shape) (value : shape.IsValue)
      (rest : Searches s path done ordered (shape.errands ++ errands) r) :
      Searches s path done ordered (.field t f :: errands) r
  | refused {path done : List String} {ordered : List ApiType} {t : ApiType} {f : Field}
      {shape : Shape} {errands : List Errand} (shape_ok : s.shapeOf f.type = .ok shape)
      (other : ¬ shape.IsValue) :
      Searches s path done ordered (.field t f :: errands) (.error (fieldFailure t f))
  | unresolved {path done : List String} {ordered : List ApiType} {t : ApiType} {f : Field}
      {fault : TypeFault} {errands : List Errand} (failed : s.shapeOf f.type = .error fault) :
      Searches s path done ordered (.field t f :: errands) (.error (fault.failure .flat))

variable {s : Schema} {t u : ApiType} {f : Field} {path done : List String} {ordered : List ApiType}
  {errands : List Errand} {r r' : Except Failure (List ApiType)} {bound : Nat}
  {above : List ApiType} {e : Failure}

theorem Searches.unique (h : s.Searches path done ordered errands r)
    (h' : s.Searches path done ordered errands r') : r = r' := by
  induction h with
  | finished =>
    cases h'
    rfl
  | placed known _ ih =>
    cases h' with
    | placed _ rest => exact ih rest
    | recursive unplaced _ | entered unplaced _ _ => exact absurd known unplaced
  | recursive unplaced again =>
    cases h' with
    | placed known _ => exact absurd known unplaced
    | recursive _ _ => rfl
    | entered _ fresh _ => exact absurd again fresh
  | entered unplaced fresh _ ih =>
    cases h' with
    | placed known _ => exact absurd known unplaced
    | recursive _ again => exact absurd again fresh
    | entered _ _ rest => exact ih rest
  | closed _ ih =>
    cases h' with
    | closed rest => exact ih rest
  | held shape value _ ih =>
    cases h' with
    | held shape' _ rest =>
      cases shape.symm.trans shape'
      exact ih rest
    | refused shape' other =>
      cases shape.symm.trans shape'
      exact absurd value other
    | unresolved failed => cases shape.symm.trans failed
  | refused shape other =>
    cases h' with
    | held shape' value _ =>
      cases shape.symm.trans shape'
      exact absurd value other
    | refused _ _ => rfl
    | unresolved failed => cases shape.symm.trans failed
  | unresolved failed =>
    cases h' with
    | held shape _ _ | refused shape _ => cases shape.symm.trans failed
    | unresolved failed' =>
      cases failed.symm.trans failed'
      rfl

/-- The search goes on with what a step has placed, which is what is done with, or ends with its
failure. -/
def Continues (s : Schema) (path : List String) (placed : Except Failure (List ApiType))
    (errands : List Errand) (r : Except Failure (List ApiType)) : Prop :=
  match placed with
  | .ok ordered => s.Searches path (ordered.map ApiType.name) ordered errands r
  | .error e => r = .error e

theorem Continues.run {α : Type} {errand : α → Errand}
    {step : List ApiType → α → Except Failure (List ApiType)} {xs : List α}
    (each : ∀ x ∈ xs, ∀ ordered errands, s.Continues path (step ordered x) errands r →
      s.Searches path (ordered.map ApiType.name) ordered (errand x :: errands) r)
    (h : s.Continues path (xs.foldlM step ordered) errands r) :
    s.Searches path (ordered.map ApiType.name) ordered (xs.map errand ++ errands) r := by
  induction xs generalizing ordered with
  | nil => exact h
  | cons x xs ih =>
    refine each x List.mem_cons_self ordered _ ?_
    rw [List.foldlM_cons] at h
    cases hnext : step ordered x with
    | ok next =>
      rw [hnext] at h
      exact ih (fun y hy => each y (List.mem_cons_of_mem x hy)) h
    | error e =>
      rw [hnext] at h
      exact h

/-- A field sends the search on, if the struct that it may hold can be visited. -/
theorem searches_field
    (visit : ∀ u, s.shapeOf f.type = .ok (.struct u) →
      s.Continues path (s.place bound path ordered u) errands r →
      s.Searches path (ordered.map ApiType.name) ordered (.visit u :: errands) r)
    (h : s.Continues path (s.placeField bound path t ordered f) errands r) :
    s.Searches path (ordered.map ApiType.name) ordered (.field t f :: errands) r := by
  rcases s.placeField_cases bound path t ordered f with ⟨u, hshape, eq⟩ |
    ⟨shape, hshape, value, leaf, eq⟩ | ⟨shape, hshape, other, eq⟩ | ⟨fault, failed, eq⟩ <;>
    rw [eq] at h
  · exact .held hshape trivial (visit u hshape h)
  · exact .held hshape value (by rwa [Shape.errands_leaf leaf])
  · obtain rfl : r = .error (fieldFailure t f) := h
    exact .refused hshape other
  · obtain rfl : r = .error (fault.failure .flat) := h
    exact .unresolved failed

section Ends

variable (unique : (s.types.map ApiType.name).Nodup)

include unique

/-- The counter is never used up, so a visit searches as it would without one. -/
theorem searches_visit (way : s.IsWay bound above t)
    (h : s.Continues (above.map ApiType.name)
      (s.place bound (above.map ApiType.name) ordered t) errands r) :
    s.Searches (above.map ApiType.name) (ordered.map ApiType.name) ordered (.visit t :: errands)
      r := by
  -- On the counter; the fields of a struct are one run, on their list.
  induction bound generalizing above ordered t errands r with
  | zero => exact absurd way IsWay.not_zero
  | succ bound ih =>
    rw [place_succ] at h
    split at h
    · rename_i known
      exact .placed (any_key_iff.1 known) h
    · rename_i unplaced
      have unplaced := mt any_key_iff.2 unplaced
      split at h
      · rename_i again
        obtain rfl : r = .error (recursionFailure t) := h
        exact .recursive unplaced again
      · rename_i fresh
        have apart := mt (mem_names_iff unique way.structs way.struct).2 fresh
        have fields : s.Continues (t.name :: above.map ApiType.name)
            (t.fields.foldlM (s.placeField bound (t.name :: above.map ApiType.name) t) ordered)
            (.close t :: errands) r := by
          cases filled : t.fields.foldlM
              (s.placeField bound (t.name :: above.map ApiType.name) t) ordered with
          | ok placed =>
            rw [filled] at h
            refine Searches.closed ?_
            rw [← List.map_singleton, ← List.map_append]
            exact h
          | error e =>
            rw [filled] at h
            exact h
        refine .entered unplaced fresh (fields.run fun f hf ordered errands => ?_)
        exact searches_field fun u shape => ih (way.step apart ⟨f, hf, shape⟩)

theorem searches_structOrder :
    s.Searches [] [] [] (s.structs.map .visit) s.structOrder := by
  have whole : s.Continues [] s.structOrder [] s.structOrder := by
    cases s.structOrder with
    | ok order => exact Searches.finished
    | error e => exact rfl
  have visits (t : ApiType) (ht : t ∈ s.structs) (ordered : List ApiType) (errands : List Errand) :
      s.Continues [] (s.place (s.types.length + 1) [] ordered t) errands s.structOrder →
        s.Searches [] (ordered.map ApiType.name) ordered (.visit t :: errands) s.structOrder :=
    searches_visit unique (.start ht)
  have run := Continues.run visits whole
  rwa [List.append_nil] at run

theorem searches_iff : s.Searches [] [] [] (s.structs.map .visit) r ↔ r = s.structOrder :=
  ⟨fun h => h.unique (searches_structOrder unique), fun h => h ▸ searches_structOrder unique⟩

end Ends

inductive Obstructs (s : Schema) : Failure → Prop
  | recursion {t : ApiType} (struct : t ∈ s.structs) (loop : Relation.TransGen s.IsPart t t) :
      Obstructs s (recursionFailure t)
  | field {t : ApiType} {f : Field} {shape : Shape} (struct : t ∈ s.structs) (mem : f ∈ t.fields)
      (shape_ok : s.shapeOf f.type = .ok shape) (other : ¬ shape.IsValue) :
      Obstructs s (fieldFailure t f)
  | unresolved {t : ApiType} {f : Field} {fault : TypeFault} (struct : t ∈ s.structs)
      (mem : f ∈ t.fields) (failed : s.shapeOf f.type = .error fault) :
      Obstructs s (fault.failure .flat)

namespace Obstructs

variable {dialect : Dialect} {text : String}

theorem feature_mem {type : TypeRef} {fault : TypeFault} {feature : String}
    (failed : s.shapeOf type = .error fault)
    (eq : fault.failure .flat = .unsupportedType dialect feature text) :
    feature ∈ shapeRefusals := by
  cases fault with
  | unknown name => cases eq
  | unsupported feature refused =>
    obtain ⟨-, rfl, -⟩ := Failure.unsupportedType.inj eq
    exact mem_shapeRefusals failed

theorem of_recursion (h : s.Obstructs e)
    (eq : e = .unsupportedType dialect "recursive structs" text) :
    ∃ t ∈ s.structs, t.name = text ∧ Relation.TransGen s.IsPart t t := by
  cases h with
  | recursion struct loop => exact ⟨_, struct, (Failure.unsupportedType.inj eq).2.2, loop⟩
  | field _ _ _ _ => exact absurd (Failure.unsupportedType.inj eq).2.1 (by decide)
  | unresolved _ _ failed => exact absurd (feature_mem failed eq) (by decide)

theorem of_field (h : s.Obstructs e)
    (eq : e = .unsupportedType dialect "non-value struct fields" text) :
    ∃ t ∈ s.structs, ∃ f ∈ t.fields, t.name ++ "." ++ f.name ++ ": " ++ f.type.display = text ∧
      ∃ shape, s.shapeOf f.type = .ok shape ∧ ¬ shape.IsValue := by
  cases h with
  | recursion _ _ => exact absurd (Failure.unsupportedType.inj eq).2.1 (by decide)
  | field struct mem shape other =>
    exact ⟨_, struct, _, mem, (Failure.unsupportedType.inj eq).2.2, _, shape, other⟩
  | unresolved _ _ failed => exact absurd (feature_mem failed eq) (by decide)

end Obstructs

section Failures

variable (unique : (s.types.map ApiType.name).Nodup)

include unique

theorem obstructs_place (way : s.IsWay bound above t)
    (h : s.place bound (above.map ApiType.name) ordered t = .error e) : s.Obstructs e := by
  -- On the counter; a name that is on the way again belongs to a struct that leads down to itself.
  induction bound generalizing above ordered t with
  | zero => exact absurd way IsWay.not_zero
  | succ bound ih =>
    rw [place_succ] at h
    split at h
    · cases h
    · split at h
      · rename_i again
        cases h
        have above := (mem_names_iff unique way.structs way.struct).1 again
        exact .recursion way.struct (way.down t above)
      · rename_i fresh
        have apart := mt (mem_names_iff unique way.structs way.struct).2 fresh
        obtain ⟨f, hf, reached, failed⟩ := foldlM_error (map_eq_error.1 h)
        rcases s.placeField_cases bound (t.name :: above.map ApiType.name) t reached f with
          ⟨u, hshape, eq⟩ | ⟨_, _, _, _, eq⟩ | ⟨shape, hshape, other, eq⟩ | ⟨_, unresolved, eq⟩ <;>
          rw [eq] at failed
        · exact ih (way.step apart ⟨f, hf, hshape⟩) failed
        · cases failed
        · cases failed
          exact .field way.struct hf hshape other
        · cases failed
          exact .unresolved way.struct hf unresolved

theorem obstructs_structOrder (h : s.structOrder = .error e) : s.Obstructs e := by
  obtain ⟨t, ht, reached, failed⟩ := foldlM_error h
  exact obstructs_place unique (.start ht) failed

end Failures

/-- The search ends in every valid schema, and it sorts the structs topologically unless a field
holds no value or a struct embeds itself; its failures tell which. -/
theorem structOrder_isTopological (valid : s.validate = .ok ()) :
    (∀ r, s.Searches [] [] [] (s.structs.map .visit) r ↔ r = s.structOrder) ∧
    ((∃ order, s.structOrder = .ok order) ↔ s.EmbedsValues) ∧
    (∀ order, s.structOrder = .ok order → order.Perm s.structs ∧ order.Nodup ∧
      ∀ before t behind, order = before ++ t :: behind → ∀ u, s.IsPart u t → u ∈ before) ∧
    (∀ dialect text, s.structOrder = .error (.unsupportedType dialect "recursive structs" text) →
      ∃ t ∈ s.structs, t.name = text ∧ Relation.TransGen s.IsPart t t) ∧
    ∀ dialect text,
      s.structOrder = .error (.unsupportedType dialect "non-value struct fields" text) →
      ∃ t ∈ s.structs, ∃ f ∈ t.fields, t.name ++ "." ++ f.name ++ ": " ++ f.type.display = text ∧
        ∃ shape, s.shapeOf f.type = .ok shape ∧ ¬ shape.IsValue := by
  have unique := nodup_names_of_validate valid
  refine ⟨fun r => searches_iff unique, succeeds_structOrder_iff unique, fun order h => ?_,
    fun dialect text h => (obstructs_structOrder unique h).of_recursion rfl,
    fun dialect text h => (obstructs_structOrder unique h).of_field rfl⟩
  refine ⟨perm_structOrder unique h, nodup_structOrder h, fun before t behind split u part => ?_⟩
  exact (isOrdered_structOrder unique h).1.parts_before split part

def frames : Schema where
  types := [
    { name := "Frame", kind := .structType,
      fields := [⟨"Corner", .named "Point"⟩, ⟨"Width", .primitive .int⟩] },
    { name := "Point", kind := .structType, fields := [⟨"X", .primitive .int⟩] }]

def links : Schema where
  types := [
    { name := "Node", kind := .structType, fields := [⟨"Edge", .named "Link"⟩] },
    { name := "Link", kind := .structType, fields := [⟨"Target", .named "Node"⟩] }]

def labels : Schema where
  types := [{ name := "Label", kind := .structType, fields := [⟨"Text", .text⟩] }]

theorem structOrder_isTopological_frames :
    (frames.validate = .ok () ∧ frames.EmbedsValues ∧ ∃ order, frames.structOrder = .ok order ∧
      order.map ApiType.name = ["Point", "Frame"] ∧ order.Perm frames.structs) ∧
    (links.validate = .ok () ∧ ¬ links.EmbedsValues ∧
      links.Searches [] [] [] (links.structs.map .visit)
        (.error (.unsupportedType .flat "recursive structs" "Node")) ∧
      ∃ t ∈ links.structs, t.name = "Node" ∧ Relation.TransGen links.IsPart t t) ∧
    labels.validate = .ok () ∧
      labels.structOrder =
        .error (.unsupportedType .flat "non-value struct fields" "Label.Text: string") ∧
      ∃ t ∈ labels.structs, ∃ f ∈ t.fields, ∃ shape, labels.shapeOf f.type = .ok shape ∧
        ¬ shape.IsValue := by
  have frames_valid : frames.validate = .ok () := by decide
  have links_valid : links.validate = .ok () := by decide
  have labels_valid : labels.validate = .ok () := by decide
  have recursive : links.structOrder =
      .error (.unsupportedType .flat "recursive structs" "Node") := by decide
  have text : labels.structOrder =
      .error (.unsupportedType .flat "non-value struct fields" "Label.Text: string") := by decide
  obtain ⟨_, embeds, sorted, _, _⟩ := structOrder_isTopological frames_valid
  obtain ⟨ends, embedded, _, looped, _⟩ := structOrder_isTopological links_valid
  obtain ⟨_, _, _, _, other⟩ := structOrder_isTopological labels_valid
  refine ⟨⟨frames_valid, embeds.1 ⟨_, rfl⟩, _, rfl, rfl, (sorted _ rfl).1⟩,
    ⟨links_valid, fun holds => ?_, (ends _).2 recursive.symm, looped _ _ recursive⟩,
    labels_valid, text, ?_⟩
  · obtain ⟨order, ok⟩ := embedded.2 holds
    cases recursive.symm.trans ok
  · obtain ⟨t, ht, f, hf, _, shape⟩ := other _ _ text
    exact ⟨t, ht, f, hf, shape⟩

end Schema

end InteropGen
