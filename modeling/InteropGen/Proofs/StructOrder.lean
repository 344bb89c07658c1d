import Mathlib.Data.List.Nodup
import Mathlib.Data.List.Perm.Subperm
import Mathlib.Logic.Relation
import InteropGen.Proofs.Collecting
import InteropGen.Proofs.SpelledTypes
import InteropGen.ValueTypes.Embedding

set_option autoImplicit false

/-!
# Which structs have an order

Structs are placed by a search that goes down from each of them to its parts.  Every struct in an
order has its parts before it, so none is a part of itself; and where none is, the structs on the
way down are different ones, so that the search is never deeper than the list of types is long.
-/

namespace InteropGen

def Shape.IsValue : Shape → Prop
  | primitive _ | struct _ | enum _ => True
  | _ => False

namespace Schema

variable {s : Schema} {t u : ApiType} {ordered placed : List ApiType}

def IsPart (s : Schema) (u t : ApiType) : Prop :=
  ∃ f ∈ t.fields, s.shapeOf f.type = .ok (.struct u)

def HoldsValue (s : Schema) (f : Field) : Prop :=
  ∃ shape, s.shapeOf f.type = .ok shape ∧ shape.IsValue

/-- Structs hold values only, and no struct is a part of itself, through however many others. -/
structure EmbedsValues (s : Schema) : Prop where
  holdsValue : ∀ t ∈ s.structs, ∀ f ∈ t.fields, s.HoldsValue f
  acyclic : ∀ t ∈ s.structs, ¬ Relation.TransGen s.IsPart t t

/-- Lists of structs in which the parts of each stand before it. -/
inductive IsOrdered (s : Schema) : List ApiType → Prop
  | nil : IsOrdered s []
  | snoc {ordered : List ApiType} {t : ApiType} (before : IsOrdered s ordered)
      (struct : t ∈ s.structs) (values : ∀ f ∈ t.fields, s.HoldsValue f)
      (parts : ∀ u, s.IsPart u t → u ∈ ordered) : IsOrdered s (ordered ++ [t])

theorem isStruct_of_ofDeclared (h : Shape.ofDeclared t = .struct u) :
    t = u ∧ t.isStruct = true := by
  unfold Shape.ofDeclared at h
  split at h
  · cases h
  · rename_i kind
    cases h
    exact ⟨rfl, decide_eq_true kind⟩
  · cases h

theorem mem_structs_of_shapeOf {type : TypeRef} (h : s.shapeOf type = .ok (.struct t)) :
    t ∈ s.structs := by
  cases type with
  | named name =>
    rw [shapeOf] at h
    split at h
    · rename_i u hu
      obtain ⟨rfl, isStruct⟩ := isStruct_of_ofDeclared (Except.ok.inj h)
      exact List.mem_filter.2 ⟨mem_of_get? hu, isStruct⟩
    · cases h
  | nullable inner =>
    obtain ⟨shape, _, h⟩ := bind_eq_ok.1 h
    cases shape <;> cases h
  | array element =>
    obtain ⟨item, _, h⟩ := shapeOf_array h
    cases h
  | void | primitive _ | text | generic _ => cases h

theorem IsPart.mem_structs (h : s.IsPart u t) : u ∈ s.structs := by
  obtain ⟨f, _, shape⟩ := h
  exact mem_structs_of_shapeOf shape

theorem eq_of_name (unique : (s.types.map ApiType.name).Nodup) (ht : t ∈ s.types) (hu : u ∈ s.types)
    (same : t.name = u.name) : t = u := List.inj_on_of_nodup_map unique ht hu same

theorem mem_types_of_structs (h : t ∈ s.structs) : t ∈ s.types := (List.mem_filter.1 h).1

theorem mem_names_iff (unique : (s.types.map ApiType.name).Nodup) (sub : ordered ⊆ s.structs)
    (ht : t ∈ s.structs) : t.name ∈ ordered.map ApiType.name ↔ t ∈ ordered := by
  refine ⟨fun mem => ?_, List.mem_map_of_mem⟩
  obtain ⟨u, hu, same⟩ := List.mem_map.1 mem
  have eq := eq_of_name unique (mem_types_of_structs (sub hu)) (mem_types_of_structs ht) same
  exact eq ▸ hu

namespace IsOrdered

theorem subset_structs (h : s.IsOrdered ordered) : ordered ⊆ s.structs := by
  induction h with
  | nil => exact List.nil_subset _
  | snoc _ struct _ _ ih => exact List.append_subset.2 ⟨ih, by simpa using struct⟩

theorem holdsValue (h : s.IsOrdered ordered) : ∀ t ∈ ordered, ∀ f ∈ t.fields, s.HoldsValue f := by
  induction h with
  | nil => exact fun t ht => absurd ht List.not_mem_nil
  | snoc _ _ values _ ih =>
    intro t ht
    rcases List.mem_append.1 ht with ht | ht
    · exact ih t ht
    · rw [List.mem_singleton.1 ht]
      exact values

theorem parts_before (h : s.IsOrdered ordered) {before behind : List ApiType}
    (split : ordered = before ++ t :: behind) (part : s.IsPart u t) : u ∈ before := by
  induction h generalizing behind with
  | nil => simp at split
  | @snoc ordered last _ _ _ parts ih =>
    rcases List.eq_nil_or_concat behind with rfl | ⟨behind, final, rfl⟩
    · obtain ⟨rfl, same⟩ := List.append_inj' split rfl
      cases same
      exact parts u part
    · rw [List.concat_eq_append, ← List.cons_append, ← List.append_assoc] at split
      exact ih (List.append_inj' split rfl).1

/-- The way down through the parts of an ordered struct ends. -/
theorem acc (h : s.IsOrdered ordered) : ∀ t ∈ ordered, Acc s.IsPart t := by
  induction h with
  | nil => exact fun t ht => absurd ht List.not_mem_nil
  | snoc _ _ _ parts ih =>
    intro t ht
    rcases List.mem_append.1 ht with ht | ht
    · exact ih t ht
    · rw [List.mem_singleton.1 ht]
      exact .intro _ fun u hu => ih u (parts u hu)

theorem acyclic (h : s.IsOrdered ordered) (ht : t ∈ ordered) :
    ¬ Relation.TransGen s.IsPart t t := by
  have down : Acc (Relation.TransGen s.IsPart) t := (h.acc t ht).transGen
  clear ht
  induction down with
  | intro t _ ih => exact fun loop => ih t loop loop

end IsOrdered

def placeField (s : Schema) (bound : Nat) (path : List String) (t : ApiType)
    (ordered : List ApiType) (f : Field) : Except Failure (List ApiType) :=
  s.shape .flat f.type >>= fun
    | .struct inner => s.place bound path ordered inner
    | .primitive _ => .ok ordered
    | .enum _ => .ok ordered
    | _ => .error (fieldFailure t f)

theorem place_succ (bound : Nat) (path : List String) (ordered : List ApiType) (t : ApiType) :
    s.place (bound + 1) path ordered t =
      if ordered.any (·.name = t.name) then .ok ordered
      else if t.name ∈ path then .error (recursionFailure t)
      else (t.fields.foldlM (s.placeField bound (t.name :: path) t) ordered).map (· ++ [t]) := rfl

/-- A field that holds a struct places it, one that holds another value changes nothing, and the
others fail. -/
theorem placeField_cases (s : Schema) (bound : Nat) (path : List String) (t : ApiType)
    (ordered : List ApiType) (f : Field) :
    (∃ u, s.shapeOf f.type = .ok (.struct u) ∧
      s.placeField bound path t ordered f = s.place bound path ordered u) ∨
    (∃ shape, s.shapeOf f.type = .ok shape ∧ shape.IsValue ∧ (∀ u, shape ≠ .struct u) ∧
      s.placeField bound path t ordered f = .ok ordered) ∨
    (∃ shape, s.shapeOf f.type = .ok shape ∧ ¬ shape.IsValue ∧
      s.placeField bound path t ordered f = .error (fieldFailure t f)) ∨
    ∃ fault, s.shapeOf f.type = .error fault ∧
      s.placeField bound path t ordered f = .error (fault.failure .flat) := by
  unfold placeField Schema.shape
  cases s.shapeOf f.type with
  | error fault => exact .inr (.inr (.inr ⟨fault, rfl, rfl⟩))
  | ok shape =>
    cases shape with
    | struct u => exact .inl ⟨u, rfl, rfl⟩
    | primitive _ | enum _ => exact .inr (.inl ⟨_, rfl, trivial, fun _ h => (by cases h), rfl⟩)
    | void | text _ | «class» _ _ | nullableValue _ | array _ =>
      exact .inr (.inr (.inl ⟨_, rfl, id, rfl⟩))

theorem placeField_eq_ok {bound : Nat} {path : List String} {f : Field}
    (h : s.placeField bound path t ordered f = .ok placed) :
    (∃ u, s.shapeOf f.type = .ok (.struct u) ∧ s.place bound path ordered u = .ok placed) ∨
      ∃ shape, s.shapeOf f.type = .ok shape ∧ shape.IsValue ∧ (∀ u, shape ≠ .struct u) ∧
        placed = ordered := by
  rcases s.placeField_cases bound path t ordered f with ⟨u, hshape, eq⟩ |
    ⟨shape, hshape, value, leaf, eq⟩ | ⟨_, _, _, eq⟩ | ⟨_, _, eq⟩ <;> rw [eq] at h
  · exact .inl ⟨u, hshape, h⟩
  · exact .inr ⟨shape, hshape, value, leaf, (Except.ok.inj h).symm⟩
  · cases h
  · cases h

/-- A struct is placed under its name once, and none that is still on the way is. -/
theorem nodup_place {bound : Nat} {path : List String} (distinct : (ordered.map ApiType.name).Nodup)
    (h : s.place bound path ordered t = .ok placed) :
    (placed.map ApiType.name).Nodup ∧
      ∀ name ∈ path, name ∉ ordered.map ApiType.name → name ∉ placed.map ApiType.name := by
  -- On the counter: while the fields of `t` are dealt with, `t` is on the way itself.
  induction bound generalizing path ordered placed t with
  | zero => cases h
  | succ bound ih =>
    rw [place_succ] at h
    split at h
    · cases h
      exact ⟨distinct, fun _ _ fresh => fresh⟩
    · rename_i unplaced
      split at h
      · cases h
      · rename_i unnamed
        obtain ⟨filled, hfilled, rfl⟩ := map_eq_ok.1 h
        have fields := foldlM_invariant
          (I := fun acc => (acc.map ApiType.name).Nodup ∧ ∀ name ∈ t.name :: path,
            name ∉ ordered.map ApiType.name → name ∉ acc.map ApiType.name)
          (fun f _ acc acc' inv ok => by
            rcases placeField_eq_ok ok with ⟨u, _, ok⟩ | ⟨_, _, _, _, rfl⟩
            · obtain ⟨distinct', fresh'⟩ := ih inv.1 ok
              exact ⟨distinct', fun name hname fresh => fresh' name hname (inv.2 name hname fresh)⟩
            · exact inv)
          ⟨distinct, fun _ _ fresh => fresh⟩ hfilled
        obtain ⟨distinct', fresh'⟩ := fields
        have own : t.name ∉ ordered.map ApiType.name := mt any_key_iff.2 unplaced
        rw [List.map_append, List.map_singleton]
        refine ⟨?_, fun name hname fresh mem => ?_⟩
        · rw [← List.concat_eq_append]
          exact distinct'.concat (fresh' _ List.mem_cons_self own)
        · rcases List.mem_append.1 mem with mem | mem
          · exact fresh' name (List.mem_cons_of_mem _ hname) fresh mem
          · rw [List.mem_singleton] at mem
            exact unnamed (mem ▸ hname)

theorem nodup_structOrder {order : List ApiType} (h : s.structOrder = .ok order) :
    order.Nodup := by
  have names := foldlM_invariant (I := fun acc => (acc.map ApiType.name).Nodup)
    (fun t _ acc acc' distinct ok => (nodup_place distinct ok).1) List.Pairwise.nil h
  exact names.of_map

/-- Different structs, each a part of the next one, lead down to `t`, and with what the counter has
left they make up one more than there are types. -/
structure IsWay (s : Schema) (bound : Nat) (above : List ApiType) (t : ApiType) : Prop where
  struct : t ∈ s.structs
  structs : above ⊆ s.structs
  distinct : above.Nodup
  down : ∀ u ∈ above, Relation.TransGen s.IsPart t u
  room : s.types.length + 1 = bound + above.length

namespace IsWay

variable {bound : Nat} {above : List ApiType}

theorem start (ht : t ∈ s.structs) : s.IsWay (s.types.length + 1) [] t where
  struct := ht
  structs := List.nil_subset _
  distinct := .nil
  down := fun _ hu => absurd hu List.not_mem_nil
  room := rfl

theorem not_zero : ¬ s.IsWay 0 above t := by
  intro way
  have short : above.length ≤ s.types.length :=
    (List.subperm_of_subset way.distinct fun u hu =>
      mem_types_of_structs (way.structs hu)).length_le
  have room := way.room
  omega

theorem step (way : s.IsWay (bound + 1) above t) (fresh : t ∉ above) (part : s.IsPart u t) :
    s.IsWay bound (t :: above) u where
  struct := part.mem_structs
  structs := List.cons_subset.2 ⟨way.struct, way.structs⟩
  distinct := List.nodup_cons.2 ⟨fresh, way.distinct⟩
  down := List.forall_mem_cons.2 ⟨.single part, fun w hw => .head part (way.down w hw)⟩
  room := by
    have room := way.room
    rw [List.length_cons]
    omega

end IsWay

section Orders

variable (unique : (s.types.map ApiType.name).Nodup)

include unique

/-- Whatever the search places, it keeps the order and adds the struct it was sent for. -/
theorem isOrdered_place {bound : Nat} {path : List String} (ht : t ∈ s.structs)
    (before : s.IsOrdered ordered) (h : s.place bound path ordered t = .ok placed) :
    s.IsOrdered placed ∧ ordered ⊆ placed ∧ t ∈ placed := by
  -- On the counter; the run over the fields of a struct carries the order along.
  induction bound generalizing path ordered placed t with
  | zero => cases h
  | succ bound ih =>
    rw [place_succ] at h
    split at h
    · rename_i named
      cases h
      exact ⟨before, List.Subset.refl _, (mem_names_iff unique before.subset_structs ht).1
        (any_key_iff.1 named)⟩
    · split at h
      · cases h
      · obtain ⟨filled, hfilled, rfl⟩ := map_eq_ok.1 h
        -- A field is dealt with once its part is placed.
        have fields := foldlM_grows (I := s.IsOrdered)
          (Q := fun f acc => s.HoldsValue f ∧ ∀ u, s.shapeOf f.type = .ok (.struct u) → u ∈ acc)
          (fun f acc acc' sub reached => ⟨reached.1, fun u hu => sub (reached.2 u hu)⟩)
          (fun f _ acc acc' inv ok => by
            rcases placeField_eq_ok ok with ⟨u, hu, ok⟩ | ⟨shape, hshape, value, other, rfl⟩
            · obtain ⟨inv', sub, mem⟩ := ih (mem_structs_of_shapeOf hu) inv ok
              refine ⟨inv', sub, ⟨_, hu, trivial⟩, fun v hv => ?_⟩
              rw [hu] at hv
              cases hv
              exact mem
            · refine ⟨inv, List.Subset.refl _, ⟨shape, hshape, value⟩, fun v hv => ?_⟩
              rw [hshape] at hv
              exact absurd (Except.ok.inj hv) (other v))
          before hfilled
        obtain ⟨inv, sub, all⟩ := fields
        refine ⟨inv.snoc ht (fun f hf => (all f hf).1) ?_, List.subset_append_of_subset_left _ sub,
          List.mem_append_right _ List.mem_cons_self⟩
        rintro u ⟨f, hf, hu⟩
        exact (all f hf).2 u hu

theorem isOrdered_structOrder {order : List ApiType} (h : s.structOrder = .ok order) :
    s.IsOrdered order ∧ s.structs ⊆ order := by
  have run := foldlM_grows (I := s.IsOrdered) (Q := fun t acc => t ∈ acc)
    (fun t acc acc' sub mem => sub mem)
    (fun t ht acc acc' inv ok => isOrdered_place unique ht inv ok) .nil h
  exact ⟨run.1, run.2.2⟩

theorem perm_structOrder {order : List ApiType} (h : s.structOrder = .ok order) :
    order.Perm s.structs := by
  have structs : s.structs.Nodup := (List.Nodup.of_map _ unique).filter _
  obtain ⟨isOrdered, all⟩ := isOrdered_structOrder unique h
  refine (List.perm_ext_iff_of_nodup (nodup_structOrder h) structs).2 fun t => ?_
  exact ⟨fun ht => isOrdered.subset_structs ht, fun ht => all ht⟩

theorem embedsValues_of_structOrder {order : List ApiType} (h : s.structOrder = .ok order) :
    s.EmbedsValues := by
  obtain ⟨isOrdered, all⟩ := isOrdered_structOrder unique h
  exact ⟨fun t ht => isOrdered.holdsValue t (all ht), fun t ht => isOrdered.acyclic (all ht)⟩

/-- Structs that lead down to `t` are different ones, so `t` is found before the counter ends. -/
theorem succeeds_place (embeds : s.EmbedsValues) {bound : Nat} {above : List ApiType}
    (way : s.IsWay bound above t) (ordered : List ApiType) :
    Succeeds (s.place bound (above.map ApiType.name) ordered t) := by
  -- On the counter, for which `above` makes up: at zero there would be more structs than types.
  induction bound generalizing above ordered t with
  | zero => exact absurd way IsWay.not_zero
  | succ bound ih =>
    have fresh : t ∉ above := fun mem => embeds.acyclic t way.struct (way.down t mem)
    rw [place_succ, if_neg (mt (mem_names_iff unique way.structs way.struct).1 fresh)]
    split
    · exact .ok ordered
    · refine (foldlM_succeeds (fun f hf acc => ?_) ordered).map _
      obtain ⟨shape, hshape, value⟩ := embeds.holdsValue t way.struct f hf
      rcases s.placeField_cases bound (t.name :: above.map ApiType.name) t acc f with
        ⟨u, hu, eq⟩ | ⟨_, _, _, _, eq⟩ | ⟨_, other_ok, other, _⟩ | ⟨_, failed, _⟩
      · exact eq ▸ ih (way.step fresh ⟨f, hf, hu⟩) acc
      · exact eq ▸ .ok acc
      · cases hshape.symm.trans other_ok
        exact absurd value other
      · cases hshape.symm.trans failed

theorem succeeds_structOrder_iff : Succeeds s.structOrder ↔ s.EmbedsValues := by
  constructor
  · rintro ⟨order, h⟩
    exact embedsValues_of_structOrder unique h
  · intro embeds
    exact foldlM_succeeds (fun t ht acc => succeeds_place unique embeds (.start ht) acc) []

end Orders

end Schema

end InteropGen
