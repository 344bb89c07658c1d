import Mathlib.Algebra.Group.Nat.Defs
import Mathlib.Data.List.Nodup
import Mathlib.Data.List.Range
import InteropGen.Bridge.Handles
import InteropGen.Proofs.Observations

set_option autoImplicit false

/-!
# Histories of instance handles

Handles are numbered from one in the order in which they are given out.  As long as the numbers
last, no handle is given out twice, so what is found under a handle is told by the history: the
instance that was pinned under it, until the handle is released.
-/

namespace InteropGen

variable {α : Type}

inductive HandleCall (α : Type) where
  | pin (value : α)
  | resolve (handle : Handle)
  | release (handle : Handle)

inductive HandleAnswer (α : Type) where
  | pinned (handle : Handle)
  | resolved (result : Except BridgeError α)
  | released (value : Option α)

/-- A call, its answer, and how many instances are pinned after it. -/
structure HandleRecord (α : Type) where
  call : HandleCall α
  answer : HandleAnswer α
  size : Nat

theorem Handle.ext {g g' : Handle} (same : g.id = g'.id) : g = g' := by
  cases g
  cases g'
  cases same
  rfl

namespace HandleCall

def perform (hs : Handles α) : HandleCall α → HandleAnswer α × Handles α
  | .pin value => (.pinned (hs.pin value).1, (hs.pin value).2)
  | .resolve g => (.resolved (hs.resolve g), hs)
  | .release g => (.released (hs.release g).1, (hs.release g).2)

def isPin : HandleCall α → Bool
  | .pin _ => true
  | _ => false

def value? : HandleCall α → Option α
  | .pin value => some value
  | _ => none

def releases (g : Handle) : HandleCall α → Bool
  | .release other => other = g
  | _ => false

@[simp] theorem releases_eq_true {g : Handle} {call : HandleCall α} :
    call.releases g = true ↔ call = .release g := by
  cases call <;> simp [releases]

end HandleCall

namespace Handles

def recordCall (call : HandleCall α) (hs : Handles α) : HandleRecord α × Handles α :=
  (⟨call, (call.perform hs).1, (call.perform hs).2.size⟩, (call.perform hs).2)

def history (calls : List (HandleCall α)) : List (HandleRecord α) :=
  observations recordCall {} calls

end Handles

namespace HandleRecord

def issued? (r : HandleRecord α) : Option Handle :=
  match r.answer with
  | .pinned g => some g
  | _ => none

/-- What is pinned under a handle after the call. -/
def effect (g : Handle) (kept : Option α) (r : HandleRecord α) : Option α :=
  if r.issued? = some g then r.call.value? else if r.call.releases g then none else kept

end HandleRecord

namespace HandleHistory

variable {h before between after : List (HandleRecord α)} {r : HandleRecord α} {g : Handle} {v : α}

def issued (h : List (HandleRecord α)) : List Handle := h.filterMap HandleRecord.issued?

def value? (h : List (HandleRecord α)) (g : Handle) : Option α :=
  h.foldl (HandleRecord.effect g) none

/-- The handle was given out for the instance and not released since. -/
def Held (h : List (HandleRecord α)) (g : Handle) (v : α) : Prop :=
  ∃ before n after, h = before ++ ⟨.pin v, .pinned g, n⟩ :: after ∧
    ∀ r ∈ after, r.call ≠ .release g

def Numbered (h : List (HandleRecord α)) : Prop :=
  (issued h).map (fun g => g.id.toNat) = List.range' 1 (issued h).length

/-- What the calls find under the handles: instances that are pinned are found until they are
released, and handles are never used again. -/
structure NeverAliases (h : List (HandleRecord α)) : Prop where
  distinct : (issued h).Nodup
  nonzero : ∀ g ∈ issued h, g.id ≠ 0
  held : ∀ (before between : List (HandleRecord α)) (m : HandleRecord α) (v : α) (g : Handle)
      (n : Nat),
    before ++ ⟨.pin v, .pinned g, n⟩ :: between ++ [m] <+: h →
      (∀ r ∈ between, r.call ≠ .release g) →
        (m.call = .resolve g → m.answer = .resolved (.ok v)) ∧
          (m.call = .release g → m.answer = .released (some v))
  released : ∀ (before between : List (HandleRecord α)) (r m : HandleRecord α) (g : Handle),
    before ++ r :: between ++ [m] <+: h → g ∈ issued before → r.call = .release g →
      (m.call = .resolve g → m.answer = .resolved (.error (.staleHandle g.id))) ∧
        (m.call = .release g → m.answer = .released none)
  unknown : ∀ (before : List (HandleRecord α)) (m : HandleRecord α) (g : Handle),
    before ++ [m] <+: h → g ∉ issued before →
    (m.call = .resolve g → m.answer = .resolved (.error (.staleHandle g.id))) ∧
      (m.call = .release g → m.answer = .released none)
  counted : ∀ (before : List (HandleRecord α)) (r : HandleRecord α), before ++ [r] <+: h →
    ∃ all : List Handle, all.Nodup ∧ (∀ g, g ∈ all ↔ ∃ v, Held (before ++ [r]) g v) ∧
      r.size = all.length

@[simp] theorem issued_append : issued (before ++ after) = issued before ++ issued after :=
  List.filterMap_append

theorem value?_append : value? (before ++ after) g =
    after.foldl (HandleRecord.effect g) (value? before g) :=
  List.foldl_append

theorem value?_concat : value? (h ++ [r]) g = r.effect g (value? h g) := value?_append

theorem mem_issued_of_mem (mem : r ∈ h) (given : r.issued? = some g) : g ∈ issued h :=
  List.mem_filterMap.2 ⟨r, mem, given⟩

theorem issued_sublist (earlier : before <+: h) : (issued before).Sublist (issued h) :=
  (earlier.filterMap _).sublist

/-! ### What the history tells about a handle -/

theorem effect_of_issued {kept : Option α} (given : r.issued? = some g) :
    r.effect g kept = r.call.value? :=
  if_pos given

theorem effect_of_unissued {kept : Option α} (unissued : r.issued? ≠ some g) :
    r.effect g kept = if r.call.releases g then none else kept :=
  if_neg unissued

theorem foldl_effect_none (unissued : g ∉ issued after) :
    after.foldl (HandleRecord.effect g) none = (none : Option α) := by
  induction after with
  | nil => rfl
  | cons r after ih =>
    have first : r.issued? ≠ some g :=
      fun given => unissued (mem_issued_of_mem List.mem_cons_self given)
    rw [List.foldl_cons, effect_of_unissued first, ite_self]
    refine ih fun later => unissued ?_
    obtain ⟨r', mem, given⟩ := List.mem_filterMap.1 later
    exact mem_issued_of_mem (List.mem_cons_of_mem r mem) given

theorem foldl_effect_kept {kept : Option α} (unissued : g ∉ issued after)
    (unreleased : ∀ r ∈ after, r.call ≠ .release g) :
    after.foldl (HandleRecord.effect g) kept = kept := by
  induction after with
  | nil => rfl
  | cons r after ih =>
    have first : r.issued? ≠ some g :=
      fun given => unissued (mem_issued_of_mem List.mem_cons_self given)
    have kept : ¬ r.call.releases g = true := by
      rw [HandleCall.releases_eq_true]
      exact unreleased r List.mem_cons_self
    rw [List.foldl_cons, effect_of_unissued first, if_neg kept]
    refine ih (fun later => unissued ?_) fun r' mem => unreleased r' (List.mem_cons_of_mem r mem)
    obtain ⟨r', mem, given⟩ := List.mem_filterMap.1 later
    exact mem_issued_of_mem (List.mem_cons_of_mem r mem) given

theorem value?_of_unissued (unissued : g ∉ issued h) : value? h g = none :=
  foldl_effect_none unissued

theorem value?_of_held (distinct : (issued h).Nodup) (held : Held h g v) : value? h g = some v := by
  obtain ⟨before, n, after, rfl, unreleased⟩ := held
  have unissued : g ∉ issued after := by
    rw [issued_append, List.nodup_append] at distinct
    exact (List.nodup_cons.1 distinct.2.1).1
  rw [value?_append, List.foldl_cons, foldl_effect_kept unissued unreleased]
  exact effect_of_issued rfl

theorem held_of_value? (found : value? h g = some v) : Held h g v := by
  induction h using List.reverseRecOn with
  | nil => cases found
  | append_singleton h r ih =>
    rw [value?_concat, HandleRecord.effect] at found
    split at found
    · rename_i given
      obtain ⟨call, answer, n⟩ := r
      cases answer <;> cases given
      cases call <;> cases found
      exact ⟨h, n, [], rfl, fun _ mem => nomatch mem⟩
    · split at found
      · cases found
      · rename_i _ kept
        obtain ⟨before, n, after, rfl, unreleased⟩ := ih found
        refine ⟨before, n, after ++ [r], by rw [List.append_assoc, List.cons_append], ?_⟩
        intro r' mem
        rcases List.mem_append.1 mem with mem | mem
        · exact unreleased r' mem
        · rw [List.mem_singleton.1 mem]
          rwa [HandleCall.releases_eq_true] at kept

theorem value?_of_released (distinct : (issued (before ++ r :: between)).Nodup)
    (given : g ∈ issued before) (releases : r.call = .release g) :
    value? (before ++ r :: between) g = none := by
  rw [issued_append, List.nodup_append] at distinct
  -- The handle was given out before, so it is not given out again behind the release.
  have later : g ∉ issued (r :: between) := fun again => distinct.2.2 g given g again rfl
  have first : r.issued? ≠ some g := fun again => later (mem_issued_of_mem List.mem_cons_self again)
  have rest : g ∉ issued between := fun again => by
    obtain ⟨r', mem, given⟩ := List.mem_filterMap.1 again
    exact later (mem_issued_of_mem (List.mem_cons_of_mem r mem) given)
  rw [value?_append, List.foldl_cons, effect_of_unissued first,
    if_pos (HandleCall.releases_eq_true.2 releases)]
  exact foldl_effect_none rest

/-! ### Numbers -/

theorem Numbered.nodup (numbered : Numbered h) : (issued h).Nodup := by
  refine List.Nodup.of_map (fun g => g.id.toNat) ?_
  rw [numbered]
  exact List.nodup_range'

theorem Numbered.append_issued (numbered : Numbered h) (given : r.issued? = some g)
    (number : g.id.toNat = (issued h).length + 1) : Numbered (h ++ [r]) := by
  have last : issued [r] = [g] := by simp [issued, given]
  rw [Numbered, issued_append, last, List.map_append, numbered, List.length_append,
    List.length_singleton, List.range'_concat]
  simp [number, Nat.add_comm]

theorem Numbered.append_other (numbered : Numbered h) (other : r.issued? = none) :
    Numbered (h ++ [r]) := by
  have last : issued [r] = [] := by simp [issued, other]
  rwa [Numbered, issued_append, last, List.append_nil]

def resolution (g : Handle) : Option α → Except BridgeError α
  | some v => .ok v
  | none => .error (.staleHandle g.id)

/-- The record follows from the history before it. -/
structure Follows (h : List (HandleRecord α)) (r : HandleRecord α) : Prop where
  numbered : Numbered (h ++ [r])
  resolved : ∀ g, r.call = .resolve g → r.answer = .resolved (resolution g (value? h g))
  released : ∀ g, r.call = .release g → r.answer = .released (value? h g)
  counted : r.size = ((issued (h ++ [r])).filter fun g => (value? (h ++ [r]) g).isSome).length

end HandleHistory

open HandleHistory

namespace Handles

variable {hs : Handles α} {h : List (HandleRecord α)} {g : Handle}

structure Remembers (hs : Handles α) (h : List (HandleRecord α)) : Prop where
  next : hs.next.toNat = ((issued h).length + 1) % 2 ^ 64
  values : ∀ g : Handle, hs.pinned.lookup g.id = HandleHistory.value? h g
  distinct : (hs.pinned.map Prod.fst).Nodup
  known : ∀ id ∈ hs.pinned.map Prod.fst, ∃ g ∈ issued h, g.id = id
  numbered : Numbered h

theorem lookup_without {id other : UInt64} :
    (hs.without id).lookup other = if other = id then none else hs.pinned.lookup other := by
  obtain ⟨next, pinned⟩ := hs
  simp only [without]
  induction pinned with
  | nil => simp
  | cons p pinned ih =>
    obtain ⟨k, v⟩ := p
    by_cases dropped : k = id
    · subst dropped
      rw [List.filter_cons_of_neg (by simp), ih]
      by_cases same : other = k
      · rw [if_pos same, if_pos same]
      · rw [if_neg same, if_neg same, List.lookup_cons, beq_false_of_ne same]
    · rw [List.filter_cons_of_pos (by simpa using dropped), List.lookup_cons, List.lookup_cons, ih]
      by_cases same : other = k
      · subst same
        rw [beq_self_eq_true]
        exact (if_neg dropped).symm
      · rw [beq_false_of_ne same]

theorem isSome_lookup_iff {id : UInt64} :
    (hs.pinned.lookup id).isSome ↔ id ∈ hs.pinned.map Prod.fst := by
  rw [← not_iff_not, Option.not_isSome_iff_eq_none, List.lookup_eq_none_iff]
  simp only [List.mem_map, not_exists, not_and, bne_iff_ne, ne_eq]
  exact forall₂_congr fun p _ => not_congr eq_comm

theorem Remembers.size_eq (remembers : hs.Remembers h) :
    hs.size = ((issued h).filter fun g => (HandleHistory.value? h g).isSome).length := by
  have injective : Function.Injective Handle.id := fun _ _ => Handle.ext
  have same : (((issued h).filter fun g => (HandleHistory.value? h g).isSome).map Handle.id).Perm
      (hs.pinned.map Prod.fst) := by
    refine (List.perm_ext_iff_of_nodup ((remembers.numbered.nodup.filter _).map injective)
      remembers.distinct).2 fun id => ?_
    simp only [List.mem_map (f := Handle.id), List.mem_filter, ← remembers.values,
      isSome_lookup_iff]
    constructor
    · rintro ⟨g, ⟨_, mem⟩, rfl⟩
      exact mem
    · intro mem
      obtain ⟨g, given, rfl⟩ := remembers.known id mem
      exact ⟨g, ⟨given, mem⟩, rfl⟩
  rw [← List.length_map (f := Handle.id), same.length_eq, List.length_map, size]

theorem remembers_empty : ({} : Handles α).Remembers [] :=
  ⟨rfl, fun _ => rfl, List.nodup_nil, fun _ mem => (nomatch mem), rfl⟩

theorem keys_without_sublist {id : UInt64} :
    ((hs.without id).map Prod.fst).Sublist (hs.pinned.map Prod.fst) :=
  List.filter_sublist.map _

/-- As long as the numbers last, the next one is new. -/
theorem Remembers.pinned (remembers : hs.Remembers h) (room : (issued h).length + 1 < 2 ^ 64)
    (v : α) (n : Nat) :
    (hs.pin v).1.id.toNat = (issued h).length + 1 ∧
      (hs.pin v).2.Remembers (h ++ [⟨.pin v, .pinned (hs.pin v).1, n⟩]) := by
  have number : hs.next.toNat = (issued h).length + 1 :=
    remembers.next.trans (Nat.mod_eq_of_lt room)
  have nonzero : hs.next ≠ 0 := fun zero => by simp [zero] at number
  have handle : (hs.pin v).1 = ⟨hs.next, nonzero⟩ := by
    simp [Handles.pin, Handle.ofId, Handle.ofPointer?, nonzero]
  -- Whatever is pinned has a number that was given out, and those stop short of the next one.
  have fresh : hs.next ∉ hs.pinned.map Prod.fst := fun mem => by
    obtain ⟨g, given, same⟩ := remembers.known _ mem
    have bound := List.mem_map_of_mem (f := fun g : Handle => g.id.toNat) given
    rw [remembers.numbered, List.mem_range'_1, same] at bound
    omega
  have issued_eq : issued (h ++ [⟨.pin v, .pinned (hs.pin v).1, n⟩]) = issued h ++ [(hs.pin v).1] :=
    issued_append
  refine ⟨handle ▸ number, ?_, fun g => ?_, ?_, fun id mem => ?_, ?_⟩
  · rw [issued_eq, List.length_append, List.length_singleton]
    simp [Handles.pin, UInt64.toNat_add, number]
  · rw [value?_concat]
    by_cases same : (hs.pin v).1 = g
    · subst same
      rw [effect_of_issued rfl, handle]
      exact List.lookup_cons_self
    · have other : g.id ≠ hs.next := fun eq => same (handle ▸ Handle.ext eq.symm)
      rw [effect_of_unissued, ← remembers.values]
      · simp only [Handles.pin, List.lookup_cons, beq_false_of_ne other, lookup_without,
          if_neg other]
        rfl
      · exact fun given => same (Option.some.inj given)
  · exact List.nodup_cons.2 ⟨fun mem => fresh (keys_without_sublist.subset mem),
      remembers.distinct.sublist keys_without_sublist⟩
  · rw [issued_eq]
    rcases List.mem_cons.1 mem with rfl | mem
    · exact ⟨(hs.pin v).1, List.mem_append_right _ List.mem_cons_self, handle ▸ rfl⟩
    · obtain ⟨g, given, same⟩ := remembers.known id (keys_without_sublist.subset mem)
      exact ⟨g, List.mem_append_left _ given, same⟩
  · exact remembers.numbered.append_issued rfl (handle ▸ number)

theorem Remembers.released (remembers : hs.Remembers h) (g : Handle) (answer : Option α) (n : Nat) :
    (hs.release g).2.Remembers (h ++ [⟨.release g, .released answer, n⟩]) := by
  have issued_eq : issued (h ++ [⟨.release g, .released answer, n⟩]) = issued h := by
    simp [issued, HandleRecord.issued?]
  refine ⟨?_, fun other => ?_, remembers.distinct.sublist keys_without_sublist, fun id mem => ?_,
    remembers.numbered.append_other rfl⟩
  · rw [issued_eq]
    exact remembers.next
  · rw [value?_concat, effect_of_unissued (by simp [HandleRecord.issued?]), ← remembers.values]
    by_cases same : other = g
    · subst same
      simp [Handles.release, lookup_without, HandleCall.releases]
    · have apart : other.id ≠ g.id := fun eq => same (Handle.ext eq)
      simp [Handles.release, lookup_without, HandleCall.releases, apart, Ne.symm same]
  · rw [issued_eq]
    exact remembers.known id (keys_without_sublist.subset mem)

theorem Remembers.resolved (remembers : hs.Remembers h) (g : Handle)
    (answer : Except BridgeError α) (n : Nat) :
    hs.Remembers (h ++ [⟨.resolve g, .resolved answer, n⟩]) := by
  have issued_eq : issued (h ++ [⟨.resolve g, .resolved answer, n⟩]) = issued h := by
    simp [issued, HandleRecord.issued?]
  refine ⟨?_, fun other => ?_, remembers.distinct, ?_, remembers.numbered.append_other rfl⟩
  · rw [issued_eq]
    exact remembers.next
  · rw [value?_concat, effect_of_unissued (by simp [HandleRecord.issued?]), ← remembers.values]
    rfl
  · rw [issued_eq]
    exact remembers.known

theorem Remembers.resolution (remembers : hs.Remembers h) (g : Handle) :
    hs.resolve g = resolution g (HandleHistory.value? h g) := by
  rw [resolve, remembers.values]
  cases HandleHistory.value? h g <;> rfl

/-- One call follows from the history as long as the numbers last. -/
theorem follows_recordCall (remembers : hs.Remembers h) (call : HandleCall α)
    (room : (issued (h ++ [(recordCall call hs).1])).length < 2 ^ 64) :
    Follows h (recordCall call hs).1 ∧
      (recordCall call hs).2.Remembers (h ++ [(recordCall call hs).1]) := by
  have later : (recordCall call hs).2.Remembers (h ++ [(recordCall call hs).1]) := by
    cases call with
    | pin v =>
      rw [issued_append, List.length_append] at room
      exact (remembers.pinned room v _).2
    | resolve g => exact remembers.resolved g _ _
    | release g => exact remembers.released g _ _
  refine ⟨⟨later.numbered, ?_, ?_, later.size_eq⟩, later⟩
  · rintro g rfl
    exact congrArg HandleAnswer.resolved (remembers.resolution g)
  · rintro g rfl
    exact congrArg HandleAnswer.released (remembers.values g)

/-- What is told about one handle does not depend on what is done with another. -/
theorem release_other {g other : Handle} (apart : other ≠ g) :
    (hs.release g).2.resolve other = hs.resolve other ∧
      ((hs.release g).2.release other).1 = (hs.release other).1 := by
  have ids : other.id ≠ g.id := fun eq => apart (Handle.ext eq)
  have lookup : (hs.release g).2.pinned.lookup other.id = hs.pinned.lookup other.id := by
    rw [Handles.release, lookup_without, if_neg ids]
  refine ⟨?_, lookup⟩
  rw [Handles.resolve, Handles.resolve, lookup]

theorem call_history (calls : List (HandleCall α)) :
    (history calls).map HandleRecord.call = calls := by
  suffices all : ∀ hs : Handles α,
      (observations recordCall hs calls).map HandleRecord.call = calls by
    exact all {}
  induction calls with
  | nil => exact fun _ => rfl
  | cons call calls ih => exact fun hs => congrArg _ (ih _)

theorem length_issued_observations (hs : Handles α) (calls : List (HandleCall α)) :
    (issued (observations recordCall hs calls)).length = calls.countP HandleCall.isPin := by
  induction calls generalizing hs with
  | nil => rfl
  | cons call calls ih =>
    have first : (issued [(recordCall call hs).1]).length = [call].countP HandleCall.isPin := by
      cases call <;> rfl
    rw [observations, ← List.singleton_append, issued_append, List.length_append, first, ih,
      ← List.countP_append, List.singleton_append]

end Handles

namespace HandleHistory

/-- The record follows as long as the numbers last. -/
def FollowsInRange (h : List (HandleRecord α)) (r : HandleRecord α) : Prop :=
  (issued (h ++ [r])).length < 2 ^ 64 → Follows h r

variable {h : List (HandleRecord α)}

theorem numbered_of_follows (follows : ∀ before r, before ++ [r] <+: h → Follows before r) :
    Numbered h := by
  induction h using List.reverseRecOn with
  | nil => rfl
  | append_singleton h r _ => exact (follows h r (List.prefix_refl _)).numbered

theorem neverAliases_of_follows (follows : ∀ before r, before ++ [r] <+: h → Follows before r) :
    NeverAliases h := by
  have distinct := (numbered_of_follows follows).nodup
  have found {before : List (HandleRecord α)} {m : HandleRecord α} {g : Handle}
      {result : Option α} (seen : before ++ [m] <+: h) (eq : value? before g = result) :
      (m.call = .resolve g → m.answer = .resolved (resolution g result)) ∧
        (m.call = .release g → m.answer = .released result) :=
    eq ▸ ⟨(follows before m seen).resolved g, (follows before m seen).released g⟩
  have distinct_before {before : List (HandleRecord α)} {m : HandleRecord α}
      (seen : before ++ [m] <+: h) : (issued before).Nodup :=
    distinct.sublist (issued_sublist ((List.prefix_append before [m]).trans seen))
  refine ⟨distinct, fun g _ => g.ne_zero, ?_, ?_, ?_, ?_⟩
  · intro before between m v g n seen unreleased
    exact found seen (value?_of_held (distinct_before seen) ⟨before, n, between, rfl, unreleased⟩)
  · intro before between r m g seen given releases
    exact found seen (value?_of_released (distinct_before seen) given releases)
  · intro before m g seen unissued
    exact found seen (value?_of_unissued unissued)
  · intro before r seen
    have last := (distinct.sublist (issued_sublist seen))
    refine ⟨_, last.filter _, fun g => ?_, (follows before r seen).counted⟩
    rw [List.mem_filter, Option.isSome_iff_exists]
    constructor
    · rintro ⟨_, v, found⟩
      exact ⟨v, held_of_value? found⟩
    · rintro ⟨v, held⟩
      have found := value?_of_held last held
      refine ⟨?_, v, found⟩
      by_contra unissued
      rw [value?_of_unissued unissued] at found
      cases found

end HandleHistory

namespace Handles

def RemembersInRange (hs : Handles α) (h : List (HandleRecord α)) : Prop :=
  (issued h).length < 2 ^ 64 → hs.Remembers h

theorem followsInRange_recordCall (hs : Handles α) (h : List (HandleRecord α)) (call : HandleCall α)
    (remembers : hs.RemembersInRange h) :
    FollowsInRange h (recordCall call hs).1 ∧
      (recordCall call hs).2.RemembersInRange (h ++ [(recordCall call hs).1]) := by
  have step (last : (issued (h ++ [(recordCall call hs).1])).length < 2 ^ 64) :=
    have before := (issued_sublist (List.prefix_append h _)).length_le.trans_lt last
    follows_recordCall (remembers before) call last
  exact ⟨fun last => (step last).1, fun last => (step last).2⟩

end Handles

/-- There are numbers for 2 ^ 64 - 1 instances. -/
theorem Handles.history_neverAliases (calls : List (HandleCall α))
    (room : calls.countP HandleCall.isPin ≤ 2 ^ 64 - 1) :
    (Handles.history calls).map HandleRecord.call = calls ∧
      NeverAliases (Handles.history calls) ∧
      ∀ (hs : Handles α) (g other : Handle), other ≠ g →
        (hs.release g).2.resolve other = hs.resolve other ∧
          ((hs.release g).2.release other).1 = (hs.release other).1 := by
  refine ⟨call_history calls, neverAliases_of_follows fun before r seen => ?_,
    fun _ _ _ apart => release_other apart⟩
  refine observations_follow followsInRange_recordCall (fun _ => remembers_empty) seen ?_
  calc (issued ([] ++ before ++ [r])).length
      ≤ (issued (history calls)).length := (issued_sublist seen).length_le
    _ = calls.countP HandleCall.isPin := length_issued_observations {} calls
    _ < 2 ^ 64 := by omega

/-- Two instances, of which the first is released and asked for again. -/
theorem Handles.history_neverAliases_two :
    [HandleCall.pin "first", .pin "second", .release ⟨1, by decide⟩, .resolve ⟨1, by decide⟩,
        .resolve ⟨2, by decide⟩].countP HandleCall.isPin ≤ 2 ^ 64 - 1 ∧
      NeverAliases (Handles.history [HandleCall.pin "first", .pin "second",
        .release ⟨1, by decide⟩, .resolve ⟨1, by decide⟩, .resolve ⟨2, by decide⟩]) :=
  ⟨by decide, (Handles.history_neverAliases _ (by decide)).2.1⟩

end InteropGen
