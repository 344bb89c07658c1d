import Mathlib.Data.Fintype.Pigeonhole
import InteropGen.Proofs.HandleOwnership

set_option autoImplicit false

/-!
# Chains of bases that end, and chains that do not

A chain of bases that ends goes through no type twice, so it is no longer than the list of types.  One
that does not end comes back to a class that it has passed.
-/

namespace InteropGen.Schema

variable {s : Schema} {t u b : ApiType} {ts passed : List ApiType}

def HasBase (s : Schema) (t b : ApiType) : Prop := s.baseOf t = some b

def IsEndless (s : Schema) (t : ApiType) : Prop :=
  ∃ f : Nat → ApiType, f 0 = t ∧ ∀ n, s.HasBase (f n) (f (n + 1))

theorem HasBase.mem_classes (h : s.HasBase t b) : b ∈ s.classes :=
  Schema.mem_classes.2 ⟨baseOf_mem h, baseOf_isClass h⟩

theorem mem_classes_of_transGen (h : Relation.TransGen s.HasBase t u) : u ∈ s.classes := by
  cases h with
  | single base => exact base.mem_classes
  | tail _ base => exact base.mem_classes

namespace IsLineage

theorem exists_tail (h : s.IsLineage t ts) : ∃ above, ts = t :: above := by
  cases h with
  | root _ => exact ⟨[], rfl⟩
  | step _ _ => exact ⟨_, rfl⟩

/-- A chain that ends does not come back. -/
theorem nodup (h : s.IsLineage t ts) : ts.Nodup := by
  induction h with
  | root _ => exact List.nodup_singleton _
  | @step t b ts base rest ih =>
    refine List.nodup_cons.2 ⟨fun again => ?_, ih⟩
    obtain ⟨passed, later, rfl⟩ := List.append_of_mem again
    have same := congrArg List.length ((IsLineage.step base rest).unique rest.of_append)
    simp at same
    omega

/-- The types above are the rest of the lineage. -/
theorem transGen_iff (h : s.IsLineage t (t :: ts)) :
    Relation.TransGen s.HasBase t u ↔ u ∈ ts := by
  generalize eq : t :: ts = all at h
  induction h generalizing ts with
  | root alone =>
    obtain rfl := (List.cons.inj eq).2
    refine iff_of_false (fun above => ?_) List.not_mem_nil
    obtain ⟨b, base, _⟩ := Relation.TransGen.head'_iff.1 above
    cases alone.symm.trans base
  | @step t b all base rest ih =>
    obtain rfl := (List.cons.inj eq).2
    obtain ⟨above, rfl⟩ := rest.exists_tail
    rw [List.mem_cons, ← ih rfl, Relation.TransGen.head'_iff]
    constructor
    · rintro ⟨b', base', more⟩
      cases base.symm.trans base'
      exact (Relation.reflTransGen_iff_eq_or_transGen.1 more)
    · exact fun more => ⟨b, base, Relation.reflTransGen_iff_eq_or_transGen.2 more⟩

theorem not_isEndless (h : s.IsLineage t ts) : ¬ s.IsEndless t := by
  induction h with
  | root alone =>
    rintro ⟨f, rfl, chain⟩
    cases alone.symm.trans (chain 0)
  | step base _ ih =>
    rintro ⟨f, rfl, chain⟩
    cases base.symm.trans (chain 0)
    exact ih ⟨fun n => f (n + 1), rfl, fun n => chain (n + 1)⟩

theorem endsWithin (h : s.IsLineage t ts) : s.endsWithin ts.length t = true := by
  induction h with
  | root alone => rw [List.length_singleton, Schema.endsWithin, alone]
  | step base _ ih => rwa [List.length_cons, Schema.endsWithin, base]

theorem length_le (h : s.IsLineage t ts) : ts.length ≤ s.types.length + 1 := by
  obtain ⟨above, rfl⟩ := h.exists_tail
  have classes : above ⊆ s.types := fun u hu =>
    (Schema.mem_classes.1 (mem_classes_of_transGen (h.transGen_iff.2 hu))).1
  have bound := (h.nodup.of_cons.subperm classes).length_le
  rw [List.length_cons]
  omega

end IsLineage

theorem endsWithin_mono {n m : Nat} (h : n ≤ m) (ends : s.endsWithin n t = true) :
    s.endsWithin m t = true := by
  induction n generalizing m t with
  | zero => cases ends
  | succ n ih =>
    cases m with
    | zero => omega
    | succ m =>
      rw [endsWithin] at ends ⊢
      cases base : s.baseOf t with
      | none => rfl
      | some b =>
        rw [base] at ends
        exact ih (by omega) ends

/-- Counting up to the number of types is enough. -/
theorem hasEndlessChain_eq_false : s.hasEndlessChain t = false ↔ ∃ ts, s.IsLineage t ts := by
  rw [hasEndlessChain, Bool.not_eq_false']
  constructor
  · exact fun ends => ⟨_, isLineage_of_endsWithin ends⟩
  · rintro ⟨ts, lineage⟩
    exact endsWithin_mono lineage.length_le lineage.endsWithin

/-- A chain that does not end can be followed forever. -/
theorem isEndless_iff : s.IsEndless t ↔ ¬ ∃ ts, s.IsLineage t ts := by
  constructor
  · rintro endless ⟨ts, lineage⟩
    exact lineage.not_isEndless endless
  · intro unended
    refine ⟨fun n => (fun u => (s.baseOf u).getD u)^[n] t, rfl, fun n => ?_⟩
    have further : ¬ ∃ ts, s.IsLineage ((fun u => (s.baseOf u).getD u)^[n] t) ts := by
      induction n with
      | zero => exact unended
      | succ n ih =>
        rintro ⟨ts, lineage⟩
        rw [Function.iterate_succ_apply'] at lineage
        cases base : s.baseOf ((fun u => (s.baseOf u).getD u)^[n] t) with
        | none => exact ih ⟨_, .root base⟩
        | some b =>
          rw [base] at lineage
          exact ih ⟨_, .step base lineage⟩
    cases base : s.baseOf ((fun u => (s.baseOf u).getD u)^[n] t) with
    | none => exact absurd ⟨_, .root base⟩ further
    | some b =>
      have next := Function.iterate_succ_apply' (fun u => (s.baseOf u).getD u) n t
      rw [base, Option.getD_some] at next
      exact base.trans (congrArg some next.symm)

theorem hasEndlessChain_iff : s.hasEndlessChain t = true ↔ s.IsEndless t := by
  rw [isEndless_iff, ← hasEndlessChain_eq_false, Bool.not_eq_false]

/-- There are finitely many types, so a chain that does not end repeats a class. -/
theorem exists_cycle (h : s.IsEndless t) : ∃ u ∈ s.classes, Relation.TransGen s.HasBase u u := by
  obtain ⟨f, _, chain⟩ := h
  have classes (n : Nat) : f (n + 1) ∈ s.classes := (chain n).mem_classes
  have steps {i j : Nat} (less : i < j) : Relation.TransGen s.HasBase (f i) (f j) := by
    induction j with
    | zero => omega
    | succ j ih =>
      rcases Nat.lt_succ_iff_lt_or_eq.1 less with before | rfl
      · exact (ih before).tail (chain j)
      · exact .single (chain i)
  obtain ⟨i, j, apart, same⟩ := Finite.exists_ne_map_eq_of_infinite
    fun n => (⟨f (n + 1), classes n⟩ : { u // u ∈ s.classes })
  have same : f (i + 1) = f (j + 1) := congrArg Subtype.val same
  rcases Nat.lt_or_gt_of_ne apart with less | greater
  · refine ⟨f (i + 1), classes i, ?_⟩
    conv => rhs; rw [same]
    exact steps (Nat.succ_lt_succ less)
  · refine ⟨f (j + 1), classes j, ?_⟩
    conv => rhs; rw [← same]
    exact steps (Nat.succ_lt_succ greater)

theorem isEndless_of_cycle (h : Relation.TransGen s.HasBase t t) : s.IsEndless t := by
  rw [isEndless_iff]
  rintro ⟨ts, lineage⟩
  obtain ⟨above, rfl⟩ := lineage.exists_tail
  exact (List.nodup_cons.1 lineage.nodup).1 (lineage.transGen_iff.1 h)

theorem acyclic_iff : (∀ t ∈ s.classes, ¬ Relation.TransGen s.HasBase t t) ↔
    ∀ t ∈ s.classes, ¬ s.IsEndless t := by
  constructor
  · intro acyclic t _ endless
    obtain ⟨u, hu, cycle⟩ := exists_cycle endless
    exact acyclic u hu cycle
  · exact fun ends t ht cycle => ends t ht (isEndless_of_cycle cycle)

section Walks

/-- The search for a repetition: it follows the bases until there is none, or until it comes to a name
that it has seen. -/
inductive Walks (s : Schema) : List String → Option ApiType → Bool → Prop where
  | ended {seen : List String} : Walks s seen none false
  | repeated {seen : List String} {b : ApiType} (known : b.name ∈ seen) : Walks s seen (some b) true
  | further {seen : List String} {b : ApiType} {found : Bool} (fresh : b.name ∉ seen)
      (rest : Walks s (b.name :: seen) (s.baseOf b) found) : Walks s seen (some b) found

variable {seen : List String} {current : Option ApiType} {found : Bool}

/-- Each step takes a name that was not seen, and there are only so many. -/
theorem exists_walks (h : ∀ b ∈ current, b ∈ s.types) : ∃ found, s.Walks seen current found := by
  induction size : ((s.types.map ApiType.name).toFinset \ seen.toFinset).card using
    Nat.strongRecOn generalizing seen current with
  | _ n ih =>
    cases current with
    | none => exact ⟨false, .ended⟩
    | some b =>
      by_cases known : b.name ∈ seen
      · exact ⟨true, .repeated known⟩
      · have named : b.name ∈ (s.types.map ApiType.name).toFinset :=
          List.mem_toFinset.2 (List.mem_map_of_mem (h b rfl))
        have fewer : ((s.types.map ApiType.name).toFinset \ (b.name :: seen).toFinset).card < n := by
          rw [← size]
          refine Finset.card_lt_card (Finset.ssubset_iff_subset_ne.2 ⟨?_, fun same => ?_⟩)
          · rw [List.toFinset_cons]
            exact Finset.sdiff_subset_sdiff (Finset.Subset.refl _) (Finset.subset_insert _ _)
          · have before : b.name ∈ (s.types.map ApiType.name).toFinset \ seen.toFinset :=
              Finset.mem_sdiff.2 ⟨named, fun mem => known (List.mem_toFinset.1 mem)⟩
            rw [← same] at before
            exact (Finset.mem_sdiff.1 before).2 (List.mem_toFinset.2 List.mem_cons_self)
        obtain ⟨found, rest⟩ := ih _ fewer (fun _ base => baseOf_mem base) rfl
        exact ⟨found, .further known rest⟩

/-- A walk that finds no repetition comes to the end. -/
theorem Walks.exists_lineage (h : s.Walks seen current false) :
    ∀ b ∈ current, ∃ ts, s.IsLineage b ts := by
  generalize eq : false = found at h
  induction h with
  | ended => exact fun _ absent => absurd absent (Option.not_mem_none _)
  | repeated _ => cases eq
  | @further seen b found fresh rest ih =>
    rintro _ ⟨⟩
    cases base : s.baseOf b with
    | none => exact ⟨_, .root base⟩
    | some b' =>
      obtain ⟨ts, lineage⟩ := ih eq b' base
      exact ⟨_, .step base lineage⟩

/-- A chain that ends has no name twice, if names are unique. -/
theorem IsLineage.walks (h : s.IsLineage b ts) (distinct : (ts.map ApiType.name).Nodup)
    (fresh : ∀ u ∈ ts, u.name ∉ seen) : s.Walks seen (some b) false := by
  induction h generalizing seen with
  | @root b alone =>
    refine .further (fresh b List.mem_cons_self) ?_
    rw [alone]
    exact .ended
  | @step b b' ts base rest ih =>
    rw [List.map_cons, List.nodup_cons] at distinct
    refine .further (fresh b List.mem_cons_self) ?_
    rw [base]
    refine ih distinct.2 fun u hu known => ?_
    rcases List.mem_cons.1 known with same | known
    · exact distinct.1 (same ▸ List.mem_map_of_mem hu)
    · exact fresh u (List.mem_cons_of_mem b hu) known

theorem IsLineage.nodup_names (unique : (s.types.map ApiType.name).Nodup) (ht : t ∈ s.types)
    (h : s.IsLineage t ts) : (ts.map ApiType.name).Nodup := by
  obtain ⟨above, rfl⟩ := h.exists_tail
  have types : ∀ u ∈ t :: above, u ∈ s.types := List.forall_mem_cons.2
    ⟨ht, fun u hu => (Schema.mem_classes.1 (mem_classes_of_transGen (h.transGen_iff.2 hu))).1⟩
  refine List.Nodup.map_on (fun u hu v hv same => ?_) h.nodup
  exact List.inj_on_of_nodup_map unique (types u hu) (types v hv) same

/-- The walk from a type finds a repetition exactly when the chain does not end. -/
theorem walks_hasEndlessChain (unique : (s.types.map ApiType.name).Nodup) (ht : t ∈ s.types) :
    s.Walks [t.name] (s.baseOf t) (s.hasEndlessChain t) := by
  obtain ⟨found, walk⟩ : ∃ found, s.Walks [t.name] (s.baseOf t) found :=
    exists_walks fun _ base => baseOf_mem base
  cases endless : s.hasEndlessChain t with
  | false =>
    obtain ⟨ts, lineage⟩ := hasEndlessChain_eq_false.1 endless
    have distinct := lineage.nodup_names unique ht
    cases lineage with
    | root alone =>
      rw [alone]
      exact .ended
    | step base rest =>
      rw [List.map_cons, List.nodup_cons] at distinct
      rw [base]
      refine rest.walks distinct.2 fun u hu known => distinct.1 ?_
      exact List.mem_singleton.1 known ▸ List.mem_map_of_mem hu
  | true =>
    cases found with
    | true => exact walk
    | false =>
      have ended : s.hasEndlessChain t = false := by
        rw [hasEndlessChain_eq_false]
        cases base : s.baseOf t with
        | none => exact ⟨_, .root base⟩
        | some b =>
          obtain ⟨ts, lineage⟩ := walk.exists_lineage b base
          exact ⟨_, .step base lineage⟩
      exact absurd (endless.symm.trans ended) (by decide)

end Walks

section Servers

/-- The search for a managed server: it follows the bases until there is one or none. -/
inductive Climbs (s : Schema) : Option ApiType → Option ApiType → Prop where
  | ended : Climbs s none none
  | found {b : ApiType} (server : b.managedServer = true) : Climbs s (some b) (some b)
  | further {b : ApiType} {result : Option ApiType} (plain : b.managedServer = false)
      (rest : Climbs s (s.baseOf b) result) : Climbs s (some b) result

theorem IsLineage.climbs (h : s.IsLineage b ts) :
    s.Climbs (some b) (ts.find? ApiType.managedServer) := by
  induction h with
  | @root b alone =>
    cases server : b.managedServer with
    | true =>
      rw [List.find?_cons_of_pos server]
      exact .found server
    | false =>
      rw [List.find?_cons_of_neg (by simp [server])]
      refine .further server ?_
      rw [alone]
      exact .ended
  | @step b b' ts base rest ih =>
    cases server : b.managedServer with
    | true =>
      rw [List.find?_cons_of_pos server]
      exact .found server
    | false =>
      rw [List.find?_cons_of_neg (by simp [server])]
      refine .further server ?_
      rw [base]
      exact ih

theorem isLineage_lineage_of_ends (ends : ¬ s.IsEndless t) : s.IsLineage t (s.lineage t) := by
  rw [← hasEndlessChain_iff, Bool.not_eq_true, hasEndlessChain, Bool.not_eq_false'] at ends
  exact isLineage_of_endsWithin ends

theorem climbs_serverBase (ends : ¬ s.IsEndless t) :
    s.Climbs (s.baseOf t) (s.serverBase t) := by
  have whole := isLineage_lineage_of_ends ends
  rw [serverBase]
  generalize eq : s.lineage t = ts at whole
  cases whole with
  | root alone =>
    rw [alone, (List.cons.inj eq).2]
    exact .ended
  | step base rest =>
    rw [base, (List.cons.inj eq).2]
    exact rest.climbs

/-- No managed server stands between a type and the one that is found. -/
theorem serverBase_eq_some_iff (ends : ¬ s.IsEndless t) :
    s.serverBase t = some b ↔ b.managedServer = true ∧ Relation.TransGen s.HasBase t b ∧
      ∀ u, Relation.TransGen s.HasBase t u → Relation.TransGen s.HasBase u b →
        u.managedServer = false := by
  have whole : s.IsLineage t (t :: s.ancestors t) := isLineage_lineage_of_ends ends
  rw [serverBase, List.find?_eq_some_iff_append]
  refine and_congr_right fun _ => ?_
  constructor
  · rintro ⟨before, behind, eq, plain⟩
    rw [eq] at whole
    have above : s.IsLineage b (b :: behind) := by
      rw [← List.cons_append] at whole
      exact whole.of_append
    have acyclic : ¬ Relation.TransGen s.HasBase b b := fun cycle =>
      above.not_isEndless (isEndless_of_cycle cycle)
    refine ⟨whole.transGen_iff.2 (by simp), fun u hu nearer => ?_⟩
    rcases List.mem_append.1 (whole.transGen_iff.1 hu) with mem | mem
    · simpa using plain u mem
    · rcases List.mem_cons.1 mem with rfl | mem
      · exact absurd nearer acyclic
      · exact absurd ((above.transGen_iff.2 mem).trans nearer) acyclic
  · rintro ⟨reached, nearest⟩
    obtain ⟨before, behind, eq⟩ := List.append_of_mem (whole.transGen_iff.1 reached)
    refine ⟨before, behind, eq, fun u hu => ?_⟩
    obtain ⟨first, second, rfl⟩ := List.append_of_mem hu
    rw [eq] at whole
    have passed : Relation.TransGen s.HasBase t u := whole.transGen_iff.2 (by simp)
    rw [List.append_assoc, List.cons_append, ← List.cons_append] at whole
    have onward : Relation.TransGen s.HasBase u b := whole.of_append.transGen_iff.2 (by simp)
    rw [nearest u passed onward]
    rfl

end Servers

end InteropGen.Schema
