import InteropGen.Proofs.FragmentLines
import InteropGen.Proofs.Planning
import InteropGen.Proofs.QuietLines
import InteropGen.Proofs.WellFormedSchemas

set_option autoImplicit false

/-!
# Events that a class can raise

A class with events has a function of its own for raising them, and this function hides those of its
bases.  The fragment reveals the functions of the base when the base has events itself.  A base without
events has only what it inherits, and that stays hidden.
-/

namespace InteropGen

open Text

namespace NativeEvents

variable {base b : String}

theorem revealing_inj : revealing b = revealing base ↔ b = base := by
  refine ⟨fun same => ?_, congrArg revealing⟩
  unfold revealing at same
  exact (String.append_right_inj _).1 ((String.append_left_inj _).1 same)

/-- No other line of a fragment looks like the one that reveals a base. -/
theorem not_isKnown_revealing (base : String) : ¬ Fragment.IsKnown (revealing base) := by
  have chars : (revealing base).toList = "using ".toList ++ (base.toList ++ "::RaiseEvent;".toList) := by
    rw [revealing, String.toList_append, String.toList_append, List.append_assoc]
  rintro (unlike | ⟨back, known, isSuffix⟩)
  · refine unlike _ List.mem_cons_self ?_
    rw [chars]
    exact List.prefix_append _ _
  · have apart : ∀ back ∈ Fragment.backs,
        diverges back.reverse "::RaiseEvent;".toList.reverse = true := by decide
    rw [chars, ← List.append_assoc, ← List.reverse_prefix, List.reverse_append] at isSuffix
    exact not_prefix_of_diverges (apart back known) isSuffix

theorem revealing_notMem_handlePart (base : String) : revealing base ∉ Fragment.handlePart.texts := by
  intro mem
  have others : ∀ x ∈ Fragment.handlePart.texts, x.toList.head? ≠ some 'u' := by decide
  refine others _ mem ?_
  rw [revealing, String.append_assoc, String.toList_append]
  rfl

theorem revealing_mem_code (e : NativeEvents) (hidden : base ∈ e.hiddenBase) :
    revealing base ∈ e.code.texts := by
  have revealed : revealing base ∈ e.revealed.texts := by
    rw [NativeEvents.revealed, Option.mem_def.1 hidden]
    exact List.mem_cons_self
  simp [code, revealed]

end NativeEvents

namespace Fragment

open NativeEvents

variable {s : Schema} {t b : ApiType} {slots : Option SlotTable} {f : Fragment} {base : String}

/-- A fragment reveals the base that its events hide, and nothing else. -/
theorem revealing_mem_iff :
    revealing base ∈ f.code.texts ↔ ∃ e ∈ f.events, base ∈ e.hiddenBase := by
  constructor
  · intro mem
    refine each_line (p := fun x => x = revealing base → ∃ e ∈ f.events, base ∈ e.hiddenBase)
      (fun x known line => ?_) (fun _ x line same => ?_) (fun e he hidden isHidden same => ?_)
      _ mem rfl
    · rw [line] at known
      exact absurd known (not_isKnown_revealing base)
    · rw [same] at line
      exact absurd line (revealing_notMem_handlePart base)
    · rw [revealing_inj.1 same] at isHidden
      exact ⟨e, he, isHidden⟩
  · rintro ⟨e, he, hidden⟩
    have line := revealing_mem_code e hidden
    have part : revealing base ∈ Code.texts ((f.events.map fun e => Code.blank ++ e.code).getD []) := by
      rw [Option.mem_def.1 he, Option.map_some, Option.getD_some, Code.texts_append]
      exact List.mem_append_right _ line
    simp [code, part]

theorem revealing_mem_ofClass (ok : Fragment.ofClass s t slots = .ok f) :
    revealing base ∈ f.code.texts ↔
      t.hasEvents = true ∧ ∃ b, s.HasBase t b ∧ b.hasEvents = true ∧ b.name = base := by
  rw [revealing_mem_iff, (parts_of_ofClass ok).events_eq]
  by_cases events : t.hasEvents = true
  · simp [events, NativeEvents.ofClass, Schema.HasBase, Option.map_eq_some_iff, Option.filter_eq_some_iff,
      and_assoc]
  · simp [events]

end Fragment

namespace Schema

variable {s : Schema} {t u b : ApiType}

def ShowsLine (s : Schema) (t : ApiType) (x : String) : Prop :=
  ∃ a, ClassArtifacts.build s t = .ok a ∧ x ∈ a.fragment.code.texts

/-- The function with which the second class raises its events can be called by this name in the first
one.  A class with events has its own function, which hides all that it inherits but what a line of its
fragment reveals. -/
inductive Raises (s : Schema) : ApiType → ApiType → Prop where
  | own {t : ApiType} (events : t.hasEvents = true) : Raises s t t
  | inherited {t b u : ApiType} (eventless : t.hasEvents = false) (base : s.HasBase t b)
      (rest : Raises s b u) : Raises s t u
  | revealed {t b u : ApiType} (line : s.ShowsLine t (NativeEvents.revealing b.name))
      (base : s.HasBase t b) (rest : Raises s b u) : Raises s t u

theorem ShowsLine.hasEvents (base : s.HasBase t b)
    (line : s.ShowsLine t (NativeEvents.revealing b.name)) : b.hasEvents = true := by
  obtain ⟨a, ok, line⟩ := line
  obtain ⟨slots, _, parts⟩ := ClassArtifacts.parts_of_build ok
  obtain ⟨_, b', base', events, _⟩ := (Fragment.revealing_mem_ofClass parts.fragment_ok).1 line
  obtain rfl : b = b' := Option.some.inj (base.symm.trans base')
  exact events

theorem showsLine_revealing (built : ∃ a, ClassArtifacts.build s t = .ok a) (base : s.HasBase t b)
    (own : t.hasEvents = true) (events : b.hasEvents = true) :
    s.ShowsLine t (NativeEvents.revealing b.name) := by
  obtain ⟨a, ok⟩ := built
  obtain ⟨slots, _, parts⟩ := ClassArtifacts.parts_of_build ok
  exact ⟨a, ok, (Fragment.revealing_mem_ofClass parts.fragment_ok).2 ⟨own, b, base, events, rfl⟩⟩

/-- A class that can raise the events of another has no class without events on the way there. -/
theorem Raises.between (acyclic : ∀ t ∈ s.classes, ¬ Relation.TransGen s.HasBase t t)
    (h : s.Raises t u) (own : t.hasEvents = true) :
    ∀ v, Relation.TransGen s.HasBase t v → Relation.TransGen s.HasBase v u → v.hasEvents = true := by
  induction h with
  | own _ =>
    intro v above below
    exact absurd (above.trans below) (acyclic _ (mem_classes_of_transGen (above.trans below)))
  | inherited eventless _ _ _ =>
    rw [own] at eventless
    cases eventless
  | @revealed t b u line base _ ih =>
    intro v above below
    have events := line.hasEvents base
    obtain ⟨b', base', above⟩ := Relation.TransGen.head'_iff.1 above
    obtain rfl : b = b' := Option.some.inj (base.symm.trans base')
    rcases Relation.reflTransGen_iff_eq_or_transGen.1 above with rfl | above
    · exact events
    · exact ih events v above below

theorem raises_of_between (built : ∀ t ∈ s.classes, ∃ a, ClassArtifacts.build s t = .ok a)
    (ht : t ∈ s.classes) (own : t.hasEvents = true) (above : Relation.TransGen s.HasBase t u)
    (events : u.hasEvents = true)
    (between : ∀ v, Relation.TransGen s.HasBase t v → Relation.TransGen s.HasBase v u →
      v.hasEvents = true) : s.Raises t u := by
  induction above using Relation.TransGen.head_induction_on with
  | single base => exact .revealed (showsLine_revealing (built _ ht) base own events) base (.own events)
  | @head t b base above ih =>
    have baseEvents := between b (.single base) above
    refine .revealed (showsLine_revealing (built t ht) base own baseEvents) base ?_
    exact ih base.mem_classes baseEvents fun v aboveBase below => between v (.head base aboveBase) below

end Schema

namespace Plan

open NativeEvents

variable {s : Schema} {t : ApiType}

/-- The fragment of a class with events reveals the functions that its base has for raising events
exactly when the base has events of its own, whatever is further up.  So what a class further up has
stays within reach exactly when no class in between is without events. -/
theorem inherited_events (valid : s.validate = .ok ()) (ht : t ∈ s.classes)
    (own : t.hasEvents = true) :
    (∀ slots f, Fragment.ofClass s t slots = .ok f → ∀ base, revealing base ∈ f.code.texts ↔
      ∃ b, s.HasBase t b ∧ b.hasEvents = true ∧ b.name = base) ∧
    ∀ c files, build c s = .ok files →
      (∃ a, ClassArtifacts.build s t = .ok a ∧
        c.generated c.apiDir (t.name ++ ".inc") a.fragment.code ∈ files) ∧
      ∀ u, Relation.TransGen s.HasBase t u → u.hasEvents = true →
        (s.Raises t u ↔ ∀ b, Relation.TransGen s.HasBase t b → Relation.TransGen s.HasBase b u →
          b.hasEvents = true) := by
  refine ⟨fun slots f ok base => ?_, fun c files plan => ⟨?_, fun u above events => ?_⟩⟩
  · rw [Fragment.revealing_mem_ofClass ok, and_iff_right own]
  · obtain ⟨a, ok, files_of⟩ := class_of_build plan ht
    obtain ⟨_, _, parts⟩ := ClassArtifacts.parts_of_build ok
    rw [parts.files_eq c] at files_of
    exact ⟨a, ok, files_of _ (by simp)⟩
  · have acyclic := (Schema.validate_eq_ok.1 valid).acyclic
    have built (t : ApiType) (ht : t ∈ s.classes) : ∃ a, ClassArtifacts.build s t = .ok a := by
      obtain ⟨a, ok, _⟩ := class_of_build plan ht
      exact ⟨a, ok⟩
    exact ⟨fun raises => raises.between acyclic own,
      Schema.raises_of_between built ht own above events⟩

end Plan

section Family

def ApiType.window : ApiType where
  name := "Window"
  events := [⟨"Opened", none, false⟩]

def ApiType.dialog : ApiType where
  name := "Dialog"
  base := some "Window"
  events := [⟨"Accepted", none, true⟩]

def ApiType.panel : ApiType where
  name := "Panel"
  base := some "Window"

def ApiType.sidebar : ApiType where
  name := "Sidebar"
  base := some "Panel"
  events := [⟨"Collapsed", none, false⟩]

def Schema.family : Schema := ⟨[.window, .dialog, .panel, .sidebar]⟩

theorem Plan.inherited_events_dialog :
    Schema.family.validate = .ok () ∧ ApiType.dialog ∈ Schema.family.classes ∧
      ApiType.dialog.hasEvents = true ∧ (∃ files, Plan.build {} Schema.family = .ok files) ∧
      Schema.family.Raises .dialog .window := by
  have valid : Schema.family.validate = .ok () := rfl
  have known : ApiType.dialog ∈ Schema.family.classes := by decide
  obtain ⟨files, plan⟩ : ∃ files, Plan.build {} Schema.family = .ok files := ⟨_, rfl⟩
  obtain ⟨_, reach⟩ := Plan.inherited_events valid known rfl
  obtain ⟨_, reach⟩ := reach {} files plan
  refine ⟨valid, known, rfl, ⟨files, plan⟩, (reach .window (.single rfl) rfl).2 ?_⟩
  intro b above below
  obtain ⟨b', base, above⟩ := Relation.TransGen.head'_iff.1 above
  cases base
  rcases Relation.reflTransGen_iff_eq_or_transGen.1 above with rfl | above
  · rfl
  · obtain ⟨_, base, _⟩ := Relation.TransGen.head'_iff.1 above
    cases base

/-- A class without events in between hides the events further up. -/
theorem Plan.inherited_events_hidden :
    Schema.family.validate = .ok () ∧ ApiType.sidebar ∈ Schema.family.classes ∧
      ApiType.sidebar.hasEvents = true ∧ ApiType.window.hasEvents = true ∧
      Relation.TransGen Schema.family.HasBase .sidebar .window ∧
      (∃ files, Plan.build {} Schema.family = .ok files) ∧
      (∃ a, ClassArtifacts.build Schema.family .sidebar = .ok a ∧
        ∀ base, NativeEvents.revealing base ∉ a.fragment.code.texts) ∧
      ¬ Schema.family.Raises .sidebar .window := by
  have valid : Schema.family.validate = .ok () := rfl
  have lower : Schema.family.HasBase .sidebar .panel := rfl
  have upper : Schema.family.HasBase .panel .window := rfl
  obtain ⟨a, ok⟩ : ∃ a, ClassArtifacts.build Schema.family .sidebar = .ok a := ⟨_, rfl⟩
  refine ⟨valid, by decide, rfl, rfl, .head lower (.single upper), ⟨_, rfl⟩,
    ⟨a, ok, fun base mem => ?_⟩, fun raises => ?_⟩
  · obtain ⟨_, _, parts⟩ := ClassArtifacts.parts_of_build ok
    obtain ⟨_, b, above, events, _⟩ := (Fragment.revealing_mem_ofClass parts.fragment_ok).1 mem
    obtain rfl : ApiType.panel = b := Option.some.inj (lower.symm.trans above)
    cases events
  · have events := raises.between (Schema.validate_eq_ok.1 valid).acyclic rfl .panel (.single lower)
      (.single upper)
    cases events

end Family

end InteropGen
