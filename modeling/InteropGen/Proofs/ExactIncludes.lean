import InteropGen.Proofs.Acceptance
import InteropGen.Proofs.Inclusions
import InteropGen.Proofs.TextParity

set_option autoImplicit false

/-!
# Exactly the mentioned classes are included

What is collected while types are spelled is a set: it holds what declares the classes that have been
mentioned, in ascending order, whatever the order in which they were.  For a shim, this set can be
read off the text of the file.
-/

namespace InteropGen

open Text

section Sets

variable {entry : String} {es xs ys : List String} {set : IncludeSet}

theorem pairwise_insertAscending (h : es.Pairwise (· < ·)) :
    (insertAscending entry es).Pairwise (· < ·) := by
  induction es with
  | nil => exact List.pairwise_singleton _ entry
  | cons e es ih =>
    obtain ⟨first, rest⟩ := List.pairwise_cons.1 h
    rw [insertAscending]
    split
    · rename_i less
      exact List.pairwise_cons.2
        ⟨List.forall_mem_cons.2 ⟨less, fun x hx => String.lt_trans less (first x hx)⟩, h⟩
    · split
      · exact h
      · rename_i notLess ne
        refine List.pairwise_cons.2 ⟨fun x hx => ?_, ih rest⟩
        rcases mem_insertAscending.1 hx with rfl | hx
        · exact Std.lt_of_le_of_ne (String.not_lt.1 notLess) (Ne.symm ne)
        · exact first x hx

/-- An ascending list is known by its members. -/
theorem eq_of_ascending (hx : xs.Pairwise (· < ·)) (hy : ys.Pairwise (· < ·))
    (same : ∀ x, x ∈ xs ↔ x ∈ ys) : xs = ys := by
  have distinct {zs : List String} (h : zs.Pairwise (· < ·)) : zs.Nodup := by
    refine h.imp ?_
    rintro a _ less rfl
    exact String.lt_irrefl a less
  exact List.Perm.eq_of_pairwise (fun a b _ _ less greater => absurd greater (String.lt_asymm less))
    hx hy ((List.perm_ext_iff_of_nodup (distinct hx) (distinct hy)).2 same)

namespace IncludeSet

def IsAscending (set : IncludeSet) : Prop := set.entries.Pairwise (· < ·)

theorem IsAscending.insertAll (h : set.IsAscending) (entries : List String) :
    (set.insertAll entries).IsAscending := by
  induction entries generalizing set with
  | nil => exact h
  | cons e es ih =>
    have first : (set.insert e).IsAscending := pairwise_insertAscending h
    exact ih first

theorem isAscending_empty : empty.IsAscending := .nil

end IncludeSet

end Sets

namespace TypeNames

variable {s : Schema} {n : TypeNames} {position : Position} {type : TypeRef}

/-- The names after the given types have been spelled one after the other, each in its position. -/
def after (s : Schema) (n : TypeNames) (steps : List (Position × TypeRef)) : TypeNames :=
  steps.foldl (fun n step => (n.name s step.1 step.2).2) n

/-- The step adds this entry: it succeeds, and its type mentions the class that the entry declares. -/
def Adds (s : Schema) (dialect : Dialect) (step : Position × TypeRef) (entry : String) : Prop :=
  s.Accepts dialect step.1 step.2 ∧
    ∃ u, s.mentionedClass? step.2 = some u ∧ entry = u.artifact dialect

theorem name_eq_error {e : Failure} (h : (n.name s position type).1 = .error e) :
    (n.name s position type).2 = n := by
  unfold name at h ⊢
  split at h
  · cases h
  · rfl

theorem dialect_name : (n.name s position type).2.dialect = n.dialect := by
  unfold name
  split <;> rfl

/-- What a step adds is what it has succeeded in spelling. -/
theorem mem_name {entry : String} : entry ∈ (n.name s position type).2.includes.entries ↔
    entry ∈ n.includes.entries ∨ Adds s n.dialect (position, type) entry := by
  unfold name
  split
  · rename_i spelling resolved
    have accepted : s.Accepts n.dialect position type := ⟨spelling, resolved⟩
    rw [Shim.mem_insertAll, Schema.include_of_resolve resolved, Option.mem_toList,
      Option.map_eq_some_iff, Adds, and_iff_right accepted]
    exact or_congr_right (exists_congr fun u => and_congr_right' eq_comm)
  · rename_i e failed
    refine (or_iff_left ?_).symm
    rintro ⟨⟨spelling, resolved⟩, _⟩
    cases failed.symm.trans resolved

theorem isAscending_name (h : n.includes.IsAscending) :
    (n.name s position type).2.includes.IsAscending := by
  unfold name
  split
  · exact h.insertAll _
  · exact h

variable {steps steps' : List (Position × TypeRef)}

theorem isAscending_after (h : n.includes.IsAscending) : (after s n steps).includes.IsAscending := by
  induction steps generalizing n with
  | nil => exact h
  | cons step steps ih => exact ih (isAscending_name h)

theorem mem_after {entry : String} : entry ∈ (after s n steps).includes.entries ↔
    entry ∈ n.includes.entries ∨ ∃ step ∈ steps, Adds s n.dialect step entry := by
  induction steps generalizing n with
  | nil => simp [after]
  | cons step steps ih =>
    have next : after s n (step :: steps) = after s (n.name s step.1 step.2).2 steps := rfl
    rw [next, ih, mem_name, dialect_name, or_assoc]
    simp only [List.exists_mem_cons_iff]

/-- Steps that succeed alike, in whichever order and however often, lead to the same includes. -/
theorem includes_after_congr (h : n.includes.IsAscending)
    (same : ∀ step, s.Accepts n.dialect step.1 step.2 → (step ∈ steps ↔ step ∈ steps')) :
    (after s n steps).includes = (after s n steps').includes := by
  have entries : (after s n steps).includes.entries = (after s n steps').includes.entries := by
    refine eq_of_ascending (isAscending_after h) (isAscending_after h) fun entry => ?_
    rw [mem_after, mem_after]
    refine or_congr_right (exists_congr fun step => ?_)
    exact and_congr_left fun adds => same step adds.1
  exact congrArg IncludeSet.mk entries

end TypeNames

section Texts

variable {x path : String}

theorem includedPath?_of_avoids (h : Avoids includeWord x) :
    includedPath? (trimLeft x.toList) = none := by
  rw [← Option.not_isSome_iff_eq_none]
  intro found
  have inside := includeWord_infix found
  exact h (inside.trans (List.dropWhile_suffix _).isInfix)

theorem includedPath?_shown (h : IsQuotable path) :
    includedPath? (trimLeft (Code.includeLine path).toList) = some path := by
  have margin : trimLeft (Code.includeLine path).toList = (Code.includeLine path).toList := by
    rw [Code.includeLine, String.toList_append, String.toList_append, List.append_assoc]
    exact trimLeft_of_head (by decide)
  rw [margin, includedPath?_includeLine h.1]

theorem filterMap_includeLines {paths : List String} (h : ∀ path ∈ paths, IsQuotable path) :
    (paths.map Code.includeLine).filterMap (fun x => includedPath? (trimLeft x.toList)) =
      paths := by
  rw [List.filterMap_map]
  have each : ∀ path ∈ paths, ((fun x => includedPath? (trimLeft x.toList)) ∘ Code.includeLine) path =
      some path := fun path hpath => includedPath?_shown (h path hpath)
  rw [List.filterMap_congr each, List.filterMap_some]

end Texts

section Names

/-- An identifier does not hold the word of an include line. -/
theorem avoids_of_isIdentifier {name : String} (h : isIdentifier name.toList = true) :
    Avoids includeWord name :=
  avoids_of_not_mem (c := '#') (by decide)
    ((isWord_of_isIdentifier h).not_mem (by decide) (by decide))

theorem ApiType.HasIdentifiers.named {t : ApiType} (h : t.HasIdentifiers) :
    t.Named (Avoids includeWord) := by
  have own : t.EachName (Avoids includeWord) :=
    { name := avoids_of_isIdentifier h.name
      properties := fun p hp => avoids_of_isIdentifier (h.properties p hp)
      methods := fun m hm => avoids_of_isIdentifier (h.methods m hm)
      parameters := fun m hm p hp => avoids_of_isIdentifier (h.parameters m hm p hp)
      events := fun e he => avoids_of_isIdentifier (h.events e he)
      fields := fun f hf => avoids_of_isIdentifier (h.fields f hf)
      variants := fun v hv => avoids_of_isIdentifier (h.variants v hv) }
  exact own.named_of_isName (isName_of_isIdentifier h.name)

end Names

namespace Shim

variable {c : Config} {s : Schema} {t : ApiType} {exports : ExportTable} {shim : Shim}

theorem isAscending_includes (shim : Shim) : shim.includes.IsAscending :=
  (IncludeSet.isAscending_empty.insertAll _).filter _

/-- The quoted includes of the file are those that the shim is meant to have. -/
theorem includedPaths_generatedFile (exports_ok : ExportTable.build s t = .ok exports)
    (h : ofClass s t exports = .ok shim) (names : s.HasIdentifiers) (ht : t ∈ s.classes) :
    includedPaths (c.generatedFile shim.code) = shim.includePaths := by
  have mem := (Schema.mem_classes.1 ht).1
  obtain ⟨own, readable⟩ := isReadable_ofClass names mem exports_ok h
  have word := isWord_of_isIdentifier (names t mem).name
  have header : IsOneLine shim.type.header := by
    rw [own]
    exact word.isOneLine.suffixed (by decide)
  have quotable : ∀ path ∈ shim.includePaths, IsQuotable path :=
    (FileRole.includesAlong_shim (c := c) ht own (exists_class_of_includes exports_ok h)).quotable
      fun u hu => isName_of_isIdentifier (names u hu).name
  have functions : ∀ x ∈ Code.texts (shim.functions.flatMap Function.code),
      includedPath? (trimLeft x.toList) = none := by
    intro x hx
    rw [Code.texts_flatMap] at hx
    obtain ⟨f, hf, hx⟩ := List.mem_flatMap.1 hx
    obtain ⟨kind, hkind, ok⟩ := exists_kind exports_ok h hf
    have woven := (isComposed_functionOf (fun u hu => (names u hu).named) (names t mem).named hkind
      ok).isWoven (M := fun _ => False)
    have avoids := woven.avoids includeWord (by decide) (fun _ avoids => avoids) x hx
    exact includedPath?_of_avoids (avoids.resolve_right id)
  have front : ["#pragma once", ""].filterMap (fun x => includedPath? (trimLeft x.toList)) = [] := by
    decide
  have comment (rest : List Char) : includedPath? ('/' :: rest) = none := rfl
  have texts : shim.code.texts = ["#pragma once", ""] ++
      (shim.includePaths.map Code.includeLine ++
        Code.texts (shim.functions.flatMap Function.code)) := by
    rw [code, Code.texts_append, Code.texts_lines]
    simp [preamble, includePaths]
  rw [includedPaths, Config.filterMap_trimmedLines comment (by decide)
    (isOneLine_code header readable), texts, List.filterMap_append, front, List.nil_append,
    List.filterMap_append, filterMap_includeLines quotable,
    List.filterMap_eq_nil_iff.2 functions, List.append_nil]

end Shim

namespace Schema

variable {s : Schema}

theorem header_ne_iff (valid : s.validate = .ok ()) {t u : ApiType} (ht : t ∈ s.classes)
    (hu : u ∈ s.classes) : u.header ≠ t.header ↔ u ≠ t := by
  refine not_congr ⟨fun same => ?_, fun same => same ▸ rfl⟩
  exact List.inj_on_of_nodup_map (s.nodup_classNames_of_validate valid) hu ht
    (String.append_left_inj ".h" |>.1 same)

/-- A spelling depends on the class that its type mentions, and on nothing else.  So the includes
collected over any number of types are those of the classes mentioned by the types that could be
spelled, in ascending order; neither the order nor the repetition of the types matters, and a type
that cannot be spelled adds nothing.  A shim includes its own header, the support header, and then the
headers of exactly the other classes that its members mention, in ascending order. -/
theorem includes_exact (s : Schema) :
    (∀ dialect position type spelling, s.resolve dialect position type = .ok spelling →
      spelling.include = (s.mentionedClass? type).map (ApiType.artifact dialect)) ∧
    (∀ (n : TypeNames) position type e, (n.name s position type).1 = .error e →
      (n.name s position type).2 = n) ∧
    (∀ dialect steps, (TypeNames.after s ⟨dialect, .empty⟩ steps).includes.IsAscending ∧
      (∀ entry, entry ∈ (TypeNames.after s ⟨dialect, .empty⟩ steps).includes.entries ↔
        ∃ step ∈ steps, s.Accepts dialect step.1 step.2 ∧
          ∃ u, s.mentionedClass? step.2 = some u ∧ entry = u.artifact dialect) ∧
      ∀ steps', (∀ step, s.Accepts dialect step.1 step.2 → (step ∈ steps ↔ step ∈ steps')) →
        (TypeNames.after s ⟨dialect, .empty⟩ steps).includes =
          (TypeNames.after s ⟨dialect, .empty⟩ steps').includes) ∧
    (s.validate = .ok () → s.HasIdentifiers → ∀ c : Config, ∀ t ∈ s.classes,
      ∀ exports shim, ExportTable.build s t = .ok exports → Shim.ofClass s t exports = .ok shim →
        includedPaths (c.generatedFile shim.code) =
            ("../" ++ t.header) :: "ApiSupport.h" :: shim.includes.entries.map ("../" ++ ·) ∧
          shim.includes.IsAscending ∧
          ∀ header, header ∈ shim.includes.entries ↔
            ∃ u, u ≠ t ∧ s.Mentions t u ∧ header = u.header) := by
  refine ⟨fun _ _ _ _ => include_of_resolve, fun _ _ _ _ => TypeNames.name_eq_error,
    fun dialect steps => ⟨?_, fun entry => ?_, fun steps' same => ?_⟩,
    fun valid names c t ht exports shim exports_ok h => ⟨?_, ?_, fun header => ?_⟩⟩
  · exact TypeNames.isAscending_after IncludeSet.isAscending_empty
  · rw [TypeNames.mem_after]
    exact or_iff_right List.not_mem_nil
  · exact TypeNames.includes_after_congr IncludeSet.isAscending_empty same
  · rw [Shim.includedPaths_generatedFile exports_ok h names ht, Shim.includePaths,
      (Shim.isReadable_ofClass names (mem_classes.1 ht).1 exports_ok h).1]
  · exact Shim.isAscending_includes shim
  · rw [Shim.mem_includes_ofClass exports_ok h]
    constructor
    · rintro ⟨⟨u, mentions, rfl⟩, ne⟩
      exact ⟨u, (header_ne_iff valid ht mentions.mem_classes).1 ne, mentions, rfl⟩
    · rintro ⟨u, ne, mentions, rfl⟩
      exact ⟨⟨u, mentions, rfl⟩, (header_ne_iff valid ht mentions.mem_classes).2 ne⟩

def drawingSteps : List (Position × TypeRef) :=
  [(.argument, .array (.named "Figure")), (.argument, .nullable (.primitive .int))]

theorem includes_exact_drawing :
    drawing.validate = .ok () ∧ drawing.HasIdentifiers ∧
      (∃ spelling, drawing.resolve .flat .argument (.array (.named "Figure")) = .ok spelling ∧
        spelling.include = some "Figure.h") ∧
      (TypeNames.after drawing ⟨.flat, .empty⟩ drawingSteps).includes =
        (TypeNames.after drawing ⟨.flat, .empty⟩ (drawingSteps ++ drawingSteps)).includes ∧
      (∃ e, (TypeNames.name ⟨.flat, .empty⟩ drawing .argument (.nullable (.primitive .int))).1 =
        .error e) ∧
      (TypeNames.name ⟨.flat, .empty⟩ drawing .argument (.nullable (.primitive .int))).2 =
        ⟨.flat, .empty⟩ ∧
      ∃ exports shim, ApiType.canvas ∈ drawing.classes ∧
        ExportTable.build drawing .canvas = .ok exports ∧
        Shim.ofClass drawing .canvas exports = .ok shim ∧
        includedPaths (Config.generatedFile {} shim.code) =
          ["../Canvas.h", "ApiSupport.h", "../Figure.h"] := by
  obtain ⟨resolved, failed, steps, shims⟩ := includes_exact drawing
  have figures := resolved .flat .argument (.array (.named "Figure")) _ rfl
  have unchanged := failed ⟨.flat, .empty⟩ .argument (.nullable (.primitive .int)) _ rfl
  have twice := (steps .flat drawingSteps).2.2 (drawingSteps ++ drawingSteps) fun step _ => by
    rw [List.mem_append, or_self]
  have canvas := shims rfl hasIdentifiers_drawing {} .canvas ApiType.canvas_mem _ _ rfl rfl
  exact ⟨rfl, hasIdentifiers_drawing, ⟨_, rfl, figures⟩, twice, ⟨_, rfl⟩, unchanged,
    _, _, ApiType.canvas_mem, rfl, rfl, canvas.1⟩

end Schema

end InteropGen
