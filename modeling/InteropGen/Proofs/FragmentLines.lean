import InteropGen.Native.Fragment
import InteropGen.Proofs.Layout
import InteropGen.Proofs.QuietLines

set_option autoImplicit false

/-!
# The lines of a fragment

Most lines of a fragment begin alike whatever the types and members are called, and the others end
alike.  Two kinds of lines are apart from these: the storage of the handle, and the line that reveals
what the base has to raise its events.
-/

namespace InteropGen

open Text

def NativeEvents.revealing (base : String) : String := "using " ++ base ++ "::RaiseEvent;"

namespace Fragment

/-- How the lines of the handle begin, and the line that reveals a base. -/
def strangeStarts : List (List Char) :=
  [['u', 's', 'i', 'n', 'g', ' '], ['v', 'o', 'i', 'd', ' ', 'S'], ['v', 'o', 'i', 'd', '*', ' ', 'G'],
    ['v', 'o', 'i', 'd', '*', ' ', 'm']]

/-- What the lines end with that begin with a name: declarations, and members of enumerations. -/
def backs : List (List Char) := [[')', ';'], [',']]

/-- The line begins unlike those, or it is told by its end. -/
def IsKnown (x : String) : Prop :=
  (∀ start ∈ strangeStarts, ¬ start <+: x.toList) ∨ ∃ back ∈ backs, back <:+ x.toList

instance (x : String) : Decidable (IsKnown x) := by
  unfold IsKnown
  infer_instance

section Known

variable {front back : List Char}

theorem IsKnown.start (apart : (strangeStarts.all fun start => diverges start front) = true)
    (rest : String) : IsKnown (String.ofList front ++ rest) := by
  refine .inl fun start strange => ?_
  rw [String.toList_append, String.toList_ofList]
  exact not_prefix_of_diverges (List.all_eq_true.1 apart start strange)

theorem IsKnown.closed (apart : (strangeStarts.all fun start => diverges start front) = true) :
    IsKnown (String.ofList front) := by
  rw [← String.append_empty (s := String.ofList front)]
  exact .start apart ""

theorem IsKnown.ending (known : ∃ b ∈ backs, b <:+ back) (rest : String) :
    IsKnown (rest ++ String.ofList back) := by
  obtain ⟨b, hb, isSuffix⟩ := known
  refine .inr ⟨b, hb, ?_⟩
  rw [String.toList_append, String.toList_ofList]
  exact isSuffix.trans (List.suffix_append _ _)

end Known

section Lines

variable {p : String → Prop} (known : ∀ x, IsKnown x → p x)
include known

theorem isFrame_of_known : Code.IsFrame p :=
  ⟨known _ (by decide), known _ (.closed (by decide)), known _ (.closed (by decide))⟩

theorem labels_of_known : p "public:" ∧ p "protected:" ∧ p "private:" :=
  ⟨known _ (.closed (by decide)), known _ (.closed (by decide)), known _ (.closed (by decide))⟩

theorem ended_of_known : p ("\x7d" ++ ";") := known _ (.start (by decide) ";")

theorem each_lifecycle (t : ApiType) (selects : Visibility → Bool) :
    Code.Each p (lifecycle t selects) := by
  have destructor : IsKnown (destructorLine t) := by
    rw [destructorLine, String.append_assoc]
    exact .start (by decide) _
  exact Code.each_append.2
    ⟨Code.each_given _ (Code.each_line.2 (known _ (.ending (by decide) t.name))),
      Code.each_given _ (Code.each_line.2 (known _ destructor))⟩

theorem each_members (members : List NativeMember) :
    Code.Each p (Code.lines (members.map NativeMember.declaration)) := by
  refine Code.each_lines.2 fun x hx => ?_
  obtain ⟨n, _, rfl⟩ := List.mem_map.1 hx
  exact known _ (.ending (by decide) _)

theorem each_enumerators (names : List String) : Code.Each p (Code.lines (names.map (· ++ ","))) := by
  refine Code.each_lines.2 fun x hx => ?_
  obtain ⟨name, _, rfl⟩ := List.mem_map.1 hx
  exact known _ (.ending (by decide) name)

theorem each_callbackSetter (e : NativeEvents) : Code.Each p e.callbackSetter := by
  rw [NativeEvents.callbackSetter, Code.each_block (isFrame_of_known known), Code.each_line,
    String.append_assoc]
  exact ⟨known _ (.start (by decide) _), known _ (.closed (by decide))⟩

theorem each_raise (e : NativeEvents) : Code.Each p e.raise := by
  simp only [NativeEvents.raise, Code.each_block (isFrame_of_known known), Code.each_append,
    Code.each_lines_cons, Code.each_nest, Code.each_line, String.append_assoc]
  exact ⟨known _ (.start (by decide) _),
    ⟨⟨known _ (.ending (by decide) _), known _ (.closed (by decide)), Code.each_nil⟩,
      known _ (.closed (by decide))⟩, known _ (.closed (by decide))⟩

theorem each_storage (e : NativeEvents) : Code.Each p e.storage := by
  simp only [NativeEvents.storage, Code.each_block (isFrame_of_known known), Code.each_lines_cons,
    String.append_assoc]
  exact ⟨known _ (.start (by decide) _), known _ (.start (by decide) _),
    known _ (.closed (by decide)), Code.each_nil⟩

theorem each_events {e : NativeEvents}
    (reveals : ∀ base ∈ e.hiddenBase, p (NativeEvents.revealing base)) : Code.Each p e.code := by
  have frame := isFrame_of_known known
  have revealed : Code.Each p e.revealed := by
    rw [NativeEvents.revealed]
    split
    · exact Code.each_nil
    · rename_i base hidden
      exact Code.each_append.2 ⟨Code.each_line.2 (reveals base hidden), Code.each_blank frame⟩
  have headline : p ("enum class " ++ (e.typeName ++ "Event")) := known _ (.start (by decide) _)
  have typedefLine : p e.typedefLine := known _ (.ending (by decide) _)
  simp only [NativeEvents.code, Code.each_append, Code.each_line, Code.each_nest,
    Code.each_blockEnding frame, Code.each_blank frame, String.append_assoc, headline, typedefLine,
    revealed, each_enumerators known, each_callbackSetter known, each_raise known,
    each_storage known, labels_of_known known, ended_of_known known, and_true]

theorem each_wrapper (w : SlotWrapper) : Code.Each p w.code := by
  have frame := isFrame_of_known known
  have typedefLine : p w.typedefLine := known _ (.ending (by decide) _)
  have signature : p w.signatureLine := by
    unfold SlotWrapper.signatureLine
    simp only [String.append_assoc]
    exact known _ (.start (by decide) _)
  have statement : p w.statement := by
    unfold SlotWrapper.statement SlotWrapper.call
    simp only [String.append_assoc]
    cases w.isVoid with
    | true => exact known _ (.start (by decide) _)
    | false => exact known _ (.start (by decide) _)
  simp only [SlotWrapper.code, Code.each_append, Code.each_line, Code.each_block frame,
    Code.each_blank frame]
  exact ⟨⟨⟨trivial, typedefLine⟩, trivial⟩, signature, statement⟩

theorem each_locate (n : NativeTrampolines) : Code.Each p n.locate := by
  have unset : p ("throw TrampolineLocatorNotSetException(\"" ++ (n.typeName ++ "\");")) :=
    known _ (.start (by decide) _)
  have unknown : p ("throw UnknownTrampolineException(\"" ++
      (n.typeName ++ "\", static_cast<int>(trampoline));")) := known _ (.start (by decide) _)
  simp only [NativeTrampolines.locate, Code.each_block (isFrame_of_known known), Code.each_append,
    Code.each_lines_cons, Code.each_line, Code.each_nest, String.append_assoc, unset, unknown,
    and_true]
  exact ⟨known _ (.closed (by decide)),
    ⟨⟨known _ (.closed (by decide)), known _ (.closed (by decide)), Code.each_nil⟩,
      known _ (.closed (by decide)), known _ (.closed (by decide)), Code.each_nil⟩,
    known _ (.closed (by decide))⟩

theorem each_setter : Code.Each p NativeTrampolines.setter := by
  simp only [NativeTrampolines.setter, Code.each_block (isFrame_of_known known), Code.each_lines_cons]
  exact ⟨known _ (.closed (by decide)), known _ (.closed (by decide)), known _ (.closed (by decide)),
    Code.each_nil⟩

theorem each_locator : Code.Each p NativeTrampolines.locator := by
  simp only [NativeTrampolines.locator, Code.each_block (isFrame_of_known known), Code.each_lines_cons]
  exact ⟨known _ (.closed (by decide)), known _ (.closed (by decide)), known _ (.closed (by decide)),
    Code.each_nil⟩

theorem each_trampolines (n : NativeTrampolines) : Code.Each p n.code := by
  have frame := isFrame_of_known known
  have wrappers : Code.Each p (n.wrappers.flatMap SlotWrapper.code) :=
    Code.each_flatMap fun w _ => each_wrapper known w
  have managed : p "struct Managed" := known _ (.closed (by decide))
  have enumeration : p "enum class Trampoline" := known _ (.closed (by decide))
  have locatorType : p NativeTrampolines.locatorType := known _ (.closed (by decide))
  simp only [NativeTrampolines.code, NativeTrampolines.body, Code.each_append, Code.each_line,
    Code.each_nest, Code.each_blockEnding frame, Code.each_blank frame, each_enumerators known,
    wrappers, each_setter known, each_locator known, each_locate known, labels_of_known known,
    ended_of_known known, managed, enumeration, locatorType, and_true]

theorem each_privatePart (t : ApiType) : Code.Each p (privatePart t) :=
  Code.each_append.2
    ⟨Code.each_line.2 (labels_of_known known).2.2, Code.each_nest.2 (each_lifecycle known _ _)⟩

/-- All lines are known but those of the handle and the one that reveals a base. -/
theorem each_line {f : Fragment} (handle : f.ownsHandle = true → Code.Each p handlePart)
    (reveals : ∀ e ∈ f.events, ∀ base ∈ e.hiddenBase, p (NativeEvents.revealing base)) :
    Code.Each p f.code := by
  have frame := isFrame_of_known known
  have publicPart : Code.Each p f.publicPart := by
    refine Code.each_append.2 ⟨Code.each_line.2 (labels_of_known known).1, Code.each_nest.2 ?_⟩
    exact Code.each_append.2
      ⟨each_lifecycle known _ _, Code.each_apart frame (each_members known _)⟩
  have events : Code.Each p ((f.events.map fun e => Code.blank ++ e.code).getD []) := by
    refine Code.each_getD fun code h => ?_
    obtain ⟨e, he, rfl⟩ := Option.map_eq_some_iff.1 h
    exact Code.each_append.2 ⟨Code.each_blank frame, each_events known (reveals e he)⟩
  have trampolines : Code.Each p ((f.trampolines.map fun n => Code.blank ++ n.code).getD []) := by
    refine Code.each_getD fun code h => ?_
    obtain ⟨n, _, rfl⟩ := Option.map_eq_some_iff.1 h
    exact Code.each_append.2 ⟨Code.each_blank frame, each_trampolines known n⟩
  have handlePart : Code.Each p (Code.given f.ownsHandle (Code.blank ++ handlePart)) := by
    cases owns : f.ownsHandle with
    | false => exact Code.each_nil
    | true => exact Code.each_append.2 ⟨Code.each_blank frame, handle owns⟩
  have hidden : Code.Each p (Code.blank ++ privatePart f.type) :=
    Code.each_append.2 ⟨Code.each_blank frame, each_privatePart known f.type⟩
  simp only [code, Code.each_append]
  exact ⟨⟨⟨⟨publicPart, events⟩, trampolines⟩, handlePart⟩, Code.each_given _ hidden⟩

end Lines

end Fragment

end InteropGen
