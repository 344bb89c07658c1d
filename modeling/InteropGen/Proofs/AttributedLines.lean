import InteropGen.Proofs.WrapperText

set_option autoImplicit false

/-!
# Attributes above declarations

The convention of an import or of a delegate stands in an attribute above it.  Only the attribute of
its result may come in between.
-/

namespace InteropGen

open Text

def resultStart : List Char := "[return: ".toList

def delegateStart : List Char := "public delegate ".toList

def DeclaresImport (line : List Char) : Prop := importSymbol? line ≠ none

instance (line : List Char) : Decidable (DeclaresImport line) :=
  inferInstanceAs (Decidable (importSymbol? line ≠ none))

def DeclaresDelegate (line : List Char) : Prop := delegateStart <+: line

instance (line : List Char) : Decidable (DeclaresDelegate line) :=
  inferInstanceAs (Decidable (delegateStart <+: line))

/-- The mark stands above each declaration, with nothing but attributes of results in between. -/
def Attributed (declares : List Char → Prop) (mark : List Char) (lines : List (List Char)) : Prop :=
  ∀ above line below, lines = above ++ line :: below → declares line →
    ∃ front results, above = front ++ mark :: results ∧ ∀ x ∈ results, resultStart <+: x

namespace Attributed

variable {declares : List Char → Prop} {mark line : List Char} {xs ys : List (List Char)}

theorem of_none (h : ∀ x ∈ xs, ¬ declares x) : Attributed declares mark xs := by
  intro above line below eq declared
  exact absurd declared (h line (by simp [eq]))

/-- Right above a declaration stands the mark, or the attribute of a result. -/
theorem above {x : List Char} {front below : List (List Char)}
    (h : Attributed declares mark (front ++ x :: line :: below)) (declared : declares line) :
    x = mark ∨ resultStart <+: x := by
  obtain ⟨before, results, eq, each⟩ := h (front ++ [x]) line below (by simp) declared
  have last : (front ++ [x]).getLast? = (mark :: results).getLast? := by
    rw [eq, List.getLast?_append_cons]
  rw [List.getLast?_concat] at last
  rcases List.mem_cons.1 (List.mem_of_getLast? last.symm) with rfl | mem
  · exact .inl rfl
  · exact .inr (each x mem)

theorem append (h : Attributed declares mark xs) (h' : Attributed declares mark ys) :
    Attributed declares mark (xs ++ ys) := by
  intro above line below eq declared
  rcases List.append_eq_append_iff.1 eq with ⟨middle, rfl, eq'⟩ | ⟨middle, eq, eq'⟩
  · obtain ⟨front, results, rfl, each⟩ := h' middle line below eq' declared
    exact ⟨xs ++ front, results, by rw [List.append_assoc], each⟩
  · cases middle with
    | nil =>
      -- A declaration on the first line of the second part would have nothing above it.
      obtain ⟨front, results, eq, _⟩ := h' [] line below eq'.symm declared
      simp at eq
    | cons head middle =>
      obtain ⟨rfl, _⟩ := List.cons.inj eq'
      exact h above line middle eq declared

theorem declaration (line : List Char) (other : ∀ x ∈ mark :: xs, ¬ declares x)
    (results : ∀ x ∈ xs, resultStart <+: x) :
    Attributed declares mark (mark :: xs ++ [line]) := by
  intro above found below eq declared
  rcases List.append_eq_append_iff.1 eq with ⟨middle, rfl, eq⟩ | ⟨middle, eq, eq'⟩
  · cases middle with
    | nil => exact ⟨[], xs, by simp, results⟩
    | cons head middle => simp at eq
  · cases middle with
    | nil => exact ⟨[], xs, by simp [eq], results⟩
    | cons head middle =>
      obtain ⟨rfl, _⟩ := List.cons.inj eq'
      exact absurd declared (other found (by simp [eq]))

end Attributed

namespace Code

variable {declares : List Char → Prop} {mark : String} {code d : Code}

def Attributed (declares : List Char → Prop) (mark : String) (code : Code) : Prop :=
  InteropGen.Attributed declares mark.toList (code.texts.map String.toList)

namespace Attributed

theorem of_each (h : Each (fun x => ¬ declares x.toList) code) : Attributed declares mark code :=
  .of_none (List.forall_mem_map.2 h)

theorem append (h : Attributed declares mark code) (h' : Attributed declares mark d) :
    Attributed declares mark (code ++ d) := by
  rw [Attributed, texts_append, List.map_append]
  exact InteropGen.Attributed.append h h'

theorem flatMap {α : Type} {as : List α} {f : α → Code}
    (h : ∀ a ∈ as, Attributed declares mark (f a)) : Attributed declares mark (as.flatMap f) := by
  induction as with
  | nil => exact of_each each_nil
  | cons a as ih =>
    rw [List.flatMap_cons]
    exact (h a List.mem_cons_self).append (ih fun b hb => h b (List.mem_cons_of_mem a hb))

theorem given (b : Bool) (h : Attributed declares mark code) :
    Attributed declares mark (Code.given b code) := by
  cases b with
  | false => exact of_each each_nil
  | true => exact h

theorem getD {o : Option Code} (h : ∀ code ∈ o, Attributed declares mark code) :
    Attributed declares mark (o.getD []) := by
  cases o with
  | none => exact of_each each_nil
  | some code => exact h code rfl

theorem declaration {results : List String} (line : String) (attr : ¬ declares mark.toList)
    (other : Each (fun x => ¬ declares x.toList) (Code.lines results))
    (starts : ∀ x ∈ results, resultStart <+: x.toList) :
    Attributed declares mark (Code.line mark ++ Code.lines results ++ Code.line line) := by
  have others : ∀ x ∈ mark.toList :: results.map String.toList, ¬ declares x :=
    List.forall_mem_cons.2 ⟨attr, List.forall_mem_map.2 (each_lines.1 other)⟩
  have below : ∀ x ∈ results.map String.toList, resultStart <+: x := List.forall_mem_map.2 starts
  simpa [Attributed] using InteropGen.Attributed.declaration line.toList others below

end Attributed

end Code

section Attributes

variable {c : Config} {o : Option String}

theorem startsWith_results (h : ∀ x ∈ o, x ∈ returnAttributes) :
    ∀ x ∈ o.toList, resultStart <+: x.toList := by
  have each : ∀ x ∈ returnAttributes, resultStart <+: x.toList := by decide
  exact fun x hx => each x (h x (Option.mem_toList.1 hx))

theorem IsQuiet.not_declaresImport {x : String} (h : IsQuiet x) : ¬ DeclaresImport x.toList :=
  not_not_intro h.importSymbol?

abbrev OtherLine (x : String) : Prop := ¬ DeclaresDelegate x.toList

theorem isFrame_otherLine : Code.IsFrame OtherLine := ⟨by decide, by decide, by decide⟩

theorem otherLine_start {start : List Char} (h : diverges delegateStart start = true)
    (rest : String) : OtherLine (String.ofList start ++ rest) := by
  rw [OtherLine, DeclaresDelegate, String.toList_append, String.toList_ofList]
  exact not_prefix_of_diverges h

theorem otherLine_callbackAttribute : OtherLine (callbackAttribute c) := by
  change OtherLine ("[UnmanagedFunctionPointer(" ++ c.native.convention.managed ++ ")]")
  rw [String.append_assoc]
  exact otherLine_start (by decide) _

theorem otherLine_libraryAttribute : OtherLine (Import.libraryAttribute c) := by
  change OtherLine ("[DllImport(NativeModuleName, CallingConvention = " ++
    c.native.convention.managed ++ ")]")
  rw [String.append_assoc]
  exact otherLine_start (by decide) _

theorem other_results (h : ∀ x ∈ o, x ∈ returnAttributes) :
    Code.Each OtherLine (Code.lines o.toList) := by
  have each : ∀ x ∈ returnAttributes, OtherLine x := by decide
  exact Code.each_lines.2 fun x hx => each x (h x (Option.mem_toList.1 hx))

theorem other_entries {entries : List String} (words : ∀ name ∈ entries, IsWord name) :
    Code.Each OtherLine (Code.lines (entries.map (· ++ ","))) := by
  refine Code.each_lines.2 (List.forall_mem_map.2 fun name hname => ?_)
  have comma : firstMark (name.toList ++ ",".toList) = some ',' :=
    firstMark_word (words name hname) ',' [] (by decide)
  rw [OtherLine, DeclaresDelegate, String.toList_append]
  exact not_prefix_of_firstMark (by decide : firstMark delegateStart = some ' ')
    (by rw [comma]; decide)

end Attributes

section Imports

variable {c : Config}

theorem Import.IsReadable.attributed {i : Import} (h : i.IsReadable) :
    (i.code c).Attributed DeclaresImport (Import.libraryAttribute c) := by
  have blank : Code.blank.Attributed DeclaresImport (Import.libraryAttribute c) :=
    .of_each (Code.each_line.2 isQuiet_empty.not_declaresImport)
  have results : Code.Each (fun x => ¬ DeclaresImport x.toList) (Code.lines i.marshalling.toList) :=
    (quiet_marshalling h.marshalling).imp fun _ quiet => quiet.not_declaresImport
  have declared := Code.Attributed.declaration i.line
    (isQuiet_libraryAttribute c).not_declaresImport results (startsWith_results h.marshalling)
  simpa [Import.code, List.append_assoc] using blank.append declared

theorem Import.IsReadable.other {i : Import} (h : i.IsReadable) :
    Code.Each OtherLine (i.code c) := by
  have line : OtherLine i.line := by
    rw [Import.line_eq]
    simp only [String.append_assoc]
    exact otherLine_start (by decide) _
  simp only [Import.code, Code.each_append, Code.each_line]
  exact ⟨⟨⟨Code.each_blank isFrame_otherLine, otherLine_libraryAttribute⟩,
    other_results h.marshalling⟩, line⟩

theorem attributed_blank : Code.blank.Attributed DeclaresDelegate (callbackAttribute c) :=
  .of_each (Code.each_blank isFrame_otherLine)

theorem attributed_callback (line : String) :
    (Code.line (callbackAttribute c) ++ Code.line line).Attributed DeclaresDelegate
      (callbackAttribute c) := by
  have none : ∀ x ∈ ([] : List String), resultStart <+: x.toList := List.forall_mem_nil _
  have declared := Code.Attributed.declaration line (otherLine_callbackAttribute (c := c))
    Code.each_nil none
  simpa [Code.lines] using declared

theorem SlotDelegate.IsLine.attributed {d : SlotDelegate} (h : d.IsLine) (typeName : String) :
    (d.code c typeName).Attributed DeclaresDelegate (callbackAttribute c) := by
  have declared := Code.Attributed.declaration (d.line typeName)
    (otherLine_callbackAttribute (c := c)) (other_results h.marshalling)
    (startsWith_results h.marshalling)
  simpa [SlotDelegate.code, List.append_assoc] using attributed_blank.append declared

/-- Each delegate of the slots and the one that locates them stand below the attribute that carries
the convention. -/
theorem SlotDelegates.attributed {d : SlotDelegates} (lines : ∀ x ∈ d.delegates, x.IsLine) :
    (d.code c).Attributed DeclaresDelegate (callbackAttribute c) := by
  have headline : OtherLine ("public enum " ++ d.typeName ++ "Trampoline") := by
    rw [String.append_assoc]
    exact otherLine_start (by decide) _
  have words : ∀ name ∈ d.enumerators, IsWord name :=
    List.forall_mem_map.2 fun x hx => (lines x hx).slot
  have enum := (Code.each_block isFrame_otherLine).2 ⟨headline, other_entries words⟩
  have slots : Code.Attributed DeclaresDelegate (callbackAttribute c)
      (d.delegates.flatMap (SlotDelegate.code c d.typeName)) :=
    .flatMap fun x hx => (lines x hx).attributed d.typeName
  have whole := ((Code.Attributed.of_each enum).append attributed_blank).append
    (attributed_callback (c := c) d.locatorLine)
  simpa [SlotDelegates.code, List.append_assoc] using whole.append slots

namespace Imports

variable {imports : Imports}

theorem IsReadable.attributed_eventTypes (h : imports.IsReadable) :
    (imports.eventTypes c).Attributed DeclaresDelegate (callbackAttribute c) := by
  have headline : OtherLine ("public enum " ++ imports.typeName ++ "Event") := by
    rw [String.append_assoc]
    exact otherLine_start (by decide) _
  have enum := (Code.each_block isFrame_otherLine).2 ⟨headline, other_entries h.events⟩
  have callback := attributed_callback (c := c) ("public delegate IntPtr " ++ imports.typeName ++
    "EventCallbackType(IntPtr obj, " ++ imports.typeName ++ "Event e, IntPtr parameter);")
  have whole := (attributed_blank.append callback).append attributed_blank
  simpa [eventTypes, List.append_assoc] using whole.append (.of_each enum)

theorem IsReadable.attributed_delegates (h : imports.IsReadable) :
    (imports.declarations c).Attributed DeclaresDelegate (callbackAttribute c) := by
  have slots : ((imports.delegates.map fun d => Code.blank ++ d.code c).getD []).Attributed
      DeclaresDelegate (callbackAttribute c) := by
    refine .getD fun code hcode => ?_
    obtain ⟨d, hd, rfl⟩ := Option.map_eq_some_iff.1 hcode
    exact attributed_blank.append (SlotDelegates.attributed (h.delegates d hd).2)
  exact ((Code.Attributed.given _ h.attributed_eventTypes).append slots).append
    (.of_each (Code.each_flatMap fun i hi => (h.imports i hi).other))

theorem IsReadable.attributed_imports (h : imports.IsReadable) :
    (imports.declarations c).Attributed DeclaresImport (Import.libraryAttribute c) := by
  have types := h.quiet_types (c := c)
  exact (Code.Attributed.of_each (types.imp fun _ quiet => quiet.not_declaresImport)).append
    (.flatMap fun i hi => (h.imports i hi).attributed)

end Imports

end Imports

end InteropGen
