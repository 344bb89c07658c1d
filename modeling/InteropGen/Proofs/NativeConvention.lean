import InteropGen.Proofs.FragmentEnums
import InteropGen.Proofs.Occurrences
import InteropGen.Proofs.ShimText
import Mathlib.Data.List.Infix

set_option autoImplicit false

/-!
# The convention in native files

The native half leaves the convention to two macros.  Every function of a shim is declared with the
one, and every type of function pointers in a fragment with the other.  The support header defines
both as the keyword of the convention on the platform that has one.
-/

namespace InteropGen

open Text

variable {c : Config} {s : Schema} {t : ApiType}

section Functions

def openers : List (List Char) → List (List Char)
  | line :: next :: rest =>
    if next = ['\x7b'] then line :: openers (next :: rest) else openers (next :: rest)
  | _ => []

/-- The line declares a function with the macro for exports and the one for the convention. -/
def DeclaresCall (line : List Char) : Prop :=
  ∃ result name parameters : String, '(' ∉ result.toList ∧
    line = ("NATIVE_API " ++ result ++ " NATIVE_API_CALL " ++ name ++ "(" ++ parameters ++
      ")").toList

variable {xs ys : List (List Char)}

theorem openers_eq_nil (h : ∀ x ∈ xs, x ≠ ['\x7b']) : openers xs = [] := by
  induction xs with
  | nil => rfl
  | cons x xs ih =>
    cases xs with
    | nil => rfl
    | cons y ys =>
      rw [openers, if_neg (h y (by simp))]
      exact ih fun z hz => h z (List.mem_cons_of_mem x hz)

/-- Nothing above the seam opens what stands below it, unless the lower part begins with a brace. -/
theorem openers_append (h : ys.head? ≠ some ['\x7b']) :
    openers (xs ++ ys) = openers xs ++ openers ys := by
  induction xs with
  | nil => rfl
  | cons x xs ih =>
    cases xs with
    | nil =>
      cases ys with
      | nil => rfl
      | cons y ys =>
        have other : y ≠ ['\x7b'] := fun eq => h (by simp [eq])
        rw [List.singleton_append, openers, if_neg other]
        rfl
    | cons z zs =>
      have step (rest : List (List Char)) : openers (x :: z :: rest) =
          (if z = ['\x7b'] then [x] else []) ++ openers (z :: rest) := by
        rw [openers]
        split <;> rfl
      rw [List.cons_append, List.cons_append, step, step, ← List.cons_append, ih,
        List.append_assoc]

namespace Shim

theorem getLast?_ending {a : String} {e : List Char} (h : e.getLast? = some ';') :
    (a ++ String.ofList e).toList.getLast? = some ';' := by
  rw [String.toList_append, String.toList_ofList, List.getLast?_append, h]
  rfl

theorem Answer.last_statement (call : String) (answer : Answer) :
    (answer.statement call).toList.getLast? = some ';' := by
  cases answer with
  | dropped => exact getLast?_ending (by decide)
  | asIs => exact getLast?_ending (by decide)
  | addressed => exact getLast?_ending (by decide)
  | encoded => exact getLast?_ending (by decide)

theorem Body.last_statement (b : Body) : b.statement.toList.getLast? = some ';' := by
  cases b with
  | call answer receiver member arguments => exact answer.last_statement _
  | itemAt vector answer => exact answer.last_statement _
  | delete => exact getLast?_ending (a := "delete obj") (e := [';']) rfl
  | setManagedHandle =>
    exact getLast?_ending (a := "obj->SetManagedHandle(handle)") (e := [';']) rfl
  | construct | openArray | countItems | closeArray | setEventCallback | setTrampolineLocator =>
    exact getLast?_ending (by decide)

def Function.shown (f : Function) : List (List Char) := f.code.texts.map fun x => trimLeft x.toList

theorem Function.openers_shown (f : Function) : openers f.shown = [f.signatureLine.toList] := by
  have signature : trimLeft f.signatureLine.toList = f.signatureLine.toList := by
    rw [signatureLine_eq]
    simp only [String.append_assoc]
    rw [String.toList_append, trimLeft_append (by decide)]
    rfl
  have notOpening : f.signatureLine.toList ≠ ['\x7b'] := by
    rw [signatureLine_eq]
    simp [String.toList_append]
  have statement : trimLeft f.body.statement.toList ≠ ['\x7b'] := by
    intro eq
    obtain ⟨front, whole⟩ := List.dropWhile_suffix (l := f.body.statement.toList) isBlank
    change front ++ trimLeft f.body.statement.toList = _ at whole
    have last := f.body.last_statement
    rw [← whole, eq, List.getLast?_append] at last
    simp at last
  have lines : f.shown = [[], f.signatureLine.toList, ['\x7b'],
      trimLeft f.body.statement.toList, ['\x7d']] := by
    rw [shown, texts_code]
    simp only [List.map_cons, List.map_nil, signature]
    rfl
  simp [lines, openers, notOpening, statement]

theorem head_functions (functions : List Function) :
    (functions.flatMap Function.shown).head? ≠ some ['\x7b'] := by
  cases functions with
  | nil => simp
  | cons f fs => simp [Function.shown, Function.texts_code, trimLeft]

theorem openers_functions (functions : List Function) :
    openers (functions.flatMap Function.shown) = functions.map fun f => f.signatureLine.toList := by
  induction functions with
  | nil => rfl
  | cons f fs ih =>
    rw [List.flatMap_cons, openers_append (head_functions fs), f.openers_shown, ih]
    rfl

theorem preamble_apart (shim : Shim) :
    ∀ x ∈ shim.preamble.map fun x => trimLeft x.toList, x ≠ ['\x7b'] := by
  have includeLine (path : String) : trimLeft (Code.includeLine path).toList ≠ ['\x7b'] := by
    rw [Code.includeLine, String.append_assoc, String.toList_append, trimLeft_append (by decide)]
    simp [trimLeft, isBlank]
  have apart : ∀ x ∈ shim.preamble, trimLeft x.toList ≠ ['\x7b'] := by
    refine List.forall_mem_append.2 ⟨?_, List.forall_mem_map.2 fun header _ => includeLine _⟩
    simp only [List.forall_mem_cons]
    exact ⟨by decide, by decide, includeLine _, includeLine _, by simp⟩
  exact List.forall_mem_map.2 apart

/-- The functions that the text of a shim defines are those of the shim. -/
theorem openers_generatedFile {shim : Shim} (header : IsOneLine shim.type.header)
    (readable : ∀ f ∈ shim.functions, f.IsReadable) :
    openers (trimmedLines (c.generatedFile shim.code)) =
      shim.functions.map fun f => f.signatureLine.toList := by
  have texts : shim.code.texts.map (fun x => trimLeft x.toList) =
      shim.preamble.map (fun x => trimLeft x.toList) ++ shim.functions.flatMap Function.shown := by
    rw [code, Code.texts_append, Code.texts_lines, Code.texts_flatMap, List.map_append,
      List.map_flatMap]
    rfl
  have above : ∀ x ∈ c.header.shownLines c.indentUnit ++
      shim.preamble.map (fun x => trimLeft x.toList), x ≠ ['\x7b'] := by
    refine List.forall_mem_append.2 ⟨fun x hx => ?_, preamble_apart shim⟩
    obtain ⟨rest, rfl⟩ := Config.mem_shownLines_header hx
    simp
  rw [Config.trimmedLines_generatedFile (isOneLine_code header readable), texts,
    ← List.append_assoc, openers_append (by simp), openers_append (head_functions _),
    openers_eq_nil above,
    openers_functions, List.nil_append, openers_eq_nil (by simp), List.append_nil]

theorem declaresCall {f : Function} (h : f.IsReadable) : DeclaresCall f.signatureLine.toList :=
  ⟨f.result.literal, f.name, Declared.join f.parameters, h.result.not_mem (by decide) (by decide),
    congrArg String.toList f.signatureLine_eq⟩

end Shim

end Functions

section Pointers

/-- The line declares a type of function pointers: it defines a name, and has parameters behind
other brackets. -/
def DeclaresPointer (line : List Char) : Prop := "typedef ".toList <+: line ∧ [')', '('] <:+: line

instance (line : List Char) : Decidable (DeclaresPointer line) :=
  inferInstanceAs (Decidable (_ ∧ _))

/-- How the brackets of a function pointer begin. -/
def callbackMark : List Char := "(NATIVE_CALLBACK_CALL* ".toList

/-- If the line declares a type of function pointers, it does so with the macro. -/
structure CarriesCallback (x : String) : Prop where
  oneLine : IsOneLine x
  carries : DeclaresPointer (trimLeft x.toList) → callbackMark <:+: trimLeft x.toList

instance (x : String) : Decidable (CarriesCallback x) :=
  decidable_of_iff (IsOneLine x ∧ (DeclaresPointer (trimLeft x.toList) →
      callbackMark <:+: trimLeft x.toList))
    ⟨fun h => ⟨h.1, h.2⟩, fun h => ⟨h.oneLine, h.carries⟩⟩

theorem isFrame_carriesCallback : Code.IsFrame CarriesCallback := ⟨by decide, by decide, by decide⟩

/-- A text that begins like this, behind its blanks, does not begin as the definition of a type. -/
def startsApart (start : List Char) : Bool :=
  diverges "typedef ".toList (trimLeft start) && !start.contains '\n'

theorem CarriesCallback.start {start : List Char} {rest : String} (h : startsApart start = true)
    (hr : IsOneLine rest) : CarriesCallback (String.ofList start ++ rest) := by
  rw [startsApart, Bool.and_eq_true, Bool.not_eq_true'] at h
  obtain ⟨apart, oneLine⟩ := h
  have shown : trimLeft start ≠ [] := by
    intro empty
    rw [empty] at apart
    exact absurd apart (by decide)
  refine ⟨isOneLine_append.2 ⟨isOneLine_ofList (by simpa using oneLine), hr⟩, fun declared => ?_⟩
  rw [String.toList_append, String.toList_ofList, trimLeft_append shown] at declared
  exact absurd declared.1 (not_prefix_of_diverges apart)

theorem CarriesCallback.closed {start : List Char} (h : startsApart start = true) :
    CarriesCallback (String.ofList start) := by
  rw [← String.append_empty (s := String.ofList start)]
  exact CarriesCallback.start h (by decide)

theorem CarriesCallback.ending {x : String} {tail : List Char} (absent : ')' ∉ x.toList)
    (h : ¬ [')', '('] <:+: tail) (ht : '\n' ∉ tail) (hx : IsOneLine x) :
    CarriesCallback (x ++ String.ofList tail) := by
  refine ⟨isOneLine_append.2 ⟨hx, isOneLine_ofList ht⟩, fun declared => absurd ?_ h⟩
  have inside := declared.2.trans (List.dropWhile_suffix _).isInfix
  rw [String.toList_append, String.toList_ofList] at inside
  exact infix_of_infix_append absent inside

theorem CarriesCallback.marked {start : List Char} {rest : String}
    (h : trimLeft start = start ∧ start ≠ [])
    (mark : callbackMark <:+: start ∨ callbackMark <:+: rest.toList) (hs : '\n' ∉ start)
    (hr : IsOneLine rest) : CarriesCallback (String.ofList start ++ rest) := by
  refine ⟨isOneLine_append.2 ⟨isOneLine_ofList hs, hr⟩, fun _ => ?_⟩
  rw [String.toList_append, String.toList_ofList, trimLeft_append (h.1.symm ▸ h.2), h.1]
  rcases mark with mark | mark
  · exact mark.trans (List.prefix_append _ _).isInfix
  · exact mark.trans (List.suffix_append _ _).isInfix

theorem CarriesCallback.typedef {rest : String} (hr : IsOneLine rest) :
    CarriesCallback ("typedef void* (NATIVE_CALLBACK_CALL* " ++ rest) :=
  .marked (by decide) (.inl (by decide)) (by decide) hr

end Pointers

section Fragments

namespace NativeMember

structure IsLine (n : NativeMember) : Prop where
  name : IsWord n.name
  result : IsOver " *&<>:" n.result.literal
  parameters : ∀ d ∈ n.parameters, IsOver " *&<>:" d.text

theorem isOver_resolve {position : Position} {type : TypeRef} {spelling : Spelling}
    (names : s.HasIdentifiers) (h : s.resolve .native position type = .ok spelling) :
    IsOver " *&<>:" spelling.literal := by
  obtain ⟨shape, hshape, ok⟩ := Schema.resolve_eq_ok.1 h
  exact isOver_native (names.all_isWord hshape) ok

theorem isLine_ofMember (names : s.HasIdentifiers) (own : t.HasIdentifiers) {m : Member}
    {n : NativeMember} (h : ofMember s t m = .ok n) : n.IsLine := by
  obtain ⟨result, hresult, h⟩ := bind_eq_ok.1 h
  obtain ⟨parameters, hparameters, h⟩ := bind_eq_ok.1 h
  cases h
  refine ⟨own.isWord_signature m, isOver_resolve names hresult, fun d hd => ?_⟩
  obtain ⟨p, hp, ok⟩ :=
    exists_left_of_forall₂ ((Schema.declareAll_stepwise s .native).forall₂ hparameters) hd
  obtain ⟨spelling, hspelling, rfl⟩ := map_eq_ok.1 ok
  exact isOver_declared (by decide) (isOver_resolve names hspelling) (own.isWord_parameters m p hp)

theorem IsLine.carries {n : NativeMember} (h : n.IsLine) : CarriesCallback n.declaration := by
  let start := (if n.isStatic then "static " else "") ++ n.result.literal ++ " " ++ n.name ++ "(" ++
    Declared.join n.parameters
  have chars : IsOver " *&<>:,(" start := by
    have static : IsOver " *&<>:,(" (if n.isStatic then "static " else "") := by split <;> decide
    have join : IsOver " *&<>:,(" (Declared.join n.parameters) :=
      isOver_intercalate (by decide) (List.forall_mem_map.2 fun d hd =>
        (h.parameters d hd).mono (by decide))
    simp only [start, isOver_append]
    exact ⟨⟨⟨⟨⟨static, h.result.mono (by decide)⟩, by decide⟩, h.name.over⟩, by decide⟩, join⟩
  exact .ending (x := start) (chars.not_mem (by decide) (by decide)) (by decide)
    (by decide) (chars.isOneLine (by decide))

end NativeMember

theorem carries_entries {entries : List String} (words : ∀ name ∈ entries, IsWord name) :
    Code.Each CarriesCallback (Code.lines (entries.map (· ++ ","))) := by
  refine Code.each_lines.2 (List.forall_mem_map.2 fun name hname => ?_)
  have word := words name hname
  exact .ending (word.not_mem (by decide) (by simp)) (by decide) (by decide)
    word.isOneLine

namespace NativeEvents

variable {e : NativeEvents} (own : IsWord e.typeName)
include own

theorem carries_plumbing :
    Code.Each CarriesCallback
      (Code.line e.typedefLine ++ e.callbackSetter ++ e.raise ++ e.storage) := by
  have frame := isFrame_carriesCallback
  have callback := isOneLine_callbackType own
  have typedef : CarriesCallback e.typedefLine := by
    change CarriesCallback ("typedef void* (NATIVE_CALLBACK_CALL* " ++ e.callbackType ++ ")(" ++
      e.typeName ++ "* obj, " ++ e.typeName ++ "Event event, void* parameter);")
    simp only [String.append_assoc]
    refine .typedef ?_
    simp only [isOneLine_append, callback, own.isOneLine]
    decide
  have setter : CarriesCallback
      ("static void SetEventCallback(" ++ e.callbackType ++ " value)") := by
    rw [String.append_assoc]
    exact .start (by decide) (callback.suffixed (by decide))
  have raised : CarriesCallback ("void* RaiseEvent(" ++ e.typeName ++
      "Event event, void* parameter = nullptr)") := by
    rw [String.append_assoc]
    exact .start (by decide)
      (own.isOneLine.suffixed (by decide))
  have loaded : CarriesCallback (e.callbackType ++ " callback = EventCallback();") := by
    have word : IsWord e.callbackType := isWord_append.2 ⟨own, by decide⟩
    exact .ending (word.not_mem (by decide) (by simp)) (by decide) (by decide) callback
  have stored : CarriesCallback ("static " ++ e.callbackType ++ "& EventCallback()") ∧
      CarriesCallback ("static " ++ e.callbackType ++ " callback = nullptr;") := by
    simp only [String.append_assoc]
    exact ⟨.start (by decide) (callback.suffixed (by decide)),
      .start (by decide) (callback.suffixed (by decide))⟩
  simp only [callbackSetter, raise, storage, Code.each_append, Code.each_line, Code.each_nest,
    Code.each_block frame, Code.each_lines_cons]
  exact ⟨⟨⟨typedef, setter, .closed (by decide)⟩, raised,
    ⟨⟨loaded, .closed (by decide), Code.each_nil⟩, .closed (by decide)⟩, .closed (by decide)⟩,
    stored.1, stored.2, .closed (by decide), Code.each_nil⟩

theorem carries_code (names : ∀ name ∈ e.names, IsWord name) (base : ∀ b ∈ e.hiddenBase, IsWord b) :
    Code.Each CarriesCallback e.code := by
  have frame := isFrame_carriesCallback
  have plumbing := carries_plumbing own
  have headline : CarriesCallback ("enum class " ++ e.typeName ++ "Event") := by
    rw [String.append_assoc]
    exact .start (by decide)
      (own.isOneLine.suffixed (by decide))
  have revealed : Code.Each CarriesCallback e.revealed := by
    rw [NativeEvents.revealed]
    split
    · exact Code.each_nil
    · rename_i b hb
      have line : CarriesCallback ("using " ++ b ++ "::RaiseEvent;") := by
        rw [String.append_assoc]
        exact .start (by decide)
          ((base b hb).isOneLine.suffixed (by decide))
      exact Code.each_append.2 ⟨Code.each_line.2 line, Code.each_blank frame⟩
  simp only [Code.each_append, Code.each_line] at plumbing
  obtain ⟨⟨⟨typedef, setter⟩, raise⟩, storage⟩ := plumbing
  simp only [code, Code.each_append, Code.each_line, Code.each_nest, Code.each_blockEnding frame]
  have blank : Code.Each CarriesCallback Code.blank := Code.each_blank frame
  exact ⟨⟨⟨⟨⟨⟨⟨.closed (by decide), ⟨⟨⟨⟨headline, carries_entries names, by decide⟩, blank⟩,
    typedef⟩, blank⟩, setter⟩, blank⟩, .closed (by decide)⟩, revealed, raise⟩, blank⟩,
    .closed (by decide)⟩, storage⟩

end NativeEvents

section Slots

theorem SlotWrapper.IsLine.carries {w : SlotWrapper} (h : w.IsLine) :
    Code.Each CarriesCallback w.code := by
  have frame := isFrame_carriesCallback
  have slot := h.slot.isOneLine
  have join := isOneLine_join h.parameters
  have typedef : CarriesCallback w.typedefLine := by
    have mark : callbackMark <:+: " (NATIVE_CALLBACK_CALL* T".toList := by decide +kernel
    change CarriesCallback ("typedef " ++ w.result.literal ++ " (NATIVE_CALLBACK_CALL* T" ++
      w.slot ++ ")(" ++ Declared.join w.parameters ++ ");")
    simp only [String.append_assoc]
    refine .marked (by decide) (.inr ?_) (by decide) ?_
    · rw [String.toList_append, String.toList_append]
      exact mark.trans ((List.prefix_append _ _).isInfix.trans (List.suffix_append _ _).isInfix)
    · simp only [isOneLine_append, h.result, slot, join]
      decide
  have signature : CarriesCallback w.signatureLine := by
    change CarriesCallback ("static " ++ w.result.literal ++ " " ++ w.slot ++ "(" ++
      Declared.join w.parameters ++ ")")
    simp only [String.append_assoc]
    refine .start (by decide) ?_
    simp only [isOneLine_append, h.result, slot, join]
    decide
  have arguments : IsOneLine (", ".intercalate (w.parameters.map Declared.name)) :=
    isOneLine_intercalate (by decide)
      (List.forall_mem_map.2 fun d hd => (h.names d hd).isOneLine)
  let called := w.slot ++ ">(Locate(Trampoline::" ++ w.slot ++ "))(" ++
    ", ".intercalate (w.parameters.map Declared.name) ++ ")"
  have called_ok : IsOneLine called := by
    simp only [called, isOneLine_append, slot, arguments]
    decide
  have call : w.call = "reinterpret_cast<T" ++ called := by
    change "reinterpret_cast<T" ++ w.slot ++ ">(Locate(Trampoline::" ++ w.slot ++ "))(" ++
      ", ".intercalate (w.parameters.map Declared.name) ++ ")" = _
    simp only [called, String.append_assoc]
  have statement : CarriesCallback w.statement := by
    rw [SlotWrapper.statement, call]
    split
    · rw [String.append_assoc]
      exact .start (by decide) (called_ok.suffixed (by decide))
    · rw [String.append_assoc]
      exact .start (by decide) ((called_ok.prefixed (by decide)).suffixed (by decide))
  simp only [SlotWrapper.code, Code.each_append, Code.each_line, Code.each_block frame]
  exact ⟨⟨⟨Code.each_blank frame, typedef⟩, Code.each_blank frame⟩, signature, statement⟩

theorem NativeTrampolines.carries_code {n : NativeTrampolines} (own : IsWord n.typeName)
    (lines : ∀ w ∈ n.wrappers, w.IsLine) : Code.Each CarriesCallback n.code := by
  have frame := isFrame_carriesCallback
  have thrown : CarriesCallback ("throw TrampolineLocatorNotSetException(\"" ++ n.typeName ++
      "\");") ∧ CarriesCallback ("throw UnknownTrampolineException(\"" ++ n.typeName ++
      "\", static_cast<int>(trampoline));") := by
    simp only [String.append_assoc]
    exact ⟨.start (by decide)
        (own.isOneLine.suffixed (by decide)),
      .start (by decide)
        (own.isOneLine.suffixed (by decide))⟩
  have type : CarriesCallback locatorType := by
    change CarriesCallback ("typedef void* (NATIVE_CALLBACK_CALL* " ++
      "TTrampolineLocatorCallback)(Trampoline trampoline);")
    exact .typedef (isOneLine_ofList (by decide))
  have setter_ok : Code.Each CarriesCallback setter := by
    simp only [setter, Code.each_block frame, Code.each_lines_cons]
    exact ⟨.closed (by decide), .closed (by decide), .closed (by decide), Code.each_nil⟩
  have locator_ok : Code.Each CarriesCallback locator := by
    simp only [locator, Code.each_block frame, Code.each_lines_cons]
    exact ⟨.closed (by decide), .closed (by decide), .closed (by decide), Code.each_nil⟩
  have locate_ok : Code.Each CarriesCallback n.locate := by
    simp only [locate, Code.each_block frame, Code.each_append, Code.each_lines_cons,
      Code.each_nest, Code.each_line]
    exact ⟨.closed (by decide), ⟨⟨⟨⟨.closed (by decide), .closed (by decide), Code.each_nil⟩,
      thrown.1⟩, .closed (by decide), .closed (by decide), Code.each_nil⟩, thrown.2⟩,
      .closed (by decide)⟩
  have words : ∀ name ∈ n.enumerators, IsWord name :=
    List.forall_mem_map.2 fun w hw => (lines w hw).slot
  have wrappers : Code.Each CarriesCallback (n.wrappers.flatMap SlotWrapper.code) :=
    Code.each_flatMap fun w hw => (lines w hw).carries
  simp only [code, body, Code.each_append, Code.each_line, Code.each_nest,
    Code.each_blockEnding frame]
  have blank : Code.Each CarriesCallback Code.blank := Code.each_blank frame
  exact ⟨.closed (by decide), .closed (by decide), ⟨⟨⟨⟨⟨⟨⟨⟨⟨⟨⟨.closed (by decide),
    carries_entries words, by decide⟩, blank⟩, type⟩, blank⟩, setter_ok⟩, wrappers⟩, blank⟩,
    .closed (by decide)⟩, locator_ok⟩, blank⟩, locate_ok⟩, by decide⟩

end Slots

namespace Fragment

variable {f : Fragment}

theorem carries_lifecycle (own : IsWord t.name) (selects : Visibility → Bool) :
    Code.Each CarriesCallback (lifecycle t selects) := by
  have constructed : CarriesCallback (constructorLine t) :=
    .ending (own.not_mem (by decide) (by simp)) (by decide) (by decide) own.isOneLine
  have destructed : CarriesCallback (destructorLine t) := by
    change CarriesCallback ("virtual ~" ++ t.name ++ "();")
    rw [String.append_assoc]
    exact .start (by decide)
      (own.isOneLine.suffixed (by decide))
  exact Code.each_append.2 ⟨Code.each_given _ (Code.each_line.2 constructed),
    Code.each_given _ (Code.each_line.2 destructed)⟩

theorem carries_handlePart : Code.Each CarriesCallback handlePart := by
  have frame := isFrame_carriesCallback
  simp only [handlePart, Code.each_append, Code.each_line, Code.each_nest, Code.each_block frame]
  exact ⟨⟨⟨⟨.closed (by decide), ⟨.closed (by decide), .closed (by decide)⟩, .closed (by decide),
    .closed (by decide)⟩, Code.each_blank frame⟩, .closed (by decide)⟩, .closed (by decide)⟩

theorem carries_code (readable : f.IsReadable) (members : ∀ n ∈ f.members, n.IsLine) :
    Code.Each CarriesCallback f.code := by
  have frame := isFrame_carriesCallback
  have declarations : Code.Each CarriesCallback
      (Code.apart (Code.lines (f.members.map NativeMember.declaration))) :=
    Code.each_apart frame <| Code.each_lines.2 <|
      List.forall_mem_map.2 fun n hn => (members n hn).carries
  have lifecycle (selects : Visibility → Bool) := carries_lifecycle readable.type selects
  have publicPart : Code.Each CarriesCallback f.publicPart :=
    Code.each_append.2 ⟨Code.each_line.2 (by decide),
      Code.each_nest.2 (Code.each_append.2 ⟨lifecycle _, declarations⟩)⟩
  have privatePart : Code.Each CarriesCallback (privatePart f.type) :=
    Code.each_append.2 ⟨Code.each_line.2 (by decide), Code.each_nest.2 (lifecycle _)⟩
  have events : Code.Each CarriesCallback
      ((f.events.map fun e => Code.blank ++ e.code).getD []) := by
    refine Code.each_getD fun code hcode => ?_
    obtain ⟨e, he, rfl⟩ := Option.map_eq_some_iff.1 hcode
    exact Code.each_append.2 ⟨Code.each_blank frame,
      NativeEvents.carries_code (readable.owner e he) (readable.names e he) (readable.base e he)⟩
  have trampolines : Code.Each CarriesCallback
      ((f.trampolines.map fun n => Code.blank ++ n.code).getD []) := by
    refine Code.each_getD fun code hcode => ?_
    obtain ⟨n, hn, rfl⟩ := Option.map_eq_some_iff.1 hcode
    obtain ⟨type, lines⟩ := readable.trampolines n hn
    exact Code.each_append.2 ⟨Code.each_blank frame, NativeTrampolines.carries_code type lines⟩
  simp only [code, Code.each_append]
  exact ⟨⟨⟨⟨publicPart, events⟩, trampolines⟩, Code.each_given _ (Code.each_append.2
    ⟨Code.each_blank frame, carries_handlePart⟩)⟩, Code.each_given _ (Code.each_append.2
    ⟨Code.each_blank frame, privatePart⟩)⟩

end Fragment

end Fragments

section Support

namespace NativeSupport

def platformBranch (convention : CallingConvention) : List String :=
  ["#ifdef _WIN32", "#include <objbase.h>", "#define NATIVE_API extern \"C\" __declspec(dllexport)",
    "#define NATIVE_API_CALL " ++ convention.native,
    "#define NATIVE_CALLBACK_CALL " ++ convention.native, "#else"]

theorem infix_platformBranch :
    (platformBranch c.native.convention).map String.toList <:+:
      trimmedLines (c.generatedFile (code c)) := by
  have macros : platformBranch c.native.convention <:+:
      exportMacros c.native.convention.native := ⟨[], _, rfl⟩
  have part : exportMacros c.native.convention.native <:+: (code c).texts := by
    simp only [code, Code.texts_append, Code.texts_lines]
    exact (List.suffix_append _ _).isInfix.trans <| (List.prefix_append _ _).isInfix.trans <|
      (List.prefix_append _ _).isInfix.trans <| (List.prefix_append _ _).isInfix.trans <|
      (List.prefix_append _ _).isInfix.trans (List.prefix_append _ _).isInfix
  refine Config.infix_trimmedLines (macros.trans part) ?_
  simp only [platformBranch, List.forall_mem_cons, IsOneLine, String.toList_append]
  cases c.native.convention <;> simp only [CallingConvention.native] <;>
    (repeat rw [String.toList_ofList]) <;> decide

end NativeSupport

end Support

end InteropGen
