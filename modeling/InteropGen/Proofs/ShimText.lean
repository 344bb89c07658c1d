import InteropGen.Proofs.DeclaredNames
import InteropGen.Proofs.DeclaredSymbols
import InteropGen.Proofs.Layout
import InteropGen.Proofs.SymbolParity

set_option autoImplicit false

/-!
# The text of a shim

The lines of a shim that start with `NATIVE_API ` are the signatures of its functions.  Reading the
symbols off those lines gives back the symbols that the shim reports.
-/

namespace InteropGen

open Text

variable {c : Config} {s : Schema} {t : ApiType} {exports : ExportTable}

/-- The symbol that a line of a shim exports. -/
def exportSymbol? (line : List Char) : Option String :=
  if "NATIVE_API ".toList.isPrefixOf line then some (declaredSymbol line) else none

def exportedSymbols (file : String) : List String := (fileLines file).filterMap exportSymbol?

theorem exportSymbol?_of_head {line : List Char} (h : line.head? ≠ some 'N') :
    exportSymbol? line = none := by
  rw [exportSymbol?, if_neg]
  rw [List.isPrefixOf_iff_prefix]
  rintro ⟨rest, rfl⟩
  exact h rfl

/-- A line that starts with a scope does not export anything. -/
theorem exportSymbol?_of_scope {name : String} (h : IsWord name) (rest : List Char) :
    exportSymbol? (name.toList ++ ':' :: rest) = none := by
  rw [exportSymbol?, if_neg]
  rw [List.isPrefixOf_iff_prefix]
  have mark := firstMark_word h ':' rest (by decide)
  exact not_prefix_of_firstMark (by decide : firstMark "NATIVE_API ".toList = some ' ')
    (by rw [mark]; decide)

theorem exportSymbol?_scoped {name : String} (h : IsWord name) (rest : List Char) :
    exportSymbol? (name ++ String.ofList (':' :: rest)).toList = none := by
  rw [String.toList_append, String.toList_ofList]
  exact exportSymbol?_of_scope h rest

theorem exportSymbol?_closed {c : Char} {rest : List Char} (h : c ≠ 'N') :
    exportSymbol? (String.ofList (c :: rest)).toList = none := by
  rw [String.toList_ofList]
  exact exportSymbol?_of_head fun eq => h (Option.some.inj eq)

namespace Shim

/-- The lines of the function are one line each, and only its signature reads as an export. -/
structure Function.IsReadable (f : Function) : Prop where
  name : IsWord f.name
  result : IsOver " *" f.result.literal
  parameters : ∀ d ∈ f.parameters, IsOver spellingMarks d.text
  includes : ∀ i ∈ f.includes, IsOneLine i
  statement : IsOneLine f.body.statement
  unread : exportSymbol? f.body.statement.toList = none

theorem Function.signatureLine_eq (f : Function) :
    f.signatureLine = "NATIVE_API " ++ f.result.literal ++ " NATIVE_API_CALL " ++ f.name ++ "(" ++
      Declared.join f.parameters ++ ")" := rfl

theorem Function.IsReadable.exportSymbol? {f : Function} (h : f.IsReadable) :
    exportSymbol? f.signatureLine.toList = some f.symbol := by
  have start : '(' ∉ ("NATIVE_API " ++ f.result.literal ++ " NATIVE_API_CALL").toList := by
    rw [String.toList_append, String.toList_append, List.mem_append, List.mem_append, not_or,
      not_or]
    exact ⟨⟨by decide, h.result.not_mem (by decide) (by decide)⟩, by decide⟩
  have shape : f.signatureLine =
      ("NATIVE_API " ++ f.result.literal ++ " NATIVE_API_CALL") ++ " " ++ f.name ++ "(" ++
        Declared.join f.parameters ++ ")" ++ "" := by
    have marker : " NATIVE_API_CALL " = " NATIVE_API_CALL" ++ " " := by decide
    rw [signatureLine_eq, marker, ← String.append_assoc, String.append_empty]
  have exported : "NATIVE_API ".toList.isPrefixOf f.signatureLine.toList = true := by
    rw [List.isPrefixOf_iff_prefix, signatureLine_eq]
    simp only [String.toList_append, List.append_assoc]
    exact List.prefix_append _ _
  rw [InteropGen.exportSymbol?, if_pos exported, shape, declaredSymbol_eq start h.name
    (fun d hd => (h.parameters d hd).not_mem (by decide) (by decide)) (by decide), Function.symbol]

section Parts

variable {call name vector : String}

theorem Argument.text_dereferenced : (dereferenced name).text = "*" ++ name := rfl

theorem Argument.text_decoded : (decoded name).text = "FromInteropString(" ++ name ++ ")" := rfl

theorem Argument.text_gathered : (gathered vector name).text =
    vector ++ "(" ++ name ++ ", " ++ name ++ " + " ++ name ++ "Count)" := rfl

theorem Answer.statement_asIs : asIs.statement call = "return " ++ call ++ ";" := rfl

theorem Answer.statement_addressed : addressed.statement call = "return &" ++ call ++ ";" := rfl

theorem Answer.statement_encoded :
    encoded.statement call = "return AllocInteropString(" ++ call ++ ");" := rfl

theorem isOneLine_answer (h : IsOneLine call) (answer : Answer) :
    IsOneLine (answer.statement call) := by
  cases answer with
  | dropped => exact h.suffixed (by decide)
  | asIs => exact (h.prefixed (by decide)).suffixed (by decide)
  | addressed => exact (h.prefixed (by decide)).suffixed (by decide)
  | encoded => exact (h.prefixed (by decide)).suffixed (by decide)

theorem isOneLine_receiver (ht : IsWord t.name) (isStatic : Bool) :
    IsOneLine (receiverOf t isStatic).text := by
  cases isStatic with
  | false => exact (by decide : IsOneLine "obj->")
  | true => exact ht.isOneLine.suffixed (by decide)

theorem isOneLine_vectorOf (names : s.HasIdentifiers) {type : TypeRef}
    (h : vectorOf s type = .ok vector) : IsOneLine vector := by
  obtain ⟨spelling, hspelling, rfl⟩ := Schema.literal_eq_ok.1 h
  exact (names.isOver_resolve hspelling).isOneLine (by decide)

theorem isOneLine_argument (names : s.HasIdentifiers) {p : Parameter} (hp : IsWord p.name)
    {a : Argument} (h : argumentOf s p = .ok a) : IsOneLine a.text := by
  have word := hp.isOneLine
  obtain ⟨shape, _, h⟩ := bind_eq_ok.1 h
  split at h
  · cases h
    rw [Argument.text_decoded, isOneLine_append, isOneLine_append]
    exact ⟨⟨by decide, word⟩, by decide⟩
  · cases h
    rw [Argument.text_dereferenced, isOneLine_append]
    exact ⟨by decide, word⟩
  · obtain ⟨vector, hvector, h⟩ := bind_eq_ok.1 h
    cases h
    rw [Argument.text_gathered]
    simp only [isOneLine_append, word, isOneLine_vectorOf names hvector]
    decide
  · cases h
    exact word

theorem exportSymbol?_answer (answer : Answer)
    (h : exportSymbol? (call ++ ";").toList = none) :
    exportSymbol? (answer.statement call).toList = none := by
  cases answer with
  | dropped => exact h
  | asIs =>
    rw [Answer.statement_asIs]
    exact exportSymbol?_of_head (by simp)
  | addressed =>
    rw [Answer.statement_addressed]
    exact exportSymbol?_of_head (by simp)
  | encoded =>
    rw [Answer.statement_encoded]
    exact exportSymbol?_of_head (by simp)

theorem exportSymbol?_call (ht : IsWord t.name) (isStatic : Bool) (member : String)
    (arguments : List Argument) :
    exportSymbol? (callText (receiverOf t isStatic) member arguments ++ ";").toList = none := by
  cases isStatic with
  | false =>
    have receiver : (receiverOf t false).text = "obj->" := rfl
    refine exportSymbol?_of_head ?_
    rw [callText, receiver]
    simp
  | true =>
    have receiver : (receiverOf t true).text = t.name ++ "::" := rfl
    have line : (callText (receiverOf t true) member arguments ++ ";").toList =
        t.name.toList ++ ':' :: (":" ++ member ++ "(" ++
          ", ".intercalate (arguments.map Argument.text) ++ ")" ++ ";").toList := by
      rw [callText, receiver]
      simp
    rw [line]
    exact exportSymbol?_of_scope ht _

end Parts

section Functions

variable (names : s.HasIdentifiers) (own : t.HasIdentifiers) {name : String} (hname : IsWord name)
  {f : Function}
include own

theorem isOver_self : IsOver spellingMarks (self t).text :=
  isOver_declared (by decide)
    (isOver_append.2 ⟨(isWord_of_isIdentifier own.name).over, by decide⟩)
    (by decide : IsWord "obj")

theorem isOver_selfOf (isStatic : Bool) :
    ∀ d ∈ selfOf t isStatic, IsOver spellingMarks d.text := by
  cases isStatic with
  | true => exact fun d hd => absurd hd List.not_mem_nil
  | false => exact List.forall_mem_singleton.2 (isOver_self own)

omit own in
theorem forall_includes {P : String → Prop}
    (parameters : ∀ d ∈ f.parameters, ∀ i ∈ d.spelling.include, P i)
    (result : ∀ i ∈ f.result.include, P i) : ∀ i ∈ f.includes, P i := by
  intro i hi
  rcases List.mem_append.1 hi with hi | hi
  · obtain ⟨d, hd, hi⟩ := List.mem_flatMap.1 hi
    exact parameters d hd i (Option.mem_toList.1 hi)
  · exact result i (Option.mem_toList.1 hi)

omit own in
theorem includesClean_selfOf (isStatic : Bool) :
    ∀ d ∈ selfOf t isStatic, d.spelling.IncludesClean := by
  cases isStatic with
  | true => exact fun d hd => absurd hd List.not_mem_nil
  | false => exact List.forall_mem_singleton.2 includesClean_none

include names hname

theorem isReadable_memberFunction {m : Member} (h : memberFunction s t name m = .ok f) :
    f.IsReadable := by
  have word := isWord_of_isIdentifier own.name
  obtain ⟨parameters, hparameters, h⟩ := bind_eq_ok.1 h
  obtain ⟨result, hresult, h⟩ := bind_eq_ok.1 h
  obtain ⟨arguments, harguments, h⟩ := bind_eq_ok.1 h
  obtain ⟨answer, _, h⟩ := bind_eq_ok.1 h
  cases h
  have argumentTexts : ∀ text ∈ arguments.map Argument.text, IsOneLine text := by
    intro text ht
    obtain ⟨a, ha, rfl⟩ := List.mem_map.1 ht
    obtain ⟨p, hp, ok⟩ :=
      exists_left_of_forall₂ ((argumentsOf_stepwise s).forall₂ harguments) ha
    exact isOneLine_argument names (own.isWord_parameters m p hp) ok
  exact {
    name := hname
    result := names.isOver_resolve_flat hresult
    parameters := List.forall_mem_append.2
      ⟨isOver_selfOf own _, names.isOver_declareFlat (own.isWord_parameters m) hparameters⟩
    includes := forall_includes
      (List.forall_mem_append.2
        ⟨includesClean_selfOf _, includesClean_declareFlat names hparameters⟩)
      (names.includesClean_resolve_flat hresult)
    statement := by
      refine isOneLine_answer ?_ answer
      simp only [callText, isOneLine_append]
      exact ⟨⟨⟨⟨isOneLine_receiver word _, (own.isWord_signature m).isOneLine⟩, by decide⟩,
        isOneLine_intercalate (by decide) argumentTexts⟩, by decide⟩
    unread := exportSymbol?_answer answer (exportSymbol?_call word _ _ _) }

theorem isReadable_arrayFunction {i : Nat} {step : ArrayStep}
    (h : arrayFunction s t name i step = .ok f) : f.IsReadable := by
  have word := isWord_of_isIdentifier own.name
  have property := (own.isWord_property i).isOneLine
  simp only [arrayFunction] at h
  split at h
  · obtain ⟨vector, hvector, h⟩ := bind_eq_ok.1 h
    have vector_ok := isOneLine_vectorOf names hvector
    have snapshot_ok : IsOneLine (snapshot vector) :=
      (vector_ok.prefixed (by decide)).suffixed (by decide)
    have array : IsOver spellingMarks (Declared.plain "void*" "array").text := by decide
    have index : IsOver spellingMarks (Declared.plain "int" "index").text := by decide
    have self_ok := isOver_selfOf own (t.property i).isStatic
    have self_clean := includesClean_selfOf (t := t) (t.property i).isStatic
    cases step with
    | openArray =>
      cases h
      exact {
        name := hname
        result := (by decide : IsOver " *" "void*")
        parameters := self_ok
        includes := forall_includes self_clean includesClean_none
        statement := by
          change IsOneLine ("return new " ++ vector ++ "(" ++ (receiverOf t _).text ++ "Get" ++
            (t.property i).name ++ "());")
          simp only [isOneLine_append, vector_ok, property, isOneLine_receiver word]
          decide
        unread := by
          change exportSymbol? ("return new " ++ vector ++ "(" ++ (receiverOf t _).text ++ "Get" ++
            (t.property i).name ++ "());").toList = none
          exact exportSymbol?_of_head (by simp) }
    | countItems =>
      cases h
      exact {
        name := hname
        result := (by decide : IsOver " *" "int")
        parameters := List.forall_mem_append.2 ⟨self_ok, List.forall_mem_singleton.2 array⟩
        includes := forall_includes
          (List.forall_mem_append.2 ⟨self_clean, List.forall_mem_singleton.2 includesClean_none⟩)
          includesClean_none
        statement := by
          change IsOneLine ("return static_cast<int>(" ++ snapshot vector ++ "->size());")
          simp only [isOneLine_append, snapshot_ok]
          decide
        unread := by
          change exportSymbol? ("return static_cast<int>(" ++ snapshot vector ++
            "->size());").toList = none
          exact exportSymbol?_of_head (by simp) }
    | itemAt =>
      obtain ⟨result, hresult, h⟩ := bind_eq_ok.1 h
      obtain ⟨answer, _, h⟩ := bind_eq_ok.1 h
      cases h
      exact {
        name := hname
        result := names.isOver_resolve_flat hresult
        parameters := List.forall_mem_append.2
          ⟨self_ok, List.forall_mem_cons.2 ⟨array, List.forall_mem_singleton.2 index⟩⟩
        includes := forall_includes
          (List.forall_mem_append.2 ⟨self_clean, List.forall_mem_cons.2
            ⟨includesClean_none, List.forall_mem_singleton.2 includesClean_none⟩⟩)
          (names.includesClean_resolve_flat hresult)
        statement := by
          refine isOneLine_answer ?_ answer
          simp only [isOneLine_append, snapshot_ok]
          decide
        unread := exportSymbol?_answer answer (exportSymbol?_of_head (by simp)) }
    | closeArray =>
      cases h
      exact {
        name := hname
        result := (by decide : IsOver " *" "void")
        parameters := List.forall_mem_append.2 ⟨self_ok, List.forall_mem_singleton.2 array⟩
        includes := forall_includes
          (List.forall_mem_append.2 ⟨self_clean, List.forall_mem_singleton.2 includesClean_none⟩)
          includesClean_none
        statement := by
          change IsOneLine ("delete " ++ snapshot vector ++ ";")
          simp only [isOneLine_append, snapshot_ok]
          decide
        unread := by
          change exportSymbol? ("delete " ++ snapshot vector ++ ";").toList = none
          exact exportSymbol?_of_head (by simp) }
  · cases h

omit hname in
theorem isReadable_functionOf {kind : ExportKind}
    (h : functionOf s t (t.exportOf kind) = .ok f) : f.IsReadable := by
  have word := isWord_of_isIdentifier own.name
  have hname := own.isWord_nameOf kind
  have pointer : IsOver " *" (t.name ++ "*") := isOver_append.2 ⟨word.over, by decide⟩
  have void : IsOver " *" "void" := by decide
  have callback {type : String} (clean : IsOver spellingMarks type) :
      ∀ d ∈ [Declared.plain type "callback"], IsOver spellingMarks d.text :=
    List.forall_mem_singleton.2 (isOver_declared (by decide) clean (by decide : IsWord "callback"))
  cases kind with
  | member m => exact isReadable_memberFunction names own hname h
  | arrayAccess i step => exact isReadable_arrayFunction names own hname h
  | create =>
    cases h
    exact {
      name := hname
      result := pointer
      parameters := by simp
      includes := forall_includes (by simp) includesClean_none
      statement := by
        change IsOneLine ("return new " ++ t.name ++ "();")
        simp only [isOneLine_append, word.isOneLine]
        decide
      unread := by
        change exportSymbol? ("return new " ++ t.name ++ "();").toList = none
        exact exportSymbol?_of_head (by simp) }
  | destroy =>
    cases h
    exact {
      name := hname
      result := void
      parameters := List.forall_mem_singleton.2 (isOver_self own)
      includes := forall_includes (List.forall_mem_singleton.2 includesClean_none)
        includesClean_none
      statement := (isOneLine_ofList (by decide) : IsOneLine "delete obj;")
      unread := (exportSymbol?_closed (by decide) : exportSymbol? "delete obj;".toList = none) }
  | setEventCallback =>
    cases h
    have clean : IsOver spellingMarks (t.name ++ "::" ++ t.name ++ "EventCallbackType") :=
      isOver_append.2 ⟨isOver_append.2 ⟨isOver_append.2 ⟨word.over, by decide⟩, word.over⟩,
        by decide⟩
    exact {
      name := hname
      result := void
      parameters := callback clean
      includes := forall_includes (List.forall_mem_singleton.2 includesClean_none)
        includesClean_none
      statement := by
        change IsOneLine (t.name ++ "::SetEventCallback(callback);")
        exact word.isOneLine.suffixed (by decide)
      unread := by
        change exportSymbol? (t.name ++ "::SetEventCallback(callback);").toList = none
        exact exportSymbol?_scoped word _ }
  | setTrampolineLocator =>
    cases h
    have clean : IsOver spellingMarks (t.name ++ "::Managed::TTrampolineLocatorCallback") :=
      isOver_append.2 ⟨word.over, by decide⟩
    exact {
      name := hname
      result := void
      parameters := callback clean
      includes := forall_includes (List.forall_mem_singleton.2 includesClean_none)
        includesClean_none
      statement := by
        change IsOneLine (t.name ++ "::Managed::SetTrampolineLocatorCallback(callback);")
        exact word.isOneLine.suffixed (by decide)
      unread := by
        change exportSymbol?
          (t.name ++ "::Managed::SetTrampolineLocatorCallback(callback);").toList = none
        exact exportSymbol?_scoped word _ }
  | setManagedHandle =>
    cases h
    have handle : IsOver spellingMarks (Declared.plain "void*" "handle").text := by decide
    exact {
      name := hname
      result := void
      parameters := List.forall_mem_cons.2 ⟨isOver_self own, List.forall_mem_singleton.2 handle⟩
      includes := forall_includes
        (List.forall_mem_cons.2 ⟨includesClean_none, List.forall_mem_singleton.2 includesClean_none⟩)
        includesClean_none
      statement := (isOneLine_ofList (by decide) : IsOneLine "obj->SetManagedHandle(handle);")
      unread := (exportSymbol?_closed (by decide) :
        exportSymbol? "obj->SetManagedHandle(handle);".toList = none) }

end Functions

/-- All functions of a shim are readable, where all declared names are identifiers. -/
theorem isReadable_ofClass (names : s.HasIdentifiers) (ht : t ∈ s.types)
    (exports_ok : ExportTable.build s t = .ok exports) {shim : Shim}
    (h : ofClass s t exports = .ok shim) : shim.type = t ∧ ∀ f ∈ shim.functions, f.IsReadable := by
  refine ⟨?_, fun f hf => ?_⟩
  · obtain ⟨functions, _, rfl⟩ := map_eq_ok.1 h
    rfl
  · obtain ⟨kind, _, ok⟩ := exists_kind exports_ok h hf
    exact isReadable_functionOf names (names t ht) ok

theorem mem_insertAll {entries : List String} {set : IncludeSet} {x : String} :
    x ∈ (set.insertAll entries).entries ↔ x ∈ set.entries ∨ x ∈ entries := by
  induction entries generalizing set with
  | nil => exact (or_iff_left List.not_mem_nil).symm
  | cons e es ih =>
    have step : set.insertAll (e :: es) = (set.insert e).insertAll es := rfl
    rw [step, ih, IncludeSet.mem_insert, List.mem_cons, or_assoc, or_left_comm]

/-- The headers that a shim includes are one line each. -/
theorem isOneLine_includes {shim : Shim} (readable : ∀ f ∈ shim.functions, f.IsReadable) :
    ∀ i ∈ shim.includes.entries, IsOneLine i := by
  intro i hi
  rw [includes, IncludeSet.mem_remove, IncludeSet.ofList, mem_insertAll] at hi
  rcases hi with ⟨hi | hi, _⟩
  · cases hi
  · obtain ⟨f, hf, hi⟩ := List.mem_flatMap.1 hi
    exact (readable f hf).includes i hi

/-- The lines of the preamble export nothing. -/
theorem preamble_unread {shim : Shim} (header : IsOneLine shim.type.header)
    (readable : ∀ f ∈ shim.functions, f.IsReadable) :
    ∀ x ∈ shim.preamble, IsOneLine x ∧ exportSymbol? x.toList = none := by
  have includeLine {path : String} (h : IsOneLine path) :
      IsOneLine (Code.includeLine ("../" ++ path)) ∧
        exportSymbol? (Code.includeLine ("../" ++ path)).toList = none := by
    refine ⟨?_, exportSymbol?_of_head (by simp [Code.includeLine])⟩
    simp only [Code.includeLine, isOneLine_append, h]
    decide
  refine List.forall_mem_append.2 ⟨?_, ?_⟩
  · simp only [List.forall_mem_cons]
    exact ⟨by decide, by decide, includeLine header, by decide, by simp⟩
  · intro x hx
    obtain ⟨i, hi, rfl⟩ := List.mem_map.1 hx
    exact includeLine (isOneLine_includes readable i hi)

namespace Function

theorem texts_code (f : Function) :
    f.code.texts = ["", f.signatureLine, "\x7b", f.body.statement, "\x7d"] := by
  simp [code]

theorem IsReadable.isOneLine_code {f : Function} (h : f.IsReadable) :
    ∀ x ∈ f.code.texts, IsOneLine x := by
  have signature : IsOneLine f.signatureLine := by
    rw [signatureLine_eq]
    simp only [isOneLine_append, h.result.isOneLine (by decide), h.name.isOneLine,
      isOneLine_join h.parameters]
    decide
  rw [texts_code]
  simp only [List.forall_mem_cons]
  exact ⟨by decide, signature, by decide, h.statement, by decide, by simp⟩

theorem IsReadable.filterMap_code {f : Function} (h : f.IsReadable) :
    f.code.texts.filterMap (fun x => InteropGen.exportSymbol? x.toList) = [f.symbol] := by
  have blank : InteropGen.exportSymbol? "".toList = none := by decide
  have opening : InteropGen.exportSymbol? "\x7b".toList = none := by decide
  have closing : InteropGen.exportSymbol? "\x7d".toList = none := by decide
  simp only [texts_code, List.filterMap_cons, List.filterMap_nil, blank, h.exportSymbol?, opening,
    h.unread, closing]

end Function

theorem isOneLine_code {shim : Shim} (header : IsOneLine shim.type.header)
    (readable : ∀ f ∈ shim.functions, f.IsReadable) : ∀ x ∈ shim.code.texts, IsOneLine x := by
  rw [code, Code.texts_append, Code.texts_lines, Code.texts_flatMap]
  refine List.forall_mem_append.2 ⟨fun x hx => (preamble_unread header readable x hx).1, ?_⟩
  intro x hx
  obtain ⟨f, hf, hx⟩ := List.mem_flatMap.1 hx
  exact (readable f hf).isOneLine_code x hx

/-- The symbols that the text of a shim exports are the ones that the shim reports. -/
theorem exportedSymbols_generatedFile {shim : Shim} (header : IsOneLine shim.type.header)
    (readable : ∀ f ∈ shim.functions, f.IsReadable) :
    exportedSymbols (c.generatedFile shim.code) = shim.symbols := by
  have texts : shim.code.texts =
      shim.preamble ++ shim.functions.flatMap fun f => f.code.texts := by
    rw [code, Code.texts_append, Code.texts_lines, Code.texts_flatMap]
  have margin : ∀ l ∈ shim.code, l.depth = 0 ∨ exportSymbol? l.text.toList = none := by
    refine List.forall_mem_append.2 ⟨fun l hl => ?_, fun l hl => ?_⟩
    · obtain ⟨x, _, rfl⟩ := List.mem_map.1 hl
      exact .inl rfl
    · obtain ⟨f, hf, hl⟩ := List.mem_flatMap.1 hl
      have statement := (readable f hf).unread
      simp only [Function.code, Code.blank, Code.block, Code.braces, Code.bracesEnding, Code.line,
        Code.nest, List.mem_append, List.mem_cons, List.mem_map, List.not_mem_nil, or_false] at hl
      rcases hl with rfl | rfl | (rfl | ⟨l, rfl, rfl⟩) | rfl
      · exact .inl rfl
      · exact .inl rfl
      · exact .inl rfl
      · exact .inr statement
      · exact .inl rfl
  rw [exportedSymbols, Config.filterMap_fileLines
    (fun rest => exportSymbol?_of_head (by simp)) (by decide)
    (isOneLine_code header readable)
    (fun rest => exportSymbol?_of_head (by simp)) margin, texts, List.filterMap_append]
  have quiet : shim.preamble.filterMap (fun x => exportSymbol? x.toList) = [] :=
    List.filterMap_eq_nil_iff.2 fun x hx => (preamble_unread header readable x hx).2
  rw [quiet, List.nil_append,
    filterMap_flatMap_eq_map fun f hf => (readable f hf).filterMap_code, symbols]

end Shim

end InteropGen
