import InteropGen.Proofs.DeclaredNames
import InteropGen.Proofs.QuietLines
import InteropGen.Proofs.WrappedMembers

set_option autoImplicit false

/-!
# Lines of the members of a wrapper

The constructors, properties and methods of a wrapper, and what it does with its handle, hold quiet
lines only: the names in them are words, and the fixed text around the names is none of the texts
that a reader looks for.
-/

namespace InteropGen

open Text

variable {c : Config} {s : Schema} {t : ApiType} {exports : ExportTable}

section Expressions

variable {objectClass text : String} (object : IsOneLine objectClass) (own : IsWord t.name)
include own

theorem isOneLine_factory : IsOneLine (Managed.factory t) := by
  rw [Managed.factory]
  split
  · decide
  · exact (own.isOneLine.prefixed (by decide)).suffixed (by decide)

include object

theorem isOneLine_lookup (h : IsOneLine text) : IsOneLine (Managed.lookup objectClass t text) := by
  change IsOneLine (objectClass ++ ".GetFromNativePointer<" ++ t.name ++ ">(" ++ text ++ ", " ++
    Managed.factory t ++ ")")
  simp only [isOneLine_append, object, own.isOneLine, h, isOneLine_factory own]
  decide

theorem isOneLine_wrap (h : IsOneLine text) (isNullable : Bool) :
    IsOneLine (Managed.wrap objectClass t isNullable text) := by
  refine isOneLine_append.2 ⟨isOneLine_lookup object own h, ?_⟩
  cases isNullable <;> decide

omit object own in
theorem isOneLine_unwrap (h : IsOneLine text) (isNullable : Bool) :
    IsOneLine (Managed.unwrap isNullable text) := by
  cases isNullable with
  | false => exact h.suffixed (by decide)
  | true => exact h.suffixed (by decide)

end Expressions

section Operands

theorem isOneLine_ofShape {name : String} (hn : IsWord name) {shape : Shape}
    (h : shape.All fun t => IsWord t.name) : IsOneLine (Operand.ofShape name shape).text := by
  have word := hn.isOneLine
  cases shape with
  | «class» t isNullable => exact isOneLine_unwrap word isNullable
  | array element =>
    cases element with
    | «class» t isNullable =>
      have type : IsOneLine t.name := IsWord.isOneLine h
      change IsOneLine ("Array.ConvertAll<" ++ t.name ++ ", IntPtr>(" ++ name ++
        ", x => x.NativePointer)")
      simp only [isOneLine_append, type, word]
      decide
    | _ => exact word
  | _ => exact word

theorem isOneLine_ofParameters (names : s.HasIdentifiers) {ps : List Parameter}
    (words : ∀ p ∈ ps, IsWord p.name) {os : List Operand}
    (h : Operand.ofParameters s ps = .ok os) : ∀ o ∈ os, IsOneLine o.text := by
  induction ps generalizing os with
  | nil =>
    cases h
    exact fun o ho => absurd ho List.not_mem_nil
  | cons p ps ih =>
    obtain ⟨o, ho, h⟩ := bind_eq_ok.1 h
    obtain ⟨rest, hrest, h⟩ := bind_eq_ok.1 h
    cases h
    have word := words p List.mem_cons_self
    obtain ⟨shape, hshape, rfl⟩ := map_eq_ok.1 ho
    have head := isOneLine_ofShape word (names.all_isWord (Schema.shape_eq_ok.1 hshape))
    refine List.forall_mem_cons.2 ⟨head, List.forall_mem_append.2 ⟨?_, ?_⟩⟩
    · intro length hlength
      rw [Operand.lengths] at hlength
      split at hlength
      · rw [List.mem_singleton.1 hlength]
        exact word.isOneLine.suffixed (by decide)
      · cases hlength
    · exact ih (fun q hq => words q (List.mem_cons_of_mem p hq)) hrest

structure NativeCall.IsLine (call : NativeCall) : Prop where
  symbol : IsWord call.symbol
  operands : ∀ o ∈ call.operands, IsOneLine o.text

variable {call : NativeCall}

theorem NativeCall.IsLine.inner (h : call.IsLine) :
    IsOneLine (call.symbol ++ "(" ++ ", ".intercalate (call.operands.map Operand.text) ++ ")") := by
  have operands : IsOneLine (", ".intercalate (call.operands.map Operand.text)) := by
    refine isOneLine_intercalate (by decide) fun text ht => ?_
    obtain ⟨o, ho, rfl⟩ := List.mem_map.1 ht
    exact h.operands o ho
  simp only [isOneLine_append, h.symbol.isOneLine, operands]
  decide

theorem NativeCall.text_eq (call : NativeCall) :
    call.text = "NativeApi." ++
      (call.symbol ++ "(" ++ ", ".intercalate (call.operands.map Operand.text) ++ ")") := by
  change "NativeApi." ++ call.symbol ++ "(" ++ ", ".intercalate (call.operands.map Operand.text) ++
    ")" = _
  simp only [String.append_assoc]

theorem NativeCall.IsLine.isOneLine (h : call.IsLine) : IsOneLine call.text := by
  rw [NativeCall.text_eq, isOneLine_append]
  exact ⟨by decide, h.inner⟩

theorem NativeCall.IsLine.isOneLine_statement (h : call.IsLine) : IsOneLine call.statement :=
  h.isOneLine.suffixed (by decide)

theorem NativeCall.IsLine.isQuiet (h : call.IsLine) : IsQuiet call.statement := by
  rw [NativeCall.statement, NativeCall.text_eq]
  exact isQuiet_call h.inner

theorem NativeCall.IsLine.isQuiet_after (h : call.IsLine) {start : List Char}
    (quiet : startsQuietly start = true) : IsQuiet (String.ofList start ++ call.statement) :=
  isQuiet_start quiet h.isOneLine_statement

theorem isLine_self {symbol : String} (h : IsWord symbol) (isStatic : Bool)
    {operands : List Operand} (ho : ∀ o ∈ operands, IsOneLine o.text) :
    NativeCall.IsLine ⟨symbol, Operand.selfOf isStatic ++ operands⟩ := by
  refine ⟨h, List.forall_mem_append.2 ⟨?_, ho⟩⟩
  cases isStatic with
  | true => exact fun o ho => absurd ho List.not_mem_nil
  | false => exact List.forall_mem_singleton.2 (by decide : IsOneLine "NativePointer")

end Operands

section Bodies

variable {objectClass : String} (object : IsOneLine objectClass)

theorem quiet_guard (isStatic isVoid : Bool) : QuietCode (guardCode isStatic isVoid) := by
  cases isStatic with
  | true => exact Code.each_nil
  | false =>
    refine Code.each_append.2 ⟨Code.each_line.2 (isQuiet_closed (by decide)),
      Code.each_nest.2 (Code.each_line.2 ?_)⟩
    cases isVoid
    · exact isQuiet_closed (by decide)
    · exact isQuiet_closed (by decide)

/-- The body calls its import on one line, and wraps results of classes with such a name. -/
structure CallBody.IsLine (b : CallBody) : Prop where
  call : b.call.IsLine
  outcome : ∀ type isNullable, b.outcome = .wrapped type isNullable → IsWord type.name

theorem CallBody.isLine_ofMember (names : s.HasIdentifiers) (own : t.HasIdentifiers) {m : Member}
    {symbol : String} (hsymbol : IsWord symbol) {b : CallBody}
    (h : ofMember s t m symbol = .ok b) : b.IsLine := by
  obtain ⟨operands, hoperands, h⟩ := bind_eq_ok.1 h
  obtain ⟨outcome, houtcome, h⟩ := bind_eq_ok.1 h
  cases h
  refine ⟨isLine_self hsymbol _ (isOneLine_ofParameters names (own.isWord_parameters m) hoperands),
    fun type isNullable eq => ?_⟩
  obtain ⟨shape, hshape, rfl⟩ := map_eq_ok.1 houtcome
  have mentioned := names.all_isWord (Schema.shape_eq_ok.1 hshape)
  cases shape with
  | «class» t isNullable =>
    cases eq
    exact mentioned
  | _ => cases eq

include object in
theorem CallBody.IsLine.isQuiet {b : CallBody} (h : b.IsLine) :
    QuietCode (b.code objectClass) := by
  rw [CallBody.code]
  refine Code.each_append.2 ⟨quiet_guard _ _, ?_⟩
  cases outcome : b.outcome with
  | dropped => exact Code.each_line.2 h.call.isQuiet
  | returned => exact Code.each_line.2 (h.call.isQuiet_after (by decide))
  | wrapped type isNullable =>
    have wrap := isOneLine_wrap object (h.outcome type isNullable outcome)
      (by decide : IsOneLine "_handle") isNullable
    have result : IsQuiet
        ("var _result = " ++ Managed.wrap objectClass type isNullable "_handle" ++ ";") := by
      rw [String.append_assoc]
      exact isQuiet_start (by decide) (wrap.suffixed (by decide))
    simp only [Outcome.lines, Code.each_lines_cons]
    exact ⟨h.call.isQuiet_after (by decide), result,
      isQuiet_closed (by decide), isQuiet_closed (by decide), Code.each_nil⟩

structure ArrayBody.IsLine (b : ArrayBody) : Prop where
  calls : ∀ call ∈ b.calls, call.IsLine
  element : IsOneLine b.element.literal
  wraps : ∀ type ∈ b.wraps, IsWord type.name

theorem ArrayBody.isLine_stepCall (own : t.HasIdentifiers)
    (exports_ok : ExportTable.build s t = .ok exports) {i : Nat} {p : Property} {step : ArrayStep}
    {call : NativeCall} (h : stepCall exports i p step = .ok call) : call.IsLine := by
  rw [stepCall] at h
  split at h
  · rename_i e he
    obtain ⟨_, rfl⟩ := (ExportTable.find?_eq_some exports_ok).1 he
    cases h
    have symbol := own.isWord_nameOf (.arrayAccess i step)
    have array : IsOneLine (Operand.asIs "array").text := (by decide : IsOneLine "array")
    have index : IsOneLine (Operand.asIs "i").text := (by decide : IsOneLine "i")
    cases step with
    | openArray =>
      have none := isLine_self symbol p.isStatic (by simp : ∀ o ∈ [], IsOneLine (Operand.text o))
      rwa [List.append_nil] at none
    | countItems => exact isLine_self symbol _ (List.forall_mem_singleton.2 array)
    | itemAt =>
      exact isLine_self symbol _
        (List.forall_mem_cons.2 ⟨array, List.forall_mem_singleton.2 index⟩)
    | closeArray => exact isLine_self symbol _ (List.forall_mem_singleton.2 array)
  · cases h

theorem ArrayBody.isLine_ofProperty (names : s.HasIdentifiers) (own : t.HasIdentifiers)
    (exports_ok : ExportTable.build s t = .ok exports) {i : Nat} {p : Property} {element : TypeRef}
    {b : ArrayBody} (h : ofProperty s exports i p element = .ok b) : b.IsLine := by
  obtain ⟨spelling, hspelling, h⟩ := bind_eq_ok.1 h
  obtain ⟨openCall, hopen, h⟩ := bind_eq_ok.1 h
  obtain ⟨countCall, hcount, h⟩ := bind_eq_ok.1 h
  obtain ⟨itemCall, hitem, h⟩ := bind_eq_ok.1 h
  obtain ⟨closeCall, hclose, h⟩ := bind_eq_ok.1 h
  obtain ⟨wraps, hwraps, h⟩ := bind_eq_ok.1 h
  cases h
  refine ⟨?_, (names.isOver_resolve hspelling).isOneLine (by decide), fun type htype => ?_⟩
  · simp only [calls, List.forall_mem_cons]
    exact ⟨isLine_stepCall own exports_ok hopen, isLine_stepCall own exports_ok hcount,
      isLine_stepCall own exports_ok hitem, isLine_stepCall own exports_ok hclose, by simp⟩
  · obtain ⟨shape, hshape, rfl⟩ := map_eq_ok.1 hwraps
    have mentioned := names.all_isWord (Schema.shape_eq_ok.1 hshape)
    cases shape with
    | «class» t isNullable =>
      cases htype
      exact mentioned
    | _ => cases htype

include object in
theorem ArrayBody.IsLine.isQuiet {b : ArrayBody} (h : b.IsLine) :
    QuietCode (b.code objectClass) := by
  have each := h.calls
  simp only [ArrayBody.calls, List.forall_mem_cons] at each
  obtain ⟨openCall, countCall, itemCall, closeCall, _⟩ := each
  have items : QuietCode (Code.lines (b.itemLines objectClass)) := by
    rw [itemLines]
    split
    · rename_i type htype
      have wrap := isOneLine_wrap object (h.wraps type htype) (by decide : IsOneLine "n") false
      have item : IsQuiet ("var item = " ++ Managed.wrap objectClass type false "n" ++ ";") := by
        rw [String.append_assoc]
        exact isQuiet_start (by decide) (wrap.suffixed (by decide))
      simp only [Code.each_lines_cons]
      exact ⟨item, isQuiet_closed (by decide), isQuiet_closed (by decide),
        Code.each_nil⟩
    · exact Code.each_line.2 (isQuiet_closed (by decide))
  have list : IsQuiet ("var result = new System.Collections.Generic.List<" ++
      b.element.literal ++ ">(count);") := by
    rw [String.append_assoc]
    exact isQuiet_start (by decide) (h.element.suffixed (by decide))
  simp only [code, reading, Code.each_append, Code.each_line, Code.each_lines_cons,
    Code.each_block isFrame_isQuiet]
  exact ⟨⟨⟨quiet_guard _ _, openCall.isQuiet_after (by decide)⟩,
    isQuiet_closed (by decide),
    ⟨⟨countCall.isQuiet_after (by decide), list, Code.each_nil⟩,
      isQuiet_closed (by decide),
      itemCall.isQuiet_after (by decide), items⟩,
    isQuiet_closed (by decide)⟩,
    isQuiet_closed (by decide), closeCall.isQuiet⟩

end Bodies

section Members

theorem modifiers_eq (isServer isStatic : Bool) :
    ∃ rest, IsOneLine rest ∧ modifiers isServer isStatic = "public" ++ rest := by
  cases isStatic with
  | true => exact ⟨" static", by decide, (by decide : "public static" = "public" ++ " static")⟩
  | false =>
    cases isServer with
    | true => exact ⟨" virtual", by decide, (by decide : "public virtual" = "public" ++ " virtual")⟩
    | false => exact ⟨"", by decide, (by decide : "public" = "public" ++ "")⟩

theorem isQuiet_headline (isServer isStatic : Bool) {rest : String} (h : IsOneLine rest) {e : Char}
    (last : rest.toList.getLast? = some e) (semicolon : e ≠ ';') (comma : e ≠ ',') :
    IsQuiet (modifiers isServer isStatic ++ rest) := by
  obtain ⟨middle, hmiddle, eq⟩ := modifiers_eq isServer isStatic
  rw [eq, String.append_assoc]
  refine isQuiet_ending ?_ (by decide) (by decide) semicolon comma (by decide) (by decide)
    (isOneLine_append.2 ⟨hmiddle, h⟩)
  rw [String.toList_append, List.getLast?_append, last]
  rfl

theorem getLast_of_isIdentifier {name : String} (h : isIdentifier name.toList = true) :
    ∃ e, name.toList.getLast? = some e ∧ e ≠ ';' ∧ e ≠ ',' := by
  have word := isWord_of_isIdentifier h
  cases chars : name.toList.getLast? with
  | none =>
    rw [List.getLast?_eq_none_iff.1 chars] at h
    cases h
  | some e =>
    have mem := List.mem_of_getLast? chars
    refine ⟨e, rfl, ?_, ?_⟩
    · rintro rfl
      exact word.not_mem (by decide) (by simp) mem
    · rintro rfl
      exact word.not_mem (by decide) (by simp) mem

variable {objectClass : String} (object : IsOneLine objectClass) (names : s.HasIdentifiers)
  (own : t.HasIdentifiers) (exports_ok : ExportTable.build s t = .ok exports)
include object names own exports_ok

theorem quiet_callBody {m : Member} {b : Option CallBody}
    (h : WrappedProperty.callBody s t exports m = .ok b) :
    ∀ body ∈ b, QuietCode (body.code objectClass) := by
  intro body hbody
  rcases mapM_eq_ok.1 h with ⟨_, rfl⟩ | ⟨e, body', he, rfl, ok⟩
  · cases hbody
  · cases hbody
    obtain ⟨_, rfl⟩ := (ExportTable.find?_eq_some exports_ok).1 he
    exact (CallBody.isLine_ofMember names own (own.isWord_nameOf (.member m)) ok).isQuiet object

theorem quiet_getter {i : Nat} {p : Property} {g : Option GetterBody}
    (h : WrappedProperty.getterOf s t exports i p = .ok g) :
    ∀ body ∈ g, QuietCode (body.code objectClass) := by
  obtain ⟨b, hb, h⟩ := bind_eq_ok.1 h
  have plain := quiet_callBody object names own exports_ok hb
  intro body hbody
  cases b with
  | some call =>
    cases h
    cases hbody
    exact plain call rfl
  | none =>
    dsimp only at h
    split at h
    · obtain ⟨array, harray, h⟩ := bind_eq_ok.1 h
      cases h
      cases hbody
      exact (ArrayBody.isLine_ofProperty names own exports_ok harray).isQuiet object
    · cases h
      cases hbody

theorem quiet_property (isServer : Bool) {i : Nat} {p : Property} (hp : p ∈ t.properties)
    {w : WrappedProperty} (h : WrappedProperty.ofProperty s t exports i p = .ok w) :
    QuietCode (w.code objectClass isServer) := by
  obtain ⟨type, htype, h⟩ := bind_eq_ok.1 h
  obtain ⟨getter, hgetter, h⟩ := bind_eq_ok.1 h
  obtain ⟨setter, hsetter, h⟩ := bind_eq_ok.1 h
  cases h
  have identifier := own.properties p hp
  have headline : IsQuiet
      (modifiers isServer p.isStatic ++ (" " ++ type.literal ++ " " ++ p.name)) := by
    obtain ⟨e, last, semicolon, comma⟩ := getLast_of_isIdentifier identifier
    refine isQuiet_headline _ _ ?_ ?_ semicolon comma
    · simp only [isOneLine_append, (names.isOver_resolve htype).isOneLine (by decide),
        (isWord_of_isIdentifier identifier).isOneLine]
      decide
    · rw [String.toList_append, List.getLast?_append, last]
      rfl
  rw [← String.append_assoc, ← String.append_assoc, ← String.append_assoc] at headline
  refine Code.each_append.2 ⟨Code.each_blank isFrame_isQuiet,
    (Code.each_block isFrame_isQuiet).2 ⟨headline, Code.each_append.2
      ⟨Code.each_getD fun c hc => ?_, Code.each_getD fun c hc => ?_⟩⟩⟩
  · obtain ⟨body, hbody, rfl⟩ := Option.map_eq_some_iff.1 hc
    exact (Code.each_block isFrame_isQuiet).2 ⟨isQuiet_closed (by decide),
      quiet_getter object names own exports_ok hgetter body hbody⟩
  · obtain ⟨body, hbody, rfl⟩ := Option.map_eq_some_iff.1 hc
    exact (Code.each_block isFrame_isQuiet).2 ⟨isQuiet_closed (by decide),
      quiet_callBody object names own exports_ok hsetter body hbody⟩

theorem quiet_method (isServer : Bool) {i : Nat} {m : Method} (hm : m ∈ t.methods)
    {w : WrappedMethod} (h : WrappedMethod.ofMethod s t exports i m = .ok (some w)) :
    QuietCode (w.code objectClass isServer) := by
  rcases mapM_eq_ok.1 h with ⟨_, h⟩ | ⟨e, _, he, h, ok⟩
  · cases h
  · cases h
    obtain ⟨_, rfl⟩ := (ExportTable.find?_eq_some exports_ok).1 he
    obtain ⟨result, hresult, ok⟩ := bind_eq_ok.1 ok
    obtain ⟨parameters, hparameters, ok⟩ := bind_eq_ok.1 ok
    obtain ⟨body, hbody, ok⟩ := bind_eq_ok.1 ok
    cases ok
    have declared := names.isOver_declareAll
      (fun p hp => isWord_of_isIdentifier (own.parameters m hm p hp)) hparameters
    have headline : IsQuiet (modifiers isServer m.isStatic ++
        (" " ++ result.literal ++ " " ++ m.name ++ "(" ++ Declared.join parameters ++ ")")) := by
      have last : (" " ++ result.literal ++ " " ++ m.name ++ "(" ++ Declared.join parameters ++
          ")").toList.getLast? = some ')' := by
        rw [String.toList_append, List.getLast?_append]
        rfl
      refine isQuiet_headline _ _ ?_ last (by decide) (by decide)
      simp only [isOneLine_append, (names.isOver_resolve hresult).isOneLine (by decide),
        (isWord_of_isIdentifier (own.methods m hm)).isOneLine, isOneLine_join declared]
      decide
    simp only [← String.append_assoc] at headline
    have quiet := (CallBody.isLine_ofMember names own (own.isWord_nameOf (.member (.method i)))
      hbody).isQuiet object
    exact Code.each_append.2 ⟨Code.each_blank isFrame_isQuiet,
      (Code.each_block isFrame_isQuiet).2 ⟨headline, quiet⟩⟩

end Members

end InteropGen
