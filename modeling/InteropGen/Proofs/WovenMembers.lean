import InteropGen.Proofs.ComposedNames
import InteropGen.Proofs.Planning

set_option autoImplicit false

/-!
# The members of a wrapper are woven

The constructors, properties and methods of a wrapper, and what it does with its handle, are
composed of the names that the schema declares, the name of the object base, and fixed text.
-/

namespace InteropGen

-- The fixed texts are checked character by character, and some are long.
set_option maxRecDepth 1024

open Text

variable {N M : String → Prop} {s : Schema} {t : ApiType} {exports : ExportTable}

section Expressions

variable {objectClass handle : String} (object : Composed N objectClass)

theorem composed_factory (type : Composed N t.name) : Composed N (Managed.factory t) := by
  rw [Managed.factory]
  split
  · exact .fixed _ (by decide)
  · exact ((Begun.start _).name type _).closed (by decide)

include object

theorem composed_lookup (type : Composed N t.name) (h : Composed N handle) :
    Composed N (Managed.lookup objectClass t handle) :=
  ((((Begun.first object _).name type _).name h _).name (composed_factory type) _).closed
    (by decide)

theorem composed_wrap (type : Composed N t.name) (h : Composed N handle) (isNullable : Bool) :
    Composed N (Managed.wrap objectClass t isNullable handle) := by
  have found := composed_lookup object type h
  cases isNullable with
  | true =>
    have plain : Managed.wrap objectClass t true handle = Managed.lookup objectClass t handle :=
      String.append_empty
    rwa [plain]
  | false => exact found.suffixed ['!'] (by decide)

omit object in
theorem composed_unwrap (h : Composed N handle) (isNullable : Bool) :
    Composed N (Managed.unwrap isNullable handle) := by
  cases isNullable with
  | true => exact h.suffixed _ (by decide)
  | false => exact h.suffixed _ (by decide)

end Expressions

section Calls

theorem composed_operand {name : String} (hn : Composed N name) {shape : Shape}
    (h : shape.All fun t => N t.name) : Composed N (Operand.ofShape name shape).text := by
  cases shape with
  | «class» t isNullable => exact composed_unwrap hn isNullable
  | array element =>
    cases element with
    | «class» t isNullable =>
      have handles : Composed N ("Array.ConvertAll<" ++ t.name ++ ", IntPtr>(" ++ name ++
          ", x => x.NativePointer)") :=
        (((Begun.start _).name (.name h) _).name hn _).closed (by decide)
      exact handles
    | _ => exact hn
  | _ => exact hn

theorem composed_operands (names : s.Named N) {ps : List Parameter}
    (composed : ∀ p ∈ ps, Composed N p.name) {os : List Operand}
    (h : Operand.ofParameters s ps = .ok os) : ∀ o ∈ os, Composed N o.text := by
  induction ps generalizing os with
  | nil =>
    cases h
    exact fun o ho => absurd ho List.not_mem_nil
  | cons p ps ih =>
    obtain ⟨o, ho, h⟩ := bind_eq_ok.1 h
    obtain ⟨rest, hrest, h⟩ := bind_eq_ok.1 h
    cases h
    have hp := composed p List.mem_cons_self
    obtain ⟨shape, hshape, rfl⟩ := map_eq_ok.1 ho
    have head := composed_operand hp (names.all_named (Schema.shape_eq_ok.1 hshape))
    refine List.forall_mem_cons.2 ⟨head, List.forall_mem_append.2 ⟨?_, ?_⟩⟩
    · intro length hlength
      rw [Operand.lengths] at hlength
      split at hlength
      · rw [List.mem_singleton.1 hlength]
        exact hp.suffixed ['.', 'L', 'e', 'n', 'g', 't', 'h'] (by decide)
      · cases hlength
    · exact ih (fun q hq => composed q (List.mem_cons_of_mem p hq)) hrest

structure NativeCall.IsComposed (N : String → Prop) (call : NativeCall) : Prop where
  symbol : Composed N call.symbol
  operands : ∀ o ∈ call.operands, Composed N o.text

variable {call : NativeCall}

theorem NativeCall.IsComposed.text (h : call.IsComposed N) : Composed N call.text := by
  have operands : Composed N (", ".intercalate (call.operands.map Operand.text)) := by
    refine .intercalate fun text ht => ?_
    obtain ⟨o, ho, rfl⟩ := List.mem_map.1 ht
    exact h.operands o ho
  exact (((Begun.start _).name h.symbol _).name operands _).closed (by decide)

theorem NativeCall.IsComposed.statement (h : call.IsComposed N) : Composed N call.statement :=
  h.text.suffixed [';'] (by decide)

theorem NativeCall.IsComposed.after (h : call.IsComposed N) (cs : List Char)
    (closes : begins cs [] = some []) : Composed N (String.ofList cs ++ call.statement) :=
  h.statement.prefixed cs closes

theorem isComposed_self {symbol : String} (h : Composed N symbol) (isStatic : Bool)
    {operands : List Operand} (ho : ∀ o ∈ operands, Composed N o.text) :
    NativeCall.IsComposed N ⟨symbol, Operand.selfOf isStatic ++ operands⟩ := by
  refine ⟨h, List.forall_mem_append.2 ⟨?_, ho⟩⟩
  cases isStatic with
  | true => exact fun o ho => absurd ho List.not_mem_nil
  | false =>
    exact List.forall_mem_singleton.2 (.fixed _ (by decide) : Composed N "NativePointer")

end Calls

section Bodies

variable {objectClass : String} (object : Composed N objectClass)

theorem isWoven_guardCode (isStatic isVoid : Bool) : (guardCode isStatic isVoid).IsWoven N M := by
  cases isStatic with
  | true => exact .nil
  | false =>
    cases isVoid with
    | true => exact .append (.fixed _ (by decide)) (.nest (.fixed _ (by decide)))
    | false => exact .append (.fixed _ (by decide)) (.nest (.fixed _ (by decide)))

structure CallBody.IsComposed (N : String → Prop) (b : CallBody) : Prop where
  call : b.call.IsComposed N
  outcome : ∀ type isNullable, b.outcome = .wrapped type isNullable → Composed N type.name

theorem CallBody.isComposed_ofMember (names : s.Named N) (own : t.Named N) {m : Member}
    (hm : m ∈ t.members) {symbol : String} (hsymbol : Composed N symbol) {b : CallBody}
    (h : ofMember s t m symbol = .ok b) : b.IsComposed N := by
  obtain ⟨operands, hoperands, h⟩ := bind_eq_ok.1 h
  obtain ⟨outcome, houtcome, h⟩ := bind_eq_ok.1 h
  cases h
  refine ⟨isComposed_self hsymbol _ (composed_operands names (own.composed_parameters hm) hoperands),
    fun type isNullable eq => ?_⟩
  obtain ⟨shape, hshape, rfl⟩ := map_eq_ok.1 houtcome
  have mentioned := names.all_named (Schema.shape_eq_ok.1 hshape)
  cases shape with
  | «class» t isNullable =>
    cases eq
    exact .name mentioned
  | _ => cases eq

include object in
theorem CallBody.IsComposed.isWoven {b : CallBody} (h : b.IsComposed N) :
    (b.code objectClass).IsWoven N M := by
  refine .append (isWoven_guardCode _ _) ?_
  cases outcome : b.outcome with
  | dropped => exact .line h.call.statement
  | returned => exact .line (h.call.after _ (by decide))
  | wrapped type isNullable =>
    have wrap : Composed N (Managed.wrap objectClass type isNullable "_handle") :=
      composed_wrap object (h.outcome type isNullable outcome) (.fixed _ (by decide)) isNullable
    have result : Composed N
        ("var _result = " ++ Managed.wrap objectClass type isNullable "_handle" ++ ";") :=
      ((Begun.start _).name wrap _).closed (by decide)
    exact .cons (h.call.after _ (by decide)) <| .cons result <| .cons (.fixed _ (by decide)) <|
      .cons (.fixed _ (by decide)) .nil

structure ArrayBody.IsComposed (N : String → Prop) (b : ArrayBody) : Prop where
  calls : ∀ call ∈ b.calls, call.IsComposed N
  element : Composed N b.element.literal
  wraps : ∀ type ∈ b.wraps, Composed N type.name

theorem ArrayBody.isComposed_stepCall (own : t.Named N)
    (exports_ok : ExportTable.build s t = .ok exports) {i : Nat} {p : Property} {step : ArrayStep}
    {call : NativeCall} (h : stepCall exports i p step = .ok call) : call.IsComposed N := by
  rw [stepCall] at h
  split at h
  · rename_i e he
    obtain ⟨mem, rfl⟩ := (ExportTable.find?_eq_some exports_ok).1 he
    cases h
    have symbol := own.composed_nameOf mem
    have array : Composed N (Operand.asIs "array").text :=
      (.fixed _ (by decide) : Composed N "array")
    have index : Composed N (Operand.asIs "i").text := (.fixed _ (by decide) : Composed N "i")
    cases step with
    | openArray =>
      have none := isComposed_self symbol p.isStatic
        (by simp : ∀ o ∈ [], Composed N (Operand.text o))
      rwa [List.append_nil] at none
    | countItems => exact isComposed_self symbol _ (List.forall_mem_singleton.2 array)
    | itemAt =>
      exact isComposed_self symbol _
        (List.forall_mem_cons.2 ⟨array, List.forall_mem_singleton.2 index⟩)
    | closeArray => exact isComposed_self symbol _ (List.forall_mem_singleton.2 array)
  · cases h

theorem ArrayBody.isComposed_ofProperty (names : s.Named N) (own : t.Named N)
    (exports_ok : ExportTable.build s t = .ok exports) {i : Nat} {p : Property} {element : TypeRef}
    {b : ArrayBody} (h : ofProperty s exports i p element = .ok b) : b.IsComposed N := by
  obtain ⟨spelling, hspelling, h⟩ := bind_eq_ok.1 h
  obtain ⟨openCall, hopen, h⟩ := bind_eq_ok.1 h
  obtain ⟨countCall, hcount, h⟩ := bind_eq_ok.1 h
  obtain ⟨itemCall, hitem, h⟩ := bind_eq_ok.1 h
  obtain ⟨closeCall, hclose, h⟩ := bind_eq_ok.1 h
  obtain ⟨wraps, hwraps, h⟩ := bind_eq_ok.1 h
  cases h
  refine ⟨?_, names.composed_resolve hspelling, fun type htype => ?_⟩
  · simp only [calls, List.forall_mem_cons]
    exact ⟨isComposed_stepCall own exports_ok hopen, isComposed_stepCall own exports_ok hcount,
      isComposed_stepCall own exports_ok hitem, isComposed_stepCall own exports_ok hclose, by simp⟩
  · obtain ⟨shape, hshape, rfl⟩ := map_eq_ok.1 hwraps
    have mentioned := names.all_named (Schema.shape_eq_ok.1 hshape)
    cases shape with
    | «class» t isNullable =>
      cases htype
      exact .name mentioned
    | _ => cases htype

include object in
theorem ArrayBody.IsComposed.isWoven {b : ArrayBody} (h : b.IsComposed N) :
    (b.code objectClass).IsWoven N M := by
  have each := h.calls
  simp only [ArrayBody.calls, List.forall_mem_cons] at each
  obtain ⟨openCall, countCall, itemCall, closeCall, _⟩ := each
  have items : Code.IsWoven N M (Code.lines (b.itemLines objectClass)) := by
    rw [itemLines]
    split
    · rename_i type htype
      have wrap : Composed N (Managed.wrap objectClass type false "n") :=
        composed_wrap object (h.wraps type htype) (.fixed _ (by decide)) false
      have item : Composed N ("var item = " ++ Managed.wrap objectClass type false "n" ++ ";") :=
        ((Begun.start _).name wrap _).closed (by decide)
      exact .cons item <| .cons (.fixed _ (by decide)) <| .cons (.fixed _ (by decide)) .nil
    · exact .fixed _ (by decide)
  have list : Composed N ("var result = new System.Collections.Generic.List<" ++
      b.element.literal ++ ">(count);") := ((Begun.start _).name h.element _).closed (by decide)
  have reading : (b.reading objectClass).IsWoven N M :=
    .append (.append (.cons (countCall.after _ (by decide)) (.cons list .nil))
      (.block (.fixed _ (by decide)) (.append (.line (itemCall.after _ (by decide))) items)))
      (.fixed _ (by decide))
  exact .append (.append (.append (isWoven_guardCode _ _) (.line (openCall.after _ (by decide))))
    (.block (.fixed _ (by decide)) reading))
    (.block (.fixed _ (by decide)) (.line closeCall.statement))

end Bodies

section Members

theorem composed_modifiers (isServer isStatic : Bool) : Composed N (modifiers isServer isStatic) := by
  cases isStatic with
  | true => exact (.fixed _ (by decide) : Composed N "public static")
  | false =>
    cases isServer with
    | true => exact (.fixed _ (by decide) : Composed N "public virtual")
    | false => exact (.fixed _ (by decide) : Composed N "public")

variable {objectClass : String} (object : Composed N objectClass) (names : s.Named N)
  (own : t.Named N) (exports_ok : ExportTable.build s t = .ok exports)
include object names own exports_ok

theorem woven_callBody {m : Member} {b : Option CallBody}
    (h : WrappedProperty.callBody s t exports m = .ok b) :
    ∀ body ∈ b, (body.code objectClass).IsWoven N M := by
  intro body hbody
  rcases mapM_eq_ok.1 h with ⟨_, rfl⟩ | ⟨e, body', he, rfl, ok⟩
  · cases hbody
  · cases hbody
    obtain ⟨mem, rfl⟩ := (ExportTable.find?_eq_some exports_ok).1 he
    exact (CallBody.isComposed_ofMember names own (Schema.mem_exportKinds_member.1 mem).1
      (own.composed_nameOf mem) ok).isWoven object

theorem woven_getter {i : Nat} {p : Property} {g : Option GetterBody}
    (h : WrappedProperty.getterOf s t exports i p = .ok g) :
    ∀ body ∈ g, (body.code objectClass).IsWoven N M := by
  obtain ⟨b, hb, h⟩ := bind_eq_ok.1 h
  have plain : ∀ body ∈ b, (body.code objectClass).IsWoven N M :=
    woven_callBody object names own exports_ok hb
  intro body hbody
  cases b with
  | some call =>
    cases h
    cases hbody
    exact plain call rfl
  | none =>
    dsimp only at h
    split at h
    · obtain ⟨array, harray, h⟩ := bind_eq_ok.1 h
      cases h
      cases hbody
      exact (ArrayBody.isComposed_ofProperty names own exports_ok harray).isWoven object
    · cases h
      cases hbody

theorem woven_property (isServer : Bool) {i : Nat} {p : Property} (hp : p ∈ t.properties)
    {w : WrappedProperty} (h : WrappedProperty.ofProperty s t exports i p = .ok w) :
    (w.code objectClass isServer).IsWoven N M := by
  obtain ⟨type, htype, h⟩ := bind_eq_ok.1 h
  obtain ⟨getter, hgetter, h⟩ := bind_eq_ok.1 h
  obtain ⟨setter, hsetter, h⟩ := bind_eq_ok.1 h
  cases h
  have headline : Composed N
      (modifiers isServer p.isStatic ++ " " ++ type.literal ++ " " ++ p.name) :=
    ((Begun.first (composed_modifiers isServer p.isStatic) _).name (names.composed_resolve htype)
      _).last (.name (own.properties p hp)) (by decide)
  refine .append .blank (.block headline (.append (.getD fun code hcode => ?_)
    (.getD fun code hcode => ?_)))
  · obtain ⟨body, hbody, rfl⟩ := Option.map_eq_some_iff.1 hcode
    exact .block (.fixed _ (by decide)) (woven_getter object names own exports_ok hgetter body hbody)
  · obtain ⟨body, hbody, rfl⟩ := Option.map_eq_some_iff.1 hcode
    exact .block (.fixed _ (by decide))
      (woven_callBody object names own exports_ok hsetter body hbody)

theorem woven_method (isServer : Bool) {i : Nat} {m : Method} (hm : m ∈ t.methods)
    {w : WrappedMethod} (h : WrappedMethod.ofMethod s t exports i m = .ok (some w)) :
    (w.code objectClass isServer).IsWoven N M := by
  rcases mapM_eq_ok.1 h with ⟨_, h⟩ | ⟨e, _, he, h, ok⟩
  · cases h
  · cases h
    obtain ⟨mem, rfl⟩ := (ExportTable.find?_eq_some exports_ok).1 he
    obtain ⟨result, hresult, ok⟩ := bind_eq_ok.1 ok
    obtain ⟨parameters, hparameters, ok⟩ := bind_eq_ok.1 ok
    obtain ⟨body, hbody, ok⟩ := bind_eq_ok.1 ok
    cases ok
    have declared := names.composed_declareAll (fun p hp => .name (own.parameters m hm p hp))
      hparameters
    have headline : Composed N (modifiers isServer m.isStatic ++ " " ++ result.literal ++ " " ++
        m.name ++ "(" ++ Declared.join parameters ++ ")") :=
      ((((Begun.first (composed_modifiers isServer m.isStatic) _).name
        (names.composed_resolve hresult) _).name (.name (own.methods m hm)) _).name
        (composed_join fun d hd => (declared d hd).1) _).closed (by decide)
    have composed := CallBody.isComposed_ofMember names own (Schema.mem_exportKinds_member.1 mem).1
      (own.composed_nameOf mem) hbody
    exact .append .blank (.block headline (composed.isWoven object))

end Members

section Lifecycle

namespace Wrapper

variable {w : Wrapper}

theorem isWoven_attachment : w.attachment.IsWoven N M := .given _ (.fixed _ (by decide))

theorem isWoven_staticConstructor (type : Composed N w.type.name) :
    w.staticConstructor.IsWoven N M := by
  have headline : Composed N ("static " ++ w.type.name ++ "()") :=
    ((Begun.start _).name type _).closed (by decide)
  have calls : ∀ x ∈ registrations w.type, Composed N x := by
    refine List.forall_mem_append.2 ⟨?_, ?_⟩
    · split
      · exact List.forall_mem_singleton.2 (.fixed _ (by decide))
      · simp
    · split
      · exact List.forall_mem_singleton.2 (.fixed _ (by decide))
      · simp
  exact .given _ (.append (.block headline (.lines calls)) .blank)

theorem isWoven_constructors (type : Composed N w.type.name)
    (created : ∀ call ∈ w.create, call.IsComposed N) : w.constructors.IsWoven N M := by
  have chain : Composed N (if w.base.isSome then " : base(IntPtr.Zero)" else "") := by
    split <;> exact .fixed _ (by decide)
  have plain : w.plainConstructor.IsWoven N M := by
    rw [plainConstructor]
    cases create : w.create with
    | none =>
      exact .block (((Begun.start _).name type _).last chain (by decide)) .nil
    | some call =>
      have made : Composed N ("SetNativePointer(" ++ call.text ++ ");") :=
        ((Begun.start _).name (created call create).text _).closed (by decide)
      exact .block (((Begun.start _).name type _).last chain (by decide))
        (.append (.line made) isWoven_attachment)
  have adopting : Composed N ("public " ++ w.type.name ++
      "(IntPtr nativePointer) : base(nativePointer)") :=
    ((Begun.start _).name type _).closed (by decide)
  exact .append (.append (.append (isWoven_staticConstructor type) plain) .blank)
    (.block adopting isWoven_attachment)

theorem isWoven_handleCode {symbol : String} (h : Composed N symbol) :
    (handleCode symbol).IsWoven N M := by
  have attach : (attachCall symbol).IsComposed N := isComposed_self h false
    (List.forall_mem_singleton.2
      (.fixed _ (by decide) : Composed N "GCHandle.ToIntPtr(managedHandle)"))
  have detach : (detachCall symbol).IsComposed N := isComposed_self h false
    (List.forall_mem_singleton.2 (.fixed _ (by decide) : Composed N "IntPtr.Zero"))
  have attachBody : Code.IsWoven N M
      (Code.line "if (NativePointer == IntPtr.Zero || managedHandle.IsAllocated)" ++
        Code.nest (Code.line "return;") ++
        Code.lines ["managedHandle = GCHandle.Alloc(this);", (attachCall symbol).statement]) :=
    .append (.append (.fixed _ (by decide)) (.nest (.fixed _ (by decide))))
      (.cons (.fixed _ (by decide)) (.cons attach.statement .nil))
  have releaseBody : Code.IsWoven N M
      (Code.line "if (!managedHandle.IsAllocated)" ++ Code.nest (Code.line "return;") ++
        Code.line "if (NativePointer != IntPtr.Zero)" ++
        Code.nest (Code.line (detachCall symbol).statement) ++
        Code.line "managedHandle.Free();") :=
    .append (.append (.append (.append (.fixed _ (by decide)) (.nest (.fixed _ (by decide))))
      (.fixed _ (by decide))) (.nest (.line detach.statement))) (.fixed _ (by decide))
  exact .append (.append (.append (.append (.fixed _ (by decide)) .blank)
    (.block (.fixed _ (by decide)) attachBody)) .blank) (.block (.fixed _ (by decide)) releaseBody)

theorem isWoven_destruction (destroyed : ∀ call ∈ w.destroy, call.IsComposed N) :
    w.destruction.IsWoven N M := by
  have headline : Composed N "protected override void DestroyNativeObject()" :=
    .fixed _ (by decide)
  rw [destruction]
  cases destroy : w.destroy with
  | none =>
    exact .given _ (.append .blank (.block headline
      (.cons (.fixed _ (by decide)) (.cons (.fixed _ (by decide)) .nil))))
  | some call =>
    exact .append .blank (.block headline (.append (.append (.append
      (.given _ (.fixed _ (by decide))) (.fixed _ (by decide))) (.nest (.fixed _ (by decide))))
      (.cons (destroyed call destroy).statement (.cons (.fixed _ (by decide)) .nil))))

end Wrapper

end Lifecycle

end InteropGen
