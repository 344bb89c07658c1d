import InteropGen.Managed.Wrapper
import InteropGen.Proofs.SpelledTypes
import InteropGen.Proofs.Steps

set_option autoImplicit false

/-!
# Conversions of managed code

A wrapper turns objects into handles and back by the shapes of types, and the imports and delegates
spell those types by themselves.  A handle is converted exactly where one is spelled.
-/

namespace InteropGen

variable {s : Schema}

def TypeRef.isNullable : TypeRef → Bool
  | nullable _ => true
  | _ => false

namespace Schema

/-- The class that a type refers to, with a `?` or without. -/
def classOf? (s : Schema) (type : TypeRef) : Option ApiType :=
  (type.apiName?.bind s.get?).filter ApiType.isClass

/-- A class that its name stands for. -/
def IsClass (s : Schema) (t : ApiType) : Prop := s.get? t.name = some t ∧ t.isClass = true

theorem IsClass.eq_of_name {t t' : ApiType} (h : s.IsClass t) (h' : s.IsClass t')
    (name : t.name = t'.name) : t = t' := by
  have found := h.1
  rw [name, h'.1] at found
  exact (Option.some.inj found).symm

end Schema

section Handles

variable {position : Position} {shape : Shape} {spelling : Spelling}

namespace Schema

variable {type : TypeRef} (ok : s.resolve .binding position type = .ok spelling)
include ok

end Schema

end Handles

namespace Managed

/-- How the wrapper of a handle of the type is looked up: with a `!` unless the type says that it
may be missing, and with no way to make one exactly if the class is abstract. -/
structure Wraps (type : TypeRef) (C : ApiType) (isNullable : Bool) : Prop where
  marked : ∀ objectClass handle,
    (wrap objectClass C isNullable handle).toList.getLast? = some '!' ↔ type.isNullable = false
  factory : factory C = "null" ↔ C.isAbstract = true

theorem wraps (type : TypeRef) (C : ApiType) : Wraps type C type.isNullable := by
  constructor
  · intro objectClass handle
    cases type.isNullable with
    | false =>
      refine iff_of_true ?_ rfl
      change (lookup objectClass C handle ++ "!").toList.getLast? = _
      rw [String.toList_append, List.getLast?_append]
      rfl
    | true =>
      refine iff_of_false ?_ nofun
      change (objectClass ++ ".GetFromNativePointer<" ++ C.name ++ ">(" ++ handle ++ ", " ++
        Managed.factory C ++ ")" ++ "").toList.getLast? ≠ _
      rw [String.append_empty, String.toList_append, List.getLast?_append]
      exact nofun
  · unfold Managed.factory
    cases C.isAbstract with
    | true => exact iff_of_true rfl rfl
    | false =>
      refine iff_of_false (fun eq => ?_) nofun
      have first := congrArg (fun x => x.toList.head?) eq
      simp at first

end Managed

/-! ### Wrappers call imports -/

section Operands

end Operands

/-! ### Slots call members -/

def parameterAttributes : List String :=
  ["", "[MarshalAs(UnmanagedType.I1)] ", "[MarshalAs(UnmanagedType.LPWStr)] "]

structure Declared.Unmarshals (plain d : Declared) : Prop where
  name : plain.name = d.name
  literal : ∃ mark ∈ parameterAttributes, d.spelling.literal = mark ++ plain.spelling.literal
  «include» : plain.spelling.include = d.spelling.include

theorem Declared.Unmarshals.refl (d : Declared) : d.Unmarshals d :=
  ⟨rfl, ⟨"", by decide, (String.empty_append).symm⟩, rfl⟩

section Slots

variable {t : ApiType} {slot : Slot}

end Slots

end InteropGen
