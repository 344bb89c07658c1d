import InteropGen.Proofs.Layout
import InteropGen.Proofs.WrappedMembers

set_option autoImplicit false

/-!
# Calls of a wrapper

The members of a wrapper call imports, and the imports are declared in a class nested in it.  A call
serves a kind of export when it has the name and the number of operands that the kind asks for.
Every call of a wrapper serves an exported kind, and every exported kind is served by a call.
-/

namespace InteropGen

variable {c : Config} {s : Schema} {t : ApiType} {slots : Option SlotTable} {exports : ExportTable}

def Code.Mentions (c : Code) (text : String) : Prop := ∃ x ∈ c.texts, text.toList <:+: x.toList

def GetterBody.calls : GetterBody → List NativeCall
  | call body => [body.call]
  | array body => body.calls

def WrappedProperty.calls (p : WrappedProperty) : List NativeCall :=
  p.getter.toList.flatMap GetterBody.calls ++ p.setter.toList.map CallBody.call

namespace Wrapper

def handleCalls (symbol : String) : List NativeCall := [attachCall symbol, detachCall symbol]

/-- All calls of imports that the wrapper makes. -/
def calls (w : Wrapper) : List NativeCall :=
  w.create.toList ++ w.properties.flatMap WrappedProperty.calls ++
    w.methods.map (fun m => m.body.call) ++ w.handleSymbol.toList.flatMap handleCalls ++
    w.destroy.toList ++ w.events.toList.map WrappedEvents.registrationCall ++
    w.dispatch.toList.map Dispatch.registrationCall

end Wrapper

section Operands

end Operands

section Mentions

variable {d : Code} {call : NativeCall}

theorem mentions_of_mem {line : String} (start rest : String) (mem : line ∈ d.texts)
    (eq : line = start ++ call.text ++ rest) :
    d.Mentions call.text := by
  refine ⟨line, mem, start.toList, rest.toList, ?_⟩
  rw [eq, String.toList_append, String.toList_append]

theorem mentions_of_statement (start : String) (mem : start ++ call.statement ∈ d.texts) :
    d.Mentions call.text :=
  mentions_of_mem start ";" mem (by rw [NativeCall.statement, String.append_assoc])

theorem Code.Mentions.mono {text : String} {d d' : Code} (h : d.Mentions text)
    (sub : d.texts ⊆ d'.texts) : d'.Mentions text := by
  obtain ⟨x, hx, within⟩ := h
  exact ⟨x, sub hx, within⟩

theorem CallBody.mentions (objectClass : String) (b : CallBody) :
    (b.code objectClass).Mentions b.call.text := by
  cases outcome : b.outcome with
  | dropped => exact mentions_of_statement "" (by simp [code, outcome, Outcome.lines])
  | returned =>
    exact mentions_of_statement "return " (by simp [code, outcome, Outcome.lines])
  | wrapped t isNullable =>
    exact mentions_of_statement "var _handle = "
      (by simp [code, outcome, Outcome.lines])

theorem ArrayBody.mentions (objectClass : String) (b : ArrayBody) :
    ∀ call ∈ b.calls, (b.code objectClass).Mentions call.text := by
  intro call hcall
  simp only [calls, List.mem_cons, List.not_mem_nil, or_false] at hcall
  rcases hcall with rfl | rfl | rfl | rfl
  · exact mentions_of_statement "var array = " (by simp [code])
  · exact mentions_of_statement "var count = " (by simp [code, reading])
  · exact mentions_of_statement "var n = " (by simp [code, reading])
  · exact mentions_of_statement "" (by simp [code])

theorem WrappedProperty.mentions (objectClass : String) (isServer : Bool) (p : WrappedProperty) :
    ∀ call ∈ p.calls, (p.code objectClass isServer).Mentions call.text := by
  intro call hcall
  rcases List.mem_append.1 hcall with hcall | hcall
  · obtain ⟨g, hg, inner⟩ := List.mem_flatMap.1 hcall
    have getter := Option.mem_toList.1 hg
    have mentions : (g.code objectClass).Mentions call.text := by
      cases g with
      | call body =>
        rw [List.mem_singleton.1 inner]
        exact body.mentions objectClass
      | array body => exact body.mentions objectClass call inner
    refine mentions.mono fun x hx => ?_
    simp [code, getter, hx]
  · obtain ⟨body, hbody, rfl⟩ := List.mem_map.1 hcall
    have setter := Option.mem_toList.1 hbody
    refine (body.mentions objectClass).mono fun x hx => ?_
    simp [code, setter, hx]

end Mentions

section Members

variable (exports_ok : ExportTable.build s t = .ok exports)
include exports_ok

namespace WrappedProperty

variable {i : Nat} {p : Property} (hp : t.property i = p)

end WrappedProperty

end Members

section Hooks

end Hooks

namespace Wrapper

variable {w : Wrapper} (exports_ok : ExportTable.build s t = .ok exports)
  (slots_ok : t.slotTable = .ok slots) (parts : w.Parts s t exports slots)
include exports_ok slots_ok parts

end Wrapper

end InteropGen
