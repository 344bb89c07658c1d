import InteropGen.Bridge.SlotEnum

set_option autoImplicit false

/-!
# Dispatch tables

A dispatch table makes the entry point of a slot when it is first asked for and keeps it from then
on.  A slot that cannot be made is asked for again each time.
-/

namespace InteropGen

/-- Makes the entry point of a slot, if it can; it may answer differently each time. -/
abbrev Factory (e : SlotEnum) (σ α : Type) := Fin e.size → σ → Option α × σ

structure DispatchTable (e : SlotEnum) (α : Type) where
  /-- The entry points that are kept. -/
  pinned : List (Fin e.size × α) := []

namespace DispatchTable

variable {e : SlotEnum} {σ α : Type}

def get? (t : DispatchTable e α) (slot : Fin e.size) : Option α := t.pinned.lookup slot

def pin (t : DispatchTable e α) (slot : Fin e.size) (entry : α) : DispatchTable e α :=
  ⟨(slot, entry) :: t.pinned⟩

def pinnedCount (t : DispatchTable e α) : Nat := t.pinned.length

/-- The entry point of a slot, made and kept at the first request. -/
def lookup (factory : Factory e σ α) (slot : Fin e.size) (t : DispatchTable e α) (world : σ) :
    Option α × DispatchTable e α × σ :=
  match t.get? slot with
  | some entry => (some entry, t, world)
  | none =>
    match factory slot world with
    | (some entry, world) => (some entry, t.pin slot entry, world)
    | (none, world) => (none, t, world)

def locate (factory : Factory e σ α) (raw : Int) (t : DispatchTable e α) (world : σ) :
    Option α × DispatchTable e α × σ :=
  match e.ofRaw? raw with
  | none => (none, t, world)
  | some slot => t.lookup factory slot world

theorem locate_toRaw {factory : Factory e σ α} {slot : Fin e.size} {t : DispatchTable e α}
    {world : σ} :
    t.locate factory (SlotEnum.toRaw slot) world = t.lookup factory slot world := by
  simp [locate]

@[simp] theorem get?_pin_self {slot : Fin e.size} {t : DispatchTable e α} {entry : α} :
    (t.pin slot entry).get? slot = some entry := by
  simp [get?, pin]

theorem get?_pin_of_ne {slot other : Fin e.size} {t : DispatchTable e α} {entry : α}
    (h : other ≠ slot) : (t.pin slot entry).get? other = t.get? other := by
  have : (other == slot) = false := by simpa using h
  simp [get?, pin, List.lookup_cons, this]

end DispatchTable

end InteropGen
