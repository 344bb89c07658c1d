import InteropGen.Bridge.DispatchTable
import InteropGen.Bridge.Error

set_option autoImplicit false

/-!
# The bridge of a type

The native half keeps a locator, which is registered once and then answers every request.  The
managed half answers from its dispatch table.
-/

namespace InteropGen

inductive Locator (α : Type) where
  /-- Always the same answers. -/
  | fixed (answer : Int → Option α)
  /-- Answers that depend on how many questions there were before. -/
  | varying (answers : Nat → Int → Option α)
  /-- The answers of the dispatch table. -/
  | table

structure Bridge (e : SlotEnum) (σ α : Type) where
  locator : Option (Locator α) := none
  /-- How often the locator was asked. -/
  asked : Nat := 0
  table : DispatchTable e α := {}
  /-- What the factory works on. -/
  world : σ

namespace Bridge

variable {e : SlotEnum} {σ α : Type}

/-- Registers a locator unless there is one; tells whether it was registered. -/
def register (l : Locator α) (b : Bridge e σ α) : Bool × Bridge e σ α :=
  match b.locator with
  | some _ => (false, b)
  | none => (true, { b with locator := some l })

def isRegistered (b : Bridge e σ α) : Bool := b.locator.isSome

def lookup (factory : Factory e σ α) (slot : Fin e.size) (b : Bridge e σ α) :
    Option α × Bridge e σ α :=
  match b.table.lookup factory slot b.world with
  | (entry, table, world) => (entry, { b with table, world })

def locate (factory : Factory e σ α) (raw : Int) (b : Bridge e σ α) : Option α × Bridge e σ α :=
  match b.table.locate factory raw b.world with
  | (entry, table, world) => (entry, { b with table, world })

def ask (factory : Factory e σ α) (raw : Int) (b : Bridge e σ α) :
    Locator α → Option α × Bridge e σ α
  | .fixed answer => (answer raw, { b with asked := b.asked + 1 })
  | .varying answers => (answers b.asked raw, { b with asked := b.asked + 1 })
  | .table => locate factory raw { b with asked := b.asked + 1 }

def resolve (factory : Factory e σ α) (slot : Fin e.size) (b : Bridge e σ α) :
    Except BridgeError α × Bridge e σ α :=
  match b.locator with
  | none => (.error (.locatorNotRegistered e.typeName), b)
  | some l =>
    match b.ask factory (SlotEnum.toRaw slot) l with
    | (some entry, b) => (.ok entry, b)
    | (none, b) => (.error (.unknownSlot e.typeName (SlotEnum.toRaw slot)), b)

def pinnedCount (b : Bridge e σ α) : Nat := b.table.pinnedCount

end Bridge

end InteropGen
