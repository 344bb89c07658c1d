import Mathlib.Data.List.Nodup
import Mathlib.Data.List.TakeWhile
import InteropGen.Bridge.Basic
import InteropGen.Proofs.Observations

set_option autoImplicit false

/-!
# Histories of a bridge

A history records every call of a bridge with its answer and with what the factory was asked for
meanwhile.  The first locator that is offered is kept, and the first entry point that is made for a
slot is kept, so every answer follows from the history before it.
-/

namespace InteropGen

variable {e : SlotEnum} {σ α : Type}

inductive BridgeCall (e : SlotEnum) (α : Type) where
  | register (l : Locator α)
  | isRegistered
  | resolve (slot : Fin e.size)
  | lookup (slot : Fin e.size)
  | locate (raw : Int)
  | pinnedCount

inductive BridgeAnswer (α : Type) where
  | flag (b : Bool)
  | entry (entry : Option α)
  | resolved (result : Except BridgeError α)
  | count (n : Nat)

/-- A call, its answer, and the slots that the factory was asked for with what it made. -/
structure BridgeRecord (e : SlotEnum) (α : Type) where
  call : BridgeCall e α
  answer : BridgeAnswer α
  made : List (Fin e.size × Option α)

def BridgeCall.perform (factory : Factory e σ α) (b : Bridge e σ α) :
    BridgeCall e α → BridgeAnswer α × Bridge e σ α
  | .register l => (.flag (b.register l).1, (b.register l).2)
  | .isRegistered => (.flag b.isRegistered, b)
  | .resolve slot => (.resolved (b.resolve factory slot).1, (b.resolve factory slot).2)
  | .lookup slot => (.entry (b.lookup factory slot).1, (b.lookup factory slot).2)
  | .locate raw => (.entry (b.locate factory raw).1, (b.locate factory raw).2)
  | .pinnedCount => (.count b.pinnedCount, b)

/-- A factory that keeps a list of what it was asked for and what it made. -/
def Factory.recorded (factory : Factory e σ α) : Factory e (σ × List (Fin e.size × Option α)) α :=
  fun slot world =>
    ((factory slot world.1).1, ((factory slot world.1).2,
      world.2 ++ [(slot, (factory slot world.1).1)]))

namespace Bridge

/-- The same bridge with another world for the factory to work on. -/
def inWorld {τ : Type} (world : τ) (b : Bridge e σ α) : Bridge e τ α :=
  ⟨b.locator, b.asked, b.table, world⟩

def recordCall (factory : Factory e σ α) (call : BridgeCall e α) (b : Bridge e σ α) :
    BridgeRecord e α × Bridge e σ α :=
  let done := call.perform factory.recorded (b.inWorld (b.world, []))
  (⟨call, done.1, done.2.world.2⟩, done.2.inWorld done.2.world.1)

def answers (factory : Factory e σ α) (b : Bridge e σ α) (calls : List (BridgeCall e α)) :
    List (BridgeAnswer α) :=
  observations (fun call b => call.perform factory b) b calls

def history (factory : Factory e σ α) (b : Bridge e σ α) (calls : List (BridgeCall e α)) :
    List (BridgeRecord e α) :=
  observations (recordCall factory) b calls

end Bridge

namespace BridgeRecord

def offered? (r : BridgeRecord e α) : Option (Locator α) :=
  match r.call with
  | .register l => some l
  | _ => none

def isResolution (r : BridgeRecord e α) : Bool :=
  match r.call with
  | .resolve _ => true
  | _ => false

def LooksUp (r : BridgeRecord e α) (slot : Fin e.size) : Prop :=
  r.call = .lookup slot ∨ r.call = .locate slot.val

end BridgeRecord

namespace BridgeHistory

variable {h : List (BridgeRecord e α)} {r : BridgeRecord e α} {slot : Fin e.size}

def locator? (h : List (BridgeRecord e α)) : Option (Locator α) :=
  h.findSome? BridgeRecord.offered?

/-- How many resolutions there were since a locator was offered. -/
def asked (h : List (BridgeRecord e α)) : Nat :=
  (h.dropWhile fun r => r.offered?.isNone).countP BridgeRecord.isResolution

def producedIn? (slot : Fin e.size) (made : List (Fin e.size × Option α)) : Option α :=
  made.findSome? fun making => if making.1 = slot then making.2 else none

def produced? (h : List (BridgeRecord e α)) (slot : Fin e.size) : Option α :=
  producedIn? slot (h.flatMap BridgeRecord.made)

/-- What a resolution gives for what the locator answered. -/
def resolution (slot : Fin e.size) : Option α → Except BridgeError α
  | some entry => .ok entry
  | none => .error (.unknownSlot e.typeName slot.val)

/-- A slot is made if it has not been made before; what has been made is given again. -/
def Looked (h : List (BridgeRecord e α)) (slot : Fin e.size) (found : Option α)
    (made : List (Fin e.size × Option α)) : Prop :=
  match produced? h slot with
  | some entry => found = some entry ∧ made = []
  | none => made = [(slot, found)]

def Located (h : List (BridgeRecord e α)) (slot : Fin e.size) (found : Option α)
    (made : List (Fin e.size × Option α)) : Locator α → Prop
  | .fixed answer => found = answer slot.val ∧ made = []
  | .varying answers => found = answers (asked h) slot.val ∧ made = []
  | .table => Looked h slot found made

def Follows (h : List (BridgeRecord e α)) (r : BridgeRecord e α) : Prop :=
  match r.call with
  | .register _ => r.answer = .flag (locator? h).isNone ∧ r.made = []
  | .isRegistered => r.answer = .flag (locator? h).isSome ∧ r.made = []
  | .resolve slot =>
    match locator? h with
    | none => r.answer = .resolved (.error (.locatorNotRegistered e.typeName)) ∧ r.made = []
    | some l =>
      ∃ found, r.answer = .resolved (resolution slot found) ∧ Located h slot found r.made l
  | .lookup slot => ∃ found, r.answer = .entry found ∧ Looked h slot found r.made
  | .locate raw =>
    match e.ofRaw? raw with
    | none => r.answer = .entry none ∧ r.made = []
    | some slot => ∃ found, r.answer = .entry found ∧ Looked h slot found r.made
  | .pinnedCount =>
    r.answer = .count (e.all.countP fun slot => (produced? h slot).isSome) ∧ r.made = []

theorem locator?_append : locator? (h ++ [r]) = (locator? h).or r.offered? := by
  rw [locator?, List.findSome?_append]
  simp [locator?]

theorem produced?_append :
    produced? (h ++ [r]) slot = (produced? h slot).or (producedIn? slot r.made) := by
  rw [produced?, producedIn?, List.flatMap_append, List.findSome?_append]
  simp [produced?, producedIn?]

theorem asked_of_unregistered (none : locator? h = none) : asked h = 0 := by
  have empty : (h.dropWhile fun r => r.offered?.isNone) = [] := by
    rw [List.dropWhile_eq_nil_iff]
    intro r hr
    rw [List.findSome?_eq_none_iff.1 none r hr]
    rfl
  rw [asked, empty, List.countP_nil]

theorem asked_append :
    asked (h ++ [r]) = asked h + if (locator? h).isSome ∧ r.isResolution then 1 else 0 := by
  cases registered : locator? h with
  | none =>
    rw [asked_of_unregistered registered]
    cases offer : r.offered? with
    | none =>
      refine (asked_of_unregistered ?_).trans (by simp)
      rw [locator?_append, registered, offer]
      rfl
    | some l =>
      have empty : (h.dropWhile fun r => r.offered?.isNone) = [] := by
        rw [List.dropWhile_eq_nil_iff]
        intro r hr
        rw [List.findSome?_eq_none_iff.1 registered r hr]
        rfl
      have other : r.isResolution = false := by
        obtain ⟨call, _, _⟩ := r
        cases call with
        | resolve slot => cases offer
        | _ => rfl
      simp [asked, List.dropWhile_append, empty, offer, other]
  | some l =>
    have nonempty : (h.dropWhile fun r => r.offered?.isNone).isEmpty = false := by
      rw [← Bool.not_eq_true, List.isEmpty_iff, List.dropWhile_eq_nil_iff]
      intro all
      obtain ⟨r, hr, offer⟩ := List.exists_of_findSome?_eq_some registered
      simpa [offer] using all r hr
    simp [asked, List.dropWhile_append, nonempty, List.countP_singleton]

end BridgeHistory

open BridgeHistory

structure DispatchTable.Remembers (t : DispatchTable e α) (h : List (BridgeRecord e α)) : Prop where
  entries : ∀ slot, t.get? slot = produced? h slot
  distinct : (t.pinned.map Prod.fst).Nodup

namespace DispatchTable

variable {factory : Factory e σ α} {slot : Fin e.size} {t : DispatchTable e α} {world : σ}
  {h : List (BridgeRecord e α)} {r : BridgeRecord e α}

/-- A recorded lookup gives what is pinned, or asks the factory once and pins what it makes. -/
theorem lookup_recorded (factory : Factory e σ α) (slot : Fin e.size) (t : DispatchTable e α)
    (world : σ) :
    (∃ entry, t.get? slot = some entry ∧
      t.lookup factory.recorded slot (world, []) = (some entry, t, (world, []))) ∨
    (t.get? slot = none ∧ ∃ found world',
      t.lookup factory.recorded slot (world, []) =
        (found, found.elim t (t.pin slot), (world', [(slot, found)]))) := by
  cases pinned : t.get? slot with
  | some entry => exact .inl ⟨entry, rfl, by simp [lookup, pinned]⟩
  | none =>
    refine .inr ⟨rfl, (factory slot world).1, (factory slot world).2, ?_⟩
    cases made : (factory slot world).1 <;> simp [lookup, pinned, Factory.recorded, made]

theorem not_mem_keys_iff : slot ∉ t.pinned.map Prod.fst ↔ t.get? slot = none := by
  rw [get?, List.lookup_eq_none_iff]
  simp only [List.mem_map, not_exists, not_and, bne_iff_ne, ne_eq]
  exact forall₂_congr fun p _ => not_congr eq_comm

theorem Remembers.idle (remembers : t.Remembers h) (made : r.made = []) :
    t.Remembers (h ++ [r]) := by
  refine ⟨fun slot => ?_, remembers.distinct⟩
  rw [produced?_append, made, remembers.entries]
  simp [producedIn?]

theorem Remembers.looked (remembers : t.Remembers h) (factory : Factory e σ α)
    (slot : Fin e.size) (world : σ) :
    ∃ found t' world' made,
      t.lookup factory.recorded slot (world, []) = (found, t', (world', made)) ∧
        Looked h slot found made ∧
        ∀ r : BridgeRecord e α, r.made = made → t'.Remembers (h ++ [r]) := by
  rcases lookup_recorded factory slot t world with
    ⟨entry, pinned, eq⟩ | ⟨unpinned, found, world', eq⟩
  · refine ⟨_, _, _, _, eq, ?_, fun r made => remembers.idle made⟩
    rw [Looked, ← remembers.entries, pinned]
    exact ⟨rfl, rfl⟩
  · refine ⟨_, _, _, _, eq, ?_, fun r made => ⟨fun other => ?_, ?_⟩⟩
    · rw [Looked, ← remembers.entries, unpinned]
    · rw [produced?_append, made, ← remembers.entries]
      cases found with
      | none => simp [producedIn?]
      | some entry =>
        by_cases same : other = slot
        · subst same
          simp [unpinned, producedIn?]
        · simp [get?_pin_of_ne same, producedIn?, Ne.symm same]
    · cases found with
      | none => exact remembers.distinct
      | some entry => exact List.nodup_cons.2 ⟨not_mem_keys_iff.2 unpinned, remembers.distinct⟩

/-- Pinned slots are counted once each. -/
theorem Remembers.pinnedCount (remembers : t.Remembers h) :
    t.pinnedCount = e.all.countP fun slot => (produced? h slot).isSome := by
  -- The slots that were made are those that are pinned, each of them once.
  have same : (e.all.filter fun slot => (produced? h slot).isSome).Perm
      (t.pinned.map Prod.fst) := by
    refine (List.perm_ext_iff_of_nodup ((List.nodup_finRange _).filter _) remembers.distinct).2
      fun slot => ?_
    rw [← not_iff_not, not_mem_keys_iff, remembers.entries]
    simp
  rw [List.countP_eq_length_filter, same.length_eq, List.length_map, DispatchTable.pinnedCount]

end DispatchTable

namespace Bridge

variable {factory : Factory e σ α} {b : Bridge e σ α} {h : List (BridgeRecord e α)}

structure Remembers (b : Bridge e σ α) (h : List (BridgeRecord e α)) : Prop where
  locator : b.locator = locator? h
  asked : b.asked = BridgeHistory.asked h
  table : b.table.Remembers h

theorem remembers_new (world : σ) :
    ({ world } : Bridge e σ α).Remembers [] :=
  ⟨rfl, rfl, fun _ => rfl, List.nodup_nil⟩

/-- A call that neither offers a locator nor asks for one changes the table at most. -/
theorem Remembers.append (remembers : b.Remembers h) {r : BridgeRecord e α}
    (offer : r.offered? = none) (other : r.isResolution = false) {t : DispatchTable e α} {world : σ}
    (table : t.Remembers (h ++ [r])) :
    (⟨b.locator, b.asked, t, world⟩ : Bridge e σ α).Remembers (h ++ [r]) := by
  refine ⟨?_, ?_, table⟩
  · rw [locator?_append, offer, Option.or_none]
    exact remembers.locator
  · rw [asked_append, other]
    simpa using remembers.asked

theorem Remembers.asks (remembers : b.Remembers h) {slot : Fin e.size} {l : Locator α}
    (registered : locator? h = some l) {answer : BridgeAnswer α}
    {made : List (Fin e.size × Option α)} {t : DispatchTable e α} {world : σ}
    (table : t.Remembers (h ++ [⟨.resolve slot, answer, made⟩])) :
    (⟨b.locator, b.asked + 1, t, world⟩ : Bridge e σ α).Remembers
      (h ++ [⟨.resolve slot, answer, made⟩]) := by
  refine ⟨?_, ?_, table⟩
  · rw [locator?_append, registered]
    exact remembers.locator.trans registered
  · rw [asked_append, registered]
    simpa [BridgeRecord.isResolution] using remembers.asked

theorem follows_resolve (remembers : b.Remembers h) (slot : Fin e.size) :
    Follows h (recordCall factory (.resolve slot) b).1 ∧
      (recordCall factory (.resolve slot) b).2.Remembers
        (h ++ [(recordCall factory (.resolve slot) b).1]) := by
  cases stored : b.locator with
  | none =>
    have record : recordCall factory (.resolve slot) b =
        (⟨.resolve slot, .resolved (.error (.locatorNotRegistered e.typeName)), []⟩, b) := by
      obtain ⟨_, _, _, _⟩ := b
      cases stored
      rfl
    have unregistered := remembers.locator.symm.trans stored
    rw [record]
    refine ⟨?_, ?_, ?_, remembers.table.idle rfl⟩
    · simp only [Follows, unregistered]
      exact ⟨trivial, trivial⟩
    · rw [locator?_append, unregistered]
      exact stored
    · rw [asked_append, unregistered]
      simpa using remembers.asked
  | some l =>
    have registered := remembers.locator.symm.trans stored
    -- Whatever the locator is, the record has the same form, and the table takes note of it.
    have step : ∃ found t' world' made, recordCall factory (.resolve slot) b =
        (⟨.resolve slot, .resolved (resolution slot found), made⟩,
          ⟨b.locator, b.asked + 1, t', world'⟩) ∧ Located h slot found made l ∧
        t'.Remembers (h ++ [⟨.resolve slot, .resolved (resolution slot found), made⟩]) := by
      cases l with
      | fixed answer =>
        refine ⟨answer slot.val, b.table, b.world, [], ?_, ⟨rfl, rfl⟩, remembers.table.idle rfl⟩
        cases found : answer slot.val <;>
          simp [recordCall, BridgeCall.perform, resolve, ask, inWorld, stored, SlotEnum.toRaw,
            found, resolution]
      | varying answers =>
        refine ⟨answers b.asked slot.val, b.table, b.world, [], ?_, ⟨?_, rfl⟩,
          remembers.table.idle rfl⟩
        · cases found : answers b.asked slot.val <;>
            simp [recordCall, BridgeCall.perform, resolve, ask, inWorld, stored, SlotEnum.toRaw,
              found, resolution]
        · rw [remembers.asked]
      | table =>
        obtain ⟨found, t', world', made, eq, looked, kept⟩ :=
          remembers.table.looked factory slot b.world
        refine ⟨found, t', world', made, ?_, looked, kept _ rfl⟩
        have located : b.table.locate factory.recorded slot.val (b.world, []) =
            (found, t', (world', made)) := DispatchTable.locate_toRaw.trans eq
        cases found <;>
          simp [recordCall, BridgeCall.perform, resolve, ask, locate, inWorld, stored, located,
            SlotEnum.toRaw, resolution]
    obtain ⟨found, t', world', made, record, located, kept⟩ := step
    rw [record]
    refine ⟨?_, remembers.asks registered kept⟩
    simp only [Follows, registered]
    exact ⟨found, rfl, located⟩

theorem follows_recordCall (remembers : b.Remembers h) (call : BridgeCall e α) :
    Follows h (recordCall factory call b).1 ∧
      (recordCall factory call b).2.Remembers (h ++ [(recordCall factory call b).1]) := by
  cases call with
  | register l =>
    cases stored : b.locator with
    | none =>
      have record : recordCall factory (.register l) b =
          (⟨.register l, .flag true, []⟩, ⟨some l, b.asked, b.table, b.world⟩) := by
        obtain ⟨_, _, _, _⟩ := b
        cases stored
        rfl
      have unregistered := remembers.locator.symm.trans stored
      rw [record]
      refine ⟨⟨by rw [unregistered]; rfl, rfl⟩, ?_, ?_, remembers.table.idle rfl⟩
      · rw [locator?_append, unregistered]
        rfl
      · rw [asked_append]
        simpa [BridgeRecord.isResolution] using remembers.asked
    | some kept =>
      have record : recordCall factory (.register l) b = (⟨.register l, .flag false, []⟩, b) := by
        obtain ⟨_, _, _, _⟩ := b
        cases stored
        rfl
      have registered := remembers.locator.symm.trans stored
      rw [record]
      refine ⟨⟨by rw [registered]; rfl, rfl⟩, ?_, ?_, remembers.table.idle rfl⟩
      · rw [locator?_append, registered]
        exact stored
      · rw [asked_append]
        simpa [BridgeRecord.isResolution] using remembers.asked
  | isRegistered =>
    refine ⟨⟨?_, rfl⟩, remembers.append rfl rfl (remembers.table.idle rfl)⟩
    rw [← remembers.locator]
    rfl
  | resolve slot => exact follows_resolve remembers slot
  | lookup slot =>
    obtain ⟨found, t', world', made, eq, looked, kept⟩ :=
      remembers.table.looked factory slot b.world
    have record : recordCall factory (.lookup slot) b =
        (⟨.lookup slot, .entry found, made⟩, ⟨b.locator, b.asked, t', world'⟩) := by
      simp only [recordCall, BridgeCall.perform, lookup, inWorld, eq]
    rw [record]
    exact ⟨⟨found, rfl, looked⟩, remembers.append rfl rfl (kept _ rfl)⟩
  | locate raw =>
    cases inside : e.ofRaw? raw with
    | none =>
      have record : recordCall factory (.locate raw) b = (⟨.locate raw, .entry none, []⟩, b) := by
        simp [recordCall, BridgeCall.perform, locate, DispatchTable.locate, inWorld, inside]
      rw [record]
      refine ⟨?_, remembers.append rfl rfl (remembers.table.idle rfl)⟩
      simp only [Follows, inside]
      exact ⟨trivial, trivial⟩
    | some slot =>
      obtain ⟨found, t', world', made, eq, looked, kept⟩ :=
        remembers.table.looked factory slot b.world
      have record : recordCall factory (.locate raw) b =
          (⟨.locate raw, .entry found, made⟩, ⟨b.locator, b.asked, t', world'⟩) := by
        simp only [recordCall, BridgeCall.perform, locate, DispatchTable.locate, inWorld, inside,
          eq]
      rw [record]
      refine ⟨?_, remembers.append rfl rfl (kept _ rfl)⟩
      simp only [Follows, inside]
      exact ⟨found, rfl, looked⟩
  | pinnedCount =>
    refine ⟨⟨?_, rfl⟩, remembers.append rfl rfl (remembers.table.idle rfl)⟩
    rw [← remembers.table.pinnedCount]
    rfl

end Bridge

namespace BridgeHistory

variable {h h' : List (BridgeRecord e α)} {r : BridgeRecord e α} {slot : Fin e.size}
  {entry : α} {found : Option α}

theorem produced?_append_of_some (kept : produced? h slot = some entry) :
    produced? (h ++ h') slot = some entry := by
  rw [produced?, List.flatMap_append, producedIn?, List.findSome?_append]
  rw [produced?, producedIn?] at kept
  rw [kept, Option.some_or]

theorem ofRaw?_val (slot : Fin e.size) : e.ofRaw? slot.val = some slot := SlotEnum.ofRaw?_toRaw slot

theorem Follows.looked (follows : Follows h r) (looks : r.LooksUp slot) :
    ∃ found, r.answer = .entry found ∧ Looked h slot found r.made := by
  obtain ⟨call, answer, made⟩ := r
  rcases looks with rfl | rfl
  · exact follows
  · simpa only [Follows, ofRaw?_val] using follows

/-- Whatever the factory was asked for had not been made. -/
theorem Follows.unmade (follows : Follows h r) (asked : (slot, found) ∈ r.made) :
    produced? h slot = none := by
  have of_looked {other : Fin e.size} {answer : Option α} (looked : Looked h other answer r.made) :
      produced? h slot = none := by
    rw [Looked] at looked
    split at looked
    · rw [looked.2] at asked
      cases asked
    · rename_i unmade
      rw [looked, List.mem_singleton] at asked
      cases asked
      exact unmade
  have of_idle (idle : r.made = []) : produced? h slot = none := by
    rw [idle] at asked
    cases asked
  obtain ⟨call, answer, made⟩ := r
  cases call with
  | register l => exact of_idle follows.2
  | isRegistered => exact of_idle follows.2
  | pinnedCount => exact of_idle follows.2
  | lookup slot =>
    obtain ⟨_, _, looked⟩ := follows
    exact of_looked looked
  | locate raw =>
    simp only [Follows] at follows
    split at follows
    · exact of_idle follows.2
    · obtain ⟨_, _, looked⟩ := follows
      exact of_looked looked
  | resolve slot =>
    simp only [Follows] at follows
    split at follows
    · exact of_idle follows.2
    · rename_i l _
      obtain ⟨_, _, located⟩ := follows
      cases l with
      | fixed answer => exact of_idle located.2
      | varying answers => exact of_idle located.2
      | table => exact of_looked located

theorem Looked.kept (looked : Looked h slot (some entry) r.made) :
    produced? (h ++ [r]) slot = some entry := by
  rw [produced?_append]
  rw [Looked] at looked
  split at looked
  · rename_i known
    rw [known, Option.some_or, looked.1]
  · rename_i unknown
    rw [unknown, looked]
    simp [producedIn?]

/-- The protocol of a bridge.  A record is found behind the history before it. -/
structure IsFaithful (h : List (BridgeRecord e α)) : Prop where
  /-- The first registration succeeds, and no later one. -/
  registers : ∀ (before : List (BridgeRecord e α)) (l : Locator α) (answer : BridgeAnswer α)
    (made : List (Fin e.size × Option α)), before ++ [⟨.register l, answer, made⟩] <+: h →
      answer = .flag (locator? before).isNone
  registered : ∀ (before : List (BridgeRecord e α)) (answer : BridgeAnswer α)
    (made : List (Fin e.size × Option α)), before ++ [⟨.isRegistered, answer, made⟩] <+: h →
      answer = .flag (locator? before).isSome
  unregistered : ∀ (before : List (BridgeRecord e α)) (slot : Fin e.size) (answer : BridgeAnswer α)
    (made : List (Fin e.size × Option α)), before ++ [⟨.resolve slot, answer, made⟩] <+: h →
      locator? before = none → answer = .resolved (.error (.locatorNotRegistered e.typeName))
  /-- The first locator answers every later resolution. -/
  resolved : ∀ (before : List (BridgeRecord e α)) (slot : Fin e.size) (answer : BridgeAnswer α)
    (made : List (Fin e.size × Option α)) (l : Locator α),
      before ++ [⟨.resolve slot, answer, made⟩] <+: h → locator? before = some l →
        ∃ found, answer = .resolved (resolution slot found) ∧ Located before slot found made l
  /-- An entry point that was given once is given at every later lookup, and the factory is not
  asked for the slot again. -/
  kept : ∀ (before between : List (BridgeRecord e α)) (r later : BridgeRecord e α)
    (slot : Fin e.size) (entry : α), before ++ r :: between ++ [later] <+: h →
      r.LooksUp slot → r.answer = .entry (some entry) →
        (later.LooksUp slot → later.answer = .entry (some entry)) ∧
          ∀ found, (slot, found) ∉ later.made
  /-- As long as nothing was made for the slot, the factory is asked once at each lookup. -/
  retried : ∀ (before : List (BridgeRecord e α)) (r : BridgeRecord e α) (slot : Fin e.size),
    before ++ [r] <+: h → r.LooksUp slot → produced? before slot = none →
      ∃ found, r.answer = .entry found ∧ r.made = [(slot, found)]
  counted : ∀ (before : List (BridgeRecord e α)) (answer : BridgeAnswer α)
    (made : List (Fin e.size × Option α)), before ++ [⟨.pinnedCount, answer, made⟩] <+: h →
      answer = .count (e.all.countP fun slot => (produced? before slot).isSome)
  /-- Numbers outside the enumeration have no entry point, and the factory is not asked. -/
  outside : ∀ (before : List (BridgeRecord e α)) (raw : Int) (answer : BridgeAnswer α)
    (made : List (Fin e.size × Option α)), before ++ [⟨.locate raw, answer, made⟩] <+: h →
      raw < 0 ∨ e.size ≤ raw → answer = .entry none ∧ made = []

theorem isFaithful_of_follows (follows : ∀ before r, before ++ [r] <+: h → Follows before r) :
    IsFaithful h where
  registers before l answer made seen := (follows before _ seen).1
  registered before answer made seen := (follows before _ seen).1
  unregistered before slot answer made seen none := by
    have step := follows before _ seen
    simp only [Follows, none] at step
    exact step.1
  resolved before slot answer made l seen some := by
    have step := follows before _ seen
    simpa only [Follows, some] using step
  kept before between r later slot entry seen looks given := by
    have earlier : before ++ [r] <+: h := by
      refine List.IsPrefix.trans ?_ seen
      rw [List.append_assoc, List.prefix_append_right_inj]
      simp
    obtain ⟨found, answer, looked⟩ := (follows before r earlier).looked looks
    obtain rfl : found = some entry := by
      rw [given] at answer
      cases answer
      rfl
    have known : produced? (before ++ r :: between) slot = some entry := by
      rw [← List.singleton_append, ← List.append_assoc]
      exact produced?_append_of_some looked.kept
    have step := follows _ later seen
    refine ⟨fun again => ?_, fun found asked => ?_⟩
    · obtain ⟨found, answer, looked⟩ := step.looked again
      simp only [Looked, known] at looked
      rw [answer, looked.1]
    · rw [step.unmade asked] at known
      cases known
  retried before r slot seen looks unmade := by
    obtain ⟨found, answer, looked⟩ := (follows before r seen).looked looks
    simp only [Looked, unmade] at looked
    exact ⟨found, answer, looked⟩
  counted before answer made seen := (follows before _ seen).1
  outside before raw answer made seen bounds := by
    have step := follows before _ seen
    have none : e.ofRaw? raw = none := by
      rw [SlotEnum.ofRaw?, dif_neg]
      omega
    simpa only [Follows, none] using step

end BridgeHistory

/-- Keeping the record leaves the answer, the table and the world as they are. -/
theorem DispatchTable.lookup_unrecorded (factory : Factory e σ α) (slot : Fin e.size)
    (t : DispatchTable e α) (world : σ) : ∃ made,
    t.lookup factory.recorded slot (world, []) =
      ((t.lookup factory slot world).1, (t.lookup factory slot world).2.1,
        ((t.lookup factory slot world).2.2, made)) := by
  cases pinned : t.get? slot with
  | some entry => exact ⟨[], by simp [lookup, pinned]⟩
  | none =>
    refine ⟨[(slot, (factory slot world).1)], ?_⟩
    rcases made : factory slot world with ⟨_ | entry, world'⟩ <;>
      simp [lookup, pinned, Factory.recorded, made]

namespace Bridge

variable (factory : Factory e σ α) (b : Bridge e σ α)

theorem lookup_recorded (slot : Fin e.size) : ∃ made,
    (b.inWorld (b.world, [])).lookup factory.recorded slot =
      ((b.lookup factory slot).1,
        (b.lookup factory slot).2.inWorld ((b.lookup factory slot).2.world, made)) := by
  obtain ⟨made, eq⟩ := DispatchTable.lookup_unrecorded factory slot b.table b.world
  exact ⟨made, by simp [lookup, inWorld, eq]⟩

theorem locate_recorded (raw : Int) : ∃ made,
    (b.inWorld (b.world, [])).locate factory.recorded raw =
      ((b.locate factory raw).1,
        (b.locate factory raw).2.inWorld ((b.locate factory raw).2.world, made)) := by
  cases inside : e.ofRaw? raw with
  | none => exact ⟨[], by simp [locate, DispatchTable.locate, inWorld, inside]⟩
  | some slot =>
    obtain ⟨made, eq⟩ := DispatchTable.lookup_unrecorded factory slot b.table b.world
    exact ⟨made, by simp [locate, DispatchTable.locate, inWorld, inside, eq]⟩

theorem ask_recorded (raw : Int) (l : Locator α) : ∃ made,
    (b.inWorld (b.world, [])).ask factory.recorded raw l =
      ((b.ask factory raw l).1,
        (b.ask factory raw l).2.inWorld ((b.ask factory raw l).2.world, made)) := by
  cases l with
  | fixed answer => exact ⟨[], rfl⟩
  | varying answers => exact ⟨[], rfl⟩
  | table => exact locate_recorded factory { b with asked := b.asked + 1 } raw

theorem resolve_recorded (slot : Fin e.size) : ∃ made,
    (b.inWorld (b.world, [])).resolve factory.recorded slot =
      ((b.resolve factory slot).1,
        (b.resolve factory slot).2.inWorld ((b.resolve factory slot).2.world, made)) := by
  cases registered : b.locator with
  | none => exact ⟨[], by simp [resolve, inWorld, registered]⟩
  | some l =>
    obtain ⟨made, eq⟩ := ask_recorded factory b (SlotEnum.toRaw slot) l
    have kept : (b.inWorld (b.world, ([] : List (Fin e.size × Option α)))).locator = some l :=
      registered
    refine ⟨made, ?_⟩
    simp only [resolve, registered, kept, eq]
    rcases b.ask factory (SlotEnum.toRaw slot) l with ⟨_ | entry, b'⟩ <;> rfl

theorem recordCall_eq (call : BridgeCall e α) :
    (recordCall factory call b).1.answer = (call.perform factory b).1 ∧
      (recordCall factory call b).2 = (call.perform factory b).2 := by
  cases call with
  | register l =>
    obtain ⟨_ | _, _, _, _⟩ := b <;> exact ⟨rfl, rfl⟩
  | isRegistered => exact ⟨rfl, rfl⟩
  | pinnedCount => exact ⟨rfl, rfl⟩
  | resolve slot =>
    obtain ⟨made, eq⟩ := resolve_recorded factory b slot
    simp only [recordCall, BridgeCall.perform, eq]
    exact ⟨trivial, rfl⟩
  | lookup slot =>
    obtain ⟨made, eq⟩ := lookup_recorded factory b slot
    simp only [recordCall, BridgeCall.perform, eq]
    exact ⟨trivial, rfl⟩
  | locate raw =>
    obtain ⟨made, eq⟩ := locate_recorded factory b raw
    simp only [recordCall, BridgeCall.perform, eq]
    exact ⟨trivial, rfl⟩

theorem answer_history (calls : List (BridgeCall e α)) :
    (history factory b calls).map BridgeRecord.answer = answers factory b calls := by
  induction calls generalizing b with
  | nil => rfl
  | cons call calls ih =>
    obtain ⟨answer, state⟩ := recordCall_eq factory b call
    rw [history, answers, observations, observations, List.map_cons, answer, state]
    exact congrArg _ (ih _)

/-- With a locator that asks the table, a slot is resolved by looking it up. -/
theorem resolve_of_table {slot : Fin e.size} (registered : b.locator = some .table) :
    (b.resolve factory slot).1 = resolution slot (b.lookup factory slot).1 := by
  have located : b.table.locate factory (SlotEnum.toRaw slot) b.world =
      b.table.lookup factory slot b.world := DispatchTable.locate_toRaw
  simp only [resolve, registered, ask, locate, lookup, located]
  rcases b.table.lookup factory slot b.world with ⟨_ | entry, t, world⟩ <;> rfl

end Bridge

/-- Whatever is called, in whatever order, and whatever the factory makes of it. -/
theorem Bridge.history_isFaithful (factory : Factory e σ α) (world : σ)
    (calls : List (BridgeCall e α)) :
    (Bridge.history factory { world } calls).map BridgeRecord.answer =
        Bridge.answers factory { world } calls ∧
      BridgeHistory.IsFaithful (Bridge.history factory { world } calls) ∧
      ∀ (b : Bridge e σ α) (slot : Fin e.size), b.locator = some .table →
        (b.resolve factory slot).1 = BridgeHistory.resolution slot (b.lookup factory slot).1 := by
  refine ⟨answer_history factory _ calls, isFaithful_of_follows fun before r seen => ?_,
    fun b slot registered => resolve_of_table factory b registered⟩
  exact observations_follow (h := []) (fun _ _ call remembers => follows_recordCall remembers call)
    (remembers_new world) seen

end InteropGen
