import InteropGen.Proofs.ImportLines
import InteropGen.Proofs.WrapperBody

set_option autoImplicit false

/-!
# The text of a wrapper

Reading a wrapper line by line gives back the symbols that it reports as imported.  Above the class
of imports, the labels name the events and the arms name the slots.
-/

namespace InteropGen

open Text

variable {c : Config} {s : Schema} {t : ApiType} {exports : ExportTable}

def importedSymbols (file : String) : List String := (trimmedLines file).filterMap importSymbol?

def wrapperLines (file : String) : List (List Char) :=
  (trimmedLines file).takeWhile fun line => line ≠ importsMark.toList

/-- The name that follows a fixed text, up to a mark. -/
def nameAfter? (start : List Char) (mark : Char) (line : List Char) : Option String :=
  if start.isPrefixOf line then
    some (String.ofList ((line.drop start.length).takeWhile fun c => c ≠ mark))
  else none

def eventLabel? (typeName : String) (line : List Char) : Option String :=
  nameAfter? ("case NativeApi." ++ typeName ++ "Event.").toList ':' line

def slotArm? (typeName : String) (line : List Char) : Option String :=
  if line.getLast? = some ',' then
    nameAfter? ("NativeApi." ++ typeName ++ "Trampoline.").toList ' ' line
  else none

def eventLabels (typeName file : String) : List String :=
  (wrapperLines file).filterMap (eventLabel? typeName)

def slotArms (typeName file : String) : List String :=
  (wrapperLines file).filterMap (slotArm? typeName)

section Readers

variable {start line : List Char} {mark : Char} {name typeName x : String}

theorem nameAfter?_append (h : IsWord name) (hmark : isIdentifierPart mark = false)
    (rest : List Char) : nameAfter? start mark (start ++ (name.toList ++ mark :: rest)) = some name := by
  have inside : ∀ c ∈ name.toList, decide (c ≠ mark) = true := by
    intro c hc
    rw [decide_eq_true_iff]
    rintro rfl
    exact h.not_mem hmark (by simp) hc
  have isPrefix : start.isPrefixOf (start ++ (name.toList ++ mark :: rest)) = true :=
    List.isPrefixOf_iff_prefix.2 (List.prefix_append _ _)
  have outside : ¬ decide (mark ≠ mark) = true := by simp
  rw [nameAfter?, if_pos isPrefix, List.drop_left, List.takeWhile_append_of_pos inside,
    List.takeWhile_cons_of_neg (p := fun c => c ≠ mark) outside, List.append_nil,
    String.ofList_toList]

theorem nameAfter?_eq_none (h : ¬ start <+: line) : nameAfter? start mark line = none := by
  rw [nameAfter?, if_neg]
  rwa [List.isPrefixOf_iff_prefix]

theorem IsQuiet.trimLeft (h : IsQuiet x) : trimLeft x.toList = x.toList :=
  trimLeft_of_unindented h.unindented

theorem IsQuiet.importSymbol? (h : IsQuiet x) : importSymbol? x.toList = none := by
  rw [InteropGen.importSymbol?, if_neg]
  rw [Bool.and_eq_true, List.isPrefixOf_iff_prefix, List.isSuffixOf_iff_suffix]
  rintro ⟨isImport, before, ended⟩
  refine h.notImport ⟨isImport, ?_⟩
  rw [← ended, List.getLast?_append]
  rfl

theorem IsQuiet.eventLabel? (h : IsQuiet x) : eventLabel? typeName x.toList = none := by
  refine nameAfter?_eq_none fun isPrefix => h.notLabel ?_
  simp only [String.toList_append, List.append_assoc] at isPrefix
  exact (List.prefix_append _ _).trans isPrefix

theorem IsQuiet.slotArm? (h : IsQuiet x) : slotArm? typeName x.toList = none := by
  rw [InteropGen.slotArm?]
  split
  · rename_i last
    refine nameAfter?_eq_none fun isPrefix => h.notArm ⟨?_, last⟩
    simp only [String.toList_append, List.append_assoc] at isPrefix
    exact (List.prefix_append _ _).trans isPrefix
  · rfl

theorem not_importsMark_of_append (h : diverges importsMark.toList start = true) (rest : String) :
    (String.ofList start ++ rest).toList ≠ importsMark.toList := by
  intro eq
  rw [String.toList_append, String.toList_ofList] at eq
  have isPrefix : importsMark.toList <+: start ++ rest.toList := eq ▸ List.prefix_refl _
  exact not_prefix_of_diverges h isPrefix

theorem importSymbol?_append (h : diverges importStart start = true) (rest : String) :
    importSymbol? (String.ofList start ++ rest).toList = none := by
  rw [importSymbol?, if_neg]
  rw [Bool.and_eq_true, List.isPrefixOf_iff_prefix, String.toList_append, String.toList_ofList]
  exact fun isImport => not_prefix_of_diverges h isImport.1

/-- A line above the imports that is taken for nothing else. -/
structure IsKept (x : String) : Prop where
  oneLine : IsOneLine x
  unindented : trimLeft x.toList = x.toList
  notMark : x.toList ≠ importsMark.toList
  notImport : importSymbol? x.toList = none

theorem IsQuiet.isKept (h : IsQuiet x) : IsKept x := by
  have notMark : x.toList ≠ importsMark.toList := fun eq => h.notMark (eq ▸ List.prefix_refl _)
  exact ⟨h.oneLine, h.trimLeft, notMark, h.importSymbol?⟩

theorem isKept_append {d : Char} {ds : List Char} {rest : String} (blank : isBlank d = false)
    (mark : diverges importsMark.toList (d :: ds) = true)
    (isImport : diverges importStart (d :: ds) = true) (hs : '\n' ∉ d :: ds) (hr : IsOneLine rest) :
    IsKept (String.ofList (d :: ds) ++ rest) := by
  refine ⟨isOneLine_append.2 ⟨isOneLine_ofList hs, hr⟩, ?_, not_importsMark_of_append mark rest,
    importSymbol?_append isImport rest⟩
  rw [String.toList_append, String.toList_ofList]
  exact trimLeft_of_head blank

section Labels

variable {e : WrappedEvent} (own : IsWord typeName) (word : IsWord e.name)

theorem caseLine_eq (typeName : String) (e : WrappedEvent) :
    e.caseLine typeName = "case NativeApi." ++ (typeName ++ "Event." ++ e.name ++ ":") := by
  change "case NativeApi." ++ typeName ++ "Event." ++ e.name ++ ":" = _
  simp only [String.append_assoc]

include own word in
theorem isKept_caseLine : IsKept (e.caseLine typeName) := by
  rw [caseLine_eq]
  refine isKept_append (by decide) (by decide) (by decide) (by decide) ?_
  simp only [isOneLine_append, own.isOneLine, word.isOneLine]
  decide

include word in
theorem eventLabel?_caseLine : eventLabel? typeName (e.caseLine typeName).toList = some e.name := by
  have chars : (e.caseLine typeName).toList =
      ("case NativeApi." ++ typeName ++ "Event.").toList ++ (e.name.toList ++ ':' :: []) := by
    change ("case NativeApi." ++ typeName ++ "Event." ++ e.name ++ ":").toList = _
    rw [String.toList_append, String.toList_append, List.append_assoc]
    rfl
  rw [eventLabel?, chars]
  exact nameAfter?_append word (by decide) []

theorem slotArm?_caseLine (typeName' : String) :
    slotArm? typeName' (e.caseLine typeName).toList = none := by
  rw [caseLine_eq, slotArm?]
  split
  · refine nameAfter?_eq_none fun isPrefix => ?_
    simp only [String.toList_append, List.append_assoc] at isPrefix
    have start := (List.prefix_append "NativeApi.".toList _).trans isPrefix
    exact not_prefix_of_diverges (by decide) start
  · rfl

end Labels

section Arms

variable {d : Dispatch} {slot : String} (own : IsWord d.typeName) (word : IsWord slot)

theorem arm_eq (d : Dispatch) (slot : String) :
    d.arm slot = "NativeApi." ++ (d.typeName ++ "Trampoline." ++ slot ++ " => new NativeApi." ++
      d.typeName ++ slot ++ "Trampoline(Trampoline" ++ slot ++ "),") := by
  change "NativeApi." ++ d.typeName ++ "Trampoline" ++ "." ++ slot ++ " => new NativeApi." ++
    d.typeName ++ slot ++ "Trampoline(Trampoline" ++ slot ++ ")," = _
  have join : "Trampoline." = "Trampoline" ++ "." := by decide
  simp only [join, String.append_assoc]

include own word in
theorem isKept_arm : IsKept (d.arm slot) := by
  rw [arm_eq]
  refine isKept_append (by decide) (by decide) (by decide) (by decide) ?_
  simp only [isOneLine_append, own.isOneLine, word.isOneLine]
  decide

include word in
theorem slotArm?_arm : slotArm? d.typeName (d.arm slot).toList = some slot := by
  have last : (d.arm slot).toList.getLast? = some ',' := by
    rw [arm_eq, String.toList_append, String.toList_append, List.getLast?_append,
      List.getLast?_append]
    rfl
  have chars : (d.arm slot).toList =
      ("NativeApi." ++ d.typeName ++ "Trampoline.").toList ++ (slot.toList ++ ' ' ::
        ("=> new NativeApi." ++ d.typeName ++ slot ++ "Trampoline(Trampoline" ++ slot ++
          "),").toList) := by
    have join : " => new NativeApi." = " " ++ "=> new NativeApi." := by decide
    rw [arm_eq, join]
    simp only [String.toList_append, List.append_assoc]
    rfl
  rw [slotArm?, if_pos last, chars]
  exact nameAfter?_append word (by decide) _

theorem eventLabel?_arm (typeName : String) : eventLabel? typeName (d.arm slot).toList = none := by
  refine nameAfter?_eq_none fun isPrefix => ?_
  rw [arm_eq] at isPrefix
  simp only [String.toList_append, List.append_assoc] at isPrefix
  have start := (List.prefix_append "case NativeApi.".toList _).trans isPrefix
  exact not_prefix_of_diverges (by decide) start

end Arms

end Readers

namespace Wrapper

variable {slots : Option SlotTable} {w : Wrapper}

theorem labelLines_eq (parts : w.Parts s t exports slots) :
    ∃ events : List WrappedEvent, events.map WrappedEvent.name = t.events.map Event.name ∧
      w.labelLines = events.map (WrappedEvent.caseLine t.name) := by
  have ok := parts.events_ok
  rw [WrappedEvents.ofClass?] at ok
  split at ok
  · obtain ⟨e, he, eq⟩ := map_eq_ok.1 ok
    obtain ⟨events, hevents, rfl⟩ := map_eq_ok.1 he
    refine ⟨events, ?_, ?_⟩
    · exact (forall₂_map_eq ((WrappedEvent.ofEvents_stepwise s).forall₂ hevents)
        fun event e h => (WrappedEvent.name_ofEvent h).symm).symm
    · rw [labelLines, ← eq]
      rfl
  · rename_i none
    have noEvents : t.events = [] := by simpa [ApiType.hasEvents] using none
    have eq := Except.ok.inj ok
    exact ⟨[], by rw [noEvents]; rfl, by rw [labelLines, ← eq]; rfl⟩

theorem armLines_eq (parts : w.Parts s t exports slots) :
    ∃ d : Dispatch, d.typeName = t.name ∧ d.arms = (slots.map SlotTable.names).getD [] ∧
      w.armLines = d.arms.map d.arm := by
  rcases mapM_eq_ok.1 parts.dispatch_ok with ⟨rfl, none⟩ | ⟨table, d, rfl, some, ok⟩
  · exact ⟨⟨t.name, []⟩, rfl, rfl, by rw [armLines, none]; rfl⟩
  · obtain ⟨typeName, arms⟩ := Dispatch.arms_ofTable ok
    exact ⟨d, typeName, arms, by rw [armLines, some]; rfl⟩

section Front

variable (lineNames : c.HasLineNames) (names : s.HasIdentifiers) (ht : t ∈ s.types)
  (exports_ok : ExportTable.build s t = .ok exports) (slots_ok : t.slotTable = .ok slots)
  (parts : w.Parts s t exports slots)
include names ht exports_ok slots_ok parts

omit exports_ok slots_ok in
theorem kept_labels : ∀ x ∈ w.labelLines, IsKept x := by
  obtain ⟨events, same, eq⟩ := labelLines_eq parts
  intro x hx
  rw [eq] at hx
  obtain ⟨e, he, rfl⟩ := List.mem_map.1 hx
  have declared : e.name ∈ t.events.map Event.name := by
    rw [← same]
    exact List.mem_map_of_mem he
  obtain ⟨event, hevent, name⟩ := List.mem_map.1 declared
  have word : IsWord e.name := by
    rw [← name]
    exact isWord_of_isIdentifier ((names t ht).events event hevent)
  exact isKept_caseLine (names.isWord_name ht) word

omit ht exports_ok parts names in
theorem isWord_slotNames (own : t.HasIdentifiers) :
    ∀ name ∈ (slots.map SlotTable.names).getD [], IsWord name := by
  intro name hname
  rcases ApiType.slotTable_eq_ok.1 slots_ok with ⟨_, rfl⟩ | ⟨table, _, rfl, derived⟩
  · cases hname
  · obtain ⟨slot, hslot, rfl⟩ := List.mem_map.1 hname
    exact own.isWord_slot derived hslot

omit exports_ok in
theorem kept_arms : ∀ x ∈ w.armLines, IsKept x := by
  obtain ⟨d, typeName, arms, eq⟩ := armLines_eq parts
  intro x hx
  rw [eq] at hx
  obtain ⟨slot, hslot, rfl⟩ := List.mem_map.1 hx
  rw [arms] at hslot
  have own : IsWord d.typeName := by
    rw [typeName]
    exact names.isWord_name ht
  exact isKept_arm own (isWord_slotNames slots_ok (names t ht) slot hslot)

include lineNames

theorem kept_front : ∀ x ∈ w.front c, IsKept x := by
  intro x hx
  rcases (sifts_front lineNames names ht exports_ok slots_ok parts).cases_of_mem hx with quiet | mem
  · exact quiet.isKept
  · rcases List.mem_append.1 mem with mem | mem
    · exact kept_labels names ht parts x mem
    · exact kept_arms names ht slots_ok parts x mem

/-- The lines above the class of imports, whatever the name of the native module. -/
theorem wrapperLines_generatedFile :
    wrapperLines (c.generatedFile (w.code c)) =
      c.header.shownLines c.indentUnit ++ (w.front c).map String.toList := by
  have kept := kept_front lineNames names ht exports_ok slots_ok parts
  have texts : (w.code c).texts = w.front c ++ (importsMark ::
      ([w.imports.headline, "\x7b", Imports.moduleName c] ++ (w.imports.declarations c).texts ++
        ["\x7d"] ++ ["\x7d", "\x7d"])) := by
    rw [texts_code, Imports.texts_code]
    simp
  obtain ⟨above, below, code, above_texts, below_texts⟩ := List.map_eq_append_iff.1 texts
  obtain ⟨mark, rest, rfl, mark_text, _⟩ := List.map_eq_cons_iff.1 below_texts
  change Code.texts above = _ at above_texts
  have above_ok : ∀ x ∈ Code.texts above, IsOneLine x := by
    rw [above_texts]
    exact fun x hx => (kept x hx).oneLine
  have mark_ok : ∀ x ∈ Code.texts [mark], IsOneLine x :=
    List.forall_mem_singleton.2 (by rw [mark_text]; decide)
  have shown : (w.front c).map (fun x => trimLeft x.toList) = (w.front c).map String.toList :=
    List.map_congr_left fun x hx => (kept x hx).unindented
  have marked : trimmedLines (Code.render c.indentUnit (mark :: rest)) =
      importsMark.toList :: trimmedLines (Code.render c.indentUnit rest) := by
    have step : trimmedLines (Code.render c.indentUnit ([mark] ++ rest)) = _ :=
      Config.trimmedLines_render_append mark_ok
    rw [List.singleton_append] at step
    rw [step, Code.texts, List.map_singleton, List.map_singleton, mark_text]
    rfl
  have outside : ¬ decide (importsMark.toList ≠ importsMark.toList) = true := by simp
  rw [wrapperLines, code, Config.trimmedLines_above above_ok, above_texts, shown, marked,
    List.takeWhile_append_of_pos,
    List.takeWhile_cons_of_neg (p := fun line => line ≠ importsMark.toList) outside, List.append_nil]
  intro line hline
  rw [decide_eq_true_iff]
  rcases List.mem_append.1 hline with hline | hline
  · obtain ⟨rest, rfl⟩ := Config.mem_shownLines_header hline
    intro eq
    cases eq
  · obtain ⟨x, hx, rfl⟩ := List.mem_map.1 hline
    exact (kept x hx).notMark

theorem eventLabels_generatedFile :
    eventLabels t.name (c.generatedFile (w.code c)) = t.events.map Event.name := by
  have sifts := sifts_front lineNames names ht exports_ok slots_ok parts
  have comment (rest : List Char) : eventLabel? t.name ('/' :: rest) = none := by
    refine nameAfter?_eq_none fun isPrefix => ?_
    simp only [String.toList_append, List.append_assoc] at isPrefix
    have start := (List.prefix_append "case NativeApi.".toList _).trans isPrefix
    exact not_prefix_of_diverges (by decide : diverges "case NativeApi.".toList ['/'] = true) start
  have labels : w.labelLines.filterMap (fun x => eventLabel? t.name x.toList) =
      t.events.map Event.name := by
    obtain ⟨events, same, eq⟩ := labelLines_eq parts
    have words : ∀ e ∈ events, IsWord e.name := by
      intro e he
      have declared : e.name ∈ t.events.map Event.name := by
        rw [← same]
        exact List.mem_map_of_mem he
      obtain ⟨event, hevent, name⟩ := List.mem_map.1 declared
      rw [← name]
      exact isWord_of_isIdentifier ((names t ht).events event hevent)
    rw [eq, ← same]
    exact filterMap_map_eq_map fun e he => eventLabel?_caseLine (words e he)
  have arms : w.armLines.filterMap (fun x => eventLabel? t.name x.toList) = [] := by
    obtain ⟨d, _, _, eq⟩ := armLines_eq parts
    rw [eq, List.filterMap_map]
    exact List.filterMap_eq_nil_iff.2 fun slot _ => eventLabel?_arm t.name
  rw [eventLabels, wrapperLines_generatedFile lineNames names ht exports_ok slots_ok parts,
    List.filterMap_append, Config.filterMap_header comment, List.nil_append, List.filterMap_map]
  change (w.front c).filterMap (fun x => eventLabel? t.name x.toList) = _
  rw [sifts.filterMap_eq fun x quiet => quiet.eventLabel?, List.filterMap_append, labels, arms,
    List.append_nil]

theorem slotArms_generatedFile :
    slotArms t.name (c.generatedFile (w.code c)) = (slots.map SlotTable.names).getD [] := by
  have sifts := sifts_front lineNames names ht exports_ok slots_ok parts
  have comment (rest : List Char) : slotArm? t.name ('/' :: rest) = none := by
    rw [slotArm?]
    split
    · refine nameAfter?_eq_none fun isPrefix => ?_
      simp only [String.toList_append, List.append_assoc] at isPrefix
      have start := (List.prefix_append "NativeApi.".toList _).trans isPrefix
      exact not_prefix_of_diverges (by decide : diverges "NativeApi.".toList ['/'] = true) start
    · rfl
  have labels : w.labelLines.filterMap (fun x => slotArm? t.name x.toList) = [] := by
    obtain ⟨events, _, eq⟩ := labelLines_eq parts
    rw [eq, List.filterMap_map]
    exact List.filterMap_eq_nil_iff.2 fun e _ => slotArm?_caseLine t.name
  have arms : w.armLines.filterMap (fun x => slotArm? t.name x.toList) =
      (slots.map SlotTable.names).getD [] := by
    obtain ⟨d, typeName, same, eq⟩ := armLines_eq parts
    have words : ∀ slot ∈ d.arms, IsWord slot := by
      rw [same]
      exact isWord_slotNames slots_ok (names t ht)
    have each : ∀ slot ∈ d.arms, slotArm? d.typeName (d.arm slot).toList = some (id slot) :=
      fun slot hslot => slotArm?_arm (words slot hslot)
    have named : (d.arms.map d.arm).filterMap (fun x => slotArm? d.typeName x.toList) =
        d.arms.map id := filterMap_map_eq_map each
    rw [eq, ← same, ← typeName, named, List.map_id]
  rw [slotArms, wrapperLines_generatedFile lineNames names ht exports_ok slots_ok parts,
    List.filterMap_append, Config.filterMap_header comment, List.nil_append, List.filterMap_map]
  change (w.front c).filterMap (fun x => slotArm? t.name x.toList) = _
  rw [sifts.filterMap_eq fun x quiet => quiet.slotArm?, List.filterMap_append, labels, arms,
    List.nil_append]

omit lineNames names ht exports_ok slots_ok parts in
theorem isQuiet_moduleName (oneLine : IsOneLine c.managed.nativeModule) :
    IsQuiet (Imports.moduleName c) := by
  change IsQuiet ("private const string NativeModuleName = \"" ++ c.managed.nativeModule ++ "\";")
  rw [String.append_assoc]
  exact isQuiet_start (by decide) (oneLine.suffixed (by decide))

omit lineNames names ht exports_ok slots_ok parts in
theorem isQuiet_importsHeadline (imports : Imports) : IsQuiet imports.headline := by
  rw [Imports.headline]
  split
  · exact isQuiet_closed (by decide)
  · exact isQuiet_closed (by decide)

theorem sifts_code (oneLine : IsOneLine c.managed.nativeModule) :
    Sifts (w.code c).texts (w.labelLines ++ w.armLines ++ importsMark :: w.imports.importLines) := by
  have readable := Imports.isReadable_ofClass names (names t ht) exports_ok slots_ok parts.imports_ok
  have above := sifts_front lineNames names ht exports_ok slots_ok parts
  have opening : ∀ x ∈ [w.imports.headline, "\x7b", Imports.moduleName c], IsQuiet x := by
    simp only [List.forall_mem_cons]
    exact ⟨isQuiet_importsHeadline w.imports, isQuiet_opening, isQuiet_moduleName oneLine, by simp⟩
  have closing : ∀ x ∈ ["\x7d", "\x7d", "\x7d"], IsQuiet x := by
    simp only [List.forall_mem_cons]
    exact ⟨isQuiet_closing, isQuiet_closing, isQuiet_closing, by simp⟩
  have declarations : Sifts (w.imports.declarations c).texts w.imports.importLines :=
    readable.sifts_declarations
  have below := (declarations.quiet_append opening).append_quiet closing
  have joined := above.append (Sifts.keep importsMark below)
  convert joined using 1
  rw [texts_code, Imports.texts_code]
  simp

theorem shown_code (oneLine : IsOneLine c.managed.nativeModule) :
    ∀ x ∈ (w.code c).texts, IsOneLine x ∧ trimLeft x.toList = x.toList := by
  have readable := Imports.isReadable_ofClass names (names t ht) exports_ok slots_ok parts.imports_ok
  have sifts := sifts_code lineNames names ht exports_ok slots_ok parts oneLine
  intro x hx
  rcases sifts.cases_of_mem hx with quiet | mem
  · exact ⟨quiet.oneLine, quiet.trimLeft⟩
  · simp only [List.mem_append, List.mem_cons] at mem
    rcases mem with (mem | mem) | rfl | mem
    · have line := kept_labels names ht parts x mem
      exact ⟨line.oneLine, line.unindented⟩
    · have line := kept_arms names ht slots_ok parts x mem
      exact ⟨line.oneLine, line.unindented⟩
    · exact ⟨by decide, by decide⟩
    · obtain ⟨i, hi, rfl⟩ := List.mem_map.1 mem
      exact ⟨(readable.imports i hi).isOneLine, (readable.imports i hi).trimLeft⟩

theorem importedSymbols_generatedFile (oneLine : IsOneLine c.managed.nativeModule) :
    importedSymbols (c.generatedFile (w.code c)) = w.symbols := by
  have readable := Imports.isReadable_ofClass names (names t ht) exports_ok slots_ok parts.imports_ok
  have sifts := sifts_code lineNames names ht exports_ok slots_ok parts oneLine
  have shown := shown_code lineNames names ht exports_ok slots_ok parts oneLine
  have comment (rest : List Char) : importSymbol? ('/' :: rest) = none := by
    rw [importSymbol?, if_neg]
    rw [Bool.and_eq_true, List.isPrefixOf_iff_prefix]
    exact fun h => not_prefix_of_diverges (by decide : diverges importStart ['/'] = true) h.1
  have labels : w.labelLines.filterMap (fun x => importSymbol? x.toList) = [] :=
    List.filterMap_eq_nil_iff.2 fun x hx => (kept_labels names ht parts x hx).notImport
  have arms : w.armLines.filterMap (fun x => importSymbol? x.toList) = [] :=
    List.filterMap_eq_nil_iff.2 fun x hx => (kept_arms names ht slots_ok parts x hx).notImport
  have imports : w.imports.importLines.filterMap (fun x => importSymbol? x.toList) = w.symbols :=
    filterMap_map_eq_map fun i hi => (readable.imports i hi).importSymbol?
  have mark : importSymbol? importsMark.toList = none := by decide
  have reading : (w.code c).texts.filterMap (fun x => importSymbol? (trimLeft x.toList)) =
      (w.code c).texts.filterMap (fun x => importSymbol? x.toList) := by
    refine List.filterMap_congr fun x hx => ?_
    rw [(shown x hx).2]
  rw [importedSymbols, Config.filterMap_trimmedLines comment (by decide) fun x hx => (shown x hx).1,
    reading, sifts.filterMap_eq fun x quiet => quiet.importSymbol?, List.filterMap_append,
    List.filterMap_append, labels, arms, List.filterMap_cons, mark, imports]
  rfl

end Front

end Wrapper

end InteropGen
