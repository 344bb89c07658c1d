import InteropGen.Proofs.TomlNumbers
import InteropGen.Proofs.TomlText
import InteropGen.Toml.Reader

set_option autoImplicit false

/-!
# TOML documents that are read back

A document of tables of scalars is written line by line.  Each line is read as one statement,
whatever lines follow, and the statements describe the record of the document again: no key is given
twice, so none of them meets another.
-/

namespace InteropGen.Toml

variable {c d : Char} {cs rest : List Char} {key : String} {value : Scalar} {fields : Fields}

section Keys

def IsBareKey (key : String) : Prop :=
  key.toList.isEmpty = false ∧ key.toList.all isBareKeyChar = true

instance (key : String) : Decidable (IsBareKey key) := inferInstanceAs (Decidable (_ ∧ _))

theorem ne_of_isBareKeyChar (bare : isBareKeyChar c = true) (other : isBareKeyChar d = false) :
    c ≠ d := by
  rintro rfl
  exact absurd (bare.symm.trans other) (by decide)

theorem IsBareKey.exists_start (bare : IsBareKey key) :
    ∃ c cs, key.toList = c :: cs ∧ isBareKeyChar c = true ∧ ∀ d ∈ cs, isBareKeyChar d = true := by
  obtain ⟨c, cs, eq⟩ := List.exists_cons_of_ne_nil (List.isEmpty_eq_false_iff.1 bare.1)
  have all := List.all_eq_true.1 bare.2
  rw [eq] at all
  exact ⟨c, cs, eq, List.forall_mem_cons.1 all⟩

theorem skipSpace_cons (h : isSpace c = false) : skipSpace (c :: cs) = c :: cs := by
  rw [skipSpace, List.dropWhile_cons, if_neg (by simp [h])]

theorem skipSpace_of_isBareKeyChar (bare : isBareKeyChar c = true) :
    skipSpace (c :: cs) = c :: cs := by
  refine skipSpace_cons ?_
  have blank : c ≠ ' ' := ne_of_isBareKeyChar bare (by decide)
  have tab : c ≠ '\t' := ne_of_isBareKeyChar bare (by decide)
  simp [isSpace, blank, tab]

theorem readKeyPart_bare (bare : IsBareKey key) (stop : isBareKeyChar d = false) :
    readKeyPart (key.toList ++ d :: rest) = some (key.toList, d :: rest) := by
  obtain ⟨c, cs, eq, start, more⟩ := bare.exists_start
  have taken : (cs ++ d :: rest).takeWhile isBareKeyChar = cs := by
    rw [List.takeWhile_append_of_pos more]
    simp [stop]
  have dropped : (cs ++ d :: rest).dropWhile isBareKeyChar = d :: rest := by
    rw [List.dropWhile_append_of_pos more]
    simp [stop]
  rw [eq, List.cons_append, readKeyPart, if_pos start, taken, dropped]
  · exact ne_of_isBareKeyChar start (by decide)
  · exact ne_of_isBareKeyChar start (by decide)

/-- A bare key ends where another character stands; the blanks behind it are skipped. -/
theorem readKey_bare {e : Char} {es : List Char} (bare : IsBareKey key)
    (stop : isBareKeyChar d = false) (behind : skipSpace (d :: rest) = e :: es) (dot : e ≠ '.') :
    readKey (key.toList ++ d :: rest) = some ([key], e :: es) := by
  obtain ⟨c, cs, eq, start, -⟩ := bare.exists_start
  have part : readKeyPart (key.toList ++ d :: rest) = some (key.toList, d :: rest) :=
    readKeyPart_bare bare stop
  rw [eq, List.cons_append] at part
  rw [readKey, maxDepth, eq, List.cons_append, readKeyParts, skipSpace_of_isBareKeyChar start, part,
    Option.bind_some]
  dsimp only
  rw [behind]
  split
  · rename_i same
    exact absurd (List.cons.inj same).1 dot
  · rw [← eq, String.ofList_toList]

end Keys

section Scalars

def Scalar.toData : Scalar → Data
  | .text s => .text s
  | .integer i => .integer i

/-- The scalar is one that can be read: an integer has at most 64 bits. -/
def Scalar.Fits : Scalar → Prop
  | .text _ => True
  | .integer i => int64? i = some i

theorem exists_start_quote (cs : List Char) :
    ∃ c ds, quote cs = c :: ds ∧ (c = '"' ∨ c = '\'') := by
  unfold quote
  cases chooseForm cs with
  | basic => exact ⟨_, _, rfl, .inl rfl⟩
  | literal => exact ⟨_, _, rfl, .inr rfl⟩
  | multiBasic => exact ⟨_, _, rfl, .inl rfl⟩
  | multiLiteral => exact ⟨_, _, rfl, .inr rfl⟩

theorem readValue_quote (n : Nat) (cs : List Char) :
    readValue n (quote cs ++ '\n' :: rest) = some (.text (String.ofList cs), '\n' :: rest) := by
  obtain ⟨c, ds, eq, start⟩ := exists_start_quote cs
  have ends : EndsText ('\n' :: rest) := by
    rintro d ⟨⟩
    decide
  have read : readText (quote cs ++ '\n' :: rest) = some (cs, '\n' :: rest) := readText_quote ends
  rw [eq, List.cons_append] at *
  rw [readValue.eq_def]
  dsimp only
  rw [if_pos (by simpa using start), read]
  rfl

theorem readValue_number (n : Nat) (start : c = '-' ∨ c.isDigit = true) :
    readValue n (c :: cs) = readNumber (c :: cs) := by
  have apart {d : Char} (other : d ≠ '-' ∧ d.isDigit = false) : c ≠ d :=
    Json.apart_of_number start other
  have number : (decide (c = '+') || decide (c = '-') || c.isDigit) = true := by
    rcases start with rfl | digit
    · rfl
    · simp [digit]
  rw [readValue.eq_def]
  dsimp only
  rw [if_neg (by simp [apart (d := '"') (by decide), apart (d := '\'') (by decide)]),
    if_neg (apart (by decide)), if_neg (apart (by decide)), if_neg (apart (by decide)),
    if_neg (apart (by decide)),
    if_neg (by simp [apart (d := 'i') (by decide), apart (d := 'n') (by decide)]), if_pos number]

theorem readValue_write (n : Nat) (fits : value.Fits) :
    readValue n (value.write.toList ++ '\n' :: rest) = some (value.toData, '\n' :: rest) := by
  cases value with
  | text s =>
    rw [Scalar.write, String.toList_ofList, readValue_quote, String.ofList_toList, Scalar.toData]
  | integer i =>
    obtain ⟨c, cs, chars, start⟩ := Json.exists_start_toString i
    have read : readNumber ((toString i).toList ++ '\n' :: rest) = _ := readNumber_toString fits
    rw [chars] at read
    rw [Scalar.write, chars]
    exact (readValue_number n start).trans read

theorem skipSpace_write (value : Scalar) :
    skipSpace (value.write.toList ++ rest) = value.write.toList ++ rest := by
  cases value with
  | text s =>
    obtain ⟨c, ds, eq, start⟩ := exists_start_quote s.toList
    rw [Scalar.write, String.toList_ofList, eq]
    refine skipSpace_cons ?_
    rcases start with rfl | rfl <;> decide
  | integer i =>
    obtain ⟨c, cs, chars, start⟩ := Json.exists_start_toString i
    rw [Scalar.write, chars]
    refine skipSpace_cons ?_
    rw [isSpace, beq_false_of_ne (Json.apart_of_number start (by decide)),
      beq_false_of_ne (Json.apart_of_number start (by decide))]
    rfl

end Scalars

section Lines

theorem readAssignment_write (bare : IsBareKey key) (fits : value.Fits) :
    readAssignment ((key ++ " = " ++ value.write ++ "\n").toList ++ rest) =
      some (.assign [key] value.toData, rest) := by
  have chars : (key ++ " = " ++ value.write ++ "\n").toList ++ rest =
      key.toList ++ ' ' :: '=' :: ' ' :: (value.write.toList ++ '\n' :: rest) := by simp
  have blank : skipSpace (' ' :: (value.write.toList ++ '\n' :: rest)) =
      skipSpace (value.write.toList ++ '\n' :: rest) := rfl
  rw [chars, readAssignment, readKey_bare bare (by decide) rfl (by decide), Option.bind_some]
  change (readValue _ (skipSpace (' ' :: _))).bind _ = _
  rw [blank, skipSpace_write, readValue_write _ fits, Option.bind_some]
  rfl

theorem readHeading_write (bare : IsBareKey key) :
    readHeading .table (key.toList ++ ']' :: '\n' :: rest) =
      some (.heading .table [key], rest) := by
  rw [readHeading, readKey_bare bare (by decide) (skipSpace_cons rfl) (by decide)]
  rfl

/-- The lines are read as the statements, once the counter has room for them. -/
def Spells (cs : List Char) (statements : List Statement) : Prop :=
  ∀ bound, cs.length < bound → readStatements bound cs = some statements

theorem spells_nil : Spells [] [] := by
  intro bound room
  cases bound with
  | zero => cases room
  | succ bound => rfl

variable {line : List Char} {first : Statement} {statements : List Statement}

theorem Spells.blank (more : Spells rest statements) : Spells ('\n' :: rest) statements := by
  intro bound room
  rw [List.length_cons] at room
  cases bound with
  | zero => omega
  | succ bound => exact more bound (by omega)

theorem Spells.statement (start : isBareKeyChar c = true ∨ c = '[')
    (read : readStatement (c :: (line ++ rest)) = some (first, rest))
    (more : Spells rest statements) : Spells (c :: (line ++ rest)) (first :: statements) := by
  intro bound room
  rw [List.length_cons, List.length_append] at room
  cases bound with
  | zero => omega
  | succ bound =>
    have solid : skipSpace (c :: (line ++ rest)) = c :: (line ++ rest) ∧ c ≠ '\n' ∧ c ≠ '\r' ∧
        c ≠ '#' := by
      rcases start with bare | rfl
      · exact ⟨skipSpace_of_isBareKeyChar bare, ne_of_isBareKeyChar bare (by decide),
          ne_of_isBareKeyChar bare (by decide), ne_of_isBareKeyChar bare (by decide)⟩
      · exact ⟨skipSpace_cons rfl, by decide⟩
    obtain ⟨unblank, feed, unreturned, comment⟩ := solid
    rw [readStatements, unblank]
    dsimp only
    rw [newline?_eq_none feed unreturned]
    dsimp only
    rw [List.head?_cons, if_neg (by simpa using comment), read, Option.bind_some]
    dsimp only
    rw [more bound (by omega)]
    rfl

theorem Spells.assignment (bare : IsBareKey key) (fits : value.Fits)
    (more : Spells rest statements) :
    Spells ((key ++ " = " ++ value.write ++ "\n").toList ++ rest)
      (.assign [key] value.toData :: statements) := by
  obtain ⟨c, cs, eq, start, -⟩ := bare.exists_start
  have read : readAssignment ((key ++ " = " ++ value.write ++ "\n").toList ++ rest) = _ :=
    readAssignment_write bare fits
  have chars : (key ++ " = " ++ value.write ++ "\n").toList ++ rest =
      c :: ((cs ++ (" = " ++ value.write ++ "\n").toList) ++ rest) := by simp [eq]
  rw [chars] at read ⊢
  refine Spells.statement (.inl start) ?_ more
  rw [readStatement, read]
  · exact fun _ h => ne_of_isBareKeyChar start (by decide) (List.cons.inj h).1
  · exact fun _ h => ne_of_isBareKeyChar start (by decide) (List.cons.inj h).1

theorem Spells.heading (bare : IsBareKey key) (more : Spells rest statements) :
    Spells (("\n[" ++ key ++ "]\n").toList ++ rest) (.heading .table [key] :: statements) := by
  have chars : ("\n[" ++ key ++ "]\n").toList ++ rest =
      '\n' :: '[' :: ((key.toList ++ [']', '\n']) ++ rest) := by simp
  rw [chars]
  refine Spells.blank (Spells.statement (.inr rfl) ?_ more)
  obtain ⟨c, cs, eq, start, -⟩ := bare.exists_start
  have read : readHeading .table (key.toList ++ ']' :: '\n' :: rest) = _ := readHeading_write bare
  rw [List.append_assoc, eq, List.cons_append] at *
  rw [readStatement]
  · exact read
  · exact fun _ h => ne_of_isBareKeyChar start (by decide) (List.cons.inj h).1

def assignments (fields : Fields) : List Statement :=
  fields.map fun (key, value) => .assign [key] value.toData

def tableStatements (tables : List (String × Fields)) : List Statement :=
  tables.flatMap fun (name, fields) => .heading .table [name] :: assignments fields

structure AreWritable (fields : Fields) : Prop where
  bare : ∀ field ∈ fields, IsBareKey field.1
  fits : ∀ field ∈ fields, field.2.Fits
  distinct : (fields.map Prod.fst).Nodup

theorem areWritable_of_keys (keys : List String) (h : fields.map Prod.fst = keys)
    (bare : ∀ key ∈ keys, IsBareKey key) (distinct : keys.Nodup)
    (fits : ∀ field ∈ fields, field.2.Fits) : AreWritable fields where
  bare := fun _ mem => bare _ (h ▸ List.mem_map_of_mem mem)
  fits := fits
  distinct := h.symm ▸ distinct

theorem Spells.assignments (bare : ∀ field ∈ fields, IsBareKey field.1)
    (fits : ∀ field ∈ fields, field.2.Fits) (more : Spells rest statements) :
    Spells ((writeFields fields).toList ++ rest) (Toml.assignments fields ++ statements) := by
  induction fields with
  | nil => exact more
  | cons field fields ih =>
    obtain ⟨key, value⟩ := field
    obtain ⟨bareHere, bareMore⟩ := List.forall_mem_cons.1 bare
    obtain ⟨fitsHere, fitsMore⟩ := List.forall_mem_cons.1 fits
    have chars : writeFields ((key, value) :: fields) =
        key ++ " = " ++ value.write ++ "\n" ++ writeFields fields := String.join_cons
    rw [chars, String.toList_append, List.append_assoc]
    exact Spells.assignment bareHere fitsHere (ih bareMore fitsMore)

theorem spells_tables {tables : List (String × Fields)}
    (each : ∀ table ∈ tables, IsBareKey table.1 ∧ AreWritable table.2) :
    Spells (String.join (tables.map fun (name, fields) => writeTable name fields)).toList
      (tableStatements tables) := by
  induction tables with
  | nil => exact spells_nil
  | cons table tables ih =>
    obtain ⟨name, fields⟩ := table
    obtain ⟨⟨bare, writable⟩, more⟩ := List.forall_mem_cons.1 each
    have chars : String.join (((name, fields) :: tables).map fun (name, fields) =>
        writeTable name fields) = "\n[" ++ name ++ "]\n" ++ writeFields fields ++
          String.join (tables.map fun (name, fields) => writeTable name fields) := String.join_cons
    rw [chars, String.toList_append, String.toList_append, List.append_assoc]
    exact Spells.heading bare (Spells.assignments writable.bare writable.fits (ih more))

end Lines

section Tables

variable {es : Entries} {entries : List (String × Data)} {node : Node} {value : Data}

namespace Entries

theorem get?_eq_none (new : key ∉ es.map Prod.fst) : es.get? key = none := by
  refine List.lookup_eq_none_iff.2 fun entry mem => bne_iff_ne.2 ?_
  rintro rfl
  exact new (List.mem_map_of_mem mem)

theorem put_new (new : key ∉ es.map Prod.fst) : es.put key node = es ++ [(key, node)] := by
  induction es with
  | nil => rfl
  | cons entry es ih =>
    obtain ⟨k, n⟩ := entry
    rw [List.map_cons, List.mem_cons, not_or] at new
    rw [put, if_neg (Ne.symm new.1), ih new.2]
    rfl

theorem assign_new (new : key ∉ es.map Prod.fst) :
    es.assign [key] value = some (es ++ [(key, .value value)]) := by
  change addLeaf false key value .header es = _
  rw [addLeaf, if_neg (by simp), get?_eq_none new, put_new new]

theorem assignAll_new (distinct : (es.map Prod.fst ++ entries.map Prod.fst).Nodup) :
    es.assignAll (entries.map fun (key, value) => ([key], value)) =
      some (es ++ entries.map fun (key, value) => (key, .value value)) := by
  induction entries generalizing es with
  | nil => exact congrArg some (List.append_nil es).symm
  | cons entry entries ih =>
    obtain ⟨key, value⟩ := entry
    have new : key ∉ es.map Prod.fst := fun mem =>
      (List.nodup_append.1 distinct).2.2 key mem key List.mem_cons_self rfl
    have more : assignAll (es ++ [(key, .value value)]) _ = _ := ih (by simpa using distinct)
    change (es.assign [key] value).bind _ = _
    rw [assign_new new, Option.bind_some]
    refine more.trans ?_
    rw [List.append_assoc]
    rfl

theorem addSection_new {assigned : List (List String × Data)} {table : Entries}
    (new : key ∉ es.map Prod.fst) (inside : assignAll [] assigned = some table) :
    es.addSection .table [key] assigned = some (es ++ [(key, .table .header table)]) := by
  simp [addSection, within, get?_eq_none new, inside, put_new new]

end Entries

def leaves (entries : List (String × Data)) : Entries :=
  entries.map fun (key, value) => (key, .value value)

theorem entriesToData_append (es es' : Entries) :
    entriesToData (es ++ es') = entriesToData es ++ entriesToData es' := by
  induction es with
  | nil => rfl
  | cons entry es ih =>
    obtain ⟨key, node⟩ := entry
    exact congrArg ((key, node.toData) :: ·) ih

theorem entriesToData_leaves : entriesToData (leaves entries) = entries := by
  induction entries with
  | nil => rfl
  | cons entry entries ih => exact congrArg (entry :: ·) ih

end Tables

section Documents

def Fields.entries (fields : Fields) : List (String × Data) :=
  fields.map fun (key, value) => (key, value.toData)

def Document.toData (d : Document) : Data :=
  .record (d.root.entries ++ d.tables.map fun (name, fields) => (name, .record fields.entries))

/-- The document can be read back: keys are bare, and none is given twice. -/
structure Document.IsWritable (d : Document) : Prop where
  bare : ∀ field ∈ d.root, IsBareKey field.1
  fits : ∀ field ∈ d.root, field.2.Fits
  tables : ∀ table ∈ d.tables, IsBareKey table.1 ∧ AreWritable table.2
  distinct : (d.root.map Prod.fst ++ d.tables.map Prod.fst).Nodup

variable {tables : List (String × Fields)} {es : Entries} {d : Document}

theorem keys_entries (fields : Fields) : fields.entries.map Prod.fst = fields.map Prod.fst := by
  rw [Fields.entries, List.map_map]
  rfl

theorem assignAll_entries (distinct : (fields.map Prod.fst).Nodup) :
    Entries.assignAll [] (fields.entries.map fun (key, value) => ([key], value)) =
      some (leaves fields.entries) :=
  Entries.assignAll_new ((keys_entries fields).symm ▸ distinct)

theorem sections_assignments (fields : Fields) (statements : List Statement) :
    sections (assignments fields ++ statements) =
      (fields.entries.map (fun (key, value) => ([key], value)) ++ (sections statements).1,
        (sections statements).2) := by
  induction fields with
  | nil => rfl
  | cons field fields ih =>
    obtain ⟨key, value⟩ := field
    change sections (.assign [key] value.toData :: (assignments fields ++ statements)) = _
    rw [sections, ih]
    rfl

theorem sections_tableStatements (tables : List (String × Fields)) :
    sections (tableStatements tables) = ([], tables.map fun (name, fields) =>
      ⟨.table, [name], fields.entries.map fun (key, value) => ([key], value)⟩) := by
  induction tables with
  | nil => rfl
  | cons table tables ih =>
    obtain ⟨name, fields⟩ := table
    change sections (.heading .table [name] :: (assignments fields ++ tableStatements tables)) = _
    rw [sections, sections_assignments, ih, List.append_nil]
    rfl

theorem addSections_new (each : ∀ table ∈ tables, AreWritable table.2)
    (distinct : (es.map Prod.fst ++ tables.map Prod.fst).Nodup) :
    (sections (tableStatements tables)).2.foldlM
        (fun root s => Entries.addSection root s.kind s.path s.assignments) es =
      some (es ++ tables.map fun (name, fields) =>
        (name, .table .header (leaves fields.entries))) := by
  rw [sections_tableStatements]
  induction tables generalizing es with
  | nil => exact congrArg some (List.append_nil es).symm
  | cons table tables ih =>
    obtain ⟨name, fields⟩ := table
    obtain ⟨here, more⟩ := List.forall_mem_cons.1 each
    have new : name ∉ es.map Prod.fst := fun mem =>
      (List.nodup_append.1 distinct).2.2 name mem name List.mem_cons_self rfl
    have added := Entries.addSection_new new (assignAll_entries here.distinct)
    rw [List.map_cons, List.foldlM_cons, added]
    refine (ih more (by simpa using distinct)).trans ?_
    rw [List.append_assoc]
    rfl

theorem entriesToData_tables (tables : List (String × Fields)) :
    entriesToData (tables.map fun (name, fields) =>
        (name, .table .header (leaves fields.entries))) =
      tables.map fun (name, fields) => (name, Data.record fields.entries) := by
  induction tables with
  | nil => rfl
  | cons table tables ih =>
    obtain ⟨name, fields⟩ := table
    refine congrArg₂ List.cons (congrArg (Prod.mk name) ?_) ih
    exact congrArg Data.record entriesToData_leaves

theorem assemble_statements (writable : d.IsWritable) :
    assemble (assignments d.root ++ tableStatements d.tables) = some d.toData := by
  have top := assignAll_entries (List.nodup_append.1 writable.distinct).1
  have keys : (leaves d.root.entries).map Prod.fst = d.root.map Prod.fst :=
    (List.map_map).trans (keys_entries d.root)
  have below := addSections_new (fun table ht => (writable.tables table ht).2)
    (keys.symm ▸ writable.distinct)
  rw [assemble, sections_assignments]
  dsimp only
  rw [sections_tableStatements, List.append_nil, top, Option.bind_some, ← sections_tableStatements,
    below, Option.map_some, entriesToData_append, entriesToData_leaves, entriesToData_tables]
  rfl

theorem dropByteOrderMark_write (writable : d.IsWritable) :
    dropByteOrderMark d.write.toList = d.write.toList := by
  rw [dropByteOrderMark]
  intro rest h
  obtain ⟨root, tables⟩ := d
  rw [Document.write, String.toList_append] at h
  cases root with
  | cons field fields =>
    obtain ⟨key, value⟩ := field
    obtain ⟨c, cs, eq, start, -⟩ := (writable.bare (key, value) List.mem_cons_self).exists_start
    simp only [writeFields, List.map_cons, String.join_cons, String.toList_append, eq,
      List.cons_append] at h
    exact ne_of_isBareKeyChar start (by decide) (List.cons.inj h).1
  | nil =>
    cases tables with
    | nil => cases h
    | cons table tables =>
      simp only [writeFields, List.map_cons, List.map_nil, String.join_nil, String.join_cons,
        writeTable, String.toList_append] at h
      exact absurd (List.cons.inj h).1 (by decide)

/-- A document is read back as the record it describes. -/
theorem read_write (writable : d.IsWritable) : read d.write = some d.toData := by
  have spelled : Spells d.write.toList (assignments d.root ++ tableStatements d.tables) := by
    rw [Document.write, String.toList_append]
    exact Spells.assignments writable.bare writable.fits (spells_tables writable.tables)
  rw [read, dropByteOrderMark_write writable, spelled _ (Nat.lt_succ_self _), Option.bind_some,
    assemble_statements writable]

end Documents

end InteropGen.Toml
