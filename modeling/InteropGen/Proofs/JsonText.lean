import InteropGen.Json.Reader
import InteropGen.Json.Writer

set_option autoImplicit false

/-!
# JSON that is read back

The compact text of a value is read as that value again, whatever may follow it in a longer text.  A
number is over only where something else begins, so what follows is a comma, a closing bracket or
nothing.
-/

namespace InteropGen

namespace Data

mutual

/-- Every part of the value has a written form of its own. -/
def IsPlain : Data → Prop
  | .other => False
  | .list items => ArePlain items
  | .record entries => HasPlain entries
  | _ => True

def ArePlain : List Data → Prop
  | [] => True
  | item :: items => item.IsPlain ∧ ArePlain items

def HasPlain : List (String × Data) → Prop
  | [] => True
  | (_, value) :: entries => value.IsPlain ∧ HasPlain entries

end

variable {d : Data} {items : List Data} {key : String} {entries : List (String × Data)}

@[simp] theorem isPlain_boolean (b : Bool) : (boolean b).IsPlain := trivial

@[simp] theorem isPlain_integer (i : Int) : (integer i).IsPlain := trivial

@[simp] theorem isPlain_text (s : String) : (text s).IsPlain := trivial

@[simp] theorem isPlain_list : (list items).IsPlain ↔ ArePlain items := Iff.rfl

@[simp] theorem isPlain_record : (record entries).IsPlain ↔ HasPlain entries := Iff.rfl

@[simp] theorem arePlain_nil : ArePlain [] := trivial

@[simp] theorem arePlain_cons : ArePlain (d :: items) ↔ d.IsPlain ∧ ArePlain items := Iff.rfl

@[simp] theorem hasPlain_nil : HasPlain [] := trivial

@[simp] theorem hasPlain_cons :
    HasPlain ((key, d) :: entries) ↔ d.IsPlain ∧ HasPlain entries := Iff.rfl

end Data

namespace Json

variable {cs rest : List Char} {c : Char}

theorem skipSpace_cons (h : isSpace c = false) : skipSpace (c :: cs) = c :: cs := by
  rw [skipSpace, List.dropWhile_cons, if_neg (by simp [h])]

section Texts

/-- The piece that an escaped character is read as. -/
def pieceOf (c : Char) : Piece :=
  if c.toNat < 0x20 ∧ c ≠ '\n' ∧ c ≠ '\r' ∧ c ≠ '\t' then .unit c.toNat else .char c

theorem hexNumber_control {n : Nat} (h : n < 0x20) :
    hexNumber ['0', '0', Text.hexDigit (n / 16), Text.hexDigit (n % 16)] = some n := by
  revert n
  decide

theorem readPieces_escapeChar :
    readPieces (escapeChar c ++ cs) = push (pieceOf c) (readPieces cs) := by
  by_cases quoted : c = '"' ∨ c = '\\'
  · rcases quoted with rfl | rfl <;> rfl
  by_cases short : c = '\n' ∨ c = '\r' ∨ c = '\t'
  · rcases short with rfl | rfl | rfl <;> rfl
  rw [not_or] at quoted
  rw [not_or, not_or] at short
  by_cases control : c.toNat < 0x20
  · have escaped : escapeChar c =
        ['\\', 'u', '0', '0', Text.hexDigit (c.toNat / 16), Text.hexDigit (c.toNat % 16)] := by
      simp [escapeChar, quoted, short, control]
    rw [escaped, pieceOf, if_pos ⟨control, short⟩]
    change (hexNumber _).bind _ = _
    rw [hexNumber_control control]
    rfl
  · have escaped : escapeChar c = [c] := by simp [escapeChar, quoted, short, control]
    rw [escaped, pieceOf, if_neg (fun h => control h.1), List.singleton_append, readPieces,
      if_neg control]
    · exact quoted.1
    · exact fun _ _ _ _ _ h => absurd h quoted.2
    · exact fun _ _ h => absurd h quoted.2

theorem joinPieces_unit {n : Nat} {ps : List Piece} (h : n < 0x20) :
    joinPieces (.unit n :: ps) = (joinPieces ps).map (Char.ofNat n :: ·) := by
  have high : isHigh n = false := by
    rw [isHigh, Bool.and_eq_false_iff, decide_eq_false_iff_not]
    omega
  have low : isLow n = false := by
    rw [isLow, Bool.and_eq_false_iff, decide_eq_false_iff_not]
    omega
  cases ps with
  | nil => simp [joinPieces, high, low]
  | cons p ps => cases p <;> simp [joinPieces, high, low]

theorem joinPieces_pieceOf {ps : List Piece} :
    joinPieces (pieceOf c :: ps) = (joinPieces ps).map (c :: ·) := by
  rw [pieceOf]
  split
  · rename_i control
    rw [joinPieces_unit control.1, Char.ofNat_toNat]
  · rfl

theorem readPieces_flatMap_escapeChar :
    readPieces (cs.flatMap escapeChar ++ '"' :: rest) = some (cs.map pieceOf, rest) := by
  induction cs with
  | nil => rfl
  | cons c cs ih =>
    rw [List.flatMap_cons, List.append_assoc, readPieces_escapeChar, ih]
    rfl

theorem joinPieces_map_pieceOf : joinPieces (cs.map pieceOf) = some cs := by
  induction cs with
  | nil => rfl
  | cons c cs ih =>
    rw [List.map_cons, joinPieces_pieceOf, ih]
    rfl

theorem toList_writeText (s : String) :
    (writeText s).toList = '"' :: (s.toList.flatMap escapeChar ++ ['"']) := by
  simp [writeText]

theorem readText_flatMap_escapeChar {s : String} :
    readText (s.toList.flatMap escapeChar ++ '"' :: rest) = some (some s, rest) := by
  rw [readText, readPieces_flatMap_escapeChar, Option.map_some]
  change some ((joinPieces _).map String.ofList, rest) = _
  rw [joinPieces_map_pieceOf, Option.map_some, String.ofList_toList]

end Texts

/-- Where a value may end: in front of a comma or a closing bracket, or with the text. -/
def Ends (rest : List Char) : Prop := ∀ c ∈ rest.head?, c = ',' ∨ c = ']' ∨ c = '\x7d'

theorem ends_nil : Ends [] := fun _ h => absurd h (Option.not_mem_none _)

theorem ends_cons (h : c = ',' ∨ c = ']' ∨ c = '\x7d') : Ends (c :: rest) := by
  rintro d ⟨⟩
  exact h

section Numbers

theorem isDigit_of_ends {d : Char} (h : Ends (d :: rest)) : d.isDigit = false := by
  rcases h d rfl with rfl | rfl | rfl <;> decide

theorem dropFraction_of_ends (h : Ends rest) : dropFraction rest = some rest := by
  cases rest with
  | nil => rfl
  | cons d rest => rcases h d rfl with rfl | rfl | rfl <;> rfl

theorem dropExponent_of_ends (h : Ends rest) : dropExponent rest = some rest := by
  cases rest with
  | nil => rfl
  | cons d rest => rcases h d rfl with rfl | rfl | rfl <;> rfl

theorem takeWhile_digits (digits : ∀ d ∈ cs, d.isDigit = true) (h : Ends rest) :
    (cs ++ rest).takeWhile Char.isDigit = cs ∧ (cs ++ rest).dropWhile Char.isDigit = rest := by
  rw [List.takeWhile_append_of_pos digits, List.dropWhile_append_of_pos digits]
  cases rest with
  | nil => exact ⟨List.append_nil cs, rfl⟩
  | cons d rest => simp [isDigit_of_ends h]

theorem exists_toDigits {n : Nat} (h : 0 < n) :
    ∃ d ds, Nat.toDigits 10 n = d :: ds ∧ d ≠ '0' := by
  induction n using Nat.strongRecOn with
  | _ n ih =>
    by_cases small : n < 10
    · refine ⟨n.digitChar, [], Nat.toDigits_of_lt_base small, ?_⟩
      rw [Ne, Nat.digitChar_eq_zero]
      omega
    · obtain ⟨d, ds, digits, nonzero⟩ := ih (n / 10) (by omega) (by omega)
      refine ⟨d, ds ++ [(n % 10).digitChar], ?_, nonzero⟩
      rw [Nat.toDigits_of_base_le (by omega) (by omega), digits, List.cons_append]

theorem readWhole_toDigits (n : Nat) (h : Ends rest) :
    readWhole (Nat.toDigits 10 n ++ rest) = some (Nat.toDigits 10 n, rest) := by
  rcases Nat.eq_zero_or_pos n with rfl | pos
  · rw [Nat.toDigits_zero]
    cases rest with
    | nil => rfl
    | cons d rest =>
      change (if d.isDigit then none else some (['0'], d :: rest)) = _
      rw [isDigit_of_ends h]
      rfl
  · obtain ⟨d, ds, eq, nonzero⟩ := exists_toDigits pos
    have digits : ∀ e ∈ d :: ds, e.isDigit = true := fun e he =>
      Nat.isDigit_of_mem_toDigits (by omega) (Nat.le_refl 10) (eq ▸ he)
    obtain ⟨taken, dropped⟩ := takeWhile_digits (fun e he => digits e (List.mem_cons_of_mem d he)) h
    rw [eq, List.cons_append, readWhole, if_pos (digits d List.mem_cons_self), taken, dropped]
    exact nonzero

theorem digitValue_toDigits (n : Nat) : digitValue (Nat.toDigits 10 n) = n := by
  have same : digitValue (Nat.toDigits 10 n) = Nat.ofDigitChars 10 (Nat.toDigits 10 n) 0 := by
    rw [digitValue, Nat.ofDigitChars_eq_foldl]
    simp only [Nat.mul_comm]
    rfl
  rw [same, Nat.ofDigitChars_ten_toDigits]

theorem readNumber_unsigned (n : Nat) (h : Ends rest) :
    readNumber (Nat.toDigits 10 n ++ rest) = some (.integer n, rest) := by
  have whole := readWhole_toDigits n h
  have value := digitValue_toDigits n
  cases digits : Nat.toDigits 10 n with
  | nil => exact absurd digits Nat.toDigits_ne_nil
  | cons d ds =>
    have digit : d.isDigit = true :=
      Nat.isDigit_of_mem_toDigits (by omega) (Nat.le_refl 10) (digits ▸ List.mem_cons_self)
    have unsigned : d ≠ '-' := by
      rintro rfl
      exact absurd digit (by decide)
    rw [digits, List.cons_append] at whole
    rw [digits] at value
    simp [readNumber, unsigned, whole, dropFraction_of_ends h, dropExponent_of_ends h, value]

theorem readNumber_signed {n : Nat} (pos : 0 < n) (h : Ends rest) :
    readNumber ('-' :: (Nat.toDigits 10 n ++ rest)) = some (.integer (-n), rest) := by
  rw [readNumber]
  simp [readWhole_toDigits n h, dropFraction_of_ends h, dropExponent_of_ends h,
    digitValue_toDigits, Nat.pos_iff_ne_zero.1 pos]

theorem readNumber_toString (i : Int) (h : Ends rest) :
    readNumber ((toString i).toList ++ rest) = some (.integer i, rest) := by
  cases i with
  | ofNat n =>
    have digits : (toString (Int.ofNat n)).toList = Nat.toDigits 10 n := Nat.toList_repr
    rw [digits, readNumber_unsigned n h]
    rfl
  | negSucc n =>
    have signed : (toString (Int.negSucc n)).toList = '-' :: Nat.toDigits 10 (n + 1) := by
      change ("-" ++ (n + 1).repr).toList = _
      rw [String.toList_append, Nat.toList_repr]
      rfl
    rw [signed, List.cons_append, readNumber_signed (Nat.succ_pos n) h]
    rfl

theorem exists_start_toString (i : Int) :
    ∃ c cs, (toString i).toList = c :: cs ∧ (c = '-' ∨ c.isDigit = true) := by
  cases i with
  | ofNat n =>
    have digits : (toString (Int.ofNat n)).toList = Nat.toDigits 10 n := Nat.toList_repr
    cases eq : Nat.toDigits 10 n with
    | nil => exact absurd eq Nat.toDigits_ne_nil
    | cons d ds =>
      exact ⟨d, ds, digits.trans eq, .inr
        (Nat.isDigit_of_mem_toDigits (by omega) (Nat.le_refl 10) (eq ▸ List.mem_cons_self))⟩
  | negSucc n =>
    refine ⟨'-', Nat.toDigits 10 (n + 1), ?_, .inl rfl⟩
    change ("-" ++ (n + 1).repr).toList = _
    rw [String.toList_append, Nat.toList_repr]
    rfl

theorem apart_of_number {d : Char} (h : c = '-' ∨ c.isDigit = true)
    (other : d ≠ '-' ∧ d.isDigit = false) : c ≠ d := by
  rintro rfl
  rcases h with rfl | digit
  · exact other.1 rfl
  · exact absurd (digit.symm.trans other.2) (by decide)

theorem unblank_of_number (h : c = '-' ∨ c.isDigit = true) : isSpace c = false := by
  have apart {d : Char} (other : d ≠ '-' ∧ d.isDigit = false) : (c == d) = false :=
    beq_false_of_ne (apart_of_number h other)
  rw [isSpace, apart (by decide), apart (by decide), apart (by decide), apart (by decide)]
  rfl

theorem readValue_number {n : Nat} (h : c = '-' ∨ c.isDigit = true) :
    readValue (n + 1) (c :: cs) = readNumber (c :: cs) := by
  have brace : c ≠ '\x7b' := apart_of_number h (by decide)
  have bracket : c ≠ '[' := apart_of_number h (by decide)
  have quote : c ≠ '"' := apart_of_number h (by decide)
  have yes : c ≠ 't' := apart_of_number h (by decide)
  have no : c ≠ 'f' := apart_of_number h (by decide)
  have null : c ≠ 'n' := apart_of_number h (by decide)
  simp [readValue, skipSpace_cons (unblank_of_number h)]

end Numbers

section Values

/-- The value is read from its text, with enough nested calls at hand. -/
def Reads (d : Data) : Prop :=
  ∀ (n : Nat) (rest : List Char), 2 * (write d).toList.length ≤ n → Ends rest →
    readValue n ((write d).toList ++ rest) = some (d, rest)

variable {item : Data} {items : List Data} {entry : String × Data} {entries : List (String × Data)}

theorem toList_write_list (items : List Data) :
    (write (.list items)).toList =
      '[' :: ((",".intercalate (writeItems items)).toList ++ [']']) := by
  rw [write, String.toList_append, String.toList_append]
  rfl

theorem toList_write_record (entries : List (String × Data)) :
    (write (.record entries)).toList =
      '\x7b' :: ((",".intercalate (writeEntries entries)).toList ++ ['\x7d']) := by
  rw [write, String.toList_append, String.toList_append]
  rfl

/-- No value begins with a blank, or like the end of a list. -/
theorem exists_start_write (d : Data) :
    ∃ c cs, (write d).toList = c :: cs ∧ isSpace c = false ∧ c ≠ ']' := by
  cases d with
  | absent => exact ⟨'n', ['u', 'l', 'l'], by simp [write], by decide⟩
  | other => exact ⟨'n', ['u', 'l', 'l'], by simp [write], by decide⟩
  | boolean b =>
    cases b with
    | false => exact ⟨'f', ['a', 'l', 's', 'e'], by simp [write], by decide⟩
    | true => exact ⟨'t', ['r', 'u', 'e'], by simp [write], by decide⟩
  | integer i =>
    rw [write]
    obtain ⟨c, cs, chars, number⟩ := exists_start_toString i
    exact ⟨c, cs, chars, unblank_of_number number, apart_of_number number (by decide)⟩
  | text s => exact ⟨'"', _, by rw [write, toList_writeText], by decide⟩
  | list items => exact ⟨'[', _, toList_write_list items, by decide⟩
  | record entries => exact ⟨'\x7b', _, toList_write_record entries, by decide⟩

theorem reads_absent : Reads .absent := by
  rintro (_ | n) rest bound _
  · simp [write] at bound
  · simp [write, readValue, skipSpace_cons, isSpace, word]

theorem reads_boolean (b : Bool) : Reads (.boolean b) := by
  rintro (_ | n) rest bound _
  · cases b <;> simp [write] at bound
  · cases b <;> simp [write, readValue, skipSpace_cons, isSpace, word]

theorem reads_integer (i : Int) : Reads (.integer i) := by
  intro n rest bound ends
  obtain ⟨c, cs, chars, start⟩ := exists_start_toString i
  rw [write] at *
  cases n with
  | zero =>
    rw [chars, List.length_cons] at bound
    omega
  | succ n =>
    have number := readNumber_toString i ends
    rw [chars] at *
    exact (readValue_number start).trans number

theorem reads_text (s : String) : Reads (.text s) := by
  intro n rest bound _
  rw [write, toList_writeText] at *
  cases n with
  | zero => simp at bound
  | succ n => simp [readValue, skipSpace_cons, isSpace, readText_flatMap_escapeChar]

theorem toList_intercalate_cons {x y : String} {xs : List String} :
    (",".intercalate (x :: y :: xs)).toList =
      x.toList ++ ',' :: (",".intercalate (y :: xs)).toList := by
  simp [String.intercalate_cons_cons]

/-- The items are read one after the other; each leaves what is behind its comma. -/
theorem readItems_write (each : ∀ d ∈ item :: items, Reads d) (n : Nat) (rest : List Char)
    (bound : 2 * (",".intercalate (writeItems (item :: items))).toList.length + 1 ≤ n) :
    readItems n ((",".intercalate (writeItems (item :: items))).toList ++ ']' :: rest) =
      some (item :: items, rest) := by
  have head := each item List.mem_cons_self
  induction items generalizing item n with
  | nil =>
    rw [writeItems, writeItems, String.intercalate_singleton] at *
    cases n with
    | zero => omega
    | succ n =>
      rw [readItems, head n _ (by omega) (ends_cons (by decide)), Option.bind_some]
      rfl
  | cons next items ih =>
    rw [writeItems, writeItems, toList_intercalate_cons, ← writeItems] at *
    rw [List.length_append, List.length_cons] at bound
    cases n with
    | zero => omega
    | succ n =>
      have each := fun d hd => each d (List.mem_cons_of_mem item hd)
      have tail := ih each n (by omega) (each next List.mem_cons_self)
      rw [List.append_assoc, List.cons_append, readItems,
        head n _ (by omega) (ends_cons (by decide)), Option.bind_some]
      change push item (readItems n _) = _
      rw [tail]
      rfl

theorem exists_start_items (item : Data) (items : List Data) :
    ∃ c cs, (",".intercalate (writeItems (item :: items))).toList = c :: cs ∧
      isSpace c = false ∧ c ≠ ']' := by
  obtain ⟨c, cs, chars, start⟩ := exists_start_write item
  cases items with
  | nil => exact ⟨c, cs, by rw [writeItems, writeItems, String.intercalate_singleton, chars], start⟩
  | cons next items =>
    rw [writeItems, writeItems, toList_intercalate_cons, chars]
    exact ⟨c, _, rfl, start⟩

theorem readValue_items {n : Nat} (unblank : isSpace c = false) (more : c ≠ ']')
    (h : readItems n (c :: cs) = some (items, rest)) :
    readValue (n + 1) ('[' :: c :: cs) = some (.list items, rest) := by
  have bracket : skipSpace ('[' :: c :: cs) = '[' :: c :: cs := skipSpace_cons rfl
  simp only [readValue, bracket, skipSpace_cons unblank]
  split
  · rename_i closing
    exact absurd (List.cons.inj closing).1 more
  · rw [h]
    rfl

theorem reads_list (each : ∀ d ∈ items, Reads d) : Reads (.list items) := by
  intro n rest bound _
  rw [toList_write_list] at *
  cases n with
  | zero => simp at bound
  | succ n =>
    cases items with
    | nil => rfl
    | cons item items =>
      rw [List.length_cons, List.length_append] at bound
      have all := readItems_write each n rest (by omega)
      obtain ⟨c, cs, chars, unblank, more⟩ := exists_start_items item items
      rw [chars] at all
      rw [chars, List.cons_append, List.append_assoc]
      exact readValue_items unblank more all

theorem toList_entry (key : String) (value : Data) :
    (writeText key ++ ":" ++ write value).toList =
      '"' :: (key.toList.flatMap escapeChar ++ '"' :: ':' :: (write value).toList) := by
  rw [String.toList_append, String.toList_append, toList_writeText, List.cons_append,
    List.append_assoc]
  simp

section Entries

variable {n : Nat} {key : String} {value : Data}

theorem readEntries_more (h : readValue n cs = some (value, ',' :: rest)) :
    readEntries (n + 1) ('"' :: (key.toList.flatMap escapeChar ++ '"' :: ':' :: cs)) =
      push (some key, value) (readEntries n rest) := by
  have quote : skipSpace ('"' :: (key.toList.flatMap escapeChar ++ '"' :: ':' :: cs)) = _ :=
    skipSpace_cons rfl
  have colon : skipSpace (':' :: cs) = ':' :: cs := skipSpace_cons rfl
  have comma : skipSpace (',' :: rest) = ',' :: rest := skipSpace_cons rfl
  simp only [readEntries, quote, readText_flatMap_escapeChar, Option.bind_some, colon, h, comma]

theorem readEntries_last (h : readValue n cs = some (value, '\x7d' :: rest)) :
    readEntries (n + 1) ('"' :: (key.toList.flatMap escapeChar ++ '"' :: ':' :: cs)) =
      some ([(some key, value)], rest) := by
  have quote : skipSpace ('"' :: (key.toList.flatMap escapeChar ++ '"' :: ':' :: cs)) = _ :=
    skipSpace_cons rfl
  have colon : skipSpace (':' :: cs) = ':' :: cs := skipSpace_cons rfl
  have brace : skipSpace ('\x7d' :: rest) = '\x7d' :: rest := skipSpace_cons rfl
  simp only [readEntries, quote, readText_flatMap_escapeChar, Option.bind_some, colon, h, brace]

end Entries

theorem readEntries_write (each : ∀ e ∈ entry :: entries, Reads e.2) (n : Nat) (rest : List Char)
    (bound : 2 * (",".intercalate (writeEntries (entry :: entries))).toList.length + 1 ≤ n) :
    readEntries n ((",".intercalate (writeEntries (entry :: entries))).toList ++ '\x7d' :: rest) =
      some ((entry :: entries).map fun e => (some e.1, e.2), rest) := by
  obtain ⟨key, value⟩ := entry
  have head : Reads value := each (key, value) List.mem_cons_self
  induction entries generalizing n key value with
  | nil =>
    rw [writeEntries, writeEntries, String.intercalate_singleton, toList_entry] at *
    rw [List.length_cons, List.length_append, List.length_cons, List.length_cons] at bound
    cases n with
    | zero => omega
    | succ n =>
      have read := head n ('\x7d' :: rest) (by omega) (ends_cons (by decide))
      rw [List.cons_append, List.append_assoc, List.cons_append, List.cons_append,
        readEntries_last read]
      rfl
  | cons next entries ih =>
    obtain ⟨nextKey, nextValue⟩ := next
    rw [writeEntries, writeEntries, toList_intercalate_cons, ← writeEntries, toList_entry] at *
    rw [List.length_append, List.length_cons, List.length_append, List.length_cons,
      List.length_cons, List.length_cons] at bound
    cases n with
    | zero => omega
    | succ n =>
      have each := fun e he => each e (List.mem_cons_of_mem (key, value) he)
      have tail := ih n nextKey nextValue each (by omega)
        (each (nextKey, nextValue) List.mem_cons_self)
      have read := head n (',' :: ((",".intercalate
        (writeEntries ((nextKey, nextValue) :: entries))).toList ++ '\x7d' :: rest)) (by omega)
        (ends_cons (by decide))
      simp only [List.append_assoc, List.cons_append]
      rw [readEntries_more read, tail]
      rfl

theorem recordOf_map_some (entries : List (String × Data)) :
    recordOf (entries.map fun e => (some e.1, e.2)) = .record entries := by
  have keys : (entries.map fun e => (some e.1, e.2)).mapM
      (fun (e : Option String × Data) => e.1.map fun k => (k, e.2)) = some entries := by
    induction entries with
    | nil => rfl
    | cons e entries ih =>
      rw [List.map_cons, List.mapM_cons, ih]
      rfl
  unfold recordOf
  -- The definition matches on an entry where the projections stand here.
  erw [keys]

theorem readValue_entries {n : Nat} {es : List (Option String × Data)}
    (h : readEntries n ('"' :: cs) = some (es, rest)) :
    readValue (n + 1) ('\x7b' :: '"' :: cs) = some (recordOf es, rest) := by
  have brace : skipSpace ('\x7b' :: '"' :: cs) = '\x7b' :: '"' :: cs := skipSpace_cons rfl
  have quote : skipSpace ('"' :: cs) = '"' :: cs := skipSpace_cons rfl
  simp [readValue, brace, quote, h]

theorem exists_start_entries (entry : String × Data) (entries : List (String × Data)) :
    ∃ cs, (",".intercalate (writeEntries (entry :: entries))).toList = '"' :: cs := by
  cases entries with
  | nil =>
    rw [writeEntries, writeEntries, String.intercalate_singleton, toList_entry]
    exact ⟨_, rfl⟩
  | cons next entries =>
    rw [writeEntries, writeEntries, toList_intercalate_cons, toList_entry]
    exact ⟨_, rfl⟩

theorem reads_record (each : ∀ e ∈ entries, Reads e.2) : Reads (.record entries) := by
  intro n rest bound _
  rw [toList_write_record] at *
  cases n with
  | zero => simp at bound
  | succ n =>
    cases entries with
    | nil => rfl
    | cons entry entries =>
      rw [List.length_cons, List.length_append] at bound
      have all := readEntries_write each n rest (by omega)
      obtain ⟨cs, chars⟩ := exists_start_entries entry entries
      rw [chars] at all
      rw [chars, List.cons_append, List.append_assoc, ← recordOf_map_some]
      exact readValue_entries all

mutual

/-- What is written is read again. -/
theorem reads_of_isPlain : (d : Data) → d.IsPlain → Reads d
  | .absent, _ => reads_absent
  | .boolean b, _ => reads_boolean b
  | .integer i, _ => reads_integer i
  | .text s, _ => reads_text s
  | .list items, plain => reads_list (reads_of_arePlain items plain)
  | .record entries, plain => reads_record (reads_of_hasPlain entries plain)

theorem reads_of_arePlain : (items : List Data) → Data.ArePlain items → ∀ d ∈ items, Reads d
  | [], _ => fun _ h => absurd h List.not_mem_nil
  | item :: items, plain =>
    List.forall_mem_cons.2 ⟨reads_of_isPlain item plain.1, reads_of_arePlain items plain.2⟩

theorem reads_of_hasPlain : (entries : List (String × Data)) → Data.HasPlain entries →
    ∀ e ∈ entries, Reads e.2
  | [], _ => fun _ h => absurd h List.not_mem_nil
  | (_, value) :: entries, plain =>
    List.forall_mem_cons.2 ⟨reads_of_isPlain value plain.1, reads_of_hasPlain entries plain.2⟩

end

end Values

theorem read_write {d : Data} (plain : d.IsPlain) : read (write d) = some d := by
  have whole := reads_of_isPlain d plain (2 * (write d).toList.length + 2) [] (by omega) ends_nil
  rw [List.append_nil] at whole
  rw [read, whole]
  rfl

end Json

end InteropGen
