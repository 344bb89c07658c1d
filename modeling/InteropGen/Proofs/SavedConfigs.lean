import InteropGen.Config.File
import InteropGen.Proofs.SavedSchemas
import InteropGen.Proofs.Storing
import InteropGen.Proofs.TomlDocuments

set_option autoImplicit false

/-!
# Configurations that are saved and loaded again

A configuration that can be used is read back from its text, whatever characters its settings are
made of.  Loaded from a file, it is seen from the directory of that file: a relative path starts
there, and an absolute one stays as it is.
-/

namespace InteropGen

section Settings

theorem ManagedSettings.ofData?_toFields (s : ManagedSettings) :
    ofData? .toml (.record s.toFields.entries) = some s := by
  refine bind_of (FormatRules.fields?_record
    ["dir", "namespace", "native_module", "object_class"] rfl (by decide)) ?_
  exact bind_of rfl (bind_of rfl (bind_of rfl (bind_of rfl rfl)))

theorem CallingConvention.keyword?_keyword (convention : CallingConvention) :
    FormatRules.toml.keyword? all keyword (.text convention.keyword) = some convention := by
  cases convention <;> rfl

theorem NativeSettings.ofData?_toFields (s : NativeSettings) :
    ofData? .toml (.record s.toFields.entries) = some s := by
  refine bind_of (FormatRules.fields?_record ["dir", "calling_convention"] rfl (by decide)) ?_
  exact bind_of rfl (bind_of (CallingConvention.keyword?_keyword s.convention) rfl)

theorem Data.size?_integer {n : Nat} (fits : n ≤ 18446744073709551615) :
    size? (.integer n) = some n := by
  have range : (0 ≤ (n : Int) && (n : Int) ≤ 18446744073709551615) = true := by
    rw [Bool.and_eq_true, decide_eq_true_eq, decide_eq_true_eq]
    omega
  change (if 0 ≤ (n : Int) && (n : Int) ≤ 18446744073709551615 then some (n : Int).toNat
    else none) = some n
  rw [if_pos range, Int.toNat_natCast]

theorem OutputSettings.ofData?_toFields {s : OutputSettings}
    (fits : s.indent ≤ 18446744073709551615) :
    ofData? .toml (.record s.toFields.entries) = some s := by
  refine bind_of (FormatRules.fields?_record ["header", "indent"] rfl (by decide)) ?_
  exact bind_of rfl (bind_of (Data.size?_integer fits) rfl)

end Settings

namespace Config

variable {c : Config}

theorem ofData?_toData (fits : c.output.indent ≤ 18446744073709551615) :
    ofData? .toml c.toDocument.toData = some c := by
  refine bind_of (FormatRules.fields?_record ["schema", "managed", "native", "output"] rfl
    (by decide)) ?_
  refine bind_of rfl ?_
  refine bind_of (ManagedSettings.ofData?_toFields c.managed) ?_
  refine bind_of (NativeSettings.ofData?_toFields c.native) ?_
  exact bind_of (OutputSettings.ofData?_toFields fits) rfl

theorem isWritable_toDocument (fits : Toml.int64? c.output.indent = some (c.output.indent : Int)) :
    c.toDocument.IsWritable where
  bare := by
    rw [toDocument, List.forall_mem_singleton]
    exact (by decide : Toml.IsBareKey "schema")
  fits := by simp [toDocument, Toml.Scalar.Fits]
  tables := by
    have managed : Toml.AreWritable c.managed.toFields :=
      Toml.areWritable_of_keys ["dir", "namespace", "native_module", "object_class"] rfl (by decide)
        (by decide) (by simp [ManagedSettings.toFields, Toml.Scalar.Fits])
    have native : Toml.AreWritable c.native.toFields :=
      Toml.areWritable_of_keys ["dir", "calling_convention"] rfl (by decide) (by decide)
        (by simp [NativeSettings.toFields, Toml.Scalar.Fits])
    have output : Toml.AreWritable c.output.toFields :=
      Toml.areWritable_of_keys ["header", "indent"] rfl (by decide) (by decide)
        (by simp [OutputSettings.toFields, Toml.Scalar.Fits, fits])
    simp only [toDocument, List.forall_mem_cons]
    exact ⟨⟨by decide, managed⟩, ⟨by decide, native⟩, ⟨by decide, output⟩, by simp⟩
  distinct := (by decide : ["schema", "managed", "native", "output"].Nodup)

theorem indent_le_of_validate (valid : c.validate = .ok ()) : c.output.indent ≤ 8 := by
  have faultless : c.fault? = none := by
    rw [validate] at valid
    split at valid
    · assumption
    · cases valid
  unfold fault? at faultless
  split at faultless
  · cases faultless
  split at faultless
  · cases faultless
  split at faultless
  · cases faultless
  split at faultless
  · cases faultless
  · rename_i width
    simp only [Bool.or_eq_true, decide_eq_true_eq, not_or] at width
    omega

theorem parse_write (valid : c.validate = .ok ()) : parse c.write = .ok c := by
  have small := indent_le_of_validate valid
  have fits : Toml.int64? c.output.indent = some (c.output.indent : Int) := by
    rw [Toml.int64?, if_pos (by omega)]
  have read : Toml.read c.write = some c.toDocument.toData :=
    Toml.read_write (isWritable_toDocument fits)
  rw [parse, read, Option.bind_some, ofData?_toData (by omega)]
  dsimp only
  rw [valid]
  rfl

end Config

section Files

variable {σ : Type}

/-- A file that was written holds what was written. -/
def Disk.Keeps (disk : Disk (StateM σ)) : Prop :=
  ∀ (p : Path) (content : ByteArray) (s s' : σ),
    (disk.write p content).run s = (true, s') → (disk.read p).run s' = (.ok content, s')

/-- The path leads to where it led before the file was written, which was to no directory. -/
theorem FileTree.keeps_disk : FileTree.disk.Keeps := by
  intro p content t t' written
  have written : t.write p content = some t' := by
    change t.tryWrite p content = (true, t') at written
    unfold tryWrite at written
    cases eq : t.write p content with
    | none =>
      rw [eq] at written
      cases written
    | some t₁ =>
      rw [eq] at written
      exact congrArg some (congrArg Prod.snd written)
  obtain ⟨l, located, replaced, rfl⟩ := write_eq_some.1 written
  obtain ⟨followable, location, passes⟩ := locate_eq_ok.1 located
  have inner : l ≠ [] := by
    rintro rfl
    exact replaced rfl
  have again : (t.set l (.file content)).locate p = .ok l := by
    refine locate_eq_ok.2 ⟨followable, location, fun k passed => ?_⟩
    have directory := passes k passed
    rw [get?_set_of_ne]
    · exact directory
    · rintro rfl
      exact replaced directory
  have there : (t.set l (.file content)).read p = .ok content :=
    bind_eq_ok.2 ⟨.file content, bind_eq_ok.2 ⟨l, again, by rw [get?_set_self inner]⟩, rfl⟩
  change ((t.set l (.file content)).read p, t.set l (.file content)) = _
  rw [there]

theorem Disk.readText_of_keeps {disk : Disk (StateM σ)} {file : Path} {text : String} {s : σ}
    (there : (disk.read file).run s = (.ok text.toUTF8, s)) :
    (disk.readText file).run s = (some text, s) := by
  have decoded : String.fromUTF8? text.toUTF8 = some text := dif_pos text.isValidUTF8
  refine run_bind_eq.2 ⟨_, _, there, ?_⟩
  dsimp only
  rw [decoded]
  rfl

end Files

def Path.seenFrom (base : Option Path) (q : Path) : Path :=
  match base with
  | some dir => if q.isAbsolute then q else dir.join q
  | none => q

namespace Config

variable {c : Config}

theorem anchor_eq (c : Config) (file : Path) : c.anchor file =
    { c with
      schema := c.schema.seenFrom file.parent?
      managed := { c.managed with dir := c.managed.dir.seenFrom file.parent? }
      native := { c.native with dir := c.native.dir.seenFrom file.parent? } } := by
  rw [anchor]
  cases file.parent? with
  | none => rfl
  | some dir =>
    have joined (q : Path) : q.seenFrom (some dir) = dir.join q := by
      rw [Path.seenFrom]
      split
      · rename_i absolute
        exact (Path.join_absolute absolute).symm
      · rfl
    simp only [joined]
    rfl

theorem save_eq_ok {σ : Type} {disk : Disk (StateM σ)} {file : Path} {s s' : σ}
    (saved : (c.save disk file).run s = (.ok (), s')) :
    (disk.write file c.write.toUTF8).run s = (true, s') := by
  obtain ⟨ok, s₁, written, h⟩ := run_bind_eq.1 saved
  cases ok with
  | false => cases h
  | true =>
    cases h
    exact written

/-- A configuration that can be used is read back from its own text.  Once it is saved, on whatever
disk, its file holds that text, and the file is loaded as the same configuration, seen from the
directory of the file. -/
theorem load_save (valid : c.validate = .ok ()) :
    parse c.write = .ok c ∧ FileTree.disk.Keeps ∧
      ∀ {σ : Type} (disk : Disk (StateM σ)), disk.Keeps → ∀ (file : Path) (s s' : σ),
        (c.save disk file).run s = (.ok (), s') →
          (disk.read file).run s' = (.ok c.write.toUTF8, s') ∧
            (load disk file).run s' =
              (.ok { c with
                schema := c.schema.seenFrom file.parent?
                managed := { c.managed with dir := c.managed.dir.seenFrom file.parent? }
                native := { c.native with dir := c.native.dir.seenFrom file.parent? } }, s') := by
  refine ⟨parse_write valid, FileTree.keeps_disk, fun disk keeps file s s' saved => ?_⟩
  have there := keeps file c.write.toUTF8 s s' (save_eq_ok saved)
  refine ⟨there, run_bind_eq.2 ⟨_, _, Disk.readText_of_keeps there, ?_⟩⟩
  dsimp only
  rw [parse_write valid, ← anchor_eq]
  rfl

/-- Settings that no one form of text shows as they are. -/
def awkward : Config where
  schema := ⟨"it's \"here\".toml"⟩
  managed := { dir := ⟨"/srv/C#"⟩, nativeModule := "a\\b" }
  native := { dir := ⟨"native\tcode"⟩, convention := .stdcall }
  output := { header := "\"\"\"\nlines\r\n\x01 '''\\ é", indent := 8 }

end Config

def FileTree.withFolder : FileTree := FileTree.empty.set ["work", "conf"] .directory

theorem FileTree.write_withFolder (content : ByteArray) :
    withFolder.write ⟨"conf/apigen.toml"⟩ content =
      some (withFolder.set ["work", "conf", "apigen.toml"] (.file content)) := by
  have located : withFolder.locate ⟨"conf/apigen.toml"⟩ = .ok ["work", "conf", "apigen.toml"] := by
    decide
  have free : withFolder.get? ["work", "conf", "apigen.toml"] = none := rfl
  exact write_eq_some.2 ⟨_, located, by simp [free], rfl⟩

theorem Config.load_save_awkward :
    awkward.validate = .ok () ∧ parse awkward.write = .ok awkward ∧
      ∃ t', (awkward.save FileTree.disk ⟨"conf/apigen.toml"⟩).run FileTree.withFolder =
          (.ok (), t') ∧
        (load FileTree.disk ⟨"conf/apigen.toml"⟩).run t' =
          (.ok { awkward with
            schema := ⟨"conf/it's \"here\".toml"⟩
            native := { awkward.native with dir := ⟨"conf/native\tcode"⟩ } }, t') := by
  have valid : awkward.validate = .ok () := by decide
  have saved : (awkward.save FileTree.disk ⟨"conf/apigen.toml"⟩).run FileTree.withFolder =
      (.ok (), FileTree.withFolder.set ["work", "conf", "apigen.toml"]
        (.file awkward.write.toUTF8)) := by
    refine run_bind_eq.2 ⟨true, _, ?_, rfl⟩
    change FileTree.withFolder.tryWrite ⟨"conf/apigen.toml"⟩ awkward.write.toUTF8 = _
    rw [FileTree.tryWrite, FileTree.write_withFolder]
  obtain ⟨read, keeps, loads⟩ := load_save valid
  have loaded := (loads FileTree.disk keeps _ _ _ saved).2
  have schema : awkward.schema.seenFrom (Path.parent? ⟨"conf/apigen.toml"⟩) =
      ⟨"conf/it's \"here\".toml"⟩ := by decide
  have managed : awkward.managed.dir.seenFrom (Path.parent? ⟨"conf/apigen.toml"⟩) =
      awkward.managed.dir := by decide
  have native : awkward.native.dir.seenFrom (Path.parent? ⟨"conf/apigen.toml"⟩) =
      ⟨"conf/native\tcode"⟩ := by decide
  rw [schema, managed, native] at loaded
  exact ⟨valid, read, _, saved, loaded⟩

end InteropGen
