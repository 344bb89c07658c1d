import InteropGen.Proofs.JsonText
import InteropGen.Proofs.TypeTexts
import InteropGen.Proofs.ValueTypes

set_option autoImplicit false

/-!
# Schemas that are saved and loaded again

A schema that was loaded, in whichever notation, is written as a document value without the owners of
its members.  The text of that value is loaded as the same schema: types are shown as they are read,
parts that are left out take their defaults, and loading marks each member with its owner again.
-/

namespace InteropGen

namespace Data

variable {α : Type} {read : Data → Option α} {write : α → Data} {xs : List α}

theorem listOf_map (each : ∀ x ∈ xs, read (write x) = some x) :
    listOf read (.list (xs.map write)) = some xs := by
  change (xs.map write).mapM read = some xs
  induction xs with
  | nil => rfl
  | cons x xs ih =>
    rw [List.map_cons, List.mapM_cons, each x List.mem_cons_self,
      ih fun y hy => each y (List.mem_cons_of_mem x hy)]
    rfl

theorem arePlain_map (each : ∀ x, (write x).IsPlain) : ArePlain (xs.map write) := by
  induction xs with
  | nil => trivial
  | cons x xs ih => exact ⟨each x, ih⟩

end Data

theorem FormatRules.fields?_record {rules : FormatRules} {keys : List String}
    {entries : List (String × Data)} (names : List String) (h : entries.map Prod.fst = names)
    (distinct : names.Nodup) :
    rules.fields? keys (.record entries) = some fun key => entries.lookup key := by
  have unrepeated : firstRepeated [] ((entries.map Prod.fst).filter (· ∈ keys)) = none :=
    firstRepeated_eq_none.2 ⟨(h ▸ distinct).filter _, fun _ _ => List.not_mem_nil⟩
  rw [fields?, unrepeated]
  rfl

theorem bind_of {α β : Type} {x : Option α} {a : α} {f : α → Option β} {b : β} (h : x = some a)
    (rest : f a = some b) : (x >>= f) = some b := by
  rw [h]
  exact rest

theorem TypeRef.ofData?_toData {t : TypeRef} (h : t.IsWritten) : ofData? t.toData = some t := by
  obtain ⟨text, h⟩ := h
  have shown := parse_display_of_isWellFormed (isWellFormed_of_parse h).1
  change (parse t.display).toOption = some t
  rw [shown]
  rfl

section Members

variable {rules : FormatRules} {d : Data}

structure Property.IsRead (p : Property) : Prop where
  type : p.type.IsWritten
  owner : p.owner = ""

theorem Property.isRead_ofData? {p : Property} (h : ofData? rules d = some p) : p.IsRead := by
  refine ⟨isWritten_ofData? h, ?_⟩
  obtain ⟨field, _, h⟩ := Option.bind_eq_some_iff.1 h
  obtain ⟨name, _, h⟩ := Option.bind_eq_some_iff.1 h
  obtain ⟨type, _, h⟩ := Option.bind_eq_some_iff.1 h
  obtain ⟨isStatic, _, h⟩ := Option.bind_eq_some_iff.1 h
  obtain ⟨get, _, h⟩ := Option.bind_eq_some_iff.1 h
  obtain ⟨set, _, h⟩ := Option.bind_eq_some_iff.1 h
  cases h
  rfl

theorem Property.ofData?_toData {p : Property} (h : p.IsRead) :
    ofData? .json p.toData = some p := by
  obtain ⟨name, type, isStatic, get, set, owner⟩ := p
  obtain ⟨type, rfl⟩ := h
  rw [toData, ofData?]
  refine bind_of (FormatRules.fields?_record ["name", "type", "static", "get", "set"] rfl
    (by decide)) ?_
  refine bind_of rfl ?_
  refine bind_of (TypeRef.ofData?_toData type) ?_
  exact bind_of rfl (bind_of rfl (bind_of rfl rfl))

theorem Parameter.ofData?_toData {p : Parameter} (h : p.type.IsWritten) :
    ofData? .json p.toData = some p := by
  rw [toData, ofData?]
  refine bind_of (FormatRules.fields?_record ["name", "type"] rfl (by decide)) ?_
  exact bind_of rfl (bind_of (TypeRef.ofData?_toData h) rfl)

theorem Field.ofData?_toData {f : Field} (h : f.type.IsWritten) :
    ofData? .json f.toData = some f := by
  rw [toData, ofData?]
  refine bind_of (FormatRules.fields?_record ["name", "type"] rfl (by decide)) ?_
  exact bind_of rfl (bind_of (TypeRef.ofData?_toData h) rfl)

structure Method.IsRead (m : Method) : Prop where
  returns : m.returns.IsWritten
  parameters : ∀ p ∈ m.parameters, p.type.IsWritten
  owner : m.owner = ""

theorem Method.isRead_ofData? {m : Method} (h : ofData? rules d = some m) : m.IsRead := by
  obtain ⟨returns, parameters⟩ := isWritten_ofData? h
  refine ⟨returns, parameters, ?_⟩
  obtain ⟨field, _, h⟩ := Option.bind_eq_some_iff.1 h
  obtain ⟨name, _, h⟩ := Option.bind_eq_some_iff.1 h
  obtain ⟨returns, _, h⟩ := Option.bind_eq_some_iff.1 h
  obtain ⟨parameters, _, h⟩ := Option.bind_eq_some_iff.1 h
  obtain ⟨isStatic, _, h⟩ := Option.bind_eq_some_iff.1 h
  cases h
  rfl

theorem Method.ofData?_toData {m : Method} (h : m.IsRead) : ofData? .json m.toData = some m := by
  obtain ⟨name, returns, parameters, isStatic, owner⟩ := m
  obtain ⟨returns, parameters, rfl⟩ := h
  have list := Data.listOf_map fun p hp => Parameter.ofData?_toData (parameters p hp)
  rw [toData, ofData?]
  refine bind_of (FormatRules.fields?_record ["name", "returns", "parameters", "static"] rfl
    (by decide)) ?_
  refine bind_of rfl ?_
  refine bind_of (TypeRef.ofData?_toData returns) ?_
  exact bind_of list (bind_of rfl rfl)

theorem Event.ofData?_toData {e : Event} (h : ∀ type ∈ e.data, type.IsWritten) :
    ofData? .json e.toData = some e := by
  obtain ⟨name, data, cancellable⟩ := e
  cases data with
  | none =>
    rw [toData, ofData?]
    refine bind_of (FormatRules.fields?_record ["name", "cancellable"] rfl (by decide)) ?_
    exact bind_of rfl (bind_of rfl (bind_of rfl rfl))
  | some type =>
    have read : (TypeRef.ofData? type.toData).map some = some (some type) := by
      rw [TypeRef.ofData?_toData (h type rfl)]
      rfl
    rw [toData, ofData?]
    refine bind_of (FormatRules.fields?_record ["name", "data", "cancellable"] rfl (by decide)) ?_
    exact bind_of rfl (bind_of read (bind_of rfl rfl))

theorem Variant.fits_ofData? {v : Variant} (h : ofData? rules d = some v) :
    ∀ i ∈ v.value, fitsInt64 i = true := by
  obtain ⟨field, _, h⟩ := Option.bind_eq_some_iff.1 h
  obtain ⟨name, _, h⟩ := Option.bind_eq_some_iff.1 h
  obtain ⟨value, hvalue, h⟩ := Option.bind_eq_some_iff.1 h
  cases h
  refine Data.of_optional (fun d i read => ?_) hvalue
  obtain ⟨j, _, read⟩ := Option.bind_eq_some_iff.1 read
  split at read
  · rename_i fits
    cases read
    exact fits
  · cases read

theorem Variant.ofData?_toData {v : Variant} (h : ∀ i ∈ v.value, fitsInt64 i = true) :
    ofData? .json v.toData = some v := by
  obtain ⟨name, value⟩ := v
  cases value with
  | none => rfl
  | some i =>
    have read : (Data.int64? (.integer i)).map some = some (some i) := by
      simp [Data.int64?, Data.integer?, h i rfl]
    rw [toData, ofData?]
    refine bind_of (FormatRules.fields?_record ["name", "value"] rfl (by decide)) ?_
    exact bind_of rfl (bind_of read rfl)

end Members

namespace ApiType

variable {rules : FormatRules} {d : Data} {t : ApiType}

structure IsRead (t : ApiType) : Prop where
  properties : ∀ p ∈ t.properties, p.IsRead
  methods : ∀ m ∈ t.methods, m.IsRead
  events : ∀ e ∈ t.events, ∀ type ∈ e.data, type.IsWritten
  fields : ∀ f ∈ t.fields, f.type.IsWritten
  variants : ∀ v ∈ t.variants, ∀ i ∈ v.value, fitsInt64 i = true

theorem isRead_ofData? (h : ofData? rules d = some t) : t.IsRead := by
  have written := isWritten_ofData? h
  obtain ⟨field, _, h⟩ := Option.bind_eq_some_iff.1 h
  obtain ⟨name, _, h⟩ := Option.bind_eq_some_iff.1 h
  obtain ⟨kind, _, h⟩ := Option.bind_eq_some_iff.1 h
  obtain ⟨isAbstract, _, h⟩ := Option.bind_eq_some_iff.1 h
  obtain ⟨flags, _, h⟩ := Option.bind_eq_some_iff.1 h
  obtain ⟨managedServer, _, h⟩ := Option.bind_eq_some_iff.1 h
  obtain ⟨base, _, h⟩ := Option.bind_eq_some_iff.1 h
  obtain ⟨constructor, _, h⟩ := Option.bind_eq_some_iff.1 h
  obtain ⟨destructor, _, h⟩ := Option.bind_eq_some_iff.1 h
  obtain ⟨properties, hproperties, h⟩ := Option.bind_eq_some_iff.1 h
  obtain ⟨methods, hmethods, h⟩ := Option.bind_eq_some_iff.1 h
  obtain ⟨events, _, h⟩ := Option.bind_eq_some_iff.1 h
  obtain ⟨fields, _, h⟩ := Option.bind_eq_some_iff.1 h
  obtain ⟨variants, hvariants, h⟩ := Option.bind_eq_some_iff.1 h
  cases h
  exact {
    properties := Data.forall_of_list (fun _ _ h => Property.isRead_ofData? h) hproperties
    methods := Data.forall_of_list (fun _ _ h => Method.isRead_ofData? h) hmethods
    events := written.events
    fields := written.fields
    variants := Data.forall_of_list (fun _ _ h => Variant.fits_ofData? h) hvariants }

theorem keyword?_kind (k : Kind) :
    FormatRules.json.keyword? Kind.all Kind.keyword (.text k.keyword) = some k := by
  cases k <;> rfl

theorem keyword?_visibility (v : Visibility) :
    FormatRules.json.keyword? Visibility.all Visibility.keyword (.text v.keyword) = some v := by
  cases v <;> rfl

theorem ofData?_toData (h : t.IsRead) : ofData? .json t.toData = some t := by
  have properties := Data.listOf_map fun p hp => Property.ofData?_toData (h.properties p hp)
  have methods := Data.listOf_map fun m hm => Method.ofData?_toData (h.methods m hm)
  have events := Data.listOf_map fun e he => Event.ofData?_toData (h.events e he)
  have fields := Data.listOf_map fun f hf => Field.ofData?_toData (h.fields f hf)
  have variants := Data.listOf_map fun v hv => Variant.ofData?_toData (h.variants v hv)
  obtain ⟨name, kind, isAbstract, flags, managedServer, base, _, _, _, _, _, _, _⟩ := t
  rw [toData, ofData?]
  -- Only what can be missing decides under which keys the rest is found.
  rcases base with _ | base
  on_goal 1 => refine bind_of (FormatRules.fields?_record (keys.erase "base") rfl (by decide)) ?_
  on_goal 2 => refine bind_of (FormatRules.fields?_record keys rfl (by decide)) ?_
  all_goals
    refine bind_of rfl ?_
    refine bind_of (keyword?_kind kind) ?_
    refine bind_of rfl (bind_of rfl (bind_of rfl (bind_of rfl ?_)))
    refine bind_of (keyword?_visibility _) ?_
    refine bind_of (keyword?_visibility _) ?_
    refine bind_of properties (bind_of methods (bind_of events ?_))
    exact bind_of fields (bind_of variants rfl)

end ApiType

section Plain

@[simp] theorem TypeRef.isPlain_toData (t : TypeRef) : t.toData.IsPlain :=
  Data.isPlain_text t.display

theorem Property.isPlain_toData (p : Property) : p.toData.IsPlain := by
  simp [toData]

theorem Parameter.isPlain_toData (p : Parameter) : p.toData.IsPlain := by
  simp [toData]

theorem Method.isPlain_toData (m : Method) : m.toData.IsPlain := by
  simp [toData, Data.arePlain_map Parameter.isPlain_toData]

theorem Event.isPlain_toData (e : Event) : e.toData.IsPlain := by
  cases data : e.data <;> simp [toData, data]

theorem Field.isPlain_toData (f : Field) : f.toData.IsPlain := by
  simp [toData]

theorem Variant.isPlain_toData (v : Variant) : v.toData.IsPlain := by
  cases value : v.value <;> simp [toData, value]

theorem ApiType.isPlain_toData (t : ApiType) : t.toData.IsPlain := by
  cases base : t.base <;>
    simp [toData, base, Data.arePlain_map Property.isPlain_toData,
      Data.arePlain_map Method.isPlain_toData, Data.arePlain_map Event.isPlain_toData,
      Data.arePlain_map Field.isPlain_toData, Data.arePlain_map Variant.isPlain_toData]

theorem Schema.isPlain_toData (s : Schema) : s.toData.IsPlain := by
  simp [toData, Data.arePlain_map ApiType.isPlain_toData]

end Plain

namespace Schema

variable {rules : FormatRules} {d : Data} {s : Schema} {format : Format} {text : String}

def IsRead (s : Schema) : Prop := ∀ t ∈ s.types, t.IsRead

theorem isRead_ofData? (h : ofData? rules d = some s) : s.IsRead := by
  obtain ⟨field, _, h⟩ := Option.bind_eq_some_iff.1 h
  obtain ⟨types, htypes, h⟩ := Option.bind_eq_some_iff.1 h
  cases h
  exact Data.forall_of_list (fun _ _ h => ApiType.isRead_ofData? h) htypes

theorem isRead_of_parse (h : parse format text = .ok s) : s.IsRead := by
  rw [parse] at h
  split at h
  · rename_i read hread
    cases h
    obtain ⟨d, _, hread⟩ := Option.bind_eq_some_iff.1 hread
    exact isRead_ofData? hread
  · cases h

theorem ofData?_toData (h : s.IsRead) : ofData? .json s.toData = some s := by
  have types := Data.listOf_map fun t ht => ApiType.ofData?_toData (h t ht)
  rw [toData, ofData?]
  refine bind_of (FormatRules.fields?_record ["types"] rfl (by decide)) ?_
  exact bind_of types rfl

theorem toData_own (s : Schema) : s.own.toData = s.toData := by
  have members (t : ApiType) : t.own.toData = t.toData := by
    simp [ApiType.toData, ApiType.own, Function.comp_def, Property.toData, Method.toData]
  rw [toData, own, List.map_map]
  exact congrArg (fun types => Data.record [("types", .list types)])
    (List.map_congr_left fun t _ => members t)

theorem parse_write (h : s.IsRead) : parse .json (Json.write s.toData) = .ok s := by
  have read : readData .json (Json.write s.toData) = some s.toData :=
    Json.read_write s.isPlain_toData
  have decoded : ofData? (.ofFormat .json) s.toData = some s := ofData?_toData h
  rw [parse, read, Option.bind_some, decoded]

/-- What is saved of a loaded schema is loaded as that schema, owners, values and defaults
included. -/
theorem load_write (h : load format text = .ok s) : load .json (Json.write s.toData) = .ok s := by
  obtain ⟨raw, hraw, checked⟩ := bind_eq_ok.1 h
  obtain ⟨_, _, owned⟩ := map_eq_ok.1 checked
  rw [← owned] at checked ⊢
  rw [toData_own, load, parse_write (isRead_of_parse hraw)]
  exact checked

def rangesText : String :=
  "\n".intercalate
    ["[[types]]", "name = 'Range'", "kind = 'enum'",
      "variants = [['Low', -9_223_372_036_854_775_808], ['Next']]",
      "[[types]]", "name = 'Scale'", "base = 'Missing'",
      "properties = [['Ranges', ' Range [] ?']]"]

def ranges : Schema where
  types := [
    { name := "Range", kind := .enumType, variants := [⟨"Low", some minInt64⟩, ⟨"Next", none⟩] },
    { name := "Scale"
      base := some "Missing"
      properties := [
        { name := "Ranges", type := .nullable (.array (.named "Range")), owner := "Scale" }] }]

theorem load_write_ranges :
    load .toml rangesText = .ok ranges ∧ load .json (Json.write ranges.toData) = .ok ranges := by
  have loaded : load .toml rangesText = .ok ranges := by decide +kernel
  exact ⟨loaded, load_write loaded⟩

end Schema

end InteropGen
