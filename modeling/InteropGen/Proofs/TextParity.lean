import InteropGen.Proofs.ShimText
import InteropGen.Proofs.WrapperText
import InteropGen.Schema.Validation

set_option autoImplicit false

/-!
# Parity of what the files say

The symbols of a class can be read off its two files, and both readings are the export table, as long
as the name of the native module stays on its line.
-/

namespace InteropGen

open Text

variable {c : Config} {s : Schema} {t : ApiType} {slots : Option SlotTable} {exports : ExportTable}

/-- Shim and wrapper report the symbols of the export table, and so do the texts of their files.  The
name of the native module stands in the wrapper as it is configured, so it has to be one line. -/
theorem Plan.symbols_agree {shim : Shim} {w : Wrapper} (ht : t ∈ s.types)
    (slots_ok : t.slotTable = .ok slots) (exports_ok : ExportTable.build s t = .ok exports)
    (shim_ok : Shim.ofClass s t exports = .ok shim)
    (wrapper_ok : Wrapper.ofClass s t exports slots = .ok w) :
    shim.symbols = exports.symbols ∧ w.symbols = exports.symbols ∧
      (∀ typeName cabi binding,
        Plan.build c s ≠ .error (.symbolMismatch typeName cabi binding)) ∧
      (s.HasIdentifiers → c.HasLineNames → IsOneLine c.managed.nativeModule →
        exportedSymbols (c.generatedFile shim.code) = exports.symbols ∧
          importedSymbols (c.generatedFile (w.code c)) = exports.symbols) := by
  have exported := Shim.symbols_ofClass exports_ok shim_ok
  have imported := Wrapper.symbols_ofClass exports_ok wrapper_ok
  refine ⟨exported, imported, fun typeName cabi binding failed => ?_,
    fun names lineNames oneLine => ⟨?_, ?_⟩⟩
  · exact Plan.neverMismatched_build c s _ failed trivial
  · obtain ⟨type, readable⟩ := Shim.isReadable_ofClass names ht exports_ok shim_ok
    have header : IsOneLine shim.type.header := by
      rw [type]
      exact isOneLine_append.2 ⟨(names.isWord_name ht).isOneLine, by decide⟩
    rw [Shim.exportedSymbols_generatedFile header readable, exported]
  · rw [Wrapper.importedSymbols_generatedFile lineNames names ht exports_ok slots_ok
      (Wrapper.parts_of_ofClass wrapper_ok) oneLine, imported]

theorem Schema.hasIdentifiers_drawing : Schema.drawing.HasIdentifiers := by
  intro t ht
  simp only [drawing, List.mem_cons, List.not_mem_nil, or_false] at ht
  rcases ht with rfl | rfl | rfl
  · exact ⟨by decide, by decide, by decide, by decide, by decide, by decide, by decide⟩
  · exact ⟨by decide, by decide, by decide, by decide, by decide, by decide, by decide⟩
  · exact ⟨by decide, by decide, by decide, by decide, by decide, by decide, by decide⟩

theorem Config.hasLineNames_default : ({} : Config).HasLineNames := ⟨by decide, by decide⟩

theorem Plan.symbols_agree_canvas :
    ∃ exports shim w, ExportTable.build Schema.drawing ApiType.canvas = .ok exports ∧
      Shim.ofClass Schema.drawing ApiType.canvas exports = .ok shim ∧
      exports.symbols.length = 8 ∧
      exportedSymbols (Config.generatedFile {} shim.code) = exports.symbols ∧
      importedSymbols (Config.generatedFile {} (Wrapper.code {} w)) = exports.symbols := by
  obtain ⟨files, plan⟩ := Plan.build_drawing {}
  obtain ⟨a, ok, _⟩ := Plan.class_of_build plan ApiType.canvas_mem
  obtain ⟨slots, exports, parts⟩ := ClassArtifacts.parts_of_build ok
  have ht : ApiType.canvas ∈ Schema.drawing.types := (Schema.mem_classes.1 ApiType.canvas_mem).1
  obtain ⟨_, _, _, texts⟩ := Plan.symbols_agree (c := {}) ht parts.slots_ok parts.exports_ok
    parts.shim_ok parts.wrapper_ok
  obtain ⟨exported, imported⟩ :=
    texts Schema.hasIdentifiers_drawing Config.hasLineNames_default (by decide)
  refine ⟨exports, a.shim, a.wrapper, parts.exports_ok, parts.shim_ok, ?_, exported, imported⟩
  have exports_ok := parts.exports_ok
  cases exports_ok
  rfl

/-- The constant of a native module whose name has more lines. -/
theorem Imports.toList_moduleName {first line rest : String}
    (module_eq : c.managed.nativeModule = first ++ "\n" ++ line ++ "\n" ++ rest) :
    (moduleName c).toList = ("private const string NativeModuleName = \"".toList ++ first.toList) ++
      '\n' :: (line.toList ++ '\n' :: (rest.toList ++ "\";".toList)) := by
  change ("private const string NativeModuleName = \"" ++ c.managed.nativeModule ++
    "\";").toList = _
  rw [module_eq]
  simp only [String.toList_append, List.append_assoc]
  rfl

theorem Wrapper.mem_texts_moduleName (w : Wrapper) : Imports.moduleName c ∈ (w.code c).texts := by
  rw [texts_code, Imports.texts_code]
  simp

/-- A name of the native module with more lines shows its own imports. -/
theorem Wrapper.mem_importedSymbols {w : Wrapper} {first line rest symbol : String}
    (module_eq : c.managed.nativeModule = first ++ "\n" ++ line ++ "\n" ++ rest)
    (oneLine : IsOneLine line) (h : importSymbol? (trimLeft line.toList) = some symbol) :
    symbol ∈ importedSymbols (c.generatedFile (w.code c)) := by
  have mem := Config.mem_fileLines_of_text (c := c) w.mem_texts_moduleName
    (Imports.toList_moduleName module_eq) oneLine
  exact List.mem_filterMap.2 ⟨_, List.mem_map_of_mem mem, h⟩

def Config.splitModule : Config where
  managed := { nativeModule := "A\npublic static extern void B();\nC" }

theorem Plan.importedSymbols_splitModule :
    Config.splitModule.validate = .ok () ∧ Schema.ofTypes [.lone] = .ok Schema.lone ∧
      Schema.lone.HasIdentifiers ∧
      ∃ exports shim w, ApiType.lone.slotTable = .ok none ∧
        ExportTable.build Schema.lone .lone = .ok exports ∧
        Shim.ofClass Schema.lone .lone exports = .ok shim ∧
        Wrapper.ofClass Schema.lone .lone exports none = .ok w ∧
        exports.symbols = ["W_Create/0", "W_Destroy/1"] ∧
        "B/0" ∈ importedSymbols (Config.splitModule.generatedFile (w.code Config.splitModule)) := by
  refine ⟨rfl, rfl, ?_, _, _, _, rfl, rfl, rfl, rfl, by decide, ?_⟩
  · exact List.forall_mem_singleton.2
      ⟨by decide, by decide, by decide, by decide, by decide, by decide, by decide⟩
  · have module_eq : Config.splitModule.managed.nativeModule =
        "A" ++ "\n" ++ "public static extern void B();" ++ "\n" ++ "C" := by decide
    exact Wrapper.mem_importedSymbols module_eq (by decide) (by decide)

end InteropGen
