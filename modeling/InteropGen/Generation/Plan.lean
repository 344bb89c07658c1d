import InteropGen.Generation.Artifacts
import InteropGen.Log
import InteropGen.Managed.ObjectBase
import InteropGen.Native.Support

set_option autoImplicit false

/-!
# Plans

A plan is the list of files to produce, with their contents.  Generated files are owned by the
generator; scaffolds are created once for the user to edit.
-/

namespace InteropGen

inductive FileKind where
  | generated
  | scaffold
  deriving DecidableEq, Repr

structure PlannedFile where
  path : Path
  kind : FileKind
  content : String
  deriving DecidableEq, Repr

namespace Config

def apiDir (c : Config) : Path := c.native.dir.child "Api"

def generated (c : Config) (dir : Path) (name : String) (code : Code) : PlannedFile :=
  ⟨dir.child name, .generated, c.generatedFile code⟩

def scaffold (c : Config) (dir : Path) (name : String) (code : Code) : PlannedFile :=
  ⟨dir.child name, .scaffold, c.scaffoldFile code⟩

end Config

def ClassArtifacts.files (c : Config) (s : Schema) (a : ClassArtifacts) : List PlannedFile :=
  let name := a.type.name
  [c.generated c.apiDir (name ++ ".Api.h") a.shim.code,
    c.generated c.apiDir (name ++ ".inc") a.fragment.code,
    c.generated c.managed.dir (name ++ ".cs") (a.wrapper.code c),
    c.scaffold c.native.dir (name ++ ".h") (Scaffold.header s a.type),
    c.scaffold c.native.dir (name ++ ".cpp") (Scaffold.sourceCode a.type a.definitions)]

def TypeArtifacts.files (c : Config) (a : TypeArtifacts) : List PlannedFile :=
  [c.generated c.apiDir "ApiSupport.h" (NativeSupport.code c),
    c.generated c.apiDir "ApiTypes.h" a.native.code,
    c.generated c.managed.dir "NativeTypes.cs" (a.managed.code c),
    c.generated c.managed.dir (c.managed.objectClass ++ ".cs") (ObjectBase.code c)]

namespace Artifacts

def files (c : Config) (a : Artifacts) : List PlannedFile :=
  a.types.files c ++ a.classes.flatMap (ClassArtifacts.files c a.schema) ++
    [c.generated c.native.dir "Api.cpp" (aggregateCode a.schema)]

end Artifacts

namespace Plan

def build (c : Config) (s : Schema) : Except Failure (List PlannedFile) :=
  (Artifacts.build s).map (Artifacts.files c)

/-- A base that is not a class is reported and ignored. -/
def ignoredBase (s : Schema) (t : ApiType) : List LogEvent :=
  match t.base, s.baseOf t with
  | some base, none =>
    [⟨.warn, "Base is not an API class; ignoring it", [("type_name", t.name), ("base", base)]⟩]
  | _, _ => []

def classEvent (t : ApiType) (tables : ClassTables) : LogEvent :=
  ⟨.debug, "Planning type",
    [("type_name", t.name), ("exports", toString tables.exports.size),
      ("slots", toString ((tables.slots.map SlotTable.size).getD 0))]⟩

/-- What is logged while classes are planned one after the other, up to the first failure. -/
def classEvents (s : Schema) : List ApiType → List LogEvent
  | [] => []
  | t :: ts =>
    ignoredBase s t ++
      match ClassTables.build s t with
      | .error _ => []
      | .ok tables =>
        classEvent t tables ::
          match ClassArtifacts.ofTables s t tables with
          | .error _ => []
          | .ok _ => classEvents s ts

def events (s : Schema) : List LogEvent :=
  match TypeArtifacts.build s with
  | .error _ => []
  | .ok _ => classEvents s s.classes

end Plan

end InteropGen
