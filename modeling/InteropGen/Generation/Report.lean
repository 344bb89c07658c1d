import InteropGen.Disk.Path

set_option autoImplicit false

/-!
# Reports

A report lists the planned files with what happened to each.
-/

namespace InteropGen

inductive FileStatus where
  | written
  | unchanged
  /-- A scaffold that was not there. -/
  | created
  /-- A scaffold that was there. -/
  | preserved
  deriving DecidableEq, Repr

namespace FileStatus

def all : List FileStatus := [written, unchanged, created, preserved]

def label : FileStatus → String
  | written => "written"
  | unchanged => "unchanged"
  | created => "created"
  | preserved => "preserved"

def isChange : FileStatus → Bool
  | written => true
  | created => true
  | _ => false

end FileStatus

def padLeft (width : Nat) (text : String) : String :=
  String.ofList (List.replicate (width - text.length) ' ') ++ text

def padRight (width : Nat) (text : String) : String :=
  text ++ String.ofList (List.replicate (width - text.length) ' ')

def cutTo (width : Nat) (text : String) : String := String.ofList (text.toList.take width)

structure Report where
  files : List (Path × FileStatus)
  /-- Nothing was written. -/
  dryRun : Bool
  deriving DecidableEq, Repr

namespace Report

def count (r : Report) (status : FileStatus) : Nat := r.files.countP fun f => f.2 = status

def changed (r : Report) : List Path := (r.files.filter fun f => f.2.isChange).map Prod.fst

def statusOf? (r : Report) (p : Path) : Option FileStatus :=
  (r.files.find? fun f => f.1.same p).map Prod.snd

end Report

end InteropGen
