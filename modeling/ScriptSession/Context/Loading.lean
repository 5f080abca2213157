import ScriptSession.Artifact.Resolution

/-!
# Loading scopes

Where the modules of a context come from: directories and resolved artifacts in order, each
once. The first location that has a module provides it. A directory answers to the path of a
module file below it and to nothing outside; an artifact answers to its name and to its
coordinate.
-/

namespace ScriptSession
namespace Context

open Artifact (CodeLocation)

/-- Code locations in order. -/
structure LoadingScope where
  locations : List CodeLocation
deriving Repr, Inhabited

namespace LoadingScope

/-! ## Building -/

/-- No locations. -/
def empty : LoadingScope := ⟨[]⟩

/-- Directories as they are given, repetitions included. -/
def ofDirectories (dirs : List Path) : LoadingScope := ⟨dirs.map .directory⟩

/-- Add a location, unless it is there already. -/
def push (s : LoadingScope) (l : CodeLocation) : LoadingScope :=
  if s.locations.any (·.same l) then s else ⟨s.locations ++ [l]⟩

/-- Add locations one after the other. -/
def extend (s : LoadingScope) (ls : List CodeLocation) : LoadingScope := ls.foldl push s

/-! ## Finding modules -/

/-- A name that stays below the directory it is looked up in: no parent, no root. -/
def isContained (name : String) : Bool :=
  !name.isEmpty && (Path.mk name).components.all fun c =>
    match c with
    | .normal _ | .current => true
    | .root | .parent => false

/-- The file of a module below a directory. The extension is added when it is not there. -/
def moduleFile (dir : Path) (name : String) : Path :=
  let path := dir.join name
  if path.extension? = some Artifact.moduleExtension then path
  else path.withFileName (path.fileName?.getD "" ++ "." ++ Artifact.moduleExtension)

/-- The file a single location has for a module. -/
def findIn (host : Host) (name : String) : CodeLocation → Option Path
  | .directory dir =>
    if isContained name && host.isFile (moduleFile dir name) then some (moduleFile dir name)
    else none
  | .artifact c path =>
    if (c.artifact = name ∨ c.text = name) ∧ host.isFile path then some path else none

/-- The file of a module: that of the first location that has one. -/
def findModule (s : LoadingScope) (host : Host) (name : String) : Option Path :=
  s.locations.findSome? (findIn host name)

end LoadingScope
end Context
end ScriptSession
