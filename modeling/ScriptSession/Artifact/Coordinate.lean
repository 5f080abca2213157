import ScriptSession.Json.Value
import ScriptSession.Path

/-!
# Coordinates

An artifact is named by group, artifact and version. The name decides where the artifact lies
below a repository or a cache: one directory per part of the group, one for the artifact, one
for the version, and in it a file named after both.

Parsing accepts only segments made of non-empty parts, so that the place of a parsed coordinate
is always strictly below the directory it is joined to. Coordinates can also be made of any three
texts; nothing is promised about the places of those.
-/

namespace ScriptSession
namespace Artifact

/-- The extension of module files. -/
def moduleExtension : String := "rhai"

/-- The name of an artifact. -/
structure Coordinate where
  group : String
  artifact : String
  version : String
deriving DecidableEq, Repr, Inhabited

namespace Coordinate

/-! ## Texts and places -/

/-- The coordinate as people write it. -/
def text (c : Coordinate) : String := c.group ++ ":" ++ c.artifact ++ ":" ++ c.version

/-- The directory of the artifact, relative to a repository. -/
def directory (c : Coordinate) : Path :=
  (Path.mk "").joinAll (Text.splitOn '.' c.group ++ [c.artifact, c.version])

/-- The name of the artifact's file. -/
def fileName (c : Coordinate) : String :=
  c.artifact ++ "-" ++ c.version ++ "." ++ moduleExtension

/-- The place of the artifact, relative to a repository. -/
def relativePath (c : Coordinate) : Path := c.directory.join c.fileName

/-- The place of the artifact below the address of a repository. -/
def urlPath (c : Coordinate) : String :=
  "/".intercalate (Text.splitOn '.' c.group) ++ "/" ++ c.artifact ++ "/" ++ c.version ++ "/" ++
    c.fileName

/-! ## Parsing -/

/-- The characters a segment may hold besides the dots between its parts. -/
def isPartChar (c : Char) : Bool := c.isAlphanum || c == '-' || c == '_'

/-- A segment: parts of the allowed characters between dots, none of them empty. -/
def isSegment (s : String) : Bool :=
  (Text.splitChars '.' s.toList).all fun part => !part.isEmpty && part.all isPartChar

/-- Read a coordinate. Blanks around it do not count. -/
def parse? (s : String) : Option Coordinate :=
  match Text.splitOn ':' (Text.trim s) with
  | [group, artifact, version] =>
    if isSegment group && isSegment artifact && isSegment version then
      some ⟨group, artifact, version⟩
    else none
  | _ => none

/-! ## Documents -/

/-- A coordinate in a document is its text. -/
def toJson (c : Coordinate) : Json.Value := .ofString c.text

/-- A coordinate from a document: a text that can be read as one. -/
def ofJson? (v : Json.Value) : Option Coordinate := v.string?.bind parse?

/-! ## Order -/

/-- Coordinates in the order of group, artifact and version. -/
def le (a b : Coordinate) : Bool :=
  if a.group ≠ b.group then a.group < b.group
  else if a.artifact ≠ b.artifact then a.artifact < b.artifact
  else a.version ≤ b.version

/-- A list of coordinates in order. -/
def sort (cs : List Coordinate) : List Coordinate := cs.mergeSort le

end Coordinate
end Artifact
end ScriptSession
