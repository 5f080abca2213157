import ScriptSession.Artifact.Failure
import ScriptSession.Host
import ScriptSession.Json.Reader
import ScriptSession.Json.Writer

/-!
# Repositories

A repository is a place artifacts are fetched from: an id that is unique in its list, a kind of
layout and an address. Lists of repositories are kept as JSON. A text that is not such a list
counts as no configuration at all, never as half of one.
-/

namespace ScriptSession
namespace Artifact

/-- A declared repository. -/
structure Repository where
  id : String
  kind : String
  address : String
deriving DecidableEq, Repr, Inhabited

namespace Repository

/-- The kind of a repository that declares none. -/
def defaultKind : String := "default"

/-- The rest of a text behind a given start. -/
def behind? (start s : String) : Option String :=
  if start.toList.isPrefixOf s.toList then
    some (String.ofList (s.toList.drop start.toList.length))
  else none

/-- The directory of a repository in the file system. -/
def localPath? (r : Repository) : Option Path :=
  ((behind? "file://" r.address).or (behind? "file:" r.address)).map Path.mk

/-! ## The default list -/

/-- The address of the public repository. -/
def centralAddress : String := "https://repo1.maven.org/maven2/"

/-- The repositories of a user who configured none: the one in the home directory, then the
public one. -/
def defaults (host : Host) : List Repository :=
  let local_ := (host.home.join ".m2").join "repository"
  [⟨"local", defaultKind, "file:" ++ local_.text⟩, ⟨"central", defaultKind, centralAddress⟩]

/-! ## JSON -/

/-- A repository as JSON. -/
def toJson (r : Repository) : Json.Value :=
  .record [("id", .ofString r.id), ("kind", .ofString r.kind), ("address", .ofString r.address)]

/-- The kept form of a list of repositories. -/
def listText (rs : List Repository) : String := (Json.Value.array (rs.map toJson)).pretty

/-- The one value of a field. A field that occurs twice makes its object invalid; a field that
is missing is `none`. -/
def uniqueField (name : String) (fields : List (Option String × Json.Value)) :
    Option (Option Json.Value) :=
  match fields.filter fun f => f.1 = some name with
  | [] => some none
  | [(_, v)] => some (some v)
  | _ => none

/-- A repository from JSON: an object with an id, an address and perhaps a kind, or an array of
the three texts. Other fields of an object do not matter, unless their names are no texts. -/
def ofJson? : Json.Value → Option Repository
  | .object fields => do
    if fields.any fun f => f.1.isNone then none
    let id ← (← uniqueField "id" fields)
    let kind ← uniqueField "kind" fields
    let address ← (← uniqueField "address" fields)
    let kind ← match kind with
      | some v => v.string?
      | none => some defaultKind
    some ⟨← id.string?, kind, ← address.string?⟩
  | .array [id, kind, address] => do
    some ⟨← id.string?, ← kind.string?, ← address.string?⟩
  | _ => none

/-- A list of repositories from its kept form. -/
def parseList? (text : String) : Option (List Repository) := do
  (← (← Json.parse text).items?).mapM ofJson?

/-- A list of repositories from its kept form, or the default list. -/
def parseListOrDefault (host : Host) (text : String) : List Repository :=
  (parseList? text).getD (defaults host)

end Repository
end Artifact
end ScriptSession
