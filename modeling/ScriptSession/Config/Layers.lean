import ScriptSession.Config.Decoding
import ScriptSession.Script.Value
import ScriptSession.Text.Utf8
import ScriptSession.Toml.Document

/-!
# Layers of configuration

Settings are put together from layers. A later layer wins over an earlier one, setting by
setting: tables are merged and everything else is replaced. The layers are the built-in defaults,
the file of the user, the file of the workspace, the file of the workspace for the environment,
and the variables whose names start with the program's name.
-/

namespace ScriptSession
namespace Config

/-! ## Merging -/

/-- Set a field of a table. -/
def setEntry (name : String) (v : Toml.Value) :
    List (String × Toml.Value) → List (String × Toml.Value)
  | [] => [(name, v)]
  | (other, w) :: rest =>
    if other = name then (name, v) :: rest else (other, w) :: setEntry name v rest

/-- The fields of a value; none when it is no table. -/
def entriesOf (v : Toml.Value) : List (String × Toml.Value) := (tableFields? v).getD []

mutual

/-- A value over another one. An empty table changes nothing, whatever was there. -/
def overlaid (old : Toml.Value) : Toml.Value → Toml.Value
  | .table [] => old
  | .table fields => .table (mergeFields (entriesOf old) fields)
  | v => v

/-- Fields over other fields. -/
def mergeFields (old : List (String × Toml.Value)) :
    List (String × Toml.Value) → List (String × Toml.Value)
  | [] => old
  | (name, v) :: rest =>
    let before := ((old.find? fun f => f.1 = name).map (·.2)).getD (.table [])
    mergeFields (setEntry name (overlaid before v) old) rest

end

/-- A table that holds a value at the end of a path of names. -/
def atPath (path : List String) (v : Toml.Value) : Toml.Value :=
  path.foldr (fun name v => .table [(name, v)]) v

/-- Whether a character can be in a name of a path. -/
def isNameChar (c : Char) : Bool := c.isAlphanum || c = '_' || c = '-'

/-- The path a key of a layer stands for: the names between its points, or the key itself where
they are no names. -/
def keyPath (key : String) : List String :=
  let names := (key.toList.splitOn '.').map String.ofList
  if names.all fun name => !name.isEmpty && name.toList.all isNameChar then names else [key]

/-- A layer over the ones before it. -/
def onTop (below : Toml.Value) (layer : List (String × Toml.Value)) : Toml.Value :=
  layer.foldl (fun below (key, v) => overlaid below (atPath (keyPath key) v)) below

/-! ## Layers -/

/-- The first layer. -/
def builtIn : List (String × Toml.Value) := [
  ("session.use_manifest_resolution", .bool false),
  ("session.resolver", .text "manifest_file"),
  ("session.include_local_build_output", .bool true),
  ("session.build_output_dirs", .array (defaultBuildOutputDirs.map .text)),
  ("session.autorun_global", .bool true),
  ("session.autorun_project", .bool true),
  ("session.watch_manifest", .bool false)]

/-- The file a layer is read from: the one of that name, or the one with the usual extension. -/
def layerFile? (host : Host) (path : Path) : Option Path :=
  if host.isFile path then some path
  else
    let other : Path := ⟨path.text ++ ".toml"⟩
    if host.isFile other then some other else none

/-- The text of a layer. Bytes that are no text are read as replacement characters. -/
def layerText? (host : Host) (path : Path) : Option String := do
  some (Text.ofBytesLossy (← (host.read (← layerFile? host path)).toOption))

/-- A layer that has to be there. -/
def requiredLayer? (host : Host) (path : Path) : Option (List (String × Toml.Value)) := do
  tableFields? (← Toml.parse (← layerText? host path))

/-- A layer that may be missing or unreadable, but not malformed. -/
def optionalLayer? (host : Host) (path : Path) : Option (List (String × Toml.Value)) :=
  match layerText? host path with
  | none => some []
  | some text => (Toml.parse text).bind tableFields?

/-! ## Variables -/

/-- The text behind the start of another one. -/
def behindStart? (start s : List Char) : Option (List Char) :=
  if start.isPrefixOf s then some (s.drop start.length) else none

/-- Points in place of doubled underscores. -/
def pointed : List Char → List Char
  | [] => []
  | '_' :: '_' :: rest => '.' :: pointed rest
  | c :: rest => c :: pointed rest

/-- The key a variable stands for. -/
def variableKey? (name : String) : Option String :=
  (behindStart? "rivet_".toList name.toLower.toList).map fun rest => String.ofList (pointed rest)

/-- A number with a point or an exponent, or one of the names for what is no ordinary number. -/
def floatText? (s : String) : Option Float :=
  let cs := s.toLower.toList
  let negative := cs.head? = some '-'
  let body := match cs with
    | '+' :: rest | '-' :: rest => rest
    | cs => cs
  if ["inf", "infinity"].contains (String.ofList body) then
    some (if negative then -1.0 / 0.0 else 1.0 / 0.0)
  else if body = "nan".toList then some (0.0 / 0.0)
  else
    let whole := body.takeWhile Char.isDigit
    let behind := body.drop whole.length
    let fraction := match behind with
      | '.' :: rest => rest.takeWhile Char.isDigit
      | _ => []
    let behind := match behind with
      | '.' :: rest => rest.drop fraction.length
      | rest => rest
    let exponent := match behind with
      | 'e' :: '+' :: rest | 'e' :: '-' :: rest | 'e' :: rest => rest
      | _ => ['0']
    let ends := match behind with
      | [] => true
      | 'e' :: _ => !exponent.isEmpty && exponent.all Char.isDigit
      | _ => false
    if !(whole.isEmpty && fraction.isEmpty) && ends then some (Decimal.ofLiteral cs) else none

/-- A whole number with an optional sign. -/
def signedInt? (s : String) : Option Int :=
  match s.toList with
  | '+' :: rest => if rest.head?.any Char.isDigit then (String.ofList rest).toInt? else none
  | cs => if cs.any (· = '_') then none else s.toInt?

/-- The value of a variable: a truth value or a number when it reads like one. -/
def variableValue (s : String) : Toml.Value :=
  if s.toLower = "true" then .bool true
  else if s.toLower = "false" then .bool false
  else
    match signedInt? s with
    | some n =>
      if Script.Value.fits n then .int n else .float (Decimal.ofLiteral s.toList)
    | none => (floatText? s).elim (.text s) .float

/-- The layer of variables. -/
def variableLayer (host : Host) : List (String × Toml.Value) :=
  host.environment.filterMap fun (name, value) =>
    (variableKey? name).map fun key => (key, variableValue value)

/-! ## Loading -/

/-- The layer of a file that counts only when it is there. -/
def layerIfThere? (host : Host) (path : Path) : Option (List (String × Toml.Value)) :=
  if host.pathExists path then optionalLayer? host path else some []

/-- The layer of the user's file. -/
def globalLayer? (host : Host) : Option (List (String × Toml.Value)) :=
  match globalFile? host with
  | none => some []
  | some path => layerIfThere? host ((host.canonical path).toOption.getD path)

/-- The name of the environment, for the file of that name. -/
def environmentName (host : Host) : String :=
  (host.environmentValue? "RIVET_ENV").getD "development"

/-- The layers of a workspace, the first one first. -/
def layers? (host : Host) (workspace : Path) : Option (List (List (String × Toml.Value))) := do
  let dir := workspace.join "config"
  some [builtIn, ← globalLayer? host, ← layerIfThere? host (dir.join "config.toml"),
    ← layerIfThere? host (dir.join (environmentName host ++ ".toml")), variableLayer host]

/-- The settings of a workspace; nothing when a layer is malformed or a setting is. -/
def load? (host : Host) (workspace : Path) : Option Settings := do
  loose.settings? host ((← layers? host workspace).foldl onTop (.table []))

/-- The settings of a single file over the defaults; nothing when there is no such file, or when
it or a setting is malformed. -/
def loadFile? (host : Host) (path : Path) : Option Settings := do
  loose.settings? host ([builtIn, ← requiredLayer? host path].foldl onTop (.table []))

end Config
end ScriptSession
