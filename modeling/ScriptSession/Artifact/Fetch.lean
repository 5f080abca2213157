import ScriptSession.Artifact.Address
import ScriptSession.Artifact.Repository

/-!
# Fetching artifacts

A repository is asked for the bytes of a coordinate. That it does not have them is an answer,
after which the next repository is asked; that it could not be asked is a failure.
-/

namespace ScriptSession
namespace Artifact

/-- What a repository answers: bytes, nothing, or that it could not be asked. -/
abbrev FetchAnswer := Except Failure (Option ByteArray)

/-- The address of an artifact below the address of its repository. -/
def artifactUrl (base : String) (c : Coordinate) : String :=
  String.ofList ((base.toList.reverse.dropWhile (· = '/')).reverse) ++ "/" ++ c.urlPath

/-- Ask a repository in the file system. -/
def fetchLocal (host : Host) (r : Repository) (root : Path) (c : Coordinate) : FetchAnswer :=
  let path := root.join c.relativePath.text
  if !host.isFile path then .ok none
  else
    match host.read path with
    | .ok bytes => .ok (some bytes)
    | .error e => .error (.fetch c r.id ("Failed to read " ++ path.text ++ ": " ++ e.message))

/-- What is said about an error of a request. -/
def faultMessage (e : Web.Fault) : String :=
  if e.isTimeout then "Request timeout: " ++ e.text
  else if e.isConnect then "Connection error: " ++ e.text
  else "HTTP error: " ++ e.text

/-- Send a request. An address that names no host of the web fails before it is sent. -/
def send (host : Host) (url : String) : Web.Exchange :=
  match Address.parse url with
  | .error reason => .error ⟨false, false, "builder error: " ++ reason⟩
  | .ok (.foreign text) =>
    .error ⟨false, false, "builder error for url (" ++ text ++ "): URL scheme is not allowed"⟩
  | .ok (.web _) => host.request url

/-- Ask a remote repository. Only the status of something that is not there says that the
repository lacks the artifact. -/
def fetchRemote (host : Host) (r : Repository) (c : Coordinate) : FetchAnswer :=
  let url := artifactUrl r.address c
  let failed (message : String) : FetchAnswer := .error (.fetch c r.id message)
  match send host url with
  | .error e => failed (faultMessage e)
  | .ok answer =>
    if answer.status = .notFound then .ok none
    else if answer.status.isSuccess then
      match answer.body with
      | .ok bytes => .ok (some bytes)
      | .error e => failed (faultMessage e)
    else failed ("Request for " ++ url ++ " failed with status " ++ answer.status.text)

/-- Ask a repository of either kind. -/
def fetch (host : Host) (r : Repository) (c : Coordinate) : FetchAnswer :=
  match r.localPath? with
  | some root => fetchLocal host r root c
  | none => fetchRemote host r c

end Artifact
end ScriptSession
