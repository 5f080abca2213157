import ScriptSession.Files.Tree
import ScriptSession.Web

/-!
# The host

What a program finds around it: files, a working directory, an environment and the web. The
operations on files are those of the file tree, seen from the working directory.
-/

namespace ScriptSession

/-- Files, a working directory, environment variables and the addresses of the web that answer. -/
structure Host where
  files : Files.Tree
  cwd : Files.Place
  environment : List (String × String)
  web : List (String × Web.Exchange)

namespace Host

/-- The value of an environment variable. -/
def environmentValue? (h : Host) (name : String) : Option String :=
  (h.environment.find? fun v => v.1 = name).map (·.2)

/-- The working directory as a path. -/
def directory (h : Host) : Path := Path.ofNames h.cwd

/-- A path made absolute without looking at the files. -/
def absolute (h : Host) (p : Path) : Path := if p.isAbsolute then p else h.directory.join p.text

/-- The value of an environment variable that is set to something. -/
def environmentText? (h : Host) (name : String) : Option String :=
  match h.environmentValue? name with
  | some "" => none
  | v => v

/-! ## Places of a user -/

/-- The home directory. -/
def home (h : Host) : Path := ⟨(h.environmentText? "HOME").getD "/root"⟩

/-- A base directory of the user: a variable that holds an absolute path, or a place below the
home directory. -/
def userDirectory (h : Host) (name : String) (below : List String) : Path :=
  match h.environmentText? name with
  | some text => if (Path.mk text).isAbsolute then ⟨text⟩ else h.home.joinAll below
  | none => h.home.joinAll below

/-- The name of the program's own directories. -/
def applicationName : String := "rivet"

/-- Where the user's configuration of this program lies. Unlike the other places this one takes
a relative path from its variable as it is. -/
def configDirectory? (h : Host) : Option Path :=
  match h.environmentText? "XDG_CONFIG_HOME" with
  | some text => some ((Path.mk text).join applicationName)
  | none => (h.environmentText? "HOME").map fun home =>
    ((Path.mk home).join ".config").join applicationName

/-- Where the user's cache of this program lies. -/
def cacheDirectory (h : Host) : Path :=
  (h.userDirectory "XDG_CACHE_HOME" [".cache"]).join applicationName

/-- Where the user's data of this program lies. -/
def dataDirectory (h : Host) : Path :=
  (h.userDirectory "XDG_DATA_HOME" [".local", "share"]).join applicationName

/-! ## The web -/

/-- How a request for an address goes. -/
def request (h : Host) (url : String) : Web.Exchange :=
  ((h.web.find? fun a => a.1 = url).map (·.2)).getD (Web.unreachable url)

/-! ## Files -/

/-- Whether a path leads to something. -/
def pathExists (h : Host) (p : Path) : Bool := Files.pathExists h.files h.cwd p

/-- Whether a path leads to a file. -/
def isFile (h : Host) (p : Path) : Bool := Files.isFile h.files h.cwd p

/-- Whether a path leads to a directory. -/
def isDirectory (h : Host) (p : Path) : Bool := Files.isDirectory h.files h.cwd p

/-- A path without links and detours, from the root on. -/
def canonical (h : Host) (p : Path) : Except Files.Failure Path :=
  Files.canonical h.files h.cwd p

/-- The bytes of a file. -/
def read (h : Host) (p : Path) : Except Files.Failure ByteArray := Files.read h.files h.cwd p

/-- The text of a file; a file whose bytes are no text cannot be read so. -/
def readText (h : Host) (p : Path) : Except Files.Failure String :=
  Files.readText h.files h.cwd p

/-- The files at and below a path, with their sizes, each seen from that path. -/
def filesBelow (h : Host) (p : Path) : List (Path × Nat) :=
  match Files.entry h.files h.cwd p with
  | .error _ => []
  | .ok (place, _) =>
    (h.files.filesBelow place).map fun (q, size) => (p.joinAll (q.drop place.length), size)

/-- The host with its files replaced. -/
def withFiles (h : Host) (files : Files.Tree) : Host := { h with files }

/-- Write a file. Its directory has to be there. -/
def write (h : Host) (p : Path) (content : ByteArray) : Except Files.Failure Host :=
  (Files.write h.files h.cwd p content).map h.withFiles

/-- Create a directory and those it is in, or none of them. -/
def createDirectories (h : Host) (p : Path) : Except Files.Failure Host :=
  (Files.createDirectories h.files h.cwd p).map h.withFiles

/-- Create a directory and those it is in, as far as that is possible: what ended it early. -/
def makeDirectories (h : Host) (p : Path) : Option Files.Failure × Host :=
  let (failure, files) := Files.makeDirectories h.files h.cwd p
  (failure, h.withFiles files)

/-- Write a staging file in a directory: its place. -/
def stage (h : Host) (directory : Path) (content : ByteArray) :
    Except Files.Failure (Files.Place × Host) :=
  (Files.stage h.files h.cwd directory content).map fun s => (s.1, h.withFiles s.2)

/-- Move a staging file to a path, over the file that may be there. -/
def persist (h : Host) (staged : Files.Place) (p : Path) : Except Files.Failure Host :=
  (Files.rename h.files h.cwd staged p).map h.withFiles

/-- Remove a staging file. -/
def discard (h : Host) (staged : Files.Place) : Host := h.withFiles (h.files.erase staged)

/-- Remove a file. -/
def removeFile (h : Host) (p : Path) : Except Files.Failure Host :=
  (Files.removeFile h.files h.cwd p).map h.withFiles

/-- Remove a directory with all that is in it. -/
def removeDirectory (h : Host) (p : Path) : Except Files.Failure Host :=
  (Files.removeDirectory h.files h.cwd p).map h.withFiles

/-! ## Setting up -/

/-- A host with nothing but an empty working directory, and without the web. -/
def empty (cwd : Files.Place) : Host :=
  let places := (List.range cwd.length).map fun n => cwd.take (n + 1)
  ⟨places.foldl (fun files p => files.put p .directory) .empty, cwd, [], []⟩

/-- The host after a change, or as it was if the change cannot be made. -/
def attempt (h : Host) (change : Host → Except Files.Failure Host) : Host :=
  (change h).toOption.getD h

/-- Write a file, creating the directories it is in. -/
def put (h : Host) (p : Path) (content : ByteArray) : Host :=
  (p.parent?.elim h fun d => h.attempt (·.createDirectories d)).attempt (·.write p content)

/-- Set or remove an environment variable. -/
def setVariable (h : Host) (name : String) (value : Option String) : Host :=
  let others := h.environment.filter fun v => v.1 ≠ name
  { h with environment := others ++ (value.map fun v => (name, v)).toList }

end Host
end ScriptSession
