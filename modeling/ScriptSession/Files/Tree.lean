import ScriptSession.Path

/-!
# File trees

The part of a file system that the library reads and writes, as a value. A place is the list of
names from the root; the tree maps places to directories and files. The root is always a
directory, and every operation that creates an entry has walked through its directories first.

A path is resolved name by name, so `a/..` exists only when `a` is a directory, and a path that
ends in a separator names a directory only.
-/

namespace ScriptSession
namespace Files

/-! ## Failures -/

/-- Why an operation on files failed. -/
inductive Failure where
  | missing
  | exists_
  | notDirectory
  | isDirectory
  | notText
  | nulInName
  | nameTooLong
  | other (text : String)
deriving DecidableEq, Repr

/-- The text of a failure. -/
def Failure.message : Failure → String
  | .missing => "No such file or directory (os error 2)"
  | .exists_ => "File exists (os error 17)"
  | .notDirectory => "Not a directory (os error 20)"
  | .isDirectory => "Is a directory (os error 21)"
  | .notText => "stream did not contain valid UTF-8"
  | .nulInName => "file name contained an unexpected NUL byte"
  | .nameTooLong => "File name too long (os error 36)"
  | .other text => text

/-! ## The tree -/

/-- The names from the root to an entry. -/
abbrev Place := List String

/-- What a place holds. -/
inductive Entry where
  | directory
  | file (content : ByteArray)

instance : DecidableEq Entry
  | .directory, .directory => isTrue rfl
  | .file a, .file b =>
    match ByteArray.instDecidableEq a b with
    | isTrue h => isTrue (congrArg Entry.file h)
    | isFalse h => isFalse fun heq => h (Entry.file.inj heq)
  | .directory, .file _ | .file _, .directory => isFalse nofun

/-- A finite map from places to entries. The newest binding of a place counts. -/
structure Tree where
  entries : List (Place × Entry)

namespace Tree

/-- A tree of nothing but the root. -/
def empty : Tree := ⟨[]⟩

/-- The entry at a place. -/
def get? (t : Tree) (place : Place) : Option Entry :=
  if place = [] then some .directory
  else (t.entries.find? fun e => e.1 = place).map (·.2)

/-- The tree without the entry at a place. -/
def erase (t : Tree) (place : Place) : Tree := ⟨t.entries.filter fun e => e.1 ≠ place⟩

/-- The tree with an entry at a place. -/
def put (t : Tree) (place : Place) (entry : Entry) : Tree :=
  ⟨(t.erase place).entries ++ [(place, entry)]⟩

/-- The tree without a place and everything below it. -/
def eraseBelow (t : Tree) (place : Place) : Tree :=
  ⟨t.entries.filter fun e => !place.isPrefixOf e.1⟩

/-- The files at and below a place, with their sizes. -/
def filesBelow (t : Tree) (place : Place) : List (Place × Nat) :=
  t.entries.filterMap fun e =>
    match e.2 with
    | .file content => if place.isPrefixOf e.1 then some (e.1, content.size) else none
    | .directory => none

/-- The root is always there. -/
@[simp] theorem get?_root (t : Tree) : t.get? [] = some .directory := by simp [get?]

/-- Taking the entries of one place away does not change what is found at another. -/
theorem find?_filter_ne (entries : List (Place × Entry)) (p q : Place) (h : q ≠ p) :
    (entries.filter fun e => e.1 ≠ p).find? (fun e => e.1 = q) =
      entries.find? fun e => e.1 = q := by
  induction entries with
  | nil => rfl
  | cons e es ih =>
    by_cases hp : e.1 = p
    · have : e.1 ≠ q := fun hq => h (hq.symm.trans hp)
      simp_all
    · by_cases hq : e.1 = q <;> simp_all

/-- A place that is written holds what was written. -/
theorem get?_put_self (t : Tree) (place : Place) (entry : Entry) (h : place ≠ []) :
    (t.put place entry).get? place = some entry := by
  have : (t.entries.filter fun e => e.1 ≠ place).find? (fun e => e.1 = place) = none := by
    simp
  simp only [put, erase, get?, h, if_false, List.find?_append]
  rw [this]
  simp

/-- Writing one place leaves every other place alone. -/
theorem get?_put_of_ne (t : Tree) (p q : Place) (entry : Entry) (h : q ≠ p) :
    (t.put p entry).get? q = t.get? q := by
  by_cases hq : q = []
  · simp [hq]
  · simp only [put, erase, get?, hq, if_false, List.find?_append, find?_filter_ne _ _ _ h]
    have : ([(p, entry)] : List (Place × Entry)).find? (fun e => e.1 = q) = none := by
      simp [Ne.symm h]
    rw [this]
    simp

end Tree

/-! ## Walking a path -/

/-- The longest name a directory can hold, in bytes. -/
def nameLimit : Nat := 255

/-- Walk from a place along segments. Every place that is left has to be a directory. -/
def walk (t : Tree) : List String → Place → Except Failure Place
  | [], place => .ok place
  | segment :: rest, place =>
    match t.get? place with
    | none => .error .missing
    | some (.file _) => .error .notDirectory
    | some .directory =>
      if segment = "" ∨ segment = "." then walk t rest place
      else if segment = ".." then walk t rest place.dropLast
      else if nameLimit < segment.utf8ByteSize then .error .nameTooLong
      else walk t rest (place ++ [segment])

/-- The place a path names, seen from a working directory. The last name need not exist. -/
def locate (t : Tree) (cwd : Place) (p : Path) : Except Failure Place :=
  if p.text = "" then .error .missing
  else if p.text.toList.contains '\x00' then .error .nulInName
  else walk t p.segments (if p.isAbsolute then [] else cwd)

/-- The entry a path names. -/
def entry (t : Tree) (cwd : Place) (p : Path) : Except Failure (Place × Entry) := do
  let place ← locate t cwd p
  match t.get? place with
  | some e => pure (place, e)
  | none => .error .missing

/-! ## Questions -/

/-- Whether a path names anything. -/
def pathExists (t : Tree) (cwd : Place) (p : Path) : Bool := (entry t cwd p).isOk

/-- Whether a path names a file. -/
def isFile (t : Tree) (cwd : Place) (p : Path) : Bool :=
  match entry t cwd p with
  | .ok (_, .file _) => true
  | _ => false

/-- Whether a path names a directory. -/
def isDirectory (t : Tree) (cwd : Place) (p : Path) : Bool :=
  match entry t cwd p with
  | .ok (_, .directory) => true
  | _ => false

/-- The absolute path of an entry, free of `.`, `..` and doubled separators. -/
def canonical (t : Tree) (cwd : Place) (p : Path) : Except Failure Path :=
  (entry t cwd p).map fun e => Path.ofNames e.1

/-- The bytes of a file. -/
def read (t : Tree) (cwd : Place) (p : Path) : Except Failure ByteArray := do
  match ← entry t cwd p with
  | (_, .file content) => pure content
  | (_, .directory) => .error .isDirectory

/-- The text of a file. -/
def readText (t : Tree) (cwd : Place) (p : Path) : Except Failure String := do
  match String.fromUTF8? (← read t cwd p) with
  | some s => pure s
  | none => .error .notText

/-! ## Changes -/

/-- Why no file can be made at a place: there is a directory, or there is none to hold it. -/
def obstacle? (t : Tree) (place : Place) : Option Failure :=
  match t.get? place, t.get? place.dropLast with
  | some .directory, _ => some .isDirectory
  | _, none => some .missing
  | _, some (.file _) => some .notDirectory
  | _, some .directory => none

/-- Create or replace a file. Its directory has to exist. -/
def write (t : Tree) (cwd : Place) (p : Path) (content : ByteArray) : Except Failure Tree := do
  let place ← locate t cwd p
  match obstacle? t place with
  | some e => .error e
  | none => pure (t.put place (.file content))

/-- Walk along segments and create the directories that are missing: what ended this early, if
anything did, and the tree with the directories created so far. -/
def walkCreating (t : Tree) : List String → Place → Option Failure × Tree
  | [], _ => (none, t)
  | segment :: rest, place =>
    if segment = "" ∨ segment = "." then walkCreating t rest place
    else if segment = ".." then walkCreating t rest place.dropLast
    else if nameLimit < segment.utf8ByteSize then (some .nameTooLong, t)
    else
      let next := place ++ [segment]
      match t.get? next with
      | some .directory => walkCreating t rest next
      | some (.file _) =>
        (some (if rest.all (fun s => s = "" ∨ s = ".") then .exists_ else .notDirectory), t)
      | none => walkCreating (t.put next .directory) rest next

/-- Create a directory and the directories above it. Those that can be created stay, even if not
all of them can. -/
def makeDirectories (t : Tree) (cwd : Place) (p : Path) : Option Failure × Tree :=
  if p.text = "" then (none, t)
  else if p.text.toList.contains '\x00' then (some .nulInName, t)
  else walkCreating t p.segments (if p.isAbsolute then [] else cwd)

/-- Create a directory and the directories above it, or leave the tree alone. -/
def createDirectories (t : Tree) (cwd : Place) (p : Path) : Except Failure Tree :=
  match makeDirectories t cwd p with
  | (none, t) => .ok t
  | (some e, _) => .error e

/-- Remove a file. -/
def removeFile (t : Tree) (cwd : Place) (p : Path) : Except Failure Tree := do
  match ← entry t cwd p with
  | (place, .file _) => pure (t.erase place)
  | (_, .directory) => .error .isDirectory

/-- Remove a directory with everything in it. -/
def removeDirectory (t : Tree) (cwd : Place) (p : Path) : Except Failure Tree := do
  match ← entry t cwd p with
  | (place, .directory) => pure (t.eraseBelow place)
  | (_, .file _) => .error .notDirectory

/-! ## Staging -/

/-- The names of staging files. A leading dot keeps them apart from what people name. -/
def stagingName (n : Nat) : String := ".tmp" ++ toString n

/-- A place for a staging file in a directory, which nothing has yet. -/
def stagingPlace (t : Tree) (directory : Place) : Place :=
  let isFree (n : Nat) : Bool := (t.get? (directory ++ [stagingName n])).isNone
  directory ++ [stagingName (((List.range (t.entries.length + 1)).find? isFree).getD 0)]

/-- Write a staging file in a directory: its place. -/
def stage (t : Tree) (cwd : Place) (directory : Path) (content : ByteArray) :
    Except Failure (Place × Tree) := do
  match ← entry t cwd directory with
  | (place, .directory) =>
    pure (stagingPlace t place, t.put (stagingPlace t place) (.file content))
  | (_, .file _) => .error .notDirectory

/-- Move the file at a place to a path, over the file that may be there. -/
def rename (t : Tree) (cwd : Place) (source : Place) (p : Path) : Except Failure Tree := do
  let place ← locate t cwd p
  match t.get? source, obstacle? t place with
  | none, _ => .error .missing
  | _, some e => .error e
  | some e, none => pure ((t.erase source).put place e)

end Files
end ScriptSession
