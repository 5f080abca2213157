import ScriptSession.Text.Blank

/-!
# Paths

A path is text. Its *components* are what a file system would walk: separators and inner `.`
segments carry no meaning, a leading separator is the root, and `..` is kept because only the
file system knows where it leads. Two paths with the same components are the same place even
when their texts differ, so everything that compares paths compares components, and everything
that shows paths shows the text.

Nothing here looks at the file system.
-/

namespace ScriptSession

/-- A path, as written. -/
structure Path where
  text : String
deriving DecidableEq, Repr, Inhabited

namespace Path

/-! ## Components -/

/-- One step of a path. -/
inductive Component where
  | root
  | current
  | parent
  | normal (name : String)
deriving DecidableEq, Repr

/-- The text between separators. -/
def segments (p : Path) : List String := Text.splitOn '/' p.text

/-- A path that starts at the root. -/
def isAbsolute (p : Path) : Bool := p.text.toList.head? == some '/'

/-- What a segment after the first one contributes. -/
def innerComponent (segment : String) : Option Component :=
  if segment = "" ∨ segment = "." then none
  else if segment = ".." then some .parent
  else some (.normal segment)

/-- The components in order. A `.` counts only as the first segment of a relative path. -/
def components (p : Path) : List Component :=
  match p.segments with
  | [] => []
  | first :: rest =>
    let lead : List Component :=
      if first = "" then (if rest.isEmpty then [] else [.root])
      else if first = "." then [.current]
      else (innerComponent first).toList
    lead ++ rest.filterMap innerComponent

/-- The same place: equal components. -/
def same (p q : Path) : Bool := p.components == q.components

/-- The rank of a component's kind in the order of paths. -/
def Component.rank : Component → Nat
  | .root => 0
  | .current => 1
  | .parent => 2
  | .normal _ => 3

/-- Components in order: by kind, and names by their characters. -/
def Component.le : Component → Component → Bool
  | .normal a, .normal b => a ≤ b
  | a, b => a.rank ≤ b.rank

/-- Component lists in dictionary order. -/
def leComponents : List Component → List Component → Bool
  | [], _ => true
  | _ :: _, [] => false
  | a :: as, b :: bs => if a = b then leComponents as bs else a.le b

/-- Paths in the order of their components. -/
def le (p q : Path) : Bool := leComponents p.components q.components

/-! ## Building paths -/

/-- Put a path behind another one. An absolute path replaces what was there; an empty one adds
a separator. -/
def join (p : Path) (q : String) : Path :=
  if (Path.mk q).isAbsolute then ⟨q⟩
  else if p.text = "" ∨ p.text.toList.getLast? = some '/' then ⟨p.text ++ q⟩
  else ⟨p.text ++ "/" ++ q⟩

/-- Put several texts behind a path, one after the other. -/
def joinAll (p : Path) (qs : List String) : Path := qs.foldl join p

/-! ## Taking paths apart -/

/-- The part of a path that never holds a component to remove: the root, or a leading `.`. -/
def anchorLength (p : Path) : Nat :=
  match p.text.toList with
  | '/' :: _ => 1
  | ['.'] => 1
  | '.' :: '/' :: _ => 1
  | _ => 0

/-- A segment without meaning. -/
def isIdle (segment : List Char) : Bool := segment.isEmpty || segment == ['.']

/-- The path without its last component and the separators around it. The root and the empty
path have no parent. -/
def parent? (p : Path) : Option Path :=
  let cs := p.text.toList
  let anchor := cs.take p.anchorLength
  let body := (Text.splitChars '/' (cs.drop p.anchorLength)).reverse.dropWhile isIdle
  match body with
  | _ :: rest =>
    let kept := (rest.dropWhile isIdle).reverse
    some ⟨String.ofList (anchor ++ Text.joinChars '/' kept)⟩
  | [] => if anchor = ['.'] then some ⟨""⟩ else none

/-- The name at the end of a path. A path that ends in `..` has none. -/
def fileName? (p : Path) : Option String :=
  match p.components.getLast? with
  | some (.normal name) => some name
  | _ => none

/-- A name as its parts around the last dot. A dot in front of everything starts a hidden name
and divides nothing. -/
def splitName (name : String) : String × Option String :=
  let back := name.toList.reverse
  let ext := back.takeWhile (· ≠ '.')
  match back.drop ext.length with
  | _ :: stem =>
    if stem.isEmpty then (name, none)
    else (String.ofList stem.reverse, some (String.ofList ext.reverse))
  | [] => (name, none)

/-- The part of the file name after its last dot. -/
def extension? (p : Path) : Option String := p.fileName?.bind fun name => (splitName name).2

/-- The part of the file name before its last dot. -/
def stem? (p : Path) : Option String := p.fileName?.map fun name => (splitName name).1

/-- Replace the file name. A path without one gets the name behind it. -/
def withFileName (p : Path) (name : String) : Path :=
  match p.fileName? with
  | some _ => (p.parent?.getD p).join name
  | none => p.join name

/-- The names below the root that an absolute path is made of. -/
def ofNames (names : List String) : Path := ⟨"/" ++ "/".intercalate names⟩

end Path
end ScriptSession
