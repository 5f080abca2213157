import ScriptSession.Toml.Lexical

/-!
# TOML documents

A document is built line by line. What a header or a dotted key may still add to depends on how
a table came to be, so the tables under construction remember it: through a header, as a part of
a longer header, through a dotted key, or as a value that is complete.
-/

namespace ScriptSession
namespace Toml

/-! ## Tables under construction -/

/-- How a table came to be. -/
inductive Origin where
  | header
  | implied
  | dotted
deriving DecidableEq, Repr

/-- What a name stands for while the document is read. -/
inductive Node where
  | value (v : Value)
  | table (origin : Origin) (fields : List (String × Node))
  | tables (items : List (List (String × Node)))
deriving Inhabited

/-- The fields of a table under construction. -/
abbrev Fields := List (String × Node)

/-- The node of a name. -/
def Fields.get? (fields : Fields) (name : String) : Option Node :=
  (List.find? (fun f => f.1 = name) fields).map (·.2)

/-- Set the node of a name in its place, or behind the others. -/
def Fields.set (name : String) (node : Node) : Fields → Fields
  | [] => [(name, node)]
  | f :: rest => if f.1 = name then (name, node) :: rest else f :: Fields.set name node rest

/-- Change the table that a path of names leads to, creating tables on the way. A dotted key
does not lead through a table that a header has defined. -/
def descend (dotted : Bool) (path : List String)
    (change : Origin → Fields → Option (Origin × Fields)) :
    Origin → Fields → Option (Origin × Fields) :=
  match path with
  | [] => change
  | name :: rest => fun origin fields => do
    let below := descend dotted rest change
    match fields.get? name with
    | none => do
      let (o, inner) ← below (if dotted then .dotted else .implied) []
      some (origin, fields.set name (.table o inner))
    | some (.value _) => none
    | some (.table o inner) =>
      if dotted ∧ o = .header then none
      else do
        let (o, inner) ← below o inner
        some (origin, fields.set name (.table o inner))
    | some (.tables items) => do
      let (_, inner) ← below .header (items.getLast?.getD [])
      some (origin, fields.set name (.tables (items.dropLast ++ [inner])))

/-- Add a value under a key. A key of one part adds to a table that is not made of dotted keys,
and a dotted key only to one that is. -/
def insertValue (path : List String) (name : String) (v : Value) (origin : Origin)
    (fields : Fields) : Option (Origin × Fields) :=
  descend true path
    (fun o inner =>
      if (o = .dotted) = path.isEmpty then none
      else if (inner.get? name).isSome then none
      else some (o, inner ++ [(name, .value v)]))
    origin fields

mutual

/-- The finished value of a node. -/
def Node.finish : Node → Value
  | .value v => v
  | .table _ fields => .table (finishFields fields)
  | .tables items => .array (finishTables items)

/-- The finished fields of a table. -/
def finishFields : List (String × Node) → List (String × Value)
  | [] => []
  | (name, node) :: rest => (name, node.finish) :: finishFields rest

/-- The finished tables of an array. -/
def finishTables : List (List (String × Node)) → List Value
  | [] => []
  | fields :: rest => .table (finishFields fields) :: finishTables rest

end

/-! ## Values -/

/-- How deep arrays and inline tables may be nested. -/
def nestingLimit : Nat := 80

mutual

/-- A value. The first number bounds the recursion, the second one counts the nesting. -/
def readValue : Nat → Nat → List Char → Option (Value × List Char)
  | 0, _, _ => none
  | fuel + 1, depth, cs =>
    match cs with
    | '\"' :: _ | '\'' :: _ => do
      let (s, rest) ← readString cs
      some (.text s, rest)
    | 't' :: 'r' :: 'u' :: 'e' :: rest => some (.bool true, rest)
    | 'f' :: 'a' :: 'l' :: 's' :: 'e' :: rest => some (.bool false, rest)
    | '[' :: rest =>
      if nestingLimit ≤ depth + 1 then none
      else do
        let (items, rest) ← readItems fuel (depth + 1) (skipSpace rest.length rest)
        some (.array items, rest)
    | '\x7b' :: rest =>
      if nestingLimit ≤ depth + 1 then none
      else
        match skipBlanks rest with
        | '\x7d' :: rest => some (.table [], rest)
        | rest => do
          let (fields, rest) ← readInline fuel (depth + 1) rest []
          some (.table (finishFields fields), rest)
    | _ => if startsDatetime cs then readDatetime cs else readNumber cs

/-- Items up to the closing bracket. A comma may stand behind the last one. -/
def readItems : Nat → Nat → List Char → Option (List Value × List Char)
  | 0, _, _ => none
  | fuel + 1, depth, cs =>
    match cs with
    | ']' :: rest => some ([], rest)
    | _ => do
      let (v, rest) ← readValue fuel depth cs
      match skipSpace rest.length rest with
      | ',' :: rest => do
        let (items, rest) ← readItems fuel depth (skipSpace rest.length rest)
        some (v :: items, rest)
      | ']' :: rest => some ([v], rest)
      | _ => none

/-- Fields of an inline table, at least one, up to the closing brace. -/
def readInline : Nat → Nat → List Char → Fields → Option (Fields × List Char)
  | 0, _, _, _ => none
  | fuel + 1, depth, cs, fields => do
    let (key, rest) ← readKey (cs.length + 1) cs
    match rest with
    | '=' :: rest => do
      let (v, rest) ← readValue fuel depth (skipBlanks rest)
      let (_, fields) ← insertValue key.dropLast (key.getLast?.getD "") v .header fields
      match skipBlanks rest with
      | ',' :: rest => readInline fuel depth rest fields
      | '\x7d' :: rest => some (fields, rest)
      | _ => none
    | _ => none

end

/-! ## Lines -/

/-- Where the lines of a document add to. -/
inductive Target where
  | root
  | table (path : List String)
  | lastOf (path : List String)
deriving Repr

/-- A document under construction: what is finished, the table the lines add to, and where that
table belongs. -/
structure Building where
  finished : Fields
  current : Fields
  target : Target

/-- Put the current table where it belongs. -/
def Building.settle (b : Building) : Option Fields :=
  match b.target with
  | .root => some b.current
  | .table path =>
    (descend false path.dropLast
      (fun o fields =>
        let name := path.getLast?.getD ""
        match fields.get? name with
        | none => some (o, fields.set name (.table .header b.current))
        | some (.table .header _) => none
        | some (.table _ _) => some (o, fields.set name (.table .header b.current))
        | some _ => none)
      .header b.finished).map (·.2)
  | .lastOf path =>
    (descend false path.dropLast
      (fun o fields =>
        let name := path.getLast?.getD ""
        match fields.get? name with
        | none => some (o, fields.set name (.tables [b.current]))
        | some (.tables items) => some (o, fields.set name (.tables (items ++ [b.current])))
        | some _ => none)
      .header b.finished).map (·.2)

/-- Begin the table of a header. A table that longer headers have implied goes on with what it
has; any other table is complete. -/
def Building.beginTable (b : Building) (path : List String) : Option Building := do
  let finished ← b.settle
  let name := path.getLast?.getD ""
  let (_, kept) ← descend false path.dropLast
    (fun o fields =>
      match fields.get? name with
      | none => some (o, fields)
      | some (.table .implied _) => some (o, fields)
      | some _ => none)
    .header finished
  some ⟨kept, (lookup kept path).getD [], .table path⟩
where
  /-- The fields of the table a path leads to. -/
  lookup (fields : Fields) : List String → Option Fields
    | [] => some fields
    | name :: rest =>
      match fields.get? name with
      | some (.table _ inner) => lookup inner rest
      | some (.tables items) => if rest.isEmpty then none else lookup (items.getLast?.getD []) rest
      | _ => none

/-- Begin another table of an array. -/
def Building.beginItem (b : Building) (path : List String) : Option Building := do
  let finished ← b.settle
  let name := path.getLast?.getD ""
  let (_, kept) ← descend false path.dropLast
    (fun o fields =>
      match fields.get? name with
      | none | some (.tables _) => some (o, fields)
      | some _ => none)
    .header finished
  some ⟨kept, [], .lastOf path⟩

/-- One line: nothing, a header, or a key with its value. -/
def readLine (b : Building) (cs : List Char) : Option (Building × List Char) :=
  let cs := skipBlanks cs
  match cs with
  | [] => some (b, [])
  | '#' :: _ | '\n' :: _ | '\r' :: _ => do some (b, ← closeLine cs)
  | '[' :: '[' :: rest => do
    let (path, rest) ← readKey (rest.length + 1) rest
    match rest with
    | ']' :: ']' :: rest => do some (← b.beginItem path, ← closeLine rest)
    | _ => none
  | '[' :: rest => do
    let (path, rest) ← readKey (rest.length + 1) rest
    match rest with
    | ']' :: rest => do some (← b.beginTable path, ← closeLine rest)
    | _ => none
  | _ => do
    let (key, rest) ← readKey (cs.length + 1) cs
    match rest with
    | '=' :: rest => do
      let (v, rest) ← readValue (2 * rest.length + 2) 0 (skipBlanks rest)
      let (_, current) ← insertValue key.dropLast (key.getLast?.getD "") v .header b.current
      some ({ b with current }, ← closeLine rest)
    | _ => none

/-- All lines. -/
def readLines : Nat → Building → List Char → Option Building
  | 0, b, cs => if cs.isEmpty then some b else none
  | fuel + 1, b, cs =>
    if cs.isEmpty then some b
    else do
      let (b, rest) ← readLine b cs
      readLines fuel b rest

/-- The table of a document. A byte order mark may stand in front. -/
def parse (s : String) : Option Value := do
  let cs := match s.toList with
    | '\ufeff' :: rest => rest
    | cs => cs
  let b ← readLines (cs.length + 1) ⟨[], [], .root⟩ cs
  some (.table (finishFields (← b.settle)))

end Toml
end ScriptSession
