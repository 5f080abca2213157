import ScriptSession.Script.Operator
import ScriptSession.Script.Parser
import ScriptSession.Script.Run
import ScriptSession.Script.Simplify

/-!
# Evaluation

What a script does. Evaluation goes from phrase to phrase with a supply of steps that no script
that ends can use up, so it is a plain recursion although scripts may loop for ever: a loop that
never ends keeps asking whether it may proceed, and the tree of its questions is infinite only in
the sense that it is as deep as the supply.

The variables survive a fault, for a session keeps what a script has declared before it failed.
-/

namespace ScriptSession
namespace Script

/-! ## The machine -/

/-- What changes while a script runs: the variables, how many of them belong to the blocks around
the innermost one, the imported modules, and the operations counted so far. -/
structure Machine where
  scope : Scope
  base : Nat
  imports : List (String × Module)
  operations : Nat
deriving Inhabited

/-- What stays the same in a function body: the functions that can be called by their bare name,
the path of the module file, how deep the calls are, and the functions' own imports. -/
structure Setting where
  functions : List Function
  source : String
  depth : Nat

/-- Why evaluation stops before its end. -/
inductive Stop where
  | fault (f : Fault)
  | leave (v : Value)
  | skip
  | ret (v : Value)

/-- A computation of a script. -/
abbrev Eval := ReaderT Setting (ExceptT Stop (StateT Machine Run))

namespace Eval

/-- Put a question. -/
def request (r : Request) : Eval r.Reply := fun _ => ExceptT.lift (StateT.lift (Run.request r))

/-- Stop at a fault. -/
def fault {α : Type} (f : Fault) : Eval α := throw (.fault f)

/-- The value, or stop at the fault. -/
def ofExcept {α : Type} : Except Fault α → Eval α
  | .ok a => pure a
  | .error f => fault f

/-- The outcome of a computation, whatever it is. -/
def attempt {α : Type} (x : Eval α) : Eval (Except Stop α) := fun setting =>
  ExceptT.lift (x setting).run

/-- How many operations lie between two questions whether to go on. -/
def checkInterval : Nat := 64

/-- Count an operation. Now and then this asks whether to go on. -/
def count (p : Position) : Eval Unit := do
  modify fun m => { m with operations := m.operations + 1 }
  if (← get).operations % checkInterval = 0 then
    let goesOn : Bool ← request .proceed
    unless goesOn do
      fault (.terminated (.text "interrupted") (some p))

/-- A block: its variables and imports end with it. -/
def inBlock {α : Type} (x : Eval α) : Eval α := do
  let before ← get
  set { before with base := before.scope.size }
  let outcome ← attempt x
  modify fun m =>
    { m with
      scope := m.scope.truncate before.scope.size
      base := before.base
      imports := m.imports.drop (m.imports.length - before.imports.length) }
  match outcome with
  | .ok a => pure a
  | .error s => throw s

end Eval

open Eval

/-! ## Functions of the host -/

/-- A line that `debug` writes: where it is called and what it shows. -/
def debugLine (source : String) (p : Position) (text : String) : String :=
  (if source.isEmpty then "" else source ++ " @ ") ++ p.text ++ " | " ++ text

/-- How many items a value has. -/
def lengthOf : Value → Option Nat
  | .text s => some s.length
  | .array items => some items.length
  | .map fields => some fields.length
  | _ => none

/-- A function of the host applied to values: its result and what became of its first argument.
The place is that of the call. -/
def callHost (name : String) (args : List Value) (p : Position) : Eval (Value × Option Value) := do
  let plain (v : Value) : Eval (Value × Option Value) := pure (v, none)
  match name, args with
  | "print", [] =>
    request (.print "")
    plain .unit
  | "print", [v] =>
    request (.print v.display)
    plain .unit
  | "debug", [] =>
    request (.print (debugLine (← read).source p ""))
    plain .unit
  | "debug", [v] =>
    request (.print (debugLine (← read).source p v.debug))
    plain .unit
  | "eprint", [.text s] =>
    request (.complain s)
    plain .unit
  | "sleep", [.int n] =>
    let interrupted : Bool ← request (.sleep n.toNat)
    if interrupted then fault (.terminated (.text "interrupted") (some p)) else plain .unit
  | "read_text", [.text path] =>
    match ← request (.readText path) with
    | .ok s => plain (.text s)
    | .error e => fault (.system ("Failed to read " ++ path) (.io e))
  | "type_of", [v] => plain (.text v.typeName)
  | "len", [v] =>
    match lengthOf v with
    | some n => plain (.int n)
    | none => ofExcept (Operator.notFound name args p)
  | "push", [.array items, v] => pure (.unit, some (.array (items ++ [v])))
  | name, args => ofExcept (Operator.notFound name args p)

/-- Whether a function of the host changes its first argument. -/
def changesFirst (name : String) (args : List Value) : Bool :=
  match name, args with
  | "push", [.array _, _] => true
  | _, _ => false

/-! ## Parts of values -/

/-- A link of a chain with its operands evaluated. -/
inductive Step where
  | index (key : Value) (at_ : Position) (start : Position)
  | field (name : String) (at_ : Position)
  | method (name : String) (args : List Value) (at_ : Position)

/-- The item an index stands for; a negative index counts from the end. -/
def itemPosition (size : Nat) (i : Int) : Option Nat :=
  if 0 ≤ i then (if i < size then some i.toNat else none)
  else if -i ≤ size then some (size - (-i).toNat)
  else none

/-- The part of a value behind an index. -/
def getIndex (v key : Value) (p : Position) : Except Fault Value :=
  match v, key with
  | .array items, .int i =>
    match itemPosition items.length i with
    | some n => .ok (items.getD n .unit)
    | none => .error (.arrayBounds items.length i (some p))
  | .array _, k => .error (.mismatchData "i64" k.typeName (some p))
  | .map fields, .text k => .ok ((Value.getField k fields).getD .unit)
  | .map _, k => .error (.mismatchData "string" k.typeName (some p))
  | .text s, .int i =>
    match itemPosition s.length i with
    | some n => .ok (.char (s.toList.getD n ' '))
    | none => .error (.stringBounds s.length i (some p))
  | .text _, k => .error (.mismatchData "i64" k.typeName (some p))
  | v, k => .error (.indexing (v.typeName ++ " [" ++ k.typeName ++ "]") (some p))

/-- A value with another part behind an index. -/
def setIndex (v key part : Value) (p : Position) : Except Fault Value :=
  match v, key with
  | .map fields, .text k => .ok (.map (Value.setField k part fields))
  | .array items, .int i =>
    match itemPosition items.length i with
    | some n => .ok (.array (items.set n part))
    | none => .error (.arrayBounds items.length i (some p))
  | v, k => (getIndex v k p).map fun _ => v

/-- The field of a value. -/
def getField (v : Value) (name : String) (p : Position) : Except Fault Value :=
  match v with
  | .map fields => .ok ((Value.getField name fields).getD .unit)
  | v =>
    match if name = "len" then lengthOf v else none with
    | some n => .ok (.int n)
    | none =>
      .error (.dotExpression ("Unknown property '" ++ name ++
        "' - a getter is not registered for type '" ++ v.typeName ++ "'") (some p))

/-- A value with another field. -/
def setField (v : Value) (name : String) (part : Value) (p : Position) : Except Fault Value :=
  match v with
  | .map fields => .ok (.map (Value.setField name part fields))
  | v =>
    .error (.dotExpression ("Unknown property '" ++ name ++
      "' - a setter is not registered for type '" ++ v.typeName ++ "'") (some p))

/-! ## Faults as values -/

/-- The name of a fault's kind. -/
def faultLabel : Fault → String
  | .variableNotFound _ _ => "ErrorVariableNotFound"
  | .functionNotFound _ _ => "ErrorFunctionNotFound"
  | .moduleNotFound _ _ => "ErrorModuleNotFound"
  | .inFunctionCall _ _ _ _ => "ErrorInFunctionCall"
  | .inModule _ _ _ => "ErrorInModule"
  | .mismatchData _ _ _ => "ErrorMismatchDataType"
  | .mismatchOutput _ _ _ => "ErrorMismatchOutputType"
  | .indexing _ _ => "ErrorIndexingType"
  | .arrayBounds _ _ _ => "ErrorArrayBounds"
  | .stringBounds _ _ _ => "ErrorStringBounds"
  | .notIterable _ => "ErrorFor"
  | .assignmentToConstant _ _ => "ErrorAssignmentToConstant"
  | .nonPureOnConstant _ _ => "ErrorNonPureMethodCallOnConstant"
  | .dotExpression _ _ => "ErrorDotExpr"
  | .arithmetic _ _ => "ErrorArithmetic"
  | _ => "ErrorRuntime"

/-- Details of a fault. -/
def faultDetails : Fault → List (String × Value)
  | .variableNotFound n _ | .assignmentToConstant n _ => [("variable", .text n)]
  | .functionNotFound s _ | .nonPureOnConstant s _ => [("function", .text s)]
  | .moduleNotFound n _ | .inModule n _ _ => [("module", .text n)]
  | .inFunctionCall n s _ _ => [("function", .text n), ("source", .text s)]
  | .mismatchData r a _ | .mismatchOutput r a _ => [("requested", .text r), ("actual", .text a)]
  | .arrayBounds n i _ => [("length", .int n), ("index", .int i)]
  | .stringBounds n i _ => [("length", .int n), ("index", .int i)]
  | .indexing t _ => [("type", .text t)]
  | _ => []

/-- The fault below all functions it has passed out of. -/
def innermost : Fault → Fault
  | .inFunctionCall _ _ inner _ => innermost inner
  | .inModule _ inner _ => innermost inner
  | f => f

/-- What a handler gets to see of a fault: the thrown value itself, or a description. -/
def caught (source : String) (f : Fault) : Value :=
  match innermost f with
  | .thrown v _ => v
  | inner =>
    let place : List (String × Value) :=
      match f.position with
      | some p => [("line", .int p.line), ("position", .int p.column)]
      | none => []
    Value.ofFields (("error", .text (faultLabel inner)) :: ("message", .text f.text) ::
      (if source.isEmpty then [] else [("source", .text source)]) ++ place ++ faultDetails inner)

/-! ## Phrases -/

/-- What is evaluated in one step: an expression, a statement, statements in a row, another round
of a loop, or the body of a function. -/
inductive Phrase where
  | expr (e : Expr)
  | stmt (s : Stmt)
  | body (stmts : List Stmt)
  | round (test : Option Expr) (body : List Stmt) (bodyAt : Position)
  | items (name : String) (counter : Option String) (rest : List Value) (index : Nat)
      (body : List Stmt) (bodyAt : Position)
  | call (f : Function) (home : Option Module) (args : List Value) (at_ : Position)
  | script (p : Program) (source : String)

/-- The supply of steps. -/
def stepSupply : Nat := Nat.pow 2 60

/-- How deep calls can be. -/
def greatestDepth : Nat := 64

namespace Phrase

/-- The parts of a phrase are evaluated by this. -/
abbrev Self := Phrase → Eval Value

/-- Evaluate an expression. -/
abbrev value (self : Self) (e : Expr) : Eval Value := self (.expr e)

/-- The value of an optional expression. -/
def optional (self : Self) : Option Expr → Eval Value
  | some e => self (.expr e)
  | none => pure .unit

/-- Evaluate expressions in order. -/
def values (self : Self) (es : List Expr) : Eval (List Value) := es.mapM (value self)

/-- A condition. -/
def condition (self : Self) (e : Expr) : Eval Bool := do
  match ← value self e with
  | .bool b => pure b
  | v => fault (.mismatchData "bool" v.typeName (some e.position))

/-! ### Modules -/

/-- The module that a qualified name leads to. -/
def moduleAt : List (String × Module) → Qualifier → Except Fault (Option Module)
  | _, [] => .ok none
  | imports, (name, p) :: rest =>
    match imports.find? fun i => i.1 = name with
    | none => .error (.moduleNotFound name (some p))
    | some (_, m) => if rest.isEmpty then .ok (some m) else moduleAt m.imports rest

/-- A name with its qualification. -/
def qualifiedName (path : Qualifier) (name : String) : String :=
  "::".intercalate (path.map (·.1) ++ [name])

/-- The value of a name. -/
def nameValue (path : Qualifier) (name : String) (p : Position) : Eval Value := do
  match path with
  | [] =>
    match (← get).scope.get? name with
    | some v => pure v
    | none => fault (.variableNotFound name (some p))
  | (_, first) :: _ =>
    match ← ofExcept (moduleAt (← get).imports path) with
    | none => fault (.variableNotFound name (some p))
    | some m =>
      match Value.getField name m.exports with
      | some v => pure v
      | none => fault (.variableNotFound (qualifiedName path name) (some first))

/-- The function of a name and a number of arguments. -/
def findFunction (functions : List Function) (name : String) (arity : Nat) : Option Function :=
  functions.find? fun f => f.name = name ∧ f.params.length = arity

/-! ### Calls -/

/-- Call a function by its bare name: one of the script, or one of the host. -/
def callNamed (self : Self) (name : String) (args : List Value) (p : Position) :
    Eval (Value × Option Value) := do
  match findFunction (← read).functions name args.length with
  | some f => pure (← self (.call f none args p), none)
  | none => callHost name args p

/-- Call a function of a module. -/
def callQualified (self : Self) (path : Qualifier) (name : String) (args : List Value)
    (p : Position) : Eval Value := do
  match ← ofExcept (moduleAt (← get).imports path) with
  | none => fault (.functionNotFound name (some p))
  | some m =>
    match findFunction (m.functions.filter fun f => !f.isPrivate) name args.length with
    | some f => self (.call f (some m) args p)
    | none =>
      fault (.functionNotFound (Operator.signature (qualifiedName path name) args) (some p))

/-- Call a function whose first argument is a variable that the function may change. -/
def callOnVariable (self : Self) (name variable_ : String) (args : List Value) (p : Position) :
    Eval Value := do
  if changesFirst name args && (← get).scope.isConstant variable_ then
    fault (.nonPureOnConstant name (some p))
  let (v, changed) ← callNamed self name args p
  if let some c := changed then
    modify fun m => { m with scope := m.scope.assign variable_ c }
  pure v

/-- The body of a function in a scope of its own. Imports stay visible, variables do not. -/
def callBody (self : Self) (f : Function) (home : Option Module) (args : List Value)
    (p : Position) : Eval Value := do
  let setting ← read
  if greatestDepth ≤ setting.depth then fault (.stackOverflow (some p))
  let before ← get
  let entries := (f.params.zip args).map fun x => Entry.variable_ x.1 x.2
  let imports := (home.map Module.imports).getD [] ++ before.imports
  set { before with scope := ⟨entries.reverse⟩, base := 0, imports := imports }
  let inner : Setting :=
    match home with
    | some m => ⟨m.functions, m.source, setting.depth + 1⟩
    | none => { setting with depth := setting.depth + 1 }
  let outcome ← attempt (withReader (fun _ => inner) (self (.body f.body)))
  modify fun m => { before with operations := m.operations }
  match outcome with
  | .ok v | .error (.ret v) => pure v
  | .error (.fault e) =>
    if e.isSystem then fault (e.relocate (some p))
    else fault (.inFunctionCall f.name inner.source e (some p))
  | .error s => throw s

/-! ### Chains -/

/-- The operands of a chain, from the left to the right. -/
def steps (self : Self) (links : List Link) : Eval (List Step) :=
  links.mapM fun
    | .index key _ => do pure (.index (← value self key) key.position key.start)
    | .field name p => pure (.field name p)
    | .method name args p => do pure (.method name (← values self args) p)

/-- Follow a chain from a value: what is found at its end, and the value with what the methods on
the way have changed, if anything. -/
def follow (self : Self) (isConstant : Bool) :
    Value → List Step → Eval (Value × Option Value)
  | v, [] => pure (v, none)
  | v, .index key p _ :: rest => do
    let part ← ofExcept (getIndex v key p)
    let (result, changed) ← follow self isConstant part rest
    match changed with
    | none => pure (result, none)
    | some c => pure (result, some (← ofExcept (setIndex v key c p)))
  | v, .field name p :: rest => do
    let part ← ofExcept (getField v name p)
    let (result, changed) ← follow self isConstant part rest
    match changed with
    | none => pure (result, none)
    | some c => pure (result, some (← ofExcept (setField v name c p)))
  | v, .method name args p :: rest => do
    if isConstant && changesFirst name (v :: args) then fault (.nonPureOnConstant name (some p))
    let (part, changed) ←
      match findFunction (← read).functions name args.length with
      | some f => do pure (← self (.call f none args p), none)
      | none => callHost name (v :: args) p
    let (result, _) ← follow self false part rest
    pure (result, changed)

/-- A value with the part at the end of a chain replaced. -/
def replace (f : Value → Except Fault Value) : Value → List Step → Except Fault Value
  | v, [] => f v
  | v, .index key p _ :: rest =>
    match v, key, rest with
    | .map fields, .text k, [] => do
      let part ← f ((Value.getField k fields).getD .unit)
      .ok (.map (Value.setField k part fields))
    | v, key, rest => do
      let part ← replace f (← getIndex v key p) rest
      setIndex v key part p
  | v, .field name p :: rest => do
    let old := (getField v name p).toOption.getD .unit
    let part ← replace f old rest
    setField v name part p
  | v, .method _ _ _ :: _ => .ok v

/-! ### Expressions -/

/-- One step into an expression. -/
def stepExpr (self : Self) (e : Expr) : Eval Value := do
  count e.position
  match e with
  | .literal v _ => pure v
  | .template parts _ =>
    pure (.text (String.join ((← values self parts).map Value.display)))
  | .array es _ => pure (.array (← values self es))
  | .map fields _ =>
    pure (Value.ofFields (← fields.mapM fun (n, e) => do pure (n, ← value self e)))
  | .name path name p => nameValue path name p
  | .call [] name (.name [] x q :: args) p =>
    let first ← nameValue [] x q
    let rest ← values self args
    callOnVariable self name x (first :: rest) p
  | .call [] name args p => pure (← callNamed self name (← values self args) p).1
  | .call path name args p => callQualified self path name (← values self args) p
  | .unary op e p => ofExcept (Operator.unary op (← value self e) p)
  | .binary op l r p => ofExcept (Operator.binary op (← value self l) (← value self r) p)
  | .both l r _ => if ← condition self l then .bool <$> condition self r else pure (.bool false)
  | .either l r _ => if ← condition self l then pure (.bool true) else .bool <$> condition self r
  | .chain (.name [] x p) links _ =>
    let steps ← steps self links
    let root ← nameValue [] x p
    let (v, changed) ← follow self ((← get).scope.isConstant x) root steps
    if let some c := changed then
      modify fun m => { m with scope := m.scope.assign x c }
    pure v
  | .chain root links _ =>
    let steps ← steps self links
    pure (← follow self false (← value self root) steps).1
  | .code stmts _ => inBlock (self (.body stmts))

/-! ### Statements -/

/-- The variable an assignment goes to, which is no constant. -/
def target (name : String) (p : Position) : Eval Value := do
  match (← get).scope.find? name with
  | none => fault (.variableNotFound name (some p))
  | some e =>
    if e.isConstant then fault (.assignmentToConstant name (some p)) else pure e.value

/-- Assign a value. -/
def assign (self : Self) (op : Option String) (e : Expr) (v : Value) (p : Position) :
    Eval Unit := do
  let new (old : Value) : Except Fault Value :=
    match op with
    | none => .ok v
    | some op => Operator.update op old v p
  match e with
  | .name [] x q =>
    let old ← target x q
    let v ← ofExcept (new old)
    modify fun m => { m with scope := m.scope.assign x v }
  | .chain (.name [] x q) links _ =>
    let steps ← steps self links
    let old ← target x q
    let v ← ofExcept (replace new old steps)
    modify fun m => { m with scope := m.scope.assign x v }
  | .name path x q =>
    let _ ← nameValue path x q
    fault (.assignmentToConstant x (some q))
  | _ => pure ()

/-- Declare a variable. -/
def declare (e : Entry) : Eval Unit :=
  modify fun m => { m with scope := m.scope.declare m.base e }

/-- What a loop goes through. -/
def iterated (v : Value) (p : Position) : Except Fault (List Value) :=
  match v with
  | .array vs => .ok vs
  | .range a b closed =>
    let count := (b - a + (if closed then 1 else 0)).toNat
    .ok ((List.range count).map fun (i : Nat) => .int (a + i))
  | .text s => .ok (s.toList.map .char)
  | _ => .error (.notIterable (some p))

/-- A handler for a fault. A fault thrown again without a value is the first one at the new
place. -/
def handle (self : Self) (f : Fault) (name : Option String) (handler : List Stmt) :
    Eval Value := do
  let v := caught (← read).source f
  let outcome ← attempt <| inBlock do
    if let some n := name then
      modify fun m => { m with scope := m.scope.push (Entry.variable_ n v) }
    inBlock (self (.body handler))
  match outcome with
  | .ok _ => pure .unit
  | .error (.fault (.thrown .unit p)) => fault (f.relocate p)
  | .error s => throw s

/-- One step into a statement. -/
def stepStmt (self : Self) (s : Stmt) : Eval Value := do
  match s with
  | .expr e => value self e
  | .declare name v isConstant isExported p =>
    count p
    let v ← optional self v
    declare ⟨name, isConstant, v, if isExported then [name] else []⟩
    pure .unit
  | .assign op e v p =>
    count p
    let v ← value self v
    assign self op e v p
    pure .unit
  | .block stmts p =>
    count p
    inBlock (self (.body stmts))
  | .branch test yes no p =>
    count p
    inBlock (self (.body (if ← condition self test then yes else no)))
  | .whilst test stmts q p =>
    count p
    self (.round test stmts q)
  | .each name counter source stmts q p =>
    count p
    let found ← ofExcept (iterated (← value self source) source.start)
    inBlock (self (.items name counter found 0 stmts q))
  | .leave v p =>
    count p
    throw (.leave (← optional self v))
  | .skip p =>
    count p
    throw .skip
  | .ret v p =>
    count p
    throw (.ret (← optional self v))
  | .raise v p =>
    count p
    fault (.thrown (← optional self v) (some p))
  | .attempt stmts name handler p =>
    count p
    match ← attempt (inBlock (self (.body stmts))) with
    | .ok _ => pure .unit
    | .error (.fault f) =>
      if f.isCatchable then handle self f name handler else fault f
    | .error s => throw s
  | .load path localName p =>
    count p
    match ← value self path with
    | .text name =>
      let found : Except Fault Module ← request (.load name path.start)
      let m ← ofExcept found
      if let some localName := localName then
        modify fun s => { s with imports := (localName, m) :: s.imports }
      pure .unit
    | v => fault (.mismatchData "string" v.typeName (some path.position))
  | .share name localName p =>
    count p
    if (← get).scope.contains name then
      modify fun m =>
        { m with scope := m.scope.alter name fun e =>
            { e with exportedAs := e.exportedAs ++ [localName.getD name] } }
      pure .unit
    else fault (.variableNotFound name (some p))

/-- Statements in a row; the value is that of the last one. -/
def inOrder (self : Self) : List Stmt → Value → Eval Value
  | [], v => pure v
  | s :: rest, _ => do
    let v ← self (.stmt s)
    inOrder self rest v

/-- A round of a loop; whether the loop goes on, or its value. -/
def loopBody (self : Self) (stmts : List Stmt) (bodyAt : Position) :
    Eval (Option Value) := do
  if stmts.isEmpty then
    count bodyAt
    pure none
  else
    match ← attempt (inBlock (self (.body stmts))) with
    | .ok _ | .error .skip => pure none
    | .error (.leave v) => pure (some v)
    | .error s => throw s

/-- One step of evaluation. -/
def step (self : Self) : Phrase → Eval Value
  | .expr e => stepExpr self e
  | .stmt s => stepStmt self s
  | .body stmts => inOrder self stmts .unit
  | .round test stmts q => do
    let goesOn ←
      match test with
      | none => pure true
      | some e => condition self e
    if goesOn then
      match ← loopBody self stmts q with
      | some v => pure v
      | none => self (.round test stmts q)
    else pure .unit
  | .items _ _ [] _ _ _ => pure .unit
  | .items name counter (v :: rest) i stmts q => do
    let before ← get
    if let some c := counter then
      modify fun m => { m with scope := m.scope.push (Entry.variable_ c (.int i)) }
    modify fun m => { m with scope := m.scope.push (Entry.variable_ name v) }
    let outcome ← loopBody self stmts q
    modify fun m => { m with scope := m.scope.truncate before.scope.size }
    match outcome with
    | some v => pure v
    | none => self (.items name counter rest (i + 1) stmts q)
  | .call f home args p => callBody self f home args p
  | .script p source => do
    let setting : Setting := ⟨p.functions, source, 0⟩
    match ← attempt (withReader (fun _ => setting) (self (.body p.body))) with
    | .ok v | .error (.ret v) => pure v
    | .error s => throw s

/-- Evaluate a phrase with a supply of steps. -/
def evaluate : Nat → Phrase → Eval Value
  | 0, _ => fault (.tooManyOperations none)
  | n + 1, phrase => step (evaluate n) phrase

end Phrase

/-! ## Programs -/

/-- Run a program on variables: the value or the fault, and the machine afterwards. -/
def runProgram (p : Program) (source : String) (scope : Scope) :
    Run (Except Fault Value × Machine) := do
  let machine : Machine := ⟨scope, scope.size, [], 0⟩
  let (outcome, after) ←
    ((Phrase.evaluate stepSupply (.script p source)).run ⟨[], "", 0⟩).run.run machine
  match outcome with
  | .ok v => pure (.ok v, after)
  | .error (.fault f) => pure (.error f, after)
  | .error (.leave v) | .error (.ret v) => pure (.ok v, after)
  | .error .skip => pure (.ok .unit, after)

/-- Run a script on a scope: the value or the fault, and the scope afterwards. -/
def run (source : String) (scope : Scope) : Run (Except Fault Value × Scope) :=
  match parse source with
  | .error f => .done (.error f, scope)
  | .ok program => do
    let (outcome, after) ← runProgram program.simplify "" scope
    pure (outcome, after.scope)

/-- What a program makes of itself as a module, when it has ended. -/
def moduleOf (p : Program) (after : Machine) (source : String) : Module :=
  let exports := after.scope.oldestFirst.flatMap fun e =>
    e.exportedAs.map fun localName => (localName, e.value)
  .mk (exports.foldl (fun acc x => Value.setField x.1 x.2 acc) []) p.functions after.imports source

/-- Run the text of a module file, on no variables: the module, or the fault. -/
def runModule (source file : String) : Run (Except Fault Module) :=
  match parse source with
  | .error f => .done (.error f)
  | .ok program => do
    let (outcome, after) ← runProgram program.simplify file Scope.empty
    pure (outcome.map fun _ => moduleOf program.simplify after file)

end Script
end ScriptSession
