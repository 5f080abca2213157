import ScriptSession.Script.Syntax
import ScriptSession.Script.Token

/-!
# Parsing

Tokens to syntax trees. The grammar is a record of parsers for the phrases that contain one
another. A level of the record is built from the level below it, and each step down follows at
least one token that has been read; so as many levels as there are tokens are enough, and the
construction is a plain recursion on their number.

A parser stops at the first fault. Names that have been declared are remembered with whether they
are constant, since an assignment to a constant of the same script is already a fault here.
-/

namespace ScriptSession
namespace Script

/-! ## Reading tokens -/

/-- What a parser has before it and what it has learnt. -/
structure Reading where
  tokens : List (Token × Position)
  finish : Position
  names : List (String × Bool)
  functions : List Function

/-- A parser. -/
abbrev Parse := StateT Reading (Except (SyntaxFault × Position))

namespace Parse

/-- Stop at a fault. -/
def fail {α : Type} (cause : SyntaxFault) (p : Position) : Parse α := throw (cause, p)

/-- Stop because a token is missing. -/
def missing {α : Type} (token description : String) (p : Position) : Parse α :=
  fail (.missing token description) p

/-- Stop with a text. -/
def complain {α : Type} (text : String) (p : Position) : Parse α := fail (.message text) p

/-- The next token, left in place, and where it is. -/
def peek : Parse (Option Token × Position) := do
  let s ← get
  match s.tokens with
  | (t, p) :: _ => pure (some t, p)
  | [] => pure (none, s.finish)

/-- Step over a token. -/
def advance : Parse Unit := modify fun s => { s with tokens := s.tokens.tail }

/-- The next token. -/
def next : Parse (Option Token × Position) := do
  let t ← peek
  advance
  pure t

/-- Whether a token is a symbol. -/
def isSymbol (s : String) : Option Token → Bool
  | some (.symbol t) => s = t
  | _ => false

/-- Whether a token is a keyword. -/
def isKeyword (s : String) : Option Token → Bool
  | some (.keyword t) => s = t
  | _ => false

/-- Step over a symbol if it is there. -/
def accept (s : String) : Parse Bool := do
  let (t, _) ← peek
  if isSymbol s t then
    advance
    pure true
  else pure false

/-- Step over a keyword if it is there. -/
def acceptKeyword (s : String) : Parse Bool := do
  let (t, _) ← peek
  if isKeyword s t then
    advance
    pure true
  else pure false

/-- Step over a symbol that has to be there. -/
def expect (s description : String) : Parse Position := do
  match ← next with
  | (some (.fault cause), p) => fail cause p
  | (t, p) => if isSymbol s t then pure p else missing s description p

/-- Repeat a step until it is done; the tokens left bound the number of rounds. -/
def rounds {σ α : Type} (step : σ → Parse (σ ⊕ α)) : Nat → σ → Parse α
  | 0, _ => do fail .incomplete (← get).finish
  | n + 1, s => do
    match ← step s with
    | .inl s => rounds step n s
    | .inr a => pure a

/-- Repeat a step that reads at least a token a round. -/
def untilDone {σ α : Type} (step : σ → Parse (σ ⊕ α)) (s : σ) : Parse α := do
  rounds step ((← get).tokens.length + 2) s

/-! ## Names -/

/-- The name of a variable. -/
def variableName : Parse (String × Position) := do
  match ← next with
  | (some (.word s), p) => pure (s, p)
  | (some (.reserved s), p) =>
    if isWord s then fail (.reserved s) p else complain "Expecting name of a variable" p
  | (some (.fault cause), p) => fail cause p
  | (_, p) => complain "Expecting name of a variable" p

/-- Remember a declared name. -/
def declareName (name : String) (isConstant : Bool) : Parse Unit :=
  modify fun s => { s with names := (name, isConstant) :: s.names }

/-- Forget the names declared inside. -/
def enclosed {α : Type} (p : Parse α) : Parse α := do
  let names := (← get).names
  let a ← p
  modify fun s => { s with names := names }
  pure a

/-- Whether the last declaration of a name is that of a constant. -/
def isKnownConstant (name : String) : Parse Bool := do
  pure (((← get).names.find? fun n => n.1 = name).any (·.2))

end Parse

open Parse

/-! ## Checks on expressions -/

namespace Expr

/-- What a constant is called in a complaint about its kind. -/
def kindName : Expr → Option String
  | .literal .unit _ => some "()"
  | .literal (.bool _) _ => some "a boolean"
  | .literal (.int _) _ => some "a number"
  | .literal (.float _) _ => some "a floating-point number"
  | .literal (.char _) _ => some "a character"
  | .literal (.text _) _ | .template _ _ => some "a string"
  | .array _ _ => some "an array"
  | .map _ _ => some "an object map"
  | _ => none

/-- An expression that can be a condition. -/
def ensureCondition (e : Expr) : Parse Expr :=
  match e, e.kindName with
  | .literal (.bool _) _, _ | _, none => pure e
  | _, some kind => complain ("Expecting a boolean expression, not " ++ kind) e.start

/-- An expression that can be gone through. -/
def ensureIterable (e : Expr) : Parse Expr :=
  match e, e.kindName with
  | .array _ _, _ | .template _ _, _ | _, none => pure e
  | _, some kind => complain ("Expecting an iterable value, not " ++ kind) e.start

mutual

/-- Whether an expression is made of literals only. -/
def isConstant : Expr → Bool
  | .literal _ _ => true
  | .array items _ => areConstant items
  | .map fields _ => fieldsAreConstant fields
  | _ => false

/-- Whether all expressions are made of literals only. -/
def areConstant : List Expr → Bool
  | [] => true
  | e :: rest => isConstant e && areConstant rest

/-- Whether all fields are made of literals only. -/
def fieldsAreConstant : List (String × Expr) → Bool
  | [] => true
  | (_, e) :: rest => isConstant e && fieldsAreConstant rest

end

/-- The first method of a chain. -/
def methodPosition? (links : List Link) : Option Position :=
  links.findSome? fun
    | .method _ _ p => some p
    | _ => none

/-- What cannot be assigned to. -/
def ensureTarget (op : Option String) (opAt : Position) (e : Expr) : Parse Unit := do
  let refuse (p : Position) : Parse Unit := complain "Expression cannot be assigned to" p
  match e with
  | .name [] word p =>
    if ← isKnownConstant word then complain ("Cannot assign to constant " ++ word) p
  | .name _ _ _ => pure ()
  | .chain root links _ =>
    match methodPosition? links, root with
    | some p, _ => refuse p
    | none, .name _ _ _ => pure ()
    | none, _ => refuse root.position
  | .both _ _ p | .either _ _ p =>
    if op.isNone then complain "Possibly a typo of '=='?" opAt else refuse p
  | e =>
    if e.isConstant then complain "Cannot assign to a constant value" e.start
    else refuse e.position

end Expr

/-! ## The grammar -/

/-- Where a phrase stands. -/
structure Place where
  inLoop : Bool
  isGlobal : Bool

namespace Place

/-- Inside a block. -/
def inner (p : Place) : Place := { p with isGlobal := false }

/-- Inside the body of a loop. -/
def looping (_ : Place) : Place := ⟨true, false⟩

end Place

/-- The parsers of one level. -/
structure Grammar where
  expr : Place → Parse Expr
  unary : Place → Parse Expr
  climb : Place → Nat → Expr → Parse Expr
  stmt : Place → Parse (Option Stmt)
  branch : Place → Position → Parse Stmt

/-- The level below all levels. It is reached only by phrases longer than the text. -/
def Grammar.ground : Grammar :=
  let stop {α : Type} : Parse α := do fail .incomplete (← get).finish
  ⟨fun _ => stop, fun _ => stop, fun _ _ _ => stop, fun _ => stop, fun _ _ => stop⟩

namespace Grammar

/-! ## Blocks -/

/-- Whether the statement read last is followed as it has to be. -/
def endOfStatement (s : Stmt) : Parse Unit := do
  if s.endsItself then pure ()
  else
    match ← peek with
    | (some (.symbol ";"), _) => advance
    | (some (.symbol "\x7d"), _) => pure ()
    | (some (.fault cause), p) => fail cause p
    | (_, p) => missing ";" "to terminate this statement" p

/-- The statements of a block behind its opening brace. -/
def blockBody (g : Grammar) (place : Place) : Parse (List Stmt) :=
  enclosed <| untilDone (fun (acc : List Stmt) => do
    match ← peek with
    | (some (.symbol "\x7d"), _) =>
      advance
      pure (.inr acc.reverse)
    | (none, p) => missing "\x7d" "to terminate this block" p
    | _ =>
      match ← g.stmt place.inner with
      | none => pure (.inl acc)
      | some s =>
        endOfStatement s
        pure (.inl (s :: acc))) []

/-- A block, and where it starts. -/
def block (g : Grammar) (place : Place) : Parse (List Stmt × Position) := do
  let p ← expect "\x7b" "to start a statement block"
  pure (← g.blockBody place, p)

/-! ## Lists between brackets -/

/-- Items up to a closing symbol. A comma may follow the last one. -/
def items (g : Grammar) (place : Place) (close closeText commaText : String) :
    Parse (List Expr) :=
  untilDone (fun (acc : List Expr) => do
    match ← peek with
    | (none, p) => missing close closeText p
    | (t, _) =>
      if isSymbol close t then
        advance
        pure (.inr acc.reverse)
      else
        let e ← g.expr place
        match ← peek with
        | (some (.symbol ","), _) =>
          advance
          pure (.inl (e :: acc))
        | (none, p) => missing close closeText p
        | (some (.fault cause), p) => fail cause p
        | (t, p) =>
          if isSymbol close t then pure (.inl (e :: acc)) else missing "," commaText p) []

/-- The arguments of a call behind the opening parenthesis. -/
def arguments (g : Grammar) (place : Place) (name : String) : Parse (List Expr) :=
  g.items place ")" ("to close the arguments list of this function call '" ++ name ++ "'")
    ("to separate the arguments to function call '" ++ name ++ "'")

/-- The name of a field of a map. -/
def fieldName (seen : List (String × Expr)) : Parse String := do
  let closing := "to end this object map literal"
  let fresh (s : String) (p : Position) : Parse String :=
    if seen.any (·.1 = s) then complain ("Duplicated property for object map literal: " ++ s) p
    else pure s
  match ← next with
  | (some (.word s), p) | (some (.text s), p) => fresh s p
  | (some (.reserved s), p) => fail (.reserved s) p
  | (some (.fault cause), p) => fail cause p
  | (none, p) => missing "\x7d" closing p
  | (_, p) => complain "Expecting name of a property" p

/-- The fields of a map behind its opening brace. -/
def fields (g : Grammar) (place : Place) : Parse (List (String × Expr)) :=
  let closing := "to end this object map literal"
  untilDone (fun (acc : List (String × Expr)) => do
    match ← peek with
    | (some (.symbol "\x7d"), _) =>
      advance
      pure (.inr acc.reverse)
    | (none, p) => missing "\x7d" closing p
    | _ =>
      let name ← fieldName acc
      let _ ← expect ":" ("to follow the property '" ++ name ++ "' in this object map literal")
      let e ← g.expr place
      match ← peek with
      | (some (.symbol ","), _) =>
        advance
        pure (.inl ((name, e) :: acc))
      | (some (.symbol "\x7d"), _) => pure (.inl ((name, e) :: acc))
      | (some (.word _), p) => missing "," "to separate the items of this object map literal" p
      | (some (.fault cause), p) => fail cause p
      | (_, p) => missing "\x7d" closing p) []

/-! ## Conditions and loops -/

/-- A condition, which no block may stand for and no assignment may follow. -/
def condition (g : Grammar) (place : Place) : Parse Expr := do
  match ← peek with
  | (some (.symbol "\x7b"), p) => complain "Expecting a boolean expression" p
  | _ =>
    let e ← (← g.expr place).ensureCondition
    match ← peek with
    | (some (.symbol "="), p) => complain "Possibly a typo of '=='?" p
    | _ => pure e

/-- A branch behind its `if`. -/
def branchStmt (g : Grammar) (place : Place) (p : Position) : Parse Stmt := do
  let test ← g.condition place
  let (yes, _) ← g.block place
  if ← acceptKeyword "else" then
    match ← peek with
    | (some (.keyword "if"), q) =>
      advance
      pure (.branch test yes [← g.branch place q] p)
    | _ => pure (.branch test yes (← g.block place).1 p)
  else pure (.branch test yes [] p)

/-- A loop behind its `while` or `loop`. -/
def whileStmt (g : Grammar) (place : Place) (tested : Bool) (p : Position) : Parse Stmt := do
  let test ← if tested then some <$> g.condition place else pure none
  let (body, q) ← g.block place.looping
  pure (.whilst test body q p)

/-- The names an iteration binds. -/
def iterationNames : Parse (String × Option String) := do
  if ← accept "(" then
    let (name, _) ← variableName
    match ← peek with
    | (some (.symbol ","), _) => advance
    | (_, p) => missing "," "after the iteration variable name" p
    let (counter, p) ← variableName
    if counter = name then complain ("Duplicated variable name: " ++ counter) p
    match ← peek with
    | (some (.symbol ")"), _) => advance
    | (_, p) => missing ")" "to close the iteration variable" p
    pure (name, some counter)
  else pure ((← variableName).1, none)

/-- An iteration behind its `for`. -/
def forStmt (g : Grammar) (place : Place) (p : Position) : Parse Stmt := do
  let (name, counter) ← iterationNames
  match ← next with
  | (some (.keyword "in"), _) => pure ()
  | (some (.fault cause), p) => fail cause p
  | (_, p) => missing "in" "after the iteration variable" p
  match ← peek with
  | (some (.symbol "\x7b"), p) => complain "Expecting a boolean expression" p
  | _ => pure ()
  let source ← (← g.expr place).ensureIterable
  enclosed do
    declareName name false
    if let some c := counter then declareName c false
    let (body, q) ← g.block place.looping
    pure (.each name counter source body q p)

/-! ## Operands -/

/-- The rest of a template behind its first piece. -/
def template (g : Grammar) (place : Place) (first : String) (p : Position) : Parse Expr := do
  let piece (s : String) (at_ : Position) (acc : List Expr) : List Expr :=
    if s.isEmpty then acc else .literal (.text s) at_ :: acc
  untilDone (fun (acc : List Expr) => do
    let (body, q) ← g.block place
    let acc := .code body q :: acc
    match ← next with
    | (some (.text s), at_) => pure (.inr (.template (piece s at_ acc).reverse p))
    | (some (.piece s), at_) => pure (.inl (piece s at_ acc))
    | (some (.fault cause), at_) => fail cause at_
    | (_, at_) => fail .unterminatedString at_) (piece first p [])

/-- Whether an opening parenthesis follows. -/
def opensCall : Parse Bool := do
  let (t, _) ← peek
  pure (isSymbol "(" t || isSymbol "()" t)

/-- An operand without what follows it. -/
def operand (g : Grammar) (place : Place) : Parse Expr := do
  match ← next with
  | (none, p) => fail .incomplete p
  | (some t, p) =>
    match t with
    | .int n => pure (.literal (.int n) p)
    | .float x => pure (.literal (.float x) p)
    | .char c => pure (.literal (.char c) p)
    | .text s => pure (.literal (.text s) p)
    | .piece s => g.template place s p
    | .word s => pure (.name [] s p)
    | .reserved s =>
      if Token.callableWords.contains s && (← opensCall) then pure (.name [] s p)
      else fail (.reserved s) p
    | .fault cause => fail cause p
    | .keyword "true" => pure (.literal (.bool true) p)
    | .keyword "false" => pure (.literal (.bool false) p)
    | .keyword "if" => pure (.code [← g.branchStmt place p] p)
    | .keyword "while" => pure (.code [← g.whileStmt place true p] p)
    | .keyword "loop" => pure (.code [← g.whileStmt place false p] p)
    | .keyword "for" => pure (.code [← g.forStmt place p] p)
    | .symbol "()" => pure (.literal .unit p)
    | .symbol "(" =>
      if ← accept ")" then pure (.literal .unit p)
      else
        let e ← g.expr place
        let _ ← expect ")" "for a matching ( in this expression"
        pure e
    | .symbol "[" =>
      pure (.array (← g.items place "]" "to end this array literal"
        "to separate the items of this array literal") p)
    | .symbol "#\x7b" => pure (.map (← g.fields place) p)
    | .symbol "\x7b" => pure (.code (← g.blockBody place) p)
    | t => fail (.unexpected t.written) p

/-- A further link of a chain. -/
def extend (e : Expr) (l : Link) (p : Position) : Expr :=
  match e with
  | .chain root links q => .chain root (links ++ [l]) q
  | e => .chain e [l] p

/-- The member behind a dot. -/
def member (g : Grammar) (place : Place) : Parse Link := do
  let named (s : String) (p : Position) : Parse Link := do
    if ← accept "()" then pure (.method s [] p)
    else if ← accept "(" then pure (.method s (← g.arguments place s) p)
    else pure (.field s p)
  match ← next with
  | (some (.word s), p) => named s p
  | (some (.reserved s), p) =>
    if Token.methodWords.contains s then named s p else fail (.reserved s) p
  | (_, p) => complain "Expecting name of a property" p

/-- An operand with all that follows it. -/
def primary (g : Grammar) (place : Place) : Parse Expr := do
  untilDone (fun (e : Expr) => do
    match e, ← peek with
    | .name path s p, (some (.symbol "()"), _) =>
      advance
      pure (.inl (.call path s [] p))
    | .name path s p, (some (.symbol "("), _) =>
      advance
      pure (.inl (.call path s (← g.arguments place s) p))
    | .name path s p, (some (.symbol "::"), _) =>
      advance
      let (member, q) ← variableName
      pure (.inl (.name (path ++ [(s, p)]) member q))
    | e, (some (.symbol "["), p) =>
      advance
      let key ← g.expr place
      let _ ← expect "]" "for a matching [ in this index expression"
      pure (.inl (extend e (.index key p) p))
    | e, (some (.symbol "."), p) =>
      advance
      pure (.inl (extend e (← g.member place) p))
    | e, _ => pure (.inr e)) (← g.operand place)

/-- A negated operand. A literal number is negated on the spot. -/
def negated (e : Expr) (p : Position) : Expr :=
  match e with
  | .literal (.int n) q =>
    if Value.fits (-n) then .literal (.int (-n)) q else .literal (.float (-Float.ofInt n)) q
  | .literal (.float x) q => .literal (.float (-x)) q
  | e => .unary "-" e p

/-- An operand with the signs in front. -/
def unaryExpr (g : Grammar) (place : Place) : Parse Expr := do
  match ← peek with
  | (none, p) => fail .incomplete p
  | (some (.symbol "-"), p) =>
    advance
    pure (negated (← g.unary place) p)
  | (some (.symbol "+"), p) =>
    advance
    match ← g.unary place with
    | .literal (.int n) q => pure (.literal (.int n) q)
    | .literal (.float x) q => pure (.literal (.float x) q)
    | e => pure (.unary "+" e p)
  | (some (.symbol "!"), p) =>
    advance
    pure (.unary "!" (← g.unary place) p)
  | _ => g.primary place

/-! ## Operators -/

/-- How strongly an operator binds; nothing for what is no operator. -/
def precedence : Option Token → Nat
  | some (.symbol s) =>
    if s = "||" then 30
    else if s = "&&" then 60
    else if s = "==" ∨ s = "!=" then 90
    else if s = "<" ∨ s = "<=" ∨ s = ">" ∨ s = ">=" then 130
    else if s = ".." ∨ s = "..=" then 140
    else if s = "+" ∨ s = "-" then 150
    else if s = "*" ∨ s = "/" ∨ s = "%" then 180
    else 0
  | _ => 0

/-- An operator between two operands. -/
def combine (op : String) (l r : Expr) (p : Position) : Parse Expr := do
  if op = "&&" then pure (.both (← l.ensureCondition) (← r.ensureCondition) p)
  else if op = "||" then pure (.either (← l.ensureCondition) (← r.ensureCondition) p)
  else pure (.binary op l r p)

/-- Take in operators that bind more strongly than the one on the left. -/
def climbing (g : Grammar) (place : Place) (parent : Nat) (root : Expr) : Parse Expr :=
  untilDone (fun (root : Expr) => do
    match ← peek with
    | (some (.fault cause), p) => fail cause p
    | (t, p) =>
      if let some (.reserved s) := t then
        unless isWord s do complain ("Unknown operator: '" ++ s ++ "'") p
      let own := precedence t
      if own ≤ parent then pure (.inr root)
      else
        advance
        let r ← g.unary place
        let r ← if own < precedence (← peek).1 then g.climb place own r else pure r
        pure (.inl (← combine ((t.map Token.written).getD "") root r p))) root

/-- An expression. -/
def expression (g : Grammar) (place : Place) : Parse Expr := do
  g.climbing place 0 (← g.unaryExpr place)

/-! ## Statements -/

/-- The operators of assignments that compute. -/
def updating (s : String) : Option String :=
  (["+=", "-=", "*=", "/=", "%="].find? (· = s)).map fun _ => (s.dropEnd 1).toString

/-- A statement that starts with an expression. -/
def exprStmt (g : Grammar) (place : Place) : Parse Stmt := do
  let e ← g.expression place
  let finish (op : Option String) (p : Position) : Parse Stmt := do
    advance
    let value ← g.expression place
    e.ensureTarget op p
    pure (.assign op e value p)
  match ← peek with
  | (some (.symbol "="), p) => finish none p
  | (some (.symbol s), p) =>
    match updating s with
    | some op => finish (some op) p
    | none => pure (.expr e)
  | _ => pure (.expr e)

/-- A declaration behind its keyword. -/
def declaration (g : Grammar) (place : Place) (isConstant isExported : Bool) (p : Position) :
    Parse Stmt := do
  let (name, _) ← variableName
  let value ← if ← accept "=" then some <$> g.expression place else pure none
  declareName name isConstant
  pure (.declare name value isConstant isExported p)

/-- The optional value behind `return`, `throw` or `break`. -/
def optionalValue (g : Grammar) (place : Place) : Parse (Option Expr) := do
  match ← peek with
  | (none, _) | (some (.symbol ";"), _) | (some (.symbol "\x7d"), _) => pure none
  | _ => some <$> g.expression place

/-- The parameters of a function behind the opening parenthesis. -/
def parameters (function : String) : Parse (List String) :=
  untilDone (fun (acc : List String) => do
    match ← next with
    | (some (.symbol ")"), _) => pure (.inr acc)
    | (some (.word s), p) =>
      if acc.contains s then
        complain ("Duplicated parameter " ++ s ++ " for function " ++ function) p
      match ← next with
      | (some (.symbol ")"), _) => pure (.inr (acc ++ [s]))
      | (some (.symbol ","), _) => pure (.inl (acc ++ [s]))
      | (some (.fault cause), q) => fail cause q
      | (_, q) => missing "," ("to separate the parameters of function '" ++ function ++ "'") q
    | (some (.fault cause), p) => fail cause p
    | (_, p) =>
      missing ")" ("to close the parameters list of function '" ++ function ++ "'") p) []

/-- How many parameters a function has, in words. -/
def parameterCount : Nat → String
  | 0 => "no parameters"
  | 1 => "1 parameter"
  | n => toString n ++ " parameters"

/-- A function behind its `fn`. It sees none of the names around it. -/
def functionDef (g : Grammar) (isPrivate : Bool) : Parse Unit := do
  let name ← match ← next with
    | (some (.word s), _) => pure s
    | (some (.reserved s), p) =>
      if Token.callableWords.contains s then pure s else fail (.reserved s) p
    | (some (.fault cause), p) => fail cause p
    | (_, p) => complain "Expecting function name in function declaration" p
  let params ←
    if ← accept "()" then pure []
    else if ← accept "(" then parameters name
    else complain ("Expecting parameters for function " ++ name) (← peek).2
  let (t, at_) ← peek
  unless isSymbol "\x7b" t do
    complain ("Expecting body statement block for function " ++ name) at_
  let names := (← get).names
  modify fun s => { s with names := params.map fun x => (x, false) }
  let (body, _) ← g.block ⟨false, false⟩
  modify fun s => { s with names := names }
  if (← get).functions.any fun f => f.name = name ∧ f.params.length = params.length then
    complain ("Function " ++ name ++ " with " ++ parameterCount params.length ++
      " already exists") at_
  modify fun s => { s with functions := s.functions ++ [⟨name, params, body, isPrivate⟩] }

/-- An attempt behind its `try`. -/
def attemptStmt (g : Grammar) (place : Place) (p : Position) : Parse Stmt := do
  let (body, _) ← g.block place
  match ← peek with
  | (some (.keyword "catch"), _) => advance
  | (_, q) => missing "catch" "for the 'try' statement" q
  enclosed do
    let name ←
      if ← accept "(" then
        let (name, _) ← variableName
        match ← peek with
        | (some (.symbol ")"), _) => advance
        | (_, q) => missing ")" "to enclose the catch variable" q
        declareName name false
        pure (some name)
      else pure none
    let (handler, _) ← g.block place
    pure (.attempt body name handler p)

/-- The name behind an `as`. -/
def localName? : Parse (Option String) := do
  if ← acceptKeyword "as" then pure (some (← variableName).1) else pure none

/-- What leaves or continues a loop only makes sense inside one. -/
def ensureLoop (place : Place) (p : Position) : Parse Unit := do
  unless place.inLoop do
    complain "Break statement should only be used inside a loop" p

/-- A statement that starts with a keyword; nothing when the keyword starts an expression. -/
def keywordStmt (g : Grammar) (place : Place) (word : String) (p : Position) :
    Parse (Option Stmt) := do
  let function (isPrivate : Bool) : Parse (Option Stmt) := do
    unless place.isGlobal do
      complain ("Function definitions must be at global level and cannot be inside a block" ++
        " or another function") p
    g.functionDef isPrivate
    pure none
  match word with
  | "fn" =>
    advance
    function false
  | "private" =>
    advance
    if ← acceptKeyword "fn" then function true
    else missing "fn" "following 'private'" (← peek).2
  | "if" =>
    advance
    some <$> g.branchStmt place p
  | "while" =>
    advance
    some <$> g.whileStmt place true p
  | "loop" =>
    advance
    some <$> g.whileStmt place false p
  | "for" =>
    advance
    some <$> g.forStmt place p
  | "let" =>
    advance
    some <$> g.declaration place false false p
  | "const" =>
    advance
    some <$> g.declaration place true false p
  | "continue" =>
    ensureLoop place p
    advance
    pure (some (.skip p))
  | "break" =>
    ensureLoop place p
    advance
    pure (some (.leave (← g.optionalValue place) p))
  | "return" =>
    advance
    pure (some (.ret (← g.optionalValue place) p))
  | "throw" =>
    advance
    pure (some (.raise (← g.optionalValue place) p))
  | "try" =>
    advance
    some <$> g.attemptStmt place p
  | "import" =>
    advance
    let path ← g.expression place
    pure (some (.load path (← localName?) p))
  | "export" =>
    unless place.isGlobal do complain "Export statement can only appear at global level" p
    advance
    if ← acceptKeyword "let" then some <$> g.declaration place false true p
    else if ← acceptKeyword "const" then some <$> g.declaration place true true p
    else
      let (name, _) ← variableName
      pure (some (.share name (← localName?) p))
  | _ => some <$> g.exprStmt place

/-- A statement; nothing for an empty one and for a function. -/
def statement (g : Grammar) (place : Place) : Parse (Option Stmt) := do
  match ← peek with
  | (none, _) => pure none
  | (some (.symbol ";"), _) =>
    advance
    pure none
  | (some (.symbol "\x7b"), p) =>
    advance
    pure (some (.block (← g.blockBody place) p))
  | (some (.keyword word), p) => g.keywordStmt place word p
  | _ => some <$> g.exprStmt place

/-! ## Whole scripts -/

/-- The level above a level. -/
def above (g : Grammar) : Grammar :=
  ⟨g.expression, g.unaryExpr, g.climbing, g.statement, g.branchStmt⟩

/-- The level of a given height. -/
def level : Nat → Grammar
  | 0 => Grammar.ground
  | n + 1 => (level n).above

/-- The statements of a script. -/
def script (g : Grammar) : Parse (List Stmt) :=
  untilDone (fun (acc : List Stmt) => do
    match ← peek with
    | (none, _) => pure (.inr acc.reverse)
    | _ =>
      match ← g.statement ⟨false, true⟩ with
      | none => pure (.inl acc)
      | some s =>
        match ← peek with
        | (none, _) => pure (.inr (s :: acc).reverse)
        | (some (.symbol "\x7d"), p) =>
          if s.endsItself then pure (.inl (s :: acc))
          else missing ";" "to terminate this statement" p
        | _ =>
          endOfStatement s
          pure (.inl (s :: acc))) []

end Grammar

/-- Parse a script. -/
def parse (source : String) : Except Fault Program :=
  let (tokens, finish) := tokenize source
  match (Grammar.level (tokens.length + 1)).script.run ⟨tokens, finish, [], []⟩ with
  | .ok (body, s) => .ok ⟨body, s.functions⟩
  | .error (cause, p) => .error (.parsing cause (some p))

end Script
end ScriptSession
