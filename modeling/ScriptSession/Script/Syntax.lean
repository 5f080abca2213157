import ScriptSession.Script.Fault

/-!
# Syntax trees

Expressions and statements of a script, each with the position that faults report. Functions are
collected on the side: they belong to the script as a whole, wherever they are written.
-/

namespace ScriptSession
namespace Script

/-- The names of modules in front of a name, with their positions. -/
abbrev Qualifier := List (String × Position)

mutual

/-- An expression. -/
inductive Expr where
  | literal (v : Value) (at_ : Position)
  | template (parts : List Expr) (at_ : Position)
  | array (items : List Expr) (at_ : Position)
  | map (fields : List (String × Expr)) (at_ : Position)
  | name (path : Qualifier) (name : String) (at_ : Position)
  | call (path : Qualifier) (name : String) (args : List Expr) (at_ : Position)
  | unary (op : String) (e : Expr) (at_ : Position)
  | binary (op : String) (l r : Expr) (at_ : Position)
  | both (l r : Expr) (at_ : Position)
  | either (l r : Expr) (at_ : Position)
  | chain (root : Expr) (links : List Link) (at_ : Position)
  | code (body : List Stmt) (at_ : Position)

/-- What follows a value: an index in brackets, a field, or a method with its arguments. -/
inductive Link where
  | index (key : Expr) (at_ : Position)
  | field (name : String) (at_ : Position)
  | method (name : String) (args : List Expr) (at_ : Position)

/-- A statement. -/
inductive Stmt where
  | expr (e : Expr)
  | declare (name : String) (value : Option Expr) (isConstant isExported : Bool) (at_ : Position)
  | assign (op : Option String) (target value : Expr) (at_ : Position)
  | block (body : List Stmt) (at_ : Position)
  | branch (test : Expr) (yes no : List Stmt) (at_ : Position)
  | whilst (test : Option Expr) (body : List Stmt) (bodyAt at_ : Position)
  | each (name : String) (counter : Option String) (source : Expr) (body : List Stmt)
      (bodyAt at_ : Position)
  | leave (value : Option Expr) (at_ : Position)
  | skip (at_ : Position)
  | ret (value : Option Expr) (at_ : Position)
  | raise (value : Option Expr) (at_ : Position)
  | attempt (body : List Stmt) (name : Option String) (handler : List Stmt) (at_ : Position)
  | load (path : Expr) (localName : Option String) (at_ : Position)
  | share (name : String) (localName : Option String) (at_ : Position)

end

deriving instance Inhabited for Expr
deriving instance Inhabited for Link
deriving instance Inhabited for Stmt

/-- A function of a script. -/
structure Function where
  name : String
  params : List String
  body : List Stmt
  isPrivate : Bool
deriving Inhabited

/-- A script: its statements and its functions. -/
structure Program where
  body : List Stmt
  functions : List Function
deriving Inhabited

namespace Expr

/-- Where an expression reports its faults: its operator, its first bracket or dot, or its
start. -/
def position : Expr → Position
  | .literal _ p | .template _ p | .array _ p | .map _ p | .name _ _ p | .call _ _ _ p
  | .unary _ _ p | .binary _ _ _ p | .both _ _ p | .either _ _ p | .chain _ _ p
  | .code _ p => p

/-- Where an expression starts. -/
def start : Expr → Position
  | .binary _ l _ _ | .both l _ _ | .either l _ _ => l.start
  | .chain root _ _ => root.start
  | .name ((_, p) :: _) _ _ => p
  | .call ((_, p) :: _) _ _ _ => p
  | e => e.position

end Expr

namespace Stmt

/-- Where a statement reports its faults. -/
def position : Stmt → Position
  | .expr e => e.position
  | .declare _ _ _ _ p | .assign _ _ _ p | .block _ p | .branch _ _ _ p | .whilst _ _ _ p
  | .each _ _ _ _ _ p | .leave _ p | .skip p | .ret _ p | .raise _ p | .attempt _ _ _ p
  | .load _ _ p | .share _ _ p => p

/-- A statement that ends without a semicolon. -/
def endsItself : Stmt → Bool
  | .block _ _ | .branch _ _ _ _ | .whilst _ _ _ _ | .each _ _ _ _ _ _ | .attempt _ _ _ _ =>
    true
  | _ => false

end Stmt
end Script
end ScriptSession
