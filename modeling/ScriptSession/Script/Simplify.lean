import ScriptSession.Script.Syntax

/-!
# Simplification

A script is simplified before it runs: statements without an effect are left out, branches and
loops with a constant condition are decided, and an assignment of an operation on the variable
itself becomes an update. This is visible from outside. A name that stands alone as a statement is
left out together with the complaint that it is not declared.

Parts are simplified first and lists of statements afterwards. What a list may lose depends on
whether its value is wanted and on whether its declarations end with it.
-/

namespace ScriptSession
namespace Script

/-! ## Statements without an effect -/

mutual

/-- Whether evaluating an expression has no effect but its value. -/
def Expr.isPure : Expr → Bool
  | .literal _ _ | .name _ _ _ => true
  | .template parts _ | .array parts _ => arePure parts
  | .map fields _ => fieldsArePure fields
  | .both l r _ | .either l r _ => l.isPure && r.isPure
  | .code body _ => bodyIsPure body
  | _ => false

/-- Whether all expressions are pure. -/
def arePure : List Expr → Bool
  | [] => true
  | e :: rest => e.isPure && arePure rest

/-- Whether all fields are pure. -/
def fieldsArePure : List (String × Expr) → Bool
  | [] => true
  | (_, e) :: rest => e.isPure && fieldsArePure rest

/-- Whether a statement can be left out when nobody wants its value. -/
def Stmt.isPure : Stmt → Bool
  | .expr e => e.isPure
  | .branch test yes no _ => test.isPure && bodyIsPure yes && bodyIsPure no
  | .each _ _ source body _ _ => source.isPure && bodyIsPure body
  | .block body _ => bodyIsPure body
  | .attempt body _ handler _ => bodyIsPure body && bodyIsPure handler
  | _ => false

/-- Whether all statements are pure. -/
def bodyIsPure : List Stmt → Bool
  | [] => true
  | s :: rest => s.isPure && bodyIsPure rest

end

mutual

/-- Whether a statement at the end of a block whose names end with it can be left out. -/
def Stmt.isInnerPure : Stmt → Bool
  | .declare _ value _ _ _ => value.all Expr.isPure
  | .block body _ => bodyIsInnerPure body
  | .load path _ _ => path.isPure
  | .share _ _ _ => true
  | s => s.isPure

/-- Whether all statements are of that kind. -/
def bodyIsInnerPure : List Stmt → Bool
  | [] => true
  | s :: rest => s.isInnerPure && bodyIsInnerPure rest

end

/-! ## Lists of statements -/

namespace Stmt

/-- A statement that nothing can follow. -/
def endsFlow : Stmt → Bool
  | .ret _ _ | .raise _ _ | .leave _ _ | .skip _ => true
  | _ => false

/-- A statement with a value of its own. -/
def hasValue : Stmt → Bool
  | .branch _ _ _ _ | .block _ _ | .expr _ => true
  | _ => false

/-- A statement that means something else outside its block. -/
def belongsToBlock : Stmt → Bool
  | .declare _ _ _ _ _ | .load _ _ _ | .share _ _ _ => true
  | _ => false

/-- A statement that does nothing. -/
def idle (p : Position) : Stmt := .expr (.literal .unit p)

/-- A statement before which no declaration is left out. -/
def staysInPlace : Stmt → Bool
  | .declare _ none _ _ _ => true
  | .declare _ (some (.literal _ _)) _ _ _ => true
  | .declare _ _ _ _ _ => false
  | .expr (.literal _ _) => false
  | .expr _ => true
  | .load (.literal _ _) _ _ => false
  | .load _ _ _ => true
  | _ => false

end Stmt

/-- How a list of statements is used: whether its value is wanted, whether its names end with it,
and whether a `return` at its end can be left out. -/
structure Usage where
  wanted : Bool
  isInner : Bool
  returns : Bool

namespace Usage

/-- The statements of a script. -/
def script : Usage := ⟨true, false, true⟩

/-- The body of a function. -/
def function : Usage := ⟨true, true, true⟩

/-- A block. -/
def block (wanted : Bool) : Usage := ⟨wanted, true, false⟩

/-- Whether a statement can be left out at the end. -/
def drops (u : Usage) (s : Stmt) : Bool := if u.isInner then s.isInnerPure else s.isPure

end Usage

/-- Statements with simple blocks opened. -/
def openBlocks (body : List Stmt) : List Stmt :=
  body.flatMap fun
    | .block inner p => if inner.any Stmt.belongsToBlock then [.block inner p] else inner
    | s => [s]

/-- Statements up to the first that nothing can follow. -/
def reachable : List Stmt → List Stmt
  | [] => []
  | s :: rest => if s.endsFlow then [s] else s :: reachable rest

/-- Statements without those that have no effect. The last one stays when its value is wanted;
those that only end with the block go when nothing with an effect follows. -/
def effective (u : Usage) : List Stmt → List Stmt
  | [] => []
  | s :: rest =>
    let settled := rest.all fun t => u.drops t && !t.staysInPlace
    if u.wanted && rest.isEmpty then [s]
    else if s.isPure || (settled && u.drops s) then effective u rest
    else s :: effective u rest

/-- The end of a list whose value is wanted, last statement first. -/
def trimWanted (u : Usage) : List Stmt → List Stmt
  | [] => []
  | .ret none p :: rest =>
    if u.returns && rest.head?.all (fun s => !s.hasValue) then trimWanted u rest
    else .ret none p :: rest
  | .ret (some e) p :: rest => if u.returns then .expr e :: rest else .ret (some e) p :: rest
  | s :: rest =>
    if !s.hasValue && u.drops s then
      match rest with
      | t :: _ => if t.hasValue then Stmt.idle s.position :: rest else trimWanted u rest
      | [] => []
    else s :: rest

/-- The end of a list whose value is not wanted, last statement first. -/
def trimUnwanted (u : Usage) : List Stmt → List Stmt
  | [] => []
  | s :: rest => if u.drops s then trimUnwanted u rest else s :: rest

/-- A list of simplified statements without what it does not need. -/
def tidy (u : Usage) (body : List Stmt) : List Stmt :=
  let kept := (effective u (reachable (openBlocks body))).reverse
  (if u.wanted then trimWanted u kept else trimUnwanted u kept).reverse

/-! ## Statements and expressions -/

/-- A block, or its only statement when it means the same outside. -/
def blockOf (body : List Stmt) (p : Position) : Stmt :=
  match body with
  | [] => Stmt.idle p
  | [s] => if s.belongsToBlock then .block [s] p else s
  | body => .block body p

/-- An expression out of code; code that is a single expression is that expression. -/
def codeOf (body : List Stmt) (p : Position) : Expr :=
  match body with
  | [] => .literal .unit p
  | [.expr e] => e
  | body => .code body p

/-- An assignment; one that computes from its own variable is an update. -/
def assignOf (target value : Expr) (p : Position) : Stmt :=
  match target, value with
  | .name [] x _, .binary op (.name [] y q) r at_ =>
    if x = y ∧ ["+", "-", "*", "/", "%"].contains op then .assign (some op) target r at_
    else .assign none target (.binary op (.name [] y q) r at_) p
  | _, _ => .assign none target value p

/-- A branch out of simplified parts. -/
def branchOf (wanted : Bool) (test : Expr) (yes no : List Stmt) (p : Position) : Stmt :=
  match test with
  | .literal (.bool true) _ => blockOf yes p
  | .literal (.bool false) _ => blockOf no p
  | test =>
    if yes.isEmpty && no.isEmpty then
      if wanted then .block [.expr test, Stmt.idle p] p else .expr test
    else .branch test yes no p

/-- Both of two conditions. -/
def bothOf (l r : Expr) (p : Position) : Expr :=
  match l, r with
  | .literal (.bool true) _, r => r
  | .literal (.bool false) q, _ => .literal (.bool false) q
  | l, .literal (.bool true) _ => l
  | l, r => .both l r p

/-- Either of two conditions. -/
def eitherOf (l r : Expr) (p : Position) : Expr :=
  match l, r with
  | .literal (.bool false) _, r => r
  | .literal (.bool true) q, _ => .literal (.bool true) q
  | l, .literal (.bool false) _ => l
  | l, r => .either l r p

mutual

/-- Simplify an expression. -/
def Expr.simplify : Expr → Expr
  | .template parts p => .template (simplifyExprs parts) p
  | .array items p => .array (simplifyExprs items) p
  | .map fields p => .map (simplifyFields fields) p
  | .call path name args p => .call path name (simplifyExprs args) p
  | .unary op e p => .unary op e.simplify p
  | .binary op l r p => .binary op l.simplify r.simplify p
  | .both l r p => bothOf l.simplify r.simplify p
  | .either l r p => eitherOf l.simplify r.simplify p
  | .chain root links p => .chain root.simplify (simplifyLinks links) p
  | .code body p => codeOf (tidy (Usage.block true) (simplifyBody true body)) p
  | e => e

/-- Simplify expressions. -/
def simplifyExprs : List Expr → List Expr
  | [] => []
  | e :: rest => e.simplify :: simplifyExprs rest

/-- Simplify the fields of a map. -/
def simplifyFields : List (String × Expr) → List (String × Expr)
  | [] => []
  | (name, e) :: rest => (name, e.simplify) :: simplifyFields rest

/-- Simplify the links of a chain. -/
def simplifyLinks : List Link → List Link
  | [] => []
  | .index key p :: rest => .index key.simplify p :: simplifyLinks rest
  | .method name args p :: rest => .method name (simplifyExprs args) p :: simplifyLinks rest
  | .field name p :: rest => .field name p :: simplifyLinks rest

/-- Simplify an optional expression. -/
def simplifyOption : Option Expr → Option Expr
  | some e => some e.simplify
  | none => none

/-- Simplify a statement. -/
def Stmt.simplify (wanted : Bool) : Stmt → Stmt
  | .expr (.code body p) => blockOf (tidy (Usage.block true) (simplifyBody true body)) p
  | .expr e => .expr e.simplify
  | .declare name value c x p => .declare name (simplifyOption value) c x p
  | .assign none target value p => assignOf target.simplify value.simplify p
  | .assign (some op) target value p => .assign (some op) target.simplify value.simplify p
  | .block body p => blockOf (tidy (Usage.block wanted) (simplifyBody wanted body)) p
  | .branch test yes no p =>
    branchOf wanted test.simplify (tidy (Usage.block wanted) (simplifyBody wanted yes))
      (tidy (Usage.block wanted) (simplifyBody wanted no)) p
  | .whilst test body q p =>
    let body := tidy (Usage.block false) (simplifyBody false body)
    match simplifyOption test with
    | some (.literal (.bool true) _) => .whilst none body q p
    | some (.literal (.bool false) _) => Stmt.idle p
    | test => .whilst test body q p
  | .each name counter source body q p =>
    .each name counter source.simplify (tidy (Usage.block false) (simplifyBody false body)) q p
  | .leave value p => .leave (simplifyOption value) p
  | .ret value p => .ret (simplifyOption value) p
  | .raise value p => .raise (simplifyOption value) p
  | .attempt body name handler p =>
    let body := simplifyBody false body
    if bodyIsPure body then blockOf (tidy (Usage.block false) body) p
    else
      .attempt (tidy (Usage.block false) body) name
        (tidy (Usage.block false) (simplifyBody false handler)) p
  | .load path localName p => .load path.simplify localName p
  | s => s

/-- Simplify statements one by one. -/
def simplifyBody (wanted : Bool) : List Stmt → List Stmt
  | [] => []
  | s :: rest => s.simplify wanted :: simplifyBody wanted rest

end

/-- Simplify a script and its functions. -/
def Program.simplify (p : Program) : Program :=
  ⟨tidy Usage.script (simplifyBody true p.body), p.functions.map fun f =>
    { f with body := tidy Usage.function (simplifyBody true f.body) }⟩

end Script
end ScriptSession
