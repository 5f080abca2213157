import ScriptSession.Path
import ScriptSession.Script.Fault
import ScriptSession.Script.Scope
import ScriptSession.Script.Syntax

/-!
# Runs

A script computes by itself and asks its surroundings for everything else: to write a line, to
sleep, to read a file, to import a module, and from time to time whether it may go on. A run is the
tree of these questions. What a question means is decided by whoever interprets the tree, so one
evaluator serves a test with prepared answers and a session with several tasks side by side.
-/

namespace ScriptSession
namespace Script

/-- What a script sees of a module file: what it exports, its functions, the modules it imports
itself, and the path it was read from. -/
inductive Module where
  | mk (exports : List (String × Value)) (functions : List Function)
      (imports : List (String × Module)) (source : String)
deriving Inhabited

namespace Module

/-- The exported values. -/
def exports : Module → List (String × Value)
  | .mk e _ _ _ => e

/-- The functions. -/
def functions : Module → List Function
  | .mk _ f _ _ => f

/-- The imported modules. -/
def imports : Module → List (String × Module)
  | .mk _ _ i _ => i

/-- The path of the file. -/
def source : Module → String
  | .mk _ _ _ s => s

end Module

/-! ## Questions -/

/-- A question to the surroundings. -/
inductive Request where
  | print (text : String)
  | complain (text : String)
  | sleep (millis : Nat)
  | readText (path : String)
  | proceed
  | load (module : String) (at_ : Position)

/-- What is answered to a question: whether a sleep was cut short, the text or why there is none,
whether to go on, the module or why there is none, or nothing. -/
def Request.Reply : Request → Type
  | .print _ | .complain _ => Unit
  | .sleep _ | .proceed => Bool
  | .readText _ => Except String String
  | .load _ _ => Except Fault Module

/-! ## Trees of questions -/

/-- A computation that asks questions. -/
inductive Run (α : Type) : Type where
  | done (a : α)
  | ask (r : Request) (k : r.Reply → Run α)

namespace Run

/-- Go on with the result. -/
def bind {α β : Type} (m : Run α) (f : α → Run β) : Run β :=
  match m with
  | .done a => f a
  | .ask r k => .ask r fun x => (k x).bind f

instance : Monad Run where
  pure := .done
  bind := bind

/-- Put a question. -/
def request (r : Request) : Run r.Reply := .ask r .done

end Run
end Script
end ScriptSession
