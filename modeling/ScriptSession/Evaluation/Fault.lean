import ScriptSession.Script.Fault
import ScriptSession.Text.Blank

/-!
# Evaluation faults

What a session reports when an evaluation fails: the kind of the fault, decided once, and the
message. A fault raised by the script engine keeps the engine's own fault; one raised around the
engine has none.
-/

namespace ScriptSession
namespace Evaluation

open Script (FaultKind)

/-- A failed evaluation. -/
structure Fault where
  kind : FaultKind
  message : String
  cause : Option Script.Fault
deriving Repr

namespace Fault

/-- The report of an engine fault. -/
def ofScript (f : Script.Fault) : Fault := ⟨FaultKind.classify f, f.message, some f⟩

/-- A fault raised around the engine. -/
def raise (kind : FaultKind) (message : String) : Fault := ⟨kind, message, none⟩

/-- The text of a fault: what its kind puts in front, and the message. -/
def text (f : Fault) : String := f.kind.prefixText ++ f.message

/-- The message on one line. -/
def singleLine (f : Fault) : String := Text.singleLine f.message

end Fault
end Evaluation
end ScriptSession
