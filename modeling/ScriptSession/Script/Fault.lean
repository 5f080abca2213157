import ScriptSession.Script.Value

/-!
# Script faults

Everything that can stop a script. Most faults know where they happened. A fault that passes out
of a function or a module is wrapped once per level, so that its text tells the way it took;
the innermost fault comes first.

`classify` sorts faults into the four kinds a session reports. A wrapped fault is as its inner
fault is, so the kind does not depend on how deep the fault happened.
-/

namespace ScriptSession
namespace Script

/-! ## Positions -/

/-- A place in a source text. Lines and columns count from one. -/
structure Position where
  line : Nat
  column : Nat
deriving DecidableEq, Repr, Inhabited

/-- A position as it stands in messages. -/
def Position.text (p : Position) : String :=
  "line " ++ toString p.line ++ ", position " ++ toString p.column

/-- A position behind a message; nothing when it is unknown. -/
def suffix : Option Position → String
  | some p => " (" ++ p.text ++ ")"
  | none => ""

/-! ## Faults -/

/-- What is wrong with a source text. -/
inductive SyntaxFault where
  | incomplete
  | unexpected (input : String)
  | unterminatedString
  | malformedEscape (sequence : String)
  | malformedNumber (text : String)
  | malformedChar (text : String)
  | reserved (word : String)
  | missing (token description : String)
  | message (text : String)
deriving DecidableEq, Repr

/-- A word is made of letters, digits and underscores. It has a letter, in front of all digits. -/
def isWord (s : String) : Bool :=
  let behind := s.toList.dropWhile (· == '_')
  behind.head?.any Char.isAlpha && behind.all fun c => c.isAlphanum || c == '_'

/-- The text of a syntax fault. -/
def SyntaxFault.text : SyntaxFault → String
  | .incomplete => "Script is incomplete"
  | .unexpected input => "Unexpected '" ++ input ++ "'"
  | .unterminatedString => "Open string is not terminated"
  | .malformedEscape s => "Invalid escape sequence: '" ++ s ++ "'"
  | .malformedNumber s => "Invalid number: '" ++ s ++ "'"
  | .malformedChar s => "Invalid character: '" ++ s ++ "'"
  | .reserved w =>
    "'" ++ w ++ "' is a reserved " ++ (if isWord w then "keyword" else "symbol")
  | .missing token description => "Expecting '" ++ token ++ "' " ++ description
  | .message text => text

/-- What stands behind a fault of the system. -/
inductive SystemSource where
  | io (text : String)
  | other (text : String)
deriving DecidableEq, Repr

/-- The text of a system source. -/
def SystemSource.text : SystemSource → String
  | .io text => text
  | .other text => text

/-- A fault. -/
inductive Fault where
  | system (text : String) (source : SystemSource)
  | parsing (cause : SyntaxFault) (at_ : Option Position)
  | variableExists (name : String) (at_ : Option Position)
  | forbiddenVariable (name : String) (at_ : Option Position)
  | variableNotFound (name : String) (at_ : Option Position)
  | propertyNotFound (name : String) (at_ : Option Position)
  | indexNotFound (index : Value) (at_ : Option Position)
  | functionNotFound (signature : String) (at_ : Option Position)
  | moduleNotFound (name : String) (at_ : Option Position)
  | inFunctionCall (name source : String) (inner : Fault) (at_ : Option Position)
  | inModule (name : String) (inner : Fault) (at_ : Option Position)
  | unboundThis (at_ : Option Position)
  | mismatchData (requested actual : String) (at_ : Option Position)
  | mismatchOutput (requested actual : String) (at_ : Option Position)
  | indexing (type : String) (at_ : Option Position)
  | arrayBounds (size : Nat) (index : Int) (at_ : Option Position)
  | stringBounds (size : Nat) (index : Int) (at_ : Option Position)
  | bitBounds (size : Nat) (index : Int) (at_ : Option Position)
  | notIterable (at_ : Option Position)
  | dataRace (name : String) (at_ : Option Position)
  | assignmentToConstant (name : String) (at_ : Option Position)
  | nonPureOnConstant (name : String) (at_ : Option Position)
  | dotExpression (text : String) (at_ : Option Position)
  | arithmetic (text : String) (at_ : Option Position)
  | tooManyOperations (at_ : Option Position)
  | tooManyVariables (at_ : Option Position)
  | tooManyModules (at_ : Option Position)
  | stackOverflow (at_ : Option Position)
  | dataTooLarge (what : String) (at_ : Option Position)
  | terminated (token : Value) (at_ : Option Position)
  | customSyntax (text : String) (tokens : List String) (at_ : Option Position)
  | thrown (value : Value) (at_ : Option Position)
  | loopBreak (isBreak : Bool) (value : Value) (at_ : Option Position)
  | returned (value : Value) (at_ : Option Position)
  | exited (value : Value) (at_ : Option Position)
deriving Inhabited, Repr

namespace Fault

/-! ## Texts -/

/-- Where a fault happened. -/
def position : Fault → Option Position
  | .system _ _ => none
  | .parsing _ p | .variableExists _ p | .forbiddenVariable _ p | .variableNotFound _ p
  | .propertyNotFound _ p | .indexNotFound _ p | .functionNotFound _ p | .moduleNotFound _ p
  | .inFunctionCall _ _ _ p | .inModule _ _ p | .unboundThis p | .mismatchData _ _ p
  | .mismatchOutput _ _ p | .indexing _ p | .arrayBounds _ _ p | .stringBounds _ _ p
  | .bitBounds _ _ p | .notIterable p | .dataRace _ p | .assignmentToConstant _ p
  | .nonPureOnConstant _ p | .dotExpression _ p | .arithmetic _ p | .tooManyOperations p
  | .tooManyVariables p | .tooManyModules p | .stackOverflow p | .dataTooLarge _ p
  | .terminated _ p | .customSyntax _ _ p | .thrown _ p | .loopBreak _ _ p | .returned _ p
  | .exited _ p => p

/-- A fault at another place. A fault of the system has no place and stays as it is. -/
def relocate (f : Fault) (p : Option Position) : Fault :=
  match f with
  | .system t s => .system t s
  | .parsing c _ => .parsing c p
  | .variableExists n _ => .variableExists n p
  | .forbiddenVariable n _ => .forbiddenVariable n p
  | .variableNotFound n _ => .variableNotFound n p
  | .propertyNotFound n _ => .propertyNotFound n p
  | .indexNotFound v _ => .indexNotFound v p
  | .functionNotFound s _ => .functionNotFound s p
  | .moduleNotFound n _ => .moduleNotFound n p
  | .inFunctionCall n s i _ => .inFunctionCall n s i p
  | .inModule n i _ => .inModule n i p
  | .unboundThis _ => .unboundThis p
  | .mismatchData r a _ => .mismatchData r a p
  | .mismatchOutput r a _ => .mismatchOutput r a p
  | .indexing t _ => .indexing t p
  | .arrayBounds n i _ => .arrayBounds n i p
  | .stringBounds n i _ => .stringBounds n i p
  | .bitBounds n i _ => .bitBounds n i p
  | .notIterable _ => .notIterable p
  | .dataRace n _ => .dataRace n p
  | .assignmentToConstant n _ => .assignmentToConstant n p
  | .nonPureOnConstant n _ => .nonPureOnConstant n p
  | .dotExpression t _ => .dotExpression t p
  | .arithmetic t _ => .arithmetic t p
  | .tooManyOperations _ => .tooManyOperations p
  | .tooManyVariables _ => .tooManyVariables p
  | .tooManyModules _ => .tooManyModules p
  | .stackOverflow _ => .stackOverflow p
  | .dataTooLarge w _ => .dataTooLarge w p
  | .terminated v _ => .terminated v p
  | .customSyntax t ts _ => .customSyntax t ts p
  | .thrown v _ => .thrown v p
  | .loopBreak b v _ => .loopBreak b v p
  | .returned v _ => .returned v p
  | .exited v _ => .exited v p

/-- The text of a type mismatch. -/
def mismatchText (what requested actual : String) : String :=
  what ++ " type incorrect" ++
    (if actual.isEmpty then ", expecting " ++ requested
    else if requested.isEmpty then ": " ++ actual
    else ": " ++ actual ++ " (expecting " ++ requested ++ ")")

/-- How many of a thing there are, for messages about bounds. -/
def onlySome (size : Nat) (one many empty place : String) : String :=
  match size with
  | 0 => empty
  | 1 => "only 1 " ++ one ++ " in " ++ place
  | n => "only " ++ toString n ++ " " ++ many ++ " in " ++ place

/-- A text, or another one when it is empty. -/
def orElse (s other : String) : String := if s.isEmpty then other else s

/-- What a fault says, without its own place. -/
def text : Fault → String
  | .system text source =>
    if text.isEmpty then source.text else text ++ ": " ++ source.text
  | .parsing cause _ => "Syntax error: " ++ cause.text
  | .variableExists n _ => "Variable already defined: " ++ n
  | .forbiddenVariable n _ => "Forbidden variable name: " ++ n
  | .variableNotFound n _ => "Variable not found: " ++ n
  | .propertyNotFound n _ => "Property not found: " ++ n
  | .indexNotFound v _ => "Invalid index: " ++ v.display
  | .functionNotFound s _ => "Function not found: " ++ s
  | .moduleNotFound n _ => "Module not found: " ++ n
  | .inFunctionCall name source inner _ =>
    inner.text ++ (if source.isEmpty then "" else " @ '" ++ source ++ "'") ++
      suffix inner.position ++ "\nin call to function '" ++ name ++ "'" ++
      (if source.isEmpty then "" else " (from '" ++ source ++ "')")
  | .inModule name inner _ =>
    inner.text ++ suffix inner.position ++ "\nin module" ++
      (if name.isEmpty then "" else " '" ++ name ++ "'")
  | .unboundThis _ => "'this' not bound"
  | .mismatchData requested actual _ => mismatchText "Data" requested actual
  | .mismatchOutput requested actual _ => mismatchText "Output" requested actual
  | .indexing t _ => "Indexer unavailable: " ++ t
  | .arrayBounds n i _ =>
    "Array index " ++ toString i ++ " out of bounds: " ++
      onlySome n "element" "elements" "array is empty" "array"
  | .stringBounds n i _ =>
    "String index " ++ toString i ++ " out of bounds: " ++
      onlySome n "character" "characters" "string is empty" "string"
  | .bitBounds n i _ =>
    "Bit-field index " ++ toString i ++ " out of bounds: only " ++ toString n ++
      " bits in bit-field"
  | .notIterable _ => "For loop expects iterable type"
  | .dataRace n _ => "Data race detected" ++ (if n.isEmpty then "" else " on " ++ n)
  | .assignmentToConstant n _ => "Cannot modify constant " ++ n
  | .nonPureOnConstant n _ => "Non-pure method '" ++ n ++ "' cannot be called on constant"
  | .dotExpression t _ => orElse t "Malformed dot expression"
  | .arithmetic t _ => orElse t "Arithmetic error"
  | .tooManyOperations _ => "Too many operations"
  | .tooManyVariables _ => "Too many variables defined"
  | .tooManyModules _ => "Too many modules imported"
  | .stackOverflow _ => "Stack overflow"
  | .dataTooLarge w _ => w ++ " too large"
  | .terminated _ _ => "Script terminated"
  | .customSyntax t tokens _ => t ++ ": " ++ " ".intercalate tokens
  | .thrown v _ =>
    let t := v.display
    if t.isEmpty then "Runtime error" else "Runtime error: " ++ t
  | .loopBreak true _ _ => "'break' must be within a loop"
  | .loopBreak false _ _ => "'continue' must be within a loop"
  | .returned _ _ => "NOT AN ERROR - function returns value"
  | .exited _ _ => "NOT AN ERROR - exit value"

/-- The message of a fault: what it says and where. -/
def message (f : Fault) : String := f.text ++ suffix f.position

/-! ## Catching -/

/-- Whether a `catch` block sees the fault. Faults of the system, of the source text and of the
machinery that runs the script pass through; a fault that has passed out of a function or a
module is caught whatever it wraps. -/
def isCatchable : Fault → Bool
  | .system _ _ | .parsing _ _ | .customSyntax _ _ _ => false
  | .tooManyOperations _ | .tooManyVariables _ | .tooManyModules _ | .stackOverflow _
  | .dataTooLarge _ _ | .terminated _ _ | .loopBreak _ _ _ | .returned _ _
  | .exited _ _ => false
  | _ => true

/-- Whether the fault comes from the system rather than from the script, which keeps it from
being wrapped at function calls. -/
def isSystem : Fault → Bool
  | .system _ _ | .parsing _ _ => true
  | .terminated _ _ | .tooManyOperations _ | .tooManyVariables _ | .tooManyModules _
  | .stackOverflow _ | .dataTooLarge _ _ | .customSyntax _ _ _ => true
  | _ => false

end Fault

/-! ## Kinds -/

/-- The kinds of faults a session tells apart. -/
inductive FaultKind where
  | engine
  | io
  | script
  | unknown
deriving DecidableEq, Repr, Inhabited

namespace FaultKind

/-- The kind of a fault. -/
def classify : Fault → FaultKind
  | .inFunctionCall _ _ inner _ => classify inner
  | .inModule _ inner _ => classify inner
  | .system _ (.io _) => .io
  | .terminated _ _ | .tooManyOperations _ | .tooManyModules _ | .stackOverflow _
  | .dataTooLarge _ _ | .dataRace _ _ | .moduleNotFound _ _ => .engine
  | .parsing _ _ | .variableExists _ _ | .variableNotFound _ _ | .propertyNotFound _ _
  | .indexNotFound _ _ | .functionNotFound _ _ | .unboundThis _ | .mismatchData _ _ _
  | .mismatchOutput _ _ _ | .indexing _ _ | .arrayBounds _ _ _ | .stringBounds _ _ _
  | .notIterable _ | .assignmentToConstant _ _ | .dotExpression _ _ | .arithmetic _ _
  | .thrown _ _ => .script
  | _ => .unknown

/-- What a session writes in front of a fault's message. -/
def prefixText : FaultKind → String
  | .engine => "The script engine failed: "
  | .io => "An I/O error occurred running script: "
  | .script => "An error occurred running script: "
  | .unknown => "An unknown error occurred running script: "

/-- The name of a kind. -/
def name : FaultKind → String
  | .engine => "engine"
  | .io => "io"
  | .script => "script"
  | .unknown => "unknown"

/-- The kind of a name. Every other name means an unknown fault. -/
def ofName (name : String) : FaultKind :=
  (([FaultKind.engine, .io, .script].find? fun k => k.name = name)).getD .unknown

end FaultKind
end Script
end ScriptSession
