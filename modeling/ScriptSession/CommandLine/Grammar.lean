/-!
# Command grammars

What can be written on a command line: options, operands and, level by level, the commands below.
A word that starts with two dashes names an option, which has its value behind an equals sign or
in the next word; a word that starts with one dash is a group of short options; two dashes alone
end the options. Every level knows `-h` and `--help`, and a level with commands knows `help`.

Reading goes word by word. The values of an option or operand are kept back until the next one
begins, and are checked only then, which decides which of two mistakes is named.
-/

namespace ScriptSession
namespace CommandLine

/-! ## Grammars -/

/-- The kinds of values. A path must not be empty. -/
inductive ValueKind where
  | text
  | path
deriving DecidableEq, Repr

/-- An option: a switch, or one that takes a value. -/
structure Flag where
  name : String
  value : Option ValueKind
  default : Option String
  help : String
deriving Repr

/-- An operand, which is required. The last one may be repeated. -/
structure Operand where
  name : String
  kind : ValueKind
  repeats : Bool
  help : String
deriving Repr

/-- A level of commands. -/
inductive Level where
  | mk (about : String) (flags : List Flag) (operands : List Operand)
    (commands : List (String × Level))

namespace Level

/-- What a level is for. -/
def about : Level → String
  | mk about _ _ _ => about

/-- The options of a level. -/
def flags : Level → List Flag
  | mk _ flags _ _ => flags

/-- The operands of a level. -/
def operands : Level → List Operand
  | mk _ _ operands _ => operands

/-- The commands below a level. -/
def commands : Level → List (String × Level)
  | mk _ _ _ commands => commands

/-- A command below. -/
def command? (l : Level) (name : String) : Option Level :=
  (l.commands.find? fun c => c.1 = name).map (·.2)

/-- Whether there are commands below. -/
def hasCommands (l : Level) : Bool := !l.commands.isEmpty

/-- An option by its name. -/
def flag? (l : Level) (name : String) : Option Flag := l.flags.find? fun f => f.name = name

end Level

/-! ## What reading comes to -/

/-- Why reading stops before its end: what is wrong, or what is asked for instead. Help is asked
for at a level, which is named by its path. -/
inductive Refusal where
  | missingArgument
  | unknownArgument
  | invalidCommand
  | invalidValue
  | repeated
  | tooManyValues
  | missingCommand
  | nothingGiven
  | help (path : List String)
  | version
deriving DecidableEq, Repr

/-- The name of a refusal. -/
def Refusal.name : Refusal → String
  | .missingArgument => "MissingRequiredArgument"
  | .unknownArgument => "UnknownArgument"
  | .invalidCommand => "InvalidSubcommand"
  | .invalidValue => "InvalidValue"
  | .repeated => "ArgumentConflict"
  | .tooManyValues => "TooManyValues"
  | .missingCommand => "MissingSubcommand"
  | .nothingGiven => "DisplayHelpOnMissingArgumentOrSubcommand"
  | .help _ => "DisplayHelp"
  | .version => "DisplayVersion"

/-- What is kept back. -/
structure Pending where
  name : String
  kind : ValueKind
  isFlag : Bool
  repeats : Bool
  values : List String
deriving Repr

/-- How far reading has come at a level. -/
structure Reading where
  settled : List (String × List String)
  pending : Option Pending
  awaitsValue : Bool
  isTrailing : Bool
  operandsSeen : Nat
deriving Repr

/-- What was read: the commands from the top down, and the values by name. -/
structure Parsed where
  path : List String
  values : List (String × List String)
deriving Repr

namespace Reading

/-- Nothing read yet. -/
def start : Reading := ⟨[], none, false, false, 0⟩

/-- Whether a name has been settled. -/
def isSettled (r : Reading) (name : String) : Bool := r.settled.any fun s => s.1 = name

/-- Whether a value is one of its kind. -/
def fits (kind : ValueKind) (value : String) : Bool := !(kind == .path && value.isEmpty)

/-- Settle what is kept back. -/
def settle (r : Reading) : Except Refusal Reading :=
  match r.pending with
  | none => .ok r
  | some p =>
    if p.values.isEmpty then .error .invalidValue
    else if p.isFlag && r.isSettled p.name then .error .repeated
    else if !p.values.all (fits p.kind) then .error .invalidValue
    else .ok { r with settled := r.settled ++ [(p.name, p.values)], pending := none }

/-- Keep an option or operand back, once what was kept back before is settled. -/
def keep (r : Reading) (p : Pending) : Except Refusal Reading :=
  r.settle.map fun r => { r with pending := some p, awaitsValue := p.values.isEmpty }

/-- A switch. -/
def switch (r : Reading) (name : String) : Except Refusal Reading := do
  let r ← r.settle
  if r.isSettled name then .error .repeated
  else .ok { r with settled := r.settled ++ [(name, [])], awaitsValue := false }

/-- Ask for something else, once what is kept back is settled. -/
def divert (r : Reading) (wish : Refusal) : Except Refusal Reading := do
  let _ ← r.settle
  .error wish

/-- Add a value to what is kept back. -/
def addValue (r : Reading) (value : String) : Reading :=
  { r with
    pending := r.pending.map fun p => { p with values := p.values ++ [value] }
    awaitsValue := false }

end Reading

/-! ## Words -/

/-- The long option that a word names, with the value behind an equals sign. -/
def longOption? (word : String) : Option (String × Option String) :=
  match word.toList with
  | '-' :: '-' :: c :: rest =>
    let cs := c :: rest
    let name := cs.takeWhile (· ≠ '=')
    let value := match cs.drop name.length with
      | '=' :: value => some (String.ofList value)
      | _ => none
    some (String.ofList name, value)
  | _ => none

/-- The short options that a word names. -/
def shortOptions? (word : String) : Option (List Char) :=
  match word.toList with
  | '-' :: c :: rest => if c = '-' then none else some (c :: rest)
  | _ => none

/-- The level that `help` describes. -/
def helpFor (level : Level) (path : List String) : List String → Refusal
  | [] => .help path
  | name :: rest =>
    match level.command? name with
    | some below => helpFor below (path ++ [name]) rest
    | none =>
      if level.hasCommands && name == "help" && rest.isEmpty then .help (path ++ [name])
      else .invalidCommand

namespace Level

/-- Read a long option. -/
def readLong (level : Level) (path : List String) (r : Reading) (name : String)
    (value : Option String) : Except Refusal Reading :=
  match level.flag? name, value with
  | some f, value =>
    match f.value, value with
    | some kind, some v => do (← r.keep ⟨name, kind, true, false, [v]⟩).settle
    | some kind, none => r.keep ⟨name, kind, true, false, []⟩
    | none, none => r.switch name
    | none, some _ => .error .tooManyValues
  | none, value =>
    let isVersion := path.isEmpty && name == "version"
    if name == "help" || isVersion then
      match value with
      | some _ => .error .tooManyValues
      | none => r.divert (if isVersion then .version else .help path)
    else .error .unknownArgument

/-- Read short options. The first one decides. -/
def readShort (path : List String) (r : Reading) : List Char → Except Refusal Reading
  | 'h' :: _ => r.divert (.help path)
  | 'V' :: _ => if path.isEmpty then r.divert .version else .error .unknownArgument
  | _ => .error .unknownArgument

/-- Why a word cannot be an operand. -/
def strayWord (level : Level) (r : Reading) (word : String) : Refusal :=
  if r.isTrailing && (word == "help" && level.hasCommands || (level.command? word).isSome) then
    .unknownArgument
  else if level.hasCommands then .invalidCommand
  else .unknownArgument

/-- Read an operand. -/
def readOperand (level : Level) (r : Reading) (word : String) : Except Refusal Reading :=
  match level.operands[r.operandsSeen]? with
  | none => .error (level.strayWord r word)
  | some o =>
    if o.repeats && r.pending.any (·.name == o.name) then .ok (r.addValue word)
    else
      (r.keep ⟨o.name, o.kind, false, o.repeats, [word]⟩).map fun r =>
        { r with operandsSeen := r.operandsSeen + (if o.repeats then 0 else 1) }

/-- Read a word that is neither a command nor the end of the options. -/
def readWord (level : Level) (path : List String) (r : Reading) (word : String) :
    Except Refusal Reading :=
  if r.isTrailing then level.readOperand r word
  else
    match longOption? word, shortOptions? word with
    | some (name, value), _ => level.readLong path r name value
    | none, some group => readShort path r group
    | none, none => if r.awaitsValue then .ok (r.addValue word) else level.readOperand r word

/-- End reading at a level without a command below. -/
def finish (level : Level) (path : List String) (r : Reading) : Except Refusal Parsed := do
  let r ← r.settle
  if level.hasCommands then .error (if r.settled.isEmpty then .nothingGiven else .missingCommand)
  else if level.operands.all fun o => r.isSettled o.name then .ok ⟨path, r.settled⟩
  else .error .missingArgument

/-- Read words. -/
def read (level : Level) (path : List String) (r : Reading) : List String → Except Refusal Parsed
  | [] => level.finish path r
  | word :: rest =>
    if !r.isTrailing && !r.awaitsValue && level.hasCommands && word == "help" then
      .error (helpFor level path rest)
    else
      match if r.isTrailing || r.awaitsValue then none else level.command? word with
      | some below => do
        let parsed ← read below (path ++ [word]) .start rest
        let r ← r.settle
        .ok { parsed with values := r.settled ++ parsed.values }
      | none =>
        if !r.isTrailing && word == "--" then read level path { r with isTrailing := true } rest
        else do read level path (← level.readWord path r word) rest

/-- Read the words of a command line. -/
def parse (level : Level) (words : List String) : Except Refusal Parsed :=
  level.read [] .start words

end Level

namespace Parsed

/-- The values of a name. -/
def valuesOf (p : Parsed) (name : String) : List String :=
  ((p.values.find? fun v => v.1 = name).map (·.2)).getD []

/-- The value of a name. -/
def value? (p : Parsed) (name : String) : Option String := (p.valuesOf name).head?

/-- Whether a switch is set. -/
def isSet (p : Parsed) (name : String) : Bool := p.values.any fun v => v.1 = name

end Parsed
end CommandLine
end ScriptSession
