import ScriptSession.CommandLine.Command

/-!
# Help

What a level of commands says about itself: a sentence, how it is used, and a line for each
command, operand and option. The lines of a section are aligned.
-/

namespace ScriptSession
namespace CommandLine

/-! ## Names as they are shown -/

/-- A name as the placeholder of a value. -/
def placeholder (name : String) : String :=
  "<" ++ (name.map fun c => if c = '-' then '_' else c).toUpper ++ ">"

/-- An operand as it is shown. -/
def Operand.shown (o : Operand) : String := placeholder o.name ++ if o.repeats then "..." else ""

/-- An option as it is shown, with room for a short name. -/
def Flag.shown (f : Flag) : String :=
  "    --" ++ f.name ++ if f.value.isSome then " " ++ placeholder f.name else ""

/-- What is said about an option. -/
def Flag.explanation (f : Flag) : String :=
  match f.default with
  | some d => f.help ++ " [default: " ++ d ++ "]"
  | none => f.help

/-! ## Sections -/

/-- Lines of two columns, the second one aligned. -/
def alignedLines (rows : List (String × String)) : String :=
  let width := (rows.map (·.1.length)).foldl max 0
  String.join (rows.map fun (name, text) =>
    let fill := String.ofList (List.replicate (width - name.length) ' ')
    "  " ++ name ++ fill ++ "  " ++ text ++ "\n")

/-- A section, unless it is empty. -/
def helpSection (title : String) (rows : List (String × String)) : String :=
  if rows.isEmpty then "" else "\n" ++ title ++ ":\n" ++ alignedLines rows

/-- The commands of a level. -/
def commandRows (l : Level) : List (String × String) :=
  if l.hasCommands then
    l.commands.map (fun c => (c.1, c.2.about)) ++
      [("help", "Print this message or the help of the given subcommand(s)")]
  else []

/-- The options of a level. -/
def flagRows (l : Level) (isTop : Bool) : List (String × String) :=
  l.flags.map (fun f => (f.shown, f.explanation)) ++ [("-h, --help", "Print help")] ++
    if isTop then [("-V, --version", "Print version")] else []

/-- How a level is used. -/
def usage (l : Level) (path : List String) : String :=
  let flags := if l.flags.isEmpty then [] else ["[OPTIONS]"]
  let commands := if l.hasCommands then ["<COMMAND>"] else []
  " ".intercalate
    ([Host.applicationName] ++ path ++ flags ++ l.operands.map Operand.shown ++ commands)

/-- The help of a level. -/
def Level.helpText (l : Level) (path : List String) : String :=
  l.about ++ "\n\nUsage: " ++ usage l path ++ "\n" ++
    helpSection "Commands" (commandRows l) ++
    helpSection "Arguments" (l.operands.map fun o => (o.shown, o.help)) ++
    helpSection "Options" (flagRows l path.isEmpty)

/-- The level at the end of a path. The command `help` has a level of its own. -/
def Level.at? (l : Level) : List String → Option Level
  | [] => some l
  | name :: rest =>
    match l.command? name with
    | some below => below.at? rest
    | none => none

/-- The help for a path. -/
def helpFor? (path : List String) : Option String :=
  (grammar.at? path).map fun l => l.helpText path

/-! ## Refusals -/

/-- What is said about a refused command line. -/
def Refusal.message : Refusal → String
  | .missingArgument => "error: a required argument was not provided"
  | .unknownArgument => "error: unexpected argument found"
  | .invalidCommand => "error: unrecognized subcommand"
  | .invalidValue => "error: a value is required for an argument but none was supplied"
  | .repeated => "error: an argument cannot be used multiple times"
  | .tooManyValues => "error: unexpected value for an argument found"
  | .missingCommand => "error: a subcommand is required but one was not provided"
  | .nothingGiven => "error: nothing to do"
  | .help _ => "help"
  | .version => "version"

end CommandLine
end ScriptSession
