import ScriptSession.Decimal.Nearest
import ScriptSession.Script.Fault
import ScriptSession.Text.Blank

/-!
# Tokens

A source text as a list of tokens with their positions. Reading never stops: what cannot be read
becomes a token that holds the fault, and it is the parser that meets it, or ends before it.

Template strings are read in pieces. Behind a piece that ends in an opening of code the tokens of
the code follow, between braces, and behind the closing brace the template goes on; the reader
keeps the depth of braces of every template it is inside of.
-/

namespace ScriptSession
namespace Script

/-- A token. -/
inductive Token where
  | int (n : Int)
  | float (x : Float)
  | char (c : Char)
  | text (s : String)
  | piece (s : String)
  | word (s : String)
  | keyword (s : String)
  | reserved (s : String)
  | symbol (s : String)
  | fault (cause : SyntaxFault)
deriving Inhabited, Repr

namespace Token

/-- The words with a meaning of their own. -/
def keywords : List String :=
  ["true", "false", "let", "const", "if", "else", "switch", "do", "while", "until", "loop",
    "for", "in", "continue", "break", "return", "throw", "try", "catch", "fn", "private",
    "import", "export", "as"]

/-- The words that are kept from use, without a meaning of their own. -/
def reservedWords : List String :=
  ["public", "protected", "super", "new", "use", "module", "package", "var", "static", "shared",
    "with", "is", "goto", "exit", "match", "case", "default", "void", "null", "nil", "spawn",
    "thread", "go", "sync", "async", "await", "yield"]

/-- The words that are kept for functions and can be called. -/
def callableWords : List String :=
  ["print", "debug", "type_of", "eval", "Fn", "call", "curry", "is_def_fn", "is_def_var",
    "is_shared"]

/-- The words that can stand behind a dot as a method. -/
def methodWords : List String := ["type_of", "call", "curry", "is_shared"]

/-- The symbols, longer ones before their beginnings. -/
def symbols : List String :=
  ["..=", "**=", "<<=", ">>=", "()", "..", "::", "**", "==", "!=", "<=", ">=", "&&", "||", "<<",
    ">>", "+=", "-=", "*=", "/=", "%=", "&=", "|=", "^=", "=>", "?.", "??", "?[", "#\x7b", "\x7b",
    "\x7d", "(", ")", "[", "]", ";", ",", ".", ":", "+", "-", "*", "/", "%", "!", "=", "<", ">",
    "&", "|", "^"]

/-- The symbols that are kept from use. They are tried first. -/
def reservedSymbols : List String :=
  ["===", "!==", "...", "::<", "->", "<-", ":=", "++", "--", "(*", "*)", "# \x7b"]

/-- What is said about a symbol of another language. -/
def adviceOn? (symbol : String) : Option String :=
  let isNo (what whose : String) : String :=
    "'" ++ symbol ++ "' is not a valid " ++ what ++ ". This is not " ++ whose ++ "!"
  match symbol with
  | "===" => some (isNo "operator" "JavaScript" ++ " Should it be '=='?")
  | "!==" => some (isNo "operator" "JavaScript" ++ " Should it be '!='?")
  | "->" => some (isNo "symbol" "C or C++")
  | "<-" => some (isNo "symbol" "Go" ++ " Should it be '<='?")
  | ":=" => some (isNo "assignment operator" "Go or Pascal" ++ " Should it be simply '='?")
  | "::<" => some "'::<>' is not a valid symbol. This is not Rust! Should it be '::'?"
  | "(*" | "*)" =>
    some ("'(* .. *)' is not a valid comment format. This is not Pascal!" ++
      " Should it be '/* .. */'?")
  | "# \x7b" => some "'#' is not a valid symbol. Should it be '#\x7b'?"
  | _ => none

/-- The symbols behind which a sign belongs to a number. -/
def beforeOperand (s : String) : Bool :=
  !([")", "]", "\x7d", "()"].contains s)

/-- Whether a sign behind this token belongs to the operand after it. -/
def allowsSign : Token → Bool
  | .symbol s => beforeOperand s
  | .keyword s => !(["true", "false"].contains s)
  | .fault _ => true
  | _ => false

/-- A token as it is written. -/
def written : Token → String
  | .int n => toString n
  | .float x => Value.floatDisplay x
  | .char c => String.singleton c
  | .text s | .piece s | .word s | .keyword s | .reserved s | .symbol s => s
  | .fault cause => cause.text

end Token

/-! ## The cursor -/

/-- What is left of a source text, and where that is. -/
structure Cursor where
  rest : List Char
  line : Nat
  column : Nat
deriving Inhabited

namespace Cursor

/-- The beginning of a text. -/
def start (s : String) : Cursor := ⟨s.toList, 1, 1⟩

/-- The position of the next character. -/
def position (c : Cursor) : Position := ⟨c.line, c.column⟩

/-- One character further. -/
def step (c : Cursor) : Cursor :=
  match c.rest with
  | [] => c
  | '\n' :: rest => ⟨rest, c.line + 1, 1⟩
  | _ :: rest => ⟨rest, c.line, c.column + 1⟩

/-- Some characters further. -/
def drop : Nat → Cursor → Cursor
  | 0, c => c
  | n + 1, c => drop n c.step

end Cursor

/-! ## Blanks and comments -/

/-- Behind a block comment of some depth. -/
def skipBlock : Nat → Nat → Cursor → Cursor
  | 0, _, c => c
  | fuel + 1, depth, c =>
    match c.rest with
    | [] => c
    | '/' :: '*' :: _ => skipBlock fuel (depth + 1) (c.drop 2)
    | '*' :: '/' :: _ => if depth ≤ 1 then c.drop 2 else skipBlock fuel (depth - 1) (c.drop 2)
    | _ => skipBlock fuel depth c.step

/-- Behind the blanks and comments in front. -/
def skipSpace : Nat → Cursor → Cursor
  | 0, c => c
  | fuel + 1, c =>
    match c.rest with
    | '/' :: '/' :: _ => skipSpace fuel (c.drop (c.rest.takeWhile (· ≠ '\n')).length)
    | '/' :: '*' :: _ => skipSpace fuel (skipBlock fuel 1 (c.drop 2))
    | ch :: _ => if Text.isBlank ch then skipSpace fuel c.step else c
    | [] => c

/-! ## Numbers -/

/-- A digit or a separator of digits. -/
def isDigitMark (isDigit : Char → Bool) (c : Char) : Bool := isDigit c || c == '_'

/-- Digits without their separators. -/
def withoutMarks (cs : List Char) : List Char := cs.filter (· ≠ '_')

/-- The base a number starts with. -/
def radix? : List Char → Option (Nat × (Char → Bool))
  | '0' :: r :: _ =>
    if r = 'x' ∨ r = 'X' then
      some (16, fun c => c.isDigit || ('a' ≤ c && c ≤ 'f') || ('A' ≤ c && c ≤ 'F'))
    else if r = 'o' ∨ r = 'O' then some (8, fun c => '0' ≤ c && c ≤ '7')
    else if r = 'b' ∨ r = 'B' then some (2, fun c => c = '0' || c = '1')
    else none
  | _ => none

/-- The value of a digit to any base up to sixteen. -/
def digitValue (c : Char) : Nat :=
  if c.isDigit then c.toNat - '0'.toNat else c.toLower.toNat - 'a'.toNat + 10

/-- How many characters a fraction takes: a point and digits, or a lone point that no name and
no second point follows. -/
def fractionLength : List Char → Nat
  | '.' :: c :: rest =>
    if c.isDigit then 2 + (rest.takeWhile (isDigitMark Char.isDigit)).length
    else if c = '.' ∨ c = '_' ∨ c.isAlpha then 0
    else 1
  | _ => 0

/-- How many characters an exponent takes. -/
def exponentLength : List Char → Nat
  | 'e' :: c :: rest =>
    if c.isDigit then 2 + (rest.takeWhile (isDigitMark Char.isDigit)).length
    else if c = '+' ∨ c = '-' then 2 + (rest.takeWhile (isDigitMark Char.isDigit)).length
    else 0
  | _ => 0

/-- A number with its sign. A whole number that does not fit becomes a floating point number. -/
def scanNumber (negative : Bool) (c : Cursor) : Token × Cursor :=
  let sign (n : Nat) : Int := if negative then -(n : Int) else n
  match radix? c.rest with
  | some (base, isDigit) =>
    let digits := (c.rest.drop 2).takeWhile (isDigitMark isDigit)
    let after := c.drop (2 + digits.length)
    let n := (withoutMarks digits).foldl (fun n d => base * n + digitValue d) 0
    if (withoutMarks digits).isEmpty ∨ Nat.pow 2 64 ≤ n then
      (.fault (.malformedNumber (String.ofList (c.rest.take (2 + digits.length)))), after)
    else
      let n : Int := if Nat.pow 2 63 ≤ n then (n : Int) - (Nat.pow 2 64 : Nat) else n
      (.int (if negative then -n else n), after)
  | none =>
    let whole := c.rest.takeWhile (isDigitMark Char.isDigit)
    let behind := c.rest.drop whole.length
    let f := fractionLength behind
    let e := exponentLength (behind.drop f)
    let after := c.drop (whole.length + f + e)
    let digits := withoutMarks whole
    if f = 0 ∧ e = 0 then
      let n := sign (Decimal.ofDigits digits)
      if Value.fits n then (.int n, after)
      else (.float (Decimal.ofLiteral (if negative then '-' :: digits else digits)), after)
    else
      let tail := withoutMarks (behind.take (f + e))
      let literal := digits ++ tail
      if tail.getLast?.any Char.isDigit ∨ tail = ['.'] then
        (.float (Decimal.ofLiteral (if negative then '-' :: literal else literal)), after)
      else (.fault (.malformedNumber (String.ofList literal)), after)

/-! ## Strings -/

/-- What ends a piece of string: its end, the opening of code, or a fault at a place. -/
inductive StringEnd where
  | closed (text : String)
  | opensCode (text : String)
  | faulty (cause : SyntaxFault) (at_ : Position)

/-- Digits of an escape by number. -/
def scanHex : Nat → Cursor → List Char → Nat → Except (List Char × Position) (Nat × Cursor)
  | 0, c, _, n => .ok (n, c)
  | k + 1, c, seen, n =>
    match c.rest with
    | [] => .error (seen, c.position)
    | d :: _ =>
      if d.isDigit ∨ ('a' ≤ d.toLower ∧ d.toLower ≤ 'f') then
        scanHex k c.step (seen ++ [d]) (16 * n + digitValue d)
      else .error (seen ++ [d], c.position)

/-- The blanks in front, up to a column. -/
def skipIndent (column : Nat) : Nat → Cursor → Cursor
  | 0, c => c
  | fuel + 1, c =>
    match c.rest with
    | ch :: _ =>
      if Text.isBlank ch ∧ c.column ≤ column then skipIndent column fuel c.step else c
    | [] => c

/-- The rest of a string in quotes. A doubled quote stands for one; a backslash at the end of a
line joins the next line. -/
def scanQuoted (mark : Char) (open_ : Position) :
    Nat → Cursor → List Char → StringEnd × Cursor
  | 0, c, _ => (.faulty .unterminatedString open_, c)
  | fuel + 1, c, acc =>
    match c.rest with
    | [] => (.faulty .unterminatedString open_, c)
    | '\\' :: e :: _ =>
      let simple (ch : Char) : StringEnd × Cursor :=
        scanQuoted mark open_ fuel (c.drop 2) (ch :: acc)
      let numbered (k : Nat) : StringEnd × Cursor :=
        match scanHex k (c.drop 2) ['\\', e] 0 with
        | .error (seen, p) => (.faulty (.malformedEscape (String.ofList seen)) p, c)
        | .ok (n, after) =>
          if n < 0xD800 ∨ (0xE000 ≤ n ∧ n < 0x110000) then
            scanQuoted mark open_ fuel after (Char.ofNat n :: acc)
          else
            let seen := c.rest.take (2 + k)
            (.faulty (.malformedEscape (String.ofList seen)) ⟨c.line, c.column + 1 + k⟩, c)
      if e = '\\' then simple '\\'
      else if e = 't' then simple '\t'
      else if e = 'n' then simple '\n'
      else if e = 'r' then simple '\r'
      else if e = mark then simple mark
      else if e = 'x' then numbered 2
      else if e = 'u' then numbered 4
      else if e = 'U' then numbered 8
      else if e = '\n' then
        scanQuoted mark open_ fuel (skipIndent open_.column fuel (c.drop 2)) acc
      else (.faulty (.malformedEscape (String.ofList ['\\', e])) ⟨c.line, c.column + 1⟩, c)
    | ch :: rest =>
      if ch = mark then
        if rest.head? = some mark then scanQuoted mark open_ fuel (c.drop 2) (mark :: acc)
        else (.closed (String.ofList acc.reverse), c.step)
      else if ch = '\n' then (.faulty .unterminatedString open_, c)
      else scanQuoted mark open_ fuel c.step (ch :: acc)

/-- The mark around templates. -/
def templateMark : Char := '\x60'

/-- The rest of a piece of template. Nothing is escaped; a doubled mark stands for one. -/
def scanTemplate (open_ : Position) : Nat → Cursor → List Char → StringEnd × Cursor
  | 0, c, _ => (.faulty .unterminatedString open_, c)
  | fuel + 1, c, acc =>
    match c.rest with
    | [] => (.faulty .unterminatedString open_, c)
    | '$' :: '\x7b' :: _ => (.opensCode (String.ofList acc.reverse), c.step)
    | ch :: rest =>
      if ch = templateMark then
        if rest.head? = some templateMark then
          scanTemplate open_ fuel (c.drop 2) (templateMark :: acc)
        else (.closed (String.ofList acc.reverse), c.step)
      else scanTemplate open_ fuel c.step (ch :: acc)

/-! ## Names and symbols -/

/-- The first character of a name. -/
def startsName (c : Char) : Bool := c.isAlpha || c == '_'

/-- A further character of a name. -/
def continuesName (c : Char) : Bool := c.isAlphanum || c == '_'

/-- The token of a name. -/
def nameToken (s : String) : Token :=
  if Token.keywords.contains s then .keyword s
  else if Token.reservedWords.contains s ∨ Token.callableWords.contains s ∨ s = "this" then
    .reserved s
  else if s = "_" then .symbol s
  else if isWord s then .word s
  else .fault (.message ("Variable name is not proper: '" ++ s ++ "'"))

/-- The first text of a list that a text starts with. -/
def frontOf (options : List String) (cs : List Char) : Option String :=
  options.find? fun o => o.toList.isPrefixOf cs

/-- The token of a symbol, and how long it is. -/
def symbolToken (cs : List Char) : Token × Nat :=
  match frontOf Token.reservedSymbols cs with
  | some s => ((Token.adviceOn? s).elim (.reserved s) fun text => .fault (.message text), s.length)
  | none =>
    match frontOf Token.symbols cs with
    | some s => (.symbol s, s.length)
    | none =>
      match cs with
      | c :: _ =>
        if ['~', '@', '#', '$', '?'].contains c then (.reserved (String.singleton c), 1)
        else (.fault (.unexpected (String.singleton c)), 1)
      | [] => (.fault .incomplete, 0)

/-! ## All tokens -/

/-- What the reader remembers between tokens: the open templates with the depth of braces inside
each, and whether a sign belongs to the next number. -/
structure Mode where
  templates : List (Nat × Position)
  signAllowed : Bool

/-- The piece of template that starts here. -/
def nextPiece (fuel : Nat) (outer : List (Nat × Position)) (open_ : Position) (c : Cursor)
    (at_ : Position) : (Token × Position) × Mode × Cursor :=
  match scanTemplate open_ fuel c [] with
  | (.closed s, after) => ((.text s, at_), ⟨outer, false⟩, after)
  | (.opensCode s, after) => ((.piece s, at_), ⟨(0, open_) :: outer, true⟩, after)
  | (.faulty cause p, after) => ((.fault cause, p), ⟨outer, false⟩, after)

/-- The next token behind the blanks in front. -/
def nextToken (fuel : Nat) (mode : Mode) (c : Cursor) : (Token × Position) × Mode × Cursor :=
  let p := c.position
  let plain (t : Token) (after : Cursor) : (Token × Position) × Mode × Cursor :=
    ((t, p), { mode with signAllowed := t.allowsSign }, after)
  match c.rest with
  | '\"' :: _ =>
    match scanQuoted '\"' p fuel c.step [] with
    | (.closed s, after) | (.opensCode s, after) => plain (.text s) after
    | (.faulty cause at_, after) => ((.fault cause, at_), mode, after)
  | '\'' :: _ =>
    match scanQuoted '\'' p fuel c.step [] with
    | (.closed s, after) | (.opensCode s, after) =>
      match s.toList with
      | [ch] => plain (.char ch) after
      | _ => plain (.fault (.malformedChar s)) after
    | (.faulty cause at_, after) => ((.fault cause, at_), mode, after)
  | '-' :: d :: _ =>
    if d.isDigit && mode.signAllowed then
      let (t, after) := scanNumber true c.step
      plain t after
    else
      let (t, n) := symbolToken c.rest
      plain t (c.drop n)
  | ch :: _ =>
    if ch = templateMark then nextPiece fuel mode.templates p c.step p
    else if ch.isDigit then
      let (t, after) := scanNumber false c
      plain t after
    else if startsName ch then
      let name := c.rest.takeWhile continuesName
      plain (nameToken (String.ofList name)) (c.drop name.length)
    else
      let (t, n) := symbolToken c.rest
      let after := c.drop n
      match t, mode.templates with
      | .symbol "\x7b", (depth, open_) :: outer =>
        ((t, p), ⟨(depth + 1, open_) :: outer, true⟩, after)
      | .symbol "#\x7b", (depth, open_) :: outer =>
        ((t, p), ⟨(depth + 1, open_) :: outer, true⟩, after)
      | .symbol "\x7d", (depth, open_) :: outer =>
        ((t, p), ⟨(depth - 1, open_) :: outer, false⟩, after)
      | _, _ => plain t after
  | [] => plain (.fault .incomplete) c

/-- Whether the code of the innermost template has just been closed. -/
def closesCode (t : Token) (mode : Mode) : Option (List (Nat × Position) × Position) :=
  match t, mode.templates with
  | .symbol "\x7d", (0, open_) :: outer => some (outer, open_)
  | _, _ => none

/-- The tokens from a cursor on, and the position of the end. -/
def tokensFrom : Nat → Mode → Cursor → List (Token × Position) × Position
  | 0, _, c => ([], c.position)
  | fuel + 1, mode, c =>
    let c := skipSpace fuel c
    match c.rest with
    | [] => ([], c.position)
    | _ =>
      let (t, mode, after) := nextToken fuel mode c
      match closesCode t.1 mode with
      | some (outer, open_) =>
        let (piece, mode, after) := nextPiece fuel outer open_ after after.position
        let (rest, e) := tokensFrom fuel mode after
        (t :: piece :: rest, e)
      | none =>
        match t.1 with
        | .fault _ => ([t], after.position)
        | _ =>
          let (rest, e) := tokensFrom fuel mode after
          (t :: rest, e)

/-- The tokens of a source text, and the position of its end. -/
def tokenize (s : String) : List (Token × Position) × Position :=
  let c := Cursor.start s
  tokensFrom (c.rest.length + 2) ⟨[], true⟩ c

end Script
end ScriptSession
