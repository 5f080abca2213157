import ScriptSession.Path

/-!
# Addresses of remote repositories

Only `http` and `https` addresses with a host can be connected to. This file decides which
addresses those are and what is said about the others. Schemes are read in any case; the schemes
of the web ignore how many slashes follow them; a host may be a name, four numbers, or an address
of version six in brackets.
-/

namespace ScriptSession
namespace Artifact

/-- An address taken apart as far as it matters here. -/
inductive Address where
  | web (host : String)
  | foreign (serialized : String)
deriving DecidableEq, Repr

namespace Address

/-! ## Encoding -/

/-- The upper case hexadecimal digit of a number below sixteen. -/
def upperHex (n : Nat) : Char := ((Nat.toDigits 16 n).headD '0').toUpper

/-- A byte behind a percent sign. -/
def percent (b : UInt8) : List Char := ['%', upperHex (b.toNat / 16), upperHex (b.toNat % 16)]

/-- The characters of a text with those outside a set written as bytes. -/
def encode (keeps : Char → Bool) (cs : List Char) : List Char :=
  cs.flatMap fun c =>
    if keeps c then [c] else (String.singleton c).toUTF8.toList.flatMap percent

/-- Printable characters of one byte. -/
def isGraphic (c : Char) : Bool := 0x20 ≤ c.toNat && c.toNat < 0x7F

/-- What a path keeps. -/
def keptInPath (c : Char) : Bool :=
  isGraphic c && !([' ', '\"', '#', '<', '>', '?', '^', '\x60', '\x7b', '\x7d'].contains c)

/-- What an opaque path keeps. -/
def keptOpaque (c : Char) : Bool := isGraphic c

/-- What a query keeps. -/
def keptInQuery (isSpecial : Bool) (c : Char) : Bool :=
  isGraphic c && !([' ', '\"', '#', '<', '>'].contains c) && !(isSpecial && c == '\'')

/-- What a fragment keeps. -/
def keptInFragment (c : Char) : Bool :=
  isGraphic c && !([' ', '\"', '<', '>', '\x60'].contains c)

/-- What the name and the password of a user keep. -/
def keptInUser (c : Char) : Bool :=
  keptInPath c && !(['/', ':', ';', '=', '@', '[', '\\', ']', '|'].contains c)

/-! ## Parts -/

/-- The scheme in lower case and what follows its colon. -/
def scheme? (cs : List Char) : Option (String × List Char) :=
  let isPart (c : Char) : Bool := c.isAlphanum || c == '+' || c == '-' || c == '.'
  match cs.takeWhile isPart, cs.dropWhile isPart with
  | first :: rest, ':' :: after =>
    if first.isAlpha then some ((String.ofList (first :: rest)).toLower, after) else none
  | _, _ => none

/-- Schemes with a host behind them. -/
def isSpecial (scheme : String) : Bool :=
  ["http", "https", "ws", "wss", "ftp"].contains scheme

/-- The number behind the host that goes without saying for a scheme. -/
def usualNumber : String → Option Nat
  | "ws" => some 80
  | "wss" => some 443
  | "ftp" => some 21
  | _ => none

/-- Slashes and backslashes are the same in the addresses of the web. -/
def isSlash (c : Char) : Bool := c == '/' || c == '\\'

/-- Where the host part ends. -/
def endsHost (c : Char) : Bool := isSlash c || c == '?' || c == '#'

/-- Up to sixteen bits to base sixteen. -/
def isPiece (cs : List Char) : Bool :=
  1 ≤ cs.length && cs.length ≤ 4 &&
    cs.all fun c => c.isDigit || ('a' ≤ c.toLower && c.toLower ≤ 'f')

/-- Four numbers below 256 without leading zeros. -/
def isDotted (cs : List Char) : Bool :=
  let parts := Text.splitChars '.' cs
  parts.length = 4 && parts.all fun p =>
    1 ≤ p.length && p.length ≤ 3 && p.all Char.isDigit &&
      !(p.length > 1 && p.head? == some '0') && (String.ofList p).toNat?.any (· < 256)

/-- How many pieces a list of pieces stands for. A last piece may be an address of four
numbers, which stands for two. -/
def pieceCount? (pieces : List (List Char)) (mayDot : Bool) : Option Nat :=
  match pieces.reverse with
  | [] => some 0
  | last :: others =>
    if !others.all isPiece then none
    else if isPiece last then some pieces.length
    else if mayDot && isDotted last then some (pieces.length + 1)
    else none

/-- The pieces between colons; none for the empty text. -/
def pieces (cs : List Char) : List (List Char) :=
  if cs.isEmpty then [] else Text.splitChars ':' cs

/-- Split at the first pair of colons. -/
def splitAtDouble : List Char → Option (List Char × List Char)
  | ':' :: ':' :: rest => some ([], rest)
  | c :: rest => (splitAtDouble rest).map fun (a, b) => (c :: a, b)
  | [] => none

/-- An address of version six: eight pieces, or fewer around one pair of colons. -/
def isVersionSix (cs : List Char) : Bool :=
  match splitAtDouble cs with
  | none => pieceCount? (pieces cs) true == some 8
  | some (before, after) =>
    match pieceCount? (pieces before) false, pieceCount? (pieces after) true with
    | some a, some b => a + b ≤ 7
    | _, _ => false

/-- The number of a part of an address of version four: decimal, octal or hexadecimal. -/
def number? (cs : List Char) : Option Nat :=
  let (base, digits) := match cs with
    | '0' :: 'x' :: ds => (16, ds)
    | '0' :: 'X' :: ds => (16, ds)
    | '0' :: d :: ds => (8, d :: ds)
    | ds => (10, ds)
  let value? (c : Char) : Option Nat :=
    let n := if c.isDigit then c.toNat - '0'.toNat
      else if 'a' ≤ c.toLower ∧ c.toLower ≤ 'f' then c.toLower.toNat - 'a'.toNat + 10 else 99
    if n < base then some n else none
  digits.foldl (fun acc c => do some ((← acc) * base + (← value? c))) (some 0)

/-- Whether a host has to be an address of version four: its last part is a number. -/
def endsInNumber (parts : List (List Char)) : Bool :=
  let parts := if parts.getLast? = some [] ∧ 1 < parts.length then parts.dropLast else parts
  match parts.getLast? with
  | some last =>
    !last.isEmpty && (last.all Char.isDigit ||
      ((last.take 2 = ['0', 'x'] ∨ last.take 2 = ['0', 'X']) && (number? last).isSome))
  | none => false

/-- Four parts or fewer, all but the last below 256, the last filling what is left. -/
def isVersionFour (parts : List (List Char)) : Bool :=
  let parts := if parts.getLast? = some [] ∧ 1 < parts.length then parts.dropLast else parts
  if 4 < parts.length ∨ parts.any List.isEmpty then false
  else
    match parts.mapM number? with
    | none => false
    | some numbers =>
      numbers.dropLast.all (· < 256) && (numbers.getLast?.getD 0) < Nat.pow 256 (5 - numbers.length)

/-- A character no host name may hold. -/
def isForbidden (c : Char) : Bool :=
  c.toNat ≤ 0x20 || c.toNat == 0x7F ||
    ['#', '%', '/', ':', '<', '>', '?', '@', '[', '\\', ']', '^', '|'].contains c

/-- A host of the web. -/
def host (cs : List Char) : Except String String :=
  match cs with
  | '[' :: rest =>
    match rest.getLast? with
    | some ']' =>
      if isVersionSix rest.dropLast then .ok (String.ofList cs) else .error "invalid IPv6 address"
    | _ => .error "invalid IPv6 address"
  | _ =>
    let parts := Text.splitChars '.' cs
    if cs.isEmpty then .error "empty host"
    else if cs.any isForbidden then .error "invalid international domain name"
    else if endsInNumber parts then
      if isVersionFour parts then .ok (String.ofList cs) else .error "invalid IPv4 address"
    else .ok (String.ofList cs).toLower

/-- Split the host from the number behind it. A colon inside brackets belongs to the host. -/
def splitNumber (cs : List Char) : List Char × List Char :=
  let rec go (inside : Bool) : List Char → List Char × List Char
    | [] => ([], [])
    | ':' :: rest =>
      if inside then
        let (h, n) := go inside rest
        (':' :: h, n)
      else ([], rest)
    | c :: rest =>
      let (h, n) := go (if c = '[' then true else if c = ']' then false else inside) rest
      (c :: h, n)
  go false cs

/-- The number behind a host, if there is one. It has sixteen bits. -/
def hostNumber (cs : List Char) : Except String (Option Nat) :=
  if cs.isEmpty then .ok none
  else
    match (String.ofList cs).toNat? with
    | some n =>
      if cs.all Char.isDigit && n < 65536 then .ok (some n) else .error "invalid port number"
    | none => .error "invalid port number"

/-- A user and a password, as they stand in front of the host. -/
def userText (cs : List Char) : String :=
  let name := cs.takeWhile (· ≠ ':')
  let password := (cs.drop name.length).drop 1
  if name.isEmpty && password.isEmpty then ""
  else
    String.ofList (encode keptInUser name ++
      (if password.isEmpty then [] else ':' :: encode keptInUser password) ++ ['@'])

/-! ## Paths -/

/-- Path segments with `.` and `..` worked off. -/
def settle (segments : List (List Char)) : List (List Char) :=
  let last := segments.getLast?.getD []
  let kept := segments.foldl
    (fun acc s =>
      if s = ['.'] then acc else if s = ['.', '.'] then acc.dropLast else acc ++ [s]) []
  if last = ['.'] ∨ last = ['.', '.'] then kept ++ [[]] else kept

/-- A path in its written form. -/
def pathText (cs : List Char) : List Char :=
  match cs with
  | '/' :: rest =>
    '/' :: Text.joinChars '/' ((settle (Text.splitChars '/' rest)).map (encode keptInPath))
  | cs => encode keptInPath cs

/-- A path of the web in its written form. -/
def webPathText (cs : List Char) : List Char :=
  match cs.map fun c => if isSlash c then '/' else c with
  | '/' :: rest => pathText ('/' :: rest)
  | cs => pathText ('/' :: cs)

/-- A path, a query and a fragment in their written form. -/
def behindHost (isSpecial : Bool) (path : List Char → List Char) (cs : List Char) : String :=
  let front := cs.takeWhile (· ≠ '#')
  let before := front.takeWhile (· ≠ '?')
  let query := (front.drop before.length).drop 1
  let fragment := (cs.drop front.length).drop 1
  String.ofList (path before ++
    (if before.length < front.length then '?' :: encode (keptInQuery isSpecial) query else []) ++
    (if front.length < cs.length then '#' :: encode keptInFragment fragment else []))

/-! ## Whole addresses -/

/-- Drop the blanks and controls around an address, and the tabs and line ends inside. -/
def cleaned (s : String) : List Char :=
  let isEdge (c : Char) : Bool := c.toNat ≤ 0x20
  let cs := ((s.toList.dropWhile isEdge).reverse.dropWhile isEdge).reverse
  cs.filter fun c => !(c == '\t' || c == '\n' || c == '\r')

/-- Read what is behind the scheme of an address with a host. -/
def ofHost (scheme : String) (rest : List Char) : Except String Address := do
  let authority := (rest.dropWhile isSlash).takeWhile fun c => !endsHost c
  let after := (rest.dropWhile isSlash).dropWhile fun c => !endsHost c
  let nameAndNumber := (authority.reverse.takeWhile (· ≠ '@')).reverse
  let user := (authority.take (authority.length - nameAndNumber.length)).dropLast
  let (name, number) := splitNumber nameAndNumber
  let h ← host name
  let n ← hostNumber number
  if scheme = "http" ∨ scheme = "https" then return .web h
  else
    let numberText := match n with
      | some n => if usualNumber scheme = some n then "" else ":" ++ toString n
      | none => ""
    return .foreign
      (scheme ++ "://" ++ userText user ++ h ++ numberText ++ behindHost true webPathText after)

/-- Read what is behind the scheme of a file. -/
def ofFile (rest : List Char) : Address :=
  match rest.take 2 |>.all isSlash, rest with
  | true, _ :: _ :: more =>
    let name := more.takeWhile fun c => !endsHost c
    let name := if (String.ofList name).toLower = "localhost" then [] else name
    .foreign ("file://" ++ (String.ofList name).toLower ++
      behindHost true webPathText (more.dropWhile fun c => !endsHost c))
  | _, rest => .foreign ("file://" ++ behindHost true webPathText rest)

/-- Read what is behind any other scheme. -/
def ofOther (scheme : String) (rest : List Char) : Address :=
  match rest with
  | '/' :: '/' :: more =>
    let name := more.takeWhile fun c => !(c == '/' || c == '?' || c == '#')
    .foreign (scheme ++ "://" ++ String.ofList name ++
      behindHost false pathText (more.drop name.length))
  | '/' :: _ => .foreign (scheme ++ ":" ++ behindHost false pathText rest)
  | _ => .foreign (scheme ++ ":" ++ behindHost false (encode keptOpaque) rest)

/-- Read an address. -/
def parse (s : String) : Except String Address :=
  match scheme? (cleaned s) with
  | none => .error "relative URL without a base"
  | some (scheme, rest) =>
    if isSpecial scheme then ofHost scheme rest
    else if scheme = "file" then .ok (ofFile rest)
    else .ok (ofOther scheme rest)

end Address
end Artifact
end ScriptSession
