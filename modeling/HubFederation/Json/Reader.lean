import HubFederation.Json.Basic

/-!
# Reading JSON text

The reader accepts the JSON grammar and nothing else: no trailing commas, no
leading zeros, no control characters inside strings, and no text but blanks
after the value. A recursive reader carries fuel; `parse?` gives it more than
any text of that length can use.
-/
namespace HubFederation.Json

/-- Blanks between tokens. -/
def isSpace (c : Char) : Bool := c == ' ' || c == '\n' || c == '\t' || c == '\r'

def skipSpace (cs : List Char) : List Char := cs.dropWhile isSpace

/-! ## Strings -/

/-- A part of a string: a character, or a code unit spelled in hexadecimal. -/
inductive Piece where
  | char (c : Char)
  | unit (n : Nat)
  deriving DecidableEq, Repr

def hexUnit? (a b c d : Char) : Option Nat := do
  return 0x1000 * (← Text.hexValue? a) + 0x100 * (← Text.hexValue? b) +
    0x10 * (← Text.hexValue? c) + (← Text.hexValue? d)

/-- The character that a one-letter escape stands for. -/
def escape? : Char → Option Char
  | '"' => some '"'
  | '\\' => some '\\'
  | '/' => some '/'
  | 'b' => some '\x08'
  | 'f' => some '\x0c'
  | 'n' => some '\n'
  | 'r' => some '\r'
  | 't' => some '\t'
  | _ => none

/-- The pieces of a string up to its closing quote, and the text after it. -/
def readPieces : List Char → Option (List Piece × List Char)
  | [] => none
  | '"' :: rest => some ([], rest)
  | '\\' :: 'u' :: a :: b :: c :: d :: rest => do
    let n ← hexUnit? a b c d
    let (ps, rest) ← readPieces rest
    return (.unit n :: ps, rest)
  | '\\' :: e :: rest => do
    let c ← escape? e
    let (ps, rest) ← readPieces rest
    return (.char c :: ps, rest)
  | c :: rest =>
    if c == '\\' || c.toNat < 0x20 then none
    else do
      let (ps, rest) ← readPieces rest
      return (.char c :: ps, rest)

/-- The characters that pieces stand for; `none` if a code unit is half of a pair. -/
def decodePieces : List Piece → Option (List Char)
  | [] => some []
  | .char c :: ps => (decodePieces ps).map (c :: ·)
  | .unit n :: ps =>
    if n < 0xd800 ∨ 0xdfff < n then (decodePieces ps).map (Char.ofNat n :: ·)
    else if n < 0xdc00 then
      match ps with
      | .unit m :: ps =>
        if 0xdc00 ≤ m ∧ m ≤ 0xdfff then
          (decodePieces ps).map (Char.ofNat (0x10000 + 0x400 * (n - 0xd800) + (m - 0xdc00)) :: ·)
        else none
      | _ => none
    else none

/-- The text of a string after its opening quote, `none` inside if it names no text. -/
def readText (cs : List Char) : Option (Option String × List Char) :=
  (readPieces cs).map fun (ps, rest) => ((decodePieces ps).map String.ofList, rest)

/-! ## Numbers -/

def isDigit (c : Char) : Bool := 48 ≤ c.toNat && c.toNat ≤ 57

/-- A non-empty run of digits and the text after it. -/
def takeDigits (cs : List Char) : Option (List Char × List Char) :=
  match cs.takeWhile isDigit with
  | [] => none
  | ds => some (ds, cs.dropWhile isDigit)

/-- The whole part of a number: no leading zero unless it is zero. -/
def takeWhole : List Char → Option (List Char × List Char)
  | '0' :: rest => some (['0'], rest)
  | cs => takeDigits cs

/-- A fraction, if there is a point. -/
def takeFraction : List Char → Option (List Char × List Char)
  | '.' :: rest => (takeDigits rest).map fun (ds, rest) => ('.' :: ds, rest)
  | cs => some ([], cs)

/-- An exponent, if there is a mark. -/
def takeExponent : List Char → Option (List Char × List Char)
  | c :: rest =>
    if c == 'e' || c == 'E' then
      match rest with
      | s :: rest' =>
        if s == '+' || s == '-' then
          (takeDigits rest').map fun (ds, rest) => (c :: s :: ds, rest)
        else (takeDigits rest).map fun (ds, rest) => (c :: ds, rest)
      | [] => none
    else some ([], c :: rest)
  | [] => some ([], [])

/-- The value of a literal without fraction and exponent; negative zero is none. -/
def wholeNumber? (negative : Bool) (whole : List Char) : Option Int :=
  (Text.readDigits whole).bind fun n =>
    if negative then if n = 0 then none else some (-(n : Int)) else some (n : Int)

def readNumber (cs : List Char) : Option (Json × List Char) := do
  let (negative, cs) := match cs with
    | '-' :: rest => (true, rest)
    | _ => (false, cs)
  let (whole, cs) ← takeWhole cs
  let (fraction, cs) ← takeFraction cs
  let (exponent, cs) ← takeExponent cs
  let literal := (if negative then ['-'] else []) ++ whole ++ fraction ++ exponent
  let value := if fraction = [] ∧ exponent = [] then wholeNumber? negative whole else none
  return (match value with | some i => .num i | none => .decimal (String.ofList literal), cs)

/-! ## Values -/

/-- The text after a keyword. -/
def afterWord (word : List Char) (j : Json) (cs : List Char) : Option (Json × List Char) :=
  (word.isPrefixOf? cs).map (j, ·)

/-- An object from its members; one unreadable key spoils it. -/
def ofMembers (ms : List (Option String × Json)) : Json :=
  match ms.mapM fun (k, v) => k.map (·, v) with
  | some ms => .obj ms
  | none => .garbled

mutual

/-- A value at the head of the text, and the text after it. -/
def readValue : Nat → List Char → Option (Json × List Char)
  | 0, _ => none
  | fuel + 1, cs =>
    match cs with
    | 'n' :: rest => afterWord ['u', 'l', 'l'] .null rest
    | 't' :: rest => afterWord ['r', 'u', 'e'] (.bool true) rest
    | 'f' :: rest => afterWord ['a', 'l', 's', 'e'] (.bool false) rest
    | '"' :: rest => do
      let (text, rest) ← readText rest
      return (match text with | some s => .str s | none => .garbled, rest)
    | '[' :: rest =>
      match skipSpace rest with
      | ']' :: rest => some (.arr [], rest)
      | rest => (readItems fuel rest).map fun (js, rest) => (.arr js, rest)
    | '\x7b' :: rest =>
      match skipSpace rest with
      | '\x7d' :: rest => some (.obj [], rest)
      | rest => (readMembers fuel rest).map fun (ms, rest) => (ofMembers ms, rest)
    | cs => readNumber cs

/-- One item or more, up to the closing bracket. -/
def readItems : Nat → List Char → Option (List Json × List Char)
  | 0, _ => none
  | fuel + 1, cs => do
    let (j, rest) ← readValue fuel cs
    match skipSpace rest with
    | ',' :: rest =>
      let (js, rest) ← readItems fuel (skipSpace rest)
      return (j :: js, rest)
    | ']' :: rest => return ([j], rest)
    | _ => none

/-- One member or more, up to the closing brace. -/
def readMembers : Nat → List Char → Option (List (Option String × Json) × List Char)
  | 0, _ => none
  | fuel + 1, cs =>
    match cs with
    | '"' :: rest => do
      let (key, rest) ← readText rest
      match skipSpace rest with
      | ':' :: rest =>
        let (v, rest) ← readValue fuel (skipSpace rest)
        match skipSpace rest with
        | ',' :: rest =>
          let (ms, rest) ← readMembers fuel (skipSpace rest)
          return ((key, v) :: ms, rest)
        | '\x7d' :: rest => return ([(key, v)], rest)
        | _ => none
      | _ => none
    | _ => none

end

/-- The value that a text holds, with nothing but blanks around it. -/
def parse? (s : String) : Option Json :=
  match readValue (2 * s.length + 2) (skipSpace s.toList) with
  | some (j, rest) => if skipSpace rest = [] then some j else none
  | none => none

end HubFederation.Json
