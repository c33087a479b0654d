/-!
# TOML texts and blanks

Readers take a list of characters and give what they have read together with the characters behind
it, or nothing if the input is not what they read. The input gets shorter with every character, so
all of them are recursions on it.
-/

set_option autoImplicit false

namespace Polyglot.Toml

/-- Reads from the front of a list of characters. -/
abbrev Reader (α : Type) := List Char → Option (α × List Char)

/-- A blank within a line. -/
def isSpace (c : Char) : Bool := c = ' ' || c = '\t'

/-- The characters behind the blanks of a line. -/
def skipSpace (cs : List Char) : List Char := cs.dropWhile isSpace

/-- A character that comments and texts may hold: a tab, printable ASCII, and everything else that
is not ASCII. -/
def isTextual (c : Char) : Bool :=
  c = '\t' || (0x20 ≤ c.toNat && c.toNat ≤ 0x7e) || 0x80 ≤ c.toNat

/-- The characters behind a newline. -/
def newline? : List Char → Option (List Char)
  | '\n' :: rest | '\r' :: '\n' :: rest => some rest
  | _ => none

/-- The characters behind the end of a line, with a comment in front of it or not. -/
def lineEnd? (cs : List Char) : Option (List Char) :=
  let behind := match skipSpace cs with
    | '#' :: rest => rest.dropWhile isTextual
    | rest => rest
  match behind with
  | [] => some []
  | rest => newline? rest

/-- The characters behind blanks, newlines and whole comments. -/
def skipGap : Bool → List Char → Option (List Char)
  | false, ' ' :: rest | false, '\t' :: rest | false, '\n' :: rest | false, '\r' :: '\n' :: rest =>
    skipGap false rest
  | false, '#' :: rest => skipGap true rest
  | false, rest => some rest
  | true, '\n' :: rest | true, '\r' :: '\n' :: rest => skipGap false rest
  | true, c :: rest => if isTextual c then skipGap true rest else none
  | true, [] => none

/-- The value of a digit in a base up to 16, in either case. -/
def digitIn? (base : Nat) (c : Char) : Option Nat :=
  let n := c.toNat
  let value := if c.isDigit then n - 48
    else if 97 ≤ n && n ≤ 102 then n - 87
    else if 65 ≤ n && n ≤ 70 then n - 55
    else base
  if value < base then some value else none

/-- The number that digits spell; none if one is not a digit of the base. -/
def numeral? (base : Nat) (cs : List Char) : Option Nat :=
  cs.foldlM (fun n c => (digitIn? base c).map (base * n + ·)) 0

/-- The character with a code point in hexadecimal digits, if there is one. -/
def codePoint? (digits : List Char) : Option Char := do
  let n ← numeral? 16 digits
  if n.isValidChar then some (Char.ofNat n) else none

/-- The character behind a backslash. -/
def escaped? : Char → Option Char
  | 'b' => some '\x08'
  | 't' => some '\t'
  | 'n' => some '\n'
  | 'f' => some '\x0c'
  | 'r' => some '\r'
  | '"' => some '"'
  | '\\' => some '\\'
  | _ => none

/-- Puts a character in front of what was read. -/
def consRead (c : Char) (r : List Char × List Char) : List Char × List Char := (c :: r.1, r.2)

/-- A text in double quotes, behind the first of them. -/
def basicBody : List Char → Option (List Char × List Char)
  | '"' :: rest => some ([], rest)
  | '\\' :: 'u' :: a :: b :: c :: d :: rest => do
    let x ← codePoint? [a, b, c, d]
    (basicBody rest).map (consRead x)
  | '\\' :: 'U' :: a :: b :: c :: d :: e :: f :: g :: h :: rest => do
    let x ← codePoint? [a, b, c, d, e, f, g, h]
    (basicBody rest).map (consRead x)
  | '\\' :: e :: rest => do
    let x ← escaped? e
    (basicBody rest).map (consRead x)
  | c :: rest => if isTextual c then (basicBody rest).map (consRead c) else none
  | [] => none

/-- A text in single quotes, behind the first of them. -/
def literalBody : List Char → Option (List Char × List Char)
  | '\'' :: rest => some ([], rest)
  | c :: rest => if isTextual c then (literalBody rest).map (consRead c) else none
  | [] => none

/-- Whether only blanks stand before the next newline. -/
def endsLine (cs : List Char) : Bool := (newline? (skipSpace cs)).isSome

/-- A text of several lines in triple double quotes, behind the first of them. Up to two quotes may
stand in front of the last three. A backslash at the end of a line joins it to the next character
that is not blank; `joining` says that this character is looked for. -/
def longBasicBody : Bool → List Char → Option (List Char × List Char)
  | true, ' ' :: rest | true, '\t' :: rest | true, '\n' :: rest | true, '\r' :: '\n' :: rest =>
    longBasicBody true rest
  | _, '"' :: '"' :: '"' :: '"' :: '"' :: rest => some (['"', '"'], rest)
  | _, '"' :: '"' :: '"' :: '"' :: rest => some (['"'], rest)
  | _, '"' :: '"' :: '"' :: rest => some ([], rest)
  | _, '\\' :: 'u' :: a :: b :: c :: d :: rest => do
    let x ← codePoint? [a, b, c, d]
    (longBasicBody false rest).map (consRead x)
  | _, '\\' :: 'U' :: a :: b :: c :: d :: e :: f :: g :: h :: rest => do
    let x ← codePoint? [a, b, c, d, e, f, g, h]
    (longBasicBody false rest).map (consRead x)
  | _, '\\' :: e :: rest =>
    if endsLine (e :: rest) then longBasicBody true (e :: rest)
    else do
      let x ← escaped? e
      (longBasicBody false rest).map (consRead x)
  | _, '\n' :: rest | _, '\r' :: '\n' :: rest => (longBasicBody false rest).map (consRead '\n')
  | _, c :: rest => if isTextual c then (longBasicBody false rest).map (consRead c) else none
  | _, [] => none

/-- A text of several lines in triple single quotes, behind the first of them. -/
def longLiteralBody : List Char → Option (List Char × List Char)
  | '\'' :: '\'' :: '\'' :: '\'' :: '\'' :: rest => some (['\'', '\''], rest)
  | '\'' :: '\'' :: '\'' :: '\'' :: rest => some (['\''], rest)
  | '\'' :: '\'' :: '\'' :: rest => some ([], rest)
  | '\n' :: rest | '\r' :: '\n' :: rest => (longLiteralBody rest).map (consRead '\n')
  | c :: rest => if isTextual c then (longLiteralBody rest).map (consRead c) else none
  | [] => none

/-- The characters behind a newline, or all of them if there is none. -/
def skipNewline (cs : List Char) : List Char := (newline? cs).getD cs

/-- A text on one line. -/
def shortText : Reader String
  | '"' :: rest => (basicBody rest).map fun r => (String.ofList r.1, r.2)
  | '\'' :: rest => (literalBody rest).map fun r => (String.ofList r.1, r.2)
  | _ => none

/-- A text in any notation. A newline directly behind triple quotes does not count. -/
def text : Reader String
  | '"' :: '"' :: '"' :: rest =>
    (longBasicBody false (skipNewline rest)).map fun r => (String.ofList r.1, r.2)
  | '\'' :: '\'' :: '\'' :: rest =>
    (longLiteralBody (skipNewline rest)).map fun r => (String.ofList r.1, r.2)
  | cs => shortText cs

end Polyglot.Toml
