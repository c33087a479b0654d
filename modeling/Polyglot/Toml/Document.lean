import Polyglot.Toml.Moment
import Polyglot.Toml.Number

/-!
# TOML documents

A document is read line by line into its root table. Containers nest less than `nestingLimit` deep
and keys have fewer parts than that; this bounds the recursion on values. The reader stands at the
edge of the library and only serves `Options.ofToml`.

* `value` : a value of any kind.
* `document?` : the root table of a document, if the text is one.
-/

set_option autoImplicit false

namespace Polyglot.Toml

/-- Containers within containers, and the parts of a dotted key, stay below this number. -/
def nestingLimit : Nat := 80

/-- A character of a key without quotes. -/
def isBare (c : Char) : Bool := c.isAlphanum || c = '_' || c = '-'

/-- One part of a key. -/
def keyPart : Reader String
  | '"' :: rest => shortText ('"' :: rest)
  | '\'' :: rest => shortText ('\'' :: rest)
  | cs =>
    let name := cs.takeWhile isBare
    if name.isEmpty then none else some (String.ofList name, cs.dropWhile isBare)

/-- The parts of a key, with points between them; as many as the first argument says at most. -/
def keyParts : Nat → Reader (List String)
  | 0, _ => none
  | n + 1, cs => do
    let (part, rest) ← keyPart (skipSpace cs)
    match skipSpace rest with
    | '.' :: more => do
      let (parts, rest) ← keyParts n more
      return (part :: parts, rest)
    | rest => return ([part], rest)

/-- A key: the tables on the way, and the name in the last of them. -/
def key : Reader (List String × String) := fun cs => do
  let (parts, rest) ← keyParts (nestingLimit - 1) cs
  let last ← parts.getLast?
  return ((parts.dropLast, last), rest)

/-- The items of an array, behind its bracket. Every item is followed by a comma or by the closing
bracket; the first argument bounds their number. -/
def items (item : Reader Value) : Nat → Reader (List Value)
  | 0, _ => none
  | n + 1, cs => do
    match ← skipGap false cs with
    | ']' :: rest => return ([], rest)
    | cs =>
      let (v, rest) ← item cs
      match ← skipGap false rest with
      | ',' :: rest => do
        let (vs, rest) ← items item n rest
        return (v :: vs, rest)
      | ']' :: rest => return ([v], rest)
      | _ => none

/-- A key with its value. -/
def pair (item : Reader Value) : Reader ((List String × String) × Value) := fun cs => do
  let (k, rest) ← key cs
  let rest ← expect '=' rest
  let (v, rest) ← item (skipSpace rest)
  return ((k, v), rest)

/-- The pairs of a table in braces, behind the first pair's start. There is at least one, with
commas between them; the first argument bounds their number. -/
def pairs (item : Reader Value) : Nat → Table → Reader Table
  | 0, _, _ => none
  | n + 1, t, cs => do
    let ((k, v), rest) ← pair item cs
    let t ← t.insertAt k.1 k.2 v
    match skipSpace rest with
    | ',' :: rest => pairs item n t rest
    | '\x7d' :: rest => return (t, rest)
    | _ => none

/-- A table in braces, behind its brace. -/
def bracedTable (item : Reader Value) : Reader Value := fun cs =>
  match skipSpace cs with
  | '\x7d' :: rest => some (.table (.new .written), rest)
  | rest => (pairs item (rest.length + 1) (.new .written) rest).map fun r => (.table r.1, r.2)

/-- A value that holds no other values. -/
def scalar : Reader Value
  | '"' :: rest => (text ('"' :: rest)).map fun r => (.text r.1, r.2)
  | '\'' :: rest => (text ('\'' :: rest)).map fun r => (.text r.1, r.2)
  | 't' :: 'r' :: 'u' :: 'e' :: rest => some (.flag true, rest)
  | 'f' :: 'a' :: 'l' :: 's' :: 'e' :: rest => some (.flag false, rest)
  | cs => (moment cs).or (number cs)

/-- A value, with containers nested as deep as the first argument says at most. -/
def value : Nat → Reader Value
  | 0, cs => scalar cs
  | depth + 1, '[' :: rest =>
    (items (value depth) (rest.length + 1) rest).map fun r => (.array r.1, r.2)
  | depth + 1, '\x7b' :: rest => bracedTable (value depth) rest
  | _ + 1, cs => scalar cs

/-- The root table and the path of the table that is open. -/
structure State where
  root : Table
  opened : List String

/-- Reads a line with a pair into the open table. -/
def pairLine (s : State) : Reader State := fun cs => do
  let ((k, v), rest) ← pair (value (nestingLimit - 1)) cs
  let root ← s.root.alterAt .parent (Table.insertAt k.1 k.2 v) s.opened
  let rest ← lineEnd? rest
  return ({ s with root }, rest)

/-- Reads a header behind `[`. -/
def tableLine (s : State) : Reader State := fun cs => do
  let (k, rest) ← key cs
  let rest ← expect ']' rest
  let rest ← lineEnd? rest
  let root ← s.root.openTable k.1 k.2
  return (⟨root, k.1 ++ [k.2]⟩, rest)

/-- Reads a header behind `[[`. -/
def entryLine (s : State) : Reader State := fun cs => do
  let (k, rest) ← key cs
  let rest ← expect ']' rest
  let rest ← expect ']' rest
  let rest ← lineEnd? rest
  let root ← s.root.openEntry k.1 k.2
  return (⟨root, k.1 ++ [k.2]⟩, rest)

/-- Reads lines until the text ends; the first argument bounds their number. -/
def lines? : Nat → State → List Char → Option State
  | 0, _, _ => none
  | n + 1, s, cs =>
    match skipSpace cs with
    | [] => some s
    | '\n' :: rest | '\r' :: '\n' :: rest => lines? n s rest
    | '#' :: rest => do
      let rest ← lineEnd? ('#' :: rest)
      lines? n s rest
    | '[' :: '[' :: rest => do
      let (s, rest) ← entryLine s rest
      lines? n s rest
    | '[' :: rest => do
      let (s, rest) ← tableLine s rest
      lines? n s rest
    | rest => do
      let (s, rest) ← pairLine s rest
      lines? n s rest

/-- The characters behind a byte order mark, or all of them if there is none. -/
def skipMark : List Char → List Char
  | '\uFEFF' :: rest => rest
  | cs => cs

/-- The root table of a document, if the text is one. -/
def document? (s : String) : Option Table :=
  let cs := skipMark s.toList
  (lines? (cs.length + 1) ⟨.new .written, []⟩ cs).map State.root

end Polyglot.Toml
