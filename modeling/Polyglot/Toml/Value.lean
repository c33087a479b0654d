/-!
# TOML values

The values of a TOML document, and tables with the rules about who may add to them. A table that is
written out is complete where it stands; a table that only stands on the way to a key is open for
more keys of the same kind.

* `Table.insertAt` : adds a pair under a dotted key.
* `Table.openTable`, `Table.openEntry` : what `[path]` and `[[path]]` do.
-/

set_option autoImplicit false

namespace Polyglot.Toml

/-- A number with a fraction, an exponent, or no finite value; its digits are a whole number, times
a power of ten. -/
inductive Decimal where
  | finite (negative : Bool) (digits : Nat) (exponent : Int)
  | infinite (negative : Bool)
  | nan
  deriving DecidableEq, Repr

/-- How a table came to be: written by a header of its own or in braces, or as a parent in a header
or in a dotted key. -/
inductive Origin where
  | written
  | parent
  | dotted
  deriving DecidableEq, Repr

mutual

/-- A value; a date or a time of day is kept as it is spelled. -/
inductive Value where
  | text (s : String)
  | flag (b : Bool)
  | integer (n : Int)
  | decimal (d : Decimal)
  | moment (spelling : String)
  | array (items : List Value)
  | table (t : Table)

/-- What a key of a document stands for. -/
inductive Item where
  | value (v : Value)
  | table (t : Table)
  | tables (ts : List Table)

/-- Keys with what they stand for, in order. -/
structure Table where
  origin : Origin
  entries : List (String × Item)

end

namespace Table

def new (origin : Origin) : Table := ⟨origin, []⟩

/-- What a key stands for. -/
def get? (t : Table) (key : String) : Option Item :=
  (t.entries.find? fun e => e.1 = key).map Prod.snd

/-- Sets what a key stands for, in its place if the key is there already. -/
def set (t : Table) (key : String) (item : Item) : Table :=
  if (t.get? key).isSome then
    { t with entries := t.entries.map fun e => if e.1 = key then (key, item) else e }
  else { t with entries := t.entries ++ [(key, item)] }

/-- Changes the last table of a list. -/
def alterLast (f : Table → Option Table) : List Table → Option (List Table)
  | [] => none
  | [t] => do
    let t' ← f t
    return [t']
  | t :: ts => do
    let ts' ← alterLast f ts
    return t :: ts'

/-- Changes the table at a path of keys, which is created on the way. Values are not entered; of an
array of tables the last is. A table that is written out is not entered by a dotted key. -/
def alterAt (origin : Origin) (f : Table → Option Table) : List String → Table → Option Table
  | [], t => f t
  | key :: path, t => do
    let item ← match t.get? key with
      | none => (alterAt origin f path (new origin)).map Item.table
      | some (.value _) => none
      | some (.tables ts) => (alterLast (alterAt origin f path) ts).map Item.tables
      | some (.table child) =>
        if origin = .dotted ∧ child.origin = .written then none
        else (alterAt origin f path child).map Item.table
    return t.set key item

/-- Adds a new key. -/
def add (key : String) (item : Item) (t : Table) : Option Table :=
  if (t.get? key).isSome then none else some (t.set key item)

/-- Adds a pair under a dotted key. Only tables that dotted keys have made take pairs from dotted
keys, and they take none from other keys. -/
def insertAt (path : List String) (key : String) (v : Value) (t : Table) : Option Table :=
  t.alterAt .dotted
    (fun child =>
      if decide (child.origin = .dotted) = path.isEmpty then none else child.add key (.value v))
    path

/-- Opens the table of a header. A parent of other headers becomes a table of its own, once. -/
def openTable (path : List String) (key : String) (t : Table) : Option Table :=
  t.alterAt .parent
    (fun parent => match parent.get? key with
      | none => some (parent.set key (.table (new .written)))
      | some (.table child) =>
        if child.origin = .parent then
          some (parent.set key (.table { child with origin := .written }))
        else none
      | some _ => none)
    path

/-- Opens a new table at the end of the array of a header. -/
def openEntry (path : List String) (key : String) (t : Table) : Option Table :=
  t.alterAt .parent
    (fun parent => match parent.get? key with
      | none => some (parent.set key (.tables [new .written]))
      | some (.tables ts) => some (parent.set key (.tables (ts ++ [new .written])))
      | some _ => none)
    path

end Table

end Polyglot.Toml
