import Polyglot.Error
import Polyglot.Options
import Polyglot.Toml.Document

/-!
# Render options in TOML

Options are keys of the root table. A key that is missing keeps the default, a key that is not
known is ignored, and a value of another kind is an error. This is the outer layer of the library:
`Options.ofToml` is all that reads documents, and scripts are written with the options that it gives,
wherever they come from.
-/

set_option autoImplicit false

namespace Polyglot.Options

/-- What a key is set to, if it is set. -/
def setting? {α : Type} (t : Toml.Table) (key : String) (read? : Toml.Value → Option α) :
    Except Error (Option α) :=
  match t.get? key with
  | none => .ok none
  | some (.value v) =>
    match read? v with
    | some a => .ok (some a)
    | none => .error .options
  | some _ => .error .options

/-- The value as a text. -/
def asText? : Toml.Value → Option String
  | .text s => some s
  | _ => none

/-- The value as a truth value. -/
def asFlag? : Toml.Value → Option Bool
  | .flag b => some b
  | _ => none

/-- The options that a table sets. -/
def ofTable (t : Toml.Table) : Except Error Options := do
  let indent ← setting? t "indent" asText?
  let pretty ← setting? t "pretty" asFlag?
  let phpNamespace ← setting? t "php_namespace" asText?
  return {
    indent := indent.getD default.indent
    pretty := pretty.getD default.pretty
    phpNamespace := phpNamespace.or default.phpNamespace }

/-- The options that a TOML document sets. -/
def ofToml (s : String) : Except Error Options :=
  match Toml.document? s with
  | none => .error .options
  | some t => ofTable t

end Polyglot.Options
