/-!
# Render options

How a file is written: the indentation, the namespace that PHP files declare, and whether a written
file is formatted afterwards.
-/

set_option autoImplicit false

namespace Polyglot

/-- How a file is written: one level of indentation, whether formatters are run on the file, and the
namespace of PHP files. -/
structure Options where
  indent : String
  pretty : Bool
  phpNamespace : Option String
  deriving DecidableEq, Repr

/-- Four spaces, no formatting, no namespace. -/
def Options.default : Options where
  indent := "    "
  pretty := false
  phpNamespace := none

end Polyglot
