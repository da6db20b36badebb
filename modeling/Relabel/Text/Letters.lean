import Relabel.Text.CharClass.Alphabetic
import Relabel.Text.CharClass.Numeric

/-!
# Letters and digits

The characters that names are made of.
-/

namespace Relabel.Text

/-- Whether a character is alphabetic. -/
def isAlphabetic (c : Char) : Bool :=
  alphabetic.contains c.toNat

/-- Whether a character is alphabetic or numeric. -/
def isAlphanumeric (c : Char) : Bool :=
  isAlphabetic c || numeric.contains c.toNat

end Relabel.Text
