/-!
# Letters for truth values
-/

namespace Sentential.Text

/-- The letter that stands for a truth value. -/
def truthLetter (b : Bool) : String := if b then "T" else "F"

end Sentential.Text
