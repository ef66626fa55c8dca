/-!
# Truth values as words
-/

namespace ChipEight.Text

/-- The word for a truth value. -/
def truth (b : Bool) : String := if b then "True" else "False"

end ChipEight.Text
