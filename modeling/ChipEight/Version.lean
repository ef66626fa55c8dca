/-!
# Version
-/

namespace ChipEight

/-- The version of the program. -/
def version : String := "0.1.0"

end ChipEight
