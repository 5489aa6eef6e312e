/-
The version of the program.
-/

namespace ConfigBinder

/-- The version of the program. -/
def version : String := "0.1.0"

end ConfigBinder
