/-! # Version -/

namespace ValueSchema

/-- The version of the library. -/
def version : String := "0.3.1"

end ValueSchema
