/-
# TreeSchema.Declarations.Fingerprint — one short text for a whole set of declarations.
-/
import TreeSchema.Declarations
import TreeSchema.Digest
import TreeSchema.Json.Written

namespace TreeSchema.Declarations

/-- The digest of the compact JSON form, which has one spelling for each set. -/
def fingerprint (d : Declarations) : String := Digest.ofText (Json.compact d.toDocument)

end TreeSchema.Declarations
