import AllowedValues.Enrichment

/-!
A request: the description of an attribute together with the source texts of its validators.
-/

namespace AllowedValues

/-- A description to enrich and the fragments to enrich it with. -/
structure Request where
  description : Option Text := none
  validators : List Text := []
deriving DecidableEq, Repr

def Request.enrich (settings : Settings) (request : Request) : Description :=
  Description.enrich settings request.validators ⟨request.description⟩

end AllowedValues
