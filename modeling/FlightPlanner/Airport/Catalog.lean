import FlightPlanner.Documents.Airport

/-!
# Airport catalogs

A catalog of airports is a list of them; it may be loaded from a document.
-/

namespace FlightPlanner

/-- A catalog that could not be loaded. -/
inductive CatalogError where
  /-- Its document could not be read. -/
  | invalid (cause : Json.ReadError)
deriving DecidableEq

/-- The wording of the error, where it has one: a document that is none is complained about without words. -/
def CatalogError.message? : CatalogError → Option String
  | .invalid (.mismatch mismatch) => some ("Invalid catalog data: " ++ mismatch.message)
  | .invalid (.fault _) => none

/-- The catalog in a document: a list of airports. -/
def loadCatalog (text : String) : Except CatalogError (List Airport) :=
  ((Json.Format.list Airport.record.format).decode text).mapError .invalid

end FlightPlanner
