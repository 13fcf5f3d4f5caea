/-
  Analysing every region of a document. A fault inside a region is reported for that region; a
  brace without partner is a fault of the document.
-/
import TemplateExpr.Template
import TemplateExpr.Document.Region

namespace TemplateExpr

/-- A region and what it was found to be. -/
structure RegionReport where
  region : Region
  outcome : Except SyntaxError Report
deriving Inhabited

def RegionReport.isFaulty (report : RegionReport) : Bool :=
  match report.outcome with
  | .ok _ => false
  | .error _ => true

/-- What surrounds a region is what surrounds its document, but for the place of the region. -/
def Surroundings.at (around : Surroundings) (region : Region) : Surroundings :=
  { around with origin := some region.origin }

/-- One region, analysed. -/
def Dialect.scanRegion (dialect : Dialect) (around : Surroundings) (view : View)
    (region : Region) : RegionReport :=
  ⟨region, dialect.report (around.at region) view (String.ofList region.code)⟩

/-- All regions of a document, analysed. -/
def Dialect.scan (dialect : Dialect) (around : Surroundings) (view : View)
    (document : String) : Except SyntaxError (List RegionReport) :=
  (Region.all document.toList).map fun regions =>
    regions.map (dialect.scanRegion around view)

end TemplateExpr
