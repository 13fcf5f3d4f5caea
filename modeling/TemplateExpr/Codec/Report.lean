/-
  Surroundings, bindings, errors and reports as JSON.
-/
import TemplateExpr.Codec.Tree
import TemplateExpr.Document.Scan

namespace TemplateExpr
open Json
open Source (Origin)

/-- What is known of the surroundings; the helpers are always there. -/
def Surroundings.toJson (around : Surroundings) : Json :=
  .object
    ((match around.origin with
      | some origin => [("offset", origin.toJson)]
      | none => []) ++
    (match around.url with
      | some url => [("url", .text url)]
      | none => []) ++
    [("helpers", texts around.helpers.toList)])

/-- Names as an array of texts; a name that comes again is dropped. -/
def Names.ofJson? (json : Json) : Option Names :=
  (json.listOf? text?).map Names.ofList

/-- Everything may be missing; only the helpers may not be null. -/
def Surroundings.ofJson? (json : Json) : Option Surroundings :=
  match json with
  | .object _ => do
    let origin ← json.optional? "offset" Origin.ofJson?
    let url ← json.optional? "url" text?
    let helpers ← match json.field? "helpers" with
      | none => some Names.empty
      | some value => Names.ofJson? value
    some ⟨origin, url, helpers⟩
  | _ => none

def Binding.toJson (binding : Binding) : Json :=
  .object
    [("name", .text binding.name), ("context", .text binding.context.word),
     ("span", binding.span.toJson)]

def SyntaxError.toJson (e : SyntaxError) : Json :=
  .object
    ([("message", .text e.message), ("pos", .whole e.place.offset),
      ("loc", e.place.position.toJson)] ++
      match e.url with
      | some url => [("url", .text url)]
      | none => [])

def Report.toJson : Report → Json
  | tree program => program.toJson
  | bindings found => .array (found.map Binding.toJson)

/-- The code of the region, its bounds, and what it was found to be. -/
def RegionReport.toJson (report : RegionReport) : Json :=
  .object
    [("code", .text (String.ofList report.region.code)), ("start", .whole report.region.start),
     ("end", .whole report.region.stop),
     match report.outcome with
      | .ok report => ("result", report.toJson)
      | .error e => ("error", e.toJson)]

end TemplateExpr
