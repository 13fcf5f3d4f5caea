/-
  Positions, spans and origins as JSON.
-/
import TemplateExpr.Json.Basic
import TemplateExpr.Source.Span

namespace TemplateExpr.Source

def Position.toJson (p : Position) : Json :=
  .object [("line", .whole p.line), ("column", .whole p.column)]

def Position.ofJson? (json : Json) : Option Position := do
  let line ← json.required? "line" Json.natural?
  let column ← json.required? "column" Json.natural?
  some ⟨line, column⟩

def Span.toJson (span : Span) : Json :=
  .object
    [("start", .whole span.start.offset),
     ("end", .whole span.stop.offset),
     ("loc", .object
        [("start", span.start.position.toJson), ("end", span.stop.position.toJson)])]

def Span.ofJson? (json : Json) : Option Span := do
  let start ← json.required? "start" Json.natural?
  let stop ← json.required? "end" Json.natural?
  let loc ← json.field? "loc"
  let first ← loc.required? "start" Position.ofJson?
  let last ← loc.required? "end" Position.ofJson?
  some ⟨⟨start, first⟩, ⟨stop, last⟩⟩

def Origin.toJson (origin : Origin) : Json :=
  .object
    [("absolutePosition", .whole origin.offset), ("line", .whole origin.line),
     ("column", .whole origin.column)]

/-- The offset may be called `pos` instead, but not both. -/
def Origin.ofJson? (json : Json) : Option Origin := do
  let offset ← match json.field? "absolutePosition", json.field? "pos" with
    | some value, none | none, some value => value.natural?
    | _, _ => none
  let line ← json.required? "line" Json.natural?
  let column ← json.required? "column" Json.natural?
  some ⟨offset, line, column⟩

end TemplateExpr.Source
