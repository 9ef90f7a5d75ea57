/- Nodes, edges, warnings and contents entries as JSON records. -/
import SourceAtlas.Index.Basic
import SourceAtlas.Json.Decode
import SourceAtlas.Symbol

namespace SourceAtlas

open Json (text? word? choice? optional? required? defaulted?)

/-- A field that is written only when there is a value. -/
def Json.present (name : String) (value : Option Json) : List (String × Json) :=
  match value with
  | some value => [(name, value)]
  | none => []

def Json.word (value : UInt64) : Json := .nat value.toNat

def NodeKind.toJson (kind : NodeKind) : Json := .text kind.name

def NodeKind.ofJson? : Json → Option NodeKind := choice? NodeKind.name NodeKind.all

def EdgeKind.toJson (kind : EdgeKind) : Json := .text kind.name

def EdgeKind.ofJson? : Json → Option EdgeKind := choice? EdgeKind.name EdgeKind.all

def Confidence.toJson (confidence : Confidence) : Json := .text confidence.name

def Confidence.ofJson? : Json → Option Confidence := choice? Confidence.name Confidence.all

namespace SourceLocation

def fieldNames : List String := ["path", "start_line", "end_line", "start_col", "end_col"]

def toJson (location : SourceLocation) : Json :=
  .record
    [("path", .text location.path),
     ("start_line", .word location.startLine),
     ("end_line", .word location.endLine),
     ("start_col", .word location.startColumn),
     ("end_col", .word location.endColumn)]

def ofJson? (json : Json) : Option SourceLocation := do
  let fields ← json.recordFields? fieldNames
  return {
    path := ← required? fields "path" text?
    startLine := ← defaulted? fields "start_line" word? 0
    endLine := ← defaulted? fields "end_line" word? 0
    startColumn := ← defaulted? fields "start_col" word? 0
    endColumn := ← defaulted? fields "end_col" word? 0 }

end SourceLocation

namespace SymbolNode

def fieldNames : List String :=
  ["id", "name", "kind", "summary", "signature", "docstring", "location", "module"]

def toJson (node : SymbolNode) : Json :=
  .record <|
    [("id", .text node.id),
     ("name", .text node.name),
     ("kind", node.kind.toJson),
     ("summary", .text node.summary)] ++
    Json.present "signature" (node.signature.map Json.text) ++
    Json.present "docstring" (node.docstring.map Json.text) ++
    Json.present "location" (node.location.map SourceLocation.toJson) ++
    Json.present "module" (node.module.map Json.text)

def ofJson? (json : Json) : Option SymbolNode := do
  let fields ← json.recordFields? fieldNames
  return {
    id := ← required? fields "id" text?
    name := ← required? fields "name" text?
    kind := ← required? fields "kind" NodeKind.ofJson?
    summary := ← defaulted? fields "summary" text? ""
    signature := ← defaulted? fields "signature" (optional? text?) none
    docstring := ← defaulted? fields "docstring" (optional? text?) none
    location := ← defaulted? fields "location" (optional? SourceLocation.ofJson?) none
    module := ← defaulted? fields "module" (optional? text?) none }

end SymbolNode

namespace GraphEdge

def fieldNames : List String := ["source", "target", "kind", "confidence"]

def toJson (edge : GraphEdge) : Json :=
  .record
    [("source", .text edge.source),
     ("target", .text edge.target),
     ("kind", edge.kind.toJson),
     ("confidence", edge.confidence.toJson)]

def ofJson? (json : Json) : Option GraphEdge := do
  let fields ← json.recordFields? fieldNames
  return {
    source := ← required? fields "source" text?
    target := ← required? fields "target" text?
    kind := ← required? fields "kind" EdgeKind.ofJson?
    confidence := ← required? fields "confidence" Confidence.ofJson? }

end GraphEdge

namespace Warning

def fieldNames : List String := ["code", "message", "path", "line"]

def toJson (warning : Warning) : Json :=
  .record <|
    [("code", .text warning.code),
     ("message", .text warning.message),
     ("path", .text warning.path)] ++
    Json.present "line" (warning.line.map Json.word)

def ofJson? (json : Json) : Option Warning := do
  let fields ← json.recordFields? fieldNames
  return {
    code := ← required? fields "code" text?
    message := ← required? fields "message" text?
    path := ← required? fields "path" text?
    line := ← defaulted? fields "line" (optional? word?) none }

end Warning

namespace TocEntry

def fieldNames : List String := ["id", "title", "summary", "scope"]

def toJson (entry : TocEntry) : Json :=
  .record
    [("id", .text entry.id),
     ("title", .text entry.title),
     ("summary", .text entry.summary),
     ("scope", .text entry.scope)]

def ofJson? (json : Json) : Option TocEntry := do
  let fields ← json.recordFields? fieldNames
  return {
    id := ← required? fields "id" text?
    title := ← required? fields "title" text?
    summary := ← required? fields "summary" text?
    scope := ← required? fields "scope" text? }

end TocEntry

end SourceAtlas
