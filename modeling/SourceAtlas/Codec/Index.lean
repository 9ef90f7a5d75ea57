/- The stored form of an index. -/
import SourceAtlas.Codec.Symbol
import SourceAtlas.Decimal.Shortest
import SourceAtlas.Index.Basic
import SourceAtlas.Json.Parser
import SourceAtlas.Json.Printer

namespace SourceAtlas

open Json (text? word? float? optional? list? map? required? defaulted?)

/-- Stored numbers show up to four zeros after the point, and the sign of every power. A half goes
to the even neighbour. -/
def Json.layout : Decimal.Layout := ⟨4, true, .even⟩

/-- A finite number with its shortest text; any other number is null. -/
def Json.float (value : Float) : Json :=
  if value.isFinite then .number (Decimal.toText Json.layout value) else .null

/-- An object with a field for each entry of a map, in key order. -/
def Json.ofMap {α : Type} (encode : α → Json) (map : TextMap α) : Json :=
  .record (map.toList.map fun (key, value) => (key, encode value))

namespace RepoIndex

def fieldNames : List String :=
  ["repo_id", "root_path", "commit_sha", "nodes", "edges", "toc", "warnings", "stats",
   "content_signature", "generated_at"]

def toJson (index : RepoIndex) : Json :=
  .record
    [("repo_id", .text index.repoId),
     ("root_path", .text index.rootPath),
     ("commit_sha", .optText index.commit),
     ("nodes", .ofMap SymbolNode.toJson index.nodes),
     ("edges", .array (index.edges.map GraphEdge.toJson)),
     ("toc", .array (index.toc.map TocEntry.toJson)),
     ("warnings", .array (index.warnings.map Warning.toJson)),
     ("stats", .ofMap Json.word index.stats),
     ("content_signature", .optText index.contentSignature),
     ("generated_at", .float index.generatedAt)]

def ofJson? (json : Json) : Option RepoIndex := do
  let fields ← json.recordFields? fieldNames
  return {
    repoId := ← required? fields "repo_id" text?
    rootPath := ← required? fields "root_path" text?
    commit := ← defaulted? fields "commit_sha" (optional? text?) none
    nodes := ← required? fields "nodes" (map? SymbolNode.ofJson?)
    edges := ← required? fields "edges" (list? GraphEdge.ofJson?)
    toc := ← defaulted? fields "toc" (list? TocEntry.ofJson?) []
    warnings := ← defaulted? fields "warnings" (list? Warning.ofJson?) []
    stats := ← defaulted? fields "stats" (map? word?) ∅
    contentSignature := ← defaulted? fields "content_signature" (optional? text?) none
    generatedAt := ← defaulted? fields "generated_at" float? 0.0 }

/-- The text in which an index is stored. -/
def toText (index : RepoIndex) : String := index.toJson.pretty

/-- The index that a stored text holds. -/
def ofText? (text : String) : Option RepoIndex := (Json.parse? text).bind ofJson?

end RepoIndex

end SourceAtlas
