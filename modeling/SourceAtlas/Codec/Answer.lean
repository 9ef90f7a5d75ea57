/- Views, arcs and excerpts as JSON records. -/
import SourceAtlas.Codec.Symbol
import SourceAtlas.Snippet
import SourceAtlas.Story.Arc
import SourceAtlas.View.Collapse

namespace SourceAtlas

def GraphView.toJson (view : GraphView) : Json :=
  .record
    [("nodes", .array (view.nodes.map SymbolNode.toJson)),
     ("edges", .array (view.edges.map GraphEdge.toJson))]

def ExternalGroup.toJson (group : ExternalGroup) : Json :=
  .record
    [("id", .text group.id),
     ("file_path", .text group.filePath),
     ("names", .texts group.names.toList)]

def CollapsedGraph.toJson (graph : CollapsedGraph) : Json :=
  .record
    [("nodes", .array (graph.nodes.map SymbolNode.toJson)),
     ("edges", .array (graph.edges.map GraphEdge.toJson)),
     ("groups", .array (graph.groups.map ExternalGroup.toJson))]

def RouteInfo.toJson (route : RouteInfo) : Json :=
  .record
    [("handler_id", .text route.handlerId),
     ("handler_name", .text route.handlerName),
     ("module", .text route.module),
     ("file_path", .text route.filePath),
     ("line", .word route.line),
     ("path", .text route.path),
     ("methods", .texts route.methods)]

def Scene.toJson (scene : Scene) : Json :=
  .record <|
    [("id", .text scene.id),
     ("name", .text scene.name),
     ("kind", scene.kind.toJson),
     ("file_path", .text scene.filePath),
     ("line", .word scene.line),
     ("role", .text scene.role.name)] ++
    Json.present "confidence" (scene.confidence.map Confidence.toJson)

def StoryArc.toJson (arc : StoryArc) : Json :=
  .record <|
    [("id", .text arc.id),
     ("title", .text arc.title),
     ("summary", .text arc.summary),
     ("entry_id", .text arc.entryId),
     ("route", arc.route.toJson),
     ("thread", .text arc.thread.name),
     ("thread_index", .nat arc.threadIndex)] ++
    Json.present "parent_id" (arc.parentId.map Json.text) ++
    [("related_ids", .texts arc.relatedIds),
     ("scenes", .array (arc.scenes.map Scene.toJson)),
     ("scene_count", .nat arc.sceneCount)]

def Highlight.toJson (highlight : Highlight) : Json :=
  .record
    [("label", .text highlight.label),
     ("start_line", .nat highlight.startLine),
     ("end_line", .nat highlight.endLine)]

def SymbolSnippet.toJson (snippet : SymbolSnippet) : Json :=
  .record
    [("id", .text snippet.node.id),
     ("name", .text snippet.node.name),
     ("kind", snippet.node.kind.toJson),
     ("summary", .text snippet.node.summary),
     ("signature", .optText snippet.node.signature),
     ("docstring", .optText snippet.node.docstring),
     ("location", snippet.location.toJson),
     ("start_line", .nat snippet.startLine),
     ("end_line", .nat snippet.endLine),
     ("total_lines", .nat snippet.totalLines),
     ("truncated", .bool snippet.truncated),
     ("highlights", .array (snippet.highlights.map Highlight.toJson)),
     ("section", .text snippet.part.name),
     ("snippet", .text snippet.text)]

end SourceAtlas
