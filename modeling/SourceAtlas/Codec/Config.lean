/- The stored form of a configuration. Fields that are left out take their default. -/
import SourceAtlas.Config
import SourceAtlas.Json.Decode
import SourceAtlas.Json.Parser
import SourceAtlas.Json.Printer

namespace SourceAtlas

open Json (text? natural? integer? list? optional? choice? defaulted?)

def SignatureMode.toJson (mode : SignatureMode) : Json := .text mode.name

def SignatureMode.ofJson? : Json → Option SignatureMode :=
  choice? SignatureMode.name SignatureMode.all

namespace StoryConfig

def toJson (config : StoryConfig) : Json :=
  .record
    [("max_depth", .nat config.maxDepth),
     ("max_scenes", .nat config.maxScenes),
     ("max_branches", .nat config.maxBranches)]

def ofJson? (json : Json) : Option StoryConfig := do
  let fields ← json.recordFields? ["max_depth", "max_scenes", "max_branches"]
  let absent : StoryConfig := {}
  return {
    maxDepth := ← defaulted? fields "max_depth" natural? absent.maxDepth
    maxScenes := ← defaulted? fields "max_scenes" natural? absent.maxScenes
    maxBranches := ← defaulted? fields "max_branches" natural? absent.maxBranches }

end StoryConfig

namespace SnippetConfig

def toJson (config : SnippetConfig) : Json :=
  .record [("max_lines", .nat config.maxLines), ("fallback_context", .nat config.fallbackContext)]

def ofJson? (json : Json) : Option SnippetConfig := do
  let fields ← json.recordFields? ["max_lines", "fallback_context"]
  let absent : SnippetConfig := {}
  return {
    maxLines := ← defaulted? fields "max_lines" natural? absent.maxLines
    fallbackContext := ← defaulted? fields "fallback_context" natural? absent.fallbackContext }

end SnippetConfig

namespace AtlasConfig

def fieldNames : List String :=
  ["version", "include", "exclude", "max_file_size", "max_files", "signature", "story", "snippet"]

def toJson (config : AtlasConfig) : Json :=
  .record
    [("version", .int config.version),
     ("include", .texts config.includePatterns),
     ("exclude", .texts config.excludePatterns),
     ("max_file_size", .nat config.maxFileSize),
     ("max_files", (config.maxFiles.map Json.nat).getD .null),
     ("signature", config.signature.toJson),
     ("story", config.story.toJson),
     ("snippet", config.snippet.toJson)]

def ofJson? (json : Json) : Option AtlasConfig := do
  let fields ← json.recordFields? fieldNames
  let absent : AtlasConfig := {}
  return {
    version := ← defaulted? fields "version" integer? absent.version
    includePatterns := ← defaulted? fields "include" (list? text?) absent.includePatterns
    excludePatterns := ← defaulted? fields "exclude" (list? text?) absent.excludePatterns
    maxFileSize := ← defaulted? fields "max_file_size" natural? absent.maxFileSize
    maxFiles := ← defaulted? fields "max_files" (optional? natural?) absent.maxFiles
    signature := ← defaulted? fields "signature" SignatureMode.ofJson? absent.signature
    story := ← defaulted? fields "story" StoryConfig.ofJson? absent.story
    snippet := ← defaulted? fields "snippet" SnippetConfig.ofJson? absent.snippet }

def toText (config : AtlasConfig) : String := config.toJson.pretty

def ofText? (text : String) : Option AtlasConfig := (Json.parse? text).bind ofJson?

end AtlasConfig

end SourceAtlas
