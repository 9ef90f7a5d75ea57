/- The table of contents and the scopes that it offers. An entry counts the files whose first
directory is its group, and the scope of a group shows the files below that directory. The two
readings of a path agree but for the reserved name: the files without a directory are counted
together with those below a directory called root, and only the former are shown. -/
import Mathlib.Data.List.Nodup
import Mathlib.Data.List.Perm.Basic
import SourceAtlas.Proofs.Absorption
import SourceAtlas.Proofs.Locations
import SourceAtlas.View.Scope

namespace SourceAtlas

/-- A path that names a place below the repository, and no blanks around its parts. -/
structure Path.Tidy (path : String) : Prop where
  named : path ≠ ""
  relative : path.toList.head? ≠ some '/'
  trimmed : ∀ piece ∈ Path.pieces path, Text.trim piece = piece

instance (path : String) : Decidable (Path.Tidy path) :=
  decidable_of_iff (path ≠ "" ∧ path.toList.head? ≠ some '/' ∧ ∀ piece ∈ Path.pieces path,
    Text.trim piece = piece)
    ⟨fun all => ⟨all.1, all.2.1, all.2.2⟩, fun tidy => ⟨tidy.named, tidy.relative, tidy.trimmed⟩⟩

namespace Contents

variable {path group : String}

theorem ne_slash {text : List Char} (plain : '/' ∉ text) : ∀ c ∈ text, decide (c ≠ '/') = true := by
  intro c member
  apply decide_eq_true
  rintro rfl
  exact plain member

theorem groupOf_of_top (top : '/' ∉ path.toList) : groupOf path = rootGroup := by
  have whole : path.toList = path.toList ++ [] := (List.append_nil _).symm
  unfold groupOf Text.cutFirst?
  rw [List.span_eq_takeWhile_dropWhile, whole, List.takeWhile_append_of_pos (ne_slash top),
    List.dropWhile_append_of_pos (ne_slash top), List.dropWhile_nil]

theorem groupOf_of_cut {rest : List Char} (plain : '/' ∉ group.toList)
    (cut : path.toList = group.toList ++ '/' :: rest) : groupOf path = group := by
  unfold groupOf Text.cutFirst?
  rw [List.span_eq_takeWhile_dropWhile, cut, List.takeWhile_append_of_pos (ne_slash plain),
    List.dropWhile_append_of_pos (ne_slash plain)]
  simp

/-- A path lies in no directory, or its group is what stands before its first slash. -/
theorem groupOf_cases (path : String) :
    ('/' ∉ path.toList ∧ groupOf path = rootGroup) ∨
      ∃ rest, '/' ∉ (groupOf path).toList ∧ path.toList = (groupOf path).toList ++ '/' :: rest := by
  by_cases inside : '/' ∈ path.toList
  · obtain ⟨first, rest, cut, plain⟩ := List.eq_append_cons_of_mem inside
    have group : groupOf path = String.ofList first :=
      groupOf_of_cut (by simpa using plain) (by simpa using cut)
    rw [group, String.toList_ofList]
    exact .inr ⟨rest, plain, cut⟩
  · exact .inl ⟨inside, groupOf_of_top inside⟩

theorem startsWith_directory_iff (path group : String) :
    Text.startsWith path (group ++ "/") = true ↔
    ∃ rest, path.toList = group.toList ++ '/' :: rest := by
  rw [Text.startsWith, List.isPrefixOf_iff_prefix, String.toList_append]
  constructor
  · rintro ⟨rest, cut⟩
    exact ⟨rest, by rw [← cut]; simp⟩
  · rintro ⟨rest, cut⟩
    exact ⟨rest, by rw [cut]; simp⟩

theorem slash_not_mem_groupOf (path : String) : '/' ∉ (groupOf path).toList := by
  rcases groupOf_cases path with ⟨-, root⟩ | ⟨_, plain, -⟩
  · rw [root]
    decide
  · exact plain

/-- Apart from the root group, being counted and being shown are the same. -/
theorem inGroup_iff_groupOf (other : group ≠ rootGroup) (plain : '/' ∉ group.toList) :
    GraphView.inGroup group path = true ↔ groupOf path = group := by
  rw [GraphView.inGroup, if_neg other, startsWith_directory_iff]
  constructor
  · rintro ⟨rest, cut⟩
    exact groupOf_of_cut plain cut
  · rintro rfl
    rcases groupOf_cases path with ⟨-, root⟩ | ⟨rest, -, cut⟩
    · exact absurd root other
    · exact ⟨rest, cut⟩

theorem inGroup_root_iff : GraphView.inGroup rootGroup path = true ↔ '/' ∉ path.toList := by
  simp [GraphView.inGroup]

theorem groupOf_eq_root_iff :
    groupOf path = rootGroup ↔ '/' ∉ path.toList ∨ Text.startsWith path "root/" = true := by
  have directory : Text.startsWith path "root/" = true ↔ ∃ rest,
      path.toList = rootGroup.toList ++ '/' :: rest :=
    startsWith_directory_iff path rootGroup
  rw [directory]
  constructor
  · intro root
    rcases groupOf_cases path with ⟨top, -⟩ | ⟨rest, -, cut⟩
    · exact .inl top
    · exact .inr ⟨rest, root ▸ cut⟩
  · rintro (top | ⟨rest, cut⟩)
    · exact groupOf_of_top top
    · exact groupOf_of_cut (by decide) cut

theorem groupOf_ne_empty (tidy : Path.Tidy path) : groupOf path ≠ "" := by
  intro empty
  rcases groupOf_cases path with ⟨-, root⟩ | ⟨rest, -, cut⟩
  · exact absurd (root.symm.trans empty) (by decide)
  · rw [empty] at cut
    exact tidy.relative (by rw [cut]; rfl)

theorem trim_groupOf (tidy : Path.Tidy path) : Text.trim (groupOf path) = groupOf path := by
  rcases groupOf_cases path with ⟨-, root⟩ | ⟨rest, plain, cut⟩
  · rw [root]
    decide
  · refine tidy.trimmed _ ?_
    rw [Path.pieces, Text.split, cut, List.splitOn_append_cons_self_of_not_mem plain, List.map_cons,
      String.ofList_toList]
    exact List.mem_cons_self

/-- The entries are those of the groups that occur, each with the number of its files. -/
theorem mem_ofPaths_iff {paths : List String} {item : TocEntry} :
    item ∈ ofPaths paths ↔
      ∃ group ∈ paths.map groupOf, item = entry group ((paths.map groupOf).count group) := by
  have counted (group : String) (count : Nat) :
      (group, count) ∈ (TextMap.tally (paths.map groupOf)).toList ↔
        group ∈ paths.map groupOf ∧ (paths.map groupOf).count group = count := by
    rw [Std.ExtTreeMap.mem_toList_iff_getElem?_eq_some, TextMap.get?_tally]
    by_cases occurs : group ∈ paths.map groupOf
    · rw [if_pos occurs, Option.some_inj]
      exact (and_iff_right occurs).symm
    · rw [if_neg occurs]
      exact iff_of_false (Option.some_ne_none _).symm fun both => occurs both.1
  simp only [ofPaths, List.partition_eq_filter_filter, List.mem_map, List.mem_append,
    List.mem_filter]
  constructor
  · rintro ⟨⟨group, count⟩, part, rfl⟩
    obtain ⟨occurs, rfl⟩ := (counted group count).mp (part.elim And.left And.left)
    exact ⟨group, List.mem_map.mp occurs, rfl⟩
  · rintro ⟨group, occurs, rfl⟩
    have listed := (counted group _).mpr ⟨List.mem_map.mpr occurs, rfl⟩
    refine ⟨(group, _), ?_, rfl⟩
    by_cases root : group = rootGroup
    · exact .inl ⟨listed, beq_iff_eq.mpr root⟩
    · exact .inr ⟨listed, by simpa using root⟩

end Contents

/-- A trimmed text keeps its end when something is put in front of it. -/
theorem Text.trimEndChars_append {lead text : List Char} (filled : text ≠ [])
    (trimmed : trimChars text = text) :
    trimEndChars (lead ++ text) = lead ++ text := by
  have cut : text.reverse = (trimStartChars text).reverse.dropWhile isBlank :=
    List.reverse_eq_iff.mpr trimmed.symm
  cases shape : text.reverse with
  | nil => exact absurd (List.reverse_eq_nil_iff.mp shape) filled
  | cons last before =>
      have solid := List.head?_dropWhile_not isBlank (trimStartChars text).reverse
      rw [← cut, shape] at solid
      have visible : ¬isBlank last = true := by
        rw [Bool.not_eq_true]
        exact solid
      rw [trimEndChars, List.reverse_append, shape, List.cons_append,
        List.dropWhile_cons_of_neg visible, ← List.cons_append, ← shape, ← List.reverse_append,
        List.reverse_reverse]

theorem Scope.parse_group {group : String} (named : group ≠ "")
    (trimmed : Text.trim group = group) :
    Scope.parse ("group:" ++ group) = .ok (.group group) := by
  have filled : group.toList ≠ [] := fun empty => named (String.toList_eq_nil_iff.mp empty)
  have chars : Text.trimChars group.toList = group.toList := by
    rw [← String.toList_ofList (l := Text.trimChars group.toList)]
    exact congrArg String.toList trimmed
  have whole : Text.trim ("group:" ++ group) = "group:" ++ group := by
    have start : Text.trimStartChars ("group:".toList ++ group.toList) =
        "group:".toList ++ group.toList := rfl
    rw [Text.trim, String.toList_append, Text.trimChars, start,
      Text.trimEndChars_append filled chars, ← String.toList_append, String.ofList_toList]
  have rest : Text.dropStart? "group:" ("group:" ++ group) = some group := by
    rw [Text.dropStart?, Option.map_eq_some_iff]
    refine ⟨group.toList, ?_, String.ofList_toList⟩
    rw [List.isPrefixOf?_eq_some_iff_append_eq, String.toList_append]
  have long : 4 < ("group:" ++ group).length := by
    have lead : "group:".length = 6 := rfl
    rw [String.length_append]
    omega
  have other : ¬("group:" ++ group = "" ∨ "group:" ++ group = "full") := by
    rintro (same | same)
    · rw [same] at long
      exact absurd long (by decide)
    · rw [same] at long
      exact absurd long (by decide)
  simp only [Scope.parse, whole, rest, if_neg other, if_neg named]

namespace GraphView

/-- The nodes of a view that stand for files. -/
def files (view : GraphView) : List SymbolNode := view.nodes.filter fun node => node.kind == .file

variable {index : RepoIndex} {group : String}

theorem mem_located_iff {id : String} : id ∈ located index group ↔
    ∃ node ∈ index.nodes.values, (node.filePath?).any (inGroup group) = true ∧ node.id = id := by
  have listed : located index group = ((index.nodes.values.filter fun node =>
      (node.filePath?).any (inGroup group)).map SymbolNode.id).foldl
        (fun ids id => ids.insert id) ∅ := by
    rw [List.foldl_map, List.foldl_filter]
    rfl
  rw [listed, TextSet.mem_foldl_insert]
  simp [and_assoc]

theorem isExternal_of_neighbour? {ids : TextSet} {edge : GraphEdge} {id : String}
    (found : neighbour? index ids edge = some id) :
    (index.nodes[id]?).any SymbolNode.isExternal = true := by
  simp only [neighbour?] at found
  split at found
  · next outward =>
      cases found
      exact (Bool.and_eq_true_iff.mp outward).2
  · split at found
    · next inward =>
        cases found
        exact (Bool.and_eq_true_iff.mp inward).2
    · cases found

end GraphView

section Build

variable {files : List SourceFile} {result : GraphResult} {index : RepoIndex} {group : String}
  {file : SourceFile}

theorem filePath?_fileNode (module : String) {path : String} (named : path ≠ "") :
    (fileNode path module).filePath? = some path :=
  SymbolNode.filePath?_eq_some_iff.mpr ⟨rfl, named⟩

/-- The nodes of a build that stand for files are its files. -/
theorem perm_fileNodes (built : buildGraph files = .ok result)
    (distinct : (files.map SourceFile.path).Nodup) :
    (result.nodes.values.filter fun node => node.kind == .file).Perm
      (files.map fun file => fileNode file.path (moduleNames files file)) := by
  have once : result.nodes.values.Nodup :=
    .of_map SymbolNode.id (TextMap.nodup_map_values fun id node found =>
      keyed_of_buildGraph built found)
  have apart : (files.map fun file => fileNode file.path (moduleNames files file)).Nodup := by
    refine .of_map SymbolNode.name ?_
    rw [List.map_map]
    exact distinct
  rw [List.perm_ext_iff_of_nodup (once.filter _) apart]
  intro node
  rw [List.mem_filter, TextMap.mem_values, beq_iff_eq, List.mem_map]
  constructor
  · rintro ⟨⟨id, found⟩, kind⟩
    rcases buildGraph_node_cases built found with ⟨file, member, rfl⟩ | ⟨other, -⟩ | ⟨name, rfl⟩
    · exact ⟨file, member, rfl⟩
    · exact absurd kind other
    · cases kind
  · rintro ⟨file, member, rfl⟩
    exact ⟨⟨_, get?_fileNode built member⟩, rfl⟩

theorem file_mem_located_iff (built : buildGraph files = .ok result)
    (named : ∀ file ∈ files, file.path ≠ "") (same : index.nodes = result.nodes)
    (member : file ∈ files) :
    Identifier.file file.path ∈ GraphView.located index group ↔
      GraphView.inGroup group file.path = true := by
  have stored := get?_fileNode built member
  have path := filePath?_fileNode (moduleNames files file) (named file member)
  rw [GraphView.mem_located_iff, same]
  constructor
  · rintro ⟨node, listed, inside, id⟩
    obtain ⟨key, found⟩ := TextMap.mem_values.mp listed
    have here : key = Identifier.file file.path := (keyed_of_buildGraph built found).symm.trans id
    rw [here, stored] at found
    cases found
    rw [path] at inside
    exact inside
  · intro inside
    refine ⟨_, TextMap.mem_values.mpr ⟨_, stored⟩, ?_, rfl⟩
    rw [path]
    exact inside

/-- A group has nodes only if it has files. -/
theorem located_eq_empty_iff (built : buildGraph files = .ok result)
    (named : ∀ file ∈ files, file.path ≠ "") (same : index.nodes = result.nodes) :
    GraphView.located index group = ∅ ↔ ∀ file ∈ files,
      GraphView.inGroup group file.path = false := by
  rw [Std.ExtTreeSet.eq_empty_iff_forall_not_mem]
  constructor
  · intro none file member
    rw [← Bool.not_eq_true]
    intro inside
    exact none _ ((file_mem_located_iff built named same member).mpr inside)
  · intro outside id located
    obtain ⟨node, listed, inside, -⟩ := GraphView.mem_located_iff.mp located
    obtain ⟨path, filed, inside⟩ := (Option.any_eq_true _ _).mp inside
    obtain ⟨key, found⟩ := TextMap.mem_values.mp listed
    have located := (SymbolNode.filePath?_eq_some_iff.mp filed).1
    rw [same] at found
    rcases buildGraph_node_cases built found with ⟨file, member, rfl⟩ | ⟨-, file, member, lies⟩ |
      ⟨name, rfl⟩
    · cases located
      exact absurd inside (Bool.eq_false_iff.mp (outside file member))
    · cases lies.symm.trans located
      exact absurd inside (Bool.eq_false_iff.mp (outside file member))
    · cases located

/-- The scope of a group shows a file of it; if there is none, it shows every file. -/
def GraphView.shows (files : List SourceFile) (group : String) (file : SourceFile) : Bool :=
  inGroup group file.path || files.all fun other => !inGroup group other.path

theorem GraphView.shows_iff : shows files group file = true ↔
    inGroup group file.path = true ∨ ∀ other ∈ files, inGroup group other.path = false := by
  simp [shows]

/-- An external node next to a group is no file. -/
theorem file_mem_widened_iff (built : buildGraph files = .ok result)
    (named : ∀ file ∈ files, file.path ≠ "") (same : index.nodes = result.nodes)
    (member : file ∈ files) (edges : List GraphEdge) :
    Identifier.file file.path ∈ (edges.filterMap
      (GraphView.neighbour? index (GraphView.located index group))).foldl
        (fun ids id => ids.insert id) (GraphView.located index group) ↔
      GraphView.inGroup group file.path = true := by
  rw [TextSet.mem_foldl_insert, file_mem_located_iff built named same member]
  refine or_iff_left ?_
  intro next
  obtain ⟨edge, _, found⟩ := List.mem_filterMap.mp next
  have external := GraphView.isExternal_of_neighbour? found
  rw [same, get?_fileNode built member] at external
  cases external

theorem files_ofScope (built : buildGraph files = .ok result)
    (distinct : (files.map SourceFile.path).Nodup) (named : ∀ file ∈ files, file.path ≠ "")
    (same : index.nodes = result.nodes) (group : String) :
    (GraphView.ofScope index (.group group)).files.Perm
      ((files.filter (GraphView.shows files group)).map fun file =>
        fileNode file.path (moduleNames files file)) := by
  have all := perm_fileNodes built distinct
  have outside : GraphView.located index group = ∅ ↔ ∀ file ∈ files,
      GraphView.inGroup group file.path = false :=
    located_eq_empty_iff built named same
  by_cases none : GraphView.located index group = ∅
  · have whole : GraphView.ofScope index (.group group) = GraphView.ofIndex index := by
      simp [GraphView.ofScope, none]
    have shown : files.filter (GraphView.shows files group) = files :=
      List.filter_eq_self.mpr fun file _ => GraphView.shows_iff.mpr (.inr (outside.mp none))
    rw [whole, shown, GraphView.files, GraphView.ofIndex, same]
    exact all
  · let ids := (index.edges.filterMap
      (GraphView.neighbour? index (GraphView.located index group))).foldl
      (fun ids id => ids.insert id) (GraphView.located index group)
    have part : GraphView.ofScope index (.group group) = GraphView.restrict index ids := by
      simp [GraphView.ofScope, none, ids]
    have shown : (files.map fun file => fileNode file.path (moduleNames files file)).filter
        (fun node => ids.contains node.id) =
          (files.filter (GraphView.shows files group)).map fun file =>
            fileNode file.path (moduleNames files file) := by
      rw [List.filter_map]
      congr 1
      refine List.filter_congr fun file member => ?_
      rw [Bool.eq_iff_iff, GraphView.shows_iff, or_iff_left (mt outside.mpr none)]
      exact Std.ExtTreeSet.contains_iff_mem.trans
        (file_mem_widened_iff built named same member index.edges)
    rw [part, GraphView.files, GraphView.restrict, same, List.filter_comm, ← shown]
    exact all.filter _

end Build

/-- The files that the table of contents counts for a group. -/
def Contents.counted (files : List SourceFile) (group : String) : List SourceFile :=
  files.filter fun file => groupOf file.path == group

namespace Contents

variable {files : List SourceFile} {group : String}

theorem count_groupOf (files : List SourceFile) (group : String) :
    ((files.map SourceFile.path).map groupOf).count group = (counted files group).length := by
  rw [counted, List.map_map, List.count_eq_countP, List.countP_map, List.countP_eq_length_filter]
  rfl

theorem shows_eq_groupOf (other : group ≠ rootGroup) {known : SourceFile} (member : known ∈ files)
    (own : groupOf known.path = group) (file : SourceFile) :
    GraphView.shows files group file = (groupOf file.path == group) := by
  have reading (path : String) : GraphView.inGroup group path = true ↔ groupOf path = group :=
    inGroup_iff_groupOf other (own ▸ slash_not_mem_groupOf known.path)
  rw [Bool.eq_iff_iff, GraphView.shows_iff, reading, beq_iff_eq]
  refine or_iff_left fun none => ?_
  exact absurd ((reading known.path).mpr own) (Bool.eq_false_iff.mp (none known member))

theorem slash_mem_of_startsWith_root {path : String} (below : Text.startsWith path "root/" = true) :
    '/' ∈ path.toList := by
  obtain ⟨rest, cut⟩ := (startsWith_directory_iff path rootGroup).mp below
  rw [cut]
  simp

theorem shows_root {file : SourceFile} : GraphView.shows files rootGroup file = true ↔
    '/' ∉ file.path.toList ∨ ∀ other ∈ files, '/' ∈ other.path.toList := by
  have outside (path : String) : GraphView.inGroup rootGroup path = false ↔ '/' ∈ path.toList := by
    rw [← Bool.not_eq_true, inGroup_root_iff, not_not]
  simp only [GraphView.shows_iff, inGroup_root_iff, outside]

/-- The root group shows what it counts if no file lies below a directory of that name, or if all
do. -/
theorem shows_root_eq_iff {known : SourceFile} (listed : known ∈ files)
    (own : groupOf known.path = rootGroup) :
    (∀ file ∈ files, GraphView.shows files rootGroup file = (groupOf file.path == rootGroup)) ↔
      (∀ file ∈ files, Text.startsWith file.path "root/" = false) ∨
        ∀ file ∈ files, Text.startsWith file.path "root/" = true := by
  constructor
  · intro agree
    by_cases top : ∃ file ∈ files, '/' ∉ file.path.toList
    · refine .inl fun file member => ?_
      rw [← Bool.not_eq_true]
      intro below
      have counted : (groupOf file.path == rootGroup) = true :=
        beq_iff_eq.mpr (groupOf_eq_root_iff.mpr (.inr below))
      rw [← agree file member, shows_root] at counted
      rcases counted with outside | all
      · exact outside (slash_mem_of_startsWith_root below)
      · obtain ⟨one, there, outside⟩ := top
        exact outside (all one there)
    · have all : ∀ file ∈ files, '/' ∈ file.path.toList := by
        simpa using top
      refine .inr fun file member => ?_
      have counted : GraphView.shows files rootGroup file = true := shows_root.mpr (.inr all)
      rw [agree file member, beq_iff_eq, groupOf_eq_root_iff] at counted
      exact counted.resolve_left (not_not.mpr (all file member))
  · rintro (none | all) file member
    · have top : '/' ∉ known.path.toList :=
        (groupOf_eq_root_iff.mp own).resolve_right (Bool.eq_false_iff.mp (none known listed))
      rw [Bool.eq_iff_iff, shows_root, beq_iff_eq, groupOf_eq_root_iff]
      refine or_congr_right (iff_of_false ?_ (Bool.eq_false_iff.mp (none file member)))
      intro every
      exact top (every known listed)
    · have shown : GraphView.shows files rootGroup file = true :=
        shows_root.mpr (.inr fun other there => slash_mem_of_startsWith_root (all other there))
      have counted : groupOf file.path = rootGroup :=
        groupOf_eq_root_iff.mpr (.inr (all file member))
      rw [shown, counted, beq_self_eq_true]

end Contents

theorem perm_map_filter_iff {α β : Type} {list : List α} {f : α → β} {p q : α → Bool}
    (distinct : ∀ a ∈ list, ∀ b ∈ list, f a = f b → a = b) :
    ((list.filter p).map f).Perm ((list.filter q).map f) ↔ ∀ a ∈ list, p a = q a := by
  have kept {p q : α → Bool} (same : ((list.filter p).map f).Perm ((list.filter q).map f)) {a : α}
      (member : a ∈ list) (holds : p a = true) : q a = true := by
    have image := same.mem_iff.mp (List.mem_map_of_mem (List.mem_filter.mpr ⟨member, holds⟩))
    obtain ⟨b, listed, equal⟩ := List.mem_map.mp image
    obtain ⟨there, also⟩ := List.mem_filter.mp listed
    rw [← distinct b there a member equal]
    exact also
  constructor
  · intro same a member
    rw [Bool.eq_iff_iff]
    exact ⟨kept same member, kept same.symm member⟩
  · intro agree
    rw [List.filter_congr agree]

/-- The table of contents has an entry for the group of every file. Its scope can be asked for, and
shows the files that the entry counts unless the reserved name clashes: a directory called root
stands beside files or other directories at the top. -/
theorem buildGraph_toc_scopes_iff (files : List SourceFile)
    (distinct : (files.map SourceFile.path).Nodup) (tidy : ∀ file ∈ files, Path.Tidy file.path) :
    ∃ result, buildGraph files = .ok result ∧
      (∀ file ∈ files, ∃ entry ∈ result.toc,
        Scope.parse entry.scope = .ok (.group (Contents.groupOf file.path))) ∧
      ∀ index : RepoIndex, index.nodes = result.nodes → ∀ entry ∈ result.toc, ∃ group,
        Scope.parse entry.scope = .ok (.group group) ∧
        entry.summary = toString (Contents.counted files group).length ++ " files" ∧
        ((GraphView.ofScope index (.group group)).files.Perm
            ((Contents.counted files group).map fun file =>
              fileNode file.path (moduleNames files file)) ↔
          group ≠ Contents.rootGroup ∨ (∀ file ∈ files, Text.startsWith file.path "root/" = false) ∨
            ∀ file ∈ files, Text.startsWith file.path "root/" = true) := by
  obtain ⟨graph, sound, built⟩ := buildGraph_sound files
  have readable (file : SourceFile) (member : file ∈ files) :
      Scope.parse ("group:" ++ Contents.groupOf file.path) =
        .ok (.group (Contents.groupOf file.path)) :=
    Scope.parse_group (Contents.groupOf_ne_empty (tidy file member))
      (Contents.trim_groupOf (tidy file member))
  refine ⟨_, built, ?_, ?_⟩
  · intro file member
    refine ⟨_, Contents.mem_ofPaths_iff.mpr ⟨Contents.groupOf file.path, ?_, rfl⟩,
      readable file member⟩
    exact List.mem_map_of_mem (List.mem_map_of_mem member)
  · intro index same entry listed
    obtain ⟨group, occurs, rfl⟩ := Contents.mem_ofPaths_iff.mp listed
    obtain ⟨path, known, rfl⟩ := List.mem_map.mp occurs
    obtain ⟨file, member, rfl⟩ := List.mem_map.mp known
    refine ⟨Contents.groupOf file.path, readable file member, ?_, ?_⟩
    · rw [Contents.entry, Contents.count_groupOf]
    have shown := files_ofScope built distinct (fun file member => (tidy file member).named) same
      (Contents.groupOf file.path)
    have injective : ∀ a ∈ files, ∀ b ∈ files,
        fileNode a.path (moduleNames files a) = fileNode b.path (moduleNames files b) → a = b := by
      intro a here b there equal
      exact List.inj_on_of_nodup_map distinct here there (congrArg SymbolNode.name equal)
    rw [shown.congr_left, Contents.counted, perm_map_filter_iff injective]
    by_cases root : Contents.groupOf file.path = Contents.rootGroup
    · rw [root, Contents.shows_root_eq_iff member root]
      exact (or_iff_right (not_not.mpr rfl)).symm
    · exact iff_of_true (fun other _ => Contents.shows_eq_groupOf root member rfl other) (.inl root)

/-- A file that declares nothing. -/
def blankFile (path : String) : SourceFile := ⟨path, .python, "", none⟩

def packagedFiles : List SourceFile :=
  [blankFile "a.py", blankFile "lib/b.py", blankFile "lib/c.py"]

theorem buildGraph_toc_scopes_iff_packaged :
    (packagedFiles.map SourceFile.path).Nodup ∧ (∀ file ∈ packagedFiles, Path.Tidy file.path) ∧
      ∃ result, buildGraph packagedFiles = .ok result ∧
        ∀ index : RepoIndex, index.nodes = result.nodes → ∀ entry ∈ result.toc, ∃ group,
          Scope.parse entry.scope = .ok (.group group) ∧
          entry.summary = toString (GraphView.ofScope index (.group group)).files.length ++
            " files" := by
  have distinct : (packagedFiles.map SourceFile.path).Nodup := by decide
  have tidy : ∀ file ∈ packagedFiles, Path.Tidy file.path := by decide
  obtain ⟨result, built, -, agree⟩ := buildGraph_toc_scopes_iff packagedFiles distinct tidy
  refine ⟨distinct, tidy, result, built, ?_⟩
  intro index same entry listed
  obtain ⟨group, parsed, summary, shows⟩ := agree index same entry listed
  have shown := shows.mpr (.inr (.inl (by decide)))
  refine ⟨group, parsed, ?_⟩
  rw [shown.length_eq, List.length_map]
  exact summary

def clashingFiles : List SourceFile := [blankFile "b.py", blankFile "root/a.py"]

/-- The one entry counts two files, and its scope shows one of them. -/
theorem toc_counts_root_directory :
    (clashingFiles.map SourceFile.path).Nodup ∧ (∀ file ∈ clashingFiles, Path.Tidy file.path) ∧
      ∃ result, buildGraph clashingFiles = .ok result ∧ result.toc = [Contents.entry "root" 2] ∧
        Scope.parse (Contents.entry "root" 2).scope = .ok (.group "root") ∧
        ∀ index : RepoIndex, index.nodes = result.nodes →
          (GraphView.ofScope index (.group "root")).files = [fileNode "b.py" "b"] := by
  have distinct : (clashingFiles.map SourceFile.path).Nodup := by decide
  have tidy : ∀ file ∈ clashingFiles, Path.Tidy file.path := by decide
  have toc : Contents.ofPaths (clashingFiles.map SourceFile.path) = [Contents.entry "root" 2] := by
    decide +kernel
  obtain ⟨graph, sound, built⟩ := buildGraph_sound clashingFiles
  refine ⟨distinct, tidy, _, built, toc, Scope.parse_group (by decide) (by decide), ?_⟩
  intro index same
  have shown := files_ofScope built distinct (fun file member => (tidy file member).named)
    same "root"
  have top : (clashingFiles.filter (GraphView.shows clashingFiles "root")).map (fun file =>
      fileNode file.path (moduleNames clashingFiles file)) = [fileNode "b.py" "b"] := by
    decide +kernel
  rw [top] at shown
  exact List.perm_singleton.mp shown

end SourceAtlas
