/- Which namespace a path gets among others: the bare module name for the one whose claim comes
first, and the full dotted path for all others. Order and repetition of the other paths, and paths
of later families, have no say in it. Names are unique unless the full name of one path is also the
name of another. -/
import SourceAtlas.Namespace
import SourceAtlas.Proofs.TextMap

namespace SourceAtlas.Namespace

instance : Std.TransCmp Claim.order := by
  unfold Claim.order
  infer_instance

theorem Claim.order_swap (a b : Claim) : b.order a = (a.order b).swap := Std.OrientedCmp.eq_swap

theorem Claim.path_eq_of_order {a b : Claim} (same : a.order b = .eq) : a.path = b.path := by
  simp only [Claim.order, compareLex, compareOn, Ordering.then_eq_eq, Std.compare_eq_iff_eq] at same
  exact same.2.2

/-- A path that is listed once and whose claim precedes all others to its module name. -/
def Owns (paths : List String) (path : String) : Prop :=
  paths.count path = 1 ∧ ∀ other ∈ paths, other ≠ path →
    (Claim.ofPath other).module = (Claim.ofPath path).module →
      (Claim.ofPath path).order (Claim.ofPath other) = .lt

instance (paths : List String) (path : String) : Decidable (Owns paths path) :=
  inferInstanceAs (Decidable (_ ∧ _))

/-- The name of one path among others. -/
def nameAmong (paths : List String) (path : String) : String :=
  if Owns paths path then (Claim.ofPath path).module else fullName path

/-- The claims to a module name, first come first. -/
def ranked (claims : List Claim) : List Claim := claims.mergeSort fun a b => (a.order b).isLE

theorem ranked_perm (claims : List Claim) : (ranked claims).Perm claims :=
  List.mergeSort_perm claims _

theorem ranked_pairwise (claims : List Claim) :
    (ranked claims).Pairwise fun a b => (a.order b).isLE = true :=
  pairwise_mergeSort_isLE Claim.order claims

section Assignment

variable {module path : String} {claims : List Claim}

theorem mem_assign {entry : String × String} (member : entry ∈ assign module claims) :
    ∃ claim ∈ claims, claim.path = entry.1 := by
  unfold assign at member
  have same := ranked_perm claims
  unfold ranked at same
  split at member
  · cases member
  · next owner others sorted =>
      rw [sorted] at same
      rcases List.mem_cons.mp member with rfl | later
      · exact ⟨owner, same.mem_iff.mp (by simp), rfl⟩
      · obtain ⟨claim, inside, rfl⟩ := List.mem_map.mp later
        exact ⟨claim, same.mem_iff.mp (by simp [inside]), rfl⟩

/-- The last entry for a path has the bare name for the first claimant alone. -/
theorem lookup_assign {owner : Claim} {others : List Claim}
    (sorted : ranked claims = owner :: others) :
    (assign module claims).reverse.lookup path =
      if path ∈ others.map Claim.path then some (fullName path)
      else if owner.path = path then some module else none := by
  have entries : assign module claims =
      (owner.path, module) :: others.map fun claim => (claim.path, fullName claim.path) := by
    unfold ranked at sorted
    unfold assign
    rw [sorted]
  have full : ∀ entry ∈ (others.map fun claim => (claim.path, fullName claim.path)).reverse,
      entry.2 = fullName entry.1 := by
    intro entry member
    obtain ⟨claim, _, rfl⟩ := List.mem_map.mp (List.mem_reverse.mp member)
    rfl
  have keys : (others.map fun claim => (claim.path, fullName claim.path)).reverse.map Prod.fst =
      (others.map Claim.path).reverse := by
    rw [List.map_reverse, List.map_map]
    rfl
  rw [entries, List.reverse_cons, List.lookup_append, lookup_of_values full, keys,
    lookup_cons_eq_ite]
  by_cases later : path ∈ others.map Claim.path
  · simp [later]
  · simp [later, eq_comm]

end Assignment

/-- The claims of all paths to one module name. -/
def claimants (paths : List String) (module : String) : List Claim :=
  (paths.map Claim.ofPath).filter fun claim => claim.module = module

theorem mem_claimants {paths : List String} {module : String} {claim : Claim} :
    claim ∈ claimants paths module ↔ ∃ path ∈ paths,
      Claim.ofPath path = claim ∧ claim.module = module := by
  simp only [claimants, List.mem_filter, List.mem_map, decide_eq_true_eq]
  exact ⟨fun ⟨⟨path, member, same⟩, here⟩ => ⟨path, member, same, here⟩,
    fun ⟨path, member, same, here⟩ => ⟨⟨path, member, same⟩, here⟩⟩

theorem count_claimants (paths : List String) (path : String) :
    (claimants paths (Claim.ofPath path).module).count (Claim.ofPath path) = paths.count path := by
  rw [claimants, List.count_filter (by simp), List.count, List.countP_map]
  refine List.countP_congr fun other _ => ?_
  simp only [Function.comp_apply, beq_iff_eq]
  exact ⟨congrArg Claim.path, congrArg Claim.ofPath⟩

/-- The first claimant is the owner if it is no claimant again. -/
theorem owns_iff {paths : List String} {path : String} {owner : Claim} {others : List Claim}
    (listed : path ∈ paths)
    (sorted : ranked (claimants paths (Claim.ofPath path).module) = owner :: others) :
    Owns paths path ↔ owner = Claim.ofPath path ∧ Claim.ofPath path ∉ others := by
  have same := ranked_perm (claimants paths (Claim.ofPath path).module)
  have order := ranked_pairwise (claimants paths (Claim.ofPath path).module)
  rw [sorted] at same order
  have counted : (owner :: others).count (Claim.ofPath path) = paths.count path := by
    rw [same.count_eq, count_claimants]
  have first := (List.pairwise_cons.mp order).1
  constructor
  · rintro ⟨once, precedes⟩
    have head : owner = Claim.ofPath path := Decidable.byContradiction fun other => by
      obtain ⟨rival, there, rfl, here⟩ := mem_claimants.mp (same.mem_iff.mp (List.mem_cons_self ..))
      have mine : Claim.ofPath path ∈ others := by
        have inside := same.mem_iff.mpr (mem_claimants.mpr ⟨path, listed, rfl, rfl⟩)
        exact (List.mem_cons.mp inside).resolve_left (Ne.symm other)
      have before := first _ mine
      have after := precedes rival there (fun equal => other (by rw [equal])) here
      rw [Claim.order_swap (Claim.ofPath path), after] at before
      cases before
    refine ⟨head, fun again => ?_⟩
    rw [← head, List.count_cons_self] at counted
    have twice := List.count_pos_iff.mpr again
    rw [head] at counted
    omega
  · rintro ⟨rfl, single⟩
    refine ⟨?_, fun rival there different here => ?_⟩
    · rw [← counted, List.count_cons_self, List.count_eq_zero.mpr single]
    · have inside := same.mem_iff.mpr (mem_claimants.mpr ⟨rival, there, rfl, here⟩)
      have later := (List.mem_cons.mp inside).resolve_left fun equal =>
        different (congrArg Claim.path equal)
      have below := first _ later
      cases compared : (Claim.ofPath path).order (Claim.ofPath rival) with
      | lt => rfl
      | eq => exact absurd (Claim.path_eq_of_order compared).symm different
      | gt =>
          rw [compared] at below
          cases below

/-- Among the entries of its module, the last for a path gives its name. -/
theorem lookup_assign_claimants {paths : List String} {path : String} (listed : path ∈ paths) :
    (assign (Claim.ofPath path).module (claimants paths (Claim.ofPath path).module)).reverse.lookup
      path =
      some (nameAmong paths path) := by
  have here : (Claim.ofPath path).path = path := rfl
  have perm := ranked_perm (claimants paths (Claim.ofPath path).module)
  have present := perm.mem_iff.mpr (mem_claimants.mpr ⟨path, listed, rfl, rfl⟩)
  cases sorted : ranked (claimants paths (Claim.ofPath path).module) with
  | nil =>
      rw [sorted] at present
      cases present
  | cons owner others =>
      rw [sorted] at perm present
      have again : path ∈ others.map Claim.path ↔ Claim.ofPath path ∈ others := by
        refine ⟨fun named => ?_, fun member => List.mem_map.mpr ⟨_, member, rfl⟩⟩
        obtain ⟨claim, member, same⟩ := List.mem_map.mp named
        obtain ⟨origin, _, rfl, _⟩ :=
          mem_claimants.mp (perm.mem_iff.mp (List.mem_cons_of_mem owner member))
        exact same ▸ member
      rw [lookup_assign sorted, nameAmong]
      simp only [owns_iff listed sorted, again]
      by_cases later : Claim.ofPath path ∈ others
      · simp [later]
      · have head : owner = Claim.ofPath path :=
          ((List.mem_cons.mp present).resolve_right later).symm
        simp [later, head, here]

/-- Only the group of its own module names a path. -/
theorem home_of_named {paths : List String} {path : String} {group : String × List Claim}
    (member : group ∈ (TextMap.groupBy Claim.module (paths.map Claim.ofPath)).toList)
    (named : path ∈ (assign group.1 group.2).map Prod.fst) :
    path ∈ paths ∧ group.1 = (Claim.ofPath path).module := by
  have found := Std.ExtTreeMap.mem_toList_iff_getElem?_eq_some.mp member
  rw [TextMap.get?_groupBy] at found
  split at found
  · obtain ⟨entry, inside, rfl⟩ := List.mem_map.mp named
    obtain ⟨claim, claims, here⟩ := mem_assign inside
    rw [← Option.some.inj found] at claims
    obtain ⟨origin, listed, rfl, module⟩ := mem_claimants.mp claims
    rw [← here]
    exact ⟨listed, module.symm⟩
  · cases found

theorem get?_ofPaths (paths : List String) (path : String) :
    (ofPaths paths)[path]? = if path ∈ paths then some (nameAmong paths path) else none := by
  let groups := TextMap.groupBy Claim.module (paths.map Claim.ofPath)
  have written : ofPaths paths = (groups.toList.flatMap fun group => assign group.1 group.2).foldl
      (fun map entry => map.insert entry.1 entry.2) ∅ := rfl
  have home : ∀ group ∈ groups.toList, path ∈ (assign group.1 group.2).map Prod.fst →
      path ∈ paths ∧ group.1 = (Claim.ofPath path).module :=
        fun _ member named => home_of_named member named
  rw [written, TextMap.get?_write, Std.ExtTreeMap.getElem?_empty, Option.or_none]
  by_cases listed : path ∈ paths
  · have group : ((Claim.ofPath path).module, claimants paths (Claim.ofPath path).module) ∈
        groups.toList := by
      rw [Std.ExtTreeMap.mem_toList_iff_getElem?_eq_some, TextMap.get?_groupBy, if_pos]
      · rfl
      · exact List.mem_map.mpr ⟨_, List.mem_map.mpr ⟨path, listed, rfl⟩, rfl⟩
    have distinct := TextMap.nodup_keys_toList groups
    obtain ⟨before, after, split⟩ := List.append_of_mem group
    rw [split] at home distinct ⊢
    have silent : path ∉ (after.flatMap fun group => assign group.1 group.2).map Prod.fst := by
      intro named
      rw [List.map_flatMap] at named
      obtain ⟨other, there, here⟩ := List.mem_flatMap.mp named
      have equal := (home other (by simp [there]) here).2
      simp only [List.map_append, List.map_cons, List.nodup_append, List.nodup_cons] at distinct
      exact distinct.2.1.1 (equal ▸ List.mem_map_of_mem there)
    rw [List.flatMap_append, List.flatMap_cons, List.reverse_append, List.reverse_append,
      List.lookup_append, List.lookup_append, lookup_reverse_of_not_mem silent, Option.none_or,
      lookup_assign_claimants listed, if_pos listed, Option.some_or]
  · rw [if_neg listed]
    refine lookup_reverse_of_not_mem fun named => listed ?_
    rw [List.map_flatMap] at named
    obtain ⟨group, there, inside⟩ := List.mem_flatMap.mp named
    exact (home group there inside).1

/-- Only a path's own repetitions and the rivals that do not come after it have a say in its
name. -/
theorem nameAmong_congr {paths others : List String} {path : String}
    (count : others.count path = paths.count path)
    (rivals : ∀ rival, rival ≠ path → (Claim.ofPath path).order (Claim.ofPath rival) ≠ .lt →
      (rival ∈ others ↔ rival ∈ paths)) :
    nameAmong others path = nameAmong paths path := by
  have owns : Owns others path ↔ Owns paths path := by
    unfold Owns
    rw [count]
    refine and_congr_right fun _ => ⟨?_, ?_⟩
    · intro held rival member different same
      apply Decidable.byContradiction
      intro early
      exact early (held rival ((rivals rival different early).mpr member) different same)
    · intro held rival member different same
      apply Decidable.byContradiction
      intro early
      exact early (held rival ((rivals rival different early).mp member) different same)
  simp only [nameAmong, owns]

theorem nameAmong_perm {paths others : List String} (same : paths.Perm others) (path : String) :
    nameAmong paths path = nameAmong others path :=
  nameAmong_congr (same.count_eq path) fun _ _ _ => same.mem_iff

/-- Whether a path belongs to the family whose claims come first. -/
def isFirstFamily (path : String) : Bool := (Claim.ofPath path).family == some .python

theorem isFirstFamily_iff {path : String} :
    isFirstFamily path = true ↔ (Language.ofPath? (Path.normalize path)).map Language.family =
      some .python := by
  simp only [isFirstFamily, Claim.ofPath, beq_iff_eq]

theorem Claim.rank_eq_zero_iff (claim : Claim) : claim.rank = 0 ↔ claim.family = some .python := by
  obtain ⟨family, isModuleFile, path⟩ := claim
  rcases family with _ | family
  · simp [Claim.rank, Family.all]
  · cases family <;> simp [Claim.rank, Family.rank]

/-- Among paths of the first family, later families are no rivals. -/
theorem nameAmong_filter {paths : List String} {path : String} (first : isFirstFamily path = true) :
    nameAmong (paths.filter isFirstFamily) path = nameAmong paths path := by
  have lead {other : String} (later : ¬isFirstFamily other = true) :
      (Claim.ofPath path).order (Claim.ofPath other) = .lt := by
    have mine := (Claim.rank_eq_zero_iff _).mpr (beq_iff_eq.mp first)
    have theirs : (Claim.ofPath other).rank ≠ 0 := fun zero =>
      later (beq_iff_eq.mpr ((Claim.rank_eq_zero_iff _).mp zero))
    have below : compare (Claim.ofPath path).rank (Claim.ofPath other).rank = .lt := by
      rw [mine]
      exact Nat.compare_eq_lt.mpr (Nat.pos_of_ne_zero theirs)
    unfold Claim.order compareLex
    simp only [compareOn, below, Ordering.lt_then]
  apply nameAmong_congr (List.count_filter first)
  intro rival _ early
  rw [List.mem_filter]
  refine and_iff_left_of_imp fun _ => ?_
  exact Decidable.byContradiction fun later => early (lead later)

/-- The map of namespaces does not depend on the order of the paths, and for the paths of Python
files, repeated or not, it does not depend on any others. -/
theorem ofPaths_independent (paths : List String) :
    (∀ others, others.Perm paths → ofPaths others = ofPaths paths) ∧
    ∀ path ∈ paths, (Language.ofPath? (Path.normalize path)).map Language.family = some .python →
      ∃ name, (ofPaths paths)[path]? = some name ∧
        (ofPaths (paths.filter fun other =>
          (Language.ofPath? (Path.normalize other)).map Language.family = some .python))[path]? =
            some name := by
  refine ⟨?_, ?_⟩
  · intro others same
    ext path name
    simp only [get?_ofPaths, same.mem_iff, nameAmong_perm same]
  · intro path listed python
    have kept : (paths.filter fun other =>
        (Language.ofPath? (Path.normalize other)).map Language.family = some .python) =
          paths.filter isFirstFamily := by
      apply List.filter_congr
      intro other _
      rw [Bool.eq_iff_iff, decide_eq_true_iff, isFirstFamily_iff]
    have first := isFirstFamily_iff.mpr python
    refine ⟨nameAmong paths path, ?_, ?_⟩
    · rw [get?_ofPaths, if_pos listed]
    · rw [kept, get?_ofPaths, if_pos (List.mem_filter.mpr ⟨listed, first⟩), nameAmong_filter first]

/-- A package, a module that is listed twice and a script claim one name. -/
theorem ofPaths_independent_package :
    ofPaths ["app.py", "app/__init__.py", "app.py", "app.js"] =
      ofPaths ["app.js", "app.py", "app/__init__.py", "app.py"] ∧
    ∃ name, (ofPaths ["app.js", "app.py", "app/__init__.py", "app.py"])["app.py"]? = some name ∧
      (ofPaths ["app.py", "app/__init__.py", "app.py"])["app.py"]? = some name ∧
        name = "app.py" := by
  obtain ⟨reordered, restricted⟩ :=
    ofPaths_independent ["app.js", "app.py", "app/__init__.py", "app.py"]
  refine ⟨reordered _ (by decide), ?_⟩
  obtain ⟨name, among, alone⟩ := restricted "app.py" (by decide) (by decide +kernel)
  have python : (["app.js", "app.py", "app/__init__.py", "app.py"].filter fun other =>
      (Language.ofPath? (Path.normalize other)).map Language.family = some .python) =
        ["app.py", "app/__init__.py", "app.py"] := by decide +kernel
  rw [python] at alone
  refine ⟨name, among, alone, ?_⟩
  rw [get?_ofPaths] at alone
  have computed : (if "app.py" ∈ ["app.py", "app/__init__.py", "app.py"] then
        some (nameAmong ["app.py", "app/__init__.py", "app.py"] "app.py")
      else none) =
        some "app.py" := by decide +kernel
  exact Option.some.inj (alone.symm.trans computed)

/-- Two owners of one module name are one path: of two claims only one can come first. -/
theorem Owns.eq_of_module {paths : List String} {path other : String} (listed : path ∈ paths)
    (listedOther : other ∈ paths) (owns : Owns paths path) (ownsOther : Owns paths other)
    (same : (Claim.ofPath path).module = (Claim.ofPath other).module) : path = other := by
  apply Decidable.byContradiction
  intro different
  have before := owns.2 other listedOther (Ne.symm different) same.symm
  have after := ownsOther.2 path listed different same
  rw [Claim.order_swap, before] at after
  cases after

/-- A path that is not the first to claim its module name, and whose full name is the one that
another path goes by: as its module name, which that path owns, or as its own full name. -/
def Clashes (paths : List String) (path other : String) : Prop :=
  ¬Owns paths path ∧
    (Owns paths other ∧ (Claim.ofPath other).module = fullName path ∨
      ¬Owns paths other ∧ fullName other = fullName path)

instance (paths : List String) (path other : String) : Decidable (Clashes paths path other) :=
  inferInstanceAs (Decidable (_ ∧ _))

theorem nameAmong_eq_iff {paths : List String} {path other : String} (listed : path ∈ paths)
    (listedOther : other ∈ paths) (different : path ≠ other) :
    nameAmong paths path = nameAmong paths other ↔
      Clashes paths path other ∨ Clashes paths other path := by
  unfold nameAmong Clashes
  by_cases owns : Owns paths path <;> by_cases ownsOther : Owns paths other
  · simp only [owns, ownsOther, if_true, not_true, false_and, or_self, iff_false]
    intro same
    exact different (owns.eq_of_module listed listedOther ownsOther same)
  · simp [owns, ownsOther]
  · simp [owns, ownsOther, eq_comm]
  · simp [owns, ownsOther, eq_comm]

theorem ofPaths_unique_iff (paths : List String) :
    (∀ path ∈ paths, ∀ other ∈ paths,
      path ≠ other → (ofPaths paths)[path]? ≠ (ofPaths paths)[other]?) ↔
      ∀ path ∈ paths, ∀ other ∈ paths, path ≠ other → ¬Clashes paths path other := by
  have named : ∀ path ∈ paths, (ofPaths paths)[path]? = some (nameAmong paths path) := by
    intro path listed
    rw [get?_ofPaths, if_pos listed]
  constructor
  · intro unique path listed other listedOther different clash
    apply unique path listed other listedOther different
    rw [named path listed, named other listedOther]
    exact congrArg some ((nameAmong_eq_iff listed listedOther different).mpr (.inl clash))
  · intro apart path listed other listedOther different same
    rw [named path listed, named other listedOther] at same
    rcases (nameAmong_eq_iff listed listedOther different).mp (Option.some.inj same) with here |
      there
    · exact apart path listed other listedOther different here
    · exact apart other listedOther path listed (Ne.symm different) there

/-- A script that yields its module name to a module takes the name of a module in a directory. -/
theorem ofPaths_not_unique :
    ["app.py", "app.js", "app/js.py"].Nodup ∧
      (∀ path ∈ ["app.py", "app.js", "app/js.py"],
        Path.normalize path = path ∧ (Language.ofPath? path).isSome = true) ∧
      (ofPaths ["app.py", "app.js", "app/js.py"])["app.js"]? = some "app.js" ∧
      (ofPaths ["app.py", "app.js", "app/js.py"])["app/js.py"]? = some "app.js" := by
  refine ⟨by decide, by decide +kernel, ?_, ?_⟩
  · rw [get?_ofPaths]
    decide +kernel
  · rw [get?_ofPaths]
    decide +kernel

end SourceAtlas.Namespace
