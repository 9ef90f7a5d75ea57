/- What is written to a path is read back from it, also through links. -/
import SourceAtlas.Proofs.FileTree
import SourceAtlas.Proofs.Segments

namespace SourceAtlas

namespace Disk

open FileTree (Grows Writable)

/-- A walk that starts at a directory or at a place for a file ends at one. -/
theorem walk_lands {tree : FileTree} {creating : Bool} {links : Nat} {place target : Place}
    {steps : List String} (walked : walk tree creating links place steps = .ok target)
    (start : Writable tree place ∨ ∃ entries, tree.get? place = some (.directory entries)) :
    Writable tree target ∨ ∃ entries, tree.get? target = some (.directory entries) := by
  fun_induction walk tree creating links place steps with
  | case1 links place =>
      obtain rfl := Except.ok.inj walked
      exact start
  | case2 links place step rest entries here _ ih => exact ih walked start
  | case3 links place rest entries here _ ih => exact ih walked (.inr (FileTree.get?_dropLast here))
  | case5 links place step rest entries here _ _ _ missing _ =>
      obtain rfl := Except.ok.inj walked
      exact .inl (FileTree.writable_of_missing here missing)
  | case8 place step rest entries here _ _ _ path _ links ih =>
      refine ih walked (.inr ?_)
      split
      · exact FileTree.root_directory here
      · exact ⟨entries, here⟩
  | case9 links place step rest entries here _ _ _ child plain found ih =>
      refine ih walked ?_
      rw [← FileTree.get?_entry here] at found
      cases child with
      | file bytes => exact .inl (FileTree.writable_of_file found)
      | directory entries => exact .inr ⟨entries, found⟩
      | link path => exact absurd rfl (plain path)
  | case4 => cases walked
  | case6 => cases walked
  | case7 => cases walked
  | case10 => cases walked
  | case11 => cases walked

/-- A step that leads to an entry of the directory in which it is taken. -/
structure Named (step : String) : Prop where
  plain : ¬(step = "" ∨ step = ".")
  down : step ≠ ".."
  short : ¬nameLimit < step.utf8ByteSize

section Steps

variable {tree : FileTree} {creating : Bool} {links : Nat} {place : Place} {step : String}
  {rest : List String} {entries : List (String × FileTree)}
  (here : tree.get? place = some (.directory entries))
include here

theorem walk_blank (blank : step = "" ∨ step = ".") :
    walk tree creating links place (step :: rest) = walk tree creating links place rest := by
  rw [walk, here]
  simp only [if_pos blank]

theorem walk_up :
    walk tree creating links place (".." :: rest) =
      walk tree creating links place.dropLast rest := by
  rw [walk, here]
  rfl

variable (named : Named step)
include named

theorem walk_link {path : String} (found : entries.lookup step = some (.link path)) :
    walk tree creating (links + 1) place (step :: rest) =
      walk tree creating links (if isAbsolute path then [] else place)
        (Path.pieces path ++ rest) := by
  rw [walk, here]
  simp only [if_neg named.plain, if_neg named.down, if_neg named.short, found]

theorem walk_solid {child : FileTree} (found : entries.lookup step = some child)
    (solid : ∀ path, child ≠ .link path) :
    walk tree creating links place (step :: rest) =
      walk tree creating links (place ++ [step]) rest := by
  rw [walk, here]
  cases child with
  | link path => exact absurd rfl (solid path)
  | file bytes => simp only [if_neg named.plain, if_neg named.down, if_neg named.short, found]
  | directory entries =>
      simp only [if_neg named.plain, if_neg named.down, if_neg named.short, found]

theorem walk_missing (missing : entries.lookup step = none) (further : rest ≠ []) :
    walk tree creating links place (step :: rest) = .error .notFound := by
  rw [walk, here]
  simp only [if_neg named.plain, if_neg named.down, if_neg named.short, missing]
  simp [further]

theorem walk_new (missing : entries.lookup step = none) :
    walk tree true links place [step] = .ok (place ++ [step]) := by
  rw [walk, here]
  simp only [if_neg named.plain, if_neg named.down, if_neg named.short, missing]
  rfl

end Steps

/-- A walk through a tree leads to the same place when the tree has grown and more links may be
followed. If it was to create an entry, the entry has to be there by then. -/
theorem walk_of_grows {before after : FileTree} (grows : Grows before after) {creating : Bool}
    {links more : Nat} {place target : Place} {steps : List String}
    (walked : walk before creating links place steps = .ok target)
    (made : creating = true → ∃ entry, after.get? target = some entry ∧ ∀ path, entry ≠ .link path)
    (enough : links ≤ more) (again : Bool) : walk after again more place steps = .ok target := by
  -- Only directories and links are gone through, and both are still there.
  fun_induction walk before creating links place steps generalizing more with
  | case1 links place =>
      rw [walk]
      exact walked
  | case2 links place step rest entries here blank ih =>
      obtain ⟨_, there⟩ := grows.directory here
      rw [walk_blank there blank]
      exact ih walked enough
  | case3 links place rest entries here plain ih =>
      obtain ⟨_, there⟩ := grows.directory here
      rw [walk_up there]
      exact ih walked enough
  | case5 links place step rest entries here plain up short missing last =>
      obtain rfl := Except.ok.inj walked
      obtain ⟨rfl, rfl⟩ : creating = true ∧ rest = [] := by simp_all
      obtain ⟨_, there⟩ := grows.directory here
      obtain ⟨entry, found, solid⟩ := made rfl
      rw [FileTree.get?_entry there] at found
      rw [walk_solid there ⟨plain, up, short⟩ found solid, walk]
  | case8 place step rest entries here plain up short path link links ih =>
      obtain ⟨_, there⟩ := grows.directory here
      obtain ⟨more, rfl⟩ : ∃ fewer, more = fewer + 1 := ⟨more - 1, by omega⟩
      have kept := grows.link ((FileTree.get?_entry here step).trans link)
      rw [FileTree.get?_entry there] at kept
      rw [walk_link there ⟨plain, up, short⟩ kept]
      exact ih walked (by omega)
  | case9 links place step rest entries here plain up short child other found ih =>
      obtain ⟨_, there⟩ := grows.directory here
      obtain ⟨entry, kept, solid⟩ := grows.solid ((FileTree.get?_entry here step).trans found) other
      rw [FileTree.get?_entry there] at kept
      rw [walk_solid there ⟨plain, up, short⟩ kept solid]
      exact ih walked enough
  | case4 => cases walked
  | case6 => cases walked
  | case7 => cases walked
  | case10 => cases walked
  | case11 => cases walked

/-- Only a directory can be walked through. -/
theorem directory_of_walk {tree : FileTree} {creating : Bool} {links : Nat} {place target : Place}
    {step : String} {rest : List String}
    (walked : walk tree creating links place (step :: rest) = .ok target) :
    ∃ entries, tree.get? place = some (.directory entries) := by
  rw [walk] at walked
  cases here : tree.get? place with
  | none => simp [here] at walked
  | some above =>
      cases above with
      | directory entries => exact ⟨entries, rfl⟩
      | file bytes => simp [here] at walked
      | link path => simp [here] at walked

/-- A walk is one to some place between and one from there on, with the links that are left. -/
theorem walk_append {tree : FileTree} {creating : Bool} {links : Nat} {place target : Place}
    {first second : List String}
    (walked : walk tree creating links place (first ++ second) = .ok target)
    (further : second ≠ []) :
    ∃ between left, left ≤ links ∧ walk tree false links place first = .ok between ∧
      walk tree creating left between second = .ok target := by
  fun_induction walk tree false links place first with
  | case1 links place => exact ⟨place, links, Nat.le_refl links, rfl, walked⟩
  | case2 links place step rest entries here blank ih =>
      rw [List.cons_append, walk_blank here blank] at walked
      exact ih walked
  | case3 links place rest entries here plain ih =>
      rw [List.cons_append, walk_up here] at walked
      exact ih walked
  | case6 links place step rest entries here plain up short missing last =>
      rw [List.cons_append, walk_missing here ⟨plain, up, short⟩ missing
        (by simp [further])] at walked
      cases walked
  | case8 place step rest entries here plain up short path link links ih =>
      rw [List.cons_append, walk_link here ⟨plain, up, short⟩ link, ← List.append_assoc] at walked
      obtain ⟨between, left, fewer, there, onward⟩ := ih walked
      exact ⟨between, left, by omega, there, onward⟩
  | case9 links place step rest entries here plain up short child other found ih =>
      rw [List.cons_append, walk_solid here ⟨plain, up, short⟩ found other] at walked
      exact ih walked
  | case5 links place step rest entries here plain up short missing last => simp at last
  | case4 links place step rest entries here plain up long =>
      rw [List.cons_append, walk, here] at walked
      simp [plain, up, long] at walked
  | case7 place step rest entries here plain up short path link =>
      rw [List.cons_append, walk, here] at walked
      simp [plain, up, short, link] at walked
  | case10 links place step rest above other here =>
      obtain ⟨entries, directory⟩ := directory_of_walk walked
      exact absurd (Option.some.inj (here.symm.trans directory)) (other entries)
  | case11 links place step rest missing =>
      obtain ⟨entries, directory⟩ := directory_of_walk walked
      cases missing.symm.trans directory

theorem pieces_ne_nil (path : String) : Path.pieces path ≠ [] := by
  simp [Path.pieces, Text.split, List.splitOn_ne_nil]

theorem follow_eq_ok_iff {disk : Disk} {creating : Bool} {path : String} {place : Place} :
    disk.follow creating path = .ok place ↔ unusable? path = none ∧ path ≠ "" ∧
      walk disk.tree creating linkLimit (disk.origin path) (Path.pieces path) = .ok place := by
  rw [follow]
  cases unusable? path with
  | some fault => simp
  | none => by_cases empty : path = "" <;> simp [empty]

theorem writable_of_follow {disk : Disk} {path : String} {place : Place}
    (followed : disk.follow true path = .ok place)
    (solid : (disk.tree.get? place).any FileTree.isDirectory = false) :
    Writable disk.tree place := by
  obtain ⟨_, _, walked⟩ := follow_eq_ok_iff.mp followed
  have start : ∃ entries, disk.tree.get? (disk.origin path) = some (.directory entries) := by
    obtain ⟨step, rest, steps⟩ := List.exists_cons_of_ne_nil (pieces_ne_nil path)
    rw [steps] at walked
    exact directory_of_walk walked
  rcases walk_lands walked (.inr start) with writable | ⟨entries, here⟩
  · exact writable
  · rw [here] at solid
    cases solid

theorem locate_put {disk : Disk} {path : String} {place : Place}
    (followed : disk.follow true path = .ok place) (writable : Writable disk.tree place)
    (bytes : ByteArray) :
    ({ disk with tree := disk.tree.put place (.file bytes) } : Disk).locate path = .ok place := by
  obtain ⟨usable, given, walked⟩ := follow_eq_ok_iff.mp followed
  refine follow_eq_ok_iff.mpr ⟨usable, given,
    walk_of_grows (writable.grows bytes) walked ?_ (Nat.le_refl _) false⟩
  exact fun _ => ⟨_, FileTree.get?_put_self writable _, fun path link => by cases link⟩

/-- What is written to a path is read back from it. -/
theorem read_of_write {disk after : Disk} {path : String} {bytes : ByteArray}
    (written : disk.write path bytes = .ok after) : after.read path = .ok bytes := by
  cases followed : disk.follow true path with
  | error fault => simp [write, followed, bind, Except.bind] at written
  | ok place =>
      simp only [write, followed, bind, Except.bind] at written
      split at written
      · cases written
      · next solid =>
          obtain rfl := Except.ok.inj written
          have writable := writable_of_follow followed (Bool.eq_false_iff.mpr solid)
          simp [read, locate_put followed writable, FileTree.get?_put_self writable, bind,
            Except.bind]

/-- What one step into a directory can do. -/
inductive Enters (tree : FileTree) (place : Place) (step : String) : FileTree → Place → Prop
  | blank : step = "" ∨ step = "." → Enters tree place step tree place
  | up : step = ".." → Enters tree place step tree place.dropLast
  | made : Named step → tree.get? (place ++ [step]) = none →
      Enters tree place step (tree.put (place ++ [step]) (.directory [])) (place ++ [step])
  | inside {entries : List (String × FileTree)} : Named step →
      tree.get? (place ++ [step]) = some (.directory entries) →
        Enters tree place step tree (place ++ [step])
  | link {path : String} {home : Place} {entries : List (String × FileTree)} : Named step →
      tree.get? (place ++ [step]) = some (.link path) →
        walk tree false linkLimit place [step] = .ok home →
      tree.get? home = some (.directory entries) → Enters tree place step tree home

@[simp] theorem any_isDirectory_iff {found : Option FileTree} :
    found.any FileTree.isDirectory = true ↔ ∃ entries, found = some (.directory entries) := by
  rcases found with _ | tree
  · simp
  · cases tree <;> simp [FileTree.isDirectory]

theorem enter_eq_ok_iff {tree next : FileTree} {place home : Place} {step : String} :
    enter tree place step = .ok (next, home) ↔ Enters tree place step next home := by
  rw [enter, ← FileTree.get?_step]
  constructor
  · intro entered
    split at entered
    · next blank =>
        cases entered
        exact .blank blank
    next plain =>
    split at entered
    · next up =>
        cases entered
        exact .up up
    next down =>
    split at entered
    · cases entered
    next short =>
    split at entered
    · next missing =>
        cases entered
        exact .made ⟨plain, down, short⟩ missing
    · next found =>
        cases entered
        exact .inside ⟨plain, down, short⟩ found
    · cases entered
    · next found =>
        split at entered
        · next walked =>
            split at entered
            · next directory =>
                cases entered
                obtain ⟨entries, there⟩ := any_isDirectory_iff.mp directory
                exact .link ⟨plain, down, short⟩ found walked there
            · cases entered
        · cases entered
  · intro enters
    cases enters with
    | blank blank => rw [if_pos blank]
    | up up =>
        subst up
        rfl
    | made named missing => rw [if_neg named.plain, if_neg named.down, if_neg named.short, missing]
    | inside named found => rw [if_neg named.plain, if_neg named.down, if_neg named.short, found]
    | link named found walked directory =>
        rw [if_neg named.plain, if_neg named.down, if_neg named.short, found]
        simp [walked, directory, FileTree.isDirectory]

/-- The way to a directory that is there. -/
theorem enters_of_walk {tree : FileTree} {links : Nat} {place home : Place} {step : String}
    {entries : List (String × FileTree)} (walked : walk tree false links place [step] = .ok home)
    (few : links ≤ linkLimit) (directory : tree.get? home = some (.directory entries)) :
    Enters tree place step tree home := by
  obtain ⟨above, here⟩ := directory_of_walk walked
  by_cases blank : step = "" ∨ step = "."
  · rw [walk_blank here blank, walk] at walked
    cases walked
    exact .blank blank
  by_cases up : step = ".."
  · subst up
    rw [walk_up here, walk] at walked
    cases walked
    exact .up rfl
  by_cases long : nameLimit < step.utf8ByteSize
  · rw [walk, here] at walked
    simp [blank, up, long] at walked
  have named : Named step := ⟨blank, up, long⟩
  cases found : above.lookup step with
  | none =>
      rw [walk, here] at walked
      simp [blank, up, long, found] at walked
  | some child =>
      have entry := (FileTree.get?_entry here step).trans found
      cases child with
      | link path =>
          exact .link named entry (walk_of_grows (.refl tree) walked (by simp) few false) directory
      | directory inner =>
          rw [walk_solid here named found (by simp), walk] at walked
          cases walked
          exact .inside named entry
      | file bytes =>
          rw [walk_solid here named found (by simp), walk] at walked
          cases walked
          cases entry.symm.trans directory

/-- Where a walk leads to a directory, directories need not be made. -/
theorem enterAll_of_walk {tree : FileTree} {links : Nat} {place home : Place} {steps : List String}
    {entries : List (String × FileTree)} (walked : walk tree false links place steps = .ok home)
    (few : links ≤ linkLimit) (directory : tree.get? home = some (.directory entries))
    (rest : List String) :
    enterAll tree place (steps ++ rest) = enterAll tree home rest := by
  induction steps generalizing place links with
  | nil =>
      rw [walk] at walked
      cases walked
      rfl
  | cons step steps ih =>
      cases steps with
      | nil =>
          rw [List.singleton_append, enterAll,
            enter_eq_ok_iff.mpr (enters_of_walk walked few directory)]
      | cons next steps =>
          rw [← List.singleton_append] at walked
          obtain ⟨between, left, fewer, first, second⟩ := walk_append walked (by simp)
          obtain ⟨inner, there⟩ := directory_of_walk second
          rw [List.cons_append, enterAll, enter_eq_ok_iff.mpr (enters_of_walk first few there)]
          exact ih second (Nat.le_trans fewer few)

theorem Enters.grows {tree next : FileTree} {place home : Place} {step : String}
    (enters : Enters tree place step next home) : Grows tree next := by
  cases enters with
  | made named missing =>
      refine .put fun old found => ?_
      rw [missing] at found
      cases found
  | _ => exact .refl tree

theorem grows_enterAll (tree : FileTree) (place : Place) (steps : List String) :
    Grows tree (enterAll tree place steps).1 := by
  induction steps generalizing tree place with
  | nil => exact .refl tree
  | cons step steps ih =>
      rw [enterAll]
      cases entered : enter tree place step with
      | error fault => exact .refl tree
      | ok next => exact (enter_eq_ok_iff.mp entered).grows.trans (ih next.1 next.2)

/-- A directory that was entered is entered once more, without being made again. -/
theorem Enters.again {tree next after : FileTree} {place home : Place} {step : String}
    {entries : List (String × FileTree)} (enters : Enters tree place step next home)
    (grows : Grows next after) (there : after.get? place = some (.directory entries)) :
    Enters after place step after home := by
  have whole := enters.grows.trans grows
  cases enters with
  | blank blank => exact .blank blank
  | up up => exact .up up
  | made named missing =>
      obtain ⟨_, kept⟩ := grows.directory
        (FileTree.get?_put_of_grows whole there step (.directory []))
      exact .inside named kept
  | inside named found =>
      obtain ⟨_, kept⟩ := grows.directory found
      exact .inside named kept
  | link named found walked directory =>
      obtain ⟨_, kept⟩ := grows.directory directory
      exact .link named (grows.link found)
        (walk_of_grows grows walked (by simp) (Nat.le_refl _) false) kept

/-- Steps that went wrong go wrong in the same way once more, if there is a way on from where they
lead. -/
theorem enterAll_again {tree after : FileTree} {place target : Place} {steps rest : List String}
    {outcome : Except FileError Unit} {links : Nat}
    (entered : enterAll tree place steps = (after, outcome))
    (walked : walk after false links place (steps ++ rest) = .ok target) (few : links ≤ linkLimit)
    (further : rest ≠ []) : enterAll after place steps = (after, outcome) := by
  induction steps generalizing tree place links with
  | nil =>
      cases entered
      rfl
  | cons step steps ih =>
      rw [enterAll] at entered
      cases first : enter tree place step with
      | error fault =>
          rw [first] at entered
          cases entered
          rw [enterAll, first]
      | ok next =>
          obtain ⟨next, home⟩ := next
          rw [first] at entered
          replace entered : enterAll next home steps = (after, outcome) := entered
          have later := grows_enterAll next home steps
          rw [entered] at later
          obtain ⟨entries, there⟩ := directory_of_walk walked
          have enters := enter_eq_ok_iff.mpr ((enter_eq_ok_iff.mp first).again later there)
          -- The walk comes to the same directory, so the rest of it starts there.
          rw [List.cons_append, ← List.singleton_append] at walked
          obtain ⟨between, left, fewer, once, onward⟩ := walk_append walked (by simp [further])
          obtain ⟨step, rest, split⟩ :=
            List.exists_cons_of_ne_nil (by simp [further] : steps ++ rest ≠ [])
          rw [split] at onward
          obtain ⟨inner, inside⟩ := directory_of_walk onward
          cases (enter_eq_ok_iff.mpr (enters_of_walk once few inside)).symm.trans enters
          rw [← split] at onward
          rw [enterAll, enters]
          exact ih entered onward (Nat.le_trans fewer few)

/-- A walk that leads somewhere takes a number of links. It leads to the same place with that many,
also when the tree has grown, and goes on from there with the links that are left. -/
theorem walk_counts {tree : FileTree} {limit : Nat} {place between : Place} {first : List String}
    (walked : walk tree false limit place first = .ok between) :
    ∃ used, ∀ {after : FileTree}, Grows tree after → ∀ creating links second,
      walk after creating links place (first ++ second) =
        if used ≤ links then walk after creating (links - used) between second
          else .error .tooManyLinks := by
  fun_induction walk tree false limit place first with
  | case1 limit place =>
      cases walked
      exact ⟨0, fun _ _ _ _ => rfl⟩
  | case2 limit place step rest entries here blank ih =>
      obtain ⟨used, onward⟩ := ih walked
      refine ⟨used, fun grows creating links second => ?_⟩
      obtain ⟨_, there⟩ := grows.directory here
      rw [List.cons_append, walk_blank there blank, onward grows]
  | case3 limit place rest entries here plain ih =>
      obtain ⟨used, onward⟩ := ih walked
      refine ⟨used, fun grows creating links second => ?_⟩
      obtain ⟨_, there⟩ := grows.directory here
      rw [List.cons_append, walk_up there, onward grows]
  | case8 place step rest entries here plain up short path link limit ih =>
      obtain ⟨used, onward⟩ := ih walked
      refine ⟨used + 1, fun grows creating links second => ?_⟩
      obtain ⟨_, there⟩ := grows.directory here
      have kept := grows.link ((FileTree.get?_entry here step).trans link)
      rw [FileTree.get?_entry there] at kept
      cases links with
      | zero =>
          rw [List.cons_append, walk, there, if_neg (Nat.not_succ_le_zero used)]
          simp only [if_neg plain, if_neg up, if_neg short, kept]
      | succ links =>
          rw [List.cons_append, walk_link there ⟨plain, up, short⟩ kept, ← List.append_assoc,
            Nat.succ_sub_succ]
          simp only [Nat.succ_le_succ_iff]
          exact onward grows creating links second
  | case9 limit place step rest entries here plain up short child other found ih =>
      obtain ⟨used, onward⟩ := ih walked
      refine ⟨used, fun grows creating links second => ?_⟩
      obtain ⟨_, there⟩ := grows.directory here
      obtain ⟨entry, kept, solid⟩ := grows.solid ((FileTree.get?_entry here step).trans found) other
      rw [FileTree.get?_entry there] at kept
      rw [List.cons_append, walk_solid there ⟨plain, up, short⟩ kept solid, onward grows]
  | case5 limit place step rest entries here plain up short missing last => simp at last
  | case4 => cases walked
  | case6 => cases walked
  | case7 => cases walked
  | case10 => cases walked
  | case11 => cases walked

theorem enters_of_enterAll {tree made : FileTree} {place : Place} {step : String}
    {rest : List String} (entered : enterAll tree place (step :: rest) = (made, .ok ())) :
    ∃ next home, Enters tree place step next home ∧ enterAll next home rest = (made, .ok ()) := by
  rw [enterAll] at entered
  cases first : enter tree place step with
  | error fault =>
      rw [first] at entered
      cases entered
  | ok next =>
      rw [first] at entered
      exact ⟨next.1, next.2, enter_eq_ok_iff.mp first, entered⟩

theorem grows_of_enterAll {tree made : FileTree} {place : Place} {steps : List String}
    (entered : enterAll tree place steps = (made, .ok ())) : Grows tree made := by
  have grows := grows_enterAll tree place steps
  rwa [entered] at grows

section Making

variable {tree made : FileTree} {place home : Place} {steps : List String} {last : String}
  {links : Nat} {entries : List (String × FileTree)} (named : Named last) (straight : ".." ∉ steps)
include named straight

/-- Steps from a directory without entries only lead to directories that are made for them. -/
theorem entries_of_enterAll_bare
    (bare : tree.get? place = none ∨ tree.get? place = some (.directory []))
    (entered : enterAll tree place (steps ++ [last]) = (made, .ok ()))
    (walked : walk made false links place steps = .ok home)
    (there : made.get? home = some (.directory entries)) :
    entries = [(last, .directory [])] := by
  induction steps generalizing tree place with
  | nil =>
      rw [walk] at walked
      cases walked
      obtain ⟨next, target, enters, done⟩ := enters_of_enterAll entered
      cases done
      cases enters with
      | blank blank => exact absurd blank named.plain
      | up up => exact absurd up named.down
      | made _ missing => exact FileTree.entries_put_of_bare bare there
      | inside _ found => exact absurd found (by simp [FileTree.get?_of_bare bare])
      | link _ found => exact absurd found (by simp [FileTree.get?_of_bare bare])
  | cons step steps ih =>
      have onward : ".." ∉ steps := fun inside => straight (List.mem_cons_of_mem _ inside)
      obtain ⟨_, above⟩ := directory_of_walk walked
      obtain ⟨next, target, enters, entered⟩ := enters_of_enterAll entered
      have later := grows_of_enterAll entered
      have grows := enters.grows.trans later
      cases enters with
      | blank blank =>
          rw [walk_blank above blank] at walked
          exact ih onward bare entered walked
      | up up => exact absurd (up ▸ List.mem_cons_self) straight
      | made short missing =>
          have fresh := FileTree.get?_put_of_grows grows above step (.directory [])
          obtain ⟨_, kept⟩ := later.directory fresh
          rw [FileTree.get?_entry above] at kept
          rw [walk_solid above short kept (by simp)] at walked
          exact ih onward (.inr fresh) entered walked
      | inside _ found => exact absurd found (by simp [FileTree.get?_of_bare bare])
      | link _ found => exact absurd found (by simp [FileTree.get?_of_bare bare])

/-- Steps into directories, some of which may be missing, lead to one that was there or to one that
was made. -/
theorem walk_or_made (entered : enterAll tree place (steps ++ [last]) = (made, .ok ()))
    (walked : walk made false links place steps = .ok home)
    (there : made.get? home = some (.directory entries)) :
    (walk tree false links place steps = .ok home ∧ ∃ old, tree.get? home = some (.directory old)) ∨
      entries = [(last, .directory [])] := by
  induction steps generalizing tree place links with
  | nil =>
      have fresh := fun missing =>
        entries_of_enterAll_bare named straight (.inl missing) entered walked there
      rw [walk] at walked ⊢
      cases walked
      exact ((grows_of_enterAll entered).none_or_directory there).symm.imp (⟨rfl, ·⟩) fresh
  | cons step steps ih =>
      have onward : ".." ∉ steps := fun inside => straight (List.mem_cons_of_mem _ inside)
      obtain ⟨_, above⟩ := directory_of_walk walked
      rcases (grows_of_enterAll entered).none_or_directory above with missing | ⟨start, here⟩
      · exact .inr (entries_of_enterAll_bare named straight (.inl missing) entered walked there)
      obtain ⟨next, target, enters, entered⟩ := enters_of_enterAll entered
      have later := grows_of_enterAll entered
      have grows := enters.grows.trans later
      cases enters with
      | blank blank =>
          rw [walk_blank above blank] at walked
          rw [walk_blank here blank]
          exact ih onward entered walked
      | up up => exact absurd (up ▸ List.mem_cons_self) straight
      | made short missing =>
          have fresh := FileTree.get?_put_of_grows grows above step (.directory [])
          obtain ⟨_, kept⟩ := later.directory fresh
          rw [FileTree.get?_entry above] at kept
          rw [walk_solid above short kept (by simp)] at walked
          exact .inr (entries_of_enterAll_bare named onward (.inr fresh) entered walked there)
      | inside short found =>
          obtain ⟨_, kept⟩ := later.directory found
          rw [FileTree.get?_entry above] at kept
          have known := (FileTree.get?_entry here step).symm.trans found
          rw [walk_solid above short kept (by simp)] at walked
          rw [walk_solid here short known (by simp)]
          exact ih onward entered walked
      | link short found way directory =>
          -- The link was followed on its own; the walk reaches the same directory with the links
          -- that are left.
          obtain ⟨used, counts⟩ := walk_counts way
          have rest := counts later false links steps
          rw [List.singleton_append, walked] at rest
          split at rest
          · next enough =>
              rw [← List.singleton_append, counts (.refl _), if_pos enough]
              exact ih onward entered rest.symm
          · cases rest

end Making

/-- A path below a directory is a path of that directory, up to a slash at the end, and one from
there on. -/
theorem below_eq {root path : String} (given : root ≠ "") (relative : isAbsolute path = false) :
    ∃ stem, below root path = stem ++ "/" ++ path ∧ (root = stem ∨ root = stem ++ "/") := by
  rw [below, relative]
  simp only [Bool.false_or, decide_eq_true_eq, if_neg given]
  split
  · next slash =>
      obtain ⟨stem, split⟩ := List.getLast?_eq_some_iff.mp slash
      have same : root = String.ofList stem ++ "/" := by
        rw [← String.toList_inj, split]
        simp
      refine ⟨String.ofList stem, ?_, .inr same⟩
      rw [← same]
  · exact ⟨root, rfl, .inl rfl⟩

theorem origin_append {disk : Disk} {first : String} (given : first ≠ "") (second : String) :
    disk.origin (first ++ second) = disk.origin first := by
  have head : (first ++ second).toList.head? = first.toList.head? := by
    rw [String.toList_append, List.head?_append]
    cases start : first.toList with
    | nil => exact absurd (String.toList_eq_nil_iff.mp start) given
    | cons c rest => rfl
  have absolute : isAbsolute (first ++ second) = isAbsolute first := congrArg (· == some '/') head
  rw [origin, absolute, origin]

theorem usable_of_append {first second : String} (usable : unusable? (first ++ second) = none) :
    unusable? first = none := by
  unfold unusable? at usable ⊢
  rw [String.toList_append, String.utf8ByteSize_append] at usable
  split at usable
  · cases usable
  split at usable
  · cases usable
  next clean short =>
  have clean : ¬first.toList.contains '\x00' = true := fun null => clean (by simp_all)
  rw [if_neg clean, if_neg (by omega)]

theorem origin_below {disk : Disk} {root path : String} (given : root ≠ "")
    (relative : isAbsolute path = false) :
    disk.origin (below root path) = disk.origin root := by
  obtain ⟨stem, same, shape⟩ := below_eq given relative
  rw [same]
  rcases shape with rfl | rfl
  · rw [String.append_assoc, origin_append given]
  · rw [origin_append given]

theorem usable_below {root path : String} (given : root ≠ "") (relative : isAbsolute path = false)
    (usable : unusable? (below root path) = none) : unusable? root = none := by
  obtain ⟨stem, same, shape⟩ := below_eq given relative
  rw [same] at usable
  rcases shape with rfl | rfl
  · rw [String.append_assoc] at usable
    exact usable_of_append usable
  · exact usable_of_append usable

/-- The steps below a directory are those to the directory, up to a blank one at the end, and
more. -/
theorem exists_stem {root : String} (given : root ≠ "") {path : String}
    (relative : isAbsolute path = false) :
    ∃ stem, Path.pieces (below root path) = stem ++ Path.pieces path ∧
      (Path.pieces root = stem ∨ Path.pieces root = stem ++ [""]) := by
  obtain ⟨stem, same, shape⟩ := below_eq given relative
  refine ⟨Path.pieces stem, by rw [same, Path.pieces_append],
    shape.imp (congrArg Path.pieces) fun slash => ?_⟩
  have split := Path.pieces_append stem ""
  rwa [String.append_empty, ← slash] at split

/-- A blank step at the end makes no difference where the others lead to a directory. -/
theorem locate_of_stem {disk : Disk} {root : String} {stem : List String} {home : Place}
    {entries : List (String × FileTree)}
    (shape : Path.pieces root = stem ∨ Path.pieces root = stem ++ [""])
    (usable : unusable? root = none) (given : root ≠ "")
    (walked : walk disk.tree false linkLimit (disk.origin root) stem = .ok home)
    (directory : disk.tree.get? home = some (.directory entries)) :
    disk.locate root = .ok home := by
  refine follow_eq_ok_iff.mpr ⟨usable, given, ?_⟩
  rcases shape with same | blank
  · rw [same]
    exact walked
  · obtain ⟨used, counts⟩ := walk_counts walked
    have whole := counts (.refl _) false linkLimit []
    rw [List.append_nil, walked] at whole
    split at whole
    · next enough =>
        rw [blank, counts (.refl _), if_pos enough, walk_blank directory (.inl rfl), walk]
    · cases whole

/-- The way to what lies below a directory leads through the directory. -/
theorem steps_below {disk : Disk} {root path : String} {home : Place}
    (found : disk.locate root = .ok home) (relative : isAbsolute path = false) :
    ∃ stem, Path.pieces (below root path) = stem ++ Path.pieces path ∧
      walk disk.tree false linkLimit (disk.origin (below root path)) stem = .ok home := by
  obtain ⟨_, given, walked⟩ := follow_eq_ok_iff.mp found
  obtain ⟨stem, pieces, shape⟩ := exists_stem given relative
  refine ⟨stem, pieces, ?_⟩
  rw [origin_below given relative]
  rcases shape with same | blank
  · rw [← same]
    exact walked
  · rw [blank] at walked
    obtain ⟨between, left, _, first, last⟩ := walk_append walked (by simp)
    obtain ⟨inner, there⟩ := directory_of_walk last
    rw [walk_blank there (.inl rfl), walk] at last
    cases last
    exact first

end Disk

end SourceAtlas
