/- What a scan passes over: entries may come and go below a directory that is not entered. -/
import SourceAtlas.Proofs.FileTree
import SourceAtlas.Scan

namespace SourceAtlas.Scan

open FileTree (insertEntry)

variable {filter : PathFilter} {place : Place} {name : String}

theorem enters_stateDirectory (filter : PathFilter) (place : Place) :
    enters filter place stateDirectory = false := by
  have skipped : skippedDirectories.contains stateDirectory = true := by decide
  simp only [enters, skipped, Bool.true_or, Bool.not_true]

section Entries

variable {new : FileTree} {entries : List (String × FileTree)} (solid : new.isFile = false)
  (old : ∀ tree, entries.lookup name = some tree → tree.isFile = false)
include solid old

theorem filesHere_insertEntry :
    filesHere place (insertEntry name new entries) = filesHere place entries := by
  have skips {tree : FileTree} (plain : tree.isFile = false) (given : String)
      (rest : List (String × FileTree)) :
      filesHere place ((given, tree) :: rest) = filesHere place rest := by
    cases tree with
    | file bytes => cases plain
    | link target => rfl
    | directory inner => rfl
  induction entries with
  | nil => exact skips solid name []
  | cons entry entries ih =>
      obtain ⟨other, tree⟩ := entry
      rw [insertEntry]
      split
      · exact skips solid name _
      · next equal =>
          obtain rfl := Std.compare_eq_iff_eq.mp equal
          rw [skips solid, skips (old tree (by simp))]
      · next after =>
          have apart : name ≠ other := by
            rintro rfl
            simp at after
          have rest := ih fun tree found => old tree (by rwa [lookup_cons_eq_ite, if_neg apart])
          have step (list : List (String × FileTree)) : filesHere place ((other, tree) :: list) =
              filesHere place [(other, tree)] ++ filesHere place list :=
            List.filterMap_append (l := [(other, tree)])
          rw [step, rest, ← step]

omit solid old in
theorem filesBelow_insertEntry (closed : enters filter place name = false) :
    filesBelow filter place (insertEntry name new entries) = filesBelow filter place entries := by
  induction entries with
  | nil => simp [insertEntry, filesBelow, closed]
  | cons entry entries ih =>
      obtain ⟨other, tree⟩ := entry
      rw [insertEntry]
      split
      · simp [filesBelow, closed]
      · next equal =>
          obtain rfl := Std.compare_eq_iff_eq.mp equal
          simp [filesBelow, closed]
      · rw [filesBelow, filesBelow, ih]

/-- An entry with a name that is not entered makes no difference, unless it is a file or replaces
one. -/
theorem filesOf_insertEntry (closed : enters filter place name = false) :
    filesOf filter place (.directory (insertEntry name new entries)) =
      filesOf filter place (.directory entries) := by
  rw [filesOf, filesOf, filesHere_insertEntry solid old, filesBelow_insertEntry closed]

end Entries

/-- Whether something lies below a directory of the scanned one that is not entered. -/
def passesOver (filter : PathFilter) : Place → Bool
  | name :: _ :: _ => !enters filter [] name
  | _ => false

/-- A file that a scan passes over can be written without a difference to the scan. -/
theorem filesOf_put {tree : FileTree} {home target : Place} {entries : List (String × FileTree)}
    (directory : tree.get? home = some (.directory entries)) (writable : tree.Writable target)
    (hidden : ∀ rest, target = home ++ rest → passesOver filter rest = true) (bytes : ByteArray) :
    ∃ inner, (tree.put target (.file bytes)).get? home = some (.directory inner) ∧
      filesOf filter [] (.directory inner) = filesOf filter [] (.directory entries) := by
  by_cases inside : home <+: target
  · obtain ⟨rest, rfl⟩ := inside
    have passed := hidden rest rfl
    match rest, passed with
    | name :: next :: more, passed =>
        refine ⟨_, FileTree.get?_put_below directory _ _, ?_⟩
        have closed : enters filter [] name = false := by simpa [passesOver] using passed
        cases FileTree.writable_below writable directory with
        | inside found further =>
            obtain ⟨before, after⟩ := further.isFile_eq_false (.file bytes)
            refine filesOf_insertEntry ?_ ?_ closed
            · rw [found]
              exact after
            · intro old known
              cases found.symm.trans known
              exact before
  · exact ⟨entries, FileTree.get?_put_apart writable directory inside _, rfl⟩

end SourceAtlas.Scan
