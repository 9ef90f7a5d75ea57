/- Directory trees after an entry was put somewhere: what is found there, and what is left as it
was. -/
import SourceAtlas.Disk.Basic
import SourceAtlas.Proofs.TextMap

namespace SourceAtlas.FileTree

/-- A tree without what is inside it. -/
def shape : FileTree → FileTree
  | .directory _ => .directory []
  | tree => tree

/-- Places for a file: that of another file, or a new entry of a directory. -/
inductive Writable : FileTree → Place → Prop
  | file (bytes : ByteArray) : Writable (.file bytes) []
  | missing {entries : List (String × FileTree)} {name : String} : entries.lookup name = none →
      Writable (.directory entries) [name]
  | inside {entries : List (String × FileTree)} {name : String} {child : FileTree} {rest : Place} :
      entries.lookup name = some child → Writable child rest →
        Writable (.directory entries) (name :: rest)

@[simp] theorem lookup_insertEntry (name query : String) (tree : FileTree)
    (entries : List (String × FileTree)) :
    (insertEntry name tree entries).lookup query =
      if query = name then some tree else entries.lookup query := by
  induction entries with
  | nil => exact lookup_cons_eq_ite query name tree []
  | cons entry entries ih =>
      obtain ⟨other, old⟩ := entry
      rw [insertEntry]
      split
      · exact lookup_cons_eq_ite query name tree _
      · next equal =>
          obtain rfl := Std.compare_eq_iff_eq.mp equal
          rw [lookup_cons_eq_ite, lookup_cons_eq_ite]
          split <;> rfl
      · next after =>
          have apart : other ≠ name := by
            rintro rfl
            simp at after
          rw [lookup_cons_eq_ite, lookup_cons_eq_ite, ih]
          by_cases same : query = other
          · rw [if_pos same, if_neg (same ▸ apart), if_pos same]
          · rw [if_neg same, if_neg same]

theorem get?_cons_eq_some {tree found : FileTree} {name : String} {rest : Place}
    (inside : tree.get? (name :: rest) = some found) :
    ∃ entries child, tree = .directory entries ∧ entries.lookup name = some child ∧
      child.get? rest = some found := by
  obtain ⟨child, here, below⟩ := Option.bind_eq_some_iff.mp inside
  cases tree with
  | directory entries => exact ⟨entries, child, rfl, here, below⟩
  | file bytes => cases here
  | link target => cases here

theorem get?_append (tree : FileTree) (place rest : Place) :
    tree.get? (place ++ rest) = (tree.get? place).bind fun here => here.get? rest := by
  induction place generalizing tree with
  | nil => rfl
  | cons name place ih =>
      rw [List.cons_append, get?, get?, Option.bind_assoc]
      exact congrArg _ (funext ih)

theorem get?_entry {tree : FileTree} {place : Place} {entries : List (String × FileTree)}
    (here : tree.get? place = some (.directory entries)) (name : String) :
    tree.get? (place ++ [name]) = entries.lookup name := by
  rw [get?_append, here, Option.bind_some, get?, child?]
  simp [get?]

/-- What stands above an entry is a directory. -/
theorem get?_dropLast {tree : FileTree} {place : Place} {entries : List (String × FileTree)}
    (here : tree.get? place = some (.directory entries)) :
    ∃ entries, tree.get? place.dropLast = some (.directory entries) := by
  rcases List.eq_nil_or_concat place with rfl | ⟨parent, name, rfl⟩
  · exact ⟨entries, here⟩
  · rw [List.concat_eq_append, List.dropLast_concat]
    rw [List.concat_eq_append, get?_append] at here
    obtain ⟨above, found, inside⟩ := Option.bind_eq_some_iff.mp here
    obtain ⟨entries, _, rfl, _⟩ := get?_cons_eq_some inside
    exact ⟨entries, found⟩

theorem root_directory {tree : FileTree} {place : Place} {entries : List (String × FileTree)}
    (here : tree.get? place = some (.directory entries)) :
    ∃ entries, tree.get? [] = some (.directory entries) := by
  cases place with
  | nil => exact ⟨entries, here⟩
  | cons name place =>
      obtain ⟨entries, _, rfl, _⟩ := get?_cons_eq_some here
      exact ⟨entries, rfl⟩

theorem get?_step (tree : FileTree) (place : Place) (name : String) :
    tree.get? (place ++ [name]) = (tree.get? place).bind fun here => here.child? name := by
  rw [get?_append]
  refine congrArg _ (funext fun here => ?_)
  simp [get?]

theorem writable_of_file {tree : FileTree} {place : Place} {bytes : ByteArray}
    (here : tree.get? place = some (.file bytes)) : Writable tree place := by
  induction place generalizing tree with
  | nil =>
      obtain rfl := Option.some.inj here
      exact .file bytes
  | cons name place ih =>
      obtain ⟨entries, child, rfl, found, rest⟩ := get?_cons_eq_some here
      exact .inside found (ih rest)

theorem writable_of_missing {tree : FileTree} {place : Place} {entries : List (String × FileTree)}
    {name : String} (here : tree.get? place = some (.directory entries))
    (missing : entries.lookup name = none) :
    Writable tree (place ++ [name]) := by
  induction place generalizing tree with
  | nil =>
      obtain rfl := Option.some.inj here
      exact .missing missing
  | cons step place ih =>
      obtain ⟨entries, child, rfl, found, rest⟩ := get?_cons_eq_some here
      exact .inside found (ih rest)

theorem get?_put_self {tree : FileTree} {place : Place} (writable : Writable tree place)
    (entry : FileTree) :
    (tree.put place entry).get? place = some entry := by
  induction writable with
  | file bytes => simp [put, get?]
  | missing missing => simp [put, get?, child?]
  | inside found _ ih => simp [put, get?, child?, found, ih]

theorem Writable.get?_eq {tree : FileTree} {place : Place} (writable : Writable tree place) :
    tree.get? place = none ∨ ∃ bytes, tree.get? place = some (.file bytes) := by
  induction writable with
  | file bytes => exact .inr ⟨bytes, rfl⟩
  | missing missing => simp [get?, child?, missing]
  | inside found _ ih => simpa [get?, child?, found] using ih

/-- Putting an entry that holds nothing changes no other entry, except for what directories hold. -/
theorem shape_get?_put {tree entry : FileTree} {place other : Place}
    (writable : Writable tree place) (bare : ∀ name, entry.child? name = none)
    (different : other ≠ place) :
    ((tree.put place entry).get? other).map shape = (tree.get? other).map shape := by
  induction writable generalizing other with
  | file old =>
      cases other with
      | nil => exact absurd rfl different
      | cons step other =>
          rw [put, get?, bare]
          rfl
  | @missing entries name missing =>
      cases other with
      | nil => rfl
      | cons step other =>
          simp only [put, get?, child?, lookup_insertEntry]
          by_cases same : step = name
          · subst same
            cases other with
            | nil => exact absurd rfl different
            | cons next other => simp [missing, get?, bare]
          · rw [if_neg same]
  | @inside entries name child rest found _ ih =>
      cases other with
      | nil => rfl
      | cons step other =>
          simp only [put, get?, child?, lookup_insertEntry]
          by_cases same : step = name
          · subst same
            have deeper : other ≠ rest := fun equal => different (equal ▸ rfl)
            simp [found, ih deeper]
          · rw [if_neg same]

theorem get?_put_below {tree here : FileTree} {place : Place} (found : tree.get? place = some here)
    (rest : Place) (entry : FileTree) :
    (tree.put (place ++ rest) entry).get? place = some (here.put rest entry) := by
  induction place generalizing tree with
  | nil =>
      obtain rfl := Option.some.inj found
      rfl
  | cons name place ih =>
      obtain ⟨entries, child, rfl, known, inside⟩ := get?_cons_eq_some found
      simp [put, get?, child?, known, ih inside]

theorem get?_put_apart {tree here : FileTree} {place target : Place}
    (writable : Writable tree target) (found : tree.get? place = some here)
    (apart : ¬place <+: target) (entry : FileTree) :
    (tree.put target entry).get? place = some here := by
  induction writable generalizing place with
  | file bytes =>
      cases place with
      | nil => exact absurd List.nil_prefix apart
      | cons step place => cases found
  | @missing entries name missing =>
      cases place with
      | nil => exact absurd List.nil_prefix apart
      | cons step place =>
          have different : step ≠ name := by
            rintro rfl
            simp [get?, child?, missing] at found
          simpa [put, get?, child?, different] using found
  | @inside entries name child rest known _ ih =>
      cases place with
      | nil => exact absurd List.nil_prefix apart
      | cons step place =>
          by_cases same : step = name
          · subst same
            have inside : child.get? place = some here := by simpa [get?, child?, known] using found
            have deeper : ¬place <+: rest :=
              fun short => apart (List.cons_prefix_cons.mpr ⟨rfl, short⟩)
            simp [put, get?, child?, known, ih inside deeper]
          · simpa [put, get?, child?, same] using found

theorem writable_below {tree here : FileTree} {place rest : Place}
    (writable : Writable tree (place ++ rest)) (found : tree.get? place = some here) :
    Writable here rest := by
  induction place generalizing tree with
  | nil =>
      cases found
      exact writable
  | cons name place ih =>
      obtain ⟨entries, child, rfl, known, inside⟩ := get?_cons_eq_some found
      rw [List.cons_append] at writable
      generalize split : place ++ rest = deeper at writable
      cases writable with
      | missing missing => cases missing.symm.trans known
      | inside same further =>
          cases same.symm.trans known
          exact ih (split ▸ further) inside

/-- A place inside something is one inside a directory. -/
theorem Writable.isFile_eq_false {tree : FileTree} {name : String} {rest : Place}
    (writable : Writable tree (name :: rest)) (entry : FileTree) :
    tree.isFile = false ∧ (tree.put (name :: rest) entry).isFile = false := by
  cases writable with
  | missing missing => exact ⟨rfl, rfl⟩
  | inside found further => exact ⟨rfl, rfl⟩

/-- What an entry is, whatever it holds. -/
inductive Kind where
  | file
  | link (target : String)
  | directory
deriving DecidableEq, Repr

def kind : FileTree → Kind
  | .file _ => .file
  | .link target => .link target
  | .directory _ => .directory

/-- No entry is lost or becomes one of another kind. -/
def Grows (before after : FileTree) : Prop :=
  ∀ place tree, before.get? place = some tree → ∃ grown,
    after.get? place = some grown ∧ grown.kind = tree.kind

namespace Grows

variable {before middle after : FileTree}

theorem refl (tree : FileTree) : Grows tree tree := fun _ tree found => ⟨tree, found, rfl⟩

theorem trans (first : Grows before middle) (second : Grows middle after) : Grows before after := by
  intro place tree found
  obtain ⟨grown, there, same⟩ := first place tree found
  obtain ⟨last, here, again⟩ := second place grown there
  exact ⟨last, here, again.trans same⟩

theorem directory (grows : Grows before after) {place : Place} {entries : List (String × FileTree)}
    (found : before.get? place = some (.directory entries)) :
    ∃ entries, after.get? place = some (.directory entries) := by
  obtain ⟨grown, there, same⟩ := grows place _ found
  cases grown with
  | directory entries => exact ⟨entries, there⟩
  | file bytes => cases same
  | link target => cases same

/-- A directory was one before, unless it is new. -/
theorem none_or_directory (grows : Grows before after) {place : Place}
    {entries : List (String × FileTree)} (found : after.get? place = some (.directory entries)) :
    before.get? place = none ∨ ∃ entries, before.get? place = some (.directory entries) := by
  cases here : before.get? place with
  | none => exact .inl rfl
  | some tree =>
      obtain ⟨grown, there, same⟩ := grows place tree here
      cases found.symm.trans there
      cases tree with
      | directory entries => exact .inr ⟨entries, rfl⟩
      | file bytes => cases same
      | link target => cases same

theorem link (grows : Grows before after) {place : Place} {target : String}
    (found : before.get? place = some (.link target)) : after.get? place = some (.link target) := by
  obtain ⟨grown, there, same⟩ := grows place _ found
  cases grown with
  | link other =>
      cases same
      exact there
  | file bytes => cases same
  | directory entries => cases same

theorem solid (grows : Grows before after) {place : Place} {tree : FileTree}
    (found : before.get? place = some tree) (plain : ∀ path, tree ≠ .link path) :
    ∃ grown, after.get? place = some grown ∧ ∀ path, grown ≠ .link path := by
  obtain ⟨grown, there, same⟩ := grows place _ found
  refine ⟨grown, there, fun path link => ?_⟩
  subst link
  cases tree with
  | link other => exact plain other rfl
  | file bytes => cases same
  | directory entries => cases same

/-- Growth goes on inside the entries of a directory. -/
theorem child {entries more : List (String × FileTree)} {name : String} {old new : FileTree}
    (grows : Grows (.directory entries) (.directory more)) (before : entries.lookup name = some old)
    (after : more.lookup name = some new) : Grows old new := by
  intro place tree found
  have inside := grows (name :: place) tree (by simpa [get?, child?, before] using found)
  simpa [get?, child?, after] using inside

/-- A new entry, or a file in the place of another, leaves the rest as it is. -/
theorem put {tree entry : FileTree} {place : Place}
    (free : ∀ old, tree.get? place = some old → old.isFile = true ∧ entry.isFile = true) :
    Grows tree (tree.put place entry) := by
  induction place generalizing tree with
  | nil =>
      obtain ⟨old, new⟩ := free tree rfl
      cases tree with
      | directory entries => cases old
      | link target => cases old
      | file bytes =>
          cases entry with
          | directory entries => cases new
          | link target => cases new
          | file other =>
              intro query found here
              cases query with
              | nil =>
                  cases here
                  exact ⟨_, rfl, rfl⟩
              | cons name query => cases here
  | cons name place ih =>
      cases tree with
      | file bytes => exact refl _
      | link target => exact refl _
      | directory entries =>
          intro query found here
          cases query with
          | nil =>
              cases here
              exact ⟨_, rfl, rfl⟩
          | cons step query =>
              by_cases same : step = name
              · subst same
                obtain ⟨_, child, shape, known, inside⟩ := get?_cons_eq_some here
                cases shape
                have deeper : Grows child (child.put place entry) :=
                  ih fun old there => free old (by simpa [get?, child?, known] using there)
                simpa [FileTree.put, get?, child?, known] using deeper query
                  found inside
              · refine ⟨found, ?_, rfl⟩
                simpa [FileTree.put, get?, child?, same] using here

end Grows

/-- A new entry is found where it was put, if its directory is there later on. -/
theorem get?_put_of_grows {tree after : FileTree} {place : Place}
    {entries : List (String × FileTree)} (grows : Grows tree after)
    (there : after.get? place = some (.directory entries)) (name : String) (entry : FileTree) :
    (tree.put (place ++ [name]) entry).get? (place ++ [name]) = some entry := by
  induction place generalizing tree after with
  | nil =>
      cases there
      obtain ⟨grown, here, same⟩ := grows [] tree rfl
      cases here
      cases tree with
      | directory old => simp [FileTree.put, get?, child?]
      | file bytes => cases same
      | link target => cases same
  | cons step place ih =>
      obtain ⟨more, child, rfl, known, inside⟩ := get?_cons_eq_some there
      obtain ⟨grown, here, same⟩ := grows [] tree rfl
      cases here
      cases tree with
      | file bytes => cases same
      | link target => cases same
      | directory old =>
          have deeper : Grows ((old.lookup step).getD (.directory [])) child := by
            cases before : old.lookup step with
            | some first => exact grows.child before known
            | none =>
                obtain ⟨inner, top⟩ := root_directory inside
                cases top
                intro query found here
                cases query with
                | nil =>
                    cases here
                    exact ⟨_, rfl, rfl⟩
                | cons next query => cases here
          simpa [FileTree.put, get?, child?] using ih deeper inside

theorem get?_of_bare {tree : FileTree} {place : Place}
    (bare : tree.get? place = none ∨ tree.get? place = some (.directory [])) (name : String) :
    tree.get? (place ++ [name]) = none := by
  rcases bare with missing | empty
  · rw [get?_append, missing, Option.bind_none]
  · rw [get?_entry empty, List.lookup_nil]

/-- A directory that was made for its first entry, or had none before, holds nothing else. -/
theorem entries_put_of_bare {tree entry : FileTree} {place : Place} {name : String}
    {entries : List (String × FileTree)}
    (bare : tree.get? place = none ∨ tree.get? place = some (.directory []))
    (there : (tree.put (place ++ [name]) entry).get? place = some (.directory entries)) :
    entries = [(name, entry)] := by
  induction place generalizing tree with
  | nil =>
      rcases bare with missing | empty
      · cases missing
      · cases empty
        cases there
        rfl
  | cons step place ih =>
      obtain ⟨_, child, shape, known, inside⟩ := get?_cons_eq_some there
      cases tree with
      | file bytes => cases shape
      | link target => cases shape
      | directory old =>
          cases shape
          rw [lookup_insertEntry, if_pos rfl] at known
          cases known
          refine ih ?_ inside
          cases before : old.lookup step with
          | some first => simpa [get?, child?, before] using bare
          | none =>
              cases place with
              | nil => exact .inr rfl
              | cons next place => exact .inl rfl

theorem Writable.grows {tree : FileTree} {place : Place} (writable : Writable tree place)
    (bytes : ByteArray) :
    Grows tree (tree.put place (.file bytes)) := by
  refine Grows.put fun old found => ?_
  rcases writable.get?_eq with missing | ⟨bytes, file⟩
  · rw [missing] at found
    cases found
  · rw [file] at found
    cases found
    exact ⟨rfl, rfl⟩

end SourceAtlas.FileTree
