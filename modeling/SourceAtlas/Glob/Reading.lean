/- The pattern that a text describes. -/
import SourceAtlas.Glob.Pattern

namespace SourceAtlas.Glob

/-- A character class up to some place in it, its newest range first. -/
structure ClassDraft where
  negated : Bool
  ranges : List (Char × Char) := []
  /-- Nothing of the class was read yet. -/
  isFirst : Bool := true
  /-- A hyphen was read that may extend the newest range. -/
  inRange : Bool := false

namespace ClassDraft

/-- Takes one more character, which does not close the class. After a range, another hyphen
extends that range further. -/
def add (draft : ClassDraft) (c : Char) : Except Fault ClassDraft :=
  if draft.isFirst then .ok { draft with ranges := [(c, c)], isFirst := false }
  else if draft.inRange then
    match draft.ranges with
    | (low, _) :: rest =>
      if c < low then .error (.invalidRange low c)
      else .ok { draft with ranges := (low, c) :: rest, inRange := false }
    | [] => .ok { draft with ranges := [(c, c)], inRange := false }
  else if c = '-' then .ok { draft with inRange := true }
  else .ok { draft with ranges := (c, c) :: draft.ranges }

/-- The class so far; a hyphen at its end stands for itself. -/
def part (draft : ClassDraft) : Part :=
  .oneOf draft.negated (if draft.inRange then ('-', '-') :: draft.ranges else draft.ranges).reverse

end ClassDraft

/-- A pattern up to some place in it. -/
structure Draft where
  /-- The parts of the innermost open alternative, newest first. -/
  parts : List Part := []
  /-- The open groups, innermost first: their earlier alternatives, newest first, and the parts
  that stand before the group. -/
  groups : List (List (List Part) × List Part) := []

namespace Draft

def push (draft : Draft) (part : Part) : Draft := { draft with parts := part :: draft.parts }

def openGroup (draft : Draft) : Draft :=
  { parts := [], groups := ([], draft.parts) :: draft.groups }

/-- A comma divides the alternatives of a group and stands for itself elsewhere. -/
def comma (draft : Draft) : Draft :=
  match draft.groups with
  | [] => draft.push (.char ',')
  | (earlier, before) :: outer =>
    { parts := [], groups := (draft.parts.reverse :: earlier, before) :: outer }

def closeGroup (draft : Draft) : Except Fault Draft :=
  match draft.groups with
  | [] => .error .unopenedGroup
  | (earlier, before) :: outer =>
    .ok { parts := .choice (draft.parts.reverse :: earlier).reverse :: before, groups := outer }

/-- Two stars that have no meaning as a pair. -/
def plainStars (draft : Draft) : Draft := (draft.push .anyBytes).push .anyBytes

/-- Puts a part in the place of the newest one, unless that already stands for any directories. -/
def replace (draft : Draft) (part : Part) : Draft :=
  match draft.parts with
  | .leading :: _ | .trailing :: _ => draft
  | _ :: rest => { draft with parts := part :: rest }
  | [] => draft.push part

/-- Two stars between two characters of the pattern, and whether the one after them belongs
to their part. They stand for directories where slashes or the ends of the alternative set
them off. -/
def doubleStar (draft : Draft) (previous next : Option Char) : Draft × Bool :=
  let inGroup := !draft.groups.isEmpty
  if draft.parts.isEmpty then
    match next with
    | none => (draft.push .leading, false)
    | some '/' => (draft.push .leading, true)
    | some _ => (draft.plainStars, false)
  else if previous = some '/' || inGroup && (previous = some ',' || previous = some '\x7b') then
    match next with
    | none => (draft.replace .trailing, false)
    | some '/' => (draft.replace .between, true)
    | some c =>
      if inGroup && (c = ',' || c = '\x7d') then (draft.replace .trailing, false)
      else (draft.plainStars, false)
  else (draft.plainStars, false)

def finish (draft : Draft) : Except Fault (List Part) :=
  if draft.groups.isEmpty then .ok draft.parts.reverse else .error .unclosedGroup

end Draft

/-- Where reading stands. -/
inductive Mode where
  /-- Outside of classes, after a character. -/
  | plain (previous : Option Char)
  | inClass (draft : ClassDraft)

/-- Reads the rest of a pattern's text. -/
def read : Mode → Draft → List Char → Except Fault (List Part)
  | .inClass _, _, [] => .error .unclosedClass
  | .inClass pending, draft, c :: rest =>
    if c = ']' && !pending.isFirst then read (.plain (some c)) (draft.push pending.part) rest
    else match pending.add c with
      | .ok pending => read (.inClass pending) draft rest
      | .error fault => .error fault
  | .plain _, draft, [] => draft.finish
  | .plain _, draft, '?' :: rest => read (.plain (some '?')) (draft.push .anyByte) rest
  | .plain previous, draft, '*' :: '*' :: '/' :: rest =>
    match draft.doubleStar previous (some '/') with
    | (draft, true) => read (.plain (some '/')) draft rest
    | (draft, false) => read (.plain (some '*')) draft ('/' :: rest)
  | .plain previous, draft, '*' :: '*' :: rest =>
    read (.plain (some '*')) (draft.doubleStar previous rest.head?).1 rest
  | .plain _, draft, '*' :: rest => read (.plain (some '*')) (draft.push .anyBytes) rest
  | .plain _, draft, '[' :: '!' :: rest => read (.inClass { negated := true }) draft rest
  | .plain _, draft, '[' :: '^' :: rest => read (.inClass { negated := true }) draft rest
  | .plain _, draft, '[' :: rest => read (.inClass { negated := false }) draft rest
  | .plain _, draft, '\x7b' :: rest => read (.plain (some '\x7b')) draft.openGroup rest
  | .plain _, draft, '\x7d' :: rest =>
    match draft.closeGroup with
    | .ok draft => read (.plain (some '\x7d')) draft rest
    | .error fault => .error fault
  | .plain _, draft, ',' :: rest => read (.plain (some ',')) draft.comma rest
  | .plain _, _, ['\\'] => .error .danglingEscape
  | .plain _, draft, '\\' :: c :: rest => read (.plain (some c)) (draft.push (.char c)) rest
  | .plain _, draft, c :: rest => read (.plain (some c)) (draft.push (.char c)) rest

/-- The parts of the pattern that a text describes. -/
def parse (text : String) : Except Fault (List Part) := read (.plain none) {} text.toList

end SourceAtlas.Glob
