import Polyglot.Pattern.Size
import Polyglot.Pattern.Template
import Polyglot.Pattern.Token

/-!
Reading written patterns. The tokens are folded over a stack of open groups, so that every token is
handled once; `Matcher` keeps the pattern together with its text and the names of its groups.

A pattern may be nested only so deep: groups, repetitions, classes in brackets, sequences and
alternatives each count as one level.
-/

namespace Polyglot

namespace Pattern

/-- A form, and how deep it is nested. -/
structure Nested where
  form : Form
  depth : Nat := 0
  deriving DecidableEq, Repr

/-- A sequence under construction: the items read so far, the latest first. A switch of flags is an
item of its own that cannot be repeated. -/
abbrev Items := List (Option Nested)

/-- Two or more forms together are one level deeper than the deepest of them. -/
def levelOver (depths : List Nat) : Nat :=
  let deepest := depths.foldl max 0
  if 2 ≤ depths.length then deepest + 1 else deepest

def Items.toNested (items : Items) : Nested :=
  ⟨.join (items.reverse.filterMap fun item => item.map Nested.form),
    levelOver (items.map fun item => item.elim 0 Nested.depth)⟩

/-- A group that has been opened and not yet left: its number if it remembers its text, and what
stood around it. -/
structure OpenGroup where
  index : Option Nat
  branches : List Nested
  items : Items
  deriving DecidableEq, Repr

/-- A pattern under construction. -/
structure Draft where
  outer : List OpenGroup := []
  /-- The alternatives before the current one, the latest first. -/
  branches : List Nested := []
  items : Items := []
  /-- The number of groups that remember their text. -/
  groups : Nat := 0
  names : List (List Char × Nat) := []
  deriving DecidableEq, Repr

namespace Draft

def add (d : Draft) (f : Form) (depth : Nat := 0) : Draft :=
  { d with items := some ⟨f, depth⟩ :: d.items }

/-- The alternatives read in the current group. -/
def body (d : Draft) : Nested :=
  let branches := (d.items.toNested :: d.branches).reverse
  ⟨.choose (branches.foldl (fun parts b => parts + b.form.parts.length) 0)
    (branches.map Nested.form), levelOver (branches.map Nested.depth)⟩

def enter (d : Draft) (index : Option Nat) : Draft :=
  { d with
    outer := ⟨index, d.branches, d.items⟩ :: d.outer
    branches := []
    items := [] }

def atom (a : Atom) : Form :=
  match a with
  | .literal c => .text [c]
  | .set s => .ofSet s
  | .test l => .look l

def step (d : Draft) : Token → Except Flaw Draft
  | .atom a => .ok (d.add (atom a))
  | .bracket s depth => .ok (d.add (.ofSet s) depth)
  | .bar => .ok { d with branches := d.items.toNested :: d.branches, items := [] }
  | .quantity min max greedy =>
    match d.items with
    | some ⟨f, depth⟩ :: items =>
      .ok { d with items := some ⟨f.times min max greedy, depth + 1⟩ :: items }
    | _ => .error .nothingToRepeat
  | .capture name =>
    match name with
    | none => .ok { d.enter (some (d.groups + 1)) with groups := d.groups + 1 }
    | some name =>
      if (d.names.lookup name).isSome then .error .duplicateName
      else .ok { d.enter (some (d.groups + 1)) with
        groups := d.groups + 1
        names := d.names ++ [(name, d.groups + 1)] }
  | .plain _ => .ok (d.enter none)
  | .leave =>
    match d.outer with
    | [] => .error .unopenedGroup
    | g :: outer =>
      let inner := d.body
      let form := match g.index with
        | some index => .group index inner.form
        | none => inner.form
      .ok { d with
        outer := outer
        branches := g.branches
        items := some ⟨form, inner.depth + 1⟩ :: g.items }
  | .switch _ => .ok { d with items := none :: d.items }

/-- The deepest nesting. -/
def maxDepth : Nat := 250

/-- The finished form, when every group has been left. -/
def finish (d : Draft) : Except Flaw Form :=
  if d.outer.isEmpty then
    let whole := d.body
    if maxDepth < whole.depth then .error .tooDeep
    else if whole.form.fits then .ok whole.form
    else .error .tooLarge
  else .error .unclosedGroup

end Draft

/-- The pattern that a text spells, and the numbers of its named groups. -/
def ofSource (s : List Char) : Except Flaw (Pattern × List (List Char × Nat)) := do
  let draft ← (← tokens s).foldlM Draft.step {}
  return ((← draft.finish).toPattern, draft.names)

/-- Spells a text so that the pattern matches exactly that text. -/
def quoteChars (s : List Char) : List Char :=
  s.flatMap fun c => if isMeta c then ['\\', c] else [c]

def quote (s : String) : String :=
  String.ofList (quoteChars s.toList)

end Pattern

/-- A pattern together with its text and the numbers of its named groups. -/
structure Matcher where
  source : String
  pattern : Pattern
  names : List (List Char × Nat)
  deriving DecidableEq, Repr

namespace Matcher

def ofSource (s : String) : Except Pattern.Flaw Matcher := do
  let (pattern, names) ← Pattern.ofSource s.toList
  return ⟨s, pattern, names⟩

def isMatch (m : Matcher) (s : String) : Bool :=
  m.pattern.isMatch s.toList

/-- Replaces every match by what the template makes of it. -/
def replaceAll (m : Matcher) (template : List Template.Part) (s : List Char) : List Char :=
  m.pattern.replaceAll (Template.expand m.names template) s

def replaceFirst (m : Matcher) (template : List Template.Part) (s : List Char) : List Char :=
  m.pattern.replaceFirst (Template.expand m.names template) s

end Matcher

end Polyglot
