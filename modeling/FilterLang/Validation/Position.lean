import FilterLang.Vocabulary.Key

/-!
# Positions

A position in a filter is the list of steps that lead to it from the root: the key of a mapping
entry or the index of a multiset element. It is written as a path, with dots before the names of
keys and brackets around indexes, as in `and[1].year.gte`; the root is the empty text.
-/

namespace FilterLang

/-- A part of a path. -/
inductive Segment where
  /-- The name of a key. -/
  | key (name : String)
  /-- An index. -/
  | index (index : Nat)
  deriving DecidableEq

namespace Segment

/-- A segment as it is written after other segments. -/
def text : Segment → String
  | .key name => "." ++ name
  | .index n => "[" ++ toString n ++ "]"

/-- A path as it is written. The first key has no dot before it. -/
def pathText : List Segment → String
  | [] => ""
  | .key name :: rest => name ++ String.join (rest.map text)
  | .index n :: rest => String.join ((.index n :: rest).map text)

end Segment

/-- A step into a filter. -/
inductive Step where
  /-- To the value of an entry. -/
  | key (key : Key)
  /-- To an element of a multiset, counted from 0. -/
  | index (index : Nat)
  deriving DecidableEq

/-- What a step is written as. -/
def Step.segment : Step → Segment
  | .key under => .key under.name
  | .index n => .index n

/-- The steps from the root of a filter to a node in it. -/
abbrev Position := List Step

/-- A position as it is written. -/
def Position.text (position : Position) : String :=
  Segment.pathText (position.map Step.segment)

end FilterLang
