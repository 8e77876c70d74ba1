import FilterLang.Filter.Scalar
import FilterLang.Vocabulary.Key

/-!
# Filter trees

A filter is a tree of scalars, mappings, multisets and sequences. A mapping binds distinct keys to
trees and remembers the order in which the keys came. A multiset holds pairwise unequal trees in the
order in which they were first seen. A sequence is an array as it was read, before its duplicates
are dropped.

`Node.equal` compares trees up to the order of mapping entries and of multiset elements, at every
depth.
-/

namespace FilterLang

/-- A filter tree. -/
inductive Node where
  | scalar (value : Scalar)
  | mapping (entries : List (Key × Node))
  | multiset (elements : List Node)
  | sequence (items : List Node)

/-- The entries of a mapping, in order. -/
abbrev Entries := List (Key × Node)

/-- The elements of a multiset, in order. -/
abbrev Elements := List Node

/-- The four kinds of node. -/
inductive NodeKind where
  | scalar
  | mapping
  | multiset
  | sequence
  deriving DecidableEq

/-- A kind of node, as messages name it. -/
def NodeKind.name : NodeKind → String
  | .scalar => "scalar"
  | .mapping => "mapping"
  | .multiset => "multiset"
  | .sequence => "sequence"

namespace Entries

/-- The value bound to a key. -/
def get? (key : Key) : Entries → Option Node
  | [] => none
  | (k, value) :: rest => if k = key then some value else get? key rest

/-- Whether a key is bound. -/
def has (key : Key) (entries : Entries) : Bool := (get? key entries).isSome

/-- Binds a key to a value. A key that is bound keeps its place and a new key goes to the end. -/
def insert (key : Key) (value : Node) : Entries → Entries
  | [] => [(key, value)]
  | (k, v) :: rest => if k = key then (k, value) :: rest else (k, v) :: insert key value rest

/-- Binds a key to a value, and gives the value that it was bound to before. -/
def exchange (key : Key) (value : Node) : Entries → Option Node × Entries
  | [] => (none, [(key, value)])
  | (k, v) :: rest =>
    if k = key then (some v, (k, value) :: rest)
    else
      let (previous, rest) := exchange key value rest
      (previous, (k, v) :: rest)

theorem exchange_eq (key : Key) (value : Node) (entries : Entries) :
    exchange key value entries = (get? key entries, insert key value entries) := by
  induction entries with
  | nil => rfl
  | cons entry rest ih =>
      rcases entry with ⟨k, v⟩
      by_cases same : k = key
      · simp [exchange, get?, insert, same]
      · simp [exchange, get?, insert, same, ih]

/-- The entries that result from binding keys one after the other. -/
def ofList (pairs : List (Key × Node)) : Entries :=
  pairs.foldl (fun entries pair => insert pair.1 pair.2 entries) []

/-- The value bound to an operator. -/
def operator? (op : Operator) : Entries → Option Node
  | [] => none
  | (key, value) :: rest => if key.operator? = some op then some value else operator? op rest

theorem operator?_eq_get? (op : Operator) (entries : Entries) :
    operator? op entries = get? (.operator op) entries := by
  induction entries with
  | nil => rfl
  | cons entry rest ih =>
      rcases entry with ⟨key, value⟩
      cases key <;> simp [operator?, get?, Key.operator?, ih]

/-- The value bound to a field. -/
def field? (name : String) : Entries → Option Node
  | [] => none
  | (key, value) :: rest => if key.field? = some name then some value else field? name rest

theorem field?_eq_get? (name : String) (entries : Entries) :
    field? name entries = get? (.field name) entries := by
  induction entries with
  | nil => rfl
  | cons entry rest ih =>
      rcases entry with ⟨key, value⟩
      cases key <;> simp [field?, get?, Key.field?, ih]

/-- The keys in order. -/
def keys (entries : Entries) : List Key := entries.map (·.1)

/-- The spellings of the keys in order. -/
def keyNames (entries : Entries) : List String := entries.map (·.1.name)

/-- The mapping with the same keys and the results of a function on every value, or the first
error. -/
def traverse {ε : Type} (f : Node → Except ε Node) (entries : Entries) : Except ε Entries :=
  entries.mapM fun entry => (f entry.2).map (Prod.mk entry.1)

end Entries

namespace Node

mutual

/-- Equality up to the order of mapping entries and of multiset elements. -/
def equal : Node → Node → Bool
  | .scalar first, .scalar second => first == second
  | .mapping first, .mapping second =>
    first.length == second.length && entriesWithin first second
  | .multiset first, .multiset second =>
    first.length == second.length && elementsWithin first second
  | .sequence first, .sequence second => itemsEqual first second
  | _, _ => false
termination_by structural node => node

/-- Whether every entry of the first mapping has an equal value in the second. -/
def entriesWithin : Entries → Entries → Bool
  | [], _ => true
  | (key, value) :: rest, others =>
    (match Entries.get? key others with
      | some other => equal value other
      | none => false)
      && entriesWithin rest others
termination_by structural entries => entries

/-- Whether every element of the first multiset equals one of the second. -/
def elementsWithin : Elements → Elements → Bool
  | [], _ => true
  | element :: rest, others => others.any (equal element) && elementsWithin rest others
termination_by structural elements => elements

/-- Whether two sequences have equal items in the same order. -/
def itemsEqual : List Node → List Node → Bool
  | [], [] => true
  | item :: rest, other :: others => equal item other && itemsEqual rest others
  | _, _ => false
termination_by structural items => items

end

/-- The kind of a node. -/
def kind : Node → NodeKind
  | .scalar _ => .scalar
  | .mapping _ => .mapping
  | .multiset _ => .multiset
  | .sequence _ => .sequence

/-- Whether a node has nodes inside. -/
def isComposite : Node → Bool
  | .scalar _ => false
  | _ => true

/-- Whether a node is a mapping. -/
def isMapping : Node → Bool
  | .mapping _ => true
  | _ => false

/-- The scalar of a scalar node. -/
def scalar? : Node → Option Scalar
  | .scalar value => some value
  | _ => none

/-- The entries of a mapping. -/
def entries? : Node → Option Entries
  | .mapping entries => some entries
  | _ => none

/-- The elements of a multiset. -/
def elements? : Node → Option Elements
  | .multiset elements => some elements
  | _ => none

end Node

namespace Elements

/-- Whether an equal element is present. -/
def contains (value : Node) (elements : Elements) : Bool := elements.any (Node.equal value)

/-- Adds a value at the end, unless an equal element is present. -/
def insert (value : Node) (elements : Elements) : Elements :=
  if contains value elements then elements else elements ++ [value]

/-- Adds a value unless an equal element is present, and tells whether it was added. -/
def add (value : Node) (elements : Elements) : Bool × Elements :=
  if contains value elements then (false, elements) else (true, elements ++ [value])

theorem add_eq (value : Node) (elements : Elements) :
    add value elements = (!contains value elements, insert value elements) := by
  by_cases present : contains value elements = true
  · simp [add, insert, present]
  · simp [add, insert, present]

/-- The first of each group of equal values, in order. -/
def ofList (values : List Node) : Elements :=
  values.foldl (fun elements value => insert value elements) []

/-- The multiset of the results of a function on every element, or the first error. -/
def traverse {ε : Type} (f : Node → Except ε Node) (elements : Elements) : Except ε Elements := do
  .ok (ofList (← elements.mapM f))

end Elements

namespace Node

/-- The mapping with one entry. -/
def entry (key : Key) (value : Node) : Node := .mapping [(key, value)]

/-- The conjunction of clauses. -/
def and (clauses : List Node) : Node := entry (.operator .and) (.multiset (Elements.ofList clauses))

/-- The disjunction of clauses. -/
def or (clauses : List Node) : Node := entry (.operator .or) (.multiset (Elements.ofList clauses))

/-- The filter that constrains nothing. -/
def empty : Node := .mapping []

mutual

/-- Replaces every sequence by the multiset of its items, from the leaves up. Mappings and multisets
are built anew from what they hold. -/
def lift : Node → Node
  | .scalar value => .scalar value
  | .mapping entries => .mapping (Entries.ofList (liftEntries entries))
  | .multiset elements => .multiset (Elements.ofList (liftAll elements))
  | .sequence items => .multiset (Elements.ofList (liftAll items))
termination_by structural node => node

/-- Lifts the values of a mapping. -/
def liftEntries : Entries → Entries
  | [] => []
  | (key, value) :: rest => (key, lift value) :: liftEntries rest
termination_by structural entries => entries

/-- Lifts each node of a list. -/
def liftAll : List Node → List Node
  | [] => []
  | node :: rest => lift node :: liftAll rest
termination_by structural nodes => nodes

end

end Node

end FilterLang
