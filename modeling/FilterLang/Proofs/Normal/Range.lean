import FilterLang.Normal.Range
import FilterLang.Proofs.Filter.Equality

/-!
# The passes over ranges

Both passes walk over a tree once and compute the results of all entries before they choose among
them. This file states what each makes of a mapping and of a multiset in terms of traversals, lists
the ways in which it succeeds on a mapping (`Node.ExpandsRange`, `Node.ComparesRange`), and proves
that it makes proper trees of proper trees and that the second one keeps a tree without ranges
(`Node.RangeFree`). No other file opens these passes.
-/

namespace FilterLang

namespace Entries

theorem lookup_map {α : Type} (g : Node → α) (key : Key) (entries : Entries) :
    (entries.map fun entry => (entry.1, g entry.2)).lookup key = (get? key entries).map g := by
  induction entries with
  | nil => rfl
  | cons entry rest ih =>
      rcases entry with ⟨first, value⟩
      by_cases same : first = key
      · simp [get?, same]
      · have different : (key == first) = false := by simpa using Ne.symm same
        simpa [List.lookup_cons, different, get?, same] using ih

/-- The bounds of a mapping that holds both. -/
def bounds? (entries : Entries) : Option (Node × Node) :=
  (entries.operator? .start).bind fun start => (entries.operator? .stop).map (Prod.mk start)

theorem bounds?_eq_some {entries : Entries} {start stop : Node} :
    entries.bounds? = some (start, stop) ↔
      get? (.operator .start) entries = some start ∧
        get? (.operator .stop) entries = some stop := by
  simp [bounds?, operator?_eq_get?, Option.bind_eq_some_iff]

theorem bounds?_eq_none_of_absent {entries : Entries}
    (notBoth : .operator .start ∈ keys entries → .operator .stop ∉ keys entries) :
    entries.bounds? = none := by
  cases bounded : entries.bounds? with
  | none => rfl
  | some bounds =>
      rcases bounds?_eq_some.mp bounded with ⟨start, stop⟩
      exact absurd (mem_keys_of_get? stop) (notBoth (mem_keys_of_get? start))

/-- A mapping that holds nothing but bounds holds the two bounds that are found in it. -/
theorem eq_bound_of_alone {entries : Entries} {start stop : Node} (distinct : (keys entries).Nodup)
    (bounded : entries.bounds? = some (start, stop))
    (alone : ∀ key ∈ keys entries, key = .operator .start ∨ key = .operator .stop)
    {entry : Key × Node} (present : entry ∈ entries) :
    entry = (.operator .start, start) ∨ entry = (.operator .stop, stop) := by
  rcases entry with ⟨key, value⟩
  rcases bounds?_eq_some.mp bounded with ⟨foundStart, foundStop⟩
  have found := get?_of_mem distinct present
  rcases alone key (List.mem_map_of_mem present) with rfl | rfl
  · rw [foundStart, Option.some.injEq] at found
    exact .inl (by rw [found])
  · rw [foundStop, Option.some.injEq] at found
    exact .inr (by rw [found])

/-- Mappings that bind the bounds to related values have related bounds. -/
theorem bounds?_rel {relation : Node → Node → Prop} {entries others : Entries}
    (start : Option.Rel relation (get? (.operator .start) entries)
      (get? (.operator .start) others))
    (stop : Option.Rel relation (get? (.operator .stop) entries)
      (get? (.operator .stop) others)) :
    Option.Rel (fun bounds others => relation bounds.1 others.1 ∧ relation bounds.2 others.2)
      entries.bounds? others.bounds? := by
  simp only [bounds?, operator?_eq_get?]
  cases foundStart : get? (.operator .start) entries with
  | none =>
      rw [foundStart] at start
      rw [eq_none_of_rel start]
      exact .none
  | some first =>
      rw [foundStart] at start
      rcases exists_of_rel start with ⟨firstOther, foundOther, sameStart⟩
      rw [foundOther]
      cases foundStop : get? (.operator .stop) entries with
      | none =>
          rw [foundStop] at stop
          rw [eq_none_of_rel stop]
          exact .none
      | some second =>
          rw [foundStop] at stop
          rcases exists_of_rel stop with ⟨secondOther, foundStopOther, sameStop⟩
          rw [foundStopOther]
          exact .some ⟨sameStart, sameStop⟩

theorem bounds?_singleton (key : Key) (value : Node) : bounds? [(key, value)] = none := by
  by_cases start : key = .operator .start
  · subst start
    rfl
  · simp [bounds?, operator?_eq_get?, get?, start]

theorem among?_map (g : Node → Except Fault Node) (entries : Entries) :
    Bounds.among? (entries.map fun entry => (entry.1, g entry.2)) =
      entries.bounds?.map fun bounds => ⟨g bounds.1, g bounds.2⟩ := by
  simp only [Bounds.among?, lookup_map, bounds?, operator?_eq_get?]
  cases get? (.operator .start) entries <;> cases get? (.operator .stop) entries <;> rfl

theorem collect_map (g : Node → Except Fault Node) (entries : Entries) :
    collect (entries.map fun entry => (entry.1, g entry.2)) = traverse g entries := by
  induction entries with
  | nil => rfl
  | cons entry rest ih =>
      rw [List.map_cons, collect, ih]
      simp only [traverse, List.mapM_cons]
      cases g entry.2 <;> rfl

end Entries

theorem Bounds.bind_eq_ok {bounds : Bounds} {lower upper : Operator} {result : Node} :
    bounds.bind lower upper = .ok result ↔
      ∃ start stop, bounds.start = .ok start ∧ bounds.stop = .ok stop ∧
        result = .mapping [(.operator lower, start), (.operator upper, stop)] := by
  rcases bounds with ⟨start, stop⟩
  cases start <;> cases stop <;> simp [Bounds.bind, Bind.bind, Except.bind, eq_comm]

theorem Bounds.error_of_bind {bounds : Bounds} {lower upper : Operator} {fault : Fault}
    (fails : bounds.bind lower upper = .error fault) :
    bounds.start = .error fault ∨ bounds.stop = .error fault := by
  rcases bounds with ⟨start, stop⟩
  rcases bind_eq_error.mp fails with startFails | ⟨_, _, rest⟩
  · exact .inl startFails
  · rcases bind_eq_error.mp rest with stopFails | ⟨_, _, impossible⟩
    · exact .inr stopFails
    · cases impossible

namespace Node

theorem expandRangeEntries_eq_map (entries : Entries) :
    expandRangeEntries entries = entries.map fun entry => (entry.1, expandRange entry.2) := by
  induction entries with
  | nil => rfl
  | cons entry rest ih =>
      rcases entry with ⟨key, value⟩
      rw [expandRangeEntries, ih, List.map_cons]

theorem expandRangeAll_eq_mapM (elements : Elements) :
    expandRangeAll elements = elements.mapM expandRange := by
  induction elements with
  | nil => rfl
  | cons element rest ih =>
      rw [expandRangeAll, ih, List.mapM_cons]
      rfl

@[simp]
theorem expandRange_sequence (items : List Node) :
    expandRange (.sequence items) = .error (.rawSequence .impliedRange) := rfl

theorem expandRange_of_bounds {entries : Entries} {start stop : Node}
    (bounded : entries.bounds? = some (start, stop)) :
    expandRange (.mapping entries) =
      (Bounds.bind ⟨expandRange start, expandRange stop⟩ .start .stop).map
        (entry (.operator .between)) := by
  simp only [expandRange, expandRangeEntries_eq_map, Entries.among?_map, bounded, Option.map_some]
  exact bind_ok_eq_map

theorem expandRange_of_unbounded {entries : Entries} (unbounded : entries.bounds? = none) :
    expandRange (.mapping entries) = (Entries.traverse expandRange entries).map .mapping := by
  simp only [expandRange, expandRangeEntries_eq_map, Entries.among?_map, unbounded,
    Option.map_none, Entries.collect_map]
  exact bind_ok_eq_map

theorem expandRange_entry (key : Key) (value : Node) :
    expandRange (entry key value) = (expandRange value).map (entry key) := by
  rw [entry, expandRange_of_unbounded (Entries.bounds?_singleton key value), Entries.traverse]
  cases expanded : expandRange value <;> simp [expanded] <;> rfl

theorem expandRange_multiset (elements : Elements) :
    expandRange (.multiset elements) =
      (Elements.traverse expandRange elements).map .multiset := by
  simp only [expandRange, expandRangeAll_eq_mapM, Elements.traverse]
  cases elements.mapM expandRange <;> rfl

/-- The bounds of the range that a mapping holds under `between`. -/
def range? (node : Node) : Option (Node × Node) :=
  (node.entries?.bind (Entries.operator? .between)).bind fun range =>
    range.entries?.bind Entries.bounds?

theorem range?_eq_some {node start stop : Node} :
    node.range? = some (start, stop) ↔
      ∃ entries bounds : Entries, node = .mapping entries ∧
        Entries.get? (.operator .between) entries = some (.mapping bounds) ∧
        bounds.bounds? = some (start, stop) := by
  constructor
  · intro range
    rcases Option.bind_eq_some_iff.mp range with ⟨inner, between, bounded⟩
    rcases Option.bind_eq_some_iff.mp between with ⟨entries, mapping, found⟩
    rcases Option.bind_eq_some_iff.mp bounded with ⟨bounds, innerMapping, both⟩
    cases node <;> simp [entries?] at mapping
    cases inner <;> simp [entries?] at innerMapping
    subst mapping innerMapping
    rw [Entries.operator?_eq_get?] at found
    exact ⟨_, _, rfl, found, both⟩
  · rintro ⟨entries, bounds, rfl, found, both⟩
    simp [range?, entries?, Entries.operator?_eq_get?, found, both]

theorem range?_eq_none_of_absent {entries : Entries}
    (absent : .operator .between ∉ Entries.keys entries) : range? (.mapping entries) = none := by
  cases range : range? (.mapping entries) with
  | none => rfl
  | some bounds =>
      rcases range?_eq_some.mp range with ⟨_, inner, same, between, _⟩
      cases same
      exact absurd (Entries.mem_keys_of_get? between) absent

/-- The bounds of a range stand inside it. -/
theorem within_of_range {node start stop : Node} (range : node.range? = some (start, stop)) :
    Within start node ∧ Within stop node := by
  rcases range?_eq_some.mp range with ⟨entries, bounds, rfl, between, both⟩
  rcases Entries.bounds?_eq_some.mp both with ⟨first, second⟩
  have inside : ∀ {key : Key} {bound : Node}, Entries.get? key bounds = some bound →
      Within bound (.mapping entries) := by
    intro key bound found
    exact .entry (Entries.mem_of_get? between) (.entry (Entries.mem_of_get? found) .here)
  exact ⟨inside first, inside second⟩

/-- Two pairs of bounds are equal, bound by bound. -/
def SameBounds (bounds others : Node × Node) : Prop :=
  SameTree bounds.1 others.1 ∧ SameTree bounds.2 others.2

theorem bounds?_of_equal {entries others : Entries}
    (same : SameTree (.mapping entries) (.mapping others)) :
    Option.Rel SameBounds entries.bounds? others.bounds? :=
  Entries.bounds?_rel (get?_of_equal same _) (get?_of_equal same _)

theorem entries?_bounds?_of_equal {node other : Node} (same : SameTree node other) :
    Option.Rel SameBounds (node.entries?.bind Entries.bounds?)
      (other.entries?.bind Entries.bounds?) := by
  cases node with
  | mapping bounds =>
      rcases exists_mapping_of_equal same.2 with ⟨otherBounds, rfl⟩
      exact bounds?_of_equal same
  | scalar value =>
      have identical := eq_scalar_of_equal same.2
      subst identical
      exact .none
  | multiset elements =>
      rcases exists_multiset_of_equal same.2 with ⟨others, rfl⟩
      exact .none
  | sequence items =>
      rcases exists_sequence_of_equal same.2 with ⟨others, rfl⟩
      exact .none

/-- What the pass over ranges makes of the value of an entry. -/
def compareValue (node : Node) : Except Fault Node := node.rangeForms.value

theorem rangeFormsOf_eq_map (entries : Entries) :
    rangeFormsOf entries = entries.map fun entry => (entry.1, rangeForms entry.2) := by
  induction entries with
  | nil => rfl
  | cons entry rest ih =>
      rcases entry with ⟨key, value⟩
      rw [rangeFormsOf, ih, List.map_cons]

theorem compareRangeAll_eq_mapM (elements : Elements) :
    compareRangeAll elements = elements.mapM compareRange := by
  induction elements with
  | nil => rfl
  | cons element rest ih =>
      rw [compareRangeAll, ih, List.mapM_cons]
      rfl

@[simp]
theorem compareRange_sequence (items : List Node) :
    compareRange (.sequence items) = .error (.rawSequence .rangeComparison) := rfl

theorem rangeForms_bounds (node : Node) :
    node.rangeForms.bounds = (node.entries?.bind Entries.bounds?).map fun bounds =>
      ⟨compareRange bounds.1, compareRange bounds.2⟩ := by
  cases node with
  | mapping entries =>
      simp only [rangeForms, rangeFormsOf_eq_map, RangeForms.ofEntries, List.map_map,
        Function.comp_def]
      exact Entries.among?_map compareRange entries
  | _ => simp [rangeForms, RangeForms.plain, entries?]

theorem rangeForms_range (node : Node) :
    node.rangeForms.range = node.range?.map fun bounds =>
      ⟨compareRange bounds.1, compareRange bounds.2⟩ := by
  cases node with
  | mapping entries =>
      simp only [rangeForms, rangeFormsOf_eq_map, RangeForms.ofEntries, Entries.lookup_map,
        range?, entries?, Option.bind_some, Entries.operator?_eq_get?]
      cases Entries.get? (.operator .between) entries with
      | none => rfl
      | some range => exact rangeForms_bounds range
  | _ => simp [rangeForms, RangeForms.plain, range?, entries?]

theorem compareValue_of_range {node start stop : Node} (range : node.range? = some (start, stop)) :
    compareValue node = Bounds.bind ⟨compareRange start, compareRange stop⟩ .gte .lte := by
  simp [compareValue, RangeForms.value, rangeForms_range, range]

theorem compareValue_of_none {node : Node} (plain : node.range? = none) :
    compareValue node = compareRange node := by
  simp [compareValue, RangeForms.value, rangeForms_range, plain, compareRange]

theorem compareRange_mapping (entries : Entries) :
    compareRange (.mapping entries) = (Entries.traverse compareValue entries).map .mapping := by
  simp only [compareRange, rangeForms, rangeFormsOf_eq_map, RangeForms.ofEntries, List.map_map,
    Function.comp_def]
  rw [← Entries.collect_map]
  exact bind_ok_eq_map

theorem compareRange_entry (key : Key) (value : Node) :
    compareRange (entry key value) = (compareValue value).map (entry key) := by
  rw [entry, compareRange_mapping, Entries.traverse]
  cases compared : compareValue value <;> simp [compared] <;> rfl

theorem compareRange_multiset (elements : Elements) :
    compareRange (.multiset elements) =
      (Elements.traverse compareRange elements).map .multiset := by
  simp only [compareRange, rangeForms, RangeForms.plain, compareRangeAll_eq_mapM,
    Elements.traverse]
  cases elements.mapM compareRange <;> rfl

theorem expandRange_multiset_eq_ok {elements : Elements} {result : Node} :
    expandRange (.multiset elements) = .ok result ↔
      ∃ values, List.Forall₂ (fun element value => expandRange element = .ok value) elements
        values ∧ result = .multiset (Elements.ofList values) := by
  rw [expandRange_multiset, Elements.map_traverse_eq_ok]

theorem compareRange_multiset_eq_ok {elements : Elements} {result : Node} :
    compareRange (.multiset elements) = .ok result ↔
      ∃ values, List.Forall₂ (fun element value => compareRange element = .ok value) elements
        values ∧ result = .multiset (Elements.ofList values) := by
  rw [compareRange_multiset, Elements.map_traverse_eq_ok]

theorem compareRange_mapping_eq_ok {entries : Entries} {result : Node} :
    compareRange (.mapping entries) = .ok result ↔
      ∃ results, List.Forall₂
        (Entries.Corresponds fun value result => compareValue value = .ok result) entries results ∧
          result = .mapping results := by
  rw [compareRange_mapping, Entries.map_traverse_eq_ok]

/-- What the first pass makes of a mapping: a range of two bounds, or a mapping with the same
keys. -/
inductive ExpandsRange (entries : Entries) : Node → Prop
  | range {start stop lower upper : Node} (bounded : entries.bounds? = some (start, stop))
      (expandedStart : expandRange start = .ok lower)
      (expandedStop : expandRange stop = .ok upper) :
      ExpandsRange entries (entry (.operator .between)
        (.mapping [(.operator .start, lower), (.operator .stop, upper)]))
  | values {results : Entries} (unbounded : entries.bounds? = none)
      (expanded : List.Forall₂
        (Entries.Corresponds fun value result => expandRange value = .ok result) entries results) :
      ExpandsRange entries (.mapping results)

theorem expandRange_mapping_eq_ok {entries : Entries} {result : Node} :
    expandRange (.mapping entries) = .ok result ↔ ExpandsRange entries result := by
  constructor
  · intro expanded
    cases bounds : entries.bounds? with
    | none =>
        rw [expandRange_of_unbounded bounds, Entries.map_traverse_eq_ok] at expanded
        rcases expanded with ⟨results, related, rfl⟩
        exact .values bounds related
    | some pair =>
        rw [expandRange_of_bounds bounds, map_eq_ok] at expanded
        rcases expanded with ⟨range, bound, rfl⟩
        rcases Bounds.bind_eq_ok.mp bound with ⟨lower, upper, first, second, rfl⟩
        exact .range bounds first second
  · intro expands
    cases expands with
    | range bounded expandedStart expandedStop =>
        rw [expandRange_of_bounds bounded, expandedStart, expandedStop]
        rfl
    | values unbounded expanded =>
        rw [expandRange_of_unbounded unbounded, Entries.map_traverse_eq_ok]
        exact ⟨_, expanded, rfl⟩

/-- What the second pass makes of the value of an entry: the comparisons of a range, or what it
makes of the value by itself. -/
inductive ComparesRange (node : Node) : Node → Prop
  | range {start stop lower upper : Node} (range : node.range? = some (start, stop))
      (comparedStart : compareRange start = .ok lower)
      (comparedStop : compareRange stop = .ok upper) :
      ComparesRange node (.mapping [(.operator .gte, lower), (.operator .lte, upper)])
  | plain {result : Node} (plain : node.range? = none) (compared : compareRange node = .ok result) :
      ComparesRange node result

theorem compareValue_eq_ok {node result : Node} :
    compareValue node = .ok result ↔ ComparesRange node result := by
  constructor
  · intro compared
    cases range : node.range? with
    | none =>
        rw [compareValue_of_none range] at compared
        exact .plain range compared
    | some bounds =>
        rw [compareValue_of_range range] at compared
        rcases Bounds.bind_eq_ok.mp compared with ⟨lower, upper, first, second, rfl⟩
        exact .range range first second
  · intro compares
    cases compares with
    | range range comparedStart comparedStop =>
        rw [compareValue_of_range range, comparedStart, comparedStop]
        rfl
    | plain plain compared =>
        rw [compareValue_of_none plain]
        exact compared

/-- The first pass fails on a mapping only if it does so on the value of an entry. -/
theorem exists_expandRange_eq_error {entries : Entries} {fault : Fault}
    (fails : expandRange (.mapping entries) = .error fault) :
    ∃ entry ∈ entries, expandRange entry.2 = .error fault := by
  cases bounds : entries.bounds? with
  | none =>
      rw [expandRange_of_unbounded bounds, map_eq_error] at fails
      exact Entries.exists_of_traverse_eq_error fails
  | some pair =>
      rcases Entries.bounds?_eq_some.mp bounds with ⟨start, stop⟩
      rw [expandRange_of_bounds bounds, map_eq_error] at fails
      rcases Bounds.error_of_bind fails with startFails | stopFails
      · exact ⟨_, Entries.mem_of_get? start, startFails⟩
      · exact ⟨_, Entries.mem_of_get? stop, stopFails⟩

/-- The second pass fails on a mapping only if it does so on a tree inside the value of an entry. -/
theorem exists_compareRange_eq_error {entries : Entries} {fault : Fault}
    (fails : compareRange (.mapping entries) = .error fault) :
    ∃ entry ∈ entries, ∃ inner, Within inner entry.2 ∧ compareRange inner = .error fault := by
  rw [compareRange_mapping, map_eq_error] at fails
  rcases Entries.exists_of_traverse_eq_error fails with ⟨entry, present, valueFails⟩
  refine ⟨entry, present, ?_⟩
  cases range : entry.2.range? with
  | none =>
      rw [compareValue_of_none range] at valueFails
      exact ⟨_, .here, valueFails⟩
  | some bounds =>
      rcases within_of_range range with ⟨start, stop⟩
      rw [compareValue_of_range range] at valueFails
      rcases Bounds.error_of_bind valueFails with startFails | stopFails
      · exact ⟨_, start, startFails⟩
      · exact ⟨_, stop, stopFails⟩

theorem expandRange_proper {node result : Node} (proper : node.Proper)
    (expanded : expandRange node = .ok result) : result.Proper := by
  induction node generalizing result with
  | scalar value =>
      cases expanded
      exact proper
  | mapping entries ih =>
      rw [proper_mapping] at proper
      rcases proper with ⟨distinct, proper⟩
      cases expandRange_mapping_eq_ok.mp expanded with
      | range bounded expandedStart expandedStop =>
          rcases Entries.bounds?_eq_some.mp bounded with ⟨start, stop⟩
          have lower := ih _ (Entries.mem_of_get? start) (proper _ (Entries.mem_of_get? start))
            expandedStart
          have upper := ih _ (Entries.mem_of_get? stop) (proper _ (Entries.mem_of_get? stop))
            expandedStop
          simp [entry, Entries.keys, lower, upper]
      | values _ values =>
          rw [proper_mapping, Entries.keys_eq_of_forall₂ values]
          refine ⟨distinct, ?_⟩
          intro entry present
          rcases exists_source values present with ⟨source, among, _, expandedValue⟩
          exact ih source among (proper source among) expandedValue
  | multiset elements ih =>
      rw [proper_multiset] at proper
      rcases expandRange_multiset_eq_ok.mp expanded with ⟨values, related, rfl⟩
      apply Elements.proper_ofList
      intro value present
      rcases exists_source related present with ⟨source, among, expandedElement⟩
      exact ih source among (proper.2 source among) expandedElement
  | sequence items => simp at expanded

theorem compareRange_proper {node result : Node} (proper : node.Proper)
    (compared : compareRange node = .ok result) : result.Proper := by
  induction node using deepInduction generalizing result with
  | scalar value =>
      cases compared
      exact proper
  | mapping entries ih =>
      rw [proper_mapping] at proper
      rcases proper with ⟨distinct, proper⟩
      rcases compareRange_mapping_eq_ok.mp compared with ⟨results, values, rfl⟩
      rw [proper_mapping, Entries.keys_eq_of_forall₂ values]
      refine ⟨distinct, ?_⟩
      intro entry present
      rcases exists_source values present with ⟨source, among, _, comparedValue⟩
      rcases entry with ⟨key, value⟩
      cases compareValue_eq_ok.mp comparedValue with
      | range range comparedStart comparedStop =>
          rcases within_of_range range with ⟨start, stop⟩
          have lower := ih source among _ start ((proper source among).inside start) comparedStart
          have upper := ih source among _ stop ((proper source among).inside stop) comparedStop
          simp [Entries.keys, lower, upper]
      | plain _ plainCompared =>
          exact ih source among _ .here (proper source among) plainCompared
  | multiset elements ih =>
      rw [proper_multiset] at proper
      rcases compareRange_multiset_eq_ok.mp compared with ⟨values, related, rfl⟩
      apply Elements.proper_ofList
      intro value present
      rcases exists_source related present with ⟨source, among, comparedElement⟩
      exact ih source among _ .here (proper.2 source among) comparedElement
  | sequence items => simp at compared

/-- No value of an entry holds a range, at any depth. -/
def RangeFree (node : Node) : Prop := node.EveryEntry fun entry => entry.2.range? = none

@[simp]
theorem rangeFree_scalar {value : Scalar} : RangeFree (.scalar value) := everyEntry_scalar

@[simp]
theorem rangeFree_mapping {entries : Entries} :
    RangeFree (.mapping entries) ↔
      ∀ entry ∈ entries, entry.2.range? = none ∧ RangeFree entry.2 := everyEntry_mapping

@[simp]
theorem rangeFree_multiset {elements : Elements} :
    RangeFree (.multiset elements) ↔ ∀ element ∈ elements, RangeFree element := everyEntry_multiset

@[simp]
theorem rangeFree_sequence {items : List Node} :
    RangeFree (.sequence items) ↔ ∀ item ∈ items, RangeFree item := everyEntry_sequence

/-- The second pass has nothing to do in a tree without ranges. -/
theorem compareRange_of_rangeFree {node : Node} (proper : node.Proper) (plain : node.RangeFree)
    (free : node.SequenceFree) : compareRange node = .ok node := by
  induction node with
  | scalar value => rfl
  | mapping entries ih =>
      rw [proper_mapping] at proper
      rw [rangeFree_mapping] at plain
      rw [sequenceFree_mapping] at free
      apply compareRange_mapping_eq_ok.mpr
      refine ⟨entries, ?_, rfl⟩
      rw [List.forall₂_same]
      intro entry present
      rcases plain entry present with ⟨noRange, plainValue⟩
      refine ⟨rfl, compareValue_eq_ok.mpr (.plain noRange ?_)⟩
      exact ih entry present (proper.2 entry present) plainValue (free entry present)
  | multiset elements ih =>
      rw [proper_multiset] at proper
      rw [rangeFree_multiset] at plain
      rw [sequenceFree_multiset] at free
      apply compareRange_multiset_eq_ok.mpr
      refine ⟨elements, ?_, by rw [Elements.ofList_of_unequal proper.1]⟩
      rw [List.forall₂_same]
      intro element present
      exact ih element present (proper.2 element present) (plain element present)
        (free element present)
  | sequence items => simp at free

end Node

end FilterLang
