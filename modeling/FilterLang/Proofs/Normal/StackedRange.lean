import FilterLang.Proofs.Normal.Congruence
import FilterLang.Proofs.Normal.ExplicitRange
import FilterLang.Proofs.Normal.Sequences

/-!
# Ranges as bounds of ranges

The second pass rewrites the value of an entry that holds a range. The bounds of that range become
the values of `gte` and `lte`, but the pass treats each of them as a tree by itself, and in such a
tree it leaves a range at the top where it is. A range with such a bound is therefore rewritten to
comparisons one of which still holds a range, and a second run of the pass finishes the work. This
file says in which trees it happens (`Node.Flat` is the opposite), where the ranges that are left
stand, and that a second run leaves none.
-/

namespace FilterLang

namespace Node

section Results

variable {node result : Node}

/-- The bounds of the range that a tree by itself keeps under `between`: the second pass rewrites the
mapping there only if it holds a range of its own. -/
def keptRange? (node : Node) : Option (Node × Node) :=
  (node.entries?.bind (Entries.operator? .between)).bind fun inner =>
    if inner.range?.isSome then none else inner.entries?.bind Entries.bounds?

/-- The bounds of a result are those that the pass makes of the bounds of the tree. -/
def ComparedBounds (bounds results : Node × Node) : Prop :=
  compareValue bounds.1 = .ok results.1 ∧ compareValue bounds.2 = .ok results.2

theorem range?_mapping (entries : Entries) :
    range? (.mapping entries) = (Entries.get? (.operator .between) entries).bind fun inner =>
      inner.entries?.bind Entries.bounds? := by
  rw [range?, entries?, Option.bind_some, Entries.operator?_eq_get?]

theorem keptRange?_mapping (entries : Entries) :
    keptRange? (.mapping entries) = (Entries.get? (.operator .between) entries).bind fun inner =>
      if inner.range?.isSome then none else inner.entries?.bind Entries.bounds? := by
  rw [keptRange?, entries?, Option.bind_some, Entries.operator?_eq_get?]

theorem keptRange?_eq_none (plain : node.range? = none) : node.keptRange? = none := by
  cases node with
  | mapping entries =>
      rw [range?_mapping, Option.bind_eq_none_iff] at plain
      rw [keptRange?_mapping, Option.bind_eq_none_iff]
      intro inner found
      simp [plain inner found]
  | _ => rfl

theorem bounds?_of_compareRange (compared : compareRange node = .ok result) :
    Option.Rel ComparedBounds (node.entries?.bind Entries.bounds?)
      (result.entries?.bind Entries.bounds?) := by
  cases node with
  | mapping entries =>
      rcases compareRange_mapping_eq_ok.mp compared with ⟨results, values, rfl⟩
      exact Entries.bounds?_rel (Entries.get?_of_forall₂ values _)
        (Entries.get?_of_forall₂ values _)
  | scalar value =>
      cases compared
      exact .none
  | multiset elements =>
      rcases compareRange_multiset_eq_ok.mp compared with ⟨values, _, rfl⟩
      exact .none
  | sequence items => simp at compared

/-- A tree by itself holds a range after the pass exactly if it keeps one. -/
theorem range?_of_compareRange (compared : compareRange node = .ok result) :
    Option.Rel ComparedBounds node.keptRange? result.range? := by
  cases node with
  | mapping entries =>
      rcases compareRange_mapping_eq_ok.mp compared with ⟨results, values, rfl⟩
      have between := Entries.get?_of_forall₂ values (.operator .between)
      rw [keptRange?_mapping, range?_mapping]
      cases found : Entries.get? (.operator .between) entries with
      | none =>
          rw [found] at between
          rw [eq_none_of_rel between]
          exact .none
      | some inner =>
          rw [found] at between
          rcases exists_of_rel between with ⟨innerResult, foundResult, comparedInner⟩
          rw [foundResult]
          cases compareValue_eq_ok.mp comparedInner with
          | range range _ _ =>
              rw [Option.bind_some, range]
              exact .none
          | plain plain comparedPlain =>
              rw [Option.bind_some, plain]
              exact bounds?_of_compareRange comparedPlain
  | scalar value =>
      cases compared
      exact .none
  | multiset elements =>
      rcases compareRange_multiset_eq_ok.mp compared with ⟨values, _, rfl⟩
      exact .none
  | sequence items => simp at compared

theorem range?_eq_none_iff (compared : compareRange node = .ok result) :
    result.range? = none ↔ node.keptRange? = none := by
  rcases cases_of_rel (range?_of_compareRange compared) with
    ⟨kept, range⟩ | ⟨bounds, results, kept, range, _⟩
  · simp [kept, range]
  · simp [kept, range]

theorem range?_eq_none_of_compareValue (compared : compareValue node = .ok result) :
    result.range? = none := by
  cases compareValue_eq_ok.mp compared with
  | range _ _ _ => rfl
  | plain plain comparedPlain =>
      exact (range?_eq_none_iff comparedPlain).mpr (keptRange?_eq_none plain)

theorem bounds_range?_eq_none {start stop : Node} (compared : compareRange node = .ok result)
    (range : result.range? = some (start, stop)) : start.range? = none ∧ stop.range? = none := by
  rcases cases_of_rel (range?_of_compareRange compared) with
    ⟨_, plain⟩ | ⟨bounds, results, _, sameRange, comparedStart, comparedStop⟩
  · simp [plain] at range
  · rw [range, Option.some.injEq] at sameRange
    subst sameRange
    exact ⟨range?_eq_none_of_compareValue comparedStart,
      range?_eq_none_of_compareValue comparedStop⟩

end Results

section Entries

/-- How an entry of a result comes about: under its old key from the value of an entry, or as a
comparison from a bound of a range. -/
inductive ComparedEntry : Key × Node → Prop
  | value (key : Key) {node result : Node} (compared : compareValue node = .ok result) :
      ComparedEntry (key, result)
  | lower {node result : Node} (compared : compareRange node = .ok result) :
      ComparedEntry (.operator .gte, result)
  | upper {node result : Node} (compared : compareRange node = .ok result) :
      ComparedEntry (.operator .lte, result)

theorem compareRange_comparedEntry {node result : Node} (compared : compareRange node = .ok result) :
    result.EveryEntry ComparedEntry := by
  induction node using deepInduction generalizing result with
  | scalar value =>
      cases compared
      exact everyEntry_scalar
  | mapping entries ih =>
      rcases compareRange_mapping_eq_ok.mp compared with ⟨results, values, rfl⟩
      rw [everyEntry_mapping]
      intro entry present
      rcases exists_source values present with ⟨source, among, _, comparedValue⟩
      rcases entry with ⟨key, value⟩
      refine ⟨.value key comparedValue, ?_⟩
      cases compareValue_eq_ok.mp comparedValue with
      | range range comparedStart comparedStop =>
          rcases within_of_range range with ⟨start, stop⟩
          have lower := ih source among _ start comparedStart
          have upper := ih source among _ stop comparedStop
          simp [lower, upper, ComparedEntry.lower comparedStart, ComparedEntry.upper comparedStop]
      | plain _ plainCompared => exact ih source among _ .here plainCompared
  | multiset elements ih =>
      rcases compareRange_multiset_eq_ok.mp compared with ⟨values, related, rfl⟩
      rw [everyEntry_multiset]
      intro element present
      rcases exists_source related (Elements.mem_of_mem_ofList present) with
        ⟨source, among, comparedElement⟩
      exact ih source among _ .here comparedElement
  | sequence items => simp at compared

theorem ComparedEntry.key {entry : Key × Node} (comparedEntry : ComparedEntry entry)
    (range : entry.2.range? ≠ none) :
    entry.1 = .operator .gte ∨ entry.1 = .operator .lte := by
  cases comparedEntry with
  | value key compared => exact absurd (range?_eq_none_of_compareValue compared) range
  | lower _ => exact .inl rfl
  | upper _ => exact .inr rfl

/-- The value of an entry is no range with a bound that holds a range itself. -/
def PlainBounds (entry : Key × Node) : Prop :=
  ∀ start stop, entry.2.range? = some (start, stop) → start.range? = none ∧ stop.range? = none

theorem ComparedEntry.plainBounds {entry : Key × Node} (comparedEntry : ComparedEntry entry) :
    PlainBounds entry := by
  intro start stop range
  cases comparedEntry with
  | value key compared =>
      rw [range?_eq_none_of_compareValue compared] at range
      cases range
  | lower compared => exact bounds_range?_eq_none compared range
  | upper compared => exact bounds_range?_eq_none compared range

end Entries

section Flat

/-- No range that the pass rewrites has a bound that keeps a range. What stands beside the bounds of
a range plays no part, because it is dropped. -/
inductive Flat : Node → Prop
  | scalar (value : Scalar) : Flat (.scalar value)
  | mapping {entries : Entries}
      (plain : ∀ entry ∈ entries, entry.2.range? = none → Flat entry.2)
      (kept : ∀ entry ∈ entries, ∀ start stop, entry.2.range? = some (start, stop) →
        start.keptRange? = none ∧ stop.keptRange? = none)
      (start : ∀ entry ∈ entries, ∀ start stop, entry.2.range? = some (start, stop) → Flat start)
      (stop : ∀ entry ∈ entries, ∀ start stop, entry.2.range? = some (start, stop) → Flat stop) :
      Flat (.mapping entries)
  | multiset {elements : Elements} (each : ∀ element ∈ elements, Flat element) :
      Flat (.multiset elements)
  | sequence (items : List Node) : Flat (.sequence items)

/-- The values of entries in a flat tree: by themselves, or the bounds of a range. -/
def FlatValue (node : Node) : Prop :=
  (node.range? = none → Flat node) ∧
    ∀ start stop, node.range? = some (start, stop) →
      (start.keptRange? = none ∧ Flat start) ∧ stop.keptRange? = none ∧ Flat stop

theorem flatValue_of_none {node : Node} (plain : node.range? = none) :
    FlatValue node ↔ Flat node := by
  simp [FlatValue, plain]

theorem flatValue_of_range {node start stop : Node} (range : node.range? = some (start, stop)) :
    FlatValue node ↔
      (start.keptRange? = none ∧ Flat start) ∧ stop.keptRange? = none ∧ Flat stop := by
  simp [FlatValue, range]

theorem flat_mapping {entries : Entries} :
    Flat (.mapping entries) ↔ ∀ entry ∈ entries, FlatValue entry.2 := by
  constructor
  · intro flat entry present
    cases flat with
    | mapping plain kept start stop =>
        refine ⟨plain entry present, ?_⟩
        intro lower upper range
        rcases kept entry present lower upper range with ⟨keptStart, keptStop⟩
        exact ⟨⟨keptStart, start entry present lower upper range⟩, keptStop,
          stop entry present lower upper range⟩
  · intro values
    constructor
    · intro entry present
      exact (values entry present).1
    · intro entry present start stop range
      rcases (values entry present).2 start stop range with ⟨lower, upper⟩
      exact ⟨lower.1, upper.1⟩
    · intro entry present start stop range
      exact ((values entry present).2 start stop range).1.2
    · intro entry present start stop range
      exact ((values entry present).2 start stop range).2.2

theorem flat_multiset {elements : Elements} :
    Flat (.multiset elements) ↔ ∀ element ∈ elements, Flat element := by
  constructor
  · intro flat
    cases flat with
    | multiset each => exact each
  · exact .multiset

/-- A tree is flat if no bound of a range holds a range itself, as in a filter with scalar bounds. -/
theorem flat_of_plainBounds {node : Node} (bounds : node.EveryEntry PlainBounds) : node.Flat := by
  induction node using deepInduction with
  | scalar value => exact .scalar value
  | mapping values ih =>
      rw [flat_mapping]
      intro entry present
      rcases everyEntry_mapping.mp bounds entry present with ⟨plainBounds, below⟩
      cases range : entry.2.range? with
      | none => exact (flatValue_of_none range).mpr (ih entry present _ .here below)
      | some pair =>
          rcases pair with ⟨start, stop⟩
          rcases within_of_range range with ⟨startWithin, stopWithin⟩
          rcases plainBounds start stop range with ⟨plainStart, plainStop⟩
          have flatStart := ih entry present _ startWithin (below.inside startWithin)
          have flatStop := ih entry present _ stopWithin (below.inside stopWithin)
          exact (flatValue_of_range range).mpr
            ⟨⟨keptRange?_eq_none plainStart, flatStart⟩, keptRange?_eq_none plainStop, flatStop⟩
  | multiset elements ih =>
      rw [flat_multiset]
      intro element present
      exact ih element present _ .here (everyEntry_multiset.mp bounds element present)
  | sequence items => exact .sequence items

theorem rangeFree_of_equal {node other : Node} (same : SameTree node other)
    (plain : node.RangeFree) : other.RangeFree := by
  induction node generalizing other with
  | scalar value =>
      have identical := eq_scalar_of_equal same.2
      subst identical
      exact plain
  | mapping entries ih =>
      rcases exists_mapping_of_equal same.2 with ⟨others, rfl⟩
      rw [rangeFree_mapping] at plain ⊢
      intro entry present
      rcases same.entries.exists_left present with ⟨source, among, _, sameValue⟩
      rcases plain source among with ⟨noRange, plainValue⟩
      have bounds := range?_of_equal sameValue
      rw [noRange] at bounds
      exact ⟨eq_none_of_rel bounds, ih source among sameValue plainValue⟩
  | multiset elements ih =>
      rcases exists_multiset_of_equal same.2 with ⟨others, rfl⟩
      rw [rangeFree_multiset] at plain ⊢
      intro element present
      rcases same.elements.exists_left present with ⟨source, among, sameElement⟩
      exact ih source among sameElement (plain source among)
  | sequence items ih =>
      rcases exists_sequence_of_equal same.2 with ⟨others, rfl⟩
      rcases same with ⟨proper, equalItems⟩
      rw [proper_sequence] at proper
      rw [rangeFree_sequence] at plain ⊢
      intro item present
      rcases exists_source (equal_sequence.mp equalItems) present with ⟨source, among, sameItem⟩
      exact ih source among ⟨proper source among, sameItem⟩ (plain source among)

theorem rangeFree_ofList {values : List Node} (proper : ∀ value ∈ values, value.Proper) :
    RangeFree (.multiset (Elements.ofList values)) ↔ ∀ value ∈ values, value.RangeFree := by
  rw [rangeFree_multiset]
  constructor
  · intro plain value present
    rcases Elements.exists_kept present with ⟨kept, among, rfl | same⟩
    · exact plain kept among
    · have sameTree : SameTree value kept := ⟨proper value present, same⟩
      exact rangeFree_of_equal sameTree.symm (plain kept among)
  · intro plain element present
    exact plain element (Elements.mem_of_mem_ofList present)

/-- The pass leaves no range exactly in a flat tree. -/
theorem rangeFree_iff_flat {node result : Node} (proper : node.Proper)
    (compared : compareRange node = .ok result) : result.RangeFree ↔ node.Flat := by
  induction node using deepInduction generalizing result with
  | scalar value =>
      cases compared
      simp [Flat.scalar]
  | mapping entries ih =>
      rw [proper_mapping] at proper
      rcases compareRange_mapping_eq_ok.mp compared with ⟨results, values, rfl⟩
      rw [rangeFree_mapping, flat_mapping]
      refine (forall_congr_of_forall₂ values ?_).symm
      rintro source present ⟨key, value⟩ ⟨_, comparedValue⟩
      have properValue := proper.2 source present
      have noRange := range?_eq_none_of_compareValue comparedValue
      cases compareValue_eq_ok.mp comparedValue with
      | range range comparedStart comparedStop =>
          rcases within_of_range range with ⟨start, stop⟩
          have lower := ih source present _ start (properValue.inside start) comparedStart
          have upper := ih source present _ stop (properValue.inside stop) comparedStop
          simp [flatValue_of_range range, noRange, lower, upper, range?_eq_none_iff comparedStart,
            range?_eq_none_iff comparedStop]
      | plain plain plainCompared =>
          have value := ih source present _ .here properValue plainCompared
          simp [flatValue_of_none plain, noRange, value]
  | multiset elements ih =>
      rw [proper_multiset] at proper
      rcases compareRange_multiset_eq_ok.mp compared with ⟨values, related, rfl⟩
      have properValues : ∀ value ∈ values, value.Proper := by
        intro value present
        rcases exists_source related present with ⟨source, among, comparedElement⟩
        exact compareRange_proper (proper.2 source among) comparedElement
      rw [rangeFree_ofList properValues, flat_multiset]
      refine (forall_congr_of_forall₂ related ?_).symm
      intro element present value comparedElement
      exact (ih element present _ .here (proper.2 element present) comparedElement).symm
  | sequence items => simp at compared

end Flat

section SecondRun

variable {node result : Node}

/-- The pass succeeds on what it made itself, and leaves no range in it. -/
theorem exists_compareRange_again (proper : node.Proper)
    (compared : compareRange node = .ok result) :
    ∃ again, compareRange result = .ok again ∧ again.RangeFree := by
  have resultProper := compareRange_proper proper compared
  cases second : compareRange result with
  | error fault =>
      have raw := (compareRange_eq_error second).2
      exact absurd (compareRange_sequenceFree compared) (not_sequenceFree_iff.mpr raw)
  | ok again =>
      have flat : result.Flat :=
        flat_of_plainBounds
          ((compareRange_comparedEntry compared).imp fun _ => ComparedEntry.plainBounds)
      exact ⟨again, rfl, (rangeFree_iff_flat resultProper second).mpr flat⟩

end SecondRun

/-- The pass over ranges by itself leaves no range as the value of an entry exactly if no range that
it rewrites has a bound that keeps a range, and so in every tree in which no bound holds one. A range
that it leaves stands under `gte` or `lte`, which came from a bound. A second run leaves none and a
third one changes nothing, and the second run gives back the result of the first, or an equal tree,
exactly if the first left none. -/
theorem normalizeWith_rangeComparison {node result : Node} (proper : node.Proper)
    (normalized : normalizeWith [.rangeComparison] node = .ok result) :
    (result.RangeFree ↔ node.Flat) ∧
    (node.EveryEntry PlainBounds → result.RangeFree) ∧
    (result.EveryEntry fun entry => entry.2.range? ≠ none →
      entry.1 = .operator .gte ∨ entry.1 = .operator .lte) ∧
    ∃ again, normalizeWith [.rangeComparison] result = .ok again ∧ again.RangeFree ∧
      normalizeWith [.rangeComparison] again = .ok again ∧
      (again = result ↔ node.Flat) ∧ (equal again result = true ↔ node.Flat) := by
  simp only [normalizeWith_singleton, Pass.apply] at normalized ⊢
  have flat := rangeFree_iff_flat proper normalized
  have resultProper := compareRange_proper proper normalized
  rcases exists_compareRange_again proper normalized with ⟨again, second, plain⟩
  have againProper := compareRange_proper resultProper second
  have unchanged : node.Flat → again = result := by
    intro nodeFlat
    rw [compareRange_of_rangeFree resultProper (flat.mpr nodeFlat)
      (compareRange_sequenceFree normalized)] at second
    exact (Except.ok.inj second).symm
  refine ⟨flat, ?_, ?_, again, second, plain, ?_, ⟨?_, unchanged⟩, ⟨?_, ?_⟩⟩
  · intro bounds
    exact flat.mpr (flat_of_plainBounds bounds)
  · exact (compareRange_comparedEntry normalized).imp fun _ => ComparedEntry.key
  · exact compareRange_of_rangeFree againProper plain (compareRange_sequenceFree second)
  · rintro rfl
    exact flat.mp plain
  · intro same
    exact flat.mp (rangeFree_of_equal ⟨againProper, same⟩ plain)
  · intro nodeFlat
    rw [unchanged nodeFlat]
    exact equal_refl resultProper

/-- A range that stands by itself. -/
def someYears : Node :=
  entry (.operator .between) (bothBounds (.scalar (.int 2001), .scalar (.int 2003)))

/-- A range that starts at another one, before the pass and after one run of it. -/
def yearsFromYears : Node × Node :=
  (entry (.field "year") (entry (.operator .between) (bothBounds (someYears, .scalar (.int 2005)))),
    entry (.field "year") (bothComparisons (someYears, .scalar (.int 2005))))

/-- One run leaves the range at which the other one starts, and a second run changes the result. -/
theorem normalizeWith_rangeComparison_yearsFromYears :
    normalizeWith [.rangeComparison] yearsFromYears.1 = .ok yearsFromYears.2 ∧
      ¬yearsFromYears.1.Flat ∧ ¬yearsFromYears.2.RangeFree ∧
      ∃ again, normalizeWith [.rangeComparison] yearsFromYears.2 = .ok again ∧ again.RangeFree ∧
        equal again yearsFromYears.2 = false := by
  have proper : yearsFromYears.1.Proper := by
    simp [yearsFromYears, someYears, bothBounds, Entries.keys]
  have once : normalizeWith [.rangeComparison] yearsFromYears.1 = .ok yearsFromYears.2 := rfl
  rcases normalizeWith_rangeComparison proper once with
    ⟨flat, _, _, again, second, plain, _, _, stable⟩
  have left : ¬yearsFromYears.2.RangeFree := by
    intro plain
    have year := (rangeFree_mapping.mp plain _ List.mem_cons_self).2
    have lower := (rangeFree_mapping.mp year _ List.mem_cons_self).1
    cases lower
  have stacked : ¬yearsFromYears.1.Flat := by
    rwa [flat] at left
  refine ⟨once, stacked, left, again, second, plain, ?_⟩
  rwa [← stable, Bool.not_eq_true] at stacked

end Node

end FilterLang
