import FilterLang.Proofs.Normal.Form

/-!
# Equal filters have equal normal forms

How a filter is written down decides nothing: neither the order of the entries of a mapping, nor the
order of the elements of a multiset. A pass that succeeds on a tree succeeds on every equal tree,
with an equal result. The passes over ranges look bounds up by their keys. The pass over
conjunctions starts from the first key of a mapping, but it reads a mapping only if all of its keys
go together, and then any of them could come first (`Reading.Reads.of_perm`).
-/

namespace FilterLang

theorem Reading.Reads.of_perm {enclosing : Option Key} {keys others : List Key} {reading : Reading}
    (reads : Reads enclosing keys reading) (perm : keys.Perm others) :
    Reads enclosing others reading := by
  have nonempty : keys ≠ [] → others ≠ [] := by
    intro filled
    rintro rfl
    exact filled perm.eq_nil
  have all : ∀ {property : Key → Prop}, (∀ key ∈ keys, property key) →
      ∀ key ∈ others, property key := by
    intro property holds key present
    exact holds key (perm.mem_iff.mpr present)
  cases reads with
  | empty =>
      rw [← perm.nil_eq]
      exact .empty
  | uniform other filled uniform => exact .uniform other (nonempty filled) (all uniform)
  | alone comparison noField =>
      rw [← List.singleton_perm.mp perm]
      exact .alone comparison noField
  | underField enclosed filled uniform =>
      exact .underField enclosed (nonempty filled) (all uniform)
  | underOperator enclosed several uniform =>
      rw [perm.length_eq] at several
      exact .underOperator enclosed several (all uniform)
  | fields filled fields => exact .fields (nonempty filled) (all fields)

namespace Node

/-- A function that succeeds on a tree succeeds on every equal tree, with an equal result. -/
def Respected (f : Node → Except Fault Node) (node : Node) : Prop :=
  ∀ other result, SameTree node other → f node = .ok result →
    ∃ otherResult, f other = .ok otherResult ∧ SameTree result otherResult

theorem sameOutcome_of_respected {f : Node → Except Fault Node}
    (respected : ∀ node, Respected f node) {node other : Node} (same : SameTree node other) :
    SameOutcome (f node) (f other) := by
  cases first : f node with
  | ok result =>
      rcases respected node other result same first with ⟨otherResult, second, sameResult⟩
      rw [second]
      exact sameResult.2
  | error fault =>
      cases second : f other with
      | ok otherResult =>
          rcases respected other node otherResult same.symm second with ⟨result, impossible, _⟩
          rw [first] at impossible
          cases impossible
      | error otherFault => trivial

section Traversal

variable {f : Node → Except Fault Node}

theorem respected_entries {entries others results : Entries}
    (same : SameTree (.mapping entries) (.mapping others))
    (respected : ∀ entry ∈ entries, Respected f entry.2)
    (related : List.Forall₂ (Entries.Corresponds fun value result => f value = .ok result) entries
      results) :
    ∃ otherResults, List.Forall₂
      (Entries.Corresponds fun value result => f value = .ok result) others otherResults ∧
        SameTree (.mapping results) (.mapping otherResults) := by
  have matching : ∃ otherResults, List.Forall₂
      (Entries.Corresponds fun value result => f value = .ok result) others otherResults ∧
        Matching (Entries.Corresponds SameTree) results otherResults := by
    apply same.entries.results related
    rintro entry present other result ⟨sameKey, sameValue⟩ ⟨resultKey, succeeds⟩
    rcases respected entry present _ _ sameValue succeeds with ⟨value, otherSucceeds, sameResult⟩
    exact ⟨(other.1, value), ⟨rfl, otherSucceeds⟩, sameKey.trans resultKey.symm, sameResult⟩
  rcases matching with ⟨otherResults, relatedOthers, matching⟩
  refine ⟨otherResults, relatedOthers, sameTree_mapping ?_ matching⟩
  rw [Entries.keys_eq_of_forall₂ related]
  exact (proper_mapping.mp same.1).1

theorem respected_elements {elements others : Elements} {values : List Node}
    (same : SameTree (.multiset elements) (.multiset others))
    (respected : ∀ element ∈ elements, Respected f element)
    (related : List.Forall₂ (fun element value => f element = .ok value) elements values) :
    ∃ otherValues, List.Forall₂ (fun element value => f element = .ok value) others otherValues ∧
      SameTree (.multiset (Elements.ofList values)) (.multiset (Elements.ofList otherValues)) := by
  have matching : ∃ otherValues,
      List.Forall₂ (fun element value => f element = .ok value) others otherValues ∧
        Matching SameTree values otherValues := by
    apply same.elements.results related
    intro element present other value sameElement succeeds
    exact respected element present other value sameElement succeeds
  rcases matching with ⟨otherValues, relatedOthers, matching⟩
  exact ⟨otherValues, relatedOthers, Elements.sameTree_ofList matching⟩

end Traversal

section Ranges

theorem sameTree_bounds {lower upper : Operator} (different : lower ≠ upper)
    {start stop otherStart otherStop : Node} (sameStart : SameTree start otherStart)
    (sameStop : SameTree stop otherStop) :
    SameTree (.mapping [(.operator lower, start), (.operator upper, stop)])
      (.mapping [(.operator lower, otherStart), (.operator upper, otherStop)]) := by
  apply sameTree_mapping (by simp [Entries.keys, different])
  exact ⟨_, .refl _, .cons ⟨rfl, sameStart⟩ (.cons ⟨rfl, sameStop⟩ .nil)⟩

theorem range?_of_equal {node other : Node} (same : SameTree node other) :
    Option.Rel SameBounds node.range? other.range? := by
  cases node with
  | mapping entries =>
      rcases exists_mapping_of_equal same.2 with ⟨others, rfl⟩
      have between := get?_of_equal same (.operator .between)
      simp only [range?, entries?, Option.bind_some, Entries.operator?_eq_get?]
      cases found : Entries.get? (.operator .between) entries with
      | none =>
          rw [found] at between
          rw [eq_none_of_rel between]
          exact .none
      | some range =>
          rw [found] at between
          rcases exists_of_rel between with ⟨otherRange, foundOther, sameRange⟩
          rw [foundOther]
          exact entries?_bounds?_of_equal sameRange
  | scalar value =>
      have identical := eq_scalar_of_equal same.2
      subst identical
      exact .none
  | multiset elements =>
      rcases exists_multiset_of_equal same.2 with ⟨others, rfl⟩
      exact .none
  | sequence items =>
      rcases exists_sequence_of_equal same.2 with ⟨others, rfl⟩
      exact .none

theorem expandRange_respected (node : Node) : Respected expandRange node := by
  induction node with
  | scalar value =>
      intro other result same expanded
      have identical := eq_scalar_of_equal same.2
      subst identical
      cases expanded
      exact ⟨_, rfl, same⟩
  | mapping entries ih =>
      intro other result same expanded
      rcases exists_mapping_of_equal same.2 with ⟨others, rfl⟩
      have bounds := bounds?_of_equal same
      cases expandRange_mapping_eq_ok.mp expanded with
      | range bounded expandedStart expandedStop =>
          rw [bounded] at bounds
          rcases exists_of_rel bounds with ⟨⟨start, stop⟩, boundedOther, sameStart, sameStop⟩
          rcases Entries.bounds?_eq_some.mp bounded with ⟨foundStart, foundStop⟩
          rcases ih _ (Entries.mem_of_get? foundStart) start _ sameStart expandedStart with
            ⟨lower, otherStart, sameLower⟩
          rcases ih _ (Entries.mem_of_get? foundStop) stop _ sameStop expandedStop with
            ⟨upper, otherStop, sameUpper⟩
          refine ⟨_, expandRange_mapping_eq_ok.mpr (.range boundedOther otherStart otherStop), ?_⟩
          exact sameTree_entry _ (sameTree_bounds (by simp) sameLower sameUpper)
      | values unbounded values =>
          rw [unbounded] at bounds
          rcases respected_entries same ih values with ⟨results, otherValues, sameResults⟩
          exact ⟨_, expandRange_mapping_eq_ok.mpr (.values (eq_none_of_rel bounds) otherValues),
            sameResults⟩
  | multiset elements ih =>
      intro other result same expanded
      rcases exists_multiset_of_equal same.2 with ⟨others, rfl⟩
      rcases expandRange_multiset_eq_ok.mp expanded with ⟨values, related, rfl⟩
      rcases respected_elements same ih related with ⟨otherValues, relatedOthers, sameValues⟩
      exact ⟨_, expandRange_multiset_eq_ok.mpr ⟨otherValues, relatedOthers, rfl⟩, sameValues⟩
  | sequence items =>
      intro other result _ expanded
      simp at expanded

theorem compareValue_respected {node : Node} (inside : node.Everywhere (Respected compareRange)) :
    Respected compareValue node := by
  intro other result same compared
  have bounds := range?_of_equal same
  cases compareValue_eq_ok.mp compared with
  | range range comparedStart comparedStop =>
      rw [range] at bounds
      rcases exists_of_rel bounds with ⟨⟨start, stop⟩, rangeOther, sameStart, sameStop⟩
      rcases within_of_range range with ⟨startWithin, stopWithin⟩
      rcases inside _ startWithin start _ sameStart comparedStart with
        ⟨lower, otherStart, sameLower⟩
      rcases inside _ stopWithin stop _ sameStop comparedStop with ⟨upper, otherStop, sameUpper⟩
      refine ⟨_, compareValue_eq_ok.mpr (.range rangeOther otherStart otherStop), ?_⟩
      exact sameTree_bounds (by simp) sameLower sameUpper
  | plain plain plainCompared =>
      rw [plain] at bounds
      rcases inside _ .here other result same plainCompared with
        ⟨otherResult, otherCompared, sameResult⟩
      exact ⟨otherResult, compareValue_eq_ok.mpr (.plain (eq_none_of_rel bounds) otherCompared),
        sameResult⟩

theorem compareRange_respected (node : Node) : Respected compareRange node := by
  induction node using deepInduction with
  | scalar value =>
      intro other result same compared
      have identical := eq_scalar_of_equal same.2
      subst identical
      cases compared
      exact ⟨_, rfl, same⟩
  | mapping entries ih =>
      intro other result same compared
      rcases exists_mapping_of_equal same.2 with ⟨others, rfl⟩
      rcases compareRange_mapping_eq_ok.mp compared with ⟨results, values, rfl⟩
      have respected : ∀ entry ∈ entries, Respected compareValue entry.2 := by
        intro entry present
        exact compareValue_respected (ih entry present)
      rcases respected_entries same respected values with
        ⟨otherResults, otherValues, sameResults⟩
      exact ⟨_, compareRange_mapping_eq_ok.mpr ⟨otherResults, otherValues, rfl⟩, sameResults⟩
  | multiset elements ih =>
      intro other result same compared
      rcases exists_multiset_of_equal same.2 with ⟨others, rfl⟩
      rcases compareRange_multiset_eq_ok.mp compared with ⟨values, related, rfl⟩
      have respected : ∀ element ∈ elements, Respected compareRange element := by
        intro element present
        exact ih element present _ .here
      rcases respected_elements same respected related with
        ⟨otherValues, relatedOthers, sameValues⟩
      exact ⟨_, compareRange_multiset_eq_ok.mpr ⟨otherValues, relatedOthers, rfl⟩, sameValues⟩
  | sequence items =>
      intro other result _ compared
      simp at compared

end Ranges

section Conjunctions

theorem sameTree_conjunction {clauses others : List Node}
    (matching : Matching SameTree clauses others) :
    SameTree (conjunction clauses) (conjunction others) := by
  have explicit : SameTree (Node.and clauses) (Node.and others) :=
    sameTree_entry _ (Elements.sameTree_ofList matching)
  have sameLength := matching.length_eq
  rcases clauses with _ | ⟨clause, _ | ⟨second, rest⟩⟩
  · rcases others with _ | ⟨other, rest⟩
    · exact explicit
    · simp at sameLength
  · rcases List.length_eq_one_iff.mp sameLength.symm with ⟨other, rfl⟩
    rcases matching.exists_right (List.mem_singleton_self clause) with ⟨partner, among, same⟩
    rw [List.mem_singleton] at among
    subst among
    exact same
  · rcases others with _ | ⟨other, _ | ⟨otherSecond, otherRest⟩⟩
    · simp at sameLength
    · simp at sameLength
    · exact explicit

/-- Equal entries stand for equal clauses on their field. -/
theorem isFieldClause_of_equal {entry other : Key × Node} {clause : Node}
    (same : Entries.Corresponds SameTree entry other)
    (respected : Respected (expandConjunction (some entry.1)) entry.2)
    (isClause : IsFieldClause entry clause) :
    ∃ otherClause, IsFieldClause other otherClause ∧ SameTree clause otherClause := by
  rcases entry with ⟨key, value⟩
  rcases other with ⟨otherKey, otherValue⟩
  rcases same with ⟨sameKey, sameValue⟩
  simp only at sameKey
  subst sameKey
  cases isClause with
  | mapping isMapping expanded =>
      simp only at isMapping
      subst isMapping
      rcases exists_mapping_of_equal sameValue.2 with ⟨others, rfl⟩
      rcases respected _ _ sameValue expanded with ⟨otherClause, otherExpanded, sameClause⟩
      exact ⟨otherClause, .mapping rfl otherExpanded, sameClause⟩
  | other notMapping expanded =>
      rcases respected _ _ sameValue expanded with ⟨result, otherExpanded, sameResult⟩
      have otherNotMapping : otherValue.isMapping = false := by
        rw [isMapping_of_equal sameValue.2]
        exact notMapping
      exact ⟨_, .other otherNotMapping otherExpanded, sameTree_entry otherKey sameResult⟩

theorem expandConjunction_respected (enclosing : Option Key) (node : Node) :
    Respected (expandConjunction enclosing) node := by
  induction node generalizing enclosing with
  | scalar value =>
      intro other result same expanded
      have identical := eq_scalar_of_equal same.2
      subst identical
      cases expanded
      exact ⟨_, rfl, same⟩
  | mapping entries ih =>
      intro other result same expanded
      rcases exists_mapping_of_equal same.2 with ⟨others, rfl⟩
      have sameKeys := Entries.keys_perm_of_matching same.entries
      cases expandConjunction_mapping_eq_ok.mp expanded with
      | whole reads values =>
          rcases respected_entries same (fun entry present => ih entry present none) values with
            ⟨otherResults, otherValues, sameResults⟩
          exact ⟨_, expandConjunction_mapping_eq_ok.mpr
            (.whole (reads.of_perm sameKeys) otherValues), sameResults⟩
      | @comparisons key clauses reads related =>
          have matching : ∃ otherClauses,
              List.Forall₂ (IsComparisonClause key) others otherClauses ∧
                Matching SameTree clauses otherClauses := by
            apply same.entries.results related
            rintro ⟨op, value⟩ present ⟨_, otherValue⟩ clause ⟨rfl, sameValue⟩
              ⟨operand, expandedOperand, rfl⟩
            rcases ih _ present _ _ _ sameValue expandedOperand with
              ⟨otherOperand, otherExpanded, sameOperand⟩
            exact ⟨_, ⟨otherOperand, otherExpanded, rfl⟩,
              sameTree_entry key (sameTree_entry _ sameOperand)⟩
          rcases matching with ⟨otherClauses, relatedOthers, matching⟩
          exact ⟨_, expandConjunction_mapping_eq_ok.mpr
            (.comparisons (reads.of_perm sameKeys) relatedOthers), sameTree_conjunction matching⟩
      | @fields clauses reads related =>
          have matching : ∃ otherClauses, List.Forall₂ IsFieldClause others otherClauses ∧
              Matching SameTree clauses otherClauses := by
            apply same.entries.results related
            intro entry present otherEntry clause sameEntry isClause
            exact isFieldClause_of_equal sameEntry (ih entry present _) isClause
          rcases matching with ⟨otherClauses, relatedOthers, matching⟩
          exact ⟨_, expandConjunction_mapping_eq_ok.mpr
            (.fields (reads.of_perm sameKeys) relatedOthers), sameTree_conjunction matching⟩
  | multiset elements ih =>
      intro other result same expanded
      rcases exists_multiset_of_equal same.2 with ⟨others, rfl⟩
      rcases expandConjunction_multiset_eq_ok.mp expanded with ⟨values, related, rfl⟩
      rcases respected_elements same (fun element present => ih element present none) related with
        ⟨otherValues, relatedOthers, sameValues⟩
      exact ⟨_, expandConjunction_multiset_eq_ok.mpr ⟨otherValues, relatedOthers, rfl⟩,
        sameValues⟩
  | sequence items =>
      intro other result _ expanded
      simp at expanded

end Conjunctions

theorem apply_respected (pass : Pass) (node : Node) : Respected pass.apply node := by
  cases pass with
  | impliedRange => exact expandRange_respected node
  | rangeComparison => exact compareRange_respected node
  | impliedConjunction => exact expandConjunction_respected none node

theorem applyAll_respected (passes : List Pass) (node : Node) :
    Respected (applyAll passes) node := by
  induction passes generalizing node with
  | nil =>
      intro other result same applied
      cases applied
      exact ⟨other, rfl, same⟩
  | cons pass rest ih =>
      intro other result same applied
      rw [applyAll, List.foldlM_cons, bind_eq_ok] at applied
      rcases applied with ⟨middle, first, others⟩
      rcases apply_respected pass node other middle same first with
        ⟨otherMiddle, otherFirst, sameMiddle⟩
      rcases ih middle otherMiddle result sameMiddle others with
        ⟨otherResult, otherRest, sameResult⟩
      refine ⟨otherResult, ?_, sameResult⟩
      rw [applyAll, List.foldlM_cons, bind_eq_ok]
      exact ⟨otherMiddle, otherFirst, otherRest⟩

theorem normalizeWith_respected (selection : List Pass) (node : Node) :
    Respected (normalizeWith selection) node :=
  applyAll_respected (Pass.ordered selection) node

/-- Equal filters have equal normal forms under every selection of passes, or none of them has one:
neither the order of mapping entries nor that of multiset elements matters, at any depth. -/
theorem normalizeWith_respects_equality (selection : List Pass) {node other : Node}
    (proper : node.Proper) (same : equal node other = true) :
    SameOutcome (normalizeWith selection node) (normalizeWith selection other) :=
  sameOutcome_of_respected (normalizeWith_respected selection) ⟨proper, same⟩

/-- A range on a field beside another field, under `or` with a second clause. -/
def makeFirst : Node :=
  entry (.operator .or) (.multiset
    [.mapping [(.field "make", .scalar (.text "chevy")), (.field "year",
      .mapping [(.operator .start, .scalar (.int 2001)), (.operator .stop, .scalar (.int 2005))])],
    entry (.field "make") (.scalar (.text "ford"))])

/-- The same filter in another order, at every depth. -/
def makeLast : Node :=
  entry (.operator .or) (.multiset
    [entry (.field "make") (.scalar (.text "ford")),
    .mapping [(.field "year",
      .mapping [(.operator .stop, .scalar (.int 2005)), (.operator .start, .scalar (.int 2001))]),
      (.field "make", .scalar (.text "chevy"))]])

theorem normalizeWith_respects_equality_makeFirst :
    makeFirst.Proper ∧ equal makeFirst makeLast = true ∧
      (∃ form, normalizeWith Pass.all makeFirst = .ok form) ∧
      SameOutcome (normalizeWith Pass.all makeFirst) (normalizeWith Pass.all makeLast) := by
  have proper : makeFirst.Proper := by
    simp [makeFirst, entry, Entries.keys, equal]
  have same : equal makeFirst makeLast = true := rfl
  exact ⟨proper, same, ⟨_, rfl⟩, normalizeWith_respects_equality Pass.all proper same⟩

end Node

end FilterLang
