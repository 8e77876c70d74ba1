import FilterLang.Proofs.Normal.Form

/-!
# Rules that normalization keeps

A rule on a tree concerns its scalars, or the kinds of values that its keys are bound to. No pass
makes new scalars, and every pass makes a node of the kind that it was given. What remains are the
keys that the passes introduce: `between`, `gte`, `lte`, `and`, and the keys that take the place of
another. A rule that agrees with those (`Rules.Closed`) holds of the normal form if it held of the
filter.
-/

namespace FilterLang

/-- Rules on the scalars of a tree, and on the kinds of values that keys are bound to. -/
structure Rules where
  /-- Which scalars the tree may hold. -/
  scalar : Scalar → Prop
  /-- Which kinds of values a key may have. -/
  binding : Key → NodeKind → Prop

/-- Rules that allow what the passes introduce. -/
structure Rules.Closed (rules : Rules) : Prop where
  between : rules.binding (.operator .between) .mapping
  lower : ∀ kind, rules.binding (.operator .start) kind → rules.binding (.operator .gte) kind
  upper : ∀ kind, rules.binding (.operator .stop) kind → rules.binding (.operator .lte) kind
  and : rules.binding (.operator .and) .multiset

namespace Node

/-- A scalar is allowed, and the entries of a mapping are. -/
def ObeysHere (rules : Rules) : Node → Prop
  | .scalar value => rules.scalar value
  | .mapping entries => ∀ entry ∈ entries, rules.binding entry.1 entry.2.kind
  | _ => True

/-- A tree obeys rules at every depth. -/
def Obeys (rules : Rules) (node : Node) : Prop := node.Everywhere (ObeysHere rules)

variable {rules : Rules} {node result : Node} {enclosing : Option Key}

@[simp]
theorem obeys_scalar {value : Scalar} : (Node.scalar value).Obeys rules ↔ rules.scalar value := by
  simp [Obeys, ObeysHere]

@[simp]
theorem obeys_mapping {entries : Entries} :
    (Node.mapping entries).Obeys rules ↔
      ∀ entry ∈ entries, rules.binding entry.1 entry.2.kind ∧ entry.2.Obeys rules := by
  simp [Obeys, ObeysHere, forall_and]

@[simp]
theorem obeys_multiset {elements : Elements} :
    (Node.multiset elements).Obeys rules ↔ ∀ element ∈ elements, element.Obeys rules := by
  simp [Obeys, ObeysHere]

theorem obeys_entry {key : Key} (bound : rules.binding key node.kind) (obeys : node.Obeys rules) :
    (entry key node).Obeys rules := by
  simpa [entry] using And.intro bound obeys

theorem obeys_pair {key other : Key} {second : Node} (bound : rules.binding key node.kind)
    (obeys : node.Obeys rules) (boundSecond : rules.binding other second.kind)
    (obeysSecond : second.Obeys rules) :
    (Node.mapping [(key, node), (other, second)]).Obeys rules := by
  simpa using And.intro (And.intro bound obeys) (And.intro boundSecond obeysSecond)

theorem obeys_multiset_ofList {values : List Node} (obeys : ∀ value ∈ values, value.Obeys rules) :
    (Node.multiset (Elements.ofList values)).Obeys rules := by
  rw [obeys_multiset]
  intro element present
  exact obeys element (Elements.mem_of_mem_ofList present)

section Kinds

theorem kind_expandRange (expanded : expandRange node = .ok result) : result.kind = node.kind := by
  cases node with
  | scalar value =>
      cases expanded
      rfl
  | mapping entries => cases expandRange_mapping_eq_ok.mp expanded <;> rfl
  | multiset elements =>
      rcases expandRange_multiset_eq_ok.mp expanded with ⟨values, _, rfl⟩
      rfl
  | sequence items => simp at expanded

theorem kind_compareRange (compared : compareRange node = .ok result) :
    result.kind = node.kind := by
  cases node with
  | scalar value =>
      cases compared
      rfl
  | mapping entries =>
      rcases compareRange_mapping_eq_ok.mp compared with ⟨results, _, rfl⟩
      rfl
  | multiset elements =>
      rcases compareRange_multiset_eq_ok.mp compared with ⟨values, _, rfl⟩
      rfl
  | sequence items => simp at compared

theorem kind_compareValue (compared : ComparesRange node result) : result.kind = node.kind := by
  cases compared with
  | range range _ _ =>
      rcases range?_eq_some.mp range with ⟨entries, bounds, rfl, _⟩
      rfl
  | plain _ compared => exact kind_compareRange compared

theorem kind_conjunction {clauses : List Node}
    (mappings : ∀ clause ∈ clauses, clause.kind = .mapping) : (conjunction clauses).kind = .mapping := by
  have isMapping : ∀ {clauses : List Node}, (Node.and clauses).kind = .mapping := rfl
  exact @conjunction_of (fun node => node.kind = .mapping) clauses mappings isMapping

theorem kind_expandConjunction (expanded : expandConjunction enclosing node = .ok result) :
    result.kind = node.kind := by
  induction node generalizing enclosing result with
  | scalar value =>
      cases expanded
      rfl
  | mapping entries ih =>
      cases expandConjunction_mapping_eq_ok.mp expanded with
      | whole => rfl
      | comparisons _ clauses =>
          apply kind_conjunction
          intro clause present
          rcases exists_source clauses present with ⟨_, _, _, _, rfl⟩
          rfl
      | fields _ clauses =>
          apply kind_conjunction
          intro clause present
          rcases exists_source clauses present with ⟨source, among, isClause⟩
          cases isClause with
          | mapping value expandedValue =>
              rw [ih source among expandedValue, value]
              rfl
          | other => rfl
  | multiset elements =>
      rcases expandConjunction_multiset_eq_ok.mp expanded with ⟨values, _, rfl⟩
      rfl
  | sequence items => simp at expanded

end Kinds

section Passes

theorem expandRange_obeys (closed : rules.Closed) (obeys : node.Obeys rules)
    (expanded : expandRange node = .ok result) : result.Obeys rules := by
  induction node generalizing result with
  | scalar value =>
      cases expanded
      exact obeys
  | mapping entries ih =>
      rw [obeys_mapping] at obeys
      have inside : ∀ entry ∈ entries, ∀ value, expandRange entry.2 = .ok value →
          rules.binding entry.1 value.kind ∧ value.Obeys rules := by
        intro entry present value expandedValue
        rcases obeys entry present with ⟨bound, obeysValue⟩
        exact ⟨kind_expandRange expandedValue ▸ bound, ih entry present obeysValue expandedValue⟩
      cases expandRange_mapping_eq_ok.mp expanded with
      | range bounded expandedStart expandedStop =>
          rcases Entries.bounds?_eq_some.mp bounded with ⟨start, stop⟩
          rcases inside _ (Entries.mem_of_get? start) _ expandedStart with ⟨boundLower, lower⟩
          rcases inside _ (Entries.mem_of_get? stop) _ expandedStop with ⟨boundUpper, upper⟩
          exact obeys_entry closed.between (obeys_pair boundLower lower boundUpper upper)
      | values _ values =>
          rw [obeys_mapping]
          intro entry present
          rcases exists_source values present with ⟨source, among, sameKey, expandedValue⟩
          rw [sameKey]
          exact inside source among _ expandedValue
  | multiset elements ih =>
      rw [obeys_multiset] at obeys
      rcases expandRange_multiset_eq_ok.mp expanded with ⟨values, related, rfl⟩
      apply obeys_multiset_ofList
      intro value present
      rcases exists_source related present with ⟨source, among, expandedElement⟩
      exact ih source among (obeys source among) expandedElement
  | sequence items => simp at expanded

/-- The bounds of a range may stand under the comparisons that take their place. -/
theorem obeys_range (closed : rules.Closed) (obeys : node.Obeys rules) {start stop : Node}
    (range : node.range? = some (start, stop)) :
    rules.binding (.operator .gte) start.kind ∧ rules.binding (.operator .lte) stop.kind := by
  rcases range?_eq_some.mp range with ⟨entries, bounds, rfl, between, both⟩
  rcases Entries.bounds?_eq_some.mp both with ⟨first, second⟩
  rw [obeys_mapping] at obeys
  have obeysBounds := (obeys _ (Entries.mem_of_get? between)).2
  rw [obeys_mapping] at obeysBounds
  exact ⟨closed.lower _ (obeysBounds _ (Entries.mem_of_get? first)).1,
    closed.upper _ (obeysBounds _ (Entries.mem_of_get? second)).1⟩

theorem compareRange_obeys (closed : rules.Closed) (obeys : node.Obeys rules)
    (compared : compareRange node = .ok result) : result.Obeys rules := by
  induction node using deepInduction generalizing result with
  | scalar value =>
      cases compared
      exact obeys
  | mapping entries ih =>
      rw [obeys_mapping] at obeys
      rcases compareRange_mapping_eq_ok.mp compared with ⟨results, values, rfl⟩
      rw [obeys_mapping]
      intro entry present
      rcases exists_source values present with ⟨source, among, sameKey, comparedValue⟩
      rcases obeys source among with ⟨bound, obeysValue⟩
      rw [compareValue_eq_ok] at comparedValue
      refine ⟨?_, ?_⟩
      · rw [sameKey, kind_compareValue comparedValue]
        exact bound
      · rcases entry with ⟨key, value⟩
        cases comparedValue with
        | range range comparedStart comparedStop =>
            rcases within_of_range range with ⟨start, stop⟩
            rcases obeys_range closed obeysValue range with ⟨boundStart, boundStop⟩
            have lower := ih source among _ start (obeysValue.inside start) comparedStart
            have upper := ih source among _ stop (obeysValue.inside stop) comparedStop
            rw [← kind_compareRange comparedStart] at boundStart
            rw [← kind_compareRange comparedStop] at boundStop
            exact obeys_pair boundStart lower boundStop upper
        | plain _ plainCompared => exact ih source among _ .here obeysValue plainCompared
  | multiset elements ih =>
      rw [obeys_multiset] at obeys
      rcases compareRange_multiset_eq_ok.mp compared with ⟨values, related, rfl⟩
      apply obeys_multiset_ofList
      intro value present
      rcases exists_source related present with ⟨source, among, comparedElement⟩
      exact ih source among _ .here (obeys source among) comparedElement
  | sequence items => simp at compared

theorem obeys_conjunction (closed : rules.Closed) {clauses : List Node}
    (obeys : ∀ clause ∈ clauses, clause.Obeys rules) : (conjunction clauses).Obeys rules :=
  conjunction_of obeys (obeys_entry closed.and (obeys_multiset_ofList obeys))

theorem expandConjunction_obeys (closed : rules.Closed) (obeys : node.Obeys rules)
    (enclosed : ∀ key, enclosing = some key → rules.binding key node.kind)
    (expanded : expandConjunction enclosing node = .ok result) : result.Obeys rules := by
  induction node generalizing enclosing result with
  | scalar value =>
      cases expanded
      exact obeys
  | mapping entries ih =>
      rw [obeys_mapping] at obeys
      have inside : ∀ entry ∈ entries, ∀ {enclosing : Option Key} {value : Node},
          (∀ key, enclosing = some key → key = entry.1) →
          expandConjunction enclosing entry.2 = .ok value →
            rules.binding entry.1 value.kind ∧ value.Obeys rules := by
        intro entry present enclosing value enclosed expandedValue
        rcases obeys entry present with ⟨bound, obeysValue⟩
        refine ⟨kind_expandConjunction expandedValue ▸ bound, ?_⟩
        apply ih entry present obeysValue _ expandedValue
        intro key encloses
        rw [enclosed key encloses]
        exact bound
      cases expandConjunction_mapping_eq_ok.mp expanded with
      | whole _ values =>
          rw [obeys_mapping]
          intro entry present
          rcases exists_source values present with ⟨source, among, sameKey, expandedValue⟩
          rw [sameKey]
          exact inside source among (by simp) expandedValue
      | comparisons reads clauses =>
          apply obeys_conjunction closed
          intro clause present
          rcases exists_source clauses present with ⟨source, among, operand, expandedOperand, rfl⟩
          rcases inside source among (by simp) expandedOperand with ⟨bound, obeysOperand⟩
          exact obeys_entry (enclosed _ reads.of_comparisons.1) (obeys_entry bound obeysOperand)
      | fields _ clauses =>
          apply obeys_conjunction closed
          intro clause present
          rcases exists_source clauses present with ⟨source, among, isClause⟩
          cases isClause with
          | mapping _ expandedValue => exact (inside source among (by simp) expandedValue).2
          | other _ expandedValue =>
              rcases inside source among (by simp) expandedValue with ⟨bound, obeysValue⟩
              exact obeys_entry bound obeysValue
  | multiset elements ih =>
      rw [obeys_multiset] at obeys
      rcases expandConjunction_multiset_eq_ok.mp expanded with ⟨values, related, rfl⟩
      apply obeys_multiset_ofList
      intro value present
      rcases exists_source related present with ⟨source, among, expandedElement⟩
      exact ih source among (obeys source among) (by simp) expandedElement
  | sequence items => simp at expanded

/-- A normal form obeys the rules that its filter obeys. -/
theorem normalize_obeys (closed : rules.Closed) (obeys : node.Obeys rules)
    (normalized : normalize node = .ok result) : result.Obeys rules := by
  rcases normalize_eq_ok.mp normalized with ⟨ranged, compared, first, second, third⟩
  have rangedObeys := expandRange_obeys closed obeys first
  have comparedObeys := compareRange_obeys closed rangedObeys second
  exact expandConjunction_obeys closed comparedObeys (by simp) third

end Passes

end Node

end FilterLang
