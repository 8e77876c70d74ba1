import FilterLang.Proofs.Normal.Form

/-!
# Canonical trees

A canonical tree carries one constraint in each mapping: a lone comparison, a lone field, or a
combination of clauses. The pass over conjunctions makes nothing but canonical trees, and no pass
changes one, so the canonical trees are exactly the normal forms.
-/

namespace FilterLang

namespace Node

/-- What the field of a canonical mapping may be bound to. -/
inductive CanonicalValue : Node → Prop
  | scalar (value : Scalar) : CanonicalValue (.scalar value)
  | multiset (elements : Elements) : CanonicalValue (.multiset elements)
  | comparison {op : Operator} (comparison : op.category = .comparison) (operand : Node) :
      CanonicalValue (entry (.operator op) operand)

/-- The shapes of a canonical mapping. -/
inductive CanonicalEntries : Entries → Prop
  | empty : CanonicalEntries []
  | logical {entries : Entries} (nonempty : entries ≠ [])
      (logical : ∀ key ∈ Entries.keys entries, key.category? = some .logical) :
      CanonicalEntries entries
  | structural {entries : Entries} (nonempty : entries ≠ [])
      (structural : ∀ key ∈ Entries.keys entries, key.category? = some .structural) :
      CanonicalEntries entries
  | comparison {op : Operator} (comparison : op.category = .comparison) (operand : Node) :
      CanonicalEntries [(.operator op, operand)]
  | field (name : String) {value : Node} (canonical : CanonicalValue value) :
      CanonicalEntries [(.field name, value)]

/-- A mapping has a canonical shape, and the tree is no sequence. -/
def CanonicalHere : Node → Prop
  | .mapping entries => CanonicalEntries entries
  | .sequence _ => False
  | _ => True

/-- At every depth, a mapping has a canonical shape and there is no sequence. -/
def Canonical (node : Node) : Prop := node.Everywhere CanonicalHere

@[simp]
theorem canonical_scalar {value : Scalar} : Canonical (.scalar value) := by
  simp [Canonical, CanonicalHere]

@[simp]
theorem canonical_mapping {entries : Entries} :
    Canonical (.mapping entries) ↔
      CanonicalEntries entries ∧ ∀ entry ∈ entries, Canonical entry.2 := by
  simp [Canonical, CanonicalHere]

@[simp]
theorem canonical_multiset {elements : Elements} :
    Canonical (.multiset elements) ↔ ∀ element ∈ elements, Canonical element := by
  simp [Canonical, CanonicalHere]

@[simp]
theorem not_canonical_sequence {items : List Node} : ¬Canonical (.sequence items) := by
  simp [Canonical, CanonicalHere]

theorem canonical_comparison {op : Operator} (comparison : op.category = .comparison)
    {operand : Node} (canonical : operand.Canonical) :
    Canonical (entry (.operator op) operand) := by
  rw [entry, canonical_mapping]
  exact ⟨.comparison comparison operand, by simpa using canonical⟩

theorem canonical_field (name : String) {value : Node} (shape : CanonicalValue value)
    (canonical : value.Canonical) : Canonical (entry (.field name) value) := by
  rw [entry, canonical_mapping]
  exact ⟨.field name shape, by simpa using canonical⟩

theorem canonical_and {clauses : List Node} (canonical : ∀ clause ∈ clauses, clause.Canonical) :
    Canonical (Node.and clauses) := by
  rw [Node.and, entry, canonical_mapping]
  refine ⟨.logical (by simp) ?_, ?_⟩
  · simp only [Entries.keys, List.map_cons, List.map_nil, List.mem_singleton]
    rintro key rfl
    rfl
  · simp only [List.mem_singleton]
    rintro _ rfl
    rw [canonical_multiset]
    intro element present
    exact canonical element (Elements.mem_of_mem_ofList present)

theorem conjunction_canonical {clauses : List Node}
    (canonical : ∀ clause ∈ clauses, clause.Canonical) : (conjunction clauses).Canonical :=
  conjunction_of canonical (canonical_and canonical)

/-- A mapping that is read as a whole keeps its keys, which make a canonical shape. -/
theorem canonicalEntries_of_whole {enclosing : Option Key} {keys : List Key} {results : Entries}
    (reads : Reading.Reads enclosing keys .whole) (same : Entries.keys results = keys) :
    CanonicalEntries results := by
  cases reads with
  | empty =>
      have empty : results = [] := List.map_eq_nil_iff.mp same
      subst empty
      exact .empty
  | @uniform category _ other nonempty uniform =>
      subst same
      have filled := Entries.keys_ne_nil.mp nonempty
      cases category with
      | logical => exact .logical filled uniform
      | comparison => exact absurd rfl other
      | structural => exact .structural filled uniform
  | alone comparison _ =>
      rcases List.map_eq_singleton_iff.mp same with ⟨⟨key, operand⟩, rfl, rfl⟩
      exact .comparison comparison operand

/-- A value that is no mapping stays a scalar or a multiset. -/
theorem canonicalValue_of_expanded {enclosing : Option Key} {value result : Node}
    (notMapping : value.isMapping = false)
    (expanded : expandConjunction enclosing value = .ok result) : CanonicalValue result := by
  cases value with
  | scalar value =>
      cases expanded
      exact .scalar value
  | mapping entries => simp [isMapping] at notMapping
  | multiset elements =>
      rcases expandConjunction_multiset_eq_ok.mp expanded with ⟨values, _, rfl⟩
      exact .multiset _
  | sequence items => simp at expanded

/-- The pass over conjunctions makes canonical trees, under every key that may enclose a tree. -/
theorem expandConjunction_canonical {enclosing : Option Key} {node result : Node}
    (enclosed : ∀ op, enclosing = some (.operator op) → op.category = .comparison)
    (expanded : expandConjunction enclosing node = .ok result) : result.Canonical := by
  induction node generalizing enclosing result with
  | scalar value =>
      cases expanded
      exact canonical_scalar
  | mapping entries ih =>
      cases expandConjunction_mapping_eq_ok.mp expanded with
      | whole reads values =>
          rw [canonical_mapping]
          refine ⟨canonicalEntries_of_whole reads (Entries.keys_eq_of_forall₂ values), ?_⟩
          intro entry present
          rcases exists_source values present with ⟨source, among, _, expandedValue⟩
          exact ih source among (by simp) expandedValue
      | @comparisons enclosingKey _ reads clauses =>
          apply conjunction_canonical
          intro clause present
          rcases exists_source clauses present with
            ⟨⟨key, value⟩, among, operand, expandedOperand, rfl⟩
          rcases reads.of_comparisons with ⟨encloses, _, uniform⟩
          rcases Key.category?_eq_some.mp (uniform key (List.mem_map_of_mem among)) with
            ⟨op, sameKey, comparison⟩
          subst sameKey
          have operandCanonical : operand.Canonical := by
            apply ih _ among _ expandedOperand
            rintro other sameOp
            cases sameOp
            exact comparison
          have clauseCanonical := canonical_comparison comparison operandCanonical
          rcases enclosingKey with enclosingOp | name
          · exact canonical_comparison (enclosed enclosingOp encloses) clauseCanonical
          · exact canonical_field name (.comparison comparison operand) clauseCanonical
      | fields reads clauses =>
          apply conjunction_canonical
          intro clause present
          rcases exists_source clauses present with ⟨⟨key, value⟩, among, isClause⟩
          rcases reads.of_fields.2 key (List.mem_map_of_mem among) with ⟨name, sameKey⟩
          subst sameKey
          cases isClause with
          | mapping _ expandedValue => exact ih _ among (by simp) expandedValue
          | other notMapping expandedValue =>
              have canonical := ih _ among (by simp) expandedValue
              have shape := canonicalValue_of_expanded notMapping expandedValue
              exact canonical_field name shape canonical
  | multiset elements ih =>
      rcases expandConjunction_multiset_eq_ok.mp expanded with ⟨values, related, rfl⟩
      rw [canonical_multiset]
      intro value present
      rcases exists_source related (Elements.mem_of_mem_ofList present) with
        ⟨source, among, expandedElement⟩
      exact ih source among (by simp) expandedElement
  | sequence items => simp at expanded

/-- A canonical mapping never holds two different comparisons. -/
theorem CanonicalEntries.eq_of_comparisons {entries : Entries} (shape : CanonicalEntries entries)
    {first second : Operator} (firstComparison : first.category = .comparison)
    (firstPresent : .operator first ∈ Entries.keys entries)
    (secondPresent : .operator second ∈ Entries.keys entries) : first = second := by
  cases shape with
  | empty => simp [Entries.keys] at firstPresent
  | logical _ logical =>
      have category := logical _ firstPresent
      simp [firstComparison] at category
  | structural _ structural =>
      have category := structural _ firstPresent
      simp [firstComparison] at category
  | comparison _ _ =>
      simp only [Entries.keys, List.map_cons, List.map_nil, List.mem_singleton,
        Key.operator.injEq] at firstPresent secondPresent
      rw [firstPresent, secondPresent]
  | field => simp [Entries.keys] at firstPresent

theorem CanonicalEntries.bounds?_eq_none {entries : Entries} (shape : CanonicalEntries entries) :
    entries.bounds? = none := by
  apply Entries.bounds?_eq_none_of_absent
  intro start stop
  have same : Operator.start = Operator.stop := shape.eq_of_comparisons rfl start stop
  cases same

theorem Canonical.range?_eq_none {node : Node} (canonical : node.Canonical) :
    node.range? = none := by
  cases range : node.range? with
  | none => rfl
  | some bounds =>
      rcases range?_eq_some.mp range with ⟨entries, inner, rfl, between, bounded⟩
      have innerCanonical := (canonical_mapping.mp canonical).2 _ (Entries.mem_of_get? between)
      rw [(canonical_mapping.mp innerCanonical).1.bounds?_eq_none] at bounded
      cases bounded

theorem expandRange_of_canonical {node : Node} (proper : node.Proper)
    (canonical : node.Canonical) : expandRange node = .ok node := by
  induction node with
  | scalar value => rfl
  | mapping entries ih =>
      rw [proper_mapping] at proper
      rw [canonical_mapping] at canonical
      apply expandRange_mapping_eq_ok.mpr
      apply ExpandsRange.values canonical.1.bounds?_eq_none
      rw [List.forall₂_same]
      intro entry present
      exact ⟨rfl, ih entry present (proper.2 entry present) (canonical.2 entry present)⟩
  | multiset elements ih =>
      rw [proper_multiset] at proper
      rw [canonical_multiset] at canonical
      apply expandRange_multiset_eq_ok.mpr
      refine ⟨elements, ?_, by rw [Elements.ofList_of_unequal proper.1]⟩
      rw [List.forall₂_same]
      intro element present
      exact ih element present (proper.2 element present) (canonical element present)
  | sequence items => simp at canonical

theorem Canonical.rangeFree {node : Node} (canonical : node.Canonical) : node.RangeFree := by
  rintro _ inside entries rfl entry present
  exact ((canonical_mapping.mp (canonical.inside inside)).2 entry present).range?_eq_none

theorem Canonical.sequenceFree {node : Node} (canonical : node.Canonical) :
    node.SequenceFree := by
  rintro _ inside items rfl
  exact canonical _ inside

theorem compareRange_of_canonical {node : Node} (proper : node.Proper)
    (canonical : node.Canonical) : compareRange node = .ok node :=
  compareRange_of_rangeFree proper canonical.rangeFree canonical.sequenceFree

/-- A field with a canonical value is its own clause. -/
theorem isFieldClause_of_canonical (name : String) {value : Node} (shape : CanonicalValue value)
    (whole : expandConjunction none value = .ok value)
    (operands : ∀ op operand, value = entry (.operator op) operand →
      expandConjunction (some (.operator op)) operand = .ok operand) :
    IsFieldClause (.field name, value) (entry (.field name) value) := by
  cases shape with
  | scalar value => exact .other rfl rfl
  | multiset elements =>
      apply IsFieldClause.other rfl
      rw [expandConjunction_multiset, ← expandConjunction_multiset none]
      exact whole
  | @comparison op comparison operand =>
      have body : Reading.Reads (some (.field name)) [.operator op]
          (.comparisons (.field name)) :=
        .underField rfl (by simp) (by simp [comparison])
      apply IsFieldClause.mapping rfl
      apply expandConjunction_mapping_eq_ok.mpr
      exact .comparisons body (.cons ⟨operand, operands op operand rfl, rfl⟩ .nil)

/-- A canonical tree is read by itself: only a field above it would make clauses of it. -/
theorem expandConjunction_of_canonical {enclosing : Option Key} {node : Node}
    (proper : node.Proper) (canonical : node.Canonical)
    (noField : ∀ name, enclosing ≠ some (.field name)) :
    expandConjunction enclosing node = .ok node := by
  induction node using deepInduction generalizing enclosing with
  | scalar value => rfl
  | mapping entries ih =>
      rw [proper_mapping] at proper
      rw [canonical_mapping] at canonical
      rcases canonical with ⟨shape, canonical⟩
      have values : List.Forall₂
          (Entries.Corresponds fun value result => expandConjunction none value = .ok result)
          entries entries := by
        rw [List.forall₂_same]
        intro entry present
        exact ⟨rfl, ih entry present _ .here (proper.2 entry present) (canonical entry present)
          (by simp)⟩
      apply expandConjunction_mapping_eq_ok.mpr
      cases shape with
      | empty => exact .whole .empty values
      | logical nonempty logical =>
          exact .whole (.uniform (by simp) (Entries.keys_ne_nil.mpr nonempty) logical) values
      | structural nonempty structural =>
          exact .whole (.uniform (by simp) (Entries.keys_ne_nil.mpr nonempty) structural)
            values
      | comparison comparison operand => exact .whole (.alone comparison noField) values
      | @field name value shape =>
          have reads : Reading.Reads enclosing [.field name] .fields :=
            .fields (by simp) (by simp [Key.isOperator])
          have whole := (List.forall₂_cons.mp values).1.2
          have clause : IsFieldClause (.field name, value) (entry (.field name) value) := by
            apply isFieldClause_of_canonical name shape whole
            rintro op operand rfl
            have inside : Within operand (entry (.operator op) operand) :=
              .entry (List.mem_singleton_self _) .here
            exact ih _ (List.mem_singleton_self _) _ inside
              ((proper.2 _ (List.mem_singleton_self _)).inside inside)
              ((canonical _ (List.mem_singleton_self _)).inside inside) (by simp)
          exact .fields reads (.cons clause .nil)
  | multiset elements ih =>
      rw [proper_multiset] at proper
      rw [canonical_multiset] at canonical
      apply expandConjunction_multiset_eq_ok.mpr
      refine ⟨elements, ?_, by rw [Elements.ofList_of_unequal proper.1]⟩
      rw [List.forall₂_same]
      intro element present
      exact ih element present _ .here (proper.2 element present) (canonical element present)
        (by simp)
  | sequence items => simp at canonical

theorem apply_of_canonical (pass : Pass) {node : Node} (proper : node.Proper)
    (canonical : node.Canonical) : pass.apply node = .ok node := by
  cases pass with
  | impliedRange => exact expandRange_of_canonical proper canonical
  | rangeComparison => exact compareRange_of_canonical proper canonical
  | impliedConjunction => exact expandConjunction_of_canonical proper canonical (by simp)

theorem normalizeWith_of_canonical (selection : List Pass) {node : Node} (proper : node.Proper)
    (canonical : node.Canonical) : normalizeWith selection node = .ok node := by
  have stable : ∀ passes : List Pass, applyAll passes node = .ok node := by
    intro passes
    induction passes with
    | nil => rfl
    | cons pass rest ih =>
        rw [applyAll, List.foldlM_cons, apply_of_canonical pass proper canonical]
        exact ih
  exact stable _

theorem canonical_of_normalizeWith {selection : List Pass}
    (selected : .impliedConjunction ∈ selection) {node result : Node}
    (normalized : normalizeWith selection node = .ok result) : result.Canonical := by
  rcases exists_ordered_eq selected with ⟨earlier, ordered⟩
  rw [normalizeWith, applyAll, ordered, List.foldlM_append, bind_eq_ok] at normalized
  rcases normalized with ⟨middle, _, applied⟩
  rw [List.foldlM_cons, bind_eq_ok] at applied
  rcases applied with ⟨last, expanded, same⟩
  cases same
  exact expandConjunction_canonical (by simp) expanded

/-- The canonical trees are exactly the normal forms: what a selection with the pass over
conjunctions makes is canonical and no selection changes it again, and a tree is its own normal form
exactly if it is canonical. -/
theorem normalForms_eq_canonical (node : Node) (proper : node.Proper) :
    (∀ selection result, .impliedConjunction ∈ selection →
      normalizeWith selection node = .ok result →
        result.Canonical ∧ ∀ others, normalizeWith others result = .ok result) ∧
    (normalize node = .ok node ↔ node.Canonical) := by
  refine ⟨?_, ?_, ?_⟩
  · intro selection result selected normalized
    have canonical := canonical_of_normalizeWith selected normalized
    refine ⟨canonical, ?_⟩
    intro others
    exact normalizeWith_of_canonical others (normalizeWith_proper proper normalized) canonical
  · intro normalized
    exact canonical_of_normalizeWith (by decide) normalized
  · intro canonical
    exact normalizeWith_of_canonical Pass.all proper canonical

theorem normalForms_eq_canonical_range :
    Proper (entry (.field "year") (.mapping [(.operator .start, .scalar (.int 2001)),
      (.operator .stop, .scalar (.int 2005))])) ∧
    Pass.impliedConjunction ∈ Pass.all ∧
    normalizeWith Pass.all (entry (.field "year") (.mapping
        [(.operator .start, .scalar (.int 2001)), (.operator .stop, .scalar (.int 2005))])) =
      .ok (Node.and [entry (.field "year") (entry (.operator .gte) (.scalar (.int 2001))),
        entry (.field "year") (entry (.operator .lte) (.scalar (.int 2005)))]) ∧
    Canonical (Node.and [entry (.field "year") (entry (.operator .gte) (.scalar (.int 2001))),
      entry (.field "year") (entry (.operator .lte) (.scalar (.int 2005)))]) := by
  have proper : Proper (entry (.field "year") (.mapping
      [(.operator .start, .scalar (.int 2001)), (.operator .stop, .scalar (.int 2005))])) := by
    simp [Entries.keys]
  rcases normalForms_eq_canonical _ proper with ⟨canonical, _⟩
  exact ⟨proper, by decide, rfl, (canonical Pass.all _ (by decide) rfl).1⟩

end Node

end FilterLang
