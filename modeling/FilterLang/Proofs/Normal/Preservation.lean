import FilterLang.Proofs.Normal.Bodies
import FilterLang.Proofs.Normal.Meaning
import Mathlib.Data.Fintype.Order

/-!
# Normalization preserves meaning

Each pass takes every well-formed clause to one with the same meaning: equality of meanings goes
through combinations of clauses and structural mappings, and a pass leaves alone what an operator
body says about its field.
-/

namespace FilterLang

universe u

namespace Node

section Meanings

variable {M : Type u} [Lattice M] [BoundedOrder M] (interpretation : Interpretation M)

theorem Fields.isStructural_eq_false {Body : Node → Prop} {entries : Entries}
    (fields : Fields Body entries) : Entries.isStructural entries = false := by
  apply Entries.isStructural_eq_false
  intro key present
  simp [fields.category?_eq_none key present]

/-- A pass makes a clause of a clause, with the same meaning. -/
def Preserved (Body : Node → Prop) (outcome : Except Fault Node) (node : Node) : Prop :=
  ∃ result, outcome = .ok result ∧ Clause Body result ∧
    interpretation.meaning result = interpretation.meaning node

variable {Source Target : Node → Prop}

/-- Related elements have the same meanings, and those that became equal have one meaning. -/
theorem members_of_related {node result : Node}
    (related : RelatedMembers Target
      (fun node result => interpretation.meaning result = interpretation.meaning node) node result)
    (meaning : M) :
    meaning ∈ interpretation.members result ↔ meaning ∈ interpretation.members node := by
  rcases related with @⟨elements, values, proper, each⟩
  have sameMeanings : elements.map interpretation.meaning = values.map interpretation.meaning := by
    apply map_eq_map_of_forall₂ each
    intro element _ value holds
    exact holds.2.symm
  rw [Interpretation.members_multiset, Interpretation.members_multiset, sameMeanings]
  exact interpretation.mem_meanings_ofList proper meaning

theorem congruent_meaning : Congruent Target
    fun node result => interpretation.meaning result = interpretation.meaning node where
  logical := by
    intro entries results logical related
    have sameKeys := Entries.keys_eq_of_forall₂ related
    have sameConjuncts : entries.map interpretation.conjunct =
        results.map interpretation.conjunct := by
      apply map_eq_map_of_forall₂ related
      rintro ⟨key, node⟩ _ ⟨resultKey, result⟩ ⟨sameKey, members⟩
      apply interpretation.conjunct_congr sameKey
      · intro field
        cases members
        rfl
      · intro meaning
        exact (members_of_related interpretation members meaning).symm
    have entriesOther : Entries.isStructural entries = false :=
      Entries.isStructural_eq_false fun key present => by simp [logical key present]
    have resultsOther : Entries.isStructural results = false := by
      rwa [Entries.isStructural, sameKeys]
    rw [interpretation.meaning_conjuncts resultsOther,
      interpretation.meaning_conjuncts entriesOther, sameConjuncts]
  structural := by
    intro entries results nonempty structural related
    have sameKeys := Entries.keys_eq_of_forall₂ related
    have isStructural := Entries.isStructural_eq_true nonempty structural
    have resultStructural : Entries.isStructural results = true := by
      rwa [Entries.isStructural, sameKeys]
    rw [interpretation.meaning_structural resultStructural,
      interpretation.meaning_structural isStructural]
    congr 1
    funext op
    have sameParts := Entries.get?_of_forall₂ related (.operator op)
    generalize Entries.get? (.operator op) entries = first,
      Entries.get? (.operator op) results = second at sameParts
    cases sameParts with
    | none => rfl
    | some parts =>
        cases parts with
        | scalar value => rfl
        | clause same => exact congrArg some (congrArg Part.clause same)

/-- A pass that preserves the meaning of field mappings preserves the meaning of clauses. -/
theorem Walks.preserves {pass value : Node → Except Fault Node} (walks : Walks pass value)
    (fields : ∀ entries : Entries, Fields Source entries → Proper (.mapping entries) →
      Preserved interpretation Target (pass (.mapping entries)) (.mapping entries))
    {node : Node} (clause : Clause Source node) (proper : node.Proper) :
    Preserved interpretation Target (pass node) node :=
  walks.rewrites (congruent_meaning interpretation) fields clause proper

/-- A pass that goes through field mappings too preserves their meaning, if it does so with every
operator body. -/
theorem preserves_fields {pass value : Node → Except Fault Node}
    (scalar : ∀ scalar, value (.scalar scalar) = .ok (.scalar scalar))
    (body : ∀ node, Source node → node.Proper → ∃ result, value node = .ok result ∧
      Target result ∧ ∀ field, interpretation.constraint field result =
        interpretation.constraint field node)
    {entries : Entries} (fields : Fields Source entries) (proper : Proper (.mapping entries))
    (entrywise : pass (.mapping entries) = (Entries.traverse value entries).map .mapping) :
    Preserved interpretation Target (pass (.mapping entries)) (.mapping entries) := by
  change Rewritten Target
    (fun node result => interpretation.meaning result = interpretation.meaning node) _ _
  apply rewrites_fields
    (fun name node result =>
      interpretation.constraint name result = interpretation.constraint name node)
    scalar (fun _ _ => rfl) body fields proper entrywise
  intro results resultFields related
  have sameConjuncts : entries.map interpretation.conjunct =
      results.map interpretation.conjunct := by
    apply map_eq_map_of_forall₂ related
    rintro ⟨key, node⟩ _ ⟨resultKey, result⟩ ⟨name, sameKey, sameResultKey, same⟩
    simp only at sameKey sameResultKey
    subst sameKey sameResultKey
    exact same.symm
  rw [interpretation.meaning_conjuncts resultFields.isStructural_eq_false,
    interpretation.meaning_conjuncts fields.isStructural_eq_false, sameConjuncts]

/-- The first pass puts two bounds that stand beside each other under `between`. -/
theorem expandRange_body {node : Node} (body : Body node) (proper : node.Proper) :
    ∃ result, expandRange node = .ok result ∧ RangedBody result ∧
      ∀ field, interpretation.constraint field result =
        interpretation.constraint field node := by
  rcases exists_rangeForm body proper with ⟨result, expanded, form⟩
  refine ⟨result, expanded, form.rangedBody, ?_⟩
  intro field
  cases form with
  | plain => rfl
  | bounds _ distinct bounded alone =>
      rw [interpretation.constraint_of_bounds field distinct bounded alone]
      exact meet_singleton _

/-- The second pass puts two comparisons in the place of a range under `between`. -/
theorem compareValue_body {node : Node} (body : RangedBody node) (proper : node.Proper) :
    ∃ result, compareValue node = .ok result ∧ PlainBody result ∧
      ∀ field, interpretation.constraint field result =
        interpretation.constraint field node := by
  rcases exists_comparisonForm body proper with ⟨result, compared, form⟩
  refine ⟨result, compared, form.plainBody, ?_⟩
  intro field
  cases form with
  | plain => rfl
  | range start stop =>
      have ranged : interpretation.constraint field (entry (.operator .between)
          (.mapping [(.operator .start, .scalar start), (.operator .stop, .scalar stop)])) =
          interpretation.compares field .gte (.scalar start)
            ⊓ interpretation.compares field .lte (.scalar stop) :=
        meet_singleton _
      have compared : interpretation.constraint field
          (.mapping [(.operator .gte, .scalar start), (.operator .lte, .scalar stop)]) =
          interpretation.compares field .gte (.scalar start)
            ⊓ meet [interpretation.compares field .lte (.scalar stop)] := rfl
      rw [ranged, compared, meet_singleton]

/-- A body of one comparison says what the comparison says. -/
theorem constraint_entry (field : String) (key : Key) (operand : Node) :
    interpretation.constraint field (entry key operand) =
      interpretation.comparison field false (key, operand) := by
  simp only [entry, Interpretation.constraint, Entries.bounds?_singleton, Option.isSome_none,
    List.map_cons, List.map_nil, meet_singleton]

/-- The clause of one constraint on a field means what the constraint says about it. -/
theorem meaning_entry_field (name : String) (node : Node) :
    interpretation.meaning (entry (.field name) node) = interpretation.constraint name node := by
  rw [entry, interpretation.meaning_conjuncts rfl]
  exact meet_singleton _

/-- The third pass makes a clause of a field that says the same about it. -/
theorem meaning_fieldForm {field : Key × Node} {clause : Node} (form : FieldForm field clause)
    (proper : field.2.Proper) :
    interpretation.conjunct field = interpretation.meaning clause := by
  cases form with
  | scalar name value =>
      rw [meaning_entry_field]
      rfl
  | body name comparisons unbounded =>
      have clausesProper := clausesOn_proper name (proper_mapping.mp proper).2
      rw [interpretation.meaning_conjunction clausesProper, clausesOn, List.map_map]
      simp only [Function.comp_def, meaning_entry_field, constraint_entry]
      simp only [Interpretation.conjunct, Interpretation.constraint, unbounded]
      rfl

/-- The third pass makes a conjunction of the clauses of the fields. -/
theorem expandConjunction_fields_preserved {entries : Entries} (fields : Fields PlainBody entries)
    (proper : Proper (.mapping entries)) :
    Preserved interpretation PlainBody (expandConjunction none (.mapping entries))
      (.mapping entries) := by
  rw [proper_mapping] at proper
  rcases eq_or_ne entries [] with rfl | nonempty
  · exact ⟨.mapping [], rfl, .fields fields, rfl⟩
  rcases exists_fieldForms fields nonempty proper.2 with ⟨clauses, forms, expanded⟩
  refine ⟨conjunction clauses, expanded, ?_, ?_⟩
  · apply conjunction_clause
    intro clause present
    rcases exists_source forms present with ⟨field, _, form⟩
    exact form.clause
  · have clausesProper : ∀ clause ∈ clauses, clause.Proper := by
      intro clause present
      rcases exists_source forms present with ⟨field, among, form⟩
      exact form.proper (proper.2 field among)
    have sameConjuncts : entries.map interpretation.conjunct =
        clauses.map interpretation.meaning := by
      apply map_eq_map_of_forall₂ forms
      intro field among clause form
      exact meaning_fieldForm interpretation form (proper.2 field among)
    rw [interpretation.meaning_conjunction clausesProper,
      interpretation.meaning_conjuncts fields.isStructural_eq_false, sameConjuncts]

end Meanings

/-- Every well-formed clause has a normal form. It is a well-formed clause without ranges, and means
the same under every interpretation of the atoms and of structural mappings. -/
theorem normalize_preserves_meaning {M : Type u} [Lattice M] [BoundedOrder M]
    (interpretation : Interpretation M) {node : Node} (proper : node.Proper)
    (clause : Clause Body node) :
    ∃ result, normalize node = .ok result ∧ Clause PlainBody result ∧
      interpretation.meaning result = interpretation.meaning node := by
  have first : Preserved interpretation RangedBody (expandRange node) node := by
    apply walks_expandRange.preserves interpretation _ clause proper
    intro entries fields entriesProper
    apply preserves_fields interpretation walks_expandRange.scalar _ fields entriesProper
    · apply expandRange_of_unbounded
      apply bounds?_eq_none_of_noComparison
      intro key present
      simp [fields.category?_eq_none key present]
    · intro body isBody bodyProper
      exact expandRange_body interpretation isBody bodyProper
  rcases first with ⟨ranged, expanded, rangedClause, sameRanged⟩
  have rangedProper := expandRange_proper proper expanded
  have second : Preserved interpretation PlainBody (compareRange ranged) ranged := by
    apply walks_compareRange.preserves interpretation _ rangedClause rangedProper
    intro entries fields entriesProper
    apply preserves_fields interpretation walks_compareRange.scalar _ fields entriesProper
    · exact compareRange_mapping entries
    · intro body isBody bodyProper
      exact compareValue_body interpretation isBody bodyProper
  rcases second with ⟨compared, comparedOk, comparedClause, sameCompared⟩
  have comparedProper := compareRange_proper rangedProper comparedOk
  have third : Preserved interpretation PlainBody (expandConjunction none compared) compared := by
    apply walks_expandConjunction.preserves interpretation _ comparedClause comparedProper
    intro entries fields entriesProper
    exact expandConjunction_fields_preserved interpretation fields entriesProper
  rcases third with ⟨result, resultOk, resultClause, sameResult⟩
  refine ⟨result, normalize_eq_ok.mpr ⟨ranged, compared, expanded, comparedOk, resultOk⟩,
    resultClause, ?_⟩
  rw [sameResult, sameCompared, sameRanged]

/-- A field that equals a scalar, beside a field in a range. -/
def chevyYears : Node :=
  .mapping [(.field "make", .scalar (.text "chevy")), (.field "year",
    .mapping [(.operator .start, .scalar (.int 2001)), (.operator .stop, .scalar (.int 2005))])]

/-- Every equality holds, and of the comparisons only those with a least or greatest value. -/
def boundsInterpretation : Interpretation Bool :=
  ⟨fun _ _ => true, fun _ op _ => op == .gte || op == .lte, fun _ => false⟩

theorem normalize_preserves_meaning_range :
    chevyYears.Proper ∧ Clause Body chevyYears ∧ boundsInterpretation.meaning chevyYears = true ∧
      ∃ result, normalize chevyYears = .ok result ∧ Clause PlainBody result ∧
        boundsInterpretation.meaning result = boundsInterpretation.meaning chevyYears := by
  have proper : chevyYears.Proper := by
    simp [chevyYears, Entries.keys]
  have comparisons : Comparisons
      [(.operator .start, .scalar (.int 2001)), (.operator .stop, .scalar (.int 2005))] := by
    constructor
    · simp
    · intro entry present
      rcases List.mem_pair.mp present with rfl | rfl
      · exact ⟨.start, rfl, rfl, .scalar _⟩
      · exact ⟨.stop, rfl, rfl, .scalar _⟩
  have clause : Clause Body chevyYears := by
    apply Clause.fields
    constructor
    · intro entry present
      rcases List.mem_pair.mp present with rfl | rfl
      · exact ⟨"make", rfl⟩
      · exact ⟨"year", rfl⟩
    · intro entry present
      rcases List.mem_pair.mp present with rfl | rfl
      · exact .inl ⟨_, rfl⟩
      · exact .inr (.comparisons comparisons (by simp [Entries.keys]))
  exact ⟨proper, clause, rfl, normalize_preserves_meaning boundsInterpretation proper clause⟩

end Node

end FilterLang
