import FilterLang.Proofs.Validation.Reporting

/-!
# What validation comes to

Validation starts at the root of a filter and comes from there to the values of entries and to the
clauses of logical operators. It hands down the nearest operator and the nearest known field, and a
mapping hands them on from entry to entry (`Context.Leads`). `Node.Visited` says where validation
comes to and with what, `Node.Compared` which scalars it compares with which field, `Node.Applied`
which operators it meets under which field and `Node.Named` which fields it meets. All of them speak
of the filter alone, once it is settled which fields are known.

What a view has to say about values, operators and unknown fields is said of these and of nothing
else (`View.raised_iff`). The one direction follows the visits down from the root, the other is an
induction over what is visited.
-/

namespace FilterLang

/-- After some keys, a context has the last operator and the last known field among them. -/
inductive Context.Leads (known : String → Prop) : List Key → Context → Context → Prop
  | nil {context : Context} : Leads known [] context context
  | operator {op : Operator} {keys : List Key} {context last : Context}
      (later : Leads known keys ⟨some op, context.field⟩ last) :
      Leads known (.operator op :: keys) context last
  | field {name : String} {keys : List Key} {context last : Context} (isKnown : known name)
      (later : Leads known keys ⟨context.operator, some name⟩ last) :
      Leads known (.field name :: keys) context last
  | unknown {name : String} {keys : List Key} {context last : Context} (isUnknown : ¬known name)
      (later : Leads known keys context last) : Leads known (.field name :: keys) context last

namespace Node

/-- Validation comes to a node at a position with a context. It does not go on to a scalar that is
bound to a field. -/
inductive Visited (known : String → Prop) (filter : Node) : Position → Context → Node → Prop
  | root : Visited known filter [] .root filter
  | entry {position : Position} {context inner : Context} {before after : Entries} {key : Key}
      {value : Node}
      (above : Visited known filter position context (.mapping (before ++ (key, value) :: after)))
      (leads : Context.Leads known (Entries.keys before ++ [key]) context inner)
      (walked : key.isOperator = true ∨ value.isComposite = true) :
      Visited known filter (position ++ [.key key]) inner value
  | clause {position : Position} {op : Operator} {field : Option String} {elements : Elements}
      {index : Nat} {clause : Node}
      (above : Visited known filter position ⟨some op, field⟩ (.multiset elements))
      (logical : op.isLogical = true) (among : elements[index]? = some clause) :
      Visited known filter (position ++ [.index index]) ⟨some op, field⟩ clause

/-- A scalar is compared with a field: it is bound to the field, or it is the operand of an operator
under the field, or one of the values that the operand admits. -/
inductive Compared (known : String → Prop) (filter : Node) : Position → String → Scalar → Prop
  | bound {position : Position} {context : Context} {before after : Entries} {field : String}
      {value : Scalar} (above : Visited known filter position context
        (.mapping (before ++ (.field field, .scalar value) :: after))) (isKnown : known field) :
      Compared known filter (position ++ [.key (.field field)]) field value
  | operand {position : Position} {op : Operator} {field : String} {value : Scalar}
      (visited : Visited known filter position ⟨some op, some field⟩ (.scalar value))
      (takes : op.takesFieldOperand = true) : Compared known filter position field value
  | member {position : Position} {field : String} {elements : Elements} {index : Nat}
      {value : Scalar}
      (above : Visited known filter position ⟨some .among, some field⟩ (.multiset elements))
      (among : elements[index]? = some (.scalar value)) :
      Compared known filter (position ++ [.index index]) field value

/-- An operator is applied under a field, or under none. -/
inductive Applied (known : String → Prop) (filter : Node) :
    Position → Operator → Option String → Prop
  | entry {position : Position} {context inner : Context} {before after : Entries} {op : Operator}
      {value : Node} (above : Visited known filter position context
        (.mapping (before ++ (.operator op, value) :: after)))
      (leads : Context.Leads known (Entries.keys before) context inner) :
      Applied known filter (position ++ [.key (.operator op)]) op inner.field

/-- A field is named by a key. -/
inductive Named (known : String → Prop) (filter : Node) : Position → String → Prop
  | entry {position : Position} {context : Context} {before after : Entries} {field : String}
      {value : Node} (above : Visited known filter position context
        (.mapping (before ++ (.field field, value) :: after))) :
      Named known filter (position ++ [.key (.field field)]) field

end Node

/-- The kinds of problems that depend on what the datasets of a view declare. -/
def ProblemKind.isDelegated : ProblemKind → Bool
  | .unknownKey | .operatorNotPermitted | .typeMismatch | .valueConstraintViolation => true
  | _ => false

/-- A finding in a tree that a position leads to. -/
def Finding.below (position : Position) (finding : Finding) : Finding :=
  ⟨position ++ finding.position, finding.problem⟩

theorem Finding.below_under {position : Position} {step : Step} {finding : Finding} :
    (finding.under step).below position = finding.below (position ++ [step]) := by
  simp [below, under]

theorem Finding.below_here {position : Position} {problem : Problem} :
    (here problem).below position = ⟨position, problem⟩ := by
  simp [below, here]

namespace View

/-- A field is one of a view. -/
def Knows (view : View) (field : String) : Prop := view.hasField field = true

variable {view : View} {filter node : Node} {position : Position} {context : Context}
  {finding : Finding} {problem : Problem}

/-- What a view has to say about the values, the operators and the fields that validation comes
to. -/
inductive Raised (view : View) (filter : Node) : Finding → Prop
  | value {position : Position} {field : String} {value : Scalar} {problem : Problem}
      (compared : filter.Compared view.Knows position field value)
      (wrong : problem ∈ view.valueProblems field value) : Raised view filter ⟨position, problem⟩
  | operator {position : Position} {op : Operator} {field : Option String} {problem : Problem}
      (applied : filter.Applied view.Knows position op field)
      (wrong : problem ∈ view.operatorProblems ⟨none, field⟩ op) :
      Raised view filter ⟨position, problem⟩
  | unknown {position : Position} {field : String}
      (named : filter.Named view.Knows position field) (isUnknown : ¬view.Knows field) :
      Raised view filter ⟨position, .unknownField field view.name⟩

section Contexts

theorem contextAfter_of_knows {field : String} (known : view.Knows field) :
    view.contextAfter context (.field field) = ⟨context.operator, some field⟩ := by
  simp [contextAfter, Context.afterField, show view.hasField field = true from known]

theorem contextAfter_of_not_knows {field : String} (unknown : ¬view.Knows field) :
    view.contextAfter context (.field field) = context := by
  simp [contextAfter, Context.afterField, show ¬view.hasField field = true from unknown]

theorem leads_iff {entries : Entries} {last : Context} :
    Context.Leads view.Knows (Entries.keys entries) context last ↔
      view.contextThrough context entries = last := by
  induction entries generalizing context with
  | nil =>
      constructor
      · rintro ⟨⟩
        rfl
      · rintro rfl
        exact .nil
  | cons entry rest ih =>
      rcases entry with ⟨op | field, value⟩
      · rw [contextThrough_cons, ← ih]
        constructor
        · rintro ⟨⟩
          assumption
        · exact .operator
      · rw [contextThrough_cons]
        by_cases known : view.Knows field
        · rw [contextAfter_of_knows known, ← ih]
          constructor
          · intro leads
            cases leads with
            | field _ later => exact later
            | unknown unknown _ => exact absurd known unknown
          · exact .field known
        · rw [contextAfter_of_not_knows known, ← ih]
          constructor
          · intro leads
            cases leads with
            | field isKnown _ => exact absurd isKnown known
            | unknown _ later => exact later
          · exact .unknown known

theorem leads_concat_iff {before : Entries} {key : Key} {last : Context} :
    Context.Leads view.Knows (Entries.keys before ++ [key]) context last ↔
      view.contextAfter (view.contextThrough context before) key = last := by
  have through := @leads_iff view context (before ++ [(key, .scalar (.bool true))]) last
  simpa [Entries.keys, contextThrough] using through

end Contexts

section Completeness

open Node (Visited)

/-- What is found in a visited node is found in the filter. -/
theorem mem_filterFindings_of_visited (visited : Visited view.Knows filter position context node)
    (found : finding ∈ view.findings context node) :
    finding.below position ∈ view.filterFindings filter := by
  induction visited generalizing finding with
  | root =>
      apply List.mem_append_right
      exact found
  | @entry position context inner before after key value _ leads walked ih =>
      rw [← Finding.below_under]
      apply ih
      apply mem_entryFindings.mpr
      refine ⟨before, (key, value), after, rfl, finding, ?_, rfl⟩
      rw [findingsAt_of_walked walked, leads_concat_iff.mp leads]
      exact List.mem_append_right _ found
  | @clause position op field elements index clause _ logical among ih =>
      rw [← Finding.below_under]
      apply ih
      rw [findings_logical logical]
      apply mem_clauseFindings.mpr
      refine ⟨index, clause, among, finding, ?_, rfl⟩
      exact List.mem_append_right _ found

theorem findings_among {field : Option String} {elements : Elements} :
    view.findings ⟨some .among, field⟩ (.multiset elements) =
      (if field.isNone then [.here (.membershipWithoutField .among)] else [])
        ++ view.membershipFindings .among field 0 elements := rfl

theorem isDelegated_of_mem_valueProblems {field : String} {value : Scalar}
    (wrong : problem ∈ view.valueProblems field value) : problem.kind.isDelegated = true := by
  unfold valueProblems at wrong
  split at wrong
  · rcases List.mem_map.mp wrong with ⟨complaint, _, rfl⟩
    rfl
  · rcases List.mem_map.mp wrong with ⟨complaint, _, rfl⟩
    rfl

theorem isDelegated_of_mem_operatorProblems {op : Operator}
    (wrong : problem ∈ view.operatorProblems context op) : problem.kind.isDelegated = true := by
  unfold operatorProblems at wrong
  split at wrong
  · rcases List.mem_map.mp wrong with ⟨complaint, _, rfl⟩
    rfl
  · rw [List.mem_singleton] at wrong
    subst wrong
    rfl

theorem mem_filterFindings_of_entry {before after : Entries} {key : Key} {value : Node}
    (above : Visited view.Knows filter position context
      (.mapping (before ++ (key, value) :: after)))
    (found : .here problem ∈
      view.findingsAt context.operator (view.contextThrough context before) (key, value)) :
    ⟨position ++ [.key key], problem⟩ ∈ view.filterFindings filter := by
  have inside : (Finding.here problem).under (.key key) ∈
      view.findings context (.mapping (before ++ (key, value) :: after)) :=
    mem_entryFindings.mpr ⟨before, (key, value), after, rfl, _, found, rfl⟩
  exact mem_filterFindings_of_visited above inside

theorem mem_filterFindings_of_compared {field : String} {value : Scalar}
    (compared : filter.Compared view.Knows position field value)
    (wrong : problem ∈ view.valueProblems field value) :
    ⟨position, problem⟩ ∈ view.filterFindings filter := by
  cases compared with
  | bound above isKnown =>
      have known : view.hasField field = true := isKnown
      apply mem_filterFindings_of_entry above
      simp only [findingsAt, Node.scalar?, known, if_true]
      exact List.mem_append_right _ (List.mem_map_of_mem wrong)
  | @operand _ op _ _ visited takes =>
      have inside : .here problem ∈ view.findings ⟨some op, some field⟩ (.scalar value) := by
        simp only [findings, operandProblems, takes, if_true]
        exact List.mem_map_of_mem wrong
      rw [← Finding.below_here]
      exact mem_filterFindings_of_visited visited inside
  | @member _ _ elements index _ above among =>
      have inside : (Finding.here problem).under (.index index) ∈
          view.findings ⟨some .among, some field⟩ (.multiset elements) := by
        rw [findings_among]
        apply List.mem_append_right
        apply mem_membershipFindings.mpr
        exact ⟨index, .scalar value, among, problem, wrong, rfl⟩
      exact mem_filterFindings_of_visited above inside

theorem Raised.mem_filterFindings (raised : view.Raised filter finding) :
    finding ∈ view.filterFindings filter := by
  rcases raised with ⟨compared, wrong⟩ | ⟨applied, wrong⟩ | ⟨named, unknown⟩
  · exact mem_filterFindings_of_compared compared wrong
  · rcases applied with ⟨above, leads⟩
    apply mem_filterFindings_of_entry above
    rw [leads_iff] at leads
    rw [findingsAt_operator, keyProblems, leads]
    apply List.mem_append_left
    exact List.mem_map_of_mem (List.mem_append_left _ wrong)
  · rcases named with ⟨above⟩
    apply mem_filterFindings_of_entry above
    apply List.mem_append_left
    apply List.mem_map_of_mem
    simpa [keyProblems, Knows] using unknown

theorem Raised.isDelegated (raised : view.Raised filter finding) :
    finding.problem.kind.isDelegated = true := by
  cases raised with
  | value _ wrong => exact isDelegated_of_mem_valueProblems wrong
  | operator _ wrong => exact isDelegated_of_mem_operatorProblems wrong
  | unknown _ _ => rfl

end Completeness

section Soundness

open Node (Visited)

theorem kind_of_mem_foreignProblems {value : Node} (found : problem ∈ view.foreignProblems value) :
    problem.kind = .unknownForeign := by
  unfold foreignProblems at found
  split at found
  · split at found
    · simp at found
    · rw [List.mem_singleton.mp found]
      rfl
  · rw [List.mem_singleton.mp found]
    rfl

theorem kind_of_mem_clauseProblems {op : Operator} {clause : Node}
    (found : problem ∈ clauseProblems op clause) : problem.kind = .expectedMapping := by
  unfold clauseProblems at found
  split at found
  · simp at found
  · rw [List.mem_singleton.mp found]
    rfl

theorem raised_of_mem_keyProblems {before after : Entries} {key : Key} {value : Node}
    (above : Visited view.Knows filter position context
      (.mapping (before ++ (key, value) :: after)))
    (found : problem ∈ view.keyProblems context.operator (view.contextThrough context before) key
      value)
    (delegated : problem.kind.isDelegated = true) :
    view.Raised filter ⟨position ++ [.key key], problem⟩ := by
  cases key with
  | operator op =>
      rcases List.mem_append.mp found with ofOperator | ofForeign
      · exact .operator (.entry above (leads_iff.mpr rfl)) ofOperator
      · split at ofForeign
        · rw [kind_of_mem_foreignProblems ofForeign] at delegated
          cases delegated
        · simp at ofForeign
  | field field =>
      simp only [keyProblems] at found
      split at found
      · simp at found
      · next unknown =>
        rw [List.mem_singleton.mp found]
        exact .unknown (.entry above) unknown

theorem raised_of_mem_operandProblems {value : Scalar}
    (visited : Visited view.Knows filter position context (.scalar value))
    (found : problem ∈ view.operandProblems context value) :
    view.Raised filter ⟨position, problem⟩ := by
  rcases context with ⟨_ | op, _ | field⟩
  · simp [operandProblems] at found
  · simp [operandProblems] at found
  · simp [operandProblems] at found
  · by_cases takes : op.takesFieldOperand = true
    · simp only [operandProblems, takes, if_true] at found
      exact .value (.operand visited takes) found
    · simp [operandProblems, takes] at found

theorem raised_of_mem_memberProblems {field : Option String} {elements : Elements} {index : Nat}
    {member : Node}
    (above : Visited view.Knows filter position ⟨some .among, field⟩ (.multiset elements))
    (among : elements[index]? = some member)
    (found : problem ∈ view.memberProblems .among field member)
    (delegated : problem.kind.isDelegated = true) :
    view.Raised filter ⟨position ++ [.index index], problem⟩ := by
  cases member with
  | scalar value =>
      cases field with
      | none => simp [memberProblems] at found
      | some field => exact .value (.member above among) found
  | _ =>
      rw [List.mem_singleton.mp found] at delegated
      cases delegated

/-- Of values, operators and fields only what is raised is found in a tree, wherever validation
comes to it. -/
def RaisesAll (view : View) (filter node : Node) : Prop :=
  ∀ position context, Visited view.Knows filter position context node →
    ∀ finding ∈ view.findings context node, finding.problem.kind.isDelegated = true →
      view.Raised filter (finding.below position)

theorem raisesAll_scalar {value : Scalar} : view.RaisesAll filter (.scalar value) := by
  intro position context visited finding found _
  rcases List.mem_map.mp found with ⟨problem, wrong, rfl⟩
  rw [Finding.below_here]
  exact raised_of_mem_operandProblems visited wrong

theorem raisesAll_sequence {items : List Node} : view.RaisesAll filter (.sequence items) := by
  intro position context _ finding found delegated
  rw [List.mem_singleton.mp found] at delegated
  cases delegated

theorem raised_of_bound {before after : Entries} {field : String} {value : Scalar}
    {enclosing : Option Operator}
    (above : Visited view.Knows filter position context
      (.mapping (before ++ (.field field, .scalar value) :: after)))
    (found : finding ∈ view.findingsAt enclosing (view.contextThrough context before)
      (.field field, .scalar value)) :
    view.Raised filter (finding.below (position ++ [.key (.field field)])) := by
  by_cases known : view.Knows field
  · have isKnown : view.hasField field = true := known
    simp only [findingsAt, keyProblems, isKnown, Node.scalar?, if_true] at found
    rcases List.mem_map.mp found with ⟨problem, wrong, rfl⟩
    rw [Finding.below_here]
    exact .value (.bound above known) wrong
  · have isUnknown : ¬view.hasField field = true := known
    simp only [findingsAt, keyProblems, isUnknown, Node.scalar?] at found
    rw [List.mem_singleton.mp found, Finding.below_here]
    exact .unknown (.entry above) known

theorem raised_of_mem_findingsAt {before after : Entries} {key : Key} {value : Node}
    (above : Visited view.Knows filter position context
      (.mapping (before ++ (key, value) :: after)))
    (inside : view.RaisesAll filter value)
    (found : finding ∈ view.findingsAt context.operator (view.contextThrough context before)
      (key, value))
    (delegated : finding.problem.kind.isDelegated = true) :
    view.Raised filter (finding.below (position ++ [.key key])) := by
  by_cases walked : key.isOperator = true ∨ value.isComposite = true
  · rw [findingsAt_of_walked walked] at found
    rcases List.mem_append.mp found with ofKey | ofValue
    · rcases List.mem_map.mp ofKey with ⟨problem, wrong, rfl⟩
      rw [Finding.below_here]
      exact raised_of_mem_keyProblems above wrong delegated
    · apply inside _ _ _ _ ofValue delegated
      exact .entry above (leads_concat_iff.mpr rfl) walked
  · rcases key with op | field
    · exact absurd (.inl rfl) walked
    · rcases Node.exists_scalar (by simpa [Key.isOperator] using walked) with ⟨scalar, rfl⟩
      exact raised_of_bound above found

theorem raisesAll_mapping {entries : Entries}
    (inside : ∀ entry ∈ entries, view.RaisesAll filter entry.2) :
    view.RaisesAll filter (.mapping entries) := by
  intro position context visited finding found delegated
  rcases mem_entryFindings.mp found with ⟨before, entry, after, rfl, inner, among, rfl⟩
  rw [Finding.below_under]
  exact raised_of_mem_findingsAt visited (inside entry (by simp)) among delegated

theorem raised_of_mem_findings_logical {op : Operator} {field : Option String}
    {elements : Elements} (logical : op.isLogical = true)
    (above : Visited view.Knows filter position ⟨some op, field⟩ (.multiset elements))
    (inside : ∀ clause ∈ elements, view.RaisesAll filter clause)
    (found : finding ∈ view.findings ⟨some op, field⟩ (.multiset elements))
    (delegated : finding.problem.kind.isDelegated = true) :
    view.Raised filter (finding.below position) := by
  rw [findings_logical logical] at found
  rcases mem_clauseFindings.mp found with ⟨index, clause, among, inner, ofElement, rfl⟩
  rw [Finding.below_under]
  rcases List.mem_append.mp ofElement with ofClause | ofValue
  · rcases List.mem_map.mp ofClause with ⟨problem, wrong, rfl⟩
    change problem.kind.isDelegated = true at delegated
    rw [kind_of_mem_clauseProblems wrong] at delegated
    cases delegated
  · apply inside clause (List.mem_of_getElem? among) _ _ _ _ ofValue delegated
    exact .clause above logical among

theorem raised_of_mem_findings_among {field : Option String} {elements : Elements}
    (above : Visited view.Knows filter position ⟨some .among, field⟩ (.multiset elements))
    (found : finding ∈ view.findings ⟨some .among, field⟩ (.multiset elements))
    (delegated : finding.problem.kind.isDelegated = true) :
    view.Raised filter (finding.below position) := by
  rw [findings_among] at found
  rcases List.mem_append.mp found with ofOperator | ofMember
  · split at ofOperator
    · rw [List.mem_singleton.mp ofOperator] at delegated
      cases delegated
    · simp at ofOperator
  · rcases mem_membershipFindings.mp ofMember with ⟨index, member, among, problem, wrong, rfl⟩
    rw [Finding.below_under, Finding.below_here]
    exact raised_of_mem_memberProblems above among wrong delegated

theorem raisesAll_multiset {elements : Elements}
    (inside : ∀ clause ∈ elements, view.RaisesAll filter clause) :
    view.RaisesAll filter (.multiset elements) := by
  intro position context visited finding found delegated
  rcases context with ⟨_ | op, field⟩
  · rw [List.mem_singleton.mp found] at delegated
    cases delegated
  · by_cases logical : op.isLogical = true
    · exact raised_of_mem_findings_logical logical visited inside found delegated
    · by_cases membership : op = .among
      · subst membership
        exact raised_of_mem_findings_among visited found delegated
      · have refused : finding = .here (.multisetOperand op) := by
          simpa [findings, logical, Operator.isMembership, membership] using found
        rw [refused] at delegated
        cases delegated

theorem raisesAll (node : Node) : view.RaisesAll filter node := by
  induction node with
  | scalar value => exact raisesAll_scalar
  | mapping entries ih => exact raisesAll_mapping ih
  | multiset elements ih => exact raisesAll_multiset ih
  | sequence items => exact raisesAll_sequence

/-- Of values, operators and fields exactly what is raised is found. -/
theorem raised_iff :
    view.Raised filter finding ↔
      finding ∈ view.filterFindings filter ∧ finding.problem.kind.isDelegated = true := by
  constructor
  · intro raised
    exact ⟨raised.mem_filterFindings, raised.isDelegated⟩
  · rintro ⟨found, delegated⟩
    rcases List.mem_append.mp found with atRoot | inside
    · split at atRoot
      · simp at atRoot
      · rw [List.mem_singleton.mp atRoot] at delegated
        cases delegated
    · exact raisesAll filter _ _ .root finding inside delegated

end Soundness

end View

end FilterLang
