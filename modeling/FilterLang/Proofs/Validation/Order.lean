import FilterLang.Proofs.Filter.Equality
import FilterLang.Proofs.Normal.Canonical
import FilterLang.Proofs.Validation.Reporting

/-!
# The order of a filter in its report

An entry of a mapping sees what the entries before it have set, so that the order of entries counts
for validation. In a canonical tree it does not: a mapping holds one entry, or it holds operators
only. Equal canonical trees therefore have the same kinds of problems, in another order. Whether
there are problems at all does not depend on the order as soon as no mapping mixes operators with
fields (`Node.Uniform`).
-/

namespace FilterLang

theorem Node.CanonicalEntries.operators_or_field {entries : Entries}
    (shape : CanonicalEntries entries) :
    (∀ key ∈ Entries.keys entries, key.isOperator = true) ∨
      ∃ name value, entries = [(.field name, value)] := by
  cases shape with
  | empty => exact .inl (by simp [Entries.keys])
  | logical _ logical =>
      exact .inl fun key present => Key.isOperator_of_category? (logical key present)
  | structural _ structural =>
      exact .inl fun key present => Key.isOperator_of_category? (structural key present)
  | comparison _ operand => exact .inl (by simp [Entries.keys, Key.isOperator])
  | @field name value _ => exact .inr ⟨name, value, rfl⟩

namespace Finding

/-- The kinds of the problems found. -/
def kinds (findings : List Finding) : List ProblemKind :=
  findings.map fun finding => finding.problem.kind

@[simp]
theorem kinds_append (first second : List Finding) :
    kinds (first ++ second) = kinds first ++ kinds second :=
  List.map_append

@[simp]
theorem kinds_under (step : Step) (findings : List Finding) :
    kinds (findings.map (under step)) = kinds findings := by
  simp [kinds, under]

@[simp]
theorem kinds_here (problems : List Problem) :
    kinds (problems.map here) = problems.map Problem.kind := by
  simp [kinds, here]

end Finding

theorem Report.length_of_kinds {first second : Report}
    (sameKinds : (first.issues.map Issue.kind).Perm (second.issues.map Issue.kind)) :
    first.issues.length = second.issues.length := by
  simpa using sameKinds.length_eq

theorem Report.isValid_of_kinds {first second : Report}
    (sameKinds : (first.issues.map Issue.kind).Perm (second.issues.map Issue.kind)) :
    first.isValid = second.isValid := by
  rw [isValid, isValid, Bool.eq_iff_iff]
  simp only [List.isEmpty_iff_length_eq_zero, length_of_kinds sameKinds]

namespace View

open Finding (kinds)
open Node (SameTree Canonical CanonicalEntries)

variable {view : View} {context : Context} {enclosing : Option Operator}

section Entries

theorem kinds_foreignProblems {value other : Node} (same : other.scalar? = value.scalar?) :
    (view.foreignProblems value).map Problem.kind =
      (view.foreignProblems other).map Problem.kind := by
  rw [foreignProblems, foreignProblems, same]
  split
  · rfl
  · rfl

/-- The problems of a key depend on the scalar that it may be bound to. -/
theorem kinds_keyProblems {key : Key} {value other : Node} (same : other.scalar? = value.scalar?) :
    (view.keyProblems enclosing context key value).map Problem.kind =
      (view.keyProblems enclosing context key other).map Problem.kind := by
  cases key with
  | operator op =>
      simp only [keyProblems, List.map_append]
      split
      · rw [kinds_foreignProblems same]
      · rfl
  | field name => rfl

theorem kinds_findingsAt_of_composite {key : Key} {value other : Node}
    (composite : value.isComposite = true) (otherComposite : other.isComposite = true)
    (inside : ∀ context, (kinds (view.findings context value)).Perm
      (kinds (view.findings context other))) :
    (kinds (view.findingsAt enclosing context (key, value))).Perm
      (kinds (view.findingsAt enclosing context (key, other))) := by
  have sameScalar : other.scalar? = value.scalar? := by
    rw [Node.scalar?_of_composite composite, Node.scalar?_of_composite otherComposite]
  rw [findingsAt_of_composite composite, findingsAt_of_composite otherComposite]
  simp only [Finding.kinds_append, Finding.kinds_here, kinds_keyProblems sameScalar]
  exact (inside _).append_left _

theorem kinds_findingsAt {entry other : Key × Node}
    (same : Entries.Corresponds SameTree entry other)
    (inside : ∀ context, (kinds (view.findings context entry.2)).Perm
      (kinds (view.findings context other.2))) :
    (kinds (view.findingsAt enclosing context entry)).Perm
      (kinds (view.findingsAt enclosing context other)) := by
  rcases Node.eq_or_composite same with rfl | ⟨composite, otherComposite⟩
  · rfl
  · rcases entry with ⟨key, value⟩
    rcases other with ⟨otherKey, other⟩
    cases same.1
    exact kinds_findingsAt_of_composite composite otherComposite inside

/-- Equal mappings of canonical shape have the same kinds of problems, if their values do. -/
theorem kinds_entryFindings {entries others : Entries} (shape : CanonicalEntries entries)
    (matching : Matching (Entries.Corresponds SameTree) entries others)
    (inside : ∀ entry ∈ entries, ∀ other, SameTree entry.2 other → ∀ context,
      (kinds (view.findings context entry.2)).Perm (kinds (view.findings context other))) :
    (kinds (view.entryFindings enclosing context entries)).Perm
      (kinds (view.entryFindings enclosing context others)) := by
  have sameAt : ∀ entry ∈ entries, ∀ other, Entries.Corresponds SameTree entry other →
      (kinds ((view.findingsAt enclosing context entry).map (Finding.under (.key entry.1)))).Perm
        (kinds ((view.findingsAt enclosing context other).map (Finding.under (.key other.1)))) := by
    intro entry present other same
    simp only [Finding.kinds_under]
    exact kinds_findingsAt same (inside entry present other.2 same.2)
  rcases shape.operators_or_field with operators | ⟨name, value, rfl⟩
  · have sameKeys := Entries.keys_perm_of_matching matching
    have otherOperators : ∀ key ∈ Entries.keys others, key.isOperator = true := by
      intro key present
      exact operators key (sameKeys.mem_iff.mpr present)
    rw [entryFindings_of_operators operators, entryFindings_of_operators otherOperators, kinds,
      kinds, List.map_flatMap, List.map_flatMap]
    exact matching.flatMap_perm sameAt
  · have alone := matching.length_eq
    rcases List.length_eq_one_iff.mp alone.symm with ⟨other, rfl⟩
    rcases matching.exists_right (List.mem_singleton_self _) with ⟨partner, among, same⟩
    rw [List.mem_singleton] at among
    subst among
    rw [entryFindings_singleton, entryFindings_singleton]
    exact sameAt _ (List.mem_singleton_self _) partner same

end Entries

section Elements

variable {op : Operator} {field : Option String} {index : Nat}

theorem kinds_clauseFindings (elements : Elements) :
    kinds (view.clauseFindings op context index elements) =
      elements.flatMap fun clause =>
        (clauseProblems op clause).map Problem.kind ++ kinds (view.findings context clause) := by
  induction elements generalizing index with
  | nil => rfl
  | cons clause rest ih =>
      rw [clauseFindings, Finding.kinds_append, Finding.kinds_under, Finding.kinds_append,
        Finding.kinds_here, ih, List.flatMap_cons]

theorem kinds_membershipFindings (elements : Elements) :
    kinds (view.membershipFindings op field index elements) =
      elements.flatMap fun member => (view.memberProblems op field member).map Problem.kind := by
  induction elements generalizing index with
  | nil => rfl
  | cons member rest ih =>
      rw [membershipFindings, Finding.kinds_append, Finding.kinds_under, Finding.kinds_here, ih,
        List.flatMap_cons]

theorem kinds_clauseProblems {clause other : Node} (same : other.isMapping = clause.isMapping) :
    (clauseProblems op clause).map Problem.kind = (clauseProblems op other).map Problem.kind := by
  simp only [clauseProblems, same]
  split
  · rfl
  · rfl

/-- The problems of an admitted value depend on the scalar that it may be. -/
theorem kinds_memberProblems {member other : Node} (same : other.scalar? = member.scalar?) :
    (view.memberProblems op field member).map Problem.kind =
      (view.memberProblems op field other).map Problem.kind := by
  cases member with
  | scalar scalar => rw [Node.scalar?_eq_some.mp same]
  | _ => cases other <;> first | rfl | cases same

/-- The kinds of problems of an element, in the context of the multiset that it is in. -/
def elementKinds (view : View) (context : Context) (element : Node) : List ProblemKind :=
  match context.operator with
  | none => []
  | some op =>
    if op.isLogical then
      (clauseProblems op element).map Problem.kind ++ kinds (view.findings context element)
    else if op.isMembership then
      (view.memberProblems op context.field element).map Problem.kind
    else []

/-- A multiset has the problems that it would have without elements, and those of its elements. -/
theorem kinds_multiset (elements : Elements) :
    kinds (view.findings context (.multiset elements)) =
      kinds (view.findings context (.multiset []))
        ++ elements.flatMap (view.elementKinds context) := by
  unfold elementKinds
  rcases context with ⟨_ | op, field⟩
  · simp [findings]
  · by_cases logical : op.isLogical = true
    · simp [findings, logical, kinds_clauseFindings]
    · by_cases membership : op.isMembership = true
      · simp [findings, logical, membership, kinds_membershipFindings]
      · simp [findings, logical, membership]

theorem elementKinds_perm {element other : Node} (sameMapping : other.isMapping = element.isMapping)
    (sameScalar : other.scalar? = element.scalar?)
    (inside : (kinds (view.findings context element)).Perm (kinds (view.findings context other))) :
    (view.elementKinds context element).Perm (view.elementKinds context other) := by
  simp only [elementKinds, kinds_clauseProblems sameMapping, kinds_memberProblems sameScalar]
  split
  · rfl
  · split
    · exact inside.append_left _
    · rfl

end Elements

/-- Equal canonical trees have the same kinds of problems, in every context. -/
theorem kinds_findings {node other : Node} (canonical : node.Canonical)
    (same : SameTree node other) :
    (kinds (view.findings context node)).Perm (kinds (view.findings context other)) := by
  induction node generalizing context other with
  | scalar scalar => rw [Node.eq_scalar_of_equal same.2]
  | mapping entries ih =>
      rcases Node.exists_mapping_of_equal same.2 with ⟨others, rfl⟩
      rw [Node.canonical_mapping] at canonical
      simp only [findings]
      apply kinds_entryFindings canonical.1 same.entries
      intro entry present other sameValue context
      exact ih entry present (canonical.2 entry present) sameValue
  | multiset elements ih =>
      rcases Node.exists_multiset_of_equal same.2 with ⟨others, rfl⟩
      rw [Node.canonical_multiset] at canonical
      rw [kinds_multiset elements, kinds_multiset others]
      apply List.Perm.append_left
      apply same.elements.flatMap_perm
      intro element present other sameElement
      exact elementKinds_perm (Node.isMapping_of_equal sameElement.2)
        (Node.scalar?_of_equal sameElement.2)
        (ih element present (canonical element present) sameElement)
  | sequence items => exact absurd canonical Node.not_canonical_sequence

/-- Trees that are mappings or no mappings alike have the same kinds of problems as whole filters,
if they have the same kinds of problems inside. -/
theorem kinds_filterFindings {node other : Node} (sameRoot : other.isMapping = node.isMapping)
    (inside : (kinds (view.findings .root node)).Perm (kinds (view.findings .root other))) :
    (kinds (view.filterFindings node)).Perm (kinds (view.filterFindings other)) := by
  have atRoot : kinds (if node.isMapping then [] else [.here (.rootNotMapping node.kind)]) =
      kinds (if other.isMapping then [] else [.here (.rootNotMapping other.kind)]) := by
    rw [sameRoot]
    split
    · rfl
    · rfl
  rw [filterFindings, filterFindings, Finding.kinds_append, Finding.kinds_append, atRoot]
  exact inside.append_left _

theorem map_kind_validate (filter : Node) :
    (view.validate filter).issues.map Issue.kind = kinds (view.filterFindings filter) := by
  simp [validate_eq, kinds, Issue.ofFinding]

/-- Reports on equal canonical trees hold issues of the same kinds. -/
theorem kinds_validate {node other : Node} (canonical : node.Canonical)
    (same : SameTree node other) :
    ((view.validate node).issues.map Issue.kind).Perm
      ((view.validate other).issues.map Issue.kind) := by
  rw [map_kind_validate, map_kind_validate]
  exact kinds_filterFindings (Node.isMapping_of_equal same.2) (kinds_findings canonical same)

end View

namespace Node

/-- A mapping does not mix operators with fields. -/
def UniformHere : Node → Prop
  | .mapping entries => Entries.Uniform entries
  | _ => True

/-- At every depth, a mapping does not mix operators with fields. -/
def Uniform (node : Node) : Prop := node.Everywhere UniformHere

@[simp]
theorem uniform_scalar {value : Scalar} : Uniform (.scalar value) := by
  simp [Uniform, UniformHere]

@[simp]
theorem uniform_mapping {entries : Entries} :
    Uniform (.mapping entries) ↔
      Entries.Uniform entries ∧ ∀ entry ∈ entries, Uniform entry.2 := by
  simp [Uniform, UniformHere]

@[simp]
theorem uniform_multiset {elements : Elements} :
    Uniform (.multiset elements) ↔ ∀ element ∈ elements, Uniform element := by
  simp [Uniform, UniformHere]

end Node

theorem Entries.Uniform.of_perm {entries others : Entries} (uniform : entries.Uniform)
    (perm : (Entries.keys entries).Perm (Entries.keys others)) : Entries.Uniform others := by
  rcases uniform with operators | fields
  · exact .inl fun key present => operators key (perm.mem_iff.mpr present)
  · exact .inr fun key present => fields key (perm.mem_iff.mpr present)

namespace View

open Node (SameTree)

variable {view : View} {context : Context} {enclosing : Option Operator}

theorem eq_nil_of_kinds {problems others : List Problem}
    (same : problems.map Problem.kind = others.map Problem.kind) (clean : problems = []) :
    others = [] := by
  rw [clean] at same
  exact List.map_eq_nil_iff.mp same.symm

theorem findingsAt_eq_nil_of_equal {entry other : Key × Node}
    (same : Entries.Corresponds SameTree entry other)
    (inside : ∀ context, view.findings context entry.2 = [] → view.findings context other.2 = [])
    (clean : view.findingsAt enclosing context entry = []) :
    view.findingsAt enclosing context other = [] := by
  rcases Node.eq_or_composite same with rfl | ⟨composite, otherComposite⟩
  · exact clean
  · have sameScalar := Node.scalar?_of_equal same.2.2
    rw [findingsAt_of_composite composite, List.append_eq_nil_iff, List.map_eq_nil_iff] at clean
    rw [findingsAt_of_composite otherComposite, List.append_eq_nil_iff, List.map_eq_nil_iff, same.1]
    exact ⟨eq_nil_of_kinds (kinds_keyProblems sameScalar) clean.1, inside _ clean.2⟩

/-- Where nothing is found in a uniform tree, nothing is found in an equal one. -/
theorem findings_eq_nil_of_equal {node other : Node} (uniform : node.Uniform)
    (same : SameTree node other) (clean : view.findings context node = []) :
    view.findings context other = [] := by
  induction node generalizing context other with
  | scalar scalar =>
      rw [Node.eq_scalar_of_equal same.2]
      exact clean
  | mapping entries ih =>
      rcases Node.exists_mapping_of_equal same.2 with ⟨others, rfl⟩
      rw [Node.uniform_mapping] at uniform
      have matching := same.entries
      have otherUniform := uniform.1.of_perm (Entries.keys_perm_of_matching matching)
      simp only [findings] at clean ⊢
      rw [entryFindings_eq_nil otherUniform]
      intro other present
      rcases matching.exists_left present with ⟨entry, among, sameEntry⟩
      have cleanEntry := (entryFindings_eq_nil uniform.1).mp clean entry among
      apply findingsAt_eq_nil_of_equal sameEntry _ cleanEntry
      intro context
      exact ih entry among (uniform.2 entry among) sameEntry.2
  | multiset elements ih =>
      rcases Node.exists_multiset_of_equal same.2 with ⟨others, rfl⟩
      rw [Node.uniform_multiset] at uniform
      have matching := same.elements
      simp only [findings] at clean ⊢
      split at clean
      · exact clean
      · split at clean
        · next logical =>
          rw [if_pos logical, clauseFindings_eq_nil]
          rw [clauseFindings_eq_nil] at clean
          intro other present
          rcases matching.exists_left present with ⟨clause, among, sameClause⟩
          rw [Node.isMapping_of_equal sameClause.2]
          have cleanClause := clean clause among
          exact ⟨cleanClause.1, ih clause among (uniform clause among) sameClause cleanClause.2⟩
        · next notLogical =>
          rw [if_neg notLogical]
          split at clean
          · next membership =>
            rw [List.append_eq_nil_iff, membershipFindings_eq_nil] at clean
            rw [if_pos membership, List.append_eq_nil_iff, membershipFindings_eq_nil]
            refine ⟨clean.1, ?_⟩
            intro other present
            rcases matching.exists_left present with ⟨member, among, sameMember⟩
            have sameScalar := Node.scalar?_of_equal sameMember.2
            exact eq_nil_of_kinds (kinds_memberProblems sameScalar) (clean.2 member among)
          · simp at clean
  | sequence items => simp [findings] at clean

end View

end FilterLang
