import FilterLang.Proofs.Validation.Clauses

/-!
# Clauses by themselves and alone in a conjunction

A filter is read without an operator around it, and a clause of a conjunction under `and`. A field
does not end the reach of an operator, so the two readings part at the multisets that no operator of
the clause takes (`Node.exposesMultiset`): by itself the clause leaves them without an operator, and
`and` reads them as clauses of its own. Nothing else in a clause asks for the operator around it: a
scalar directly under a field is a value whatever the operator is, and only `foreign` matters for
the keys of a mapping.
-/

namespace FilterLang

namespace Node

mutual

/-- Whether a tree leaves a multiset to the operator around the tree: fields alone lead to it, and
no operator comes before them in their mappings. -/
def exposesMultiset : Node → Bool
  | .multiset _ => true
  | .mapping entries => entriesExposeMultiset entries
  | .scalar _ | .sequence _ => false
termination_by structural node => node

/-- The same of the entries of a mapping. The first operator takes over from there. -/
def entriesExposeMultiset : Entries → Bool
  | [] => false
  | (.operator _, _) :: _ => false
  | (.field _, value) :: rest => value.exposesMultiset || entriesExposeMultiset rest
termination_by structural entries => entries

end

theorem isComposite_of_exposesMultiset {node : Node} (exposed : node.exposesMultiset = true) :
    node.isComposite = true := by
  cases node with
  | scalar scalar => cases exposed
  | _ => rfl

end Node

namespace View

variable {view : View} {context : Context} {enclosing : Option Operator}

theorem contextAfter_afterOperator {op : Operator} {field : String} :
    view.contextAfter (context.afterOperator op) (.field field) =
      (view.contextAfter context (.field field)).afterOperator op := by
  simp only [contextAfter, Context.afterField]
  split
  · rfl
  · rfl

section Entries

variable {entries : Entries}

/-- The operator around a mapping matters for its keys only if it is `foreign`. -/
theorem entryFindings_enclosing {op : Operator} (other : op ≠ .foreign) :
    view.entryFindings (some op) context entries = view.entryFindings none context entries := by
  induction entries generalizing context with
  | nil => rfl
  | cons entry rest ih =>
      have sameKey : view.keyProblems (some op) context entry.1 entry.2 =
          view.keyProblems none context entry.1 entry.2 := by
        rcases entry with ⟨op | field, value⟩
        · simp [keyProblems, other]
        · rfl
      simp only [entryFindings_cons, findingsAt, sameKey, ih]

theorem entryFindings_ne_nil_of_exposed
    (exposed : Node.entriesExposeMultiset entries = true) (alone : context.operator = none)
    (inside : ∀ entry ∈ entries, ∀ context : Context, entry.2.exposesMultiset = true →
      context.operator = none → view.findings context entry.2 ≠ []) :
    view.entryFindings enclosing context entries ≠ [] := by
  induction entries generalizing context with
  | nil => cases exposed
  | cons entry rest ih =>
      rcases entry with ⟨op | field, value⟩
      · cases exposed
      · simp only [Node.entriesExposeMultiset, Bool.or_eq_true] at exposed
        rw [List.forall_mem_cons] at inside
        rw [entryFindings_cons]
        intro clean
        rw [List.append_eq_nil_iff, List.map_eq_nil_iff, findingsAt_field_eq_nil] at clean
        rcases clean with ⟨⟨_, _, cleanHere⟩, cleanRest⟩
        rcases exposed with here | later
        · have composite := Node.isComposite_of_exposesMultiset here
          exact inside.1 ⟨context.operator, some field⟩ here alone (cleanHere composite)
        · exact ih later (operator_contextAfter_field.trans alone) inside.2 cleanRest

theorem findingsAt_afterOperator {op : Operator} {field : String} {value : Node}
    (inside : view.findings ((view.contextAfter context (.field field)).afterOperator op) value =
      view.findings (view.contextAfter context (.field field)) value) :
    view.findingsAt enclosing (context.afterOperator op) (.field field, value) =
      view.findingsAt enclosing context (.field field, value) := by
  cases composite : value.isComposite with
  | false =>
      rcases Node.exists_scalar composite with ⟨scalar, rfl⟩
      rfl
  | true =>
      rw [findingsAt_of_composite composite, findingsAt_of_composite composite,
        contextAfter_afterOperator, inside]
      rfl

theorem entryFindings_afterOperator {op : Operator}
    (covered : Node.entriesExposeMultiset entries = false) (alone : context.operator = none)
    (inside : ∀ entry ∈ entries, ∀ context : Context, entry.2.exposesMultiset = false →
      context.operator = none →
        view.findings (context.afterOperator op) entry.2 = view.findings context entry.2) :
    view.entryFindings enclosing (context.afterOperator op) entries =
      view.entryFindings enclosing context entries := by
  induction entries generalizing context with
  | nil => rfl
  | cons entry rest ih =>
      rw [entryFindings_cons, entryFindings_cons]
      rcases entry with ⟨inner | field, value⟩
      · rw [findingsAt_congr rfl]
        rfl
      · simp only [Node.entriesExposeMultiset, Bool.or_eq_false_iff] at covered
        rw [List.forall_mem_cons] at inside
        have stillAlone : (view.contextAfter context (.field field)).operator = none := by
          rw [operator_contextAfter_field, alone]
        rw [findingsAt_afterOperator (inside.1 _ covered.1 stillAlone), contextAfter_afterOperator,
          ih covered.2 stillAlone inside.2]

end Entries

section Exposed

/-- A multiset that is exposed to no operator is a finding. -/
theorem findings_ne_nil_of_exposed {node : Node} (exposed : node.exposesMultiset = true)
    (alone : context.operator = none) : view.findings context node ≠ [] := by
  induction node generalizing context with
  | scalar scalar => cases exposed
  | sequence items => cases exposed
  | multiset elements => simp [findings, alone]
  | mapping entries ih =>
      exact entryFindings_ne_nil_of_exposed exposed alone fun entry present _ => ih entry present

/-- Where no multiset is exposed, a combining operator around a tree changes nothing. -/
theorem findings_afterOperator {op : Operator} (logical : op.isLogical = true) {node : Node}
    (covered : node.exposesMultiset = false) (alone : context.operator = none) :
    view.findings (context.afterOperator op) node = view.findings context node := by
  induction node generalizing context with
  | scalar scalar =>
      have noOperand : op.takesFieldOperand = false := by
        cases op <;> first | rfl | cases logical
      cases field : context.field with
      | none => simp [findings, operandProblems, Context.afterOperator, field]
      | some name => simp [findings, operandProblems, Context.afterOperator, field, alone, noOperand]
  | sequence items => rfl
  | multiset elements => cases covered
  | mapping entries ih =>
      have notForeign : op ≠ .foreign := by
        rintro rfl
        cases logical
      simp only [findings, alone]
      exact (entryFindings_enclosing notForeign).trans
        (entryFindings_afterOperator covered alone fun entry present _ => ih entry present)

end Exposed

/-- A clause by itself is judged like the conjunction of it alone, except that it must not leave a
multiset to the `and`. -/
theorem isValid_iff_isValid_and (view : View) (entries : Entries)
    (admitted : view.hasOperator .and = true) :
    (view.validate (.mapping entries)).isValid = true ↔
      (view.validate (.and [.mapping entries])).isValid = true ∧
        (Node.mapping entries).exposesMultiset = false := by
  have byItself : (view.validate (.mapping entries)).isValid = true ↔
      view.findings .root (.mapping entries) = [] := by
    rw [isValid_validate, filterFindings_eq_nil]
    simp [Node.isMapping]
  have inConjunction : (view.validate (.and [.mapping entries])).isValid = true ↔
      view.findings (Context.root.afterOperator .and) (.mapping entries) = [] := by
    have alone : Elements.ofList [.mapping entries] = [.mapping entries] := rfl
    rw [isValid_validate, filterFindings_eq_nil, Context.root, findings_and_eq_nil admitted, alone]
    simp [Node.and, Node.entry, Node.isMapping, Context.afterOperator]
  rw [byItself, inConjunction]
  cases exposed : (Node.mapping entries).exposesMultiset with
  | false =>
      rw [findings_afterOperator rfl exposed rfl]
      simp
  | true =>
      constructor
      · intro clean
        exact absurd clean (findings_ne_nil_of_exposed exposed rfl)
      · rintro ⟨_, covered⟩
        cases covered

/-- Two admitted years. -/
def twoYears : Entries :=
  [(.field "year", .entry (.operator .among) (.multiset [.scalar (.int 2001), .scalar (.int 2005)]))]

theorem isValid_iff_isValid_and_twoYears :
    carView.hasOperator .and = true ∧ (carView.validate (.mapping twoYears)).isValid = true ∧
      ((carView.validate (.mapping twoYears)).isValid = true ↔
        (carView.validate (.and [.mapping twoYears])).isValid = true ∧
          (Node.mapping twoYears).exposesMultiset = false) := by
  have admitted : carView.hasOperator .and = true := by decide
  exact ⟨admitted, rfl, isValid_iff_isValid_and carView twoYears admitted⟩

/-- A make in a multiset directly under the year. -/
def makeUnderYear : Entries :=
  [(.field "year", .multiset [.entry (.field "make") (.scalar (.text "chevy"))])]

/-- The conjunction takes the multiset of its clause for its own. -/
theorem isValid_and_of_exposed :
    carView.hasOperator .and = true ∧
      (carView.validate (.and [.mapping makeUnderYear])).isValid = true ∧
      (carView.validate (.mapping makeUnderYear)).isValid = false := by
  exact ⟨by decide, rfl, rfl⟩

end View

end FilterLang
