import FilterLang.Proofs.Normal.Rules
import FilterLang.Proofs.Session

/-!
# The operands of list operators

`and` and `or` list clauses, and `in` lists values. Validation looks at what they hold only where it
is a multiset, so a filter that is accepted has members of the right kind in every such multiset. A
scalar or a mapping in the place of the list is walked over like any operand, and may escape. No
pass puts one there: the lists of the normal form are multisets wherever those of the filter are.
-/

namespace FilterLang

/-- A node may be in the list of an operator: `and` and `or` list mappings, and `in` scalars. -/
structure Operator.Lists (op : Operator) (member : Node) : Prop where
  clause : op = .and ∨ op = .or → member.kind = .mapping
  value : op = .among → member.kind = .scalar

namespace Node

/-- Whatever multiset an operator has lists what it may list. -/
def MembersFitHere : Node → Prop
  | .mapping entries => ∀ op elements, (.operator op, .multiset elements) ∈ entries →
    ∀ member ∈ elements, op.Lists member
  | _ => True

/-- At every depth, the multiset of an operator lists what it may list. -/
def MembersFit (node : Node) : Prop := node.Everywhere MembersFitHere

/-- The operand of `and`, `or` or `in` is a multiset. -/
def collecting : Rules where
  scalar := fun _ => True
  binding := fun key kind =>
    key ∈ [.operator .and, .operator .or, .operator .among] → kind = .multiset

/-- At every depth, the operand of `and`, `or` or `in` is a multiset. -/
def Collects (node : Node) : Prop := node.Obeys collecting

/-- The operand of `and` or `or` is a multiset of mappings, and that of `in` a multiset of
scalars. -/
def WellShapedHere : Node → Prop
  | .mapping entries => ∀ op operand, (.operator op, operand) ∈ entries →
    (op = .and ∨ op = .or →
      ∃ elements, operand = .multiset elements ∧ ∀ member ∈ elements, member.kind = .mapping) ∧
    (op = .among →
      ∃ elements, operand = .multiset elements ∧ ∀ member ∈ elements, member.kind = .scalar)
  | _ => True

/-- At every depth, the operand of `and` or `or` is a multiset of mappings, and that of `in` a
multiset of scalars. -/
def WellShaped (node : Node) : Prop := node.Everywhere WellShapedHere

theorem collecting_closed : collecting.Closed := by
  constructor
  · simp [collecting]
  · simp [collecting]
  · simp [collecting]
  · simp [collecting]

theorem exists_multiset_of_kind {node : Node} (multiset : node.kind = .multiset) :
    ∃ elements, node = .multiset elements := by
  cases node with
  | multiset elements => exact ⟨elements, rfl⟩
  | _ => cases multiset

theorem wellShapedHere_iff {entries : Entries} :
    WellShapedHere (.mapping entries) ↔
      MembersFitHere (.mapping entries) ∧ ObeysHere collecting (.mapping entries) := by
  constructor
  · intro shaped
    refine ⟨?_, ?_⟩
    · intro op elements present member among
      rcases shaped op _ present with ⟨clauses, values⟩
      constructor
      · intro logical
        rcases clauses logical with ⟨_, same, mappings⟩
        cases same
        exact mappings member among
      · intro membership
        rcases values membership with ⟨_, same, scalars⟩
        cases same
        exact scalars member among
    · rintro ⟨key, operand⟩ present
      simp only [collecting, List.mem_cons, List.not_mem_nil, or_false]
      rintro (rfl | rfl | rfl)
      · rcases (shaped _ _ present).1 (.inl rfl) with ⟨_, rfl, _⟩
        rfl
      · rcases (shaped _ _ present).1 (.inr rfl) with ⟨_, rfl, _⟩
        rfl
      · rcases (shaped _ _ present).2 rfl with ⟨_, rfl, _⟩
        rfl
  · rintro ⟨fit, collects⟩ op operand present
    have lists : op ∈ [.and, .or, .among] → ∃ elements, operand = .multiset elements ∧
        ∀ member ∈ elements, op.Lists member := by
      intro takesList
      have multiset : operand.kind = .multiset := by
        apply collects _ present
        simpa using takesList
      rcases exists_multiset_of_kind multiset with ⟨elements, rfl⟩
      exact ⟨elements, rfl, fit op elements present⟩
    constructor
    · intro logical
      rcases lists (by rcases logical with rfl | rfl <;> simp) with ⟨elements, same, each⟩
      exact ⟨elements, same, fun member among => (each member among).clause logical⟩
    · intro membership
      rcases lists (by simp [membership]) with ⟨elements, same, each⟩
      exact ⟨elements, same, fun member among => (each member among).value membership⟩

/-- A tree is well shaped if its lists are multisets, of the right members. -/
theorem wellShaped_iff {node : Node} : node.WellShaped ↔ node.MembersFit ∧ node.Collects := by
  rw [WellShaped, MembersFit, Collects, Obeys, Everywhere, Everywhere, Everywhere]
  simp only [← forall_and]
  apply forall₂_congr
  intro inner _
  cases inner with
  | mapping entries => exact wellShapedHere_iff
  | _ => simp [WellShapedHere, MembersFitHere, ObeysHere, collecting]

end Node

namespace View

variable {view : View} {context : Context} {node : Node}

theorem lists_of_findings {op : Operator} {elements : Elements}
    (clean : view.findings ⟨some op, context.field⟩ (.multiset elements) = []) :
    ∀ member ∈ elements, op.Lists member := by
  intro member among
  constructor
  · intro logical
    have isLogical : op.isLogical = true := by
      rcases logical with rfl | rfl <;> rfl
    rw [findings_logical isLogical, clauseFindings_eq_nil] at clean
    have isMapping := (clean member among).1
    cases member with
    | mapping entries => rfl
    | _ => cases isMapping
  · rintro rfl
    have members : view.membershipFindings .among context.field 0 elements = [] := by
      simp only [findings] at clean
      exact (List.append_eq_nil_iff.mp clean).2
    have noProblem := membershipFindings_eq_nil.mp members member among
    cases member with
    | scalar scalar => rfl
    | _ => simp [memberProblems] at noProblem

/-- Where nothing is found, every multiset of an operator lists what it may list. -/
theorem membersFit_of_findings_eq_nil (clean : view.findings context node = []) :
    node.MembersFit := by
  intro inner inside
  rcases clean_inside clean inside with ⟨scalar, rfl⟩ | ⟨context, cleanInside⟩
  · trivial
  · cases inner with
    | mapping entries =>
        intro op elements present
        rcases findingsAt_eq_nil cleanInside _ present with ⟨before, cleanEntry⟩
        rw [findingsAt_operator, List.append_eq_nil_iff] at cleanEntry
        exact lists_of_findings cleanEntry.2
    | _ => trivial

end View

namespace Session

/-- In an accepted filter the multisets of `and` and `or` hold mappings, and those of `in` hold
scalars. So it is well shaped exactly if all lists in it are multisets, and it is if those of the
filter that was checked are. -/
theorem shape_of_accepted (registry : Registry) (dataset : Option String) (node form : Node)
    (name : String)
    (accepted : (ofRegistry registry).checkNode dataset node = .ok (.accepted name form)) :
    form.MembersFit ∧ (form.WellShaped ↔ form.Collects) ∧ (node.Collects → form.WellShaped) := by
  rcases checkNode_eq_accepted.mp accepted with ⟨view, _, normalized, clean, _⟩
  have fit : form.MembersFit :=
    View.membersFit_of_findings_eq_nil (View.filterFindings_eq_nil.mp clean).2
  have shaped : form.WellShaped ↔ form.Collects := by
    rw [Node.wellShaped_iff]
    exact and_iff_right fit
  refine ⟨fit, shaped, ?_⟩
  intro collects
  rw [shaped]
  exact Node.normalize_obeys Node.collecting_closed collects normalized

/-- Years in a range, or among others. -/
def rangesOfYears : Node :=
  .entry (.operator .or) (.multiset [
    .entry (.field "year") (.mapping [(.operator .start, .scalar (.int 1990)),
      (.operator .stop, .scalar (.int 1995))]),
    .entry (.field "year") (.entry (.operator .among)
      (.multiset [.scalar (.int 2001), .scalar (.int 2005)]))])

theorem shape_of_accepted_rangesOfYears :
    ∃ form, (ofRegistry carRegistry).checkNode none rangesOfYears = .ok (.accepted "car" form) ∧
      rangesOfYears.Collects ∧ form.MembersFit ∧ form.WellShaped := by
  have collects : rangesOfYears.Collects := by
    simp [rangesOfYears, Node.Collects, Node.entry, Node.collecting, Node.kind]
  have shape := shape_of_accepted carRegistry none rangesOfYears _ "car" rfl
  exact ⟨_, rfl, collects, shape.1, shape.2.2 collects⟩

section Escapes

variable {registry : Registry} {dataset : Option String} {view : View}

/-- No scalar under a list operator is looked at. -/
theorem operandProblems_list {op : Operator} (list : op ∈ [.and, .or, .among])
    {field : Option String} {scalar : Scalar} :
    view.operandProblems ⟨some op, field⟩ scalar = [] := by
  have noOperand : op.takesFieldOperand = false := by
    simp only [List.mem_cons, List.not_mem_nil, or_false] at list
    rcases list with rfl | rfl | rfl <;> rfl
  cases field <;> simp [View.operandProblems, noOperand]

/-- Any scalar may stand in the place of the clauses of a combination. -/
theorem accepts_scalar_clauses (resolved : registry.viewOf dataset = .ok view) {op : Operator}
    (logical : op = .and ∨ op = .or) (admitted : view.hasOperator op = true) (scalar : Scalar) :
    (ofRegistry registry).checkNode dataset (.entry (.operator op) (.scalar scalar)) =
      .ok (.accepted view.name (.entry (.operator op) (.scalar scalar))) := by
  have normalized : (Node.entry (.operator op) (.scalar scalar)).normalize =
      .ok (.entry (.operator op) (.scalar scalar)) := by
    rcases logical with rfl | rfl <;> rfl
  have noProblem : view.operatorProblems .root op = [] := by
    simp [View.operatorProblems, admitted, View.operatorComplaints, Context.root,
      Dataset.operatorComplaints]
  have list : op ∈ [.and, .or, .among] := by
    rcases logical with rfl | rfl <;> simp
  have notDataset : op ≠ .dataset := by
    rintro rfl
    simp at logical
  refine checkNode_eq_accepted.mpr ⟨view, resolved, normalized, ?_, rfl⟩
  rw [View.filterFindings_eq_nil]
  refine ⟨rfl, ?_⟩
  simp [Node.entry, View.findings, View.entryFindings_singleton, View.findingsAt_operator,
    View.keyProblems, noProblem, notDataset, operandProblems_list list]

/-- Any scalar may stand in the place of the admitted values of a field, whatever its type. -/
theorem accepts_scalar_members (resolved : registry.viewOf dataset = .ok view) {field : String}
    (known : view.hasField field = true)
    (admitted : view.operatorProblems ⟨none, some field⟩ .among = []) (scalar : Scalar) :
    (ofRegistry registry).checkNode dataset
        (.entry (.field field) (.entry (.operator .among) (.scalar scalar))) =
      .ok (.accepted view.name
        (.entry (.field field) (.entry (.operator .among) (.scalar scalar)))) := by
  refine checkNode_eq_accepted.mpr ⟨view, resolved, rfl, ?_, rfl⟩
  rw [View.filterFindings_eq_nil]
  refine ⟨rfl, ?_⟩
  have inside : view.findings ⟨none, some field⟩
      (.entry (.operator .among) (.scalar scalar)) = [] := by
    simp [Node.entry, View.findings, View.entryFindings_singleton, View.findingsAt_operator,
      View.keyProblems, admitted, operandProblems_list]
  have clean : view.findingsAt none .root
      (.field field, .entry (.operator .among) (.scalar scalar)) = [] := by
    rw [View.findingsAt_field_eq_nil]
    exact ⟨known, by simp [Node.entry], fun _ => inside⟩
  exact (View.entryFindings_singleton _).trans (List.map_eq_nil_iff.mpr clean)

example : (ofRegistry carRegistry).checkNode none
      (.entry (.field "year") (.entry (.operator .among) (.scalar (.text "soon")))) =
    .ok (.accepted "car"
      (.entry (.field "year") (.entry (.operator .among) (.scalar (.text "soon"))))) :=
  rfl

end Escapes

end Session

end FilterLang
