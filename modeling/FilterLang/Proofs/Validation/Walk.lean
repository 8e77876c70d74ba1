import FilterLang.Proofs.Filter.Subtree
import FilterLang.Validation.Findings
import Mathlib.Data.List.Basic

/-!
# The walk of validation

The findings in a tree, taken apart: those in a mapping are the findings in its entries, and those
in a multiset the findings in its elements. An entry passes its context on to the entries after it.
An operator replaces the operator that it finds there and leaves the field alone, so entries whose
keys are all operators do not depend on each other. An unknown field leaves the field of an earlier
entry in place, but then it is itself a finding: entries whose keys are all fields have no findings
together exactly if each of them has none by itself.
-/

namespace FilterLang

/-- The keys of a mapping are all operators, or all fields. -/
def Entries.Uniform (entries : Entries) : Prop :=
  (∀ key ∈ Entries.keys entries, key.isOperator = true) ∨
    ∀ key ∈ Entries.keys entries, key.isOperator = false

namespace View

variable {view : View} {context : Context} {enclosing : Option Operator}

section Entries

/-- A field leaves the operator around it in place. -/
theorem operator_contextAfter_field {field : String} :
    (view.contextAfter context (.field field)).operator = context.operator := by
  simp only [contextAfter, Context.afterField]
  split
  · rfl
  · rfl

/-- The findings in one entry of a mapping, counted from its value. -/
def findingsAt (view : View) (enclosing : Option Operator) (context : Context)
    (entry : Key × Node) : List Finding :=
  (view.keyProblems enclosing context entry.1 entry.2).map Finding.here
    ++ (match entry.1, entry.2.scalar? with
      | .field field, some scalar =>
        if view.hasField field then (view.valueProblems field scalar).map Finding.here else []
      | _, _ => view.findings (view.contextAfter context entry.1) entry.2)

theorem findingsAt_of_composite {entry : Key × Node} (composite : entry.2.isComposite = true) :
    view.findingsAt enclosing context entry =
      (view.keyProblems enclosing context entry.1 entry.2).map Finding.here
        ++ view.findings (view.contextAfter context entry.1) entry.2 := by
  rcases entry with ⟨key, value⟩
  cases value with
  | scalar value => simp [Node.isComposite] at composite
  | _ => cases key <;> rfl

theorem findingsAt_operator {op : Operator} {value : Node} :
    view.findingsAt enclosing context (.operator op, value) =
      (view.keyProblems enclosing context (.operator op) value).map Finding.here
        ++ view.findings ⟨some op, context.field⟩ value := rfl

theorem findingsAt_of_walked {key : Key} {value : Node}
    (walked : key.isOperator = true ∨ value.isComposite = true) :
    view.findingsAt enclosing context (key, value) =
      (view.keyProblems enclosing context key value).map Finding.here
        ++ view.findings (view.contextAfter context key) value := by
  rcases walked with isOperator | composite
  · cases key with
    | operator op => exact findingsAt_operator
    | field field => simp [Key.isOperator] at isOperator
  · exact findingsAt_of_composite composite

theorem findingsAt_field_eq_nil {field : String} {value : Node} :
    view.findingsAt enclosing context (.field field, value) = [] ↔
      view.hasField field = true ∧
        (∀ scalar, value = .scalar scalar → view.valueProblems field scalar = []) ∧
        (value.isComposite = true →
          view.findings ⟨context.operator, some field⟩ value = []) := by
  by_cases known : view.hasField field = true
  · cases value with
    | scalar scalar => simp [findingsAt, keyProblems, known, Node.scalar?, Node.isComposite]
    | _ =>
        simp [findingsAt, keyProblems, known, Node.scalar?, Node.isComposite, contextAfter,
          Context.afterField]
  · constructor
    · intro clean
      simp [findingsAt, keyProblems, known] at clean
    · rintro ⟨isKnown, _⟩
      exact absurd isKnown known

/-- What is found under an operator depends on the field around it only. -/
theorem findingsAt_congr {other : Context} (sameField : context.field = other.field)
    {op : Operator} {value : Node} :
    view.findingsAt enclosing context (.operator op, value) =
      view.findingsAt enclosing other (.operator op, value) := by
  simp only [findingsAt_operator, keyProblems, operatorProblems, sameField]

theorem entryFindings_cons (enclosing : Option Operator) (entry : Key × Node) (rest : Entries) :
    view.entryFindings enclosing context (entry :: rest) =
      (view.findingsAt enclosing context entry).map (Finding.under (.key entry.1))
        ++ view.entryFindings enclosing (view.contextAfter context entry.1) rest := by
  rcases entry with ⟨key, value⟩
  rfl

theorem entryFindings_singleton (entry : Key × Node) :
    view.entryFindings enclosing context [entry] =
      (view.findingsAt enclosing context entry).map (Finding.under (.key entry.1)) := by
  rw [entryFindings_cons]
  exact List.append_nil _

/-- The context after entries. -/
def contextThrough (view : View) (context : Context) (entries : Entries) : Context :=
  entries.foldl (fun context entry => view.contextAfter context entry.1) context

theorem contextThrough_cons {entry : Key × Node} {rest : Entries} :
    view.contextThrough context (entry :: rest) =
      view.contextThrough (view.contextAfter context entry.1) rest := rfl

/-- Entries hand their context on to the entries after them, and nothing else. -/
theorem entryFindings_append (front back : Entries) :
    view.entryFindings enclosing context (front ++ back) =
      view.entryFindings enclosing context front
        ++ view.entryFindings enclosing (view.contextThrough context front) back := by
  induction front generalizing context with
  | nil => rfl
  | cons entry rest ih =>
      rw [List.cons_append, entryFindings_cons, entryFindings_cons, ih, List.append_assoc]
      rfl

/-- Entries under operators are walked over independently of each other. -/
theorem entryFindings_of_operators {entries : Entries}
    (operators : ∀ key ∈ Entries.keys entries, key.isOperator = true) :
    view.entryFindings enclosing context entries =
      entries.flatMap fun entry =>
        (view.findingsAt enclosing context entry).map (Finding.under (.key entry.1)) := by
  induction entries generalizing context with
  | nil => rfl
  | cons entry rest ih =>
      rcases entry with ⟨key, value⟩
      simp only [Entries.keys, List.map_cons, List.forall_mem_cons] at operators
      rcases operators with ⟨isOperator, operators⟩
      rcases key with op | field
      · have sameRest : ∀ later ∈ rest,
            view.findingsAt enclosing (view.contextAfter context (.operator op)) later =
              view.findingsAt enclosing context later := by
          rintro ⟨laterKey, laterValue⟩ present
          have laterOperator := operators _ (List.mem_map_of_mem present)
          rcases laterKey with laterOp | laterField
          · exact findingsAt_congr rfl
          · simp [Key.isOperator] at laterOperator
        rw [entryFindings_cons, List.flatMap_cons, ih operators]
        congr 1
        apply List.flatMap_congr
        intro later present
        rw [sameRest later present]
      · simp [Key.isOperator] at isOperator

/-- What is found in a mapping is found in one of its entries, after the context that the entries
before it hand on. -/
theorem mem_entryFindings {entries : Entries} {finding : Finding} :
    finding ∈ view.entryFindings enclosing context entries ↔
      ∃ before entry after, entries = before ++ entry :: after ∧
        ∃ inner ∈ view.findingsAt enclosing (view.contextThrough context before) entry,
          inner.under (.key entry.1) = finding := by
  induction entries generalizing context with
  | nil => simp [entryFindings]
  | cons entry rest ih =>
      rw [entryFindings_cons, List.mem_append, ih]
      constructor
      · rintro (here | ⟨before, later, after, rfl, found⟩)
        · exact ⟨[], entry, rest, rfl, List.mem_map.mp here⟩
        · exact ⟨entry :: before, later, after, rfl, found⟩
      · rintro ⟨_ | ⟨_, before⟩, later, after, same, found⟩
        · cases same
          exact .inl (List.mem_map.mpr found)
        · cases same
          exact .inr ⟨before, later, after, rfl, found⟩

theorem findingsAt_eq_nil {entries : Entries}
    (clean : view.entryFindings enclosing context entries = []) :
    ∀ entry ∈ entries, ∃ before, view.findingsAt enclosing before entry = [] := by
  induction entries generalizing context with
  | nil => simp
  | cons entry rest ih =>
      rw [entryFindings_cons, List.append_eq_nil_iff, List.map_eq_nil_iff] at clean
      intro other present
      rcases List.mem_cons.mp present with rfl | later
      · exact ⟨context, clean.1⟩
      · exact ih clean.2 other later

theorem entryFindings_eq_nil_of_fields {entries : Entries}
    (fields : ∀ key ∈ Entries.keys entries, key.isOperator = false) :
    view.entryFindings enclosing context entries = [] ↔
      ∀ entry ∈ entries, view.findingsAt enclosing context entry = [] := by
  induction entries generalizing context with
  | nil => simp [entryFindings]
  | cons entry rest ih =>
      rcases entry with ⟨key, value⟩
      simp only [Entries.keys, List.map_cons, List.forall_mem_cons] at fields
      rcases fields with ⟨isField, fields⟩
      rcases key with op | field
      · simp [Key.isOperator] at isField
      · have sameRest : ∀ later ∈ rest,
            (view.findingsAt enclosing (view.contextAfter context (.field field)) later = [] ↔
              view.findingsAt enclosing context later = []) := by
          rintro ⟨laterKey, laterValue⟩ present
          have laterField := fields _ (List.mem_map_of_mem present)
          rcases laterKey with laterOp | laterField
          · simp [Key.isOperator] at laterField
          · rw [findingsAt_field_eq_nil, findingsAt_field_eq_nil, operator_contextAfter_field]
        rw [entryFindings_cons, List.append_eq_nil_iff, List.map_eq_nil_iff, ih fields,
          List.forall_mem_cons]
        apply and_congr_right
        intro _
        exact forall₂_congr sameRest

/-- The entries of a uniform mapping have no findings together if none has any by itself. -/
theorem entryFindings_eq_nil {entries : Entries} (uniform : Entries.Uniform entries) :
    view.entryFindings enclosing context entries = [] ↔
      ∀ entry ∈ entries, view.findingsAt enclosing context entry = [] := by
  rcases uniform with operators | fields
  · simp only [entryFindings_of_operators operators, List.flatMap_eq_nil_iff,
      List.map_eq_nil_iff]
  · exact entryFindings_eq_nil_of_fields fields

end Entries

section Elements

variable {op : Operator} {field : Option String} {index : Nat} {elements : Elements}

theorem findings_logical (logical : op.isLogical = true) :
    view.findings ⟨some op, field⟩ (.multiset elements) =
      view.clauseFindings op ⟨some op, field⟩ 0 elements := by
  simp only [findings, logical, if_true]

theorem clauseFindings_eq_flatMap :
    view.clauseFindings op context index elements =
      (elements.zipIdx index).flatMap fun clause =>
        ((clauseProblems op clause.1).map Finding.here ++ view.findings context clause.1).map
          (Finding.under (.index clause.2)) := by
  induction elements generalizing index with
  | nil => rfl
  | cons clause rest ih => rw [clauseFindings, ih, List.zipIdx_cons, List.flatMap_cons]

theorem membershipFindings_eq_flatMap :
    view.membershipFindings op field index elements =
      (elements.zipIdx index).flatMap fun member =>
        ((view.memberProblems op field member.1).map Finding.here).map
          (Finding.under (.index member.2)) := by
  induction elements generalizing index with
  | nil => rfl
  | cons member rest ih => rw [membershipFindings, ih, List.zipIdx_cons, List.flatMap_cons]

theorem clauseFindings_append (front back : Elements) :
    view.clauseFindings op context index (front ++ back) =
      view.clauseFindings op context index front
        ++ view.clauseFindings op context (index + front.length) back := by
  simp only [clauseFindings_eq_flatMap, List.zipIdx_append, List.flatMap_append]

theorem membershipFindings_append (front back : Elements) :
    view.membershipFindings op field index (front ++ back) =
      view.membershipFindings op field index front
        ++ view.membershipFindings op field (index + front.length) back := by
  simp only [membershipFindings_eq_flatMap, List.zipIdx_append, List.flatMap_append]

theorem mem_clauseFindings {finding : Finding} :
    finding ∈ view.clauseFindings op context 0 elements ↔
      ∃ index clause, elements[index]? = some clause ∧
        ∃ inner ∈ (clauseProblems op clause).map Finding.here ++ view.findings context clause,
          inner.under (.index index) = finding := by
  rw [clauseFindings_eq_flatMap, List.mem_flatMap, Prod.exists, exists_comm]
  simp only [List.mk_mem_zipIdx_iff_getElem?, List.mem_map]

theorem mem_membershipFindings {finding : Finding} :
    finding ∈ view.membershipFindings op field 0 elements ↔
      ∃ index member, elements[index]? = some member ∧
        ∃ problem ∈ view.memberProblems op field member,
          (Finding.here problem).under (.index index) = finding := by
  rw [membershipFindings_eq_flatMap, List.mem_flatMap, Prod.exists, exists_comm]
  simp only [List.mk_mem_zipIdx_iff_getElem?, List.mem_map, exists_exists_and_eq_and]

theorem clauseFindings_eq_nil :
    view.clauseFindings op context index elements = [] ↔
      ∀ clause ∈ elements, clause.isMapping = true ∧ view.findings context clause = [] := by
  induction elements generalizing index with
  | nil => simp [clauseFindings]
  | cons clause rest ih =>
      have noProblem : clauseProblems op clause = [] ↔ clause.isMapping = true := by
        simp [clauseProblems]
      simp only [clauseFindings, List.append_eq_nil_iff, List.map_eq_nil_iff, noProblem, ih,
        List.forall_mem_cons]

theorem membershipFindings_eq_nil :
    view.membershipFindings op field index elements = [] ↔
      ∀ member ∈ elements, view.memberProblems op field member = [] := by
  induction elements generalizing index with
  | nil => simp [membershipFindings]
  | cons member rest ih =>
      simp only [membershipFindings, List.append_eq_nil_iff, List.map_eq_nil_iff, ih,
        List.forall_mem_cons]

end Elements

/-- Where nothing is found, nothing is found in any tree inside, under some context. Only scalars
are left out. -/
theorem clean_inside {node inner : Node} (clean : view.findings context node = [])
    (inside : Node.Within inner node) :
    (∃ scalar, inner = .scalar scalar) ∨ ∃ context, view.findings context inner = [] := by
  induction inside generalizing context with
  | here => exact .inr ⟨context, clean⟩
  | @entry entries entry present inside ih =>
      simp only [findings] at clean
      rcases findingsAt_eq_nil clean entry present with ⟨before, cleanEntry⟩
      cases composite : entry.2.isComposite with
      | true =>
          rw [findingsAt_of_composite composite, List.append_eq_nil_iff] at cleanEntry
          exact ih cleanEntry.2
      | false =>
          rcases Node.exists_scalar composite with ⟨scalar, isScalar⟩
          rw [isScalar] at inside
          cases inside
          exact .inl ⟨scalar, rfl⟩
  | @element elements element present inside ih =>
      simp only [findings] at clean
      split at clean
      · simp at clean
      · split at clean
        · exact ih (clauseFindings_eq_nil.mp clean element present).2
        · split at clean
          · rw [List.append_eq_nil_iff] at clean
            have member := membershipFindings_eq_nil.mp clean.2 element present
            cases element with
            | scalar scalar =>
                cases inside
                exact .inl ⟨scalar, rfl⟩
            | _ => simp [memberProblems] at member
          · simp at clean
  | item present inside ih => simp [findings] at clean

end View

end FilterLang
