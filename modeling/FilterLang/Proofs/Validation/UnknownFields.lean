import FilterLang.Proofs.Normal.Fields
import FilterLang.Proofs.Validation.Checked
import FilterLang.Proofs.Validation.Culprits

/-!
# Unknown fields

Only the key of an entry can be an unknown field. Where validation finds nothing, it has looked at
every key of the tree, and every field that the tree mentions belongs to the view. Where it finds an
unknown field, that field either survives normalization or stands at a position that normalization
discards (`Node.Hidden`).
-/

namespace FilterLang

/-- A position that normalization discards: at or below a key beside two bounds, or at a field whose
value supersedes it. -/
inductive Node.Hidden : Node → Position → Prop
  | besideBounds {entries : Entries} {key : Key} {value : Node} {rest : Position}
      (bounded : (Entries.bounds? entries).isSome = true) (present : (key, value) ∈ entries)
      (beside : key ≠ .operator .start ∧ key ≠ .operator .stop) :
      Hidden (.mapping entries) (.key key :: rest)
  | superseded {entries : Entries} {field : String} {value : Node}
      (present : (.field field, value) ∈ entries) (supersedes : value.Supersedes) :
      Hidden (.mapping entries) [.key (.field field)]
  | value {entries : Entries} {entry : Key × Node} {rest : Position} (present : entry ∈ entries)
      (inside : Hidden entry.2 rest) : Hidden (.mapping entries) (.key entry.1 :: rest)
  | element {elements : Elements} {index : Nat} {element : Node} {rest : Position}
      (found : elements[index]? = some element) (inside : Hidden element rest) :
      Hidden (.multiset elements) (.index index :: rest)

namespace View

variable {view : View} {context : Context}

section Problems

variable {problem : Problem}

/-- A tree by itself is not to blame for an unknown key. -/
theorem kind_ne_unknownKey {node : Node} (blames : view.Blames ⟨[], node⟩ problem.kind) :
    problem.kind ≠ .unknownKey := by
  intro unknown
  rw [unknown] at blames
  rcases blames with ⟨field, isLast, _⟩
  cases isLast

/-- An unknown key is a field that the view does not have. -/
theorem exists_field_of_mem_keyProblems {enclosing : Option Operator} {key : Key} {value : Node}
    (found : problem ∈ view.keyProblems enclosing context key value)
    (unknown : problem.kind = .unknownKey) :
    ∃ field, key = .field field ∧ view.hasField field = false := by
  have blames : view.Blames ⟨[.key key], value⟩ problem.kind := blames_of_mem_keyProblems rfl found
  rw [unknown] at blames
  rcases blames with ⟨field, isLast, unknownField⟩
  cases isLast
  exact ⟨field, rfl, unknownField⟩

end Problems

/-- An unknown key in an entry is its key, or is found in its value. -/
theorem unknown_findingsAt {enclosing : Option Operator} {entry : Key × Node} {finding : Finding}
    (found : finding ∈ view.findingsAt enclosing context entry)
    (unknown : finding.problem.kind = .unknownKey) :
    (∃ field, entry.1 = .field field ∧ view.hasField field = false ∧ finding.position = []) ∨
      ∃ inside, finding ∈ view.findings inside entry.2 := by
  rcases List.mem_append.mp found with ofKey | ofValue
  · rcases List.mem_map.mp ofKey with ⟨problem, among, rfl⟩
    rcases exists_field_of_mem_keyProblems among unknown with ⟨field, sameKey, unknownField⟩
    exact .inl ⟨field, sameKey, unknownField, rfl⟩
  · split at ofValue
    · split at ofValue
      · rcases List.mem_map.mp ofValue with ⟨problem, among, rfl⟩
        exact absurd unknown (kind_ne_unknownKey (blames_of_mem_valueProblems rfl among))
      · simp at ofValue
    · exact .inr ⟨_, ofValue⟩

theorem kind_of_mem_membershipFindings {op : Operator} {field : Option String}
    {elements : Elements} {finding : Finding}
    (found : finding ∈ view.membershipFindings op field 0 elements) :
    finding.problem.kind ≠ .unknownKey := by
  rcases mem_membershipFindings.mp found with ⟨_, member, _, problem, among, rfl⟩
  exact kind_ne_unknownKey (blames_of_mem_memberProblems rfl among)

theorem hasField_of_checked {node : Node} (checked : view.Checked node) {field : String}
    (mentions : Node.Mentions field node) : view.hasField field = true := by
  induction mentions with
  | key present =>
      rcases List.mem_map.mp present with ⟨⟨_, value⟩, among, rfl⟩
      rw [Checked, Node.everywhere_mapping] at checked
      exact (checked.1.1 field value among).known
  | value present _ ih =>
      rw [Checked, Node.everywhere_mapping] at checked
      exact ih (checked.2 _ present)
  | element present _ ih => exact ih (checked_multiset.mp checked _ present)

/-- Where nothing is found, every field that is mentioned belongs to the view. -/
theorem hasField_of_findings_eq_nil {node : Node} (clean : view.findings context node = [])
    {field : String} (mentions : Node.Mentions field node) : view.hasField field = true :=
  hasField_of_checked (checked_of_findings_eq_nil clean) mentions

/-- A position is hidden, or the tree shows a field that is unknown. -/
def HiddenOrShown (view : View) (node : Node) (position : Position) : Prop :=
  node.Hidden position ∨ ∃ field, view.hasField field = false ∧ Node.Shows field node

theorem HiddenOrShown.of_value {entries : Entries} (distinct : (Entries.keys entries).Nodup)
    {entry : Key × Node} (present : entry ∈ entries) {position : Position}
    (kept : Entries.bounds? entries = none ∨ entry.1 = .operator .start ∨
      entry.1 = .operator .stop)
    (inside : view.HiddenOrShown entry.2 position) :
    view.HiddenOrShown (.mapping entries) (.key entry.1 :: position) := by
  rcases inside with hidden | ⟨field, unknownField, shows⟩
  · exact .inl (.value present hidden)
  · right
    refine ⟨field, unknownField, ?_⟩
    cases bounded : Entries.bounds? entries with
    | none => exact .value bounded present shows
    | some bounds =>
        rcases bounds with ⟨start, stop⟩
        rcases Entries.bounds?_eq_some.mp bounded with ⟨foundStart, foundStop⟩
        have isValue := Entries.get?_of_mem distinct present
        rcases kept with unbounded | isStart | isStop
        · simp [unbounded] at bounded
        · rw [isStart, foundStart, Option.some.injEq] at isValue
          subst isValue
          exact .start bounded shows
        · rw [isStop, foundStop, Option.some.injEq] at isValue
          subst isValue
          exact .stop bounded shows

theorem HiddenOrShown.of_key {entries : Entries} {field : String} {value : Node}
    (present : (.field field, value) ∈ entries) (unbounded : Entries.bounds? entries = none)
    (unknownField : view.hasField field = false) :
    view.HiddenOrShown (.mapping entries) [.key (.field field)] := by
  by_cases supersedes : value.Supersedes
  · exact .inl (.superseded present supersedes)
  · exact .inr ⟨field, unknownField, .key unbounded present supersedes⟩

/-- An unknown field that is found stands at a hidden position, or is shown. -/
theorem hiddenOrShown_of_findings {node : Node} (proper : node.Proper) {finding : Finding}
    (found : finding ∈ view.findings context node) (unknown : finding.problem.kind = .unknownKey) :
    view.HiddenOrShown node finding.position := by
  induction node generalizing context finding with
  | scalar value =>
      simp only [findings] at found
      rcases List.mem_map.mp found with ⟨problem, among, rfl⟩
      exact absurd unknown (kind_ne_unknownKey (blames_of_mem_operandProblems rfl among))
  | mapping entries ih =>
      rw [Node.proper_mapping] at proper
      simp only [findings] at found
      rcases mem_entryFindings.mp found with
        ⟨before, ⟨key, value⟩, after, same, inner, among, rfl⟩
      have present : (key, value) ∈ entries := by simp [same]
      have ofEntry := unknown_findingsAt among unknown
      by_cases kept : Entries.bounds? entries = none ∨ key = .operator .start ∨
          key = .operator .stop
      · rcases ofEntry with ⟨field, sameKey, unknownField, atKey⟩ | ⟨inside, foundInside⟩
        · simp only at sameKey
          subst sameKey
          rw [Finding.under, atKey]
          exact .of_key present (by simpa using kept) unknownField
        · have valueProper := proper.2 _ present
          exact .of_value proper.1 present kept (ih _ present valueProper foundInside unknown)
      · simp only [not_or] at kept
        exact .inl (.besideBounds (Option.isSome_iff_ne_none.mpr kept.1) present kept.2)
  | multiset elements ih =>
      rw [Node.proper_multiset] at proper
      simp only [findings] at found
      split at found
      · rw [List.mem_singleton] at found
        subst found
        cases unknown
      · next op _ =>
        split at found
        · rcases mem_clauseFindings.mp found with ⟨index, clause, present, inner, among, rfl⟩
          have member := List.mem_of_getElem? present
          rcases List.mem_append.mp among with ofClause | inside
          · rcases List.mem_map.mp ofClause with ⟨problem, problemAmong, rfl⟩
            have blames : view.Blames ⟨[], clause⟩ problem.kind :=
              blames_of_mem_clauseProblems rfl problemAmong
            exact absurd unknown (kind_ne_unknownKey blames)
          · rcases ih clause member (proper.2 clause member) inside unknown with
              hidden | ⟨field, unknownField, shows⟩
            · exact .inl (.element present hidden)
            · exact .inr ⟨field, unknownField, .element member shows⟩
        · split at found
          · rcases List.mem_append.mp found with alone | ofMember
            · split at alone
              · rw [List.mem_singleton] at alone
                subst alone
                cases unknown
              · simp at alone
            · exact absurd unknown (kind_of_mem_membershipFindings ofMember)
          · rw [List.mem_singleton] at found
            subst found
            cases unknown
  | sequence items =>
      simp only [findings, List.mem_singleton] at found
      subst found
      cases unknown

end View

end FilterLang
