import FilterLang.Proofs.Filter.Place
import FilterLang.Proofs.Validation.Order

/-!
# Branches of a filter

What stands at a position of a filter decides only what is found there and below: whatever replaces
it, the same is found before and after (`Isolated`). The walk hands its context down to the values
of a mapping and on to the entries after them, but that context depends on the keys alone; and a
replacement inside a value keeps what the key of the value asks for, since that looks at the kind of
the value or at the scalar that it is.
-/

namespace FilterLang

theorem Segment.exists_pathText_append (path more : List Segment) :
    ∃ rest, pathText (path ++ more) = pathText path ++ rest := by
  cases path with
  | nil => exact ⟨pathText more, by simp [pathText]⟩
  | cons segment rest =>
      refine ⟨String.join (more.map Segment.text), ?_⟩
      cases segment <;> simp [pathText, String.join_append, String.append_assoc]

theorem Position.exists_text_of_prefix {position longer : Position} (leads : position <+: longer) :
    ∃ rest, longer.text = position.text ++ rest := by
  rcases leads with ⟨more, rfl⟩
  rw [text, text, List.map_append]
  exact Segment.exists_pathText_append _ _

namespace Finding

/-- The kinds of the problems found, with their positions. -/
def outlines (findings : List Finding) : List (ProblemKind × Position) :=
  findings.map fun finding => (finding.problem.kind, finding.position)

@[simp]
theorem outlines_append (first second : List Finding) :
    outlines (first ++ second) = outlines first ++ outlines second :=
  List.map_append

theorem outlines_under (step : Step) (findings : List Finding) :
    outlines (findings.map (under step)) =
      (outlines findings).map fun entry => (entry.1, step :: entry.2) := by
  simp [outlines, under]

theorem outlines_here {problems others : List Problem}
    (sameKinds : problems.map Problem.kind = others.map Problem.kind) :
    outlines (problems.map here) = outlines (others.map here) := by
  have ofKinds : ∀ problems : List Problem,
      outlines (problems.map here) = (problems.map Problem.kind).map fun kind => (kind, []) := by
    intro problems
    simp [outlines, here]
  rw [ofKinds, ofKinds, sameKinds]

end Finding

open Finding (outlines)

section Isolated

/-- What replaces a tree at a position changes only findings at or below the position. -/
def Isolated (position : Position) (found : Node → List Finding) : Prop :=
  ∃ before after, ∀ replacement, ∃ inside,
    outlines (found replacement) = before ++ inside ++ after ∧
      ∀ entry ∈ inside, position <+: entry.2

variable {position : Position} {found : Node → List Finding}

theorem isolated_root : Isolated [] found := by
  refine ⟨[], [], ?_⟩
  intro replacement
  exact ⟨outlines (found replacement), by simp, fun entry _ => List.nil_prefix⟩

theorem isolated_const (steady : List Finding) : Isolated position fun _ => steady := by
  refine ⟨outlines steady, [], ?_⟩
  intro replacement
  exact ⟨[], by simp, by simp⟩

namespace Isolated

theorem append_left (isolated : Isolated position found) {first : Node → List Finding}
    {steady : List (ProblemKind × Position)}
    (same : ∀ replacement, outlines (first replacement) = steady) :
    Isolated position fun replacement => first replacement ++ found replacement := by
  rcases isolated with ⟨before, after, each⟩
  refine ⟨steady ++ before, after, ?_⟩
  intro replacement
  rcases each replacement with ⟨inside, split, below⟩
  exact ⟨inside, by simp [same, split], below⟩

theorem append_right (isolated : Isolated position found) (last : List Finding) :
    Isolated position fun replacement => found replacement ++ last := by
  rcases isolated with ⟨before, after, each⟩
  refine ⟨before, after ++ outlines last, ?_⟩
  intro replacement
  rcases each replacement with ⟨inside, split, below⟩
  exact ⟨inside, by simp [split], below⟩

theorem under (isolated : Isolated position found) (step : Step) :
    Isolated (step :: position) fun replacement => (found replacement).map (.under step) := by
  rcases isolated with ⟨before, after, each⟩
  let deeper : ProblemKind × Position → ProblemKind × Position := fun entry =>
    (entry.1, step :: entry.2)
  refine ⟨before.map deeper, after.map deeper, ?_⟩
  intro replacement
  rcases each replacement with ⟨inside, split, below⟩
  refine ⟨inside.map deeper, ?_, ?_⟩
  · simp [Finding.outlines_under, split, deeper]
  · intro entry present
    rcases List.mem_map.mp present with ⟨inner, among, rfl⟩
    exact List.cons_prefix_cons.mpr ⟨rfl, below inner among⟩

end Isolated

end Isolated

namespace View

variable {view : View} {context : Context} {enclosing : Option Operator}

section Branches

variable {rest : Position}

theorem isolated_findingsAt {key : Key} {value : Node}
    (inside : ∀ context : Context, Isolated rest fun replacement =>
      view.findings context (value.replaceAt rest replacement)) :
    Isolated rest fun replacement =>
      view.findingsAt enclosing context (key, value.replaceAt rest replacement) := by
  cases rest with
  | nil => exact isolated_root
  | cons step rest =>
      cases composite : value.isComposite with
      | false =>
          rcases Node.exists_scalar composite with ⟨scalar, rfl⟩
          have unchanged : ∀ replacement,
              (Node.scalar scalar).replaceAt (step :: rest) replacement = .scalar scalar := by
            intro replacement
            cases step <;> rfl
          simp only [unchanged]
          exact isolated_const _
      | true =>
          have ofComposite : ∀ replacement,
              view.findingsAt enclosing context (key, value.replaceAt (step :: rest) replacement) =
                (view.keyProblems enclosing context key
                    (value.replaceAt (step :: rest) replacement)).map Finding.here
                  ++ view.findings (view.contextAfter context key)
                    (value.replaceAt (step :: rest) replacement) := by
            intro replacement
            apply findingsAt_of_composite
            simpa using composite
          simp only [ofComposite]
          apply (inside _).append_left
          intro replacement
          exact Finding.outlines_here (kinds_keyProblems Node.scalar?_replaceAt_cons.symm)

theorem isolated_entryFindings {key : Key} {entries : Entries}
    (inside : ∀ (value : Node) (context : Context), Isolated rest fun replacement =>
      view.findings context (value.replaceAt rest replacement)) :
    Isolated (.key key :: rest) fun replacement => view.entryFindings enclosing context
      (Entries.modify key (·.replaceAt rest replacement) entries) := by
  cases found : Entries.get? key entries with
  | none =>
      simp only [Entries.modify_of_absent found]
      exact isolated_const _
  | some value =>
      rcases Entries.exists_split found with ⟨before, after, rfl, modified⟩
      simp only [modified, entryFindings_append, entryFindings_cons]
      apply Isolated.append_left _ fun _ => rfl
      apply Isolated.append_right
      exact (isolated_findingsAt (inside value)).under (.key key)

section Elements

variable {index : Nat} {elements : Elements}

/-- A walk over elements that takes them one by one is isolated at each of them. -/
theorem isolated_element {walk : Elements → List Finding} (single : Node → List Finding)
    (apart : ∀ before after : Elements, ∃ first last, ∀ element, walk (before ++ element :: after) =
      first ++ ((single element).map (.under (.index before.length)) ++ last))
    (inside : ∀ element : Node,
      Isolated rest fun replacement => single (element.replaceAt rest replacement)) :
    Isolated (.index index :: rest) fun replacement =>
      walk (elements.modify index (·.replaceAt rest replacement)) := by
  cases found : elements[index]? with
  | none =>
      have beyond := List.getElem?_eq_none_iff.mp found
      simp only [List.modify_eq_self beyond]
      exact isolated_const _
  | some element =>
      rcases Elements.exists_split found with ⟨before, after, rfl, rfl, modified⟩
      rcases apart before after with ⟨first, last, split⟩
      simp only [modified, split]
      apply Isolated.append_left _ fun _ => rfl
      apply Isolated.append_right
      exact (inside element).under _

theorem isolated_clauseFindings {op : Operator}
    (inside : ∀ clause : Node, Isolated rest fun replacement =>
      view.findings context (clause.replaceAt rest replacement)) :
    Isolated (.index index :: rest) fun replacement => view.clauseFindings op context 0
      (elements.modify index (·.replaceAt rest replacement)) := by
  apply isolated_element fun clause =>
    (clauseProblems op clause).map Finding.here ++ view.findings context clause
  · intro before after
    refine ⟨view.clauseFindings op context 0 before,
      view.clauseFindings op context (before.length + 1) after, ?_⟩
    intro clause
    simp only [clauseFindings_append, clauseFindings, Nat.zero_add]
  · intro clause
    cases rest with
    | nil => exact isolated_root
    | cons step rest =>
        simp only [clauseProblems, Node.isMapping_replaceAt_cons, Node.kind_replaceAt_cons]
        exact (inside clause).append_left fun _ => rfl

theorem isolated_membershipFindings {op : Operator} {field : Option String} :
    Isolated (.index index :: rest) fun replacement => view.membershipFindings op field 0
      (elements.modify index (·.replaceAt rest replacement)) := by
  apply isolated_element fun member => (view.memberProblems op field member).map Finding.here
  · intro before after
    refine ⟨view.membershipFindings op field 0 before,
      view.membershipFindings op field (before.length + 1) after, ?_⟩
    intro member
    simp only [membershipFindings_append, membershipFindings, Nat.zero_add]
  · intro member
    cases rest with
    | nil => exact isolated_root
    | cons step rest =>
        have unchanged : ∀ replacement,
            view.memberProblems op field (member.replaceAt (step :: rest) replacement) =
              view.memberProblems op field member := by
          intro replacement
          cases member <;> cases step <;> rfl
        simp only [unchanged]
        exact isolated_const _

end Elements

/-- The tree at a position is isolated in what the walk finds. -/
theorem isolated_findings (position : Position) (node : Node) :
    Isolated position fun replacement =>
      view.findings context (node.replaceAt position replacement) := by
  induction position generalizing node context with
  | nil => exact isolated_root
  | cons step rest ih =>
      cases node with
      | mapping entries =>
          cases step with
          | key key => exact isolated_entryFindings fun value context => ih value
          | index index => exact isolated_const (view.findings context (.mapping entries))
      | multiset elements =>
          cases step with
          | key key => exact isolated_const (view.findings context (.multiset elements))
          | index index =>
              cases operator : context.operator with
              | none =>
                  simp only [Node.replaceAt, findings, operator]
                  exact isolated_const _
              | some op =>
                  simp only [Node.replaceAt, findings, operator]
                  split
                  · exact isolated_clauseFindings ih
                  · split
                    · exact isolated_membershipFindings.append_left fun _ => rfl
                    · exact isolated_const _
      | scalar scalar =>
          cases step <;> exact isolated_const (view.findings context (.scalar scalar))
      | sequence items =>
          cases step <;> exact isolated_const (view.findings context (.sequence items))

/-- The tree at a position is isolated in what is found in the whole filter. -/
theorem isolated_filterFindings (position : Position) (filter : Node) :
    Isolated position fun replacement =>
      view.filterFindings (filter.replaceAt position replacement) := by
  cases position with
  | nil => exact isolated_root
  | cons step rest =>
      apply (isolated_findings (step :: rest) filter).append_left
      intro replacement
      simp only [Node.isMapping_replaceAt_cons, Node.kind_replaceAt_cons]
      rfl

/-- The tree at a position of a filter is isolated in the report: the report before and after the
issues at or below the position is the same for all trees that stand there. -/
theorem validate_replaceAt (view : View) (filter : Node) (position : Position) :
    ∃ before after : List (ProblemKind × String), ∀ replacement, ∃ inside,
      (view.validate (filter.replaceAt position replacement)).issues.map
          (fun issue => (issue.kind, issue.path)) = before ++ inside ++ after ∧
        ∀ entry ∈ inside, ∃ rest, entry.2 = position.text ++ rest := by
  have isolated : Isolated position fun replacement =>
      view.filterFindings (filter.replaceAt position replacement) :=
    isolated_filterFindings position filter
  rcases isolated with ⟨before, after, each⟩
  let written : ProblemKind × Position → ProblemKind × String := fun entry =>
    (entry.1, entry.2.text)
  refine ⟨before.map written, after.map written, ?_⟩
  intro replacement
  rcases each replacement with ⟨inside, split, below⟩
  refine ⟨inside.map written, ?_, ?_⟩
  · rw [← List.map_append, ← List.map_append, ← split]
    simp [validate_eq, Finding.outlines, Issue.ofFinding, written]
  · intro entry present
    rcases List.mem_map.mp present with ⟨inner, among, rfl⟩
    exact Position.exists_text_of_prefix (below inner among)

end Branches

end View

end FilterLang
