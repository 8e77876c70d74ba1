import FilterLang.Proofs.Filter.Place
import FilterLang.Proofs.Validation.Reporting

/-!
# Where issues point

Every issue points at a place of the filter, and what stands there is to blame for it
(`View.Blames`): an unknown key at a field that the view does not have, a missing context at a
multiset, and so on. The walk goes through the places in their order, so that the issues of a filter
go along its places (`Along`): an issue may share the place of the one before it, but never points
back.
-/

namespace FilterLang

section Along

variable {α β : Type}

/-- The first list goes along the second: each of its members is related to a member of the second
list that does not stand before the one that its predecessor is related to. -/
inductive Along (relation : α → β → Prop) : List α → List β → Prop
  | done {places : List β} : Along relation [] places
  | stay {member : α} {members : List α} {place : β} {places : List β}
      (related : relation member place) (later : Along relation members (place :: places)) :
      Along relation (member :: members) (place :: places)
  | move {members : List α} {place : β} {places : List β} (later : Along relation members places) :
      Along relation members (place :: places)

namespace Along

variable {relation : α → β → Prop} {members others : List α} {places more : List β}

theorem skip (later : Along relation members places) (before : List β) :
    Along relation members (before ++ places) := by
  induction before with
  | nil => exact later
  | cons place rest ih => exact .move ih

theorem append (first : Along relation members places) (second : Along relation others more) :
    Along relation (members ++ others) (places ++ more) := by
  induction first with
  | done => exact second.skip _
  | stay related _ ih => exact .stay related ih
  | move _ ih => exact .move ih

theorem map {γ δ : Type} {other : γ → δ → Prop} {f : α → γ} {g : β → δ}
    (along : Along relation members places)
    (implies : ∀ member place, relation member place → other (f member) (g place)) :
    Along other (members.map f) (places.map g) := by
  induction along with
  | done => exact .done
  | stay related _ ih => exact .stay (implies _ _ related) ih
  | move _ ih => exact .move ih

theorem exists_place (along : Along relation members places) {member : α}
    (present : member ∈ members) : ∃ place ∈ places, relation member place := by
  induction along with
  | done => simp at present
  | @stay first _ place _ related _ ih =>
      rcases List.mem_cons.mp present with rfl | later
      · exact ⟨place, List.mem_cons_self, related⟩
      · exact ih later
  | move _ ih =>
      rcases ih present with ⟨place, among, related⟩
      exact ⟨place, List.mem_cons_of_mem _ among, related⟩

/-- Members that are related to the first place may come before all others. -/
theorem at_first {place : β} (first : ∀ member ∈ members, relation member place)
    (later : Along relation others (place :: places)) :
    Along relation (members ++ others) (place :: places) := by
  induction members with
  | nil => exact later
  | cons member rest ih =>
      rw [List.forall_mem_cons] at first
      exact .stay first.1 (ih first.2)

/-- The places that the members are related to have indexes that do not decrease. -/
theorem exists_ascending (along : Along relation members places) :
    ∃ (chosen : List β) (indexes : List Nat), indexes.Pairwise (· ≤ ·) ∧
      List.Forall₂ (fun place index => places[index]? = some place) chosen indexes ∧
        List.Forall₂ relation members chosen := by
  induction along with
  | done => exact ⟨[], [], .nil, .nil, .nil⟩
  | @stay member members place places related _ ih =>
      rcases ih with ⟨chosen, indexes, ascending, found, each⟩
      exact ⟨place :: chosen, 0 :: indexes, .cons (by simp) ascending, .cons rfl found,
        .cons related each⟩
  | @move members place places _ ih =>
      rcases ih with ⟨chosen, indexes, ascending, found, each⟩
      refine ⟨chosen, indexes.map (· + 1), ?_, ?_, each⟩
      · simpa [List.pairwise_map] using ascending
      · simpa [List.forall₂_map_right_iff] using found

end Along

end Along

/-- Places of a tree in preorder, where a place may come several times. -/
def Node.InPreorder (node : Node) (places : List Place) : Prop :=
  ∃ indexes : List Nat, indexes.Pairwise (· ≤ ·) ∧
    List.Forall₂ (fun place index => node.places[index]? = some place) places indexes

namespace View

variable {view : View} {context : Context} {enclosing : Option Operator}

section Blame

/-- What stands at a place is to blame for a problem of a kind. -/
def Blames (view : View) (place : Place) : ProblemKind → Prop
  | .invalidStructure => ∃ items, place.node = .sequence items
  | .missingContext | .missingFieldContext => ∃ elements, place.node = .multiset elements
  | .expectedMapping => place.node.isMapping = false
  | .compositeWhereScalarExpected => place.node.isComposite = true
  | .unknownKey => ∃ field, place.position.getLast? = some (.key (.field field)) ∧
    view.hasField field = false
  | .operatorNotPermitted => ∃ op, place.position.getLast? = some (.key (.operator op))
  | .unknownForeign => place.position.getLast? = some (.key (.operator .dataset))
  | .typeMismatch | .valueConstraintViolation => ∃ scalar, place.node = .scalar scalar

theorem Blames.under {place : Place} {kind : ProblemKind} (blames : view.Blames place kind)
    (step : Step) : view.Blames (place.under step) kind := by
  have sameEnd : ∀ last, place.position.getLast? = some last →
      (place.under step).position.getLast? = some last := by
    intro last isLast
    simp [Place.under, List.getLast?_cons, isLast]
  cases kind with
  | unknownKey =>
      rcases blames with ⟨field, isLast, unknown⟩
      exact ⟨field, sameEnd _ isLast, unknown⟩
  | operatorNotPermitted =>
      rcases blames with ⟨op, isLast⟩
      exact ⟨op, sameEnd _ isLast⟩
  | unknownForeign => exact sameEnd _ blames
  | _ => exact blames

variable {place : Place} {problem : Problem}

theorem blames_of_mem_valueProblems {field : String} {value : Scalar}
    (isScalar : place.node = .scalar value) (found : problem ∈ view.valueProblems field value) :
    view.Blames place problem.kind := by
  unfold valueProblems at found
  split at found
  · rcases List.mem_map.mp found with ⟨complaint, _, rfl⟩
    exact ⟨value, isScalar⟩
  · rcases List.mem_map.mp found with ⟨complaint, _, rfl⟩
    exact ⟨value, isScalar⟩

theorem blames_of_mem_operandProblems {value : Scalar} (isScalar : place.node = .scalar value)
    (found : problem ∈ view.operandProblems context value) : view.Blames place problem.kind := by
  unfold operandProblems at found
  split at found
  · split at found
    · exact blames_of_mem_valueProblems isScalar found
    · simp at found
  · simp at found

theorem blames_of_mem_operatorProblems {op : Operator}
    (isLast : place.position.getLast? = some (.key (.operator op)))
    (found : problem ∈ view.operatorProblems context op) : view.Blames place problem.kind := by
  unfold operatorProblems at found
  split at found
  · rcases List.mem_map.mp found with ⟨complaint, _, rfl⟩
    exact ⟨op, isLast⟩
  · rw [List.mem_singleton] at found
    subst found
    exact ⟨op, isLast⟩

theorem blames_of_mem_foreignProblems {value : Node}
    (isLast : place.position.getLast? = some (.key (.operator .dataset)))
    (found : problem ∈ view.foreignProblems value) : view.Blames place problem.kind := by
  unfold foreignProblems at found
  split at found
  · split at found
    · simp at found
    · rw [List.mem_singleton] at found
      subst found
      exact isLast
  · rw [List.mem_singleton] at found
    subst found
    exact isLast

/-- The problems of a key are found where the key leads to. -/
theorem blames_of_mem_keyProblems {key : Key} {value : Node}
    (isLast : place.position.getLast? = some (.key key))
    (found : problem ∈ view.keyProblems enclosing context key value) :
    view.Blames place problem.kind := by
  cases key with
  | operator op =>
      simp only [keyProblems] at found
      rcases List.mem_append.mp found with ofOperator | ofForeign
      · exact blames_of_mem_operatorProblems isLast ofOperator
      · split at ofForeign
        · next named =>
          rw [named.1] at isLast
          exact blames_of_mem_foreignProblems isLast ofForeign
        · simp at ofForeign
  | field field =>
      simp only [keyProblems] at found
      split at found
      · simp at found
      · next unknown =>
        rw [List.mem_singleton] at found
        subst found
        exact ⟨field, isLast, by simpa using unknown⟩

theorem blames_of_mem_memberProblems {op : Operator} {field : Option String} {member : Node}
    (isMember : place.node = member) (found : problem ∈ view.memberProblems op field member) :
    view.Blames place problem.kind := by
  cases member with
  | scalar value =>
      simp only [memberProblems] at found
      split at found
      · exact blames_of_mem_valueProblems isMember found
      · simp at found
  | _ =>
      simp only [memberProblems, List.mem_singleton] at found
      subst found
      change place.node.isComposite = true
      rw [isMember]
      rfl

theorem blames_of_mem_clauseProblems {op : Operator} {clause : Node}
    (isClause : place.node = clause) (found : problem ∈ clauseProblems op clause) :
    view.Blames place problem.kind := by
  unfold clauseProblems at found
  split at found
  · simp at found
  · next noMapping =>
    rw [List.mem_singleton] at found
    subst found
    change place.node.isMapping = false
    simpa [isClause] using noMapping

end Blame

section Order

open Node (places entryPlaces elementPlaces)

/-- A finding is at a place, and what stands there is to blame for it. -/
structure FoundAt (view : View) (finding : Finding) (place : Place) : Prop where
  position : finding.position = place.position
  blames : view.Blames place finding.problem.kind

theorem FoundAt.under {finding : Finding} {place : Place} (foundAt : view.FoundAt finding place)
    (step : Step) : view.FoundAt (finding.under step) (place.under step) where
  position := congrArg (List.cons step) foundAt.position
  blames := foundAt.blames.under step

/-- Problems of a tree itself come before what is found inside it. -/
theorem along_here {node : Node} {problems : List Problem} {later : List Finding}
    {more : List Place} (blames : ∀ problem ∈ problems, view.Blames ⟨[], node⟩ problem.kind)
    (along : Along view.FoundAt later (⟨[], node⟩ :: more)) :
    Along view.FoundAt (problems.map Finding.here ++ later) (⟨[], node⟩ :: more) := by
  apply along.at_first
  intro finding present
  rcases List.mem_map.mp present with ⟨problem, among, rfl⟩
  exact ⟨rfl, blames problem among⟩

theorem along_problems {node : Node} {problems : List Problem} {more : List Place}
    (blames : ∀ problem ∈ problems, view.Blames ⟨[], node⟩ problem.kind) :
    Along view.FoundAt (problems.map Finding.here) (⟨[], node⟩ :: more) := by
  simpa using along_here blames .done

/-- What is found in a tree that a step leads to, after the problems of the step itself. -/
theorem along_step {node : Node} {step : Step} {problems : List Problem} {later : List Finding}
    (blames : ∀ problem ∈ problems, view.Blames ⟨[step], node⟩ problem.kind)
    (along : Along view.FoundAt later node.places) :
    Along view.FoundAt ((problems.map Finding.here ++ later).map (.under step))
      (node.places.map (.under step)) := by
  have inside := along.map fun _ _ (foundAt : view.FoundAt _ _) => foundAt.under step
  rcases node.exists_places with ⟨more, isFirst⟩
  rw [isFirst, List.map_cons] at inside ⊢
  rw [List.map_append]
  apply inside.at_first
  intro finding present
  simp only [List.map_map, List.mem_map] at present
  rcases present with ⟨problem, among, rfl⟩
  exact ⟨rfl, blames problem among⟩

theorem along_findingsAt {entry : Key × Node}
    (inside : ∀ context, Along view.FoundAt (view.findings context entry.2) entry.2.places) :
    Along view.FoundAt
      ((view.findingsAt enclosing context entry).map (.under (.key entry.1)))
      (entry.2.places.map (.under (.key entry.1))) := by
  apply along_step
  · intro problem found
    exact blames_of_mem_keyProblems rfl found
  · split
    · next field scalar _ isScalar =>
      rw [Node.scalar?_eq_some] at isScalar
      rw [isScalar]
      split
      · apply along_problems
        intro problem found
        exact blames_of_mem_valueProblems rfl found
      · exact .done
    · exact inside _

theorem along_entryFindings {entries : Entries}
    (inside : ∀ entry ∈ entries, ∀ context,
      Along view.FoundAt (view.findings context entry.2) entry.2.places) :
    Along view.FoundAt (view.entryFindings enclosing context entries) (entryPlaces entries) := by
  induction entries generalizing context with
  | nil => exact .done
  | cons entry rest ih =>
      rw [List.forall_mem_cons] at inside
      rw [entryFindings_cons, entryPlaces]
      exact (along_findingsAt inside.1).append (ih inside.2)

variable {op : Operator} {index : Nat} {elements : Elements}

theorem along_clauseFindings
    (inside : ∀ element ∈ elements,
      Along view.FoundAt (view.findings context element) element.places) :
    Along view.FoundAt (view.clauseFindings op context index elements)
      (elementPlaces index elements) := by
  induction elements generalizing index with
  | nil => exact .done
  | cons clause rest ih =>
      rw [List.forall_mem_cons] at inside
      rw [clauseFindings, elementPlaces]
      refine (along_step ?_ inside.1).append (ih inside.2)
      intro problem found
      exact blames_of_mem_clauseProblems rfl found

theorem along_membershipFindings {field : Option String} :
    Along view.FoundAt (view.membershipFindings op field index elements)
      (elementPlaces index elements) := by
  induction elements generalizing index with
  | nil => exact .done
  | cons member rest ih =>
      rw [membershipFindings, elementPlaces]
      have ofMember : ∀ problem ∈ view.memberProblems op field member,
          view.Blames ⟨[.index index], member⟩ problem.kind := by
        intro problem found
        exact blames_of_mem_memberProblems rfl found
      refine Along.append ?_ ih
      simpa using along_step ofMember .done

/-- The findings in a tree go along its places. -/
theorem along_findings {node : Node} :
    Along view.FoundAt (view.findings context node) node.places := by
  induction node generalizing context with
  | scalar value =>
      apply along_problems
      intro problem found
      exact blames_of_mem_operandProblems rfl found
  | mapping entries ih =>
      apply Along.move
      apply along_entryFindings
      intro entry present context
      exact ih entry present
  | multiset elements ih =>
      have here : ∀ problem : Problem,
          problem.kind = .missingContext ∨ problem.kind = .missingFieldContext →
            view.FoundAt (.here problem) ⟨[], .multiset elements⟩ := by
        rintro problem (missing | missing)
        · exact ⟨rfl, by simp [Finding.here, missing, Blames]⟩
        · exact ⟨rfl, by simp [Finding.here, missing, Blames]⟩
      simp only [findings]
      split
      · exact .stay (here _ (.inl rfl)) .done
      · split
        · exact .move (along_clauseFindings fun element present => ih element present)
        · split
          · apply Along.at_first
            · intro finding present
              split at present
              · rw [List.mem_singleton] at present
                rw [present]
                exact here _ (.inr rfl)
              · simp at present
            · exact .move along_membershipFindings
          · exact .stay (here _ (.inl rfl)) .done
  | sequence items => exact .stay ⟨rfl, items, rfl⟩ .done

theorem along_filterFindings {filter : Node} :
    Along view.FoundAt (view.filterFindings filter) filter.places := by
  have inside : Along view.FoundAt (view.findings .root filter) filter.places := along_findings
  rcases filter.exists_places with ⟨more, isFirst⟩
  rw [isFirst] at inside ⊢
  apply inside.at_first
  intro finding present
  split at present
  · simp at present
  · next noMapping =>
    rw [List.mem_singleton] at present
    rw [present]
    refine ⟨rfl, ?_⟩
    change filter.isMapping = false
    simpa using noMapping

/-- Each issue has the written position of a place of the filter, where the culprit stands, and
these places are in preorder. -/
theorem exists_culprits (view : View) (filter : Node) :
    ∃ places : List Place, filter.InPreorder places ∧
      List.Forall₂ (fun issue place => issue.path = place.position.text ∧
        view.Blames place issue.kind) (view.validate filter).issues places := by
  have along : Along view.FoundAt (view.filterFindings filter) filter.places :=
    along_filterFindings
  rcases along.exists_ascending with ⟨places, indexes, ascending, found, each⟩
  refine ⟨places, ⟨indexes, ascending, found⟩, ?_⟩
  rw [validate_eq, List.forall₂_map_left_iff]
  apply each.imp
  rintro finding place ⟨position, blames⟩
  exact ⟨congrArg Position.text position, blames⟩

end Order

end View

end FilterLang
