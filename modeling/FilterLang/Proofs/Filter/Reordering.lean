import FilterLang.Proofs.Filter.Equality
import FilterLang.Proofs.Number.FiniteNumber
import Mathlib.Logic.Relation

/-!
# Equality up to order

`Node.Reorders` is one change of order somewhere in a tree: the entries of one mapping, or the
elements of one multiset, are put in another order. The items of a sequence are never moved. On
proper trees equality is an equivalence, and a tree equals exactly the trees that such changes turn
it into.
-/

namespace FilterLang

namespace Node

/-- A tree turns into another one by a change of order at one place. -/
inductive Reorders : Node → Node → Prop
  /-- The entries of the mapping come in another order. -/
  | entries {entries others : Entries} (perm : entries.Perm others) :
      Reorders (.mapping entries) (.mapping others)
  /-- The elements of the multiset come in another order. -/
  | elements {elements others : Elements} (perm : elements.Perm others) :
      Reorders (.multiset elements) (.multiset others)
  /-- The change is inside the value of an entry. -/
  | value {before after : Entries} {key : Key} {value other : Node}
      (inside : Reorders value other) :
      Reorders (.mapping (before ++ (key, value) :: after))
        (.mapping (before ++ (key, other) :: after))
  /-- The change is inside an element. -/
  | element {before after : Elements} {element other : Node} (inside : Reorders element other) :
      Reorders (.multiset (before ++ element :: after)) (.multiset (before ++ other :: after))
  /-- The change is inside an item. -/
  | item {before after : List Node} {item other : Node} (inside : Reorders item other) :
      Reorders (.sequence (before ++ item :: after)) (.sequence (before ++ other :: after))

/-- A tree turns into another one by any number of changes of order. -/
abbrev Reordering : Node → Node → Prop := Relation.ReflTransGen Reorders

/-- A proper tree. -/
abbrev ProperNode : Type := { node : Node // node.Proper }

section EqualOfReorders

theorem equal_of_reordered_entries {entries others : Entries} (proper : Proper (.mapping entries))
    (perm : entries.Perm others) : equal (.mapping entries) (.mapping others) = true := by
  rw [proper_mapping] at proper
  have distinct : (Entries.keys others).Nodup := (perm.map _).nodup_iff.mp proper.1
  rw [equal_mapping]
  refine ⟨perm.length_eq, ?_⟩
  intro entry present
  exact ⟨entry.2, Entries.get?_of_mem distinct (perm.mem_iff.mp present),
    equal_refl (proper.2 entry present)⟩

theorem equal_of_reordered_elements {elements others : Elements}
    (proper : Proper (.multiset elements)) (perm : elements.Perm others) :
    equal (.multiset elements) (.multiset others) = true := by
  rw [proper_multiset] at proper
  rw [equal_multiset]
  refine ⟨perm.length_eq, ?_⟩
  intro element present
  exact ⟨element, perm.mem_iff.mp present, equal_refl (proper.2 element present)⟩

theorem equal_of_value {before after : Entries} {key : Key} {value other : Node}
    (proper : Proper (.mapping (before ++ (key, value) :: after)))
    (same : equal value other = true) :
    equal (.mapping (before ++ (key, value) :: after))
      (.mapping (before ++ (key, other) :: after)) = true := by
  rw [proper_mapping] at proper
  have distinct : (Entries.keys (before ++ (key, other) :: after)).Nodup := by
    simpa [Entries.keys] using proper.1
  rw [equal_mapping]
  refine ⟨by simp, ?_⟩
  intro entry present
  rcases List.mem_append.mp present with earlier | here
  · exact ⟨entry.2, Entries.get?_of_mem distinct (List.mem_append_left _ earlier),
      equal_refl (proper.2 entry present)⟩
  · rcases List.mem_cons.mp here with rfl | later
    · have changed : (key, other) ∈ before ++ (key, other) :: after := by simp
      exact ⟨other, Entries.get?_of_mem distinct changed, same⟩
    · have kept : entry ∈ before ++ (key, other) :: after := by simp [later]
      exact ⟨entry.2, Entries.get?_of_mem distinct kept, equal_refl (proper.2 entry present)⟩

theorem equal_of_element {before after : Elements} {element other : Node}
    (proper : Proper (.multiset (before ++ element :: after)))
    (same : equal element other = true) :
    equal (.multiset (before ++ element :: after)) (.multiset (before ++ other :: after)) =
      true := by
  rw [proper_multiset] at proper
  rw [equal_multiset]
  refine ⟨by simp, ?_⟩
  intro member present
  rcases List.mem_append.mp present with earlier | here
  · exact ⟨member, List.mem_append_left _ earlier, equal_refl (proper.2 member present)⟩
  · rcases List.mem_cons.mp here with rfl | later
    · exact ⟨other, by simp, same⟩
    · exact ⟨member, by simp [later], equal_refl (proper.2 member present)⟩

theorem equal_of_item {before after : List Node} {item other : Node}
    (proper : Proper (.sequence (before ++ item :: after))) (same : equal item other = true) :
    equal (.sequence (before ++ item :: after)) (.sequence (before ++ other :: after)) = true := by
  rw [proper_sequence] at proper
  rw [equal_sequence]
  apply List.rel_append
  · rw [List.forall₂_same]
    intro member present
    exact equal_refl (proper member (List.mem_append_left _ present))
  · refine .cons same ?_
    rw [List.forall₂_same]
    intro member present
    exact equal_refl (proper member (by simp [present]))

/-- A change of order at one place makes an equal tree. -/
theorem equal_of_reorders {node other : Node} (proper : node.Proper)
    (reorders : Reorders node other) : equal node other = true := by
  induction reorders with
  | entries perm => exact equal_of_reordered_entries proper perm
  | elements perm => exact equal_of_reordered_elements proper perm
  | value _ ih =>
      apply equal_of_value proper
      exact ih ((proper_mapping.mp proper).2 _ (List.mem_append_right _ List.mem_cons_self))
  | element _ ih =>
      apply equal_of_element proper
      exact ih ((proper_multiset.mp proper).2 _ (List.mem_append_right _ List.mem_cons_self))
  | item _ ih =>
      apply equal_of_item proper
      exact ih (proper_sequence.mp proper _ (List.mem_append_right _ List.mem_cons_self))

theorem equal_of_reordering {node other : Node} (proper : node.Proper)
    (reordering : Reordering node other) : equal node other = true := by
  induction reordering with
  | refl => exact equal_refl proper
  | tail _ reorders ih =>
      exact equal_trans ih (equal_of_reorders (proper_of_equal proper ih) reorders)

end EqualOfReorders

section ReorderingOfEqual

/-- Changes of order in the members of a list, made from the first to the last. -/
theorem reordering_of_forall₂ {α : Type} {relation : α → α → Prop} (whole : List α → Node)
    (step : ∀ before after member result, relation member result →
      Reordering (whole (before ++ member :: after)) (whole (before ++ result :: after)))
    {list results : List α} (related : List.Forall₂ relation list results) (before : List α) :
    Reordering (whole (before ++ list)) (whole (before ++ results)) := by
  induction related generalizing before with
  | nil => exact .refl
  | @cons member result rest others first _ ih =>
      have others := ih (before ++ [result])
      simp only [List.append_assoc, List.singleton_append] at others
      exact (step before rest member result first).trans others

theorem reordering_of_equal {node other : Node} (proper : node.Proper)
    (same : equal node other = true) : Reordering node other := by
  induction node generalizing other with
  | scalar value =>
      rw [eq_scalar_of_equal same]
  | mapping entries ih =>
      rcases exists_mapping_of_equal same with ⟨others, rfl⟩
      rw [proper_mapping] at proper
      have matching : Matching (Entries.Corresponds Reordering) entries others := by
        apply (exists_entries_matching proper.1 same).imp_of_mem
        rintro entry present partner ⟨sameKey, sameValue⟩
        exact ⟨sameKey, ih entry present (proper.2 entry present) sameValue⟩
      rcases matching with ⟨partners, perm, matched⟩
      refine (reordering_of_forall₂ mapping ?_ matched []).tail (.entries perm)
      rintro before after ⟨key, value⟩ ⟨partnerKey, partner⟩ ⟨sameKey, reordering⟩
      simp only at sameKey
      subst sameKey
      exact Relation.ReflTransGen.lift
        (fun inner => mapping (before ++ (partnerKey, inner) :: after))
        (fun _ _ => Reorders.value) _ _ reordering
  | multiset elements ih =>
      rcases exists_multiset_of_equal same with ⟨others, rfl⟩
      have matching : Matching Reordering elements others := by
        apply (exists_elements_matching proper same).imp_of_mem
        intro element present partner
        exact ih element present ((proper_multiset.mp proper).2 element present)
      rcases matching with ⟨partners, perm, matched⟩
      refine (reordering_of_forall₂ multiset ?_ matched []).tail (.elements perm)
      intro before after element partner reordering
      exact Relation.ReflTransGen.lift (fun inner => multiset (before ++ inner :: after))
        (fun _ _ => Reorders.element) _ _ reordering
  | sequence items ih =>
      rcases exists_sequence_of_equal same with ⟨others, rfl⟩
      rw [proper_sequence] at proper
      rw [equal_sequence] at same
      have matched : List.Forall₂ Reordering items others := by
        apply forall₂_imp_of_mem same
        intro item present partner
        exact ih item present (proper item present)
      refine reordering_of_forall₂ sequence ?_ matched []
      intro before after item partner reordering
      exact Relation.ReflTransGen.lift (fun inner => sequence (before ++ inner :: after))
        (fun _ _ => Reorders.item) _ _ reordering

end ReorderingOfEqual

/-- Equality is an equivalence of proper trees, and relates a proper tree to what changes of order
make of it and to nothing else. The items of sequences keep their places, floats are equal if they
have one value, and no integer equals a float. -/
theorem equality_is_reordering :
    Equivalence (fun first second : ProperNode => equal first.1 second.1 = true) ∧
    (∀ (node : ProperNode) (other : Node),
      equal node.1 other = true ↔ Reordering node.1 other) ∧
    (∀ items others : List Node, equal (.sequence items) (.sequence others) = true ↔
      List.Forall₂ (fun item other => equal item other = true) items others) ∧
    (∀ first second : FiniteNumber,
      equal (.scalar (.float first)) (.scalar (.float second)) = true ↔
        first.value.units = second.value.units) ∧
    ∀ (integer : Int64) (float : FiniteNumber),
      equal (.scalar (.int integer)) (.scalar (.float float)) = false ∧
        equal (.scalar (.float float)) (.scalar (.int integer)) = false := by
  refine ⟨⟨?_, ?_, ?_⟩, ?_, ?_, ?_, ?_⟩
  · intro node
    exact equal_refl node.2
  · intro first second same
    exact equal_symm first.2 same
  · intro first second third left right
    exact equal_trans left right
  · intro node other
    exact ⟨reordering_of_equal node.2, equal_of_reordering node.2⟩
  · intro items others
    exact equal_sequence
  · intro first second
    have bits : equal (.scalar (.float first)) (.scalar (.float second)) =
        (Scalar.float first == Scalar.float second) := rfl
    rw [bits, beq_iff_eq, Scalar.float.injEq, FiniteNumber.eq_iff_units]
  · intro integer float
    exact ⟨rfl, rfl⟩

end Node

end FilterLang
