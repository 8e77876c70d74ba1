import FilterLang.Proofs.Filter.Matching
import FilterLang.Proofs.Filter.Subtree
import Mathlib.Data.List.Induction
import Mathlib.Data.List.Nodup

/-!
# Equality of trees

`Node.equal` compares lengths and looks for a partner of every entry or element in one direction
only. On proper trees, whose keys are distinct and whose elements are pairwise unequal, this is an
equivalence: no two elements share a partner, so that the partners are a reordering of the other
side (`exists_matching`). The file also states which elements `Elements.ofList` keeps.
-/

namespace FilterLang

namespace Entries

theorem keys_ne_nil {entries : Entries} : keys entries ≠ [] ↔ entries ≠ [] := by
  simp [keys]

theorem mem_of_get? {key : Key} {value : Node} {entries : Entries}
    (found : get? key entries = some value) : (key, value) ∈ entries := by
  induction entries with
  | nil => simp [get?] at found
  | cons entry rest ih =>
      rcases entry with ⟨first, other⟩
      by_cases same : first = key
      · simp only [get?, same, if_true, Option.some.injEq] at found
        simp [same, found]
      · simp only [get?, same, if_false] at found
        exact List.mem_cons_of_mem _ (ih found)

theorem mem_keys_of_get? {key : Key} {value : Node} {entries : Entries}
    (found : get? key entries = some value) : key ∈ keys entries := by
  have present := mem_of_get? found
  exact List.mem_map_of_mem present

theorem get?_of_mem {entries : Entries} (distinct : (keys entries).Nodup)
    {entry : Key × Node} (present : entry ∈ entries) : get? entry.1 entries = some entry.2 := by
  induction entries with
  | nil => simp at present
  | cons first rest ih =>
      rcases first with ⟨key, value⟩
      simp only [keys, List.map_cons, List.nodup_cons] at distinct
      rcases distinct with ⟨fresh, distinct⟩
      rcases List.mem_cons.mp present with rfl | later
      · simp [get?]
      · have different : key ≠ entry.1 := by
          rintro rfl
          exact fresh (List.mem_map_of_mem later)
        simp only [get?, different, if_false]
        exact ih distinct later

end Entries

namespace Node

/-- The keys of a mapping are distinct and the elements of a multiset pairwise unequal. -/
def DistinctHere : Node → Prop
  | .mapping entries => (Entries.keys entries).Nodup
  | .multiset elements => elements.Pairwise fun earlier later => equal later earlier = false
  | _ => True

/-- A tree as it is built from mappings and multisets: at every depth, the keys of a mapping are
distinct and the elements of a multiset pairwise unequal. -/
def Proper (node : Node) : Prop := node.Everywhere DistinctHere

@[simp]
theorem proper_scalar {value : Scalar} : Proper (.scalar value) := by
  simp [Proper, DistinctHere]

@[simp]
theorem proper_mapping {entries : Entries} :
    Proper (.mapping entries) ↔
      (Entries.keys entries).Nodup ∧ ∀ entry ∈ entries, Proper entry.2 := by
  simp [Proper, DistinctHere]

@[simp]
theorem proper_multiset {elements : Elements} :
    Proper (.multiset elements) ↔
      elements.Pairwise (fun earlier later => equal later earlier = false) ∧
        ∀ element ∈ elements, Proper element := by
  simp [Proper, DistinctHere]

@[simp]
theorem proper_sequence {items : List Node} :
    Proper (.sequence items) ↔ ∀ item ∈ items, Proper item := by
  simp [Proper, DistinctHere]

theorem entriesWithin_iff {entries others : Entries} :
    entriesWithin entries others = true ↔
      ∀ entry ∈ entries, ∃ other, Entries.get? entry.1 others = some other ∧
        equal entry.2 other = true := by
  induction entries with
  | nil => simp [entriesWithin]
  | cons entry rest ih =>
      rw [entriesWithin, Bool.and_eq_true, ih, List.forall_mem_cons]
      apply and_congr_left
      intro _
      cases Entries.get? entry.1 others <;> simp

theorem elementsWithin_iff {elements others : Elements} :
    elementsWithin elements others = true ↔
      ∀ element ∈ elements, ∃ other ∈ others, equal element other = true := by
  induction elements with
  | nil => simp [elementsWithin]
  | cons element rest ih => simp [elementsWithin, ih]

theorem itemsEqual_iff {items others : List Node} :
    itemsEqual items others = true ↔
      List.Forall₂ (fun item other => equal item other = true) items others := by
  induction items generalizing others with
  | nil => cases others <;> simp [itemsEqual]
  | cons item rest ih => cases others <;> simp [itemsEqual, ih]

theorem equal_mapping {entries others : Entries} :
    equal (.mapping entries) (.mapping others) = true ↔
      entries.length = others.length ∧
        ∀ entry ∈ entries, ∃ other, Entries.get? entry.1 others = some other ∧
          equal entry.2 other = true := by
  have compared : equal (.mapping entries) (.mapping others) =
      (entries.length == others.length && entriesWithin entries others) := rfl
  rw [compared, Bool.and_eq_true, beq_iff_eq, entriesWithin_iff]

theorem equal_multiset {elements others : Elements} :
    equal (.multiset elements) (.multiset others) = true ↔
      elements.length = others.length ∧
        ∀ element ∈ elements, ∃ other ∈ others, equal element other = true := by
  have compared : equal (.multiset elements) (.multiset others) =
      (elements.length == others.length && elementsWithin elements others) := rfl
  rw [compared, Bool.and_eq_true, beq_iff_eq, elementsWithin_iff]

theorem equal_sequence {items others : List Node} :
    equal (.sequence items) (.sequence others) = true ↔
      List.Forall₂ (fun item other => equal item other = true) items others := by
  have compared : equal (.sequence items) (.sequence others) = itemsEqual items others := rfl
  rw [compared, itemsEqual_iff]

/-- Nodes of different kinds are not equal. -/
theorem kind_of_equal {node other : Node} (same : equal node other = true) :
    other.kind = node.kind := by
  cases node <;> cases other <;> first | rfl | exact absurd same Bool.false_ne_true

theorem eq_scalar_of_equal {value : Scalar} {other : Node}
    (same : equal (.scalar value) other = true) : other = .scalar value := by
  cases other with
  | scalar other =>
      have identical : (value == other) = true := same
      rw [beq_iff_eq] at identical
      rw [identical]
  | _ => cases kind_of_equal same

theorem exists_mapping_of_equal {entries : Entries} {other : Node}
    (same : equal (.mapping entries) other = true) : ∃ others, other = .mapping others := by
  cases other with
  | mapping others => exact ⟨others, rfl⟩
  | _ => cases kind_of_equal same

theorem exists_multiset_of_equal {elements : Elements} {other : Node}
    (same : equal (.multiset elements) other = true) : ∃ others, other = .multiset others := by
  cases other with
  | multiset others => exact ⟨others, rfl⟩
  | _ => cases kind_of_equal same

theorem exists_sequence_of_equal {items : List Node} {other : Node}
    (same : equal (.sequence items) other = true) : ∃ others, other = .sequence others := by
  cases other with
  | sequence others => exact ⟨others, rfl⟩
  | _ => cases kind_of_equal same

theorem isMapping_of_equal {node other : Node} (same : equal node other = true) :
    other.isMapping = node.isMapping := by
  cases node <;> cases other <;> first | rfl | cases kind_of_equal same

theorem isComposite_of_equal {node other : Node} (same : equal node other = true) :
    other.isComposite = node.isComposite := by
  cases node <;> cases other <;> first | rfl | cases kind_of_equal same

theorem scalar?_of_equal {node other : Node} (same : equal node other = true) :
    other.scalar? = node.scalar? := by
  cases node with
  | scalar value => rw [eq_scalar_of_equal same]
  | _ => cases other <;> first | rfl | cases kind_of_equal same

theorem equal_trans {first second third : Node} (left : equal first second = true)
    (right : equal second third = true) : equal first third = true := by
  induction first generalizing second third with
  | scalar value =>
      have same := eq_scalar_of_equal left
      subst same
      exact right
  | mapping entries ih =>
      rcases exists_mapping_of_equal left with ⟨others, rfl⟩
      rcases exists_mapping_of_equal right with ⟨last, rfl⟩
      rw [equal_mapping] at left right ⊢
      refine ⟨left.1.trans right.1, ?_⟩
      intro entry present
      rcases left.2 entry present with ⟨middle, found, same⟩
      rcases right.2 _ (Entries.mem_of_get? found) with ⟨final, foundFinal, sameFinal⟩
      exact ⟨final, foundFinal, ih entry present same sameFinal⟩
  | multiset elements ih =>
      rcases exists_multiset_of_equal left with ⟨others, rfl⟩
      rcases exists_multiset_of_equal right with ⟨last, rfl⟩
      rw [equal_multiset] at left right ⊢
      refine ⟨left.1.trans right.1, ?_⟩
      intro element present
      rcases left.2 element present with ⟨middle, among, same⟩
      rcases right.2 middle among with ⟨final, amongFinal, sameFinal⟩
      exact ⟨final, amongFinal, ih element present same sameFinal⟩
  | sequence items ih =>
      rcases exists_sequence_of_equal left with ⟨others, rfl⟩
      rcases exists_sequence_of_equal right with ⟨last, rfl⟩
      rw [equal_sequence] at left right ⊢
      induction left generalizing last with
      | nil => exact right
      | cons same _ ihItems =>
          rcases List.forall₂_cons_left_iff.mp right with ⟨final, rest, sameFinal, others, rfl⟩
          refine .cons (ih _ List.mem_cons_self same sameFinal) (ihItems ?_ rest others)
          intro item present
          exact ih item (List.mem_cons_of_mem _ present)

theorem equal_refl {node : Node} (proper : node.Proper) : equal node node = true := by
  induction node with
  | scalar value => exact beq_self_eq_true value
  | mapping entries ih =>
      rw [proper_mapping] at proper
      rw [equal_mapping]
      refine ⟨rfl, ?_⟩
      intro entry present
      exact ⟨entry.2, Entries.get?_of_mem proper.1 present,
        ih entry present (proper.2 entry present)⟩
  | multiset elements ih =>
      rw [proper_multiset] at proper
      rw [equal_multiset]
      refine ⟨rfl, ?_⟩
      intro element present
      exact ⟨element, present, ih element present (proper.2 element present)⟩
  | sequence items ih =>
      rw [proper_sequence] at proper
      rw [equal_sequence, List.forall₂_same]
      intro item present
      exact ih item present (proper item present)

end Node

namespace Node

/-- The entries of an equal mapping are a reordering of entries with the same keys and equal
values. -/
theorem exists_entries_matching {entries others : Entries} (distinct : (Entries.keys entries).Nodup)
    (same : equal (.mapping entries) (.mapping others) = true) :
    Matching (Entries.Corresponds fun value other => equal value other = true) entries
      others := by
  rw [equal_mapping] at same
  apply exists_matching same.1
  · intro entry present
    rcases same.2 entry present with ⟨other, found, equalValues⟩
    exact ⟨(entry.1, other), Entries.mem_of_get? found, rfl, equalValues⟩
  · rw [Entries.keys, List.nodup_iff_pairwise_ne, List.pairwise_map] at distinct
    apply distinct.imp
    intro earlier later different other _ first second
    exact different (first.1.symm.trans second.1)

theorem exists_elements_matching_of_symm {elements others : Elements}
    (unequal : elements.Pairwise fun earlier later => equal later earlier = false)
    (symm : ∀ element ∈ elements, ∀ other, equal element other = true → equal other element = true)
    (same : equal (.multiset elements) (.multiset others) = true) :
    Matching (fun element other => equal element other = true) elements others := by
  rw [equal_multiset] at same
  apply exists_matching same.1 same.2
  apply unequal.imp_of_mem
  intro earlier later earlierPresent _ differ other _ first second
  have collapsed := equal_trans second (symm earlier earlierPresent other first)
  simp [collapsed] at differ

theorem equal_symm {first second : Node} (proper : first.Proper)
    (same : equal first second = true) : equal second first = true := by
  induction first generalizing second with
  | scalar value =>
      have identical := eq_scalar_of_equal same
      subst identical
      exact same
  | mapping entries ih =>
      rcases exists_mapping_of_equal same with ⟨others, rfl⟩
      rw [proper_mapping] at proper
      have matching := exists_entries_matching proper.1 same
      rw [equal_mapping]
      refine ⟨matching.length_eq.symm, ?_⟩
      intro other present
      rcases matching.exists_left present with ⟨entry, among, sameKey, sameValue⟩
      refine ⟨entry.2, ?_, ih entry among (proper.2 entry among) sameValue⟩
      rw [sameKey]
      exact Entries.get?_of_mem proper.1 among
  | multiset elements ih =>
      rcases exists_multiset_of_equal same with ⟨others, rfl⟩
      rw [proper_multiset] at proper
      have symm : ∀ element ∈ elements, ∀ other,
          equal element other = true → equal other element = true := by
        intro element present other
        exact ih element present (proper.2 element present)
      have matching := exists_elements_matching_of_symm proper.1 symm same
      rw [equal_multiset]
      refine ⟨matching.length_eq.symm, ?_⟩
      intro other present
      rcases matching.exists_left present with ⟨element, among, sameElement⟩
      exact ⟨element, among, symm element among other sameElement⟩
  | sequence items ih =>
      rcases exists_sequence_of_equal same with ⟨others, rfl⟩
      rw [proper_sequence] at proper
      rw [equal_sequence] at same ⊢
      apply List.Forall₂.flip
      rw [List.forall₂_iff_zip] at same ⊢
      refine ⟨same.1, ?_⟩
      intro item other paired
      have present := (List.of_mem_zip paired).1
      exact ih item present (proper item present) (same.2 paired)

/-- The elements of an equal multiset are a reordering of equal elements. -/
theorem exists_elements_matching {elements others : Elements}
    (proper : Proper (.multiset elements))
    (same : equal (.multiset elements) (.multiset others) = true) :
    Matching (fun element other => equal element other = true) elements others := by
  rw [proper_multiset] at proper
  apply exists_elements_matching_of_symm proper.1 _ same
  intro element present other
  exact equal_symm (proper.2 element present)

/-- A reordering of equal elements is pairwise unequal too. -/
theorem unequal_of_matching {elements others : Elements} (proper : Proper (.multiset elements))
    (matching : Matching (fun element other => equal element other = true) elements others) :
    others.Pairwise fun earlier later => equal later earlier = false := by
  rw [proper_multiset] at proper
  have apart : elements.Pairwise fun earlier later =>
      equal earlier later = false ∧ equal later earlier = false := by
    apply proper.1.imp_of_mem
    intro earlier later present _ differ
    refine ⟨?_, differ⟩
    by_contra same
    have converse := equal_symm (proper.2 earlier present) (by simpa using same)
    simp [converse] at differ
  have collapse : ∀ first ∈ elements, ∀ second ∈ elements, ∀ partner other,
      equal first partner = true → equal second other = true → equal first second = false →
        equal partner other = false := by
    intro first _ second among partner other samePartner sameOther differ
    by_contra same
    have back := equal_symm (proper.2 second among) sameOther
    have collapsed := equal_trans (equal_trans samePartner (by simpa using same)) back
    simp [collapsed] at differ
  have separate : others.Pairwise fun earlier later =>
      equal earlier later = false ∧ equal later earlier = false := by
    apply matching.pairwise apart And.symm
    intro first present second among partner other samePartner sameOther differ
    exact ⟨collapse first present second among _ _ samePartner sameOther differ.1,
      collapse second among first present _ _ sameOther samePartner differ.2⟩
  exact separate.imp And.right

theorem proper_of_equal {first second : Node} (proper : first.Proper)
    (same : equal first second = true) : second.Proper := by
  induction first generalizing second with
  | scalar value =>
      have identical := eq_scalar_of_equal same
      subst identical
      exact proper
  | mapping entries ih =>
      rcases exists_mapping_of_equal same with ⟨others, rfl⟩
      rw [proper_mapping] at proper
      have matching := exists_entries_matching proper.1 same
      rw [proper_mapping]
      constructor
      · exact (Entries.keys_perm_of_matching matching).nodup_iff.mp proper.1
      · intro other present
        rcases matching.exists_left present with ⟨entry, among, _, sameValue⟩
        exact ih entry among (proper.2 entry among) sameValue
  | multiset elements ih =>
      rcases exists_multiset_of_equal same with ⟨others, rfl⟩
      have matching := exists_elements_matching proper same
      have unequal := unequal_of_matching proper matching
      rw [proper_multiset] at proper ⊢
      refine ⟨unequal, ?_⟩
      intro other present
      rcases matching.exists_left present with ⟨element, among, sameElement⟩
      exact ih element among (proper.2 element among) sameElement
  | sequence items ih =>
      rcases exists_sequence_of_equal same with ⟨others, rfl⟩
      rw [proper_sequence] at proper ⊢
      rw [equal_sequence] at same
      intro other present
      rcases exists_source same present with ⟨item, among, sameItem⟩
      exact ih item among (proper item among) sameItem

/-- Equal trees, the first of which is proper. -/
def SameTree (first second : Node) : Prop := first.Proper ∧ equal first second = true

theorem SameTree.symm {first second : Node} (same : SameTree first second) :
    SameTree second first :=
  ⟨proper_of_equal same.1 same.2, equal_symm same.1 same.2⟩

theorem SameTree.entries {entries others : Entries}
    (same : SameTree (.mapping entries) (.mapping others)) :
    Matching (Entries.Corresponds SameTree) entries others := by
  have proper := proper_mapping.mp same.1
  apply (exists_entries_matching proper.1 same.2).imp_of_mem
  intro entry present other corresponds
  exact ⟨corresponds.1, proper.2 entry present, corresponds.2⟩

theorem SameTree.elements {elements others : Elements}
    (same : SameTree (.multiset elements) (.multiset others)) :
    Matching SameTree elements others := by
  have proper := proper_multiset.mp same.1
  apply (exists_elements_matching same.1 same.2).imp_of_mem
  intro element present other equal
  exact ⟨proper.2 element present, equal⟩

theorem sameTree_mapping {entries others : Entries} (distinct : (Entries.keys entries).Nodup)
    (matching : Matching (Entries.Corresponds SameTree) entries others) :
    SameTree (.mapping entries) (.mapping others) := by
  have distinctOthers := (Entries.keys_perm_of_matching matching).nodup_iff.mp distinct
  rw [SameTree, proper_mapping, equal_mapping]
  refine ⟨⟨distinct, ?_⟩, matching.length_eq, ?_⟩
  · intro entry present
    rcases matching.exists_right present with ⟨other, _, _, sameValue⟩
    exact sameValue.1
  · intro entry present
    rcases matching.exists_right present with ⟨other, among, sameKey, sameValue⟩
    refine ⟨other.2, ?_, sameValue.2⟩
    rw [← sameKey]
    exact Entries.get?_of_mem distinctOthers among

/-- Entries with one key and equal values are one entry with a scalar, or hold composite values. -/
theorem eq_or_composite {entry other : Key × Node}
    (same : Entries.Corresponds SameTree entry other) :
    other = entry ∨ entry.2.isComposite = true ∧ other.2.isComposite = true := by
  rcases entry with ⟨key, value⟩
  rcases other with ⟨otherKey, otherValue⟩
  rcases same with ⟨sameKey, sameValue⟩
  simp only at sameKey sameValue
  subst sameKey
  cases composite : value.isComposite with
  | true => exact .inr ⟨rfl, (isComposite_of_equal sameValue.2).trans composite⟩
  | false =>
      rcases exists_scalar composite with ⟨scalar, rfl⟩
      rw [eq_scalar_of_equal sameValue.2]
      exact .inl rfl

theorem sameTree_entry (key : Key) {value other : Node} (same : SameTree value other) :
    SameTree (entry key value) (entry key other) := by
  apply sameTree_mapping (by simp [Entries.keys])
  exact ⟨_, .refl _, .cons ⟨rfl, same⟩ .nil⟩

/-- Equal mappings bind a key to equal values, or both not at all. -/
theorem get?_of_equal {entries others : Entries}
    (same : SameTree (.mapping entries) (.mapping others)) (key : Key) :
    Option.Rel SameTree (Entries.get? key entries) (Entries.get? key others) := by
  rcases same with ⟨proper, same⟩
  cases found : Entries.get? key entries with
  | some value =>
      have present := Entries.mem_of_get? found
      rcases (equal_mapping.mp same).2 _ present with ⟨other, foundOther, equalValues⟩
      rw [foundOther]
      exact .some ⟨(proper_mapping.mp proper).2 _ present, equalValues⟩
  | none =>
      cases foundOther : Entries.get? key others with
      | none => exact .none
      | some other =>
          have converse := equal_symm proper same
          rcases (equal_mapping.mp converse).2 _ (Entries.mem_of_get? foundOther) with
            ⟨value, foundValue, _⟩
          simp [found] at foundValue

end Node

namespace Elements

theorem contains_iff {value : Node} {elements : Elements} :
    contains value elements = true ↔ ∃ element ∈ elements, Node.equal value element = true := by
  simp [contains]

theorem mem_of_mem_insert {value member : Node} {elements : Elements}
    (present : member ∈ insert value elements) : member = value ∨ member ∈ elements := by
  unfold insert at present
  split at present
  · exact .inr present
  · rcases List.mem_append.mp present with old | new
    · exact .inr old
    · exact .inl (by simpa using new)

theorem mem_insert_of_mem {value member : Node} {elements : Elements}
    (present : member ∈ elements) : member ∈ insert value elements := by
  unfold insert
  split
  · exact present
  · exact List.mem_append_left _ present

theorem insert_unequal {value : Node} {elements : Elements}
    (unequal : elements.Pairwise fun earlier later => Node.equal later earlier = false) :
    (insert value elements).Pairwise fun earlier later => Node.equal later earlier = false := by
  unfold insert
  split
  · exact unequal
  · next absent =>
    rw [List.pairwise_append]
    refine ⟨unequal, List.pairwise_singleton _ _, ?_⟩
    intro earlier present later added
    rw [List.mem_singleton] at added
    subst added
    by_contra same
    exact absent (contains_iff.mpr ⟨earlier, present, by simpa using same⟩)

theorem ofList_concat {values : List Node} {value : Node} :
    ofList (values ++ [value]) = insert value (ofList values) := by
  simp [ofList, List.foldl_append]

theorem mem_of_mem_ofList {values : List Node} {member : Node}
    (present : member ∈ ofList values) : member ∈ values := by
  induction values using List.reverseRecOn with
  | nil => exact present
  | append_singleton values value ih =>
      rw [ofList_concat] at present
      rcases mem_of_mem_insert present with rfl | earlier
      · simp
      · exact List.mem_append_left _ (ih earlier)

theorem ofList_unequal {values : List Node} :
    (ofList values).Pairwise fun earlier later => Node.equal later earlier = false := by
  induction values using List.reverseRecOn with
  | nil => exact .nil
  | append_singleton values value ih =>
      rw [ofList_concat]
      exact insert_unequal ih

/-- Each value is kept itself, or dropped for an equal one that is kept. -/
theorem exists_kept {values : List Node} {value : Node} (present : value ∈ values) :
    ∃ kept ∈ ofList values, kept = value ∨ Node.equal value kept = true := by
  induction values using List.reverseRecOn with
  | nil => simp at present
  | append_singleton values last ih =>
      rw [ofList_concat]
      rcases List.mem_append.mp present with earlier | added
      · rcases ih earlier with ⟨kept, among, same⟩
        exact ⟨kept, mem_insert_of_mem among, same⟩
      · rw [List.mem_singleton] at added
        subst added
        by_cases dropped : contains value (ofList values) = true
        · rcases contains_iff.mp dropped with ⟨kept, among, same⟩
          exact ⟨kept, mem_insert_of_mem among, .inr same⟩
        · exact ⟨value, by simp [insert, dropped], .inl rfl⟩

/-- Values that are already pairwise unequal are all kept. -/
theorem ofList_of_unequal {values : List Node}
    (unequal : values.Pairwise fun earlier later => Node.equal later earlier = false) :
    ofList values = values := by
  induction values using List.reverseRecOn with
  | nil => rfl
  | append_singleton values value ih =>
      rcases List.pairwise_append.mp unequal with ⟨before, _, apart⟩
      have absent : contains value values = false := by
        rw [contains, List.any_eq_false]
        intro earlier present
        simp [apart earlier present value (List.mem_singleton_self value)]
      rw [ofList_concat, ih before, insert, absent]
      rfl

/-- What counts for a multiset is which values there are, up to equality. -/
theorem equal_ofList {values others : List Node} (proper : ∀ value ∈ values, value.Proper)
    (covered : ∀ value ∈ values, ∃ other ∈ others, Node.equal value other = true)
    (covers : ∀ other ∈ others, ∃ value ∈ values, Node.equal value other = true) :
    Node.equal (.multiset (ofList values)) (.multiset (ofList others)) = true := by
  have partner : ∀ value ∈ ofList values, ∃ other ∈ ofList others,
      Node.equal value other = true := by
    intro value present
    rcases covered value (mem_of_mem_ofList present) with ⟨other, among, same⟩
    rcases exists_kept among with ⟨kept, keptAmong, rfl | sameKept⟩
    · exact ⟨kept, keptAmong, same⟩
    · exact ⟨kept, keptAmong, Node.equal_trans same sameKept⟩
  have source : ∀ other ∈ ofList others, ∃ value ∈ ofList values,
      Node.equal value other = true := by
    intro other present
    rcases covers other (mem_of_mem_ofList present) with ⟨value, among, same⟩
    rcases exists_kept among with ⟨kept, keptAmong, rfl | sameKept⟩
    · exact ⟨kept, keptAmong, same⟩
    · have back := Node.equal_symm (proper value among) sameKept
      exact ⟨kept, keptAmong, Node.equal_trans back same⟩
  have keptProper : ∀ value ∈ ofList values, value.Proper := by
    intro value present
    exact proper value (mem_of_mem_ofList present)
  have notMore : (ofList values).length ≤ (ofList others).length := by
    apply length_le_of_partners partner
    apply ofList_unequal.imp_of_mem
    intro earlier later present _ differ other _ first second
    have collapsed := Node.equal_trans second (Node.equal_symm (keptProper earlier present) first)
    simp [collapsed] at differ
  have notLess : (ofList others).length ≤ (ofList values).length := by
    apply length_le_of_partners source
    apply ofList_unequal.imp
    intro earlier later differ value present first second
    have collapsed := Node.equal_trans (Node.equal_symm (keptProper value present) second) first
    simp [collapsed] at differ
  rw [Node.equal_multiset]
  exact ⟨Nat.le_antisymm notMore notLess, partner⟩

/-- Proper values make a proper multiset. -/
theorem proper_ofList {values : List Node} (proper : ∀ value ∈ values, value.Proper) :
    Node.Proper (.multiset (ofList values)) := by
  rw [Node.proper_multiset]
  refine ⟨ofList_unequal, ?_⟩
  intro element present
  exact proper element (mem_of_mem_ofList present)

theorem sameTree_ofList {values others : List Node}
    (matching : Matching Node.SameTree values others) :
    Node.SameTree (.multiset (ofList values)) (.multiset (ofList others)) := by
  have proper : ∀ value ∈ values, value.Proper := by
    intro value present
    rcases matching.exists_right present with ⟨other, _, same⟩
    exact same.1
  refine ⟨proper_ofList proper, equal_ofList proper ?_ ?_⟩
  · intro value present
    rcases matching.exists_right present with ⟨other, among, same⟩
    exact ⟨other, among, same.2⟩
  · intro other present
    rcases matching.exists_left present with ⟨value, among, same⟩
    exact ⟨value, among, same.2⟩

end Elements

namespace Node

theorem sequenceFree_ofList {values : List Node} (free : ∀ value ∈ values, value.SequenceFree) :
    SequenceFree (.multiset (Elements.ofList values)) := by
  rw [sequenceFree_multiset]
  intro element present
  exact free element (Elements.mem_of_mem_ofList present)

@[simp]
theorem proper_entry {key : Key} {value : Node} : Proper (entry key value) ↔ value.Proper := by
  simp [entry, Entries.keys]

theorem proper_and {clauses : List Node} (proper : ∀ clause ∈ clauses, clause.Proper) :
    Proper (Node.and clauses) :=
  proper_entry.mpr (Elements.proper_ofList proper)

end Node

end FilterLang
