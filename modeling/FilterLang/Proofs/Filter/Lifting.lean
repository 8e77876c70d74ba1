import FilterLang.Proofs.Filter.Containers

/-!
# Lifted trees

Lifting builds every mapping and every multiset anew from lifted parts, and makes a multiset of
every sequence. Elements that differ may become equal when what they hold is lifted, so a multiset
can lose elements although nothing in it is a sequence itself. Whatever the tree was, what comes out
is proper and holds no sequence (`lift_proper`, `lift_sequenceFree`), and a proper tree without
sequences is left as it is (`lift_of_sequenceFree`).
-/

namespace FilterLang

/-- Members that are computed from matching members match. -/
theorem Matching.map {α β γ δ : Type} {relation : α → β → Prop} {other : γ → δ → Prop}
    {f : α → γ} {g : β → δ} {list : List α} {others : List β}
    (matching : Matching relation list others)
    (implies : ∀ member ∈ list, ∀ partner, relation member partner → other (f member) (g partner)) :
    Matching other (list.map f) (others.map g) := by
  rcases matching with ⟨partners, perm, matched⟩
  refine ⟨partners.map g, perm.map g, ?_⟩
  rw [List.forall₂_map_left_iff, List.forall₂_map_right_iff]
  exact forall₂_imp_of_mem matched implies

namespace Node

variable {node : Node}

theorem liftEntries_eq_map (entries : Entries) :
    liftEntries entries = entries.map fun entry => (entry.1, entry.2.lift) := by
  induction entries with
  | nil => rfl
  | cons entry rest ih => rw [liftEntries, ih, List.map_cons]

theorem liftAll_eq_map (nodes : List Node) : liftAll nodes = nodes.map lift := by
  induction nodes with
  | nil => rfl
  | cons node rest ih => rw [liftAll, ih, List.map_cons]

theorem keys_map_lift (entries : Entries) :
    Entries.keys (entries.map fun entry => (entry.1, entry.2.lift)) = Entries.keys entries := by
  simp [Entries.keys]

theorem lift_mapping {entries : Entries} (distinct : (Entries.keys entries).Nodup) :
    lift (.mapping entries) = .mapping (entries.map fun entry => (entry.1, entry.2.lift)) := by
  rw [lift, liftEntries_eq_map, Entries.ofList_of_distinct]
  rwa [keys_map_lift]

@[simp]
theorem lift_multiset (elements : Elements) :
    lift (.multiset elements) = .multiset (Elements.ofList (elements.map lift)) := by
  rw [lift, liftAll_eq_map]

@[simp]
theorem lift_sequence (items : List Node) :
    lift (.sequence items) = .multiset (Elements.ofList (items.map lift)) := by
  rw [lift, liftAll_eq_map]

theorem mem_lift_mapping {entries : Entries} {entry : Key × Node}
    (present : entry ∈ Entries.ofList (liftEntries entries)) :
    ∃ source ∈ entries, entry = (source.1, source.2.lift) := by
  have among := Entries.mem_of_mem_ofList present
  rw [liftEntries_eq_map] at among
  rcases List.mem_map.mp among with ⟨source, isSource, rfl⟩
  exact ⟨source, isSource, rfl⟩

theorem lift_sequenceFree (node : Node) : node.lift.SequenceFree := by
  induction node with
  | scalar value => exact sequenceFree_scalar
  | mapping entries ih =>
      rw [lift, sequenceFree_mapping]
      intro entry present
      rcases mem_lift_mapping present with ⟨source, isSource, rfl⟩
      exact ih source isSource
  | multiset elements ih =>
      rw [lift_multiset]
      exact sequenceFree_ofList (List.forall_mem_map.mpr ih)
  | sequence items ih =>
      rw [lift_sequence]
      exact sequenceFree_ofList (List.forall_mem_map.mpr ih)

theorem lift_proper (node : Node) : node.lift.Proper := by
  induction node with
  | scalar value => exact proper_scalar
  | mapping entries ih =>
      rw [lift, proper_mapping]
      refine ⟨Entries.keys_ofList_nodup _, ?_⟩
      intro entry present
      rcases mem_lift_mapping present with ⟨source, isSource, rfl⟩
      exact ih source isSource
  | multiset elements ih =>
      rw [lift_multiset]
      exact Elements.proper_ofList (List.forall_mem_map.mpr ih)
  | sequence items ih =>
      rw [lift_sequence]
      exact Elements.proper_ofList (List.forall_mem_map.mpr ih)

theorem lift_of_sequenceFree (proper : node.Proper) (free : node.SequenceFree) :
    node.lift = node := by
  induction node with
  | scalar value => rfl
  | mapping entries ih =>
      rw [proper_mapping] at proper
      rw [sequenceFree_mapping] at free
      have same : entries.map (fun entry => (entry.1, entry.2.lift)) = entries := by
        refine (List.map_congr_left ?_).trans (List.map_id entries)
        intro entry present
        exact Prod.ext rfl (ih entry present (proper.2 entry present) (free entry present))
      rw [lift_mapping proper.1, same]
  | multiset elements ih =>
      rw [proper_multiset] at proper
      rw [sequenceFree_multiset] at free
      have same : elements.map lift = elements := by
        refine (List.map_congr_left ?_).trans (List.map_id elements)
        intro element present
        exact ih element present (proper.2 element present) (free element present)
      rw [lift_multiset, same, Elements.ofList_of_unequal proper.1]
  | sequence items ih => exact absurd free not_sequenceFree_sequence

theorem sameTree_lift {other : Node} (same : SameTree node other) :
    SameTree node.lift other.lift := by
  induction node generalizing other with
  | scalar value =>
      rw [eq_scalar_of_equal same.2]
      exact ⟨proper_scalar, equal_refl proper_scalar⟩
  | mapping entries ih =>
      rcases exists_mapping_of_equal same.2 with ⟨others, rfl⟩
      have distinct := (proper_mapping.mp same.1).1
      have distinctOthers := (proper_mapping.mp same.symm.1).1
      rw [lift_mapping distinct, lift_mapping distinctOthers]
      apply sameTree_mapping (by rwa [keys_map_lift])
      apply same.entries.map
      rintro entry present partner ⟨sameKey, sameValue⟩
      exact ⟨sameKey, ih entry present sameValue⟩
  | multiset elements ih =>
      rcases exists_multiset_of_equal same.2 with ⟨others, rfl⟩
      rw [lift_multiset, lift_multiset]
      apply Elements.sameTree_ofList
      apply same.elements.map
      intro element present partner
      exact ih element present
  | sequence items ih =>
      rcases exists_sequence_of_equal same.2 with ⟨others, rfl⟩
      have proper := proper_sequence.mp same.1
      have matched := equal_sequence.mp same.2
      rw [lift_sequence, lift_sequence]
      apply Elements.sameTree_ofList
      apply Matching.map ⟨others, .refl _, matched⟩
      intro item present partner sameItem
      exact ih item present ⟨proper item present, sameItem⟩

/-- What lifting makes of a tree. Scalars stay, a mapping keeps its keys and their order, and the
members of a multiset or a sequence give the first of each group of equal results. -/
inductive LiftsTo : Node → Node → Prop
  | scalar (value : Scalar) : LiftsTo (.scalar value) (.scalar value)
  | mapping {entries : Entries} {values : List Node}
      (each : List.Forall₂ LiftsTo (entries.map (·.2)) values) :
      LiftsTo (.mapping entries) (.mapping ((Entries.keys entries).zip values))
  | multiset {elements : Elements} {values : List Node}
      (each : List.Forall₂ LiftsTo elements values) :
      LiftsTo (.multiset elements) (.multiset (firsts equal values))
  | sequence {items values : List Node} (each : List.Forall₂ LiftsTo items values) :
      LiftsTo (.sequence items) (.multiset (firsts equal values))

theorem liftsTo_lift (proper : node.Proper) : LiftsTo node node.lift := by
  induction node with
  | scalar value => exact .scalar value
  | mapping entries ih =>
      rw [proper_mapping] at proper
      have zipped : entries.map (fun entry => (entry.1, entry.2.lift)) =
          (Entries.keys entries).zip (entries.map fun entry => entry.2.lift) := by
        rw [Entries.keys, List.zip_map']
      rw [lift_mapping proper.1, zipped]
      apply LiftsTo.mapping
      rw [List.forall₂_map_left_iff, List.forall₂_map_right_iff, List.forall₂_same]
      intro entry present
      exact ih entry present (proper.2 entry present)
  | multiset elements ih =>
      rw [proper_multiset] at proper
      rw [lift_multiset, Elements.ofList_eq_firsts]
      apply LiftsTo.multiset
      rw [List.forall₂_map_right_iff, List.forall₂_same]
      intro element present
      exact ih element present (proper.2 element present)
  | sequence items ih =>
      rw [proper_sequence] at proper
      rw [lift_sequence, Elements.ofList_eq_firsts]
      apply LiftsTo.sequence
      rw [List.forall₂_map_right_iff, List.forall₂_same]
      intro item present
      exact ih item present (proper item present)

/-- Lifting gives a proper tree without sequences, and leaves such a tree and no other as it is. So
it has nothing to do a second time. Equal trees stay equal, and nothing but the repetitions in
multisets and sequences is lost. -/
theorem lift_removes_sequences :
    (∀ node : Node, node.lift.SequenceFree ∧ node.lift.Proper ∧ node.lift.lift = node.lift) ∧
    (∀ node : Node, node.Proper →
      (node.lift = node ↔ node.SequenceFree) ∧ LiftsTo node node.lift) ∧
    ∀ first second : Node, first.Proper → equal first second = true →
      equal first.lift second.lift = true := by
  refine ⟨?_, ?_, ?_⟩
  · intro node
    exact ⟨lift_sequenceFree node, lift_proper node,
      lift_of_sequenceFree (lift_proper node) (lift_sequenceFree node)⟩
  · intro node proper
    refine ⟨⟨?_, lift_of_sequenceFree proper⟩, liftsTo_lift proper⟩
    intro unchanged
    exact unchanged ▸ lift_sequenceFree node
  · intro first second proper same
    exact (sameTree_lift ⟨proper, same⟩).2

/-- Two arrays that differ only in a repetition, as the elements of a multiset. -/
def repeatedOnes : Node :=
  .multiset [.sequence [.scalar (.int 1), .scalar (.int 1)], .sequence [.scalar (.int 1)]]

/-- The two arrays, the shorter one first. -/
def repeatedOnesLast : Node :=
  .multiset [.sequence [.scalar (.int 1)], .sequence [.scalar (.int 1), .scalar (.int 1)]]

/-- Two arrays that differ become one multiset, in whichever order they stand. -/
theorem lift_removes_sequences_repeatedOnes :
    repeatedOnes.Proper ∧ ¬repeatedOnes.SequenceFree ∧ repeatedOnes.lift ≠ repeatedOnes ∧
      equal repeatedOnes repeatedOnesLast = true ∧
      equal repeatedOnes.lift repeatedOnesLast.lift = true ∧
      repeatedOnes.lift = .multiset [.multiset [.scalar (.int 1)]] := by
  rcases lift_removes_sequences with ⟨_, stays, congruent⟩
  have proper : repeatedOnes.Proper := by simp [repeatedOnes, equal, itemsEqual]
  have raw : ¬repeatedOnes.SequenceFree := by simp [repeatedOnes]
  have same : equal repeatedOnes repeatedOnesLast = true := by decide
  exact ⟨proper, raw, mt (stays repeatedOnes proper).1.mp raw, same,
    congruent repeatedOnes repeatedOnesLast proper same, rfl⟩

end Node

end FilterLang
