import FilterLang.Filter.Node

/-!
# Trees within trees

A tree holds other trees at every depth. This file gives the induction over a filter tree in which
the hypothesis speaks of the values of a mapping and of the members of a list, and
`Node.Everywhere`, a property that a tree has together with all trees inside it.
-/

namespace FilterLang

namespace Node

/-- Induction over a tree, from the trees directly inside it. -/
@[induction_eliminator]
theorem induction {motive : Node → Prop}
    (scalar : ∀ value, motive (.scalar value))
    (mapping : ∀ entries : Entries, (∀ entry ∈ entries, motive entry.2) →
      motive (.mapping entries))
    (multiset : ∀ elements : Elements, (∀ element ∈ elements, motive element) →
      motive (.multiset elements))
    (sequence : ∀ items : List Node, (∀ item ∈ items, motive item) → motive (.sequence items))
    (node : Node) : motive node := by
  apply @Node.rec motive (fun entries => ∀ entry ∈ entries, motive entry.2)
    (fun nodes => ∀ member ∈ nodes, motive member) (fun entry => motive entry.2)
  · exact scalar
  · exact mapping
  · exact multiset
  · exact sequence
  · simp
  · intro entry rest first others
    exact List.forall_mem_cons.mpr ⟨first, others⟩
  · simp
  · intro member rest first others
    exact List.forall_mem_cons.mpr ⟨first, others⟩
  · intro key value holds
    exact holds

theorem exists_scalar {node : Node} (simple : node.isComposite = false) :
    ∃ value, node = .scalar value := by
  cases node with
  | scalar value => exact ⟨value, rfl⟩
  | _ => simp [isComposite] at simple

theorem scalar?_eq_some {node : Node} {value : Scalar} :
    node.scalar? = some value ↔ node = .scalar value := by
  cases node <;> simp [scalar?]

theorem scalar?_of_composite {node : Node} (composite : node.isComposite = true) :
    node.scalar? = none := by
  cases node with
  | scalar value => cases composite
  | _ => rfl

/-- A tree occurs in another one, at any depth. -/
inductive Within (inner : Node) : Node → Prop
  | here : Within inner inner
  | entry {entries : Entries} {entry : Key × Node} (present : entry ∈ entries)
      (inside : Within inner entry.2) : Within inner (.mapping entries)
  | element {elements : Elements} {element : Node} (present : element ∈ elements)
      (inside : Within inner element) : Within inner (.multiset elements)
  | item {items : List Node} {item : Node} (present : item ∈ items)
      (inside : Within inner item) : Within inner (.sequence items)

/-- A property holds of a tree and of every tree inside it. -/
def Everywhere (property : Node → Prop) (node : Node) : Prop :=
  ∀ inner, Within inner node → property inner

section Everywhere

variable {property : Node → Prop}

@[simp]
theorem everywhere_scalar {value : Scalar} :
    Everywhere property (.scalar value) ↔ property (.scalar value) := by
  constructor
  · intro everywhere
    exact everywhere _ .here
  · intro holds inner inside
    cases inside
    exact holds

@[simp]
theorem everywhere_mapping {entries : Entries} :
    Everywhere property (.mapping entries) ↔
      property (.mapping entries) ∧ ∀ entry ∈ entries, Everywhere property entry.2 := by
  constructor
  · intro everywhere
    refine ⟨everywhere _ .here, ?_⟩
    intro entry present inner inside
    exact everywhere inner (.entry present inside)
  · rintro ⟨holds, below⟩ inner inside
    cases inside with
    | here => exact holds
    | entry present inside => exact below _ present inner inside

@[simp]
theorem everywhere_multiset {elements : Elements} :
    Everywhere property (.multiset elements) ↔
      property (.multiset elements) ∧ ∀ element ∈ elements, Everywhere property element := by
  constructor
  · intro everywhere
    refine ⟨everywhere _ .here, ?_⟩
    intro element present inner inside
    exact everywhere inner (.element present inside)
  · rintro ⟨holds, below⟩ inner inside
    cases inside with
    | here => exact holds
    | element present inside => exact below _ present inner inside

@[simp]
theorem everywhere_sequence {items : List Node} :
    Everywhere property (.sequence items) ↔
      property (.sequence items) ∧ ∀ item ∈ items, Everywhere property item := by
  constructor
  · intro everywhere
    refine ⟨everywhere _ .here, ?_⟩
    intro item present inner inside
    exact everywhere inner (.item present inside)
  · rintro ⟨holds, below⟩ inner inside
    cases inside with
    | here => exact holds
    | item present inside => exact below _ present inner inside

theorem Within.trans {inner middle outer : Node} (first : Within inner middle)
    (second : Within middle outer) : Within inner outer := by
  induction second with
  | here => exact first
  | entry present _ ih => exact .entry present ih
  | element present _ ih => exact .element present ih
  | item present _ ih => exact .item present ih

theorem Everywhere.inside {inner node : Node} (everywhere : node.Everywhere property)
    (inside : Within inner node) : inner.Everywhere property := by
  intro deeper within
  exact everywhere deeper (within.trans inside)

/-- Induction over a tree, from all trees inside it at any depth. -/
theorem deepInduction {motive : Node → Prop}
    (scalar : ∀ value, motive (.scalar value))
    (mapping : ∀ entries : Entries, (∀ entry ∈ entries, Everywhere motive entry.2) →
      motive (.mapping entries))
    (multiset : ∀ elements : Elements, (∀ element ∈ elements, Everywhere motive element) →
      motive (.multiset elements))
    (sequence : ∀ items : List Node, (∀ item ∈ items, Everywhere motive item) →
      motive (.sequence items))
    (node : Node) : motive node := by
  have everywhere : node.Everywhere motive := by
    induction node with
    | scalar value => exact everywhere_scalar.mpr (scalar value)
    | mapping entries ih => exact everywhere_mapping.mpr ⟨mapping entries ih, ih⟩
    | multiset elements ih => exact everywhere_multiset.mpr ⟨multiset elements ih, ih⟩
    | sequence items ih => exact everywhere_sequence.mpr ⟨sequence items ih, ih⟩
  exact everywhere node .here

end Everywhere

/-- A property of all mapping entries of a tree, at every depth. -/
def EveryEntry (property : Key × Node → Prop) (node : Node) : Prop :=
  node.Everywhere fun inner => ∀ entries, inner = .mapping entries →
    ∀ entry ∈ entries, property entry

section EveryEntry

variable {property other : Key × Node → Prop}

@[simp]
theorem everyEntry_scalar {value : Scalar} : EveryEntry property (.scalar value) := by
  simp [EveryEntry]

@[simp]
theorem everyEntry_mapping {entries : Entries} :
    EveryEntry property (.mapping entries) ↔
      ∀ entry ∈ entries, property entry ∧ EveryEntry property entry.2 := by
  simp [EveryEntry, forall_and]

@[simp]
theorem everyEntry_multiset {elements : Elements} :
    EveryEntry property (.multiset elements) ↔
      ∀ element ∈ elements, EveryEntry property element := by
  simp [EveryEntry]

@[simp]
theorem everyEntry_sequence {items : List Node} :
    EveryEntry property (.sequence items) ↔ ∀ item ∈ items, EveryEntry property item := by
  simp [EveryEntry]

theorem EveryEntry.imp {node : Node} (implies : ∀ entry, property entry → other entry)
    (holds : node.EveryEntry property) : node.EveryEntry other := by
  intro inner inside entries same entry present
  exact implies entry (holds inner inside entries same entry present)

end EveryEntry

/-- A tree holds no sequence at any depth. -/
def SequenceFree (node : Node) : Prop :=
  node.Everywhere fun inner => ∀ items, inner ≠ .sequence items

section SequenceFree

@[simp]
theorem sequenceFree_scalar {value : Scalar} : SequenceFree (.scalar value) := by
  simp [SequenceFree]

@[simp]
theorem sequenceFree_mapping {entries : Entries} :
    SequenceFree (.mapping entries) ↔ ∀ entry ∈ entries, SequenceFree entry.2 := by
  simp [SequenceFree]

@[simp]
theorem sequenceFree_multiset {elements : Elements} :
    SequenceFree (.multiset elements) ↔ ∀ element ∈ elements, SequenceFree element := by
  simp [SequenceFree]

@[simp]
theorem not_sequenceFree_sequence {items : List Node} : ¬SequenceFree (.sequence items) := by
  intro free
  exact free _ .here items rfl

theorem not_sequenceFree_iff {node : Node} :
    ¬SequenceFree node ↔ ∃ items, Within (.sequence items) node := by
  constructor
  · intro raw
    simp only [SequenceFree, Everywhere, Classical.not_forall, Classical.not_not] at raw
    rcases raw with ⟨_, inside, items, rfl⟩
    exact ⟨items, inside⟩
  · rintro ⟨items, inside⟩ free
    exact free _ inside items rfl

end SequenceFree

end Node

end FilterLang
