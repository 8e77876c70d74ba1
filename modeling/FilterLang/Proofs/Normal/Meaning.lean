import FilterLang.Proofs.Normal.Range
import FilterLang.Proofs.Normal.Clause
import Mathlib.Data.Finset.Empty
import Mathlib.Data.Finset.Dedup
import Mathlib.Order.BoundedOrder.Lattice

/-!
# The meaning of a filter

A filter says something about a record in terms of atoms: a field equals a scalar, or compares with
an operand. What the atoms mean is left open, and so is what structural mappings make of the
meanings of their parts. Meanings are taken in any lattice with top and bottom, such as the
predicates on records, so that `and` is the meet and `or` the join of clauses.

Equal trees have one meaning: a meet and a join depend on which meanings there are, and neither on
their order nor on how often they occur.
-/

namespace FilterLang

universe u

/-- What a field is compared with. The order of a set of scalars does not matter. -/
inductive Operand where
  | scalar (value : Scalar)
  | set (values : Finset Scalar)

/-- The comparison that a bound of a range stands for. -/
def Operator.asComparison : Operator → Operator
  | .start => .gte
  | .stop => .lte
  | op => op

/-- What a structural mapping holds under a key. -/
inductive Part (M : Type u) where
  | scalar (value : Scalar)
  | clause (meaning : M)

/-- What the atoms of a filter and its structural mappings mean. -/
structure Interpretation (M : Type u) where
  /-- A field equals a scalar. -/
  equals : String → Scalar → M
  /-- A field compares with an operand. -/
  compares : String → Operator → Operand → M
  /-- A structural mapping, given what it holds under each of its keys. -/
  structural : (Operator → Option (Part M)) → M

section Lattice

variable {M : Type u} [Lattice M] [BoundedOrder M]

/-- All of the meanings. -/
def meet (meanings : List M) : M := meanings.foldr (· ⊓ ·) ⊤

/-- Any of the meanings. -/
def join (meanings : List M) : M := meanings.foldr (· ⊔ ·) ⊥

theorem le_meet_iff {meanings : List M} {bound : M} :
    bound ≤ meet meanings ↔ ∀ meaning ∈ meanings, bound ≤ meaning := by
  induction meanings with
  | nil => simp [meet]
  | cons meaning rest ih =>
      rw [List.forall_mem_cons, ← ih]
      exact le_inf_iff

theorem join_le_iff {meanings : List M} {bound : M} :
    join meanings ≤ bound ↔ ∀ meaning ∈ meanings, meaning ≤ bound := by
  induction meanings with
  | nil => simp [join]
  | cons meaning rest ih =>
      rw [List.forall_mem_cons, ← ih]
      exact sup_le_iff

theorem meet_congr {meanings others : List M}
    (same : ∀ meaning, meaning ∈ meanings ↔ meaning ∈ others) : meet meanings = meet others := by
  apply eq_of_forall_le_iff
  intro bound
  simp only [le_meet_iff, same]

theorem join_congr {meanings others : List M}
    (same : ∀ meaning, meaning ∈ meanings ↔ meaning ∈ others) : join meanings = join others := by
  apply eq_of_forall_ge_iff
  intro bound
  simp only [join_le_iff, same]

@[simp]
theorem meet_singleton (meaning : M) : meet [meaning] = meaning := by
  simp [meet]

end Lattice

namespace Node

/-- A node as the operand of a comparison. -/
def operand : Node → Operand
  | .scalar value => .scalar value
  | .multiset elements => .set (elements.filterMap scalar?).toFinset
  | _ => .set ∅

theorem mem_filterMap_scalar? {value : Scalar} {nodes : List Node} :
    value ∈ nodes.filterMap scalar? ↔ .scalar value ∈ nodes := by
  simp only [List.mem_filterMap, scalar?_eq_some, exists_eq_right]

/-- The bounds that an entry holds under `between`. -/
def writtenRange? (entry : Key × Node) : Option (Node × Node) :=
  if entry.1 = .operator .between then entry.2.entries?.bind Entries.bounds? else none

end Node

/-- Whether a mapping is structural. -/
def Entries.isStructural (entries : Entries) : Bool :=
  entries.keys.any fun key => key.category? == some .structural

theorem Entries.isStructural_eq_false {entries : Entries}
    (other : ∀ key ∈ entries.keys, key.category? ≠ some .structural) :
    entries.isStructural = false := by
  rw [isStructural, List.any_eq_false]
  intro key present
  simpa using other key present

theorem Entries.isStructural_eq_true {entries : Entries} (nonempty : entries ≠ [])
    (structural : ∀ key ∈ entries.keys, key.category? = some .structural) :
    entries.isStructural = true := by
  rcases List.exists_mem_of_ne_nil _ nonempty with ⟨entry, present⟩
  rw [isStructural, List.any_eq_true]
  refine ⟨entry.1, List.mem_map_of_mem present, ?_⟩
  simp [structural entry.1 (List.mem_map_of_mem present)]

namespace Interpretation

variable {M : Type u} [Lattice M] [BoundedOrder M] (interpretation : Interpretation M)

/-- What an entry of an operator body says about the field above it. Of two bounds beside each
other, one is the least and one the greatest value, and a range under `between` says both. -/
def comparison (field : String) (bounded : Bool) (entry : Key × Node) : M :=
  match entry.1, Node.writtenRange? entry with
  | .operator _, some (start, stop) =>
    interpretation.compares field .gte start.operand
      ⊓ interpretation.compares field .lte stop.operand
  | .operator op, none =>
    interpretation.compares field (if bounded then op.asComparison else op) entry.2.operand
  | .field _, _ => ⊤

/-- What the value of a field says about it. -/
def constraint (field : String) : Node → M
  | .scalar value => interpretation.equals field value
  | .mapping entries =>
    meet (entries.map (interpretation.comparison field (Entries.bounds? entries).isSome))
  | _ => ⊤

mutual

/-- What a clause means. -/
def meaning : Node → M
  | .mapping entries =>
    if Entries.isStructural entries then interpretation.structural (parts entries)
    else meet (conjuncts entries)
  | _ => ⊤
termination_by structural node => node

/-- What the elements of a multiset mean. -/
def members : Node → List M
  | .multiset elements => meanings elements
  | _ => []
termination_by structural node => node

/-- What a structural mapping holds under a key. -/
def parts : Entries → Operator → Option (Part M)
  | [], _ => none
  | (key, value) :: rest, op =>
    if key = .operator op then
      match value.scalar? with
      | some scalar => some (.scalar scalar)
      | none => some (.clause (meaning value))
    else parts rest op
termination_by structural entries => entries

/-- What each entry of a mapping that is not structural means. -/
def conjuncts : Entries → List M
  | [] => []
  | (key, value) :: rest =>
    (match key with
      | .field name => interpretation.constraint name value
      | .operator .or => join (members value)
      | .operator _ => meet (members value))
      :: conjuncts rest
termination_by structural entries => entries

/-- What each clause of a list means. -/
def meanings : Elements → List M
  | [] => []
  | element :: rest => meaning element :: meanings rest
termination_by structural elements => elements

end

/-- What a structural mapping holds in an entry with the given value. -/
def part (value : Node) : Part M :=
  match value.scalar? with
  | some scalar => .scalar scalar
  | none => .clause (interpretation.meaning value)

/-- What an entry of a mapping that is not structural means. -/
def conjunct (entry : Key × Node) : M :=
  match entry.1 with
  | .field name => interpretation.constraint name entry.2
  | .operator .or => join (interpretation.members entry.2)
  | .operator _ => meet (interpretation.members entry.2)

theorem meanings_eq_map (elements : Elements) :
    interpretation.meanings elements = elements.map interpretation.meaning := by
  induction elements with
  | nil => rfl
  | cons element rest ih => rw [meanings, ih, List.map_cons]

theorem members_multiset (elements : Elements) :
    interpretation.members (.multiset elements) = elements.map interpretation.meaning := by
  rw [members, meanings_eq_map]

theorem parts_eq_map (entries : Entries) (op : Operator) :
    interpretation.parts entries op =
      (Entries.get? (.operator op) entries).map interpretation.part := by
  induction entries with
  | nil => rfl
  | cons entry rest ih =>
      rcases entry with ⟨key, value⟩
      by_cases same : key = .operator op
      · simp only [parts, Entries.get?, same, if_true, Option.map_some, part]
        cases value.scalar? <;> rfl
      · simp only [parts, Entries.get?, same, if_false, ih]

theorem conjuncts_eq_map (entries : Entries) :
    interpretation.conjuncts entries = entries.map interpretation.conjunct := by
  induction entries with
  | nil => rfl
  | cons entry rest ih =>
      have first : interpretation.conjuncts (entry :: rest) =
          interpretation.conjunct entry :: interpretation.conjuncts rest := rfl
      rw [first, ih, List.map_cons]

theorem meaning_structural {entries : Entries} (structural : Entries.isStructural entries = true) :
    interpretation.meaning (.mapping entries) =
      interpretation.structural fun op =>
        (Entries.get? (.operator op) entries).map interpretation.part := by
  rw [meaning, structural, if_pos rfl]
  congr 1
  funext op
  exact interpretation.parts_eq_map entries op

theorem meaning_conjuncts {entries : Entries} (other : Entries.isStructural entries = false) :
    interpretation.meaning (.mapping entries) =
      meet (entries.map interpretation.conjunct) := by
  rw [meaning, other, ← conjuncts_eq_map]
  rfl

theorem comparison_of_ne_between (field : String) (bounded : Bool) {op : Operator}
    (other : op ≠ .between) (value : Node) :
    interpretation.comparison field bounded (.operator op, value) =
      interpretation.compares field (if bounded then op.asComparison else op) value.operand := by
  have noRange : Node.writtenRange? (.operator op, value) = none := by
    simp [Node.writtenRange?, other]
  simp only [comparison, noRange]

/-- Two bounds beside each other say that a value lies between them. -/
theorem constraint_of_bounds (field : String) {entries : Entries} {start stop : Node}
    (distinct : (Entries.keys entries).Nodup)
    (bounded : Entries.bounds? entries = some (start, stop))
    (alone : ∀ key ∈ Entries.keys entries, key = .operator .start ∨ key = .operator .stop) :
    interpretation.constraint field (.mapping entries) =
      interpretation.compares field .gte start.operand
        ⊓ interpretation.compares field .lte stop.operand := by
  have lower := interpretation.comparison_of_ne_between field true
    (show Operator.start ≠ .between by decide) start
  have upper := interpretation.comparison_of_ne_between field true
    (show Operator.stop ≠ .between by decide) stop
  have both : interpretation.constraint field (.mapping entries) =
      meet (entries.map (interpretation.comparison field true)) := by
    simp only [constraint, bounded, Option.isSome_some]
  have pair : interpretation.compares field .gte start.operand
      ⊓ interpretation.compares field .lte stop.operand =
      meet [interpretation.comparison field true (.operator .start, start),
        interpretation.comparison field true (.operator .stop, stop)] := by
    rw [lower, upper]
    simp [meet, Operator.asComparison]
  rcases Entries.bounds?_eq_some.mp bounded with ⟨foundStart, foundStop⟩
  rw [both, pair]
  apply meet_congr
  intro meaning
  simp only [List.mem_map, List.mem_cons, List.not_mem_nil, or_false]
  constructor
  · rintro ⟨entry, present, rfl⟩
    rcases Entries.eq_bound_of_alone distinct bounded alone present with rfl | rfl
    · exact .inl rfl
    · exact .inr rfl
  · rintro (rfl | rfl)
    · exact ⟨_, Entries.mem_of_get? foundStart, rfl⟩
    · exact ⟨_, Entries.mem_of_get? foundStop, rfl⟩

section Equality

open Node (SameTree)

theorem operand_of_equal {node other : Node} (same : SameTree node other) :
    node.operand = other.operand := by
  cases node with
  | scalar value =>
      have identical := Node.eq_scalar_of_equal same.2
      subst identical
      rfl
  | mapping entries =>
      rcases Node.exists_mapping_of_equal same.2 with ⟨others, rfl⟩
      rfl
  | multiset elements =>
      rcases Node.exists_multiset_of_equal same.2 with ⟨others, rfl⟩
      have kept : ∀ {first second : Elements},
          Node.equal (.multiset first) (.multiset second) = true →
          ∀ value, .scalar value ∈ first → .scalar value ∈ second := by
        intro first second equal value present
        rcases (Node.equal_multiset.mp equal).2 _ present with ⟨partner, among, equalPartner⟩
        rw [Node.eq_scalar_of_equal equalPartner] at among
        exact among
      have sameScalars : ∀ value, .scalar value ∈ elements ↔ .scalar value ∈ others := by
        intro value
        exact ⟨kept same.2 value, kept (Node.equal_symm same.1 same.2) value⟩
      have sameSet : (elements.filterMap Node.scalar?).toFinset =
          (others.filterMap Node.scalar?).toFinset := by
        ext value
        simp only [List.mem_toFinset, Node.mem_filterMap_scalar?, sameScalars]
      simp only [Node.operand, sameSet]
  | sequence items =>
      rcases Node.exists_sequence_of_equal same.2 with ⟨others, rfl⟩
      rfl

theorem comparison_of_equal (field : String) (bounded : Bool) {entry other : Key × Node}
    (sameKey : other.1 = entry.1) (same : SameTree entry.2 other.2) :
    interpretation.comparison field bounded entry =
      interpretation.comparison field bounded other := by
  have sameRange : Option.Rel Node.SameBounds (Node.writtenRange? entry)
      (Node.writtenRange? other) := by
    simp only [Node.writtenRange?, sameKey]
    split
    · exact Node.entries?_bounds?_of_equal same
    · exact .none
  simp only [comparison, sameKey, operand_of_equal same]
  generalize Node.writtenRange? entry = first, Node.writtenRange? other = second at sameRange
  cases sameRange with
  | none => rfl
  | @some bounds others sameBounds =>
      rcases bounds with ⟨start, stop⟩
      rcases others with ⟨otherStart, otherStop⟩
      rcases sameBounds with ⟨sameStart, sameStop⟩
      cases entry.1 with
      | operator op => simp only [operand_of_equal sameStart, operand_of_equal sameStop]
      | field name => rfl

theorem constraint_of_equal (field : String) {node other : Node} (same : SameTree node other) :
    interpretation.constraint field node = interpretation.constraint field other := by
  cases node with
  | scalar value =>
      have identical := Node.eq_scalar_of_equal same.2
      subst identical
      rfl
  | mapping entries =>
      rcases Node.exists_mapping_of_equal same.2 with ⟨others, rfl⟩
      have sameBounds := Node.bounds?_of_equal same
      have bounded : (Entries.bounds? entries).isSome = (Entries.bounds? others).isSome := by
        generalize Entries.bounds? entries = first, Entries.bounds? others = second at sameBounds
        cases sameBounds <;> rfl
      rcases same with ⟨proper, equal⟩
      rw [Node.proper_mapping] at proper
      rcases Node.exists_entries_matching proper.1 equal with ⟨partners, perm, matched⟩
      have identical :
          entries.map (interpretation.comparison field (Entries.bounds? entries).isSome) =
          partners.map (interpretation.comparison field (Entries.bounds? others).isSome) := by
        rw [bounded]
        apply map_eq_map_of_forall₂ matched
        intro entry present partner corresponds
        exact interpretation.comparison_of_equal field _ corresponds.1
          ⟨proper.2 entry present, corresponds.2⟩
      simp only [constraint, identical]
      apply meet_congr
      intro meaning
      exact (perm.map _).mem_iff
  | multiset elements =>
      rcases Node.exists_multiset_of_equal same.2 with ⟨others, rfl⟩
      rfl
  | sequence items =>
      rcases Node.exists_sequence_of_equal same.2 with ⟨others, rfl⟩
      rfl

theorem conjunct_congr {entry other : Key × Node} (sameKey : other.1 = entry.1)
    (sameConstraint : ∀ field, interpretation.constraint field entry.2 =
      interpretation.constraint field other.2)
    (sameMembers : ∀ meaning, meaning ∈ interpretation.members entry.2 ↔
      meaning ∈ interpretation.members other.2) :
    interpretation.conjunct entry = interpretation.conjunct other := by
  rcases entry with ⟨key, value⟩
  rcases other with ⟨otherKey, otherValue⟩
  subst sameKey
  rcases otherKey with op | name
  · cases op with
    | or => exact join_congr sameMembers
    | _ => exact meet_congr sameMembers
  · exact sameConstraint name

theorem part_congr {node other : Node} (same : SameTree node other)
    (sameMeaning : interpretation.meaning node = interpretation.meaning other) :
    interpretation.part node = interpretation.part other := by
  rw [part, part, Node.scalar?_of_equal same.2, sameMeaning]

/-- Equal structural mappings hold parts with one meaning under each key. -/
theorem parts_of_equal {entries others : Entries}
    (same : SameTree (.mapping entries) (.mapping others))
    (meanings : ∀ entry ∈ entries, ∀ other, SameTree entry.2 other →
      interpretation.meaning entry.2 = interpretation.meaning other) (op : Operator) :
    (Entries.get? (.operator op) entries).map interpretation.part =
      (Entries.get? (.operator op) others).map interpretation.part := by
  have values := Node.get?_of_equal same (.operator op)
  cases found : Entries.get? (.operator op) entries with
  | none =>
      rw [found] at values
      rw [eq_none_of_rel values]
  | some value =>
      rw [found] at values
      rcases exists_of_rel values with ⟨other, foundOther, sameValue⟩
      have sameMeaning := meanings _ (Entries.mem_of_get? found) other sameValue
      rw [foundOther]
      exact congrArg some (interpretation.part_congr sameValue sameMeaning)

/-- Equal mappings hold entries with the same meanings. -/
theorem conjuncts_of_equal {entries others : Entries}
    (same : SameTree (.mapping entries) (.mapping others))
    (members : ∀ entry ∈ entries, ∀ other, SameTree entry.2 other →
      ∀ meaning, meaning ∈ interpretation.members entry.2 ↔
        meaning ∈ interpretation.members other) (meaning : M) :
    meaning ∈ entries.map interpretation.conjunct ↔
      meaning ∈ others.map interpretation.conjunct := by
  have proper := Node.proper_mapping.mp same.1
  rcases Node.exists_entries_matching proper.1 same.2 with ⟨partners, perm, matched⟩
  have identical : entries.map interpretation.conjunct =
      partners.map interpretation.conjunct := by
    apply map_eq_map_of_forall₂ matched
    intro entry present partner corresponds
    have sameValue : SameTree entry.2 partner.2 := ⟨proper.2 entry present, corresponds.2⟩
    apply interpretation.conjunct_congr corresponds.1
    · intro name
      exact interpretation.constraint_of_equal name sameValue
    · exact members entry present partner.2 sameValue
  rw [identical]
  exact (perm.map _).mem_iff

theorem isStructural_of_equal {entries others : Entries}
    (same : SameTree (.mapping entries) (.mapping others)) :
    Entries.isStructural others = Entries.isStructural entries := by
  have proper := Node.proper_mapping.mp same.1
  rcases Node.exists_entries_matching proper.1 same.2 with ⟨partners, perm, matched⟩
  have sameKeys := Entries.keys_eq_of_forall₂ matched
  have reordered : (Entries.keys partners).Perm (Entries.keys others) := perm.map _
  rw [Bool.eq_iff_iff, Entries.isStructural, Entries.isStructural, ← sameKeys]
  simp only [List.any_eq_true, reordered.mem_iff]

/-- Equal trees have one meaning, and so have their elements. -/
theorem meaning_of_equal {node other : Node} (same : SameTree node other) :
    interpretation.meaning node = interpretation.meaning other ∧
      ∀ meaning, meaning ∈ interpretation.members node ↔
        meaning ∈ interpretation.members other := by
  induction node generalizing other with
  | scalar value =>
      have identical := Node.eq_scalar_of_equal same.2
      subst identical
      exact ⟨rfl, fun meaning => Iff.rfl⟩
  | mapping entries ih =>
      rcases Node.exists_mapping_of_equal same.2 with ⟨others, rfl⟩
      refine ⟨?_, fun meaning => Iff.rfl⟩
      have sameShape := isStructural_of_equal same
      cases shape : Entries.isStructural entries with
      | true =>
          rw [meaning_structural interpretation shape,
            meaning_structural interpretation (sameShape.trans shape)]
          congr 1
          funext op
          apply interpretation.parts_of_equal same
          intro entry present other sameValue
          exact (ih entry present sameValue).1
      | false =>
          rw [meaning_conjuncts interpretation shape,
            meaning_conjuncts interpretation (sameShape.trans shape)]
          apply meet_congr
          apply interpretation.conjuncts_of_equal same
          intro entry present other sameValue
          exact (ih entry present sameValue).2
  | multiset elements ih =>
      rcases Node.exists_multiset_of_equal same.2 with ⟨others, rfl⟩
      refine ⟨rfl, ?_⟩
      intro meaning
      rcases Node.exists_elements_matching same.1 same.2 with ⟨partners, perm, matched⟩
      have proper := Node.proper_multiset.mp same.1
      have identical : elements.map interpretation.meaning =
          partners.map interpretation.meaning := by
        apply map_eq_map_of_forall₂ matched
        intro element present partner equal
        exact (ih element present ⟨proper.2 element present, equal⟩).1
      rw [members_multiset, members_multiset, identical]
      exact (perm.map _).mem_iff
  | sequence items =>
      rcases Node.exists_sequence_of_equal same.2 with ⟨others, rfl⟩
      exact ⟨rfl, fun meaning => Iff.rfl⟩

end Equality

/-- Dropping values for equal ones loses no meaning. -/
theorem mem_meanings_ofList {values : List Node} (proper : ∀ value ∈ values, value.Proper)
    (meaning : M) :
    meaning ∈ (Elements.ofList values).map interpretation.meaning ↔
      meaning ∈ values.map interpretation.meaning := by
  simp only [List.mem_map]
  constructor
  · rintro ⟨value, present, rfl⟩
    exact ⟨value, Elements.mem_of_mem_ofList present, rfl⟩
  · rintro ⟨value, present, rfl⟩
    rcases Elements.exists_kept present with ⟨kept, among, rfl | equal⟩
    · exact ⟨kept, among, rfl⟩
    · have same := (interpretation.meaning_of_equal ⟨proper value present, equal⟩).1
      exact ⟨kept, among, same.symm⟩

/-- A conjunction of clauses means all of them. -/
theorem meaning_conjunction {clauses : List Node} (proper : ∀ clause ∈ clauses, clause.Proper) :
    interpretation.meaning (Node.conjunction clauses) =
      meet (clauses.map interpretation.meaning) := by
  have explicit : interpretation.meaning (Node.and clauses) =
      meet (clauses.map interpretation.meaning) := by
    have conjuncts : interpretation.meaning (Node.and clauses) =
        meet [meet (interpretation.members (.multiset (Elements.ofList clauses)))] :=
      interpretation.meaning_conjuncts rfl
    rw [conjuncts, meet_singleton, members_multiset]
    exact meet_congr (interpretation.mem_meanings_ofList proper)
  rcases clauses with _ | ⟨clause, _ | ⟨second, rest⟩⟩
  · exact explicit
  · simp [Node.conjunction]
  · exact explicit

end Interpretation

end FilterLang
