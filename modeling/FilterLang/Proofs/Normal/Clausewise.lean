import FilterLang.Proofs.Normal.Congruence

/-!
# Normalization clause by clause

The passes run over a whole filter, one after the other, and equal clauses of a conjunction or a
disjunction collapse before the first pass and after each of them. The result is the same as if each
clause were brought into its normal form by itself, and equal ones collapsed once at the end: equal
clauses have equal results (`Node.Respected`), so that it does not matter when they meet, and a
clause that is dropped early would not have failed.
-/

namespace FilterLang

section Forall₂

variable {α β γ : Type} {first : α → β → Prop} {second : β → γ → Prop}

/-- Two stages, member by member, are the one stage after the other. -/
theorem forall₂_exists {list : List α} {results : List γ} :
    List.Forall₂ (fun member result => ∃ middle, first member middle ∧ second middle result) list
        results ↔
      ∃ middles, List.Forall₂ first list middles ∧ List.Forall₂ second middles results := by
  constructor
  · intro related
    induction related with
    | nil => exact ⟨[], .nil, .nil⟩
    | cons stages _ ih =>
        rcases stages with ⟨middle, toMiddle, fromMiddle⟩
        rcases ih with ⟨middles, toMiddles, fromMiddles⟩
        exact ⟨middle :: middles, .cons toMiddle toMiddles, .cons fromMiddle fromMiddles⟩
  · rintro ⟨middles, toMiddles, fromMiddles⟩
    induction toMiddles generalizing results with
    | nil =>
        cases fromMiddles
        exact .nil
    | cons toMiddle _ ih =>
        cases fromMiddles with
        | cons fromMiddle others => exact .cons ⟨_, toMiddle, fromMiddle⟩ (ih others)

end Forall₂

namespace Elements

variable {f : Node → Except Fault Node} {values : List Node} {value : Node}

theorem traverse_concat :
    traverse f (values ++ [value]) =
      traverse f values >>= fun results => (f value).map fun result => insert result results := by
  simp only [traverse, List.mapM_append, List.mapM_cons, List.mapM_nil]
  cases values.mapM f with
  | error fault => rfl
  | ok results =>
      cases f value with
      | error fault => rfl
      | ok result => exact congrArg Except.ok ofList_concat

/-- A value that equals a kept one adds nothing to the results. -/
theorem traverse_concat_of_contains {results : Elements}
    (respected : ∀ value ∈ values, Node.Respected f value)
    (dropped : contains value (ofList values) = true) (valueProper : value.Proper)
    (traversed : traverse f (ofList values) = .ok results) :
    (f value).map (fun result => insert result results) = .ok results := by
  rcases contains_iff.mp dropped with ⟨kept, among, same⟩
  have present := mem_of_mem_ofList among
  rcases traverse_eq_ok.mp traversed with ⟨all, related, rfl⟩
  rcases exists_result related among with ⟨keptResult, keptAmong, keptSucceeds⟩
  rcases respected kept present value keptResult
    (Node.SameTree.symm ⟨valueProper, same⟩) keptSucceeds with ⟨result, succeeds, sameResult⟩
  have collapses : contains result (ofList all) = true := by
    rw [contains_iff]
    rcases exists_kept keptAmong with ⟨last, lastAmong, rfl | sameLast⟩
    · exact ⟨last, lastAmong, sameResult.symm.2⟩
    · exact ⟨last, lastAmong, Node.equal_trans sameResult.symm.2 sameLast⟩
  rw [succeeds]
  simp [Except.map, insert, collapses]

/-- Equal values may collapse before a function is applied to each of them, if they have equal
results. -/
theorem traverse_ofList (proper : ∀ value ∈ values, value.Proper)
    (respected : ∀ value ∈ values, Node.Respected f value) :
    traverse f (ofList values) = traverse f values := by
  induction values using List.reverseRecOn with
  | nil => rfl
  | append_singleton values value ih =>
      have earlier : ∀ other ∈ values, other ∈ values ++ [value] := by simp_all
      have properEarlier := fun other present => proper other (earlier other present)
      have respectedEarlier := fun other present => respected other (earlier other present)
      have kept := ih properEarlier respectedEarlier
      rw [ofList_concat, traverse_concat, ← kept, insert]
      split
      · next dropped =>
        cases traversed : traverse f (ofList values) with
        | error fault => rfl
        | ok results =>
            exact (traverse_concat_of_contains respectedEarlier dropped
              (proper value (by simp)) traversed).symm
      · rw [traverse_concat]

end Elements

namespace Node

/-- Clauses under a logical operator. -/
def joined (op : Operator) (clauses : List Node) : Node :=
  entry (.operator op) (.multiset (Elements.ofList clauses))

variable {op : Operator} {clauses : List Node} {result : Node}

theorem expandConjunction_entry_of_logical (logical : op.category = .logical) (value : Node) :
    expandConjunction none (entry (.operator op) value) =
      (expandConjunction none value).map (entry (.operator op)) := by
  have read : Reading.ofKeys none [.operator op] = .ok .whole := by
    rw [Reading.ofKeys_eq_ok]
    refine @Reading.Reads.uniform _ .logical _ (by simp) (by simp) (by simp [logical])
  rw [entry, expandConjunction_whole read, Entries.traverse]
  cases expanded : expandConjunction none value <;> simp [expanded] <;> rfl

/-- A pass goes through to the elements under a logical operator. -/
theorem apply_entry_of_logical (pass : Pass) (logical : op.category = .logical)
    (elements : Elements) :
    pass.apply (entry (.operator op) (.multiset elements)) =
      (Elements.traverse pass.apply elements).map fun results =>
        entry (.operator op) (.multiset results) := by
  cases pass with
  | impliedRange =>
      change expandRange _ = (Elements.traverse expandRange elements).map _
      rw [expandRange_entry, expandRange_multiset, map_map]
  | rangeComparison =>
      change compareRange _ = (Elements.traverse compareRange elements).map _
      rw [compareRange_entry, compareValue_of_none rfl, compareRange_multiset, map_map]
  | impliedConjunction =>
      change expandConjunction none _ = (Elements.traverse (expandConjunction none) elements).map _
      rw [expandConjunction_entry_of_logical logical, expandConjunction_multiset, map_map]

theorem apply_joined (pass : Pass) (logical : op.category = .logical)
    (proper : ∀ clause ∈ clauses, clause.Proper) :
    pass.apply (joined op clauses) = .ok result ↔
      ∃ forms, List.Forall₂ (fun clause form => pass.apply clause = .ok form) clauses forms ∧
        result = joined op forms := by
  rw [joined, apply_entry_of_logical pass logical,
    Elements.traverse_ofList proper fun clause _ => apply_respected pass clause, map_eq_ok]
  simp only [Elements.traverse_eq_ok]
  constructor
  · rintro ⟨_, ⟨forms, related, rfl⟩, rfl⟩
    exact ⟨forms, related, rfl⟩
  · rintro ⟨forms, related, rfl⟩
    exact ⟨_, ⟨forms, related, rfl⟩, rfl⟩

theorem proper_of_applied {pass : Pass} {forms : List Node}
    (proper : ∀ clause ∈ clauses, clause.Proper)
    (related : List.Forall₂ (fun clause form => pass.apply clause = .ok form) clauses forms) :
    ∀ form ∈ forms, form.Proper := by
  intro form present
  rcases exists_source related present with ⟨clause, among, applied⟩
  exact apply_proper pass (proper clause among) applied

/-- Passes that run over all clauses together do what they do to each clause alone. -/
theorem applyAll_joined (passes : List Pass) (logical : op.category = .logical)
    (proper : ∀ clause ∈ clauses, clause.Proper) :
    applyAll passes (joined op clauses) = .ok result ↔
      ∃ forms, List.Forall₂ (fun clause form => applyAll passes clause = .ok form) clauses forms ∧
        result = joined op forms := by
  induction passes generalizing clauses with
  | nil => simp [applyAll, pure, Except.pure, eq_comm]
  | cons pass rest ih =>
      have stages : ∀ node result, applyAll (pass :: rest) node = .ok result ↔
          ∃ middle, pass.apply node = .ok middle ∧ applyAll rest middle = .ok result := by
        intro node result
        rw [applyAll, List.foldlM_cons, bind_eq_ok]
        rfl
      simp only [stages, forall₂_exists, apply_joined pass logical proper]
      constructor
      · rintro ⟨_, ⟨middles, first, rfl⟩, others⟩
        have properMiddles := proper_of_applied proper first
        rcases (ih properMiddles).mp others with ⟨forms, related, rfl⟩
        exact ⟨forms, ⟨middles, first, related⟩, rfl⟩
      · rintro ⟨forms, ⟨middles, first, others⟩, rfl⟩
        have properMiddles := proper_of_applied proper first
        exact ⟨_, ⟨middles, first, rfl⟩, (ih properMiddles).mpr ⟨forms, others, rfl⟩⟩

theorem exists_normalize_joined (logical : op.category = .logical)
    (proper : ∀ clause ∈ clauses, clause.Proper) :
    (∃ form, normalize (joined op clauses) = .ok form) ↔
      ∀ clause ∈ clauses, ∃ form, normalize clause = .ok form := by
  rw [← exists_forall₂_iff]
  constructor
  · rintro ⟨form, normalized⟩
    rcases (applyAll_joined _ logical proper).mp normalized with ⟨forms, related, _⟩
    exact ⟨forms, related⟩
  · rintro ⟨forms, related⟩
    exact ⟨_, (applyAll_joined _ logical proper).mpr ⟨forms, related, rfl⟩⟩

/-- A conjunction has a normal form exactly if each of its clauses has one, and then it is the
conjunction of their normal forms, in the same order and with later duplicates dropped. The same
holds for a disjunction. -/
theorem normalize_clausewise (clauses : List Node) (proper : ∀ clause ∈ clauses, clause.Proper) :
    ((∃ form, normalize (Node.and clauses) = .ok form) ↔
      ∀ clause ∈ clauses, ∃ form, normalize clause = .ok form) ∧
    ((∃ form, normalize (Node.or clauses) = .ok form) ↔
      ∀ clause ∈ clauses, ∃ form, normalize clause = .ok form) ∧
    ∀ forms, List.Forall₂ (fun clause form => normalize clause = .ok form) clauses forms →
      normalize (Node.and clauses) = .ok (Node.and forms) ∧
        normalize (Node.or clauses) = .ok (Node.or forms) := by
  refine ⟨@exists_normalize_joined .and clauses rfl proper,
    @exists_normalize_joined .or clauses rfl proper, ?_⟩
  intro forms related
  have together : ∀ op : Operator, op.category = .logical →
      normalize (joined op clauses) = .ok (joined op forms) := by
    intro op logical
    exact (applyAll_joined _ logical proper).mpr ⟨forms, related, rfl⟩
  exact ⟨together .and rfl, together .or rfl⟩

/-- One range in three spellings: two that are equal as they stand, in different orders, and one
whose normal form alone is equal to theirs. -/
def threeSpellings : List Node :=
  [entry (.field "year") (.mapping
      [(.operator .start, .scalar (.int 2001)), (.operator .stop, .scalar (.int 2005))]),
    entry (.field "year") (.mapping
      [(.operator .stop, .scalar (.int 2005)), (.operator .start, .scalar (.int 2001))]),
    entry (.field "year") (.mapping
      [(.operator .gte, .scalar (.int 2001)), (.operator .lte, .scalar (.int 2005))])]

/-- The normal form of the range. -/
def yearsFromTo : Node :=
  .and [entry (.field "year") (entry (.operator .gte) (.scalar (.int 2001))),
    entry (.field "year") (entry (.operator .lte) (.scalar (.int 2005)))]

/-- The three spellings are one clause in the end. -/
theorem normalize_clausewise_threeSpellings :
    (∀ clause ∈ threeSpellings, clause.Proper) ∧
      List.Forall₂ (fun clause form => normalize clause = .ok form) threeSpellings
        [yearsFromTo, yearsFromTo, yearsFromTo] ∧
      normalize (Node.and threeSpellings) = .ok (Node.and [yearsFromTo]) ∧
      normalize (Node.or threeSpellings) = .ok (Node.or [yearsFromTo]) := by
  have proper : ∀ clause ∈ threeSpellings, clause.Proper := by
    simp [threeSpellings, Entries.keys]
  have related : List.Forall₂ (fun clause form => normalize clause = .ok form) threeSpellings
      [yearsFromTo, yearsFromTo, yearsFromTo] :=
    .cons rfl (.cons rfl (.cons rfl .nil))
  have together := (normalize_clausewise threeSpellings proper).2.2
    [yearsFromTo, yearsFromTo, yearsFromTo] related
  exact ⟨proper, related, together⟩

end Node

end FilterLang
