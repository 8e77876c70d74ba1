import FilterLang.Proofs.Normal.Canonical
import FilterLang.Proofs.Normal.Grammar

/-!
# Sequences and the passes

A sequence is an array whose duplicates were not dropped, and no pass goes into one. The passes over
ranges drop what stands beside two bounds without looking at it, but they visit all that they keep,
and the pass over conjunctions visits everything. So no result holds a sequence, and only the first
of the selected passes can meet one.
-/

namespace FilterLang

namespace Node

variable {node result : Node} {fault : Fault} {pass blamed : Pass} {passes : List Pass}

section Results

theorem expandRange_sequenceFree (expanded : expandRange node = .ok result) :
    result.SequenceFree := by
  induction node generalizing result with
  | scalar value =>
      cases expanded
      exact sequenceFree_scalar
  | mapping entries ih =>
      cases expandRange_mapping_eq_ok.mp expanded with
      | range bounded expandedStart expandedStop =>
          rcases Entries.bounds?_eq_some.mp bounded with ⟨start, stop⟩
          have lower := ih _ (Entries.mem_of_get? start) expandedStart
          have upper := ih _ (Entries.mem_of_get? stop) expandedStop
          simp [entry, lower, upper]
      | values _ values =>
          rw [sequenceFree_mapping]
          intro entry present
          rcases exists_source values present with ⟨source, among, _, expandedValue⟩
          exact ih source among expandedValue
  | multiset elements ih =>
      rcases expandRange_multiset_eq_ok.mp expanded with ⟨values, related, rfl⟩
      apply sequenceFree_ofList
      intro value present
      rcases exists_source related present with ⟨source, among, expandedElement⟩
      exact ih source among expandedElement
  | sequence items => simp at expanded

theorem compareRange_sequenceFree (compared : compareRange node = .ok result) :
    result.SequenceFree := by
  induction node using deepInduction generalizing result with
  | scalar value =>
      cases compared
      exact sequenceFree_scalar
  | mapping entries ih =>
      rcases compareRange_mapping_eq_ok.mp compared with ⟨results, values, rfl⟩
      rw [sequenceFree_mapping]
      intro entry present
      rcases exists_source values present with ⟨source, among, _, comparedValue⟩
      rcases entry with ⟨key, value⟩
      cases compareValue_eq_ok.mp comparedValue with
      | range range comparedStart comparedStop =>
          rcases within_of_range range with ⟨start, stop⟩
          have lower := ih source among _ start comparedStart
          have upper := ih source among _ stop comparedStop
          simp [lower, upper]
      | plain _ plainCompared => exact ih source among _ .here plainCompared
  | multiset elements ih =>
      rcases compareRange_multiset_eq_ok.mp compared with ⟨values, related, rfl⟩
      apply sequenceFree_ofList
      intro value present
      rcases exists_source related present with ⟨source, among, comparedElement⟩
      exact ih source among _ .here comparedElement
  | sequence items => simp at compared

theorem apply_sequenceFree (applied : pass.apply node = .ok result) : result.SequenceFree := by
  cases pass with
  | impliedRange => exact expandRange_sequenceFree applied
  | rangeComparison => exact compareRange_sequenceFree applied
  | impliedConjunction => exact (expandConjunction_canonical (by simp) applied).sequenceFree

end Results

section Faults

theorem expandRange_eq_error (fails : expandRange node = .error fault) :
    fault = .rawSequence .impliedRange ∧ ∃ items, Within (.sequence items) node := by
  induction node with
  | scalar value => cases fails
  | mapping entries ih =>
      rcases exists_expandRange_eq_error fails with ⟨entry, present, valueFails⟩
      rcases ih entry present valueFails with ⟨same, items, inside⟩
      exact ⟨same, items, .entry present inside⟩
  | multiset elements ih =>
      rw [expandRange_multiset, map_eq_error] at fails
      rcases Elements.exists_of_traverse_eq_error fails with ⟨element, present, elementFails⟩
      rcases ih element present elementFails with ⟨same, items, inside⟩
      exact ⟨same, items, .element present inside⟩
  | sequence items =>
      cases fails
      exact ⟨rfl, items, .here⟩

theorem compareRange_eq_error (fails : compareRange node = .error fault) :
    fault = .rawSequence .rangeComparison ∧ ∃ items, Within (.sequence items) node := by
  induction node using deepInduction with
  | scalar value => cases fails
  | mapping entries ih =>
      rcases exists_compareRange_eq_error fails with ⟨entry, present, inner, within, innerFails⟩
      rcases ih entry present inner within innerFails with ⟨same, items, inside⟩
      exact ⟨same, items, .entry present (inside.trans within)⟩
  | multiset elements ih =>
      rw [compareRange_multiset, map_eq_error] at fails
      rcases Elements.exists_of_traverse_eq_error fails with ⟨element, present, elementFails⟩
      rcases ih element present element .here elementFails with ⟨same, items, inside⟩
      exact ⟨same, items, .element present inside⟩
  | sequence items =>
      cases fails
      exact ⟨rfl, items, .here⟩

/-- A pass that reports a sequence reports itself, and there is one. -/
theorem apply_eq_rawSequence (fails : pass.apply node = .error (.rawSequence blamed)) :
    blamed = pass ∧ ∃ items, Within (.sequence items) node := by
  cases pass with
  | impliedRange =>
      rcases expandRange_eq_error fails with ⟨same, inside⟩
      cases same
      exact ⟨rfl, inside⟩
  | rangeComparison =>
      rcases compareRange_eq_error fails with ⟨same, inside⟩
      cases same
      exact ⟨rfl, inside⟩
  | impliedConjunction =>
      rcases exists_concerned fails with ⟨inner, inside, concerned⟩
      cases concerned with
      | rawSequence items => exact ⟨rfl, items, inside⟩

theorem applyAll_ne_rawSequence (free : node.SequenceFree) :
    applyAll passes node ≠ .error (.rawSequence blamed) := by
  intro fails
  induction passes generalizing node with
  | nil => cases fails
  | cons pass rest ih =>
      rw [applyAll, List.foldlM_cons, bind_eq_error] at fails
      rcases fails with first | ⟨middle, applied, others⟩
      · exact not_sequenceFree_iff.mpr (apply_eq_rawSequence first).2 free
      · exact ih (apply_sequenceFree applied) others

end Faults

theorem Expandable.sequenceFree {enclosure : Enclosure} (expandable : Expandable enclosure node) :
    node.SequenceFree := by
  induction expandable with
  | scalar value => exact sequenceFree_scalar
  | multiset _ ih => exact sequenceFree_multiset.mpr ih
  | empty => simp
  | uniform _ _ _ ih => exact sequenceFree_mapping.mpr ih
  | underField _ _ ih => simpa [entry] using ih
  | alone _ _ _ ih => simpa [entry] using ih
  | comparisons _ _ _ _ ih => exact sequenceFree_mapping.mpr ih
  | fields _ _ ih => exact sequenceFree_mapping.mpr ih

theorem applyAll_sequenceFree (nonempty : passes ≠ [])
    (applied : applyAll passes node = .ok result) : result.SequenceFree := by
  cases passes with
  | nil => contradiction
  | cons pass rest =>
      rw [applyAll, List.foldlM_cons, bind_eq_ok] at applied
      rcases applied with ⟨middle, first, others⟩
      exact applyAll_preserves (fun _ _ _ _ => apply_sequenceFree) (apply_sequenceFree first) others

theorem applyAll_eq_rawSequence (fails : applyAll passes node = .error (.rawSequence blamed)) :
    passes.head? = some blamed ∧ ∃ items, Within (.sequence items) node := by
  cases passes with
  | nil => cases fails
  | cons pass rest =>
      rw [applyAll, List.foldlM_cons, bind_eq_error] at fails
      rcases fails with first | ⟨middle, applied, others⟩
      · rcases apply_eq_rawSequence first with ⟨rfl, inside⟩
        exact ⟨rfl, inside⟩
      · exact absurd others (applyAll_ne_rawSequence (apply_sequenceFree applied))

/-- No sequence gets through a selection of passes: no result holds one, the pass that reports one is
the first of the selected passes in the fixed order, and there is one in the filter. The pass over
conjunctions by itself refuses every filter that holds one. -/
theorem normalizeWith_sequences (selection : List Pass) (node : Node) (nonempty : selection ≠ []) :
    (∀ result, normalizeWith selection node = .ok result → result.SequenceFree) ∧
    (∀ pass, normalizeWith selection node = .error (.rawSequence pass) →
      (∃ items, Within (.sequence items) node) ∧
        Pass.all.find? selection.contains = some pass) ∧
    ((∃ items, Within (.sequence items) node) →
      ∃ fault, normalizeWith [.impliedConjunction] node = .error fault) := by
  refine ⟨?_, ?_, ?_⟩
  · intro result normalized
    apply applyAll_sequenceFree _ normalized
    rcases List.exists_mem_of_ne_nil _ nonempty with ⟨pass, selected⟩
    exact List.ne_nil_of_mem (Pass.mem_ordered.mpr selected)
  · intro pass fails
    rcases applyAll_eq_rawSequence fails with ⟨first, inside⟩
    rw [Pass.ordered, List.head?_filter] at first
    exact ⟨inside, first⟩
  · intro raw
    rw [normalizeWith_singleton, Pass.apply]
    cases expanded : expandConjunction none node with
    | error fault => exact ⟨fault, rfl⟩
    | ok result =>
        have expandable := exists_expandConjunction_eq_ok.mp ⟨result, expanded⟩
        exact absurd expandable.sequenceFree (not_sequenceFree_iff.mpr raw)

/-- A range with an array beside its bounds. -/
def rangeBesideArray : Node :=
  entry (.field "year") (.mapping [(.operator .start, .scalar (.int 2001)),
    (.operator .stop, .scalar (.int 2005)), (.operator .among, .sequence [.scalar (.int 2003)])])

/-- The first pass drops the array, and without it the second pass reports it, whatever the order in
which the passes are selected. -/
theorem normalizeWith_sequences_rangeBesideArray :
    (∃ result, normalizeWith Pass.all rangeBesideArray = .ok result ∧ result.SequenceFree) ∧
    (normalizeWith [.impliedConjunction, .rangeComparison] rangeBesideArray =
        .error (.rawSequence .rangeComparison) ∧
      Pass.all.find? [Pass.impliedConjunction, .rangeComparison].contains =
        some .rangeComparison) ∧
    ∃ fault, normalizeWith [.impliedConjunction] rangeBesideArray = .error fault := by
  have inside : ∃ items, Within (.sequence items) rangeBesideArray :=
    ⟨_, .entry List.mem_cons_self
      (.entry (.tail _ (.tail _ List.mem_cons_self)) .here)⟩
  rcases normalizeWith_sequences Pass.all rangeBesideArray (by decide) with ⟨free, _, refused⟩
  rcases normalizeWith_sequences [.impliedConjunction, .rangeComparison] rangeBesideArray
    (by decide) with ⟨_, first, _⟩
  exact ⟨⟨_, rfl, free _ rfl⟩, ⟨rfl, (first _ rfl).2⟩, refused inside⟩

end Node

end FilterLang
