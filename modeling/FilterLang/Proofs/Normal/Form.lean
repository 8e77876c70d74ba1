import FilterLang.Normal.Form
import FilterLang.Proofs.Normal.Clause
import FilterLang.Proofs.Normal.Range

/-!
# Passes one after the other

What holds of a run of the selected passes because it holds of each pass, when two outcomes agree,
and the two shapes of a run that the results about normal forms need: the pass over conjunctions
comes last, and without a selection the three passes follow each other.
-/

namespace FilterLang

namespace Node

/-- Two outcomes agree: both are faults, or both are equal trees. -/
def SameOutcome : Except Fault Node → Except Fault Node → Prop
  | .ok first, .ok second => first.equal second = true
  | .error _, .error _ => True
  | _, _ => False

theorem apply_proper (pass : Pass) {node result : Node} (proper : node.Proper)
    (applied : pass.apply node = .ok result) : result.Proper := by
  cases pass with
  | impliedRange => exact expandRange_proper proper applied
  | rangeComparison => exact compareRange_proper proper applied
  | impliedConjunction => exact expandConjunction_proper proper applied

/-- What every pass keeps, a run of passes keeps. -/
theorem applyAll_preserves {property : Node → Prop}
    (kept : ∀ pass {node result : Node}, property node → Pass.apply pass node = .ok result →
      property result) {passes : List Pass} {node result : Node} (holds : property node)
    (applied : applyAll passes node = .ok result) : property result := by
  induction passes generalizing node with
  | nil =>
      cases applied
      exact holds
  | cons pass rest ih =>
      rw [applyAll, List.foldlM_cons, bind_eq_ok] at applied
      rcases applied with ⟨middle, first, others⟩
      exact ih (kept pass holds first) others

theorem normalizeWith_proper {selection : List Pass} {node result : Node} (proper : node.Proper)
    (normalized : normalizeWith selection node = .ok result) : result.Proper :=
  applyAll_preserves apply_proper proper normalized

/-- A selection of one pass runs that pass. -/
theorem normalizeWith_singleton (pass : Pass) (node : Node) :
    normalizeWith [pass] node = pass.apply node := by
  have alone : Pass.ordered [pass] = [pass] := by cases pass <;> decide
  rw [normalizeWith, applyAll, alone, List.foldlM_cons]
  exact bind_pure _

/-- The pass over conjunctions runs last, when it runs. -/
theorem exists_ordered_eq {selection : List Pass} (selected : .impliedConjunction ∈ selection) :
    ∃ earlier, Pass.ordered selection = earlier ++ [.impliedConjunction] := by
  refine ⟨[.impliedRange, .rangeComparison].filter selection.contains, ?_⟩
  have last : [Pass.impliedConjunction].filter selection.contains = [.impliedConjunction] := by
    simp [selected]
  rw [← last, ← List.filter_append]
  rfl

theorem normalize_eq_bind (node : Node) :
    normalize node =
      (expandRange node >>= fun ranged => compareRange ranged >>= expandConjunction none) := by
  have passes : normalize node =
      (expandRange node >>= fun ranged => compareRange ranged >>= fun compared =>
        expandConjunction none compared >>= pure) := rfl
  simpa only [bind_pure] using passes

theorem normalize_eq_ok {node result : Node} :
    normalize node = .ok result ↔
      ∃ ranged compared, expandRange node = .ok ranged ∧ compareRange ranged = .ok compared ∧
        expandConjunction none compared = .ok result := by
  simp only [normalize_eq_bind, bind_eq_ok]
  constructor
  · rintro ⟨ranged, first, compared, second, third⟩
    exact ⟨ranged, compared, first, second, third⟩
  · rintro ⟨ranged, compared, first, second, third⟩
    exact ⟨ranged, first, compared, second, third⟩

end Node

end FilterLang
