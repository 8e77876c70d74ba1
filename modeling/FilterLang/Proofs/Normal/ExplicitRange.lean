import FilterLang.Proofs.Normal.Form

/-!
# Ranges that are written out

A field may be bound to two bounds that stand beside each other, or to the same bounds under
`between`. The first pass puts bounds under `between` wherever they stand, so that a range that is
already written out gets a second `between` above it, and the second pass rewrites the value of the
outer one instead of the value of the field. The two ways of writing a range therefore share their
faults and never a normal form.
-/

namespace FilterLang

namespace Node

/-- Two bounds beside each other. -/
def bothBounds (bounds : Node × Node) : Node :=
  .mapping [(.operator .start, bounds.1), (.operator .stop, bounds.2)]

/-- A range on a field, with the bounds beside each other. -/
def impliedRange (field : String) (start stop : Node) : Node :=
  entry (.field field) (bothBounds (start, stop))

/-- A range on a field, with the bounds under `between`. -/
def explicitRange (field : String) (start stop : Node) : Node :=
  entry (.field field) (entry (.operator .between) (bothBounds (start, stop)))

/-- The two comparisons that a range abbreviates. -/
def bothComparisons (bounds : Node × Node) : Node :=
  .mapping [(.operator .gte, bounds.1), (.operator .lte, bounds.2)]

/-- The clauses of two comparisons under a key. -/
def comparisonForm (key : Key) (bounds : Node × Node) : Node :=
  Node.and
    [entry key (entry (.operator .gte) bounds.1), entry key (entry (.operator .lte) bounds.2)]

section Bounds

/-- Two results together. The fault of the first comes first. -/
def both (start stop : Except Fault Node) : Except Fault (Node × Node) := do
  let start ← start
  let stop ← stop
  .ok (start, stop)

/-- What the three passes make of the bounds of a range. -/
def normalBounds (start stop : Node) : Except Fault (Node × Node) := do
  let ranged ← both (expandRange start) (expandRange stop)
  let compared ← both (compareRange ranged.1) (compareRange ranged.2)
  both (expandConjunction (some (.operator .gte)) compared.1)
    (expandConjunction (some (.operator .lte)) compared.2)

theorem bounds_bind_eq_map (start stop : Except Fault Node) (lower upper : Operator) :
    Bounds.bind ⟨start, stop⟩ lower upper =
      (both start stop).map fun bounds =>
        .mapping [(.operator lower, bounds.1), (.operator upper, bounds.2)] := by
  cases start with
  | error fault => rfl
  | ok start => cases stop <;> rfl

/-- A tree that each pass rebuilds around the bounds that it holds. -/
theorem normalize_of_bounds {node start stop : Node} {ranged compared final : Node × Node → Node}
    (expands : expandRange node = (both (expandRange start) (expandRange stop)).map ranged)
    (compares : ∀ bounds, compareRange (ranged bounds) =
      (both (compareRange bounds.1) (compareRange bounds.2)).map compared)
    (conjoins : ∀ bounds, expandConjunction none (compared bounds) =
      (both (expandConjunction (some (.operator .gte)) bounds.1)
        (expandConjunction (some (.operator .lte)) bounds.2)).map final) :
    normalize node = (normalBounds start stop).map final := by
  rw [normalize_eq_bind, expands, normalBounds]
  cases both (expandRange start) (expandRange stop) with
  | error fault => rfl
  | ok bounds =>
      change (compareRange (ranged bounds) >>= expandConjunction none) =
        (both (compareRange bounds.1) (compareRange bounds.2) >>= _).map final
      rw [compares]
      cases both (compareRange bounds.1) (compareRange bounds.2) with
      | error fault => rfl
      | ok bounds => exact conjoins bounds

end Bounds

theorem expandRange_bothBounds (start stop : Node) :
    expandRange (bothBounds (start, stop)) =
      (both (expandRange start) (expandRange stop)).map fun bounds =>
        entry (.operator .between) (bothBounds bounds) := by
  have expanded : expandRange (bothBounds (start, stop)) =
      (Bounds.bind ⟨expandRange start, expandRange stop⟩ .start .stop).map
        (entry (.operator .between)) := expandRange_of_bounds rfl
  rw [expanded, bounds_bind_eq_map, map_map]
  rfl

theorem compareValue_between (bounds : Node × Node) :
    compareValue (entry (.operator .between) (bothBounds bounds)) =
      (both (compareRange bounds.1) (compareRange bounds.2)).map bothComparisons := by
  have compared : compareValue (entry (.operator .between) (bothBounds bounds)) =
      Bounds.bind ⟨compareRange bounds.1, compareRange bounds.2⟩ .gte .lte :=
    compareValue_of_range rfl
  rw [compared, bounds_bind_eq_map]
  rfl

theorem expandConjunction_bothComparisons (key : Key) (bounds : Node × Node) :
    expandConjunction (some key) (bothComparisons bounds) =
      (both (expandConjunction (some (.operator .gte)) bounds.1)
        (expandConjunction (some (.operator .lte)) bounds.2)).map (comparisonForm key) := by
  have read : Reading.ofKeys (some key) [.operator .gte, .operator .lte] =
      .ok (.comparisons key) := by
    cases key <;> rfl
  rw [bothComparisons, expandConjunction_comparisons read]
  simp only [List.mapM_cons, List.mapM_nil, comparisonClause]
  cases expandConjunction (some (.operator .gte)) bounds.1 with
  | error fault => rfl
  | ok lower => cases expandConjunction (some (.operator .lte)) bounds.2 <;> rfl

/-- A mapping under a field says what becomes of the field. -/
theorem expandConjunction_field (field : String) {value : Node}
    (isMapping : value.isMapping = true) :
    expandConjunction none (entry (.field field) value) =
      expandConjunction (some (.field field)) value := by
  rw [entry, expandConjunction_fields rfl, map_conjunction_singleton]
  simp only [fieldClause, isMapping]
  cases expandConjunction (some (.field field)) value <;> rfl

theorem expandConjunction_comparison (field : String) {op : Operator}
    (comparison : op.category = .comparison) (operand : Node) :
    expandConjunction (some (.field field)) (entry (.operator op) operand) =
      (expandConjunction (some (.operator op)) operand).map fun operand =>
        entry (.field field) (entry (.operator op) operand) := by
  have read : Reading.ofKeys (some (.field field)) [.operator op] =
      .ok (.comparisons (.field field)) :=
    Reading.ofKeys_eq_ok.mpr (.underField rfl (by simp) (by simp [comparison]))
  rw [entry, expandConjunction_comparisons read, map_conjunction_singleton]
  rfl

/-- Bounds beside each other become two clauses on the field. -/
theorem normalize_impliedRange (field : String) (start stop : Node) :
    normalize (impliedRange field start stop) =
      (normalBounds start stop).map (comparisonForm (.field field)) := by
  apply normalize_of_bounds
  · rw [impliedRange, expandRange_entry, expandRange_bothBounds, map_map]
  · intro bounds
    rw [compareRange_entry, compareValue_between, map_map]
  · intro bounds
    rw [expandConjunction_field field rfl, expandConjunction_bothComparisons]

/-- Bounds under `between` become two clauses on `between`. -/
theorem normalize_explicitRange (field : String) (start stop : Node) :
    normalize (explicitRange field start stop) =
      (normalBounds start stop).map fun bounds =>
        entry (.field field) (entry (.operator .between)
          (comparisonForm (.operator .between) bounds)) := by
  apply normalize_of_bounds
  · rw [explicitRange, expandRange_entry, expandRange_entry, expandRange_bothBounds, map_map,
      map_map]
  · intro bounds
    rw [compareRange_entry, compareValue_of_none rfl, compareRange_entry, compareValue_between,
      map_map, map_map]
  · intro bounds
    rw [expandConjunction_field field rfl, expandConjunction_comparison field rfl,
      expandConjunction_bothComparisons, map_map]

/-- The two ways of writing a range have an equal outcome only where neither has a normal form: they
share their faults, and otherwise the clauses stand on the field for one and under `between` for the
other. Scalar bounds always have a normal form. -/
theorem explicitRange_sameOutcome_iff (field : String) (start stop : Node) :
    (SameOutcome (normalize (explicitRange field start stop))
        (normalize (impliedRange field start stop)) ↔
      ∃ fault, normalize (explicitRange field start stop) = .error fault ∧
        normalize (impliedRange field start stop) = .error fault) ∧
    normalize (impliedRange field start stop) =
      (normalBounds start stop).map (comparisonForm (.field field)) ∧
    normalize (explicitRange field start stop) =
      (normalBounds start stop).map (fun bounds =>
        entry (.field field) (entry (.operator .between)
          (comparisonForm (.operator .between) bounds))) ∧
    ∀ lower upper : Scalar,
      normalize (impliedRange field (.scalar lower) (.scalar upper)) =
        .ok (comparisonForm (.field field) (.scalar lower, .scalar upper)) ∧
      normalize (explicitRange field (.scalar lower) (.scalar upper)) =
        .ok (entry (.field field) (entry (.operator .between)
          (comparisonForm (.operator .between) (.scalar lower, .scalar upper)))) := by
  refine ⟨?_, normalize_impliedRange field start stop, normalize_explicitRange field start stop, ?_⟩
  · rw [normalize_explicitRange, normalize_impliedRange]
    cases normalBounds start stop with
    | error fault => simp [Except.map, SameOutcome]
    | ok bounds =>
        simp [Except.map, SameOutcome, comparisonForm, Node.and, entry, equal_mapping,
          Entries.get?]
  · intro lower upper
    have bounds : normalBounds (.scalar lower) (.scalar upper) =
        .ok (.scalar lower, .scalar upper) := rfl
    rw [normalize_impliedRange, normalize_explicitRange, bounds]
    exact ⟨rfl, rfl⟩

end Node

end FilterLang
