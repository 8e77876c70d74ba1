import FilterLang.Proofs.Validation.Checked
import Mathlib.Data.List.Infix

/-!
# Fields side by side

A mapping of fields is walked over from its first entry to its last, and what an entry hands on to
the entries after it is the last field before them that the view knows. A known field replaces it,
and a scalar under an unknown one is not looked at. So the report on the mapping is the reports on
its fields one after the other, except that the value of an unknown field is read as if it belonged
to the known field before it.
-/

namespace FilterLang

/-- The mapping that binds fields to values. -/
def Node.ofFields (fields : List (String × Node)) : Node :=
  .mapping (fields.map fun field => (.field field.1, field.2))

/-- The members of a list with what stands before them, in a list that has one member more. -/
theorem zip_inits_concat {α : Type*} (list : List α) (last : α) :
    (list ++ [last]).inits.zip (list ++ [last]) = list.inits.zip list ++ [(list, last)] := by
  induction list with
  | nil => rfl
  | cons first rest ih =>
      rw [List.cons_append, List.inits_cons, List.zip_cons_cons, List.zip_map_left, ih,
        List.map_append, List.inits_cons, List.zip_cons_cons, List.zip_map_left]
      rfl

namespace View

open Node (ofFields)

variable {view : View} {fields front : List (String × Node)} {field : String × Node}

/-- The last of the fields that the view knows. -/
def lastKnown? (view : View) (fields : List (String × Node)) : Option String :=
  (fields.reverse.find? fun field => view.hasField field.1).map (·.1)

/-- What a field and its value add to a report, after the given known field. -/
def fieldIssues (view : View) (known : Option String) (field : String × Node) : List Issue :=
  (view.entryFindings none ⟨none, known⟩ [(.field field.1, field.2)]).map Issue.ofFinding

theorem issues_ofFields (fields : List (String × Node)) :
    (view.validate (ofFields fields)).issues =
      (view.entryFindings none .root
        (fields.map fun field => (.field field.1, field.2))).map Issue.ofFinding := by
  rw [validate_eq]
  rfl

theorem lastKnown?_concat :
    view.lastKnown? (front ++ [field]) =
      if view.hasField field.1 then some field.1 else view.lastKnown? front := by
  rw [lastKnown?, List.reverse_append, List.reverse_singleton, List.singleton_append,
    List.find?_cons]
  cases view.hasField field.1 with
  | true => rfl
  | false => rfl

/-- Fields hand on the last known one among them, and no operator. -/
theorem contextThrough_fields (fields : List (String × Node)) :
    view.contextThrough .root (fields.map fun field => (.field field.1, field.2)) =
      ⟨none, view.lastKnown? fields⟩ := by
  induction fields using List.reverseRecOn with
  | nil => rfl
  | append_singleton front field ih =>
      have handedOn : view.contextThrough .root
            ((front ++ [field]).map fun field => (.field field.1, field.2)) =
          view.contextAfter ⟨none, view.lastKnown? front⟩ (.field field.1) := by
        rw [← ih, contextThrough, List.map_append, List.foldl_append]
        rfl
      rw [handedOn, lastKnown?_concat, contextAfter, Context.afterField]
      split
      · rfl
      · rfl

/-- The report on more fields begins with the report on the first of them. -/
theorem issues_ofFields_concat :
    (view.validate (ofFields (front ++ [field]))).issues =
      (view.validate (ofFields front)).issues
        ++ view.fieldIssues (view.lastKnown? front) field := by
  rw [issues_ofFields, issues_ofFields, List.map_append, entryFindings_append,
    contextThrough_fields, List.map_append]
  rfl

theorem issues_ofFields_eq_flatMap (fields : List (String × Node)) :
    (view.validate (ofFields fields)).issues =
      (fields.inits.zip fields).flatMap fun place =>
        view.fieldIssues (view.lastKnown? place.1) place.2 := by
  induction fields using List.reverseRecOn with
  | nil => rfl
  | append_singleton front field ih =>
      rw [issues_ofFields_concat, ih, zip_inits_concat, List.flatMap_append, List.flatMap_singleton]

/-- What stands before a field counts only if the view does not know the field, its value is not a
scalar, and there is a known field before it. -/
theorem fieldIssues_eq_alone {known : Option String}
    (independent : view.hasField field.1 = true ∨ field.2.isComposite = false ∨ known = none) :
    view.fieldIssues known field = (view.validate (ofFields [field])).issues := by
  rw [issues_ofFields, fieldIssues, List.map_singleton, entryFindings_singleton,
    entryFindings_singleton]
  congr 2
  rcases independent with isKnown | simple | rfl
  · simp [findingsAt, keyProblems, contextAfter, Context.afterField, isKnown, Context.root]
  · rcases Node.exists_scalar simple with ⟨scalar, isScalar⟩
    simp [findingsAt, keyProblems, isScalar, Node.scalar?]
  · rfl

/-- After a known field and whatever it is bound to, a field adds its issues under that field. -/
theorem issues_after_known {known : String × Node} (isKnown : view.hasField known.1 = true) :
    (view.validate (ofFields [known, field])).issues =
      (view.validate (ofFields [known])).issues ++ view.fieldIssues (some known.1) field := by
  have last : view.lastKnown? [known] = some known.1 := by
    simp [lastKnown?, isKnown]
  rw [← last]
  exact @issues_ofFields_concat view [known] field

/-- The report on a mapping of fields is what its fields add to it, one after the other. A field
adds what is reported on it alone, unless it is unknown, has a value other than a scalar and comes
after known fields; and then it adds what it adds after the last of these alone, whatever that one
is bound to. -/
theorem validate_fields (view : View) (fields : List (String × Node)) :
    (view.validate (ofFields fields)).issues =
        ((fields.inits.zip fields).flatMap fun place =>
          view.fieldIssues (view.lastKnown? place.1) place.2) ∧
      (∀ known field,
        view.hasField field.1 = true ∨ field.2.isComposite = false ∨ known = none →
          view.fieldIssues known field = (view.validate (ofFields [field])).issues) ∧
      ∀ known field, view.hasField known.1 = true →
        (view.validate (ofFields [known, field])).issues =
          (view.validate (ofFields [known])).issues ++ view.fieldIssues (some known.1) field :=
  ⟨issues_ofFields_eq_flatMap fields, fun _ _ => fieldIssues_eq_alone,
    fun _ _ => issues_after_known⟩

/-- A year, and a comparison on a field that cars do not have. -/
def bogusAfterYear : List (String × Node) :=
  [("year", .scalar (.int 2001)), ("bogus", .entry (.operator .gte) (.scalar (.text "soon")))]

theorem validate_fields_bogusAfterYear :
    carView.hasField "year" = true ∧
      (carView.validate (ofFields bogusAfterYear)).issues =
        ((bogusAfterYear.inits.zip bogusAfterYear).flatMap fun place =>
          carView.fieldIssues (carView.lastKnown? place.1) place.2) ∧
      carView.fieldIssues none ("year", .scalar (.int 2001)) =
        (carView.validate (ofFields [("year", .scalar (.int 2001))])).issues ∧
      (carView.validate (ofFields bogusAfterYear)).issues =
        (carView.validate (ofFields [("year", .scalar (.int 2001))])).issues
          ++ carView.fieldIssues (some "year")
            ("bogus", .entry (.operator .gte) (.scalar (.text "soon"))) := by
  have known : carView.hasField "year" = true := by decide
  rcases validate_fields carView bogusAfterYear with ⟨split, alone, after⟩
  exact ⟨known, split, alone none _ (.inl known), after ("year", .scalar (.int 2001)) _ known⟩

/-- The comparison is checked against the year, although it does not stand under it. Alone it is not
checked against any field. -/
theorem issues_bogusAfterYear :
    (carView.validate (ofFields bogusAfterYear)).issues.map Issue.kind =
        [.unknownKey, .typeMismatch] ∧
      (bogusAfterYear.flatMap fun field =>
        (carView.validate (ofFields [field])).issues).map Issue.kind = [.unknownKey] ∧
      (carView.validate (ofFields bogusAfterYear)).issues ≠
        bogusAfterYear.flatMap fun field => (carView.validate (ofFields [field])).issues := by
  have together : (carView.validate (ofFields bogusAfterYear)).issues.map Issue.kind =
      [.unknownKey, .typeMismatch] := rfl
  have apart : (bogusAfterYear.flatMap fun field =>
      (carView.validate (ofFields [field])).issues).map Issue.kind = [.unknownKey] := rfl
  refine ⟨together, apart, ?_⟩
  intro same
  rw [same, apart] at together
  cases together

end View

end FilterLang
