import FilterLang.Proofs.Filter.Reading
import FilterLang.Proofs.Normal.Canonical
import FilterLang.Proofs.Normal.Clausewise
import FilterLang.Proofs.Normal.Rules

/-!
# Normal forms that are written and read back

A filter that was read holds neither sequences nor dates, and its fields do not spell operators.
Normalization keeps all of this, so the text of the normal form is read back as the normal form if
the reader goes deep enough for it. Making conjunctions explicit adds levels, and there are filters
within the limit whose normal forms lie beyond it.
-/

namespace FilterLang

namespace Node

variable {node form result : Node}

section Reading

/-- What a tree that was read obeys. -/
def readingRules : Rules := ⟨Scalar.Legible, fun key _ => key.Classified⟩

theorem readingRules_closed : readingRules.Closed :=
  ⟨trivial, fun _ _ => trivial, fun _ _ => trivial, trivial⟩

theorem Textual.obeys (legible : node.Textual Scalar.Legible) : node.Obeys readingRules := by
  intro inner inside
  have here := legible inner inside
  cases inner with
  | scalar value => exact here
  | mapping entries =>
      intro entry present
      exact here entry.1 (List.mem_map_of_mem present)
  | _ => trivial

theorem textual_of_obeys (obeys : node.Obeys readingRules) (canonical : node.Canonical) :
    node.Textual Scalar.Legible := by
  intro inner inside
  have here := obeys inner inside
  have canonicalHere := canonical inner inside
  cases inner with
  | scalar value => exact here
  | mapping entries =>
      intro key present
      rcases List.mem_map.mp present with ⟨entry, among, rfl⟩
      exact here entry among
  | multiset elements => trivial
  | sequence items => exact canonicalHere

end Reading

theorem eq_scalar_of_normalize {value : Scalar}
    (normalized : normalize node = .ok (.scalar value)) : node = .scalar value := by
  rcases normalize_eq_ok.mp normalized with ⟨ranged, compared, first, second, third⟩
  have kinds := kind_expandConjunction third
  rw [kind_compareRange second, kind_expandRange first] at kinds
  cases node with
  | scalar other =>
      cases normalized
      rfl
  | _ => cases kinds

/-- The normal form of a filter that was read is read back from its own text if it nests at most
127 levels, and else refused. The numbers of the filter are integers of 64 bits, or zeros. -/
theorem parse_text_of_normalize (text : String) (node form : Node)
    (whole : ∀ value, Json.read? text = some value → value.Whole)
    (parsed : parse? text = some node) (normalized : node.normalize = .ok form) :
    parse? form.text = if form.levels ≤ 127 then some form else none := by
  have proper := proper_of_parse? parsed
  rcases legible_of_parse? whole parsed with ⟨legible, notNull⟩
  have canonical : form.Canonical := canonical_of_normalizeWith (by simp [Pass.all]) normalized
  have obeys := normalize_obeys readingRules_closed legible.obeys normalized
  apply parse?_text_of_legible (normalizeWith_proper proper normalized)
    (textual_of_obeys obeys canonical)
  rintro rfl
  exact notNull (eq_scalar_of_normalize normalized)

section Depth

/-- A clause inside nested conjunctions. -/
def nested (clause : Node) : Nat → Node
  | 0 => clause
  | depth + 1 => .and [nested clause depth]

theorem levels_and (clause : Node) : (Node.and [clause]).levels = clause.levels + 2 := by
  have alone : Elements.ofList [clause] = [clause] := rfl
  simp [Node.and, entry, alone, levels, entryLevels, memberLevels]

theorem levels_nested (clause : Node) (depth : Nat) :
    (nested clause depth).levels = clause.levels + 2 * depth := by
  induction depth with
  | zero => rfl
  | succ depth ih =>
      rw [nested, levels_and, ih]
      omega

theorem nested_proper {clause : Node} (proper : clause.Proper) (depth : Nat) :
    (nested clause depth).Proper := by
  induction depth with
  | zero => exact proper
  | succ depth ih => exact proper_and (by simpa using ih)

theorem nested_textual {clause : Node} (legible : clause.Textual Scalar.Legible) (depth : Nat) :
    (nested clause depth).Textual Scalar.Legible := by
  induction depth with
  | zero => exact legible
  | succ depth ih =>
      have alone : Elements.ofList [nested clause depth] = [nested clause depth] := rfl
      simpa [nested, Node.and, entry, alone, Entries.keys, Key.Classified] using ih

/-- A conjunction of one clause stays one. -/
theorem apply_and (pass : Pass) (applied : pass.apply node = .ok result) :
    pass.apply (.and [node]) = .ok (.and [result]) := by
  have elements : Elements.traverse pass.apply [node] = .ok [result] :=
    Elements.traverse_eq_ok.mpr ⟨[result], .cons applied .nil, rfl⟩
  have through : pass.apply (.and [node]) = (Elements.traverse pass.apply [node]).map fun results =>
      entry (.operator .and) (.multiset results) := apply_entry_of_logical pass rfl [node]
  rw [through, elements]
  rfl

theorem apply_nested (pass : Pass) (applied : pass.apply node = .ok result) (depth : Nat) :
    pass.apply (nested node depth) = .ok (nested result depth) := by
  induction depth with
  | zero => exact applied
  | succ depth ih => exact apply_and pass ih

theorem normalize_nested (normalized : normalize node = .ok form) (depth : Nat) :
    normalize (nested node depth) = .ok (nested form depth) := by
  rcases normalize_eq_ok.mp normalized with ⟨ranged, compared, first, second, third⟩
  exact normalize_eq_ok.mpr ⟨nested ranged depth, nested compared depth,
    apply_nested .impliedRange first depth, apply_nested .rangeComparison second depth,
    apply_nested .impliedConjunction third depth⟩

/-- The text of a legible tree within the limit holds legible numbers only, and is read back. -/
theorem legible_text (proper : node.Proper) (legible : node.Textual Scalar.Legible)
    (notNull : node ≠ .scalar .null) (shallow : node.levels ≤ 127) :
    (∀ value, Json.read? node.text = some value → value.Whole) ∧ parse? node.text = some node := by
  have whole := whole_toJson legible
  constructor
  · intro value read
    rw [text, Json.read?_compact whole, levels_toJson, Json.depthLimit, if_pos shallow] at read
    cases read
    exact whole
  · rw [parse?_text_of_legible proper legible notNull, if_pos shallow]

/-- Two fields side by side. -/
def twoFields : Node :=
  .mapping [(.field "a", .scalar (.int 1)), (.field "b", .scalar (.int 2))]

/-- The conjunction of two fields. -/
def bothFields : Node :=
  .and [.entry (.field "a") (.scalar (.int 1)), .entry (.field "b") (.scalar (.int 2))]

theorem twoFields_proper : twoFields.Proper := by
  simp [twoFields, Entries.keys]

theorem twoFields_legible : twoFields.Textual Scalar.Legible := by
  have fieldA : (Key.field "a").Classified := rfl
  have fieldB : (Key.field "b").Classified := rfl
  simp [twoFields, Entries.keys, Scalar.Legible, fieldA, fieldB]

theorem parse_text_of_normalize_twoFields :
    (∀ value, Json.read? twoFields.text = some value → value.Whole) ∧
      parse? twoFields.text = some twoFields ∧ twoFields.normalize = .ok bothFields ∧
      bothFields.levels ≤ 127 ∧ parse? bothFields.text = some bothFields := by
  rcases legible_text twoFields_proper twoFields_legible (by simp [twoFields]) (by decide) with
    ⟨whole, parsed⟩
  have normalized : twoFields.normalize = .ok bothFields := rfl
  have read := parse_text_of_normalize _ twoFields bothFields whole parsed normalized
  have shallow : bothFields.levels ≤ 127 := by decide
  rw [if_pos shallow] at read
  exact ⟨whole, parsed, normalized, shallow, read⟩

/-- Two fields inside 63 conjunctions nest 127 levels, and their normal form two levels more. -/
theorem exists_unread_normal_form :
    ∃ (text : String) (node form : Node),
      (∀ value, Json.read? text = some value → value.Whole) ∧ parse? text = some node ∧
        node.normalize = .ok form ∧ parse? form.text ≠ some form := by
  have depth : (nested twoFields 63).levels = 127 := levels_nested twoFields 63
  have formDepth : (nested bothFields 63).levels = 129 := levels_nested bothFields 63
  have proper := nested_proper twoFields_proper 63
  have legible := nested_textual twoFields_legible 63
  have normalized : (nested twoFields 63).normalize = .ok (nested bothFields 63) :=
    normalize_nested rfl 63
  rcases legible_text proper legible (by intro null; cases null) depth.le with ⟨whole, parsed⟩
  refine ⟨_, nested twoFields 63, nested bothFields 63, whole, parsed, normalized, ?_⟩
  have formLegible : (nested bothFields 63).Textual Scalar.Legible := by
    apply textual_of_obeys (normalize_obeys readingRules_closed legible.obeys normalized)
    exact canonical_of_normalizeWith (by simp [Pass.all]) normalized
  have refused := parse?_text_of_legible (normalizeWith_proper proper normalized) formLegible
    (by intro null; cases null)
  rw [formDepth] at refused
  simp [refused]

end Depth

end Node

end FilterLang
