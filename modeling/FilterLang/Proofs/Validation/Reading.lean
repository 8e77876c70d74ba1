import FilterLang.Proofs.Filter.Reading
import FilterLang.Proofs.Normal.Sequences
import FilterLang.Proofs.Validation.Culprits

/-!
# Filters that were read, normalized and validated

A sequence is the only structure that validation does not know what to do with. Nothing that was
read holds one, and no pass makes one, so neither normalization nor validation comes to refuse a
filter for a sequence, if it was read from a text.
-/

namespace FilterLang

namespace View

variable {view : View} {filter : Node}

/-- Validation reports a sequence only where there is one. -/
theorem exists_sequence_of_invalidStructure {issue : Issue}
    (reported : issue ∈ (view.validate filter).issues)
    (isSequence : issue.kind = .invalidStructure) :
    ∃ items, Node.Within (.sequence items) filter := by
  rw [validate_eq] at reported
  rcases List.mem_map.mp reported with ⟨finding, found, rfl⟩
  have along : Along view.FoundAt (view.filterFindings filter) filter.places :=
    along_filterFindings
  rcases along.exists_place found with ⟨place, present, foundAt⟩
  have blames := foundAt.blames
  rw [show finding.problem.kind = .invalidStructure from isSequence] at blames
  rcases blames with ⟨items, here⟩
  exact ⟨items, here ▸ Node.within_of_mem_places present⟩

theorem kind_ne_invalidStructure (free : filter.SequenceFree) :
    ∀ issue ∈ (view.validate filter).issues, issue.kind ≠ .invalidStructure := by
  intro issue reported isSequence
  have inside := exists_sequence_of_invalidStructure reported isSequence
  exact Node.not_sequenceFree_iff.mpr inside free

end View

namespace Node

variable {node result : Node}

theorem Textual.sequenceFree {scalars : Scalar → Prop} (textual : node.Textual scalars) :
    node.SequenceFree := by
  rintro inner inside items rfl
  exact textual _ inside

theorem Textual.classified {scalars : Scalar → Prop} (textual : node.Textual scalars) :
    node.EveryEntry fun entry => entry.1.Classified := by
  rintro inner inside entries rfl entry present
  exact textual _ inside entry.1 (List.mem_map_of_mem present)

theorem Textual.ne_date (undated : node.Textual Scalar.Undated) (date : Date) :
    ¬Within (.scalar (.date date)) node := by
  intro inside
  exact undated _ inside

theorem normalizeWith_sequenceFree {selection : List Pass} (free : node.SequenceFree)
    (normalized : normalizeWith selection node = .ok result) : result.SequenceFree :=
  applyAll_preserves (fun _ _ _ _ => apply_sequenceFree) free normalized

/-- What normalization and validation rely on in a filter. -/
structure Fit (node : Node) : Prop where
  /-- There is no sequence at any depth. -/
  sequenceFree : node.SequenceFree
  /-- There is no date at any depth. -/
  undated : ∀ date, ¬Within (.scalar (.date date)) node
  /-- No field spells an operator. -/
  classified : node.EveryEntry fun entry => entry.1.Classified
  /-- Keys are distinct, and elements are unequal. -/
  proper : node.Proper

/-- What was read is fit for normalization and validation. No selection of passes meets a sequence
in it, and validation reports none, neither in what was read nor in what the passes make of it. -/
theorem fit_of_parse? (text : String) (node : Node) (parsed : parse? text = some node) :
    node.Fit ∧
    (∀ view : View, ∀ issue ∈ (view.validate node).issues, issue.kind ≠ .invalidStructure) ∧
    ∀ selection : List Pass,
      (∀ pass, normalizeWith selection node ≠ .error (.rawSequence pass)) ∧
      ∀ result, normalizeWith selection node = .ok result →
        ∀ view : View, ∀ issue ∈ (view.validate result).issues,
          issue.kind ≠ .invalidStructure := by
  have undated := undated_of_parse? parsed
  have free := undated.sequenceFree
  refine ⟨⟨free, undated.ne_date, undated.classified, proper_of_parse? parsed⟩, ?_, ?_⟩
  · intro view
    exact View.kind_ne_invalidStructure free
  · intro selection
    refine ⟨fun pass => applyAll_ne_rawSequence free, ?_⟩
    intro result normalized view
    exact View.kind_ne_invalidStructure (normalizeWith_sequenceFree free normalized)

/-- An object with a name twice, and arrays that are equal without their duplicates. -/
def repetitions : Json :=
  .object [("sold", .null), ("year", .array [.array [.int 1, .int 1], .array [.int 1]]),
    ("sold", .string "2001-01-01")]

/-- What is read from it. The text is not read as a date. -/
def withoutRepetitions : Node :=
  .mapping [(.field "sold", .scalar (.text "2001-01-01")),
    (.field "year", .multiset [.multiset [.scalar (.int 1)]])]

theorem fit_of_parse?_repetitions :
    parse? repetitions.compact = some withoutRepetitions ∧ withoutRepetitions.Fit ∧
      ∃ form, normalize withoutRepetitions = .ok form ∧
        ∀ view : View, ∀ issue ∈ (view.validate form).issues, issue.kind ≠ .invalidStructure := by
  have whole : repetitions.Whole := by
    have repeated : Json.Whole (.array [.int 1, .int 1]) := .array (by simp [Json.Whole.int])
    have once : Json.Whole (.array [.int 1]) := .array (by simp [Json.Whole.int])
    have nested : Json.Whole (.array [.array [.int 1, .int 1], .array [.int 1]]) :=
      .array (by simp [repeated, once])
    exact .object (by simp [nested, Json.Whole.null, Json.Whole.string])
  have lifted : (ofJson repetitions).lift = withoutRepetitions := rfl
  have read := parse?_compact whole (by simp [repetitions])
  rw [if_pos (by decide), lifted] at read
  rcases fit_of_parse? _ _ read with ⟨fit, _, passes⟩
  exact ⟨read, fit, _, rfl, (passes Pass.all).2 _ rfl⟩

end Node

end FilterLang
