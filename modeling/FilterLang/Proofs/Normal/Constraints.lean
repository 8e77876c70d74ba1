import FilterLang.Proofs.Normal.Clausewise
import FilterLang.Proofs.Normal.ExplicitRange

/-!
# Normalization constraint by constraint

A mapping of several fields, and a field with several comparisons, carry one constraint for each of
their entries. Each of these constraints could be a filter by itself, which the passes treat in
branches of their own. Both ways come to the same: the whole filter has a normal form exactly if
every single one has, and it is the conjunction of theirs. Every pass goes through to the values of
the entries, in the whole filter as in the single ones (`Node.Carries`).
-/

namespace FilterLang

namespace Node

/-- A filter with the given keys carries one constraint for each entry. The passes over ranges go
through to the values, and the pass over conjunctions makes one clause of each entry. -/
structure Carries (keys : List Key) (whole : Entries → Node) (single : Key × Node → Node) :
    Prop where
  expandRange_whole : ∀ entries, Entries.keys entries = keys →
    expandRange (whole entries) = (Entries.traverse expandRange entries).map whole
  expandRange_single : ∀ key ∈ keys, ∀ value,
    expandRange (single (key, value)) = (expandRange value).map fun result => single (key, result)
  compareRange_whole : ∀ entries, Entries.keys entries = keys →
    compareRange (whole entries) = (Entries.traverse compareValue entries).map whole
  compareRange_single : ∀ key ∈ keys, ∀ value,
    compareRange (single (key, value)) = (compareValue value).map fun result => single (key, result)
  expandConjunction_whole : ∀ entries, Entries.keys entries = keys →
    ∀ result, expandConjunction none (whole entries) = .ok result ↔
      ∃ forms, List.Forall₂ (fun entry form => expandConjunction none (single entry) = .ok form)
        entries forms ∧ result = Node.and forms

section Stages

variable {keys : List Key} {whole : Entries → Node} {single : Key × Node → Node}
  {entries : Entries} {key : Key} {value form result : Node}

theorem Carries.normalize_single (carries : Carries keys whole single) (present : key ∈ keys) :
    normalize (single (key, value)) = .ok form ↔
      ∃ ranged, expandRange value = .ok ranged ∧ ∃ compared, compareValue ranged = .ok compared ∧
        expandConjunction none (single (key, compared)) = .ok form := by
  rw [normalize_eq_ok, carries.expandRange_single key present]
  simp only [map_eq_ok]
  constructor
  · rintro ⟨_, _, ⟨ranged, first, rfl⟩, second, third⟩
    rw [carries.compareRange_single key present, map_eq_ok] at second
    rcases second with ⟨compared, second, rfl⟩
    exact ⟨ranged, first, compared, second, third⟩
  · rintro ⟨ranged, first, compared, second, third⟩
    refine ⟨_, single (key, compared), ⟨ranged, first, rfl⟩, ?_, third⟩
    rw [carries.compareRange_single key present, second]
    rfl

/-- What the three passes make of one entry, one after the other. -/
def Stages (single : Key × Node → Node) (entry : Key × Node) (form : Node) : Prop :=
  ∃ ranged, Entries.Corresponds (fun value result => expandRange value = .ok result) entry ranged ∧
    ∃ compared,
      Entries.Corresponds (fun value result => compareValue value = .ok result) ranged compared ∧
        expandConjunction none (single compared) = .ok form

theorem Carries.stages_iff (carries : Carries keys whole single) {entry : Key × Node}
    (present : entry.1 ∈ keys) : Stages single entry form ↔ normalize (single entry) = .ok form := by
  rcases entry with ⟨key, value⟩
  rw [carries.normalize_single present]
  constructor
  · rintro ⟨⟨_, ranged⟩, ⟨rfl, first⟩, ⟨_, compared⟩, ⟨rfl, second⟩, third⟩
    exact ⟨ranged, first, compared, second, third⟩
  · rintro ⟨ranged, first, compared, second, third⟩
    exact ⟨(key, ranged), ⟨rfl, first⟩, (key, compared), ⟨rfl, second⟩, third⟩

theorem Carries.normalize_stages (carries : Carries (Entries.keys entries) whole single) :
    normalize (whole entries) = .ok result ↔
      ∃ forms, List.Forall₂ (Stages single) entries forms ∧ result = Node.and forms := by
  rw [normalize_eq_ok, carries.expandRange_whole entries rfl]
  simp only [map_eq_ok, Entries.traverse_eq_ok]
  constructor
  · rintro ⟨_, compared, ⟨ranged, first, rfl⟩, second, third⟩
    have rangedKeys := Entries.keys_eq_of_forall₂ first
    rw [carries.compareRange_whole ranged rangedKeys, map_eq_ok] at second
    rcases second with ⟨compared, second, rfl⟩
    rw [Entries.traverse_eq_ok] at second
    have comparedKeys := (Entries.keys_eq_of_forall₂ second).trans rangedKeys
    rw [carries.expandConjunction_whole compared comparedKeys] at third
    rcases third with ⟨forms, third, rfl⟩
    exact ⟨forms, forall₂_exists.mpr ⟨ranged, first, forall₂_exists.mpr ⟨compared, second, third⟩⟩,
      rfl⟩
  · rintro ⟨forms, stages, rfl⟩
    rcases forall₂_exists.mp stages with ⟨ranged, first, others⟩
    rcases forall₂_exists.mp others with ⟨compared, second, third⟩
    have rangedKeys := Entries.keys_eq_of_forall₂ first
    have comparedKeys := (Entries.keys_eq_of_forall₂ second).trans rangedKeys
    refine ⟨_, whole compared, ⟨ranged, first, rfl⟩, ?_, ?_⟩
    · rw [carries.compareRange_whole ranged rangedKeys, map_eq_ok]
      exact ⟨compared, Entries.traverse_eq_ok.mpr second, rfl⟩
    · rw [carries.expandConjunction_whole compared comparedKeys]
      exact ⟨forms, third, rfl⟩

theorem Carries.normalize_whole (carries : Carries (Entries.keys entries) whole single) :
    normalize (whole entries) = .ok result ↔
      ∃ forms, List.Forall₂ (fun part form => normalize part = .ok form) (entries.map single)
        forms ∧ result = Node.and forms := by
  have stages : ∀ forms, List.Forall₂ (Stages single) entries forms ↔
      List.Forall₂ (fun entry form => normalize (single entry) = .ok form) entries forms := by
    intro forms
    apply forall₂_congr_of_mem
    intro entry present form
    exact carries.stages_iff (List.mem_map_of_mem present)
  simp only [carries.normalize_stages, stages, List.forall₂_map_left_iff]

end Stages

section Conjunctions

variable {f g : Key × Node → Except Fault Node} {entries : Entries} {result : Node}

theorem conjunction_of_several {clauses : List Node} (several : 2 ≤ clauses.length) :
    conjunction clauses = Node.and clauses := by
  rcases clauses with _ | ⟨clause, _ | ⟨second, rest⟩⟩
  · simp at several
  · simp at several
  · rfl

theorem map_conjunction_eq_ok (several : 2 ≤ entries.length)
    (same : ∀ entry ∈ entries, f entry = g entry) :
    (entries.mapM f).map conjunction = .ok result ↔
      ∃ forms, List.Forall₂ (fun entry form => g entry = .ok form) entries forms ∧
        result = Node.and forms := by
  have clauses : ∀ forms, List.Forall₂ (fun entry form => f entry = .ok form) entries forms ↔
      List.Forall₂ (fun entry form => g entry = .ok form) entries forms := by
    intro forms
    apply forall₂_congr_of_mem
    intro entry present form
    rw [same entry present]
  simp only [map_eq_ok, mapM_eq_ok, clauses]
  apply exists_congr
  intro forms
  apply and_congr_right
  intro related
  rw [conjunction_of_several (related.length_eq ▸ several)]
  exact eq_comm

end Conjunctions

section Constraints

variable {keys : List Key}

/-- Several fields carry one constraint each. -/
theorem carries_fields (several : 2 ≤ keys.length)
    (fields : ∀ key ∈ keys, key.isOperator = false) :
    Carries keys Node.mapping fun field => entry field.1 field.2 where
  expandRange_whole := by
    rintro entries rfl
    apply expandRange_of_unbounded
    apply Entries.bounds?_eq_none_of_absent
    intro start
    cases fields _ start
  expandRange_single := fun key _ value => expandRange_entry key value
  compareRange_whole := fun entries _ => compareRange_mapping entries
  compareRange_single := fun key _ value => compareRange_entry key value
  expandConjunction_whole := by
    rintro entries rfl result
    have reads : Reading.Reads none (Entries.keys entries) .fields := by
      refine .fields ?_ fields
      rintro none
      simp [none] at several
    rw [expandConjunction_fields (Reading.ofKeys_eq_ok.mpr reads)]
    apply map_conjunction_eq_ok (by simpa [Entries.keys] using several)
    intro field present
    have alone : Reading.Reads none [field.1] .fields := by
      refine .fields (by simp) ?_
      intro key same
      rw [List.mem_singleton.mp same]
      exact fields _ (List.mem_map_of_mem present)
    have read : Reading.ofKeys none (Entries.keys [field]) = .ok .fields :=
      Reading.ofKeys_eq_ok.mpr alone
    rw [entry, expandConjunction_fields read, map_conjunction_singleton]

/-- Several comparisons on a field carry one constraint each, where the passes over ranges find no
range in them. -/
theorem carries_comparisons (name : String) (several : 2 ≤ keys.length)
    (comparisons : ∀ key ∈ keys, key.category? = some .comparison)
    (noRange : .operator .between ∉ keys)
    (notBoth : .operator .start ∈ keys → .operator .stop ∉ keys) :
    Carries keys (fun entries => entry (.field name) (.mapping entries))
      fun comparison => entry (.field name) (entry comparison.1 comparison.2) where
  expandRange_whole := by
    rintro entries rfl
    rw [expandRange_entry,
      expandRange_of_unbounded (Entries.bounds?_eq_none_of_absent notBoth), map_map]
  expandRange_single := by
    intro key _ value
    rw [expandRange_entry, expandRange_entry, map_map]
  compareRange_whole := by
    rintro entries rfl
    rw [compareRange_entry, compareValue_of_none (range?_eq_none_of_absent noRange),
      compareRange_mapping, map_map]
  compareRange_single := by
    intro key present value
    have plain : range? (entry key value) = none := by
      apply range?_eq_none_of_absent
      intro between
      rw [List.mem_singleton.mp between] at noRange
      exact noRange present
    rw [compareRange_entry, compareValue_of_none plain, compareRange_entry, map_map]
  expandConjunction_whole := by
    rintro entries rfl result
    have reads : Reading.Reads (some (.field name)) (Entries.keys entries)
        (.comparisons (.field name)) := by
      refine .underField rfl ?_ comparisons
      rintro none
      simp [none] at several
    rw [expandConjunction_field name rfl,
      expandConjunction_comparisons (Reading.ofKeys_eq_ok.mpr reads)]
    apply map_conjunction_eq_ok (by simpa [Entries.keys] using several)
    rintro ⟨key, operand⟩ present
    rcases Key.category?_eq_some.mp (comparisons _ (List.mem_map_of_mem present)) with
      ⟨op, rfl, comparison⟩
    rw [expandConjunction_field name rfl, expandConjunction_comparison name comparison]
    rfl

end Constraints

/-- A filter has a normal form exactly if each of its parts has one, and then it is the conjunction
of their normal forms, in order. -/
structure NormalizesAs (whole : Node) (parts : List Node) : Prop where
  exists_form_iff : (∃ form, normalize whole = .ok form) ↔
    ∀ part ∈ parts, ∃ form, normalize part = .ok form
  form : ∀ forms, List.Forall₂ (fun part form => normalize part = .ok form) parts forms →
    normalize whole = .ok (Node.and forms)

theorem Carries.normalizesAs {entries : Entries} {whole : Entries → Node}
    {single : Key × Node → Node} (carries : Carries (Entries.keys entries) whole single) :
    NormalizesAs (whole entries) (entries.map single) := by
  constructor
  · rw [← exists_forall₂_iff]
    constructor
    · rintro ⟨form, normalized⟩
      rcases carries.normalize_whole.mp normalized with ⟨forms, related, _⟩
      exact ⟨forms, related⟩
    · rintro ⟨forms, related⟩
      exact ⟨_, carries.normalize_whole.mpr ⟨forms, related, rfl⟩⟩
  · intro forms related
    exact carries.normalize_whole.mpr ⟨forms, related, rfl⟩

/-- Several fields normalize as the single fields do, and several comparisons on a field as the
single comparisons on it, where they hold no range that the passes would rewrite. -/
theorem normalize_constraints :
    (∀ fields : Entries, 2 ≤ fields.length →
      (∀ key ∈ Entries.keys fields, key.isOperator = false) →
        NormalizesAs (.mapping fields) (fields.map fun field => entry field.1 field.2)) ∧
    ∀ (name : String) (comparisons : Entries), 2 ≤ comparisons.length →
      (∀ key ∈ Entries.keys comparisons, key.category? = some .comparison) →
      .operator .between ∉ Entries.keys comparisons →
      (.operator .start ∈ Entries.keys comparisons →
        .operator .stop ∉ Entries.keys comparisons) →
        NormalizesAs (entry (.field name) (.mapping comparisons))
          (comparisons.map fun comparison =>
            entry (.field name) (entry comparison.1 comparison.2)) := by
  constructor
  · intro fields several areFields
    exact (carries_fields (by simpa [Entries.keys] using several) areFields).normalizesAs
  · intro name comparisons several areComparisons noRange notBoth
    exact (carries_comparisons name (by simpa [Entries.keys] using several) areComparisons noRange
      notBoth).normalizesAs

/-- A lower bound and a comparison on a year, beside a title. -/
def lateYearAndTitle : Entries :=
  [(.field "year", .mapping
      [(.operator .start, .scalar (.int 2001)), (.operator .neg, .scalar (.int 2003))]),
    (.field "title", .scalar (.text "dune"))]

/-- The clauses on the year make a conjunction of their own inside the one of the two fields. -/
theorem normalize_constraints_lateYearAndTitle :
    normalize (.mapping lateYearAndTitle) =
      .ok (Node.and [
        Node.and [entry (.field "year") (entry (.operator .start) (.scalar (.int 2001))),
          entry (.field "year") (entry (.operator .neg) (.scalar (.int 2003)))],
        entry (.field "title") (.scalar (.text "dune"))]) := by
  rcases normalize_constraints with ⟨onFields, onComparisons⟩
  have year : normalize (entry (.field "year") (.mapping
      [(.operator .start, .scalar (.int 2001)), (.operator .neg, .scalar (.int 2003))])) =
      .ok (Node.and [entry (.field "year") (entry (.operator .start) (.scalar (.int 2001))),
        entry (.field "year") (entry (.operator .neg) (.scalar (.int 2003)))]) :=
    (onComparisons "year" _ (by decide) (by decide) (by decide) (by decide)).form _
      (.cons rfl (.cons rfl .nil))
  exact (onFields lateYearAndTitle (by decide) (by decide)).form _ (.cons year (.cons rfl .nil))

end Node

end FilterLang
