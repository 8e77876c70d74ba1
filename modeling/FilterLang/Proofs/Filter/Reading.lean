import FilterLang.Proofs.Filter.Text
import FilterLang.Proofs.Json.Grammar

/-!
# Filters as they are read

Reading turns a JSON value into a tree with sequences, and lifts these afterwards, so that the tree
of every value is proper. What the text of a tree keeps apart is kept apart in arrays and objects if
it is in their parts, whatever is asked of the scalars: no value gives a date, and a value without
floats gives a tree that can be written again.
-/

namespace FilterLang

/-- A scalar is no date. -/
def Scalar.Undated : Scalar → Prop
  | .date _ => False
  | _ => True

namespace Node

variable {node : Node} {scalars : Scalar → Prop}

section Values

variable {items : List Json} {members : List (String × Json)}

theorem lift_ofJson_array :
    (ofJson (.array items)).lift =
      .multiset (Elements.ofList (items.map fun item => (ofJson item).lift)) := by
  rw [ofJson, lift_sequence, ofJsonItems_eq_map, List.map_map]
  rfl

/-- Each entry of the tree of an object is that of a member. -/
theorem lift_ofJson_object :
    ∃ entries, (ofJson (.object members)).lift = .mapping entries ∧
      ∀ entry ∈ entries, ∃ member ∈ members,
        entry = (Key.ofName member.1, (ofJson member.2).lift) := by
  have distinct := Entries.keys_ofList_nodup (ofJsonMembers members)
  refine ⟨_, by rw [ofJson, lift_mapping distinct], ?_⟩
  rw [List.forall_mem_map]
  intro entry present
  have among := Entries.mem_of_mem_ofList present
  rw [ofJsonMembers_eq_map] at among
  rcases List.mem_map.mp among with ⟨member, isMember, rfl⟩
  exact ⟨member, isMember, rfl⟩

theorem textual_ofJson_array (each : ∀ item ∈ items, (ofJson item).lift.Textual scalars) :
    (ofJson (.array items)).lift.Textual scalars := by
  rw [lift_ofJson_array, textual_multiset]
  intro element present
  rcases List.mem_map.mp (Elements.mem_of_mem_ofList present) with ⟨item, among, rfl⟩
  exact each item among

theorem textual_ofJson_object (each : ∀ member ∈ members, (ofJson member.2).lift.Textual scalars) :
    (ofJson (.object members)).lift.Textual scalars := by
  rcases @lift_ofJson_object members with ⟨entries, same, source⟩
  rw [same, textual_mapping]
  constructor
  · intro key present
    rcases List.mem_map.mp present with ⟨entry, among, rfl⟩
    rcases source entry among with ⟨member, _, rfl⟩
    exact Key.ofName_classified member.1
  · intro entry present
    rcases source entry present with ⟨member, among, rfl⟩
    exact each member among

/-- No JSON value gives a date or a sequence. -/
theorem ofJson_undated (value : Json) : (ofJson value).lift.Textual Scalar.Undated := by
  induction value with
  | array items ih => exact textual_ofJson_array ih
  | object members ih => exact textual_ofJson_object ih
  | _ => exact textual_scalar.mpr trivial

/-- The tree of a JSON value is legible if the numbers are. -/
theorem legible_of_whole {value : Json} (whole : value.Whole) :
    (ofJson value).lift.Textual Scalar.Legible := by
  induction whole with
  | zero => exact textual_scalar.mpr rfl
  | array _ ih => exact textual_ofJson_array ih
  | object _ ih => exact textual_ofJson_object ih
  | _ => exact textual_scalar.mpr trivial

theorem lift_ofJson_ne_null {value : Json} (notNull : value ≠ .null) :
    (ofJson value).lift ≠ .scalar .null := by
  cases value with
  | null => exact absurd rfl notNull
  | _ => simp [ofJson, lift]

end Values

section Texts

variable {text : String}

theorem parse?_eq_some (parsed : parse? text = some node) :
    node = .empty ∨
      ∃ value, Json.read? text = some value ∧ value ≠ .null ∧ node = (ofJson value).lift := by
  rw [parse?, parseRaw?] at parsed
  split at parsed
  · cases parsed
    exact .inl rfl
  · rw [Option.map_map, Option.map_eq_some_iff] at parsed
    rcases parsed with ⟨value, read, rfl⟩
    cases value with
    | null => exact .inl rfl
    | _ => exact .inr ⟨_, read, by simp, rfl⟩

theorem proper_of_parse? (parsed : parse? text = some node) : node.Proper := by
  rcases parse?_eq_some parsed with rfl | ⟨value, _, _, rfl⟩
  · simp [empty, Entries.keys]
  · exact lift_proper _

theorem undated_of_parse? (parsed : parse? text = some node) : node.Textual Scalar.Undated := by
  rcases parse?_eq_some parsed with rfl | ⟨value, _, _, rfl⟩
  · simp [empty, Entries.keys]
  · exact ofJson_undated value

/-- What is read from a text whose numbers are legible can be written again, and is not null. -/
theorem legible_of_parse? (whole : ∀ value, Json.read? text = some value → value.Whole)
    (parsed : parse? text = some node) : node.Textual Scalar.Legible ∧ node ≠ .scalar .null := by
  rcases parse?_eq_some parsed with rfl | ⟨value, read, notNull, rfl⟩
  · simp [empty, Entries.keys]
  · exact ⟨legible_of_whole (whole value read), lift_ofJson_ne_null notNull⟩

end Texts

end Node

end FilterLang
