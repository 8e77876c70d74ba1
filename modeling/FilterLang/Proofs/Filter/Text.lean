import FilterLang.Filter.Text
import FilterLang.Proofs.Filter.Lifting
import FilterLang.Proofs.Json.RoundTrip

/-!
# Filters that are written and read back

A tree is written as a JSON value and comes back from it with sequences in the place of multisets,
which are lifted again. What the text does not keep has to be absent from the tree: a date is
written like a text, a sequence like a multiset, and a field that spells an operator like the
operator. So a proper tree without these is read back as it was, if it does not nest too deep. The
one exception is the null at the root, which is read as the empty filter.
-/

namespace FilterLang

namespace Node

section Traversals

theorem jsonMembers_eq_map (entries : Entries) :
    jsonMembers entries = entries.map fun entry => (entry.1.name, entry.2.toJson) := by
  induction entries with
  | nil => rfl
  | cons entry rest ih => rw [jsonMembers, ih, List.map_cons]

theorem jsonItems_eq_map (nodes : List Node) : jsonItems nodes = nodes.map toJson := by
  induction nodes with
  | nil => rfl
  | cons node rest ih => rw [jsonItems, ih, List.map_cons]

theorem ofJsonMembers_eq_map (members : List (String × Json)) :
    ofJsonMembers members = members.map fun member => (Key.ofName member.1, ofJson member.2) := by
  induction members with
  | nil => rfl
  | cons member rest ih => rw [ofJsonMembers, ih, List.map_cons]

theorem ofJsonItems_eq_map (items : List Json) : ofJsonItems items = items.map ofJson := by
  induction items with
  | nil => rfl
  | cons item rest ih => rw [ofJsonItems, ih, List.map_cons]

end Traversals

section Levels

mutual

/-- How deep mappings, multisets and sequences nest in a tree. -/
def levels : Node → Nat
  | .scalar _ => 0
  | .mapping entries => entryLevels entries + 1
  | .multiset elements => memberLevels elements + 1
  | .sequence items => memberLevels items + 1
termination_by structural node => node

/-- How deep they nest in the values of a mapping. -/
def entryLevels : Entries → Nat
  | [] => 0
  | (_, value) :: rest => max (levels value) (entryLevels rest)
termination_by structural entries => entries

/-- How deep they nest in the members of a multiset or sequence. -/
def memberLevels : List Node → Nat
  | [] => 0
  | member :: rest => max (levels member) (memberLevels rest)
termination_by structural members => members

end

theorem itemLevels_jsonItems {members : List Node}
    (each : ∀ member ∈ members, member.toJson.levels = member.levels) :
    Json.itemLevels (jsonItems members) = memberLevels members := by
  induction members with
  | nil => rfl
  | cons member rest ih =>
      rw [List.forall_mem_cons] at each
      rw [jsonItems, Json.itemLevels, memberLevels, each.1, ih each.2]

/-- A tree nests as deep as the JSON value that it is written as. -/
theorem levels_toJson (node : Node) : node.toJson.levels = node.levels := by
  induction node with
  | scalar value => cases value <;> rfl
  | mapping entries ih =>
      have sameLevels : Json.memberLevels (jsonMembers entries) = entryLevels entries := by
        induction entries with
        | nil => rfl
        | cons entry rest ihEntries =>
            rcases entry with ⟨key, value⟩
            rw [List.forall_mem_cons] at ih
            rw [jsonMembers, Json.memberLevels, entryLevels, ih.1, ihEntries ih.2]
      rw [toJson, Json.levels, levels, sameLevels]
  | multiset elements ih => rw [toJson, Json.levels, levels, itemLevels_jsonItems ih]
  | sequence items ih => rw [toJson, Json.levels, levels, itemLevels_jsonItems ih]

end Levels

end Node

/-- A scalar is neither a date nor a float. -/
def Scalar.Plain : Scalar → Prop
  | .float _ | .date _ => False
  | _ => True

/-- A scalar is no date, and no float but zero. -/
def Scalar.Legible : Scalar → Prop
  | .float value => value = .zero
  | .date _ => False
  | _ => True

theorem Scalar.Plain.legible {value : Scalar} (plain : value.Plain) : value.Legible := by
  cases value with
  | float value => exact plain.elim
  | date value => exact plain.elim
  | _ => trivial

namespace Node

/-- What the text of a node keeps apart: the scalars are as required, no field spells an operator,
and the node is no sequence. -/
def TextualHere (scalars : Scalar → Prop) : Node → Prop
  | .scalar value => scalars value
  | .mapping entries => ∀ key ∈ Entries.keys entries, key.Classified
  | .multiset _ => True
  | .sequence _ => False

/-- At every depth, a tree is one that its text keeps apart from others. -/
def Textual (scalars : Scalar → Prop) (node : Node) : Prop := node.Everywhere (TextualHere scalars)

variable {node : Node} {scalars : Scalar → Prop}

@[simp]
theorem textual_scalar {value : Scalar} : (Node.scalar value).Textual scalars ↔ scalars value := by
  simp [Textual, TextualHere]

@[simp]
theorem textual_mapping {entries : Entries} :
    (Node.mapping entries).Textual scalars ↔
      (∀ key ∈ Entries.keys entries, key.Classified) ∧
        ∀ entry ∈ entries, entry.2.Textual scalars := by
  simp [Textual, TextualHere]

@[simp]
theorem textual_multiset {elements : Elements} :
    (Node.multiset elements).Textual scalars ↔ ∀ element ∈ elements, element.Textual scalars := by
  simp [Textual, TextualHere]

@[simp]
theorem not_textual_sequence {items : List Node} : ¬ (Node.sequence items).Textual scalars := by
  simp [Textual, TextualHere]

theorem Textual.mono {others : Scalar → Prop} (weaker : ∀ value, scalars value → others value)
    (textual : node.Textual scalars) : node.Textual others := by
  intro inner inside
  have here := textual inner inside
  cases inner with
  | scalar value => exact weaker value here
  | _ => exact here

/-- A legible tree is written without floats other than zero. -/
theorem whole_toJson (legible : node.Textual Scalar.Legible) : node.toJson.Whole := by
  induction node with
  | scalar value =>
      rw [textual_scalar] at legible
      cases value with
      | null => exact .null
      | bool value => exact .bool value
      | int value => exact .int value
      | float value =>
          have isZero : value = .zero := legible
          subst isZero
          exact .zero
      | text value => exact .string value
      | date value => exact .string value.text
  | mapping entries ih =>
      rw [textual_mapping] at legible
      rw [toJson, jsonMembers_eq_map]
      refine .object ?_
      rw [List.forall_mem_map]
      intro entry present
      exact ih entry present (legible.2 entry present)
  | multiset elements ih =>
      rw [textual_multiset] at legible
      rw [toJson, jsonItems_eq_map]
      refine .array ?_
      rw [List.forall_mem_map]
      intro element present
      exact ih element present (legible element present)
  | sequence items ih => exact absurd legible not_textual_sequence

theorem ofName_name {key : Key} (classified : key.Classified) : Key.ofName key.name = key := by
  cases key with
  | operator op => simp [Key.ofName, Key.name]
  | field name =>
      have absent : Operator.ofName? name = none := classified
      simp [Key.ofName, Key.name, absent]

/-- A tree comes back from its JSON value. -/
theorem lift_ofJson_toJson (proper : node.Proper) (legible : node.Textual Scalar.Legible) :
    (ofJson node.toJson).lift = node := by
  induction node with
  | scalar value =>
      rw [textual_scalar] at legible
      cases value with
      | date value => exact legible.elim
      | _ => rfl
  | mapping entries ih =>
      rw [proper_mapping] at proper
      rw [textual_mapping] at legible
      have sameKeys :
          Entries.keys (ofJsonMembers (jsonMembers entries)) = Entries.keys entries := by
        rw [ofJsonMembers_eq_map, jsonMembers_eq_map, Entries.keys, List.map_map, List.map_map]
        apply List.map_congr_left
        intro entry present
        exact ofName_name (legible.1 entry.1 (List.mem_map_of_mem present))
      have same : (ofJsonMembers (jsonMembers entries)).map (fun entry =>
          (entry.1, entry.2.lift)) = entries := by
        rw [ofJsonMembers_eq_map, jsonMembers_eq_map, List.map_map, List.map_map]
        refine (List.map_congr_left ?_).trans (List.map_id entries)
        intro entry present
        have sameKey := ofName_name (legible.1 entry.1 (List.mem_map_of_mem present))
        have sameValue := ih entry present (proper.2 entry present) (legible.2 entry present)
        exact Prod.ext sameKey sameValue
      have distinct := sameKeys ▸ proper.1
      rw [toJson, ofJson, Entries.ofList_of_distinct distinct, lift_mapping distinct, same]
  | multiset elements ih =>
      rw [proper_multiset] at proper
      rw [textual_multiset] at legible
      have same : (ofJsonItems (jsonItems elements)).map lift = elements := by
        rw [ofJsonItems_eq_map, jsonItems_eq_map, List.map_map, List.map_map]
        refine (List.map_congr_left ?_).trans (List.map_id elements)
        intro element present
        exact ih element present (proper.2 element present) (legible element present)
      rw [toJson, ofJson, lift_sequence, same, Elements.ofList_of_unequal proper.1]
  | sequence items ih => exact absurd legible not_textual_sequence

/-- Only the null is written as null. -/
theorem toJson_ne_null (notNull : node ≠ .scalar .null) : node.toJson ≠ .null := by
  cases node with
  | scalar value =>
      cases value with
      | null => exact absurd rfl notNull
      | _ => simp [toJson, Scalar.toJson]
  | _ => simp [toJson]

theorem parse?_of_read? {text : String} {value : Json} (notBlank : text.toList.all isBlank = false)
    (read : Json.read? text = some value) (notNull : value ≠ .null) :
    parse? text = some (ofJson value).lift := by
  cases value with
  | null => exact absurd rfl notNull
  | _ => simp [parse?, parseRaw?, notBlank, read]

/-- What is read from the text of a JSON value that nests at most 127 levels. -/
theorem parse?_compact {value : Json} (whole : value.Whole) (notNull : value ≠ .null) :
    parse? value.compact = if value.levels ≤ 127 then some (ofJson value).lift else none := by
  have notBlank : value.compact.toList.all isBlank = false := by
    rcases whole.exists_cons_chars with ⟨first, others, written, starts⟩
    simp [Json.compact, written, starts.not_blank]
  have read := Json.read?_compact whole
  rw [Json.depthLimit] at read
  split
  · next fits =>
    rw [if_pos fits] at read
    exact parse?_of_read? notBlank read notNull
  · next deep =>
    rw [if_neg deep] at read
    rw [parse?, parseRaw?, notBlank, read]
    rfl

/-- The text of a legible tree is read back as that tree if it nests at most 127 levels, and else
refused. -/
theorem parse?_text_of_legible (proper : node.Proper) (legible : node.Textual Scalar.Legible)
    (notNull : node ≠ .scalar .null) :
    parse? node.text = if node.levels ≤ 127 then some node else none := by
  rw [text, parse?_compact (whole_toJson legible) (toJson_ne_null notNull), levels_toJson,
    lift_ofJson_toJson proper legible]

/-- Reading undoes writing: a proper tree without sequences, dates and floats, whose fields do not
spell operators and which nests at most 127 levels, is what is read from its text, with its entries
and elements in the same order. -/
theorem parse_text_eq_some (node : Node) (proper : node.Proper) (plain : node.Textual Scalar.Plain)
    (shallow : node.levels ≤ 127) (notNull : node ≠ .scalar .null) :
    parse? node.text = some node := by
  have legible := plain.mono fun _ => Scalar.Plain.legible
  rw [parse?_text_of_legible proper legible notNull, if_pos shallow]

/-- A tree with escapes, negative numbers and nulls, some of them elements of a multiset. -/
def escapedNames : Node :=
  .mapping [(.field "a \"name\"\n\x01", .scalar .null), (.operator .among,
    .multiset [.scalar (.int (-9223372036854775808)), .scalar (.text "\\é\t"), .multiset [],
      .entry (.operator .and) (.scalar (.bool true))])]

theorem parse_text_eq_some_escapedNames :
    escapedNames.Proper ∧ escapedNames.Textual Scalar.Plain ∧ escapedNames.levels ≤ 127 ∧
      escapedNames ≠ .scalar .null ∧ parse? escapedNames.text = some escapedNames := by
  have proper : escapedNames.Proper := by
    simp [escapedNames, entry, Entries.keys, equal]
  have plain : escapedNames.Textual Scalar.Plain := by
    have unspelled : Operator.ofName? "a \"name\"\n\x01" = none := by decide
    simp [escapedNames, entry, Entries.keys, Scalar.Plain, Key.Classified, unspelled]
  have shallow : escapedNames.levels ≤ 127 := by decide
  have notNull : escapedNames ≠ .scalar .null := by simp [escapedNames]
  exact ⟨proper, plain, shallow, notNull,
    parse_text_eq_some escapedNames proper plain shallow notNull⟩

end Node

end FilterLang
