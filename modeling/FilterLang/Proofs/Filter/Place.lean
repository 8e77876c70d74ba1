import FilterLang.Proofs.Filter.Equality
import FilterLang.Validation.Position

/-!
# Places in a filter

A position leads to a tree inside a filter (`Node.at?`), and the tree there can be replaced
(`Node.replaceAt`). `Node.places` lists the positions of a filter with the trees that stand there:
first the filter itself, then what its entries or elements hold, in their order. In a proper filter
these are all trees that a position leads to. No position leads into a sequence.
-/

namespace FilterLang

namespace Entries

/-- Changes the value that a key is bound to. -/
def modify (key : Key) (change : Node → Node) : Entries → Entries
  | [] => []
  | (k, value) :: rest =>
    if k = key then (k, change value) :: rest else (k, value) :: modify key change rest

variable {key : Key} {entries : Entries}

theorem modify_of_absent (absent : get? key entries = none) (change : Node → Node) :
    modify key change entries = entries := by
  induction entries with
  | nil => rfl
  | cons entry rest ih =>
      rcases entry with ⟨first, value⟩
      by_cases same : first = key
      · simp [get?, same] at absent
      · simp only [get?, same, if_false] at absent
        simp [modify, same, ih absent]

/-- A bound key splits the entries, and a change concerns its value only. -/
theorem exists_split {value : Node} (found : get? key entries = some value) :
    ∃ before after, entries = before ++ (key, value) :: after ∧
      ∀ change, modify key change entries = before ++ (key, change value) :: after := by
  induction entries with
  | nil => simp [get?] at found
  | cons entry rest ih =>
      rcases entry with ⟨first, other⟩
      by_cases same : first = key
      · simp only [get?, same, if_true, Option.some.injEq] at found
        subst same found
        exact ⟨[], rest, rfl, fun change => by simp [modify]⟩
      · simp only [get?, same, if_false] at found
        rcases ih found with ⟨before, after, split, modified⟩
        refine ⟨(first, other) :: before, after, by simp [split], ?_⟩
        intro change
        simp [modify, same, modified change]

theorem get?_modify (change : Node → Node) :
    get? key (modify key change entries) = (get? key entries).map change := by
  induction entries with
  | nil => rfl
  | cons entry rest ih =>
      rcases entry with ⟨first, value⟩
      by_cases same : first = key
      · simp [modify, get?, same]
      · simp [modify, get?, same, ih]

end Entries

/-- An index splits the elements, and a change concerns the element there only. -/
theorem Elements.exists_split {elements : Elements} {index : Nat} {element : Node}
    (found : elements[index]? = some element) :
    ∃ before after, elements = before ++ element :: after ∧ before.length = index ∧
      ∀ change, elements.modify index change = before ++ change element :: after := by
  rcases List.getElem?_eq_some_iff.mp found with ⟨within, rfl⟩
  refine ⟨elements.take index, elements.drop (index + 1), ?_, ?_, ?_⟩
  · rw [← List.drop_eq_getElem_cons within, List.take_append_drop]
  · exact List.length_take_of_le (Nat.le_of_lt within)
  · intro change
    exact List.modify_eq_take_cons_drop within

namespace Node

section Positions

/-- The tree that a position leads to. -/
def at? : Node → Position → Option Node
  | node, [] => some node
  | .mapping entries, .key key :: rest => (Entries.get? key entries).bind (·.at? rest)
  | .multiset elements, .index index :: rest => elements[index]?.bind (·.at? rest)
  | _, _ :: _ => none
termination_by structural _ position => position

/-- Replaces the tree that a position leads to. A position that leads nowhere changes nothing. -/
def replaceAt : Node → Position → Node → Node
  | _, [], replacement => replacement
  | .mapping entries, .key key :: rest, replacement =>
    .mapping (Entries.modify key (·.replaceAt rest replacement) entries)
  | .multiset elements, .index index :: rest, replacement =>
    .multiset (elements.modify index (·.replaceAt rest replacement))
  | node, _ :: _, _ => node
termination_by structural _ position => position

variable {node replacement : Node} {step : Step} {rest : Position}

@[simp]
theorem replaceAt_nil : node.replaceAt [] replacement = replacement := by
  cases node <;> rfl

/-- A replacement inside a tree keeps its kind. -/
@[simp]
theorem kind_replaceAt_cons : (node.replaceAt (step :: rest) replacement).kind = node.kind := by
  cases node <;> cases step <;> rfl

@[simp]
theorem isMapping_replaceAt_cons :
    (node.replaceAt (step :: rest) replacement).isMapping = node.isMapping := by
  cases node <;> cases step <;> rfl

@[simp]
theorem isComposite_replaceAt_cons :
    (node.replaceAt (step :: rest) replacement).isComposite = node.isComposite := by
  cases node <;> cases step <;> rfl

@[simp]
theorem scalar?_replaceAt_cons :
    (node.replaceAt (step :: rest) replacement).scalar? = node.scalar? := by
  cases node <;> cases step <;> rfl

/-- A replacement stands where the replaced tree has stood. -/
theorem at?_replaceAt {position : Position} (present : (node.at? position).isSome = true) :
    (node.replaceAt position replacement).at? position = some replacement := by
  induction position generalizing node with
  | nil => simp [at?]
  | cons step rest ih =>
      cases node with
      | mapping entries =>
          cases step with
          | key key =>
              simp only [at?, Option.isSome_bind, Option.any_eq_true] at present
              rcases present with ⟨value, found, inside⟩
              simp [replaceAt, at?, Entries.get?_modify, found, ih inside]
          | index index => simp [at?] at present
      | multiset elements =>
          cases step with
          | key key => simp [at?] at present
          | index index =>
              simp only [at?, Option.isSome_bind, Option.any_eq_true] at present
              rcases present with ⟨element, found, inside⟩
              simp [replaceAt, at?, found, ih inside]
      | scalar value => simp [at?] at present
      | sequence items => simp [at?] at present

end Positions

end Node

section Places

/-- A position and the tree there. -/
structure Place where
  /-- The position. -/
  position : Position
  /-- The tree that it leads to. -/
  node : Node

/-- A place in a tree that a step leads to. -/
def Place.under (step : Step) (place : Place) : Place := ⟨step :: place.position, place.node⟩

namespace Node

mutual

/-- The places of a tree in preorder. -/
def places : Node → List Place
  | .mapping entries => ⟨[], .mapping entries⟩ :: entryPlaces entries
  | .multiset elements => ⟨[], .multiset elements⟩ :: elementPlaces 0 elements
  | node => [⟨[], node⟩]
termination_by structural node => node

/-- The places in the values of a mapping. -/
def entryPlaces : Entries → List Place
  | [] => []
  | (key, value) :: rest => value.places.map (.under (.key key)) ++ entryPlaces rest
termination_by structural entries => entries

/-- The places in a list of elements, of which the first has the given index. -/
def elementPlaces (index : Nat) : Elements → List Place
  | [] => []
  | element :: rest =>
    element.places.map (.under (.index index)) ++ elementPlaces (index + 1) rest
termination_by structural elements => elements

end

/-- The first place of a tree is the tree itself. -/
theorem exists_places (node : Node) : ∃ rest, node.places = ⟨[], node⟩ :: rest := by
  cases node with
  | mapping entries => exact ⟨entryPlaces entries, rfl⟩
  | multiset elements => exact ⟨elementPlaces 0 elements, rfl⟩
  | scalar value => exact ⟨[], rfl⟩
  | sequence items => exact ⟨[], rfl⟩

theorem mem_entryPlaces {entries : Entries} {place : Place} :
    place ∈ entryPlaces entries ↔
      ∃ entry ∈ entries, ∃ inner ∈ entry.2.places, inner.under (.key entry.1) = place := by
  induction entries with
  | nil => simp [entryPlaces]
  | cons entry rest ih => simp [entryPlaces, ih]

theorem mem_elementPlaces {elements : Elements} {index : Nat} {place : Place} :
    place ∈ elementPlaces index elements ↔
      ∃ (offset : Nat) (element : Node), elements[offset]? = some element ∧
        ∃ inner ∈ element.places, inner.under (.index (index + offset)) = place := by
  induction elements generalizing index with
  | nil => simp [elementPlaces]
  | cons element rest ih =>
      simp only [elementPlaces, List.mem_append, List.mem_map, ih]
      constructor
      · rintro (⟨inner, among, same⟩ | ⟨offset, other, found, inner, among, same⟩)
        · exact ⟨0, element, rfl, inner, among, same⟩
        · refine ⟨offset + 1, other, found, inner, among, ?_⟩
          rw [← same]
          congr 2
          omega
      · rintro ⟨_ | offset, other, found, inner, among, same⟩
        · cases found
          exact .inl ⟨inner, among, same⟩
        · refine .inr ⟨offset, other, found, inner, among, ?_⟩
          rw [← same]
          congr 2
          omega

/-- What stands at a place occurs in the tree. -/
theorem within_of_mem_places {node : Node} {place : Place} (present : place ∈ node.places) :
    Within place.node node := by
  induction node generalizing place with
  | mapping entries ih =>
      rcases List.mem_cons.mp present with rfl | below
      · exact .here
      · rcases mem_entryPlaces.mp below with ⟨entry, among, inner, inside, rfl⟩
        have deeper := ih entry among inside
        exact .entry among deeper
  | multiset elements ih =>
      rcases List.mem_cons.mp present with rfl | below
      · exact .here
      · rcases mem_elementPlaces.mp below with ⟨_, element, found, inner, inside, rfl⟩
        have among := List.mem_of_getElem? found
        have deeper := ih element among inside
        exact .element among deeper
  | _ =>
      rw [places, List.mem_singleton] at present
      · rw [present]
        exact .here
      all_goals simp

/-- The places of a proper tree are what its positions lead to. -/
theorem mem_places {node inner : Node} (proper : node.Proper) {position : Position} :
    ⟨position, inner⟩ ∈ node.places ↔ node.at? position = some inner := by
  induction node generalizing position inner with
  | scalar value => cases position <;> simp [places, at?, @eq_comm Node inner]
  | mapping entries ih =>
      rw [proper_mapping] at proper
      rcases position with _ | ⟨key | index, rest⟩
      · rw [at?, Option.some.injEq, eq_comm]
        simp [places, mem_entryPlaces, Place.under]
      · simp only [places, at?, List.mem_cons, mem_entryPlaces, Option.bind_eq_some_iff]
        constructor
        · rintro (same | ⟨⟨_, value⟩, present, ⟨position, node⟩, among, same⟩)
          · cases same
          · cases same
            have found := Entries.get?_of_mem proper.1 present
            exact ⟨value, found, (ih _ present (proper.2 _ present)).mp among⟩
        · rintro ⟨value, found, leads⟩
          have present := Entries.mem_of_get? found
          have among := (ih _ present (proper.2 _ present)).mpr leads
          exact .inr ⟨_, present, _, among, rfl⟩
      · simp [places, at?, mem_entryPlaces, Place.under]
  | multiset elements ih =>
      rw [proper_multiset] at proper
      rcases position with _ | ⟨key | index, rest⟩
      · rw [at?, Option.some.injEq, eq_comm]
        simp [places, mem_elementPlaces, Place.under]
      · simp [places, at?, mem_elementPlaces, Place.under]
      · simp only [places, at?, List.mem_cons, mem_elementPlaces, Option.bind_eq_some_iff,
          Nat.zero_add]
        constructor
        · rintro (same | ⟨offset, element, found, ⟨position, node⟩, among, same⟩)
          · cases same
          · cases same
            have present := List.mem_of_getElem? found
            exact ⟨element, found, (ih _ present (proper.2 _ present)).mp among⟩
        · rintro ⟨element, found, leads⟩
          have present := List.mem_of_getElem? found
          have among := (ih _ present (proper.2 _ present)).mpr leads
          exact .inr ⟨index, element, found, _, among, rfl⟩
  | sequence items => cases position <;> simp [places, at?, @eq_comm Node inner]

end Node

end Places

end FilterLang
