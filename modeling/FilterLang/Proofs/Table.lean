import FilterLang.Proofs.Filter.Traversal
import FilterLang.Table
import Mathlib.Data.List.Induction

/-!
# Tables

A name is found in a table under its last binding. Bindings in ascending order make up a table as
they stand, whether the table is built from them or they are added to a table of lesser names.
Tables are aligned if they bind the same names, to values that are related under each name.
-/

namespace FilterLang

namespace Table

variable {α : Type} {name other : String} {value : α}

theorem lookup_insertEntry {entries : List (String × α)} :
    (insertEntry name value entries).lookup other =
      if other == name then some value else entries.lookup other := by
  induction entries with
  | nil => cases same : other == name <;> simp [insertEntry, List.lookup_cons, same]
  | cons entry rest ih =>
      rcases entry with ⟨first, present⟩
      simp only [insertEntry]
      split
      · cases same : other == name <;> simp [List.lookup_cons, same]
      · split
        · next sameName =>
          subst sameName
          cases same : other == name <;> simp [List.lookup_cons, same]
        · next different =>
          rw [List.lookup_cons, List.lookup_cons, ih]
          cases here : other == first with
          | false => rfl
          | true =>
              rw [beq_iff_eq] at here
              simp [here, Ne.symm different]

theorem find?_insert {table : Table α} :
    (table.insert name value).find? other =
      if other == name then some value else table.find? other :=
  lookup_insertEntry

theorem mem_names {table : Table α} :
    name ∈ table.names ↔ ∃ value, table.find? name = some value := by
  rcases table with ⟨entries, ascending⟩
  simp only [names, find?]
  clear ascending
  induction entries with
  | nil => simp
  | cons entry rest ih =>
      rw [List.map_cons, List.mem_cons, List.lookup_cons, ih]
      cases same : name == entry.1 with
      | true => simp [beq_iff_eq.mp same]
      | false =>
          have different : name ≠ entry.1 := by simpa using same
          simp [different]

theorem has_iff {table : Table α} : table.has name = true ↔ name ∈ table.names := by
  rw [mem_names, has, Option.isSome_iff_exists]

theorem names_ascending (table : Table α) : table.names.Pairwise (· < ·) :=
  List.pairwise_map.mpr table.ascending

/-- What a name is bound to is found under it, since no name is bound twice. -/
theorem find?_eq_some {table : Table α} :
    table.find? name = some value ↔ (name, value) ∈ table.entries := by
  rcases table with ⟨entries, ascending⟩
  simp only [find?]
  induction entries with
  | nil => simp
  | cons entry rest ih =>
      rcases entry with ⟨first, present⟩
      rcases List.pairwise_cons.mp ascending with ⟨above, ascending⟩
      rw [List.lookup_cons, List.mem_cons]
      cases same : name == first with
      | false =>
          have different : name ≠ first := by simpa using same
          simp [ih ascending, different]
      | true =>
          rw [beq_iff_eq] at same
          subst same
          have notLater : (name, value) ∉ rest := fun later =>
            String.lt_irrefl name (above (name, value) later)
          simp [notLater, eq_comm]

theorem ext_entries {table other : Table α} (same : table.entries = other.entries) :
    table = other := by
  rcases table with ⟨entries, ascending⟩
  rcases other with ⟨others, otherAscending⟩
  simp only at same
  subst same
  rfl

section Ascending

theorem insertEntry_of_forall_lt {entries : List (String × α)}
    (last : ∀ entry ∈ entries, entry.1 < name) :
    insertEntry name value entries = entries ++ [(name, value)] := by
  induction entries with
  | nil => rfl
  | cons entry rest ih =>
      rcases entry with ⟨first, present⟩
      have less : first < name := last (first, present) List.mem_cons_self
      have notLess : ¬ name < first := fun greater =>
        String.lt_irrefl name (String.lt_trans greater less)
      have different : name ≠ first := by
        rintro rfl
        exact notLess less
      rw [insertEntry, if_neg notLess, if_neg different, List.cons_append, ih]
      intro entry later
      exact last entry (List.mem_cons_of_mem _ later)

/-- A name after all names of a table is bound at its end. -/
theorem entries_insert {table : Table α} (last : ∀ other ∈ table.names, other < name) :
    (table.insert name value).entries = table.entries ++ [(name, value)] := by
  apply insertEntry_of_forall_lt
  intro entry present
  exact last entry.1 (List.mem_map_of_mem present)

/-- Bindings in ascending order are a table as they stand. -/
theorem entries_ofList {bindings : List (String × α)}
    (ascending : (bindings.map (·.1)).Pairwise (· < ·)) : (ofList bindings).entries = bindings := by
  induction bindings using List.reverseRecOn with
  | nil => rfl
  | append_singleton before last ih =>
      rw [List.map_append, List.pairwise_append] at ascending
      rcases ascending with ⟨earlier, _, below⟩
      have built : (ofList (before ++ [last])) = (ofList before).insert last.1 last.2 := by
        simp [ofList, List.foldl_append]
      rw [built, entries_insert, ih earlier]
      intro other present
      rw [names, ih earlier] at present
      exact below other present last.1 (by simp)

end Ascending

section Aligned

variable {β : Type} {relation : String → α → β → Prop} {entries : List (String × α)}
  {others : List (String × β)}

/-- Bindings of the same names in the same order, to values that are related under each name. -/
def Aligned (relation : String → α → β → Prop) :
    List (String × α) → List (String × β) → Prop :=
  List.Forall₂ fun entry other => other.1 = entry.1 ∧ relation entry.1 entry.2 other.2

theorem Aligned.map_fst (aligned : Aligned relation entries others) :
    others.map (·.1) = entries.map (·.1) := by
  induction aligned with
  | nil => rfl
  | cons first _ ih => rw [List.map_cons, List.map_cons, first.1, ih]

theorem Aligned.lookup (aligned : Aligned relation entries others) (name : String) :
    Option.Rel (relation name) (entries.lookup name) (others.lookup name) := by
  induction aligned with
  | nil => exact .none
  | @cons entry other _ _ first _ ih =>
      rcases entry with ⟨entryName, value⟩
      rcases other with ⟨otherName, result⟩
      rcases first with ⟨rfl, related⟩
      rw [List.lookup_cons, List.lookup_cons]
      cases same : name == otherName with
      | false => exact ih
      | true =>
          rw [beq_iff_eq] at same
          subst same
          exact .some related

theorem Aligned.imp {other : String → α → β → Prop} (aligned : Aligned relation entries others)
    (implies : ∀ name value result, relation name value result → other name value result) :
    Aligned other entries others :=
  List.Forall₂.imp (fun _ _ bound => ⟨bound.1, implies _ _ _ bound.2⟩) aligned

theorem exists_aligned :
    (∃ others, Aligned relation entries others) ↔
      ∀ entry ∈ entries, ∃ result, relation entry.1 entry.2 result := by
  constructor
  · rintro ⟨others, aligned⟩ entry present
    rcases exists_result aligned present with ⟨other, _, _, related⟩
    exact ⟨other.2, related⟩
  · intro related
    apply exists_forall₂
    intro entry present
    rcases related entry present with ⟨result, related⟩
    exact ⟨(entry.1, result), rfl, related⟩

/-- A traversal of bindings that keeps their names aligns them with its results. -/
theorem mapM_eq_ok_iff_aligned {ε : Type} {f : String → α → Except ε β} :
    (entries.mapM fun entry => (f entry.1 entry.2).map fun value => (entry.1, value)) = .ok others ↔
      Aligned (fun name value result => f name value = .ok result) entries others := by
  apply mapM_eq_ok_iff_forall₂
  rintro ⟨name, value⟩ ⟨otherName, result⟩
  rw [map_eq_ok]
  grind

end Aligned

end Table

end FilterLang
