import FilterLang.Filter.Node
import Mathlib.Data.List.Forall2

/-!
# Traversals that may fail

A traversal applies a function that may fail to each member of a list and keeps the results in
order. It succeeds exactly if the function does so on every member, and `List.Forall₂` then relates
each member to its result.
-/

namespace FilterLang

section Except

variable {ε α β : Type}

theorem bind_eq_ok {first : Except ε α} {next : α → Except ε β} {result : β} :
    (first >>= next) = .ok result ↔ ∃ value, first = .ok value ∧ next value = .ok result := by
  cases first <;> simp [bind, Except.bind]

theorem bind_unit_eq_ok {first : Except ε Unit} {next : Unit → Except ε β} {result : β} :
    (first >>= next) = .ok result ↔ first = .ok () ∧ next () = .ok result := by
  cases first <;> simp [bind, Except.bind]

theorem map_eq_ok {f : α → β} {first : Except ε α} {result : β} :
    first.map f = .ok result ↔ ∃ value, first = .ok value ∧ f value = result := by
  cases first <;> simp [Except.map]

theorem exists_map_eq_ok {f : α → β} {first : Except ε α} :
    (∃ result, first.map f = .ok result) ↔ ∃ value, first = .ok value := by
  cases first <;> simp [Except.map]

theorem mapError_eq_ok {φ : Type} {f : ε → φ} {first : Except ε α} {result : α} :
    first.mapError f = .ok result ↔ first = .ok result := by
  cases first <;> simp [Except.mapError]

theorem mapError_bind {φ : Type} {f : ε → φ} {first : Except ε α} {next : α → Except ε β} :
    (first >>= next).mapError f = first.mapError f >>= fun value => (next value).mapError f := by
  cases first <;> rfl

theorem mapError_mapError {φ ψ : Type} {f : ε → φ} {g : φ → ψ} {first : Except ε α} :
    (first.mapError f).mapError g = first.mapError fun error => g (f error) := by
  cases first <;> rfl

theorem bind_ok_eq_map {f : α → β} {first : Except ε α} :
    (first >>= fun value => .ok (f value)) = first.map f := by
  cases first <;> rfl

theorem map_map {γ : Type} (f : α → β) (g : β → γ) (first : Except ε α) :
    (first.map f).map g = first.map fun value => g (f value) := by
  cases first <;> rfl

theorem mapM_eq_ok {f : α → Except ε β} {list : List α} {results : List β} :
    list.mapM f = .ok results ↔
      List.Forall₂ (fun member result => f member = .ok result) list results := by
  induction list generalizing results with
  | nil =>
      rw [List.mapM_nil, List.forall₂_nil_left_iff]
      simp only [pure, Except.pure, Except.ok.injEq]
      exact eq_comm
  | cons member rest ih =>
      rw [List.mapM_cons, bind_eq_ok, List.forall₂_cons_left_iff]
      simp only [bind_eq_ok, ih, pure, Except.pure, Except.ok.injEq]
      constructor
      · rintro ⟨result, first, others, related, rfl⟩
        exact ⟨result, others, first, related, rfl⟩
      · rintro ⟨result, others, first, related, rfl⟩
        exact ⟨result, first, others, related, rfl⟩

/-- A traversal relates members and results as the function does. -/
theorem mapM_eq_ok_iff_forall₂ {f : α → Except ε β} {relation : α → β → Prop}
    (related : ∀ member result, f member = .ok result ↔ relation member result) {list : List α}
    {results : List β} : list.mapM f = .ok results ↔ List.Forall₂ relation list results := by
  rw [mapM_eq_ok]
  simp only [related]

/-- A traversal by a function that succeeds on every member succeeds. -/
theorem exists_forall₂ {relation : α → β → Prop} {list : List α}
    (partner : ∀ member ∈ list, ∃ result, relation member result) :
    ∃ results, List.Forall₂ relation list results := by
  induction list with
  | nil => exact ⟨[], .nil⟩
  | cons member rest ih =>
      rcases partner member List.mem_cons_self with ⟨result, related⟩
      rcases ih (fun other present => partner other (List.mem_cons_of_mem _ present)) with
        ⟨results, others⟩
      exact ⟨result :: results, .cons related others⟩

end Except

section Forall₂

variable {α β : Type} {relation : α → β → Prop} {list : List α} {results : List β}

theorem exists_result (related : List.Forall₂ relation list results) {member : α}
    (present : member ∈ list) : ∃ result ∈ results, relation member result := by
  induction related with
  | nil => simp at present
  | cons first _ ih =>
      rcases List.mem_cons.mp present with rfl | later
      · exact ⟨_, List.mem_cons_self, first⟩
      · rcases ih later with ⟨result, among, holds⟩
        exact ⟨result, List.mem_cons_of_mem _ among, holds⟩

theorem exists_forall₂_iff :
    (∃ results, List.Forall₂ relation list results) ↔
      ∀ member ∈ list, ∃ result, relation member result := by
  constructor
  · rintro ⟨results, related⟩ member present
    rcases exists_result related present with ⟨result, _, holds⟩
    exact ⟨result, holds⟩
  · exact exists_forall₂

theorem exists_source (related : List.Forall₂ relation list results) {result : β}
    (present : result ∈ results) : ∃ member ∈ list, relation member result :=
  exists_result related.flip present

theorem forall₂_imp_of_mem {other : α → β → Prop} (related : List.Forall₂ relation list results)
    (implies : ∀ member ∈ list, ∀ result, relation member result → other member result) :
    List.Forall₂ other list results := by
  induction related with
  | nil => exact .nil
  | cons first _ ih =>
      refine .cons (implies _ List.mem_cons_self _ first) (ih ?_)
      intro member present
      exact implies member (List.mem_cons_of_mem _ present)

theorem forall₂_congr_of_mem {other : α → β → Prop}
    (same : ∀ member ∈ list, ∀ result, relation member result ↔ other member result) :
    List.Forall₂ relation list results ↔ List.Forall₂ other list results := by
  constructor
  · intro related
    exact forall₂_imp_of_mem related fun member present result => (same member present result).mp
  · intro related
    exact forall₂_imp_of_mem related fun member present result => (same member present result).mpr

theorem forall_congr_of_forall₂ {property : α → Prop} {other : β → Prop}
    (related : List.Forall₂ relation list results)
    (same : ∀ member ∈ list, ∀ result, relation member result → (property member ↔ other result)) :
    (∀ member ∈ list, property member) ↔ ∀ result ∈ results, other result := by
  induction related with
  | nil => simp
  | cons first _ ih =>
      rw [List.forall_mem_cons, List.forall_mem_cons, same _ List.mem_cons_self _ first, ih]
      intro member present
      exact same member (List.mem_cons_of_mem _ present)

theorem map_eq_map_of_forall₂ {γ : Type*} {f : α → γ} {g : β → γ}
    (related : List.Forall₂ relation list results)
    (same : ∀ member ∈ list, ∀ result, relation member result → f member = g result) :
    list.map f = results.map g := by
  induction related with
  | nil => rfl
  | cons first _ ih =>
      rw [List.map_cons, List.map_cons, same _ List.mem_cons_self _ first, ih]
      intro member present
      exact same member (List.mem_cons_of_mem _ present)

end Forall₂

section Faults

variable {ε α β : Type}

theorem bind_eq_error {first : Except ε α} {next : α → Except ε β} {error : ε} :
    (first >>= next) = .error error ↔
      first = .error error ∨ ∃ value, first = .ok value ∧ next value = .error error := by
  cases first <;> simp [bind, Except.bind]

theorem map_eq_error {f : α → β} {first : Except ε α} {error : ε} :
    first.map f = .error error ↔ first = .error error := by
  cases first <;> simp [Except.map]

/-- A traversal fails where a member fails and all members before it succeed. -/
theorem mapM_eq_error {f : α → Except ε β} {list : List α} {error : ε} :
    list.mapM f = .error error ↔
      ∃ before member after, list = before ++ member :: after ∧
        (∀ other ∈ before, ∃ result, f other = .ok result) ∧ f member = .error error := by
  induction list with
  | nil => simp [pure, Except.pure]
  | cons first rest ih =>
      have finishes : ∀ result results,
          (pure (result :: results) : Except ε (List β)) ≠ .error error := by
        intro result results impossible
        cases impossible
      simp only [List.mapM_cons, bind_eq_error, ih, finishes, and_false, exists_false, or_false]
      constructor
      · rintro (fails | ⟨result, succeeds, before, member, after, rfl, earlier, fails⟩)
        · exact ⟨[], first, rest, rfl, by simp, fails⟩
        · exact ⟨first :: before, member, after, rfl,
            List.forall_mem_cons.mpr ⟨⟨result, succeeds⟩, earlier⟩, fails⟩
      · rintro ⟨_ | ⟨first, before⟩, member, after, split, earlier, fails⟩
        · cases split
          exact .inl fails
        · cases split
          rcases List.forall_mem_cons.mp earlier with ⟨⟨result, succeeds⟩, earlier⟩
          exact .inr ⟨result, succeeds, before, member, after, rfl, earlier, fails⟩

theorem exists_of_mapM_eq_error {f : α → Except ε β} {list : List α} {error : ε}
    (fails : list.mapM f = .error error) : ∃ member ∈ list, f member = .error error := by
  rcases mapM_eq_error.mp fails with ⟨before, member, after, rfl, _, memberFails⟩
  exact ⟨member, by simp, memberFails⟩

theorem forM_eq_map_mapM {f : α → Except ε Unit} {list : List α} :
    list.forM f = (list.mapM f).map fun _ => () := by
  induction list with
  | nil => rfl
  | cons first rest ih =>
      change (f first >>= fun _ => rest.forM f) = _
      rw [ih, List.mapM_cons]
      cases f first with
      | error error => rfl
      | ok value => cases rest.mapM f <;> rfl

/-- A traversal succeeds exactly if every member does. -/
theorem exists_mapM_eq_ok {f : α → Except ε β} {list : List α} :
    (∃ results, list.mapM f = .ok results) ↔
      ∀ member ∈ list, ∃ result, f member = .ok result := by
  simp only [mapM_eq_ok, exists_forall₂_iff]

end Faults

section Rel

variable {α β : Type} {relation : α → β → Prop}

theorem eq_none_of_rel {option : Option β} (related : Option.Rel relation none option) :
    option = none := by
  cases related
  rfl

theorem exists_of_rel {member : α} {option : Option β}
    (related : Option.Rel relation (some member) option) :
    ∃ result, option = some result ∧ relation member result := by
  cases related with
  | some holds => exact ⟨_, rfl, holds⟩

theorem cases_of_rel {option : Option α} {other : Option β}
    (related : Option.Rel relation option other) :
    (option = none ∧ other = none) ∨
      ∃ member result, option = some member ∧ other = some result ∧ relation member result := by
  cases related with
  | none => exact .inl ⟨rfl, rfl⟩
  | some holds => exact .inr ⟨_, _, rfl, rfl, holds⟩

end Rel

namespace Entries

/-- Two entries correspond: they have one key, and values in a relation. -/
def Corresponds (relation : Node → Node → Prop) (entry other : Key × Node) : Prop :=
  other.1 = entry.1 ∧ relation entry.2 other.2

theorem traverse_eq_ok {ε : Type} {f : Node → Except ε Node} {entries results : Entries} :
    traverse f entries = .ok results ↔
      List.Forall₂ (Corresponds fun value result => f value = .ok result) entries results := by
  rw [traverse, mapM_eq_ok]
  have same : ∀ entry result : Key × Node,
      (f entry.2).map (Prod.mk entry.1) = .ok result ↔
        Corresponds (fun value result => f value = .ok result) entry result := by
    rintro ⟨key, value⟩ ⟨resultKey, resultValue⟩
    rw [map_eq_ok, Corresponds]
    grind
  constructor
  · exact List.Forall₂.imp fun entry result => (same entry result).mp
  · exact List.Forall₂.imp fun entry result => (same entry result).mpr

theorem map_traverse_eq_ok {ε : Type} {f : Node → Except ε Node} {entries : Entries}
    {result : Node} :
    (traverse f entries).map .mapping = .ok result ↔
      ∃ results, List.Forall₂ (Corresponds fun value result => f value = .ok result) entries
        results ∧ result = .mapping results := by
  simp only [map_eq_ok, traverse_eq_ok]
  constructor
  · rintro ⟨results, related, rfl⟩
    exact ⟨results, related, rfl⟩
  · rintro ⟨results, related, rfl⟩
    exact ⟨results, related, rfl⟩

theorem exists_of_traverse_eq_error {ε : Type} {f : Node → Except ε Node} {entries : Entries}
    {error : ε} (fails : traverse f entries = .error error) :
    ∃ entry ∈ entries, f entry.2 = .error error := by
  rcases exists_of_mapM_eq_error fails with ⟨entry, present, entryFails⟩
  exact ⟨entry, present, map_eq_error.mp entryFails⟩

section Related

variable {relation : Node → Node → Prop} {entries results : Entries}

theorem keys_eq_of_forall₂
    (related : List.Forall₂ (Corresponds relation) entries results) :
    keys results = keys entries := by
  induction related with
  | nil => rfl
  | cons first _ ih =>
      simp only [keys, List.map_cons] at ih ⊢
      rw [first.1, ih]

theorem get?_of_forall₂
    (related : List.Forall₂ (Corresponds relation) entries results) (key : Key) :
    Option.Rel relation (get? key entries) (get? key results) := by
  induction related with
  | nil => exact .none
  | @cons entry result _ _ first _ ih =>
      rcases entry with ⟨entryKey, value⟩
      rcases result with ⟨resultKey, resultValue⟩
      rcases first with ⟨rfl, holds⟩
      by_cases same : resultKey = key
      · simpa only [get?, same, if_true] using Option.Rel.some holds
      · simpa only [get?, same, if_false] using ih

end Related

end Entries

namespace Elements

theorem traverse_eq_ok {ε : Type} {f : Node → Except ε Node} {elements results : Elements} :
    traverse f elements = .ok results ↔
      ∃ values, List.Forall₂ (fun element value => f element = .ok value) elements values ∧
        ofList values = results := by
  rw [traverse, bind_eq_ok]
  simp only [mapM_eq_ok, Except.ok.injEq]

theorem exists_traverse_eq_ok {ε : Type} {f : Node → Except ε Node} {elements : Elements} :
    (∃ results, traverse f elements = .ok results) ↔
      ∀ element ∈ elements, ∃ result, f element = .ok result := by
  rw [traverse, bind_ok_eq_map, exists_map_eq_ok, exists_mapM_eq_ok]

theorem map_traverse_eq_ok {ε : Type} {f : Node → Except ε Node} {elements : Elements}
    {result : Node} :
    (traverse f elements).map .multiset = .ok result ↔
      ∃ values, List.Forall₂ (fun element value => f element = .ok value) elements values ∧
        result = .multiset (ofList values) := by
  simp only [map_eq_ok, traverse_eq_ok]
  constructor
  · rintro ⟨_, ⟨values, related, rfl⟩, rfl⟩
    exact ⟨values, related, rfl⟩
  · rintro ⟨values, related, rfl⟩
    exact ⟨_, ⟨values, related, rfl⟩, rfl⟩

theorem exists_of_traverse_eq_error {ε : Type} {f : Node → Except ε Node} {elements : Elements}
    {error : ε} (fails : traverse f elements = .error error) :
    ∃ element ∈ elements, f element = .error error := by
  rcases bind_eq_error.mp fails with elementFails | ⟨_, _, impossible⟩
  · exact exists_of_mapM_eq_error elementFails
  · cases impossible

end Elements

end FilterLang
