import FilterLang.Dataset.Registry
import FilterLang.Proofs.Filter.Traversal
import FilterLang.Proofs.Table

/-!
# Datasets by name

What is registered under a name is found under that name and no other, so in a registry that was
built step by step every dataset is found under its own name. A view consists of what its registry
finds: the dataset itself, and one dataset for each foreign name, in the same order.
-/

namespace FilterLang

namespace Registry

/-- A registry that starts out empty and is filled by registering datasets and choosing defaults. -/
inductive Built : Registry → Prop
  | empty : Built .empty
  | register {registry next : Registry} {dataset : Dataset} (built : registry.Built)
      (registered : registry.register dataset = .ok next) : Built next
  | setDefault {registry next : Registry} {name : String} (built : registry.Built)
      (chosen : registry.setDefault name = .ok next) : Built next

variable {registry next : Registry} {name : String} {dataset found : Dataset}

theorem mem_names : name ∈ registry.names ↔ ∃ dataset, registry.find? name = some dataset :=
  Table.mem_names

theorem register_eq_ok :
    registry.register dataset = .ok next ↔
      dataset.name ∉ registry.names ∧
        { datasets := registry.datasets.insert dataset.name dataset
          default? := registry.default?.or (some dataset.name) } = next := by
  rw [register, names, ← Table.has_iff]
  split <;> simp_all

theorem setDefault_eq_ok :
    registry.setDefault name = .ok next ↔
      name ∈ registry.names ∧ { registry with default? := some name } = next := by
  rw [setDefault, names, ← Table.has_iff]
  split <;> simp_all

theorem find?_register (registered : registry.register dataset = .ok next) :
    next.find? name = if name == dataset.name then some dataset else registry.find? name := by
  rcases register_eq_ok.mp registered with ⟨_, rfl⟩
  exact Table.find?_insert

theorem find?_setDefault {default : String} (chosen : registry.setDefault default = .ok next) :
    next.find? name = registry.find? name := by
  rcases setDefault_eq_ok.mp chosen with ⟨_, rfl⟩
  rfl

/-- A dataset is found under its own name. -/
theorem name_of_find? (built : registry.Built) (finds : registry.find? name = some found) :
    found.name = name := by
  induction built with
  | empty => cases finds
  | register _ registered ih =>
      rw [find?_register registered] at finds
      split at finds
      · next same =>
        cases finds
        exact (beq_iff_eq.mp same).symm
      · exact ih finds
  | setDefault _ chosen ih =>
      rw [find?_setDefault chosen] at finds
      exact ih finds

section View

variable {view : View}

theorem resolve_eq_ok {names : List String} {datasets : List Dataset} :
    registry.resolve name names = .ok datasets ↔
      List.Forall₂ (fun foreign dataset => registry.find? foreign = some dataset) names datasets := by
  induction names generalizing datasets with
  | nil => simp [resolve, eq_comm]
  | cons foreign rest ih =>
      rw [List.forall₂_cons_left_iff]
      cases finds : registry.find? foreign with
      | none => simp [resolve, finds]
      | some found =>
          simp only [resolve, finds, bind_eq_ok, ih, Except.ok.injEq, Option.some.injEq]
          constructor
          · rintro ⟨others, resolved, rfl⟩
            exact ⟨found, others, rfl, resolved, rfl⟩
          · rintro ⟨_, others, rfl, resolved, rfl⟩
            exact ⟨others, resolved, rfl⟩

/-- A view holds what its registry finds under the names that it is made of. -/
theorem view_eq_ok :
    registry.view name = .ok view ↔
      registry.find? name = some view.root ∧
        List.Forall₂ (fun foreign dataset => registry.find? foreign = some dataset)
          view.root.foreigns view.foreigns := by
  rcases view with ⟨root, foreigns⟩
  cases finds : registry.find? name with
  | none => simp [Registry.view, finds]
  | some found =>
      simp only [Registry.view, finds, bind_eq_ok, resolve_eq_ok, Except.ok.injEq,
        Option.some.injEq, View.mk.injEq]
      constructor
      · rintro ⟨others, resolved, rfl, rfl⟩
        exact ⟨rfl, resolved⟩
      · rintro ⟨rfl, resolved⟩
        exact ⟨foreigns, resolved, rfl, rfl⟩

end View

end Registry

end FilterLang
