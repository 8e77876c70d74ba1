import FilterLang.Proofs.Dataset.Registry

/-!
# The check of a registry

A registry passes the check exactly if every dataset has a view, which is to say that the foreign
names of all datasets are registered. Otherwise the check reports the first gap: the first dataset
in the order of the names that has one, and its first foreign name that is missing.
-/

namespace FilterLang

namespace Registry

variable {registry : Registry} {name dataset foreign : String} {error : RegistryError}

/-- The first gap in the foreign names of the datasets. -/
structure FirstGap (registry : Registry) (dataset foreign : String) : Prop where
  /-- The dataset declares the foreign name, and the names that it declares before are there. -/
  declared : ∃ found before after, registry.find? dataset = some found ∧
    found.foreigns = before ++ foreign :: after ∧ ∀ other ∈ before, other ∈ registry.names
  /-- No dataset has the foreign name. -/
  missing : foreign ∉ registry.names
  /-- What the datasets with lesser names declare is there. -/
  earlier : ∀ lesser found, lesser < dataset → registry.find? lesser = some found →
    ∀ other ∈ found.foreigns, other ∈ registry.names

/-- The dataset that a foreign name stands for. -/
def neighbour (registry : Registry) (dataset name : String) : Except RegistryError Dataset :=
  match registry.find? name with
  | some found => .ok found
  | none => .error (.unknownForeign dataset name)

theorem resolve_eq_mapM (names : List String) :
    registry.resolve dataset names = names.mapM (registry.neighbour dataset) := by
  induction names with
  | nil => rfl
  | cons first rest ih =>
      rw [resolve, List.mapM_cons, neighbour, ih]
      cases registry.find? first with
      | none => rfl
      | some found => rfl

theorem neighbour_eq_error :
    registry.neighbour dataset name = .error error ↔
      name ∉ registry.names ∧ error = .unknownForeign dataset name := by
  rw [mem_names, neighbour]
  cases registry.find? name with
  | none => simp [eq_comm]
  | some found => simp

theorem exists_neighbour_eq_ok :
    (∃ found, registry.neighbour dataset name = .ok found) ↔ name ∈ registry.names := by
  rw [mem_names, neighbour]
  cases registry.find? name <;> simp

/-- A registered dataset has a view exactly if its foreign names are registered. -/
theorem exists_view_eq_ok {found : Dataset} (finds : registry.find? name = some found) :
    (∃ view, registry.view name = .ok view) ↔ ∀ other ∈ found.foreigns, other ∈ registry.names := by
  have resolved : (∃ datasets, registry.resolve name found.foreigns = .ok datasets) ↔
      ∀ other ∈ found.foreigns, other ∈ registry.names := by
    simp only [resolve_eq_mapM, exists_mapM_eq_ok, exists_neighbour_eq_ok]
  rw [← resolved]
  simp only [view, finds, bind_eq_ok, Except.ok.injEq]
  constructor
  · rintro ⟨view, datasets, succeeds, rfl⟩
    exact ⟨datasets, succeeds⟩
  · rintro ⟨datasets, succeeds⟩
    exact ⟨_, datasets, succeeds, rfl⟩

/-- The view of a registered dataset fails at the first of its foreign names that is missing. -/
theorem view_eq_error {found : Dataset} (finds : registry.find? name = some found) :
    registry.view name = .error error ↔
      ∃ before foreign after, found.foreigns = before ++ foreign :: after ∧
        (∀ other ∈ before, other ∈ registry.names) ∧ foreign ∉ registry.names ∧
        error = .unknownForeign name foreign := by
  have fails : registry.view name = .error error ↔
      registry.resolve name found.foreigns = .error error := by
    simp [view, finds, bind_eq_error]
  rw [fails, resolve_eq_mapM, mapM_eq_error]
  simp only [exists_neighbour_eq_ok, neighbour_eq_error]

theorem names_ascending (registry : Registry) : registry.names.Pairwise (· < ·) :=
  registry.datasets.names_ascending

theorem mem_before_iff {before after : List String}
    (split : registry.names = before ++ dataset :: after) :
    name ∈ before ↔ name ∈ registry.names ∧ name < dataset := by
  have ascending := registry.names_ascending
  rw [split, List.pairwise_append] at ascending
  rcases ascending with ⟨_, behind, below⟩
  rw [split]
  constructor
  · intro present
    exact ⟨List.mem_append_left _ present, below name present dataset List.mem_cons_self⟩
  · rintro ⟨present, less⟩
    rcases List.mem_append.mp present with before | later
    · exact before
    · rcases List.mem_cons.mp later with rfl | later
      · exact absurd less (String.lt_irrefl name)
      · have greater := (List.pairwise_cons.mp behind).1 name later
        exact absurd (String.lt_trans less greater) (String.lt_irrefl name)

/-- The check succeeds exactly if every dataset has a view. -/
theorem check_eq_ok :
    registry.check = .ok () ↔ ∀ name ∈ registry.names, ∃ view, registry.view name = .ok view := by
  rw [check, forM_eq_map_mapM, map_eq_ok]
  simp only [and_true, exists_mapM_eq_ok, map_eq_ok, exists_const]

/-- The check fails at the first gap. -/
theorem check_eq_error :
    registry.check = .error error ↔
      ∃ dataset foreign, error = .unknownForeign dataset foreign ∧
        registry.FirstGap dataset foreign := by
  rw [check, forM_eq_map_mapM, map_eq_error, mapM_eq_error]
  simp only [map_eq_error, map_eq_ok, exists_const, and_true]
  constructor
  · rintro ⟨before, dataset, after, split, earlier, fails⟩
    have present : dataset ∈ registry.names := by simp [split]
    rcases mem_names.mp present with ⟨found, finds⟩
    rcases (view_eq_error finds).mp fails with
      ⟨declared, foreign, rest, foreigns, there, missing, rfl⟩
    refine ⟨dataset, foreign, rfl, ⟨found, declared, rest, finds, foreigns, there⟩, missing, ?_⟩
    intro lesser other less findsOther
    have among := (mem_before_iff split).mpr ⟨mem_names.mpr ⟨other, findsOther⟩, less⟩
    exact (exists_view_eq_ok findsOther).mp (earlier lesser among)
  · rintro ⟨dataset, foreign, rfl, gap⟩
    rcases gap.declared with ⟨found, declared, rest, finds, foreigns, there⟩
    rcases List.append_of_mem (mem_names.mpr ⟨found, finds⟩) with ⟨before, after, split⟩
    refine ⟨before, dataset, after, split, ?_, ?_⟩
    · intro lesser among
      rcases (mem_before_iff split).mp among with ⟨present, less⟩
      rcases mem_names.mp present with ⟨other, findsOther⟩
      exact (exists_view_eq_ok findsOther).mpr (gap.earlier lesser other less findsOther)
    · exact (view_eq_error finds).mpr
        ⟨declared, foreign, rest, foreigns, there, gap.missing, rfl⟩

end Registry

end FilterLang
