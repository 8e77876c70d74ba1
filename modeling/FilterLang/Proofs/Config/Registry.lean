import FilterLang.Proofs.Config.Field
import FilterLang.Proofs.Dataset.Check

/-!
# Compiled configurations

A configuration compiles exactly if it is coherent: its operators are in the vocabulary, its fields
are coherent, and it names no dataset that it does not define. The registry then holds what the
configuration describes, under the same names, and every dataset in it has a view.
-/

namespace FilterLang

/-- A definition that makes sense for a dataset, as far as the dataset itself is concerned. -/
structure DatasetConfig.Coherent (dataset : DatasetConfig) : Prop where
  /-- The operators are in the vocabulary. -/
  operators : ∀ names, dataset.operators = some names →
    ∀ spelling ∈ names, ∃ op : Operator, op.name = spelling
  /-- The fields are coherent. -/
  fields : ∀ entry ∈ dataset.fields.entries, entry.2.Coherent entry.1

/-- A definition says what a dataset is. -/
structure DatasetConfig.Describes (name : String) (config : DatasetConfig) (dataset : Dataset) :
    Prop where
  /-- The dataset has the name. -/
  name : dataset.name = name
  /-- The dataset has the fields that the definition describes, and no others. -/
  fields : ∀ field, Option.Rel FieldConfig.Describes (config.fields.find? field)
    (dataset.field? field)
  /-- The dataset has the operators, or the whole vocabulary if none are given. -/
  operators : dataset.operators.map Operator.name =
    config.operators.getD (Operator.all.map Operator.name)
  /-- The dataset has the foreign names, in order and without repetitions. -/
  foreigns : dataset.foreigns = config.foreigns.eraseDups

/-- A configuration that makes sense. -/
structure Config.Coherent (config : Config) : Prop where
  /-- The datasets are coherent. -/
  datasets : ∀ entry ∈ config.datasets.entries, entry.2.Coherent
  /-- The default is one of the datasets. -/
  default : ∀ name, config.default? = some name → name ∈ config.datasets.names
  /-- The foreign names are names of datasets. -/
  foreigns : ∀ entry ∈ config.datasets.entries, ∀ foreign ∈ entry.2.foreigns,
    foreign ∈ config.datasets.names

/-- A configuration says what a registry is. -/
structure Config.Describes (config : Config) (registry : Registry) : Prop where
  /-- The registered names are the names of the datasets. -/
  names : registry.names = config.datasets.names
  /-- The default is the given one, or else the least name, if there is any. -/
  default? : registry.default? = config.default?.or config.datasets.names.head?
  /-- The registry has the datasets that the configuration describes, and no others. -/
  datasets : ∀ name, Option.Rel (DatasetConfig.Describes name) (config.datasets.find? name)
    (registry.find? name)
  /-- Every dataset has a view. -/
  views : ∀ name ∈ registry.names, ∃ view, registry.view name = .ok view

theorem Dataset.distinct_eq_eraseDups (names : List String) : distinct names = names.eraseDups := by
  induction names using List.reverseRecOn with
  | nil => rfl
  | append_singleton before last ih =>
      have step : distinct (before ++ [last]) =
          if (distinct before).contains last then distinct before
          else distinct before ++ [last] := by
        simp [distinct]
      rw [step, ih, List.eraseDups_append]
      by_cases seen : last ∈ before
      · simp [seen, List.removeAll]
      · simp [seen, List.removeAll, List.eraseDups_cons]

theorem Registry.ext_entries {registry other : Registry}
    (entries : registry.datasets.entries = other.datasets.entries)
    (default : registry.default? = other.default?) : registry = other := by
  rcases registry with ⟨table, default?⟩
  rcases other with ⟨otherTable, otherDefault?⟩
  rw [mk.injEq]
  exact ⟨Table.ext_entries entries, default⟩

namespace Config

section Dataset

variable {name : String} {config : DatasetConfig} {dataset : Dataset}

theorem compileFields_eq_ok {fields : List (String × FieldConfig)}
    {compiled : List (String × Field)} :
    compileFields name fields = .ok compiled ↔
      Table.Aligned (fun field config result => compileField name field config = .ok result) fields
        compiled :=
  Table.mapM_eq_ok_iff_aligned

theorem compileDataset_eq_ok :
    compileDataset name config = .ok dataset ↔
      ∃ operators, operators? name config.operators = .ok operators ∧
        ∃ fields, compileFields name config.fields.entries = .ok fields ∧
          Dataset.declare name fields operators config.foreigns = dataset := by
  simp only [compileDataset, bind_eq_ok, Except.ok.injEq]

/-- A dataset compiles exactly if its definition is coherent. -/
theorem exists_compileDataset_eq_ok :
    (∃ dataset, compileDataset name config = .ok dataset) ↔ config.Coherent := by
  have fields : (∃ fields, compileFields name config.fields.entries = .ok fields) ↔
      ∀ entry ∈ config.fields.entries, entry.2.Coherent entry.1 := by
    simp only [compileFields_eq_ok, Table.exists_aligned, exists_compileField_eq_ok]
  simp only [compileDataset_eq_ok, operators?_eq_ok]
  constructor
  · rintro ⟨_, operators, known, compiled, compiles, _⟩
    exact ⟨exists_operators?.mp ⟨operators, known⟩, fields.mp ⟨compiled, compiles⟩⟩
  · intro coherent
    rcases exists_operators?.mpr coherent.operators with ⟨operators, known⟩
    rcases fields.mpr coherent.fields with ⟨compiled, compiles⟩
    exact ⟨_, operators, known, compiled, compiles, rfl⟩

/-- A compiled dataset is the one that its definition describes. -/
theorem describes_dataset (compiles : compileDataset name config = .ok dataset) :
    config.Describes name dataset := by
  rcases compileDataset_eq_ok.mp compiles with ⟨operators, known, fields, compiled, rfl⟩
  rw [operators?_eq_ok] at known
  rw [compileFields_eq_ok] at compiled
  have ascending : (fields.map (·.1)).Pairwise (· < ·) := by
    rw [compiled.map_fst]
    exact config.fields.names_ascending
  constructor
  case name => rfl
  case fields =>
    intro field
    have described : Table.Aligned (fun _ => FieldConfig.Describes) config.fields.entries fields :=
      compiled.imp fun _ _ _ compiles => (compileField_eq_ok.mp compiles).2
    have found : (Dataset.declare name fields operators config.foreigns).field? field =
        fields.lookup field := by
      simp only [Dataset.field?, Dataset.declare, Table.find?, Table.entries_ofList ascending]
    rw [found]
    exact described.lookup field
  case operators =>
    rw [← known]
    cases operators <;> rfl
  case foreigns => exact Dataset.distinct_eq_eraseDups config.foreigns

end Dataset

section Registry

/-- The bindings that definitions of datasets compile to. -/
abbrev CompileTo : List (String × DatasetConfig) → List (String × Dataset) → Prop :=
  Table.Aligned fun name config dataset => compileDataset name config = .ok dataset

variable {config : Config} {registry next : Registry} {datasets : List (String × DatasetConfig)}
  {compiled : List (String × Dataset)}

theorem registerDatasets_cons_eq_ok {name : String} {config : DatasetConfig}
    (last : ∀ other ∈ registry.names, other < name) :
    registerDatasets ((name, config) :: datasets) registry = .ok next ↔
      ∃ dataset, compileDataset name config = .ok dataset ∧
        registerDatasets datasets
          ⟨registry.datasets.insert name dataset, registry.default?.or (some name)⟩ = .ok next := by
  have unfolded : registerDatasets ((name, config) :: datasets) registry =
      (do
        let dataset ← compileDataset name config
        let registry ← (registry.register dataset).mapError .registry
        registerDatasets datasets registry) := by
    simp [registerDatasets]
  have free : name ∉ registry.names := fun present => String.lt_irrefl name (last name present)
  rw [unfolded, bind_eq_ok]
  refine exists_congr fun dataset => and_congr_right fun compiles => ?_
  have named : dataset.name = name := (describes_dataset compiles).name
  subst named
  rw [Registry.register_eq_ok.mpr ⟨free, rfl⟩]
  rfl

/-- Datasets of ascending names are registered in order, and the first one may become the default.
The induction is on the datasets, while all names in the registry are less than theirs. -/
theorem registerDatasets_eq_ok
    (ascending : (registry.names ++ datasets.map (·.1)).Pairwise (· < ·)) :
    registerDatasets datasets registry = .ok next ↔
      ∃ compiled, CompileTo datasets compiled ∧
        next.datasets.entries = registry.datasets.entries ++ compiled ∧
        next.default? = registry.default?.or (compiled.map (·.1)).head? := by
  induction datasets generalizing registry with
  | nil =>
      have finished : registerDatasets [] registry = .ok registry := rfl
      rw [finished, Except.ok.injEq]
      constructor
      · rintro rfl
        exact ⟨[], .nil, by simp, by simp⟩
      · rintro ⟨compiled, aligned, entries, default⟩
        cases aligned
        apply Registry.ext_entries
        · simpa using entries.symm
        · simpa using default.symm
  | cons entry rest ih =>
      rcases entry with ⟨name, config⟩
      have last : ∀ other ∈ registry.names, other < name := by
        intro other present
        exact (List.pairwise_append.mp ascending).2.2 other present name (by simp)
      have later : ∀ dataset, registerDatasets rest
            ⟨registry.datasets.insert name dataset, registry.default?.or (some name)⟩ = .ok next ↔
          ∃ compiled, CompileTo rest compiled ∧
            next.datasets.entries = registry.datasets.entries ++ (name, dataset) :: compiled ∧
            next.default? = registry.default?.or (some name) := by
        intro dataset
        have entries : (registry.datasets.insert name dataset).entries =
            registry.datasets.entries ++ [(name, dataset)] := Table.entries_insert last
        rw [ih]
        · simp only [entries, List.append_assoc, List.singleton_append, Option.or_assoc,
            Option.some_or]
        · simpa [Registry.names, Table.names, entries] using ascending
      simp only [registerDatasets_cons_eq_ok last, later]
      constructor
      · rintro ⟨dataset, compiles, compiled, others, entries, default⟩
        exact ⟨(name, dataset) :: compiled, .cons ⟨rfl, compiles⟩ others, entries, default⟩
      · rintro ⟨_, _ | ⟨⟨rfl, compiles⟩, others⟩, entries, default⟩
        exact ⟨_, compiles, _, others, entries, default⟩

theorem registerDatasets_empty_eq_ok :
    registerDatasets config.datasets.entries .empty = .ok registry ↔
      CompileTo config.datasets.entries registry.datasets.entries ∧
      registry.default? = registry.names.head? := by
  have ascending : (Registry.empty.names ++ config.datasets.entries.map (·.1)).Pairwise (· < ·) :=
    config.datasets.names_ascending
  rw [registerDatasets_eq_ok ascending]
  constructor
  · rintro ⟨compiled, compiles, entries, default⟩
    have same : registry.datasets.entries = compiled := entries
    rw [Registry.names, Table.names, same]
    exact ⟨compiles, default⟩
  · rintro ⟨compiles, default⟩
    exact ⟨_, compiles, rfl, default⟩

/-- A configuration compiles to the registry of what its datasets compile to, if this has the
default and passes the check. -/
theorem compile_eq_ok :
    config.compile = .ok registry ↔
      CompileTo config.datasets.entries registry.datasets.entries ∧
      (∀ name, config.default? = some name → name ∈ registry.names) ∧
      registry.default? = config.default?.or registry.names.head? ∧
      registry.check = .ok () := by
  rw [compile, bind_eq_ok]
  cases config.default? with
  | none =>
      simp only [registerDatasets_empty_eq_ok, bind_eq_ok, mapError_eq_ok, Except.ok.injEq]
      constructor
      · rintro ⟨filled, ⟨compiles, default⟩, _, rfl, _, checked, rfl⟩
        exact ⟨compiles, nofun, default, checked⟩
      · rintro ⟨compiles, _, default, checked⟩
        exact ⟨registry, ⟨compiles, default⟩, registry, rfl, (), checked, rfl⟩
  | some name =>
      simp only [registerDatasets_empty_eq_ok, bind_eq_ok, mapError_eq_ok,
        Registry.setDefault_eq_ok, Except.ok.injEq]
      constructor
      · rintro ⟨filled, ⟨compiles, _⟩, _, ⟨known, rfl⟩, _, checked, rfl⟩
        refine ⟨compiles, ?_, rfl, checked⟩
        rintro _ ⟨⟩
        exact known
      · rintro ⟨compiles, known, default, checked⟩
        rcases registry with ⟨datasets, default?⟩
        refine ⟨⟨datasets, datasets.names.head?⟩, ⟨compiles, rfl⟩, _, ⟨known name rfl, rfl⟩, (), ?_⟩
        simp only [Option.some_or] at default
        subst default
        exact ⟨checked, rfl⟩

section Compiled

variable (compiles : CompileTo config.datasets.entries registry.datasets.entries)

include compiles

theorem names_compiled : registry.names = config.datasets.names := compiles.map_fst

theorem find?_compiled (name : String) :
    Option.Rel (DatasetConfig.Describes name) (config.datasets.find? name) (registry.find? name) :=
  Table.Aligned.lookup (compiles.imp fun _ _ _ => describes_dataset) name

/-- The check of compiled datasets succeeds exactly if their foreign names are defined. -/
theorem check_compiled :
    registry.check = .ok () ↔
      ∀ entry ∈ config.datasets.entries, ∀ foreign ∈ entry.2.foreigns,
        foreign ∈ config.datasets.names := by
  have viewed : ∀ entry ∈ config.datasets.entries,
      ((∃ view, registry.view entry.1 = .ok view) ↔
        ∀ foreign ∈ entry.2.foreigns, foreign ∈ config.datasets.names) := by
    intro entry present
    have described := find?_compiled compiles entry.1
    rw [Table.find?_eq_some.mpr present] at described
    rcases exists_of_rel described with ⟨dataset, finds, describes⟩
    rw [Registry.exists_view_eq_ok finds, describes.foreigns, names_compiled compiles]
    simp only [List.mem_eraseDups]
  rw [Registry.check_eq_ok, names_compiled compiles, Table.names, List.forall_mem_map]
  exact forall₂_congr viewed

end Compiled

/-- A coherent configuration compiles, and no other does. The registry that it compiles to is the
one that it describes. -/
theorem compile_coherent (config : Config) :
    ((∃ registry, config.compile = .ok registry) ↔ config.Coherent) ∧
      ∀ registry, config.compile = .ok registry → config.Describes registry := by
  have datasets : (∃ compiled, CompileTo config.datasets.entries compiled) ↔
      ∀ entry ∈ config.datasets.entries, entry.2.Coherent := by
    simp only [CompileTo, Table.exists_aligned, exists_compileDataset_eq_ok]
  refine ⟨⟨?_, ?_⟩, ?_⟩
  · rintro ⟨registry, compiled⟩
    rcases compile_eq_ok.mp compiled with ⟨compiles, known, _, checked⟩
    rw [names_compiled compiles] at known
    exact ⟨datasets.mp ⟨_, compiles⟩, known, (check_compiled compiles).mp checked⟩
  · intro coherent
    rcases datasets.mpr coherent.datasets with ⟨compiled, compiles⟩
    have ascending : compiled.Pairwise fun first second => first.1 < second.1 := by
      rw [← List.pairwise_map, compiles.map_fst]
      exact config.datasets.names_ascending
    refine ⟨⟨⟨compiled, ascending⟩, config.default?.or config.datasets.names.head?⟩,
      compile_eq_ok.mpr ⟨compiles, ?_, ?_, (check_compiled compiles).mpr coherent.foreigns⟩⟩
    · rw [names_compiled compiles]
      exact coherent.default
    · rw [names_compiled compiles]
  · intro registry compiled
    rcases compile_eq_ok.mp compiled with ⟨compiles, _, default, checked⟩
    rw [names_compiled compiles] at default
    exact ⟨names_compiled compiles, default, find?_compiled compiles,
      Registry.check_eq_ok.mp checked⟩

/-- Films, which people make, in a configuration. -/
def cinema : Config where
  default? := none
  datasets := .ofList
    [("person",
      { foreigns := []
        operators := none
        fields := .ofList
          [("born", ⟨"date", none, [.string "1999-12-31"], none, none, none, none⟩)] }),
     ("film",
      { foreigns := ["person", "person"]
        operators := some ["and", "eq", "between"]
        fields := .ofList
          [("title", ⟨"text", some ["eq"], [], none, none, some 1, some 80⟩),
           ("rating", ⟨"number", none, [.integer 1, .float (.decimal false 25 (-1))],
              some (.ofInt 1), some (.ofInt 5), none, none⟩)] })]

/-- Without a default of its own, the configuration of films and people has the films. -/
theorem compile_coherent_cinema :
    cinema.Coherent ∧ ∃ registry, cinema.compile = .ok registry ∧ cinema.Describes registry ∧
      registry.names = ["film", "person"] ∧ registry.default? = some "film" := by
  rcases compile_coherent cinema with ⟨succeeds, describes⟩
  have succeeded : cinema.compile.isOk = true := by decide +kernel
  cases compiled : cinema.compile with
  | error error => simp [compiled, Except.isOk, Except.toBool] at succeeded
  | ok registry =>
      have described := describes registry compiled
      exact ⟨succeeds.mp ⟨registry, compiled⟩, registry, rfl, described, described.names,
        described.default?⟩

end Registry

end Config

end FilterLang
