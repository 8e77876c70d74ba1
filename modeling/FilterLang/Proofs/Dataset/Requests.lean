import FilterLang.Dataset.Requests
import FilterLang.Proofs.Dataset.Check
import Mathlib.Data.List.Induction

/-!
# What requests make of a registry

A registry that starts out empty is determined by the requests that were made to it. The dataset
under a name is the first one that was to be registered under it, and the default is the last one
that was chosen with success, or else the first registered dataset. Refused requests leave no trace,
a view never changes once it is there, and the check reports the first gap in the foreign names.
-/

namespace FilterLang

namespace Registry

/-- There is a default as soon as there is a dataset, and it is one of the datasets. -/
structure Led (registry : Registry) : Prop where
  /-- Only a registry without datasets has no default. -/
  empty : registry.default? = none → registry.names = []
  /-- The default is registered. -/
  registered : ∀ {name : String}, registry.default? = some name → name ∈ registry.names

namespace Request

/-- The dataset that a request is to register. -/
def dataset? : Request → Option Dataset
  | .register dataset => some dataset
  | .setDefault _ => none

/-- The name that a request is to make the default. -/
def chosen? : Request → Option String
  | .register _ => none
  | .setDefault name => some name

/-- The datasets that requests are to register, in order. -/
def registrations (requests : List Request) : List Dataset := requests.filterMap dataset?

/-- The name that a request makes the default, if it succeeds. -/
def choice? (request : Request) : Except RegistryError Unit → Option String
  | .ok _ => request.chosen?
  | .error _ => none

/-- The names that requests make the default with success, in order. -/
def choices (registry : Registry) : List Request → List String
  | [] => []
  | request :: rest =>
    let (outcome, next) := request.answer registry
    (request.choice? outcome).toList ++ choices next rest

/-- Carrying out a registration in place registers the dataset, or leaves the registry alone. -/
theorem answer_register (registry : Registry) (dataset : Dataset) :
    (register dataset).answer registry =
      match registry.register dataset with
      | .ok next => (.ok (), next)
      | .error error => (.error error, registry) := by
  rcases registry with ⟨datasets, default⟩
  cases present : datasets.has dataset.name with
  | true => simp [answer, perform, Registry.register, present]
  | false => cases default <;> simp [answer, perform, Registry.register, present]

/-- Carrying out a choice in place makes it, or leaves the registry alone. -/
theorem answer_setDefault (registry : Registry) (name : String) :
    (setDefault name).answer registry =
      match registry.setDefault name with
      | .ok next => (.ok (), next)
      | .error error => (.error error, registry) := by
  cases present : registry.datasets.has name <;>
    simp [answer, perform, Registry.setDefault, present]

/-- What a registry answers to a request, and what it is afterwards. -/
inductive Answers (registry : Registry) : Request → Except RegistryError Unit × Registry → Prop
  /-- A dataset is registered under a name that is free, and is the default if there is none. -/
  | registered {dataset : Dataset} (free : dataset.name ∉ registry.names) :
      Answers registry (.register dataset)
        (.ok (), ⟨registry.datasets.insert dataset.name dataset,
          registry.default?.or (some dataset.name)⟩)
  /-- The name of the dataset is taken. -/
  | duplicate {dataset : Dataset} (taken : dataset.name ∈ registry.names) :
      Answers registry (.register dataset) (.error (.duplicateDataset dataset.name), registry)
  /-- A registered dataset becomes the default. -/
  | chosen {name : String} (known : name ∈ registry.names) :
      Answers registry (.setDefault name) (.ok (), ⟨registry.datasets, some name⟩)
  /-- No dataset has the name that was chosen. -/
  | unknown {name : String} (absent : name ∉ registry.names) :
      Answers registry (.setDefault name) (.error (.unknownDataset name), registry)

theorem answers (request : Request) (registry : Registry) :
    Answers registry request (request.answer registry) := by
  cases request with
  | register dataset =>
      rw [answer_register, Registry.register]
      cases present : registry.datasets.has dataset.name with
      | true => exact .duplicate (Table.has_iff.mp present)
      | false => exact .registered fun taken => by simp [Table.has_iff.mpr taken] at present
  | setDefault name =>
      rw [answer_setDefault, Registry.setDefault]
      cases present : registry.datasets.has name with
      | true => exact .chosen (Table.has_iff.mp present)
      | false => exact .unknown fun known => by simp [Table.has_iff.mpr known] at present

section Answers

variable {registry : Registry} {request : Request} {result : Except RegistryError Unit × Registry}

/-- A refused request leaves the registry as it was. -/
theorem Answers.eq_of_error (answers : Answers registry request result) {error : RegistryError}
    (refused : result.1 = .error error) : result.2 = registry := by
  cases answers with
  | registered => cases refused
  | duplicate => rfl
  | chosen => cases refused
  | unknown => rfl

/-- A request adds the dataset that it is to register, unless its name is taken. -/
theorem Answers.find? (answers : Answers registry request result) (name : String) :
    result.2.find? name = (registry.find? name).or
      ((registrations [request]).find? fun dataset => dataset.name == name) := by
  cases answers with
  | @registered dataset free =>
      have absent : registry.find? dataset.name = none := by
        simpa [mem_names, Option.eq_none_iff_forall_ne_some] using free
      change (registry.datasets.insert dataset.name dataset).find? name = _
      rw [Table.find?_insert]
      by_cases same : dataset.name = name
      · subst same
        simp [absent, registrations, dataset?]
      · have different : (name == dataset.name) = false := by simpa using Ne.symm same
        simp [different, same, registrations, dataset?, Registry.find?]
  | @duplicate dataset taken =>
      by_cases same : dataset.name = name
      · subst same
        rcases mem_names.mp taken with ⟨found, finds⟩
        simp [finds]
      · simp [same, registrations, dataset?]
  | chosen => simp [registrations, dataset?, Registry.find?]
  | unknown => simp [registrations, dataset?]

theorem Answers.mem_names (answers : Answers registry request result) {name : String}
    (known : name ∈ registry.names) : name ∈ result.2.names := by
  rw [Registry.mem_names] at known ⊢
  rcases known with ⟨dataset, finds⟩
  exact ⟨dataset, by simp [answers.find?, finds]⟩

theorem Answers.led (answers : Answers registry request result) (led : registry.Led) :
    result.2.Led := by
  have known : ∀ {name : String}, name ∈ registry.names → name ∈ result.2.names := answers.mem_names
  cases answers with
  | @registered dataset free =>
      have isKnown : dataset.name ∈ names ⟨registry.datasets.insert dataset.name dataset,
          registry.default?.or (some dataset.name)⟩ := by
        rw [Registry.mem_names]
        exact ⟨dataset, by simp [Registry.find?, Table.find?_insert]⟩
      constructor
      · intro noDefault
        simp at noDefault
      · intro name isDefault
        rcases Option.or_eq_some_iff.mp isDefault with earlier | ⟨_, here⟩
        · exact known (led.registered earlier)
        · cases here
          exact isKnown
  | duplicate => exact led
  | chosen isKnown =>
      constructor
      · intro noDefault
        cases noDefault
      · intro name isDefault
        cases isDefault
        exact isKnown
  | unknown => exact led

/-- The default is the dataset that is chosen, or the default from before, or the dataset that is
to be registered. -/
theorem Answers.default? (answers : Answers registry request result) (led : registry.Led) :
    result.2.default? = ((request.choice? result.1).or registry.default?).or
      ((registrations [request]).head?.map Dataset.name) := by
  cases answers with
  | registered => rfl
  | duplicate taken =>
      cases earlier : registry.default? with
      | some default => simp [choice?]
      | none => simp [led.empty earlier] at taken
  | chosen => rfl
  | unknown => simp [choice?, registrations, dataset?]

end Answers

end Request

open Request

variable {registry : Registry} {requests later : List Request} {request : Request}

theorem after_append :
    after (requests ++ later) registry = after later (after requests registry) := by
  simp [after, List.foldl_append]

theorem filled_append : filled (requests ++ later) = after later (filled requests) :=
  after_append

theorem filled_concat :
    filled (requests ++ [request]) = (request.answer (filled requests)).2 :=
  filled_append

theorem choices_concat :
    choices registry (requests ++ [request]) = choices registry requests ++
      (request.choice? (request.answer (after requests registry)).1).toList := by
  induction requests generalizing registry with
  | nil => simp [choices, after]
  | cons first rest ih =>
      simp only [List.cons_append, choices, ih, List.append_assoc]
      rfl

theorem registrations_append :
    registrations (requests ++ later) = registrations requests ++ registrations later :=
  List.filterMap_append

theorem led_filled : (filled requests).Led := by
  induction requests using List.reverseRecOn with
  | nil => exact ⟨fun _ => rfl, nofun⟩
  | append_singleton requests request ih =>
      rw [filled_concat]
      exact (request.answers _).led ih

/-- The dataset under a name is the first one that was to be registered under it. -/
theorem find?_filled (requests : List Request) (name : String) :
    (filled requests).find? name =
      (registrations requests).find? fun dataset => dataset.name == name := by
  induction requests using List.reverseRecOn with
  | nil => rfl
  | append_singleton requests request ih =>
      rw [filled_concat, (request.answers _).find?, ih, registrations_append, List.find?_append]

/-- The default is the last one that was chosen, or else the first registered dataset. -/
theorem default?_filled (requests : List Request) :
    (filled requests).default? = (choices .empty requests).getLast?.or
      ((registrations requests).head?.map Dataset.name) := by
  induction requests using List.reverseRecOn with
  | nil => rfl
  | append_singleton requests request ih =>
      have last : ∀ choice : Option String, choice.toList.getLast? = choice := by
        intro choice
        cases choice <;> rfl
      rw [filled_concat, (request.answers _).default? led_filled, ih, choices_concat,
        registrations_append, List.getLast?_append, List.head?_append, Option.map_or, last]
      simp only [Option.or_assoc, filled]

/-- A dataset that is there stays there, whatever is requested later. -/
theorem find?_filled_append {name : String} {found : Dataset}
    (finds : (filled requests).find? name = some found) :
    (filled (requests ++ later)).find? name = some found := by
  rw [find?_filled] at finds ⊢
  rw [registrations_append, List.find?_append, finds]
  rfl

/-- A view that is there stays the same, whatever is requested later. -/
theorem view_filled_append {name : String} {view : View}
    (resolves : (filled requests).view name = .ok view) :
    (filled (requests ++ later)).view name = .ok view := by
  rw [view_eq_ok] at resolves ⊢
  exact ⟨find?_filled_append resolves.1, resolves.2.imp fun _ _ => find?_filled_append⟩

/-- What a registry owes to the requests that filled it, in any order and with any refusals among
them. Its names are in ascending order, each once, and stand for the datasets that were to be
registered under them first. A refused request changes nothing. There is a default as soon as there
is a dataset, and it is registered: the last one that was chosen with success, or else the first
registered one. A view that resolves does so forever, to the same datasets. The check succeeds
exactly if every dataset has a view, and else reports the first gap. -/
theorem filled_keeps_record (requests : List Request) :
    (filled requests).names.Pairwise (· < ·) ∧
    (∀ name, (filled requests).find? name =
      (registrations requests).find? fun dataset => dataset.name == name) ∧
    (∀ (request : Request) error, (request.answer (filled requests)).1 = .error error →
      (request.answer (filled requests)).2 = filled requests) ∧
    ((filled requests).default? = none ↔ (filled requests).names = []) ∧
    (∀ name, (filled requests).default? = some name → name ∈ (filled requests).names) ∧
    (filled requests).default? = (choices .empty requests).getLast?.or
      ((registrations requests).head?.map Dataset.name) ∧
    (∀ name view later, (filled requests).view name = .ok view →
      (filled (requests ++ later)).view name = .ok view) ∧
    ((filled requests).check = .ok () ↔
      ∀ name ∈ (filled requests).names, ∃ view, (filled requests).view name = .ok view) ∧
    ∀ error, (filled requests).check = .error error ↔
      ∃ dataset foreign, error = .unknownForeign dataset foreign ∧
        (filled requests).FirstGap dataset foreign := by
  have led : (filled requests).Led := led_filled
  refine ⟨names_ascending _, find?_filled requests, ?_, ⟨led.empty, ?_⟩, ?_,
    default?_filled requests, ?_, check_eq_ok, ?_⟩
  · intro request error refused
    exact (request.answers _).eq_of_error refused
  · intro noNames
    rw [Option.eq_none_iff_forall_ne_some]
    intro name isDefault
    simpa [noNames] using led.registered isDefault
  · intro name isDefault
    exact led.registered isDefault
  · intro name view later resolves
    exact view_filled_append resolves
  · intro error
    exact check_eq_error

/-- Films, which people and studios make. -/
def film : Dataset := .declare "film" [("title", ⟨.text, none, .none⟩)] none ["person", "studio"]

/-- People. -/
def person : Dataset := .declare "person" [("age", ⟨.int, none, .none⟩)] none []

/-- People again, in other words. -/
def namesake : Dataset := .declare "person" [("name", ⟨.text, none, .none⟩)] none ["film"]

/-- Requests, three of which are refused. -/
def premiere : List Request :=
  [.setDefault "film", .register film, .register person, .register namesake, .setDefault "person",
    .setDefault "studio"]

/-- The first people stay, they are the default, and studios are the first gap. -/
theorem filled_keeps_record_premiere :
    ((Request.setDefault "studio").answer (filled premiere)).1 = .error (.unknownDataset "studio") ∧
      ((Request.setDefault "studio").answer (filled premiere)).2 = filled premiere ∧
      (filled premiere).default? = some "person" ∧ "person" ∈ (filled premiere).names ∧
      (filled premiere).find? "person" = some person ∧
      (filled premiere).view "person" = .ok ⟨person, []⟩ ∧
      (filled (premiere ++ [.register namesake])).view "person" = .ok ⟨person, []⟩ ∧
      (filled premiere).check = .error (.unknownForeign "film" "studio") ∧
      (filled premiere).FirstGap "film" "studio" := by
  rcases filled_keeps_record premiere with ⟨_, _, refused, _, registered, _, resolves, _, gap⟩
  have unknown : ((Request.setDefault "studio").answer (filled premiere)).1 =
      .error (.unknownDataset "studio") := rfl
  have default : (filled premiere).default? = some "person" := rfl
  have view : (filled premiere).view "person" = .ok ⟨person, []⟩ := rfl
  have check : (filled premiere).check = .error (.unknownForeign "film" "studio") := rfl
  refine ⟨unknown, refused _ _ unknown, default, registered _ default, rfl, view,
    resolves _ _ _ view, check, ?_⟩
  rcases (gap _).mp check with ⟨dataset, foreign, same, firstGap⟩
  cases same
  exact firstGap

end Registry

end FilterLang
