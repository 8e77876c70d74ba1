import FilterLang.Dataset.Registry

/-!
# Requests to a registry

A registry is filled by requests, made one after the other. A request is carried out in place: it
reads and writes the registry step by step, and what a refused request has written by then stays.
-/

namespace FilterLang

namespace Registry

/-- A request to change a registry. -/
inductive Request where
  /-- Register a dataset under its name. -/
  | register (dataset : Dataset)
  /-- Choose the default dataset. -/
  | setDefault (name : String)

namespace Request

/-- Carries a request out in place. -/
def perform : Request → EStateM RegistryError Registry Unit
  | .register dataset => do
    if (← get).datasets.has dataset.name then throw (.duplicateDataset dataset.name)
    if (← get).default?.isNone then
      modify fun registry => { registry with default? := some dataset.name }
    modify fun registry =>
      { registry with datasets := registry.datasets.insert dataset.name dataset }
  | .setDefault name => do
    if !(← get).datasets.has name then throw (.unknownDataset name)
    modify fun registry => { registry with default? := some name }

/-- The outcome of a request, and the registry that it leaves behind. -/
def answer (request : Request) (registry : Registry) : Except RegistryError Unit × Registry :=
  match request.perform.run registry with
  | .ok _ after => (.ok (), after)
  | .error error after => (.error error, after)

end Request

/-- The registry that requests leave behind, made one after the other whether or not they
succeed. -/
def after (requests : List Request) (registry : Registry) : Registry :=
  requests.foldl (fun registry request => (request.answer registry).2) registry

/-- The registry that requests fill, from an empty one. -/
def filled (requests : List Request) : Registry := after requests .empty

end Registry

end FilterLang
