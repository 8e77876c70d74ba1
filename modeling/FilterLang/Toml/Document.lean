import FilterLang.Table
import FilterLang.Toml.Statement

/-!
# TOML documents

The statements of a document build one table, and have to agree on what every key is. A table that a
header has named may not be named again, nor extended through a path of keys; a table that a path of
keys has made or extended may not be named. A table that merely stands on the path of a header may
still be named or extended, and any table may stand on the path of a header. Inline tables and
arrays of values may not be extended at all.
-/

namespace FilterLang

namespace Toml

/-- How a table came to be. -/
inductive Origin where
  /-- A header names it. -/
  | named
  /-- It stands on the path of a header. -/
  | implied
  /-- It stands on the path of a binding. -/
  | dotted
  deriving DecidableEq

/-- How a table has come to be once a path of a given origin leads through it. A table on the path
of a binding belongs to that path from then on. -/
def Origin.after (passing current : Origin) : Origin :=
  if passing = .dotted then .dotted else current

/-- What a key is bound to while a document is built. -/
inductive Item where
  | value (value : Toml)
  | table (origin : Origin) (entries : List (String × Item))
  | tables (elements : List (List (String × Item)))

/-- A table while a document is built. -/
abbrev Items := List (String × Item)

mutual

/-- The value that has been built. -/
def Item.toToml : Item → Toml
  | .value value => value
  | .table _ entries => .table (itemsToToml entries)
  | .tables elements => .array (tablesToToml elements)
termination_by structural item => item

/-- The entries of a table that has been built. -/
def itemsToToml : Items → List (String × Toml)
  | [] => []
  | (key, item) :: rest => (key, item.toToml) :: itemsToToml rest
termination_by structural items => items

/-- The elements of an array of tables that has been built. -/
def tablesToToml : List Items → List Toml
  | [] => []
  | entries :: rest => .table (itemsToToml entries) :: tablesToToml rest
termination_by structural elements => elements

end

/-- Changes the table that a path leads to, and makes the tables on the path that are not there.
In an array of tables the path leads to the last one. The change is told how its table came to
be. -/
def changeAt (origin : Origin) (change : Origin → Items → Option Items) :
    Path → Origin → Items → Option Items
  | [], current, entries => change current entries
  | key :: path, _, entries =>
    match entries.lookup key with
    | none => do
      let inner ← changeAt origin change path origin []
      some (Table.insertEntry key (.table origin inner) entries)
    | some (.table current inner) => do
      if origin = .dotted ∧ current = .named then none
      else
        let after := origin.after current
        let inner ← changeAt origin change path after inner
        some (Table.insertEntry key (.table after inner) entries)
    | some (.tables elements) =>
      match elements.reverse with
      | [] => none
      | last :: before => do
        let last ← changeAt origin change path .named last
        some (Table.insertEntry key (.tables (last :: before).reverse) entries)
    | some (.value _) => none

/-- Binds a path in a table. -/
def bind (path : Path) (value : Toml) (entries : Items) : Option Items :=
  match path.reverse with
  | [] => none
  | key :: parents =>
    changeAt .dotted (fun origin entries =>
      if origin == .named && !parents.isEmpty then none
      else if (entries.lookup key).isSome then none
      else some (Table.insertEntry key (.value value) entries))
      parents.reverse .named entries

/-- The entries of the table at a key that a header names, if it may name one. -/
def openTable? (key : String) (entries : Items) : Option Items :=
  match entries.lookup key with
  | none => some []
  | some (.table .implied inner) => some inner
  | some _ => none

/-- Binds the paths of a section, one after the other. -/
def bindAll (bindings : List (Path × Toml)) (entries : Items) : Option Items :=
  bindings.foldlM (fun entries binding => bind binding.1 binding.2 entries) entries

/-- Adds the section under a header. -/
def addTable (path : Path) (bindings : List (Path × Toml)) (entries : Items) : Option Items :=
  match path.reverse with
  | [] => none
  | key :: parents =>
    changeAt .implied (fun _ entries => do
      let inner ← openTable? key entries
      let inner ← bindAll bindings inner
      some (Table.insertEntry key (.table .named inner) entries))
      parents.reverse .named entries

/-- Adds the section under the header of an array of tables. -/
def addArrayTable (path : Path) (bindings : List (Path × Toml)) (entries : Items) :
    Option Items :=
  match path.reverse with
  | [] => none
  | key :: parents =>
    changeAt .implied (fun _ entries => do
      let inner ← bindAll bindings []
      match entries.lookup key with
      | none => some (Table.insertEntry key (.tables [inner]) entries)
      | some (.tables elements) =>
        some (Table.insertEntry key (.tables (elements ++ [inner])) entries)
      | some _ => none)
      parents.reverse .named entries

mutual

/-- The value that is written, if its inline tables bind every key once. -/
def Literal.value? : Literal → Option Toml
  | .atom value => some value
  | .array items => (literalItems? items).map .array
  | .table bindings => do
    let bindings ← literalBindings? bindings
    let entries ← bindAll bindings []
    some (.table (itemsToToml entries))
termination_by structural literal => literal

/-- The values of the items of an array. -/
def literalItems? : List Literal → Option (List Toml)
  | [] => some []
  | item :: rest => do
    let value ← item.value?
    let values ← literalItems? rest
    some (value :: values)
termination_by structural items => items

/-- The values of the bindings of an inline table. -/
def literalBindings? : List (Path × Literal) → Option (List (Path × Toml))
  | [] => some []
  | (path, literal) :: rest => do
    let value ← literal.value?
    let bindings ← literalBindings? rest
    some ((path, value) :: bindings)
termination_by structural bindings => bindings

end

/-- The bindings that a list of statements starts with, and the statements from the first header
on. -/
def section? : List Statement → Option (List (Path × Toml) × List Statement)
  | .binding path literal :: rest => do
    let value ← literal.value?
    let (bindings, rest) ← section? rest
    some ((path, value) :: bindings, rest)
  | rest => some ([], rest)

/-- Adds the sections that a list of statements consists of. -/
def addSections (fuel : Nat) (statements : List Statement) (entries : Items) : Option Items :=
  match fuel, statements with
  | _, [] => some entries
  | fuel + 1, .header path :: rest => do
    let (bindings, rest) ← section? rest
    addSections fuel rest (← addTable path bindings entries)
  | fuel + 1, .arrayHeader path :: rest => do
    let (bindings, rest) ← section? rest
    addSections fuel rest (← addArrayTable path bindings entries)
  | _, _ => none

/-- The entries of the table that statements build. -/
def ofStatements? (statements : List Statement) : Option (List (String × Toml)) := do
  let (bindings, rest) ← section? statements
  let root ← bindAll bindings []
  let entries ← addSections rest.length rest root
  some (itemsToToml entries)

/-- The entries of the table that a document is. -/
def read? (text : String) : Option (List (String × Toml)) := do
  ofStatements? (← statements? text)

end Toml

end FilterLang
