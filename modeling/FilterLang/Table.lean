/-!
# Tables

A table binds names to values and keeps the names in ascending order of their characters, each name
once. Two tables with the same bindings are therefore the same list.
-/

namespace FilterLang

/-- Names bound to values, in ascending order. -/
structure Table (α : Type) where
  /-- The bindings in order. -/
  entries : List (String × α)
  /-- Every name is less than the names after it. -/
  ascending : entries.Pairwise fun first second => first.1 < second.1

namespace Table

variable {α : Type}

/-- The table without bindings. -/
def empty : Table α := ⟨[], .nil⟩

/-- Binds a name in a list of bindings, in front of the first greater name. -/
def insertEntry (name : String) (value : α) : List (String × α) → List (String × α)
  | [] => [(name, value)]
  | (first, other) :: rest =>
    if name < first then (name, value) :: (first, other) :: rest
    else if name = first then (name, value) :: rest
    else (first, other) :: insertEntry name value rest

theorem mem_insertEntry {name : String} {value : α} {entries : List (String × α)}
    {binding : String × α} (member : binding ∈ insertEntry name value entries) :
    binding = (name, value) ∨ binding ∈ entries := by
  induction entries with
  | nil => simpa [insertEntry] using member
  | cons entry rest ih =>
      rcases entry with ⟨first, other⟩
      simp only [insertEntry] at member
      split at member
      · simpa using member
      · split at member
        · rcases List.mem_cons.1 member with same | later
          · exact .inl same
          · exact .inr (List.mem_cons_of_mem _ later)
        · rcases List.mem_cons.1 member with same | later
          · exact .inr (same ▸ List.mem_cons_self)
          · exact (ih later).imp_right (List.mem_cons_of_mem _)

theorem insertEntry_ascending {name : String} {value : α} {entries : List (String × α)}
    (ascending : entries.Pairwise fun first second => first.1 < second.1) :
    (insertEntry name value entries).Pairwise fun first second => first.1 < second.1 := by
  induction entries with
  | nil => simp [insertEntry]
  | cons entry rest ih =>
      rcases entry with ⟨first, other⟩
      rcases List.pairwise_cons.1 ascending with ⟨above, restAscending⟩
      simp only [insertEntry]
      split
      · next below =>
        apply List.pairwise_cons.2
        refine ⟨?_, ascending⟩
        intro binding member
        rcases List.mem_cons.1 member with same | later
        · exact same ▸ below
        · exact String.lt_trans below (above _ later)
      · next notBelow =>
        split
        · next same => exact List.pairwise_cons.2 ⟨same ▸ above, restAscending⟩
        · next different =>
          apply List.pairwise_cons.2
          refine ⟨?_, ih restAscending⟩
          intro binding member
          rcases mem_insertEntry member with inserted | later
          · subst inserted
            refine Decidable.byContradiction fun notAbove => different ?_
            exact String.le_antisymm (String.not_lt.1 notAbove) (String.not_lt.1 notBelow)
          · exact above _ later

/-- Binds a name to a value, in place of the value that it had. -/
def insert (name : String) (value : α) (table : Table α) : Table α :=
  ⟨insertEntry name value table.entries, insertEntry_ascending table.ascending⟩

/-- The table that results from binding names one after the other. -/
def ofList (bindings : List (String × α)) : Table α :=
  bindings.foldl (fun table binding => table.insert binding.1 binding.2) empty

/-- The value that a name is bound to. -/
def find? (name : String) (table : Table α) : Option α := table.entries.lookup name

/-- Whether a name is bound. -/
def has (name : String) (table : Table α) : Bool := (table.find? name).isSome

/-- The bound names in order. -/
def names (table : Table α) : List String := table.entries.map (·.1)

/-- The number of bound names. -/
def size (table : Table α) : Nat := table.entries.length

end Table

end FilterLang
