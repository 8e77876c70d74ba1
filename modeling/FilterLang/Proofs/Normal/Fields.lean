import FilterLang.Proofs.Normal.Form

/-!
# The fields that survive normalization

Two rewrites discard fields. Bounds that stand beside each other drop what stands beside them, and a
field whose value is a mapping without comparisons gives way to that mapping. `Node.Shows` says that
a field occurs where neither happens. Every pass keeps such a field, so that the normal form
mentions it.
-/

namespace FilterLang

namespace Node

/-- A field is a key of a mapping in a tree. -/
inductive Mentions (field : String) : Node → Prop
  | key {entries : Entries} (present : .field field ∈ Entries.keys entries) :
      Mentions field (.mapping entries)
  | value {entries : Entries} {entry : Key × Node} (present : entry ∈ entries)
      (inside : Mentions field entry.2) : Mentions field (.mapping entries)
  | element {elements : Elements} {element : Node} (present : element ∈ elements)
      (inside : Mentions field element) : Mentions field (.multiset elements)

/-- A value of a field is a mapping that says nothing about the field. -/
def Supersedes (value : Node) : Prop :=
  ∃ entries, value = .mapping entries ∧
    ∀ key ∈ Entries.keys entries, key.category? ≠ some .comparison

/-- A field occurs in a tree where normalization does not discard it. -/
inductive Shows (field : String) : Node → Prop
  | key {entries : Entries} {value : Node} (unbounded : Entries.bounds? entries = none)
      (present : (.field field, value) ∈ entries) (kept : ¬Supersedes value) :
      Shows field (.mapping entries)
  | value {entries : Entries} {entry : Key × Node} (unbounded : Entries.bounds? entries = none)
      (present : entry ∈ entries) (inside : Shows field entry.2) : Shows field (.mapping entries)
  | start {entries : Entries} {start stop : Node}
      (bounded : Entries.bounds? entries = some (start, stop)) (inside : Shows field start) :
      Shows field (.mapping entries)
  | stop {entries : Entries} {start stop : Node}
      (bounded : Entries.bounds? entries = some (start, stop)) (inside : Shows field stop) :
      Shows field (.mapping entries)
  | element {elements : Elements} {element : Node} (present : element ∈ elements)
      (inside : Shows field element) : Shows field (.multiset elements)

section Equality

variable {field : String}

theorem mentions_of_equal {node other : Node} (same : equal node other = true)
    (mentions : Mentions field node) : Mentions field other := by
  induction mentions generalizing other with
  | key present =>
      rcases exists_mapping_of_equal same with ⟨others, rfl⟩
      rcases List.mem_map.mp present with ⟨entry, among, sameKey⟩
      rcases (equal_mapping.mp same).2 entry among with ⟨partner, found, _⟩
      rw [sameKey] at found
      exact .key (Entries.mem_keys_of_get? found)
  | value present _ ih =>
      rcases exists_mapping_of_equal same with ⟨others, rfl⟩
      rcases (equal_mapping.mp same).2 _ present with ⟨partner, found, equalValues⟩
      have paired := Entries.mem_of_get? found
      exact .value paired (ih equalValues)
  | element present _ ih =>
      rcases exists_multiset_of_equal same with ⟨others, rfl⟩
      rcases (equal_multiset.mp same).2 _ present with ⟨partner, among, equalElements⟩
      exact .element among (ih equalElements)

theorem not_supersedes_of_equal {node other : Node} (same : SameTree node other)
    (kept : ¬Supersedes node) : ¬Supersedes other := by
  rintro ⟨others, rfl, noComparison⟩
  cases node with
  | mapping entries =>
      apply kept
      refine ⟨entries, rfl, ?_⟩
      intro key present
      rcases List.mem_map.mp present with ⟨entry, among, rfl⟩
      rcases (equal_mapping.mp same.2).2 entry among with ⟨partner, found, _⟩
      exact noComparison entry.1 (Entries.mem_keys_of_get? found)
  | _ => cases kind_of_equal same.2

theorem shows_of_equal {node other : Node} (same : SameTree node other)
    (shows : Shows field node) : Shows field other := by
  induction shows generalizing other with
  | key unbounded present kept =>
      rcases exists_mapping_of_equal same.2 with ⟨others, rfl⟩
      have sameBounds := bounds?_of_equal same
      rw [unbounded] at sameBounds
      rcases (equal_mapping.mp same.2).2 _ present with ⟨partner, found, equalValues⟩
      have sameValue : SameTree _ partner :=
        ⟨(proper_mapping.mp same.1).2 _ present, equalValues⟩
      exact .key (eq_none_of_rel sameBounds) (Entries.mem_of_get? found)
        (not_supersedes_of_equal sameValue kept)
  | value unbounded present _ ih =>
      rcases exists_mapping_of_equal same.2 with ⟨others, rfl⟩
      have sameBounds := bounds?_of_equal same
      rw [unbounded] at sameBounds
      rcases (equal_mapping.mp same.2).2 _ present with ⟨partner, found, equalValues⟩
      have paired := Entries.mem_of_get? found
      exact .value (eq_none_of_rel sameBounds) paired
        (ih ⟨(proper_mapping.mp same.1).2 _ present, equalValues⟩)
  | start bounded _ ih =>
      rcases exists_mapping_of_equal same.2 with ⟨others, rfl⟩
      have sameBounds := bounds?_of_equal same
      rw [bounded] at sameBounds
      rcases exists_of_rel sameBounds with ⟨bounds, boundedOther, sameStart, _⟩
      exact .start boundedOther (ih sameStart)
  | stop bounded _ ih =>
      rcases exists_mapping_of_equal same.2 with ⟨others, rfl⟩
      have sameBounds := bounds?_of_equal same
      rw [bounded] at sameBounds
      rcases exists_of_rel sameBounds with ⟨bounds, boundedOther, _, sameStop⟩
      exact .stop boundedOther (ih sameStop)
  | element present _ ih =>
      rcases exists_multiset_of_equal same.2 with ⟨others, rfl⟩
      rcases (equal_multiset.mp same.2).2 _ present with ⟨partner, among, equalElements⟩
      exact .element among (ih ⟨(proper_multiset.mp same.1).2 _ present, equalElements⟩)

end Equality

section Steps

variable {field : String}

/-- Values that keep the field and what they say about their own fields. -/
def KeepsField (field : String) (value result : Node) : Prop :=
  (Shows field value → Shows field result) ∧ (Supersedes result → Supersedes value)

theorem Shows.of_entries {entries results : Entries}
    (related : List.Forall₂ (Entries.Corresponds (KeepsField field)) entries results)
    (shows : Shows field (.mapping entries)) : Shows field (.mapping results) := by
  have bounds := Entries.bounds?_rel (Entries.get?_of_forall₂ related (.operator .start))
    (Entries.get?_of_forall₂ related (.operator .stop))
  cases shows with
  | key unbounded present kept =>
      rw [unbounded] at bounds
      rcases exists_result related present with ⟨⟨key, result⟩, among, sameKey, _, keeps⟩
      simp only at sameKey keeps
      subst sameKey
      exact .key (eq_none_of_rel bounds) among fun supersedes => kept (keeps supersedes)
  | value unbounded present inside =>
      rw [unbounded] at bounds
      rcases exists_result related present with ⟨result, among, _, keeps, _⟩
      exact .value (eq_none_of_rel bounds) among (keeps inside)
  | start bounded inside =>
      rw [bounded] at bounds
      rcases exists_of_rel bounds with ⟨⟨start, stop⟩, boundedResult, keeps, _⟩
      exact .start boundedResult (keeps.1 inside)
  | stop bounded inside =>
      rw [bounded] at bounds
      rcases exists_of_rel bounds with ⟨⟨start, stop⟩, boundedResult, _, keeps⟩
      exact .stop boundedResult (keeps.1 inside)

theorem Shows.of_elements {elements : Elements} {values : List Node}
    (related : List.Forall₂ (fun element value => Shows field element → Shows field value)
      elements values)
    (proper : ∀ value ∈ values, value.Proper) (shows : Shows field (.multiset elements)) :
    Shows field (.multiset (Elements.ofList values)) := by
  cases shows with
  | element present inside =>
      rcases exists_result related present with ⟨value, among, keeps⟩
      rcases Elements.exists_kept among with ⟨kept, keptAmong, rfl | equal⟩
      · exact .element keptAmong (keeps inside)
      · exact .element keptAmong (shows_of_equal ⟨proper value among, equal⟩ (keeps inside))

theorem supersedes_of_keys {entries results : Entries}
    (sameKeys : Entries.keys results = Entries.keys entries)
    (supersedes : Supersedes (.mapping results)) : Supersedes (.mapping entries) := by
  rcases supersedes with ⟨_, same, noComparison⟩
  cases same
  rw [sameKeys] at noComparison
  exact ⟨entries, rfl, noComparison⟩

theorem not_supersedes_of_mem {entries : Entries} {op : Operator}
    (comparison : op.category = .comparison) (present : .operator op ∈ Entries.keys entries) :
    ¬Supersedes (.mapping entries) := by
  rintro ⟨_, same, noComparison⟩
  cases same
  apply noComparison _ present
  rw [Key.category?_operator, comparison]

theorem expandRange_supersedes {node result : Node} (expanded : expandRange node = .ok result)
    (supersedes : Supersedes result) : Supersedes node := by
  cases node with
  | scalar value =>
      cases expanded
      exact supersedes
  | mapping entries =>
      cases expandRange_mapping_eq_ok.mp expanded with
      | range => exact absurd supersedes (not_supersedes_of_mem rfl List.mem_cons_self)
      | values _ values => exact supersedes_of_keys (Entries.keys_eq_of_forall₂ values) supersedes
  | multiset elements =>
      rcases expandRange_multiset_eq_ok.mp expanded with ⟨values, _, rfl⟩
      rcases supersedes with ⟨_, same, _⟩
      cases same
  | sequence items => simp at expanded

theorem compareValue_supersedes {node result : Node} (compared : compareValue node = .ok result)
    (supersedes : Supersedes result) : Supersedes node := by
  cases compareValue_eq_ok.mp compared with
  | range => exact absurd supersedes (not_supersedes_of_mem rfl List.mem_cons_self)
  | plain _ plainCompared =>
      cases node with
      | scalar value =>
          cases plainCompared
          exact supersedes
      | mapping entries =>
          rcases compareRange_mapping_eq_ok.mp plainCompared with ⟨results, values, rfl⟩
          exact supersedes_of_keys (Entries.keys_eq_of_forall₂ values) supersedes
      | multiset elements =>
          rcases compareRange_multiset_eq_ok.mp plainCompared with ⟨values, _, rfl⟩
          rcases supersedes with ⟨_, same, _⟩
          cases same
      | sequence items => simp at plainCompared

theorem expandRange_shows {node result : Node} (proper : node.Proper)
    (expanded : expandRange node = .ok result) (shows : Shows field node) :
    Shows field result := by
  induction node generalizing result with
  | scalar value => cases shows
  | mapping entries ih =>
      rw [proper_mapping] at proper
      cases expandRange_mapping_eq_ok.mp expanded with
      | range bounded expandedStart expandedStop =>
          rcases Entries.bounds?_eq_some.mp bounded with ⟨foundStart, foundStop⟩
          have lower := ih _ (Entries.mem_of_get? foundStart)
            (proper.2 _ (Entries.mem_of_get? foundStart)) expandedStart
          have upper := ih _ (Entries.mem_of_get? foundStop)
            (proper.2 _ (Entries.mem_of_get? foundStop)) expandedStop
          apply Shows.value (Entries.bounds?_singleton _ _) (List.mem_singleton_self _)
          cases shows with
          | key unbounded => simp [unbounded] at bounded
          | value unbounded => simp [unbounded] at bounded
          | start boundedShown inside =>
              rw [bounded] at boundedShown
              cases boundedShown
              exact .start rfl (lower inside)
          | stop boundedShown inside =>
              rw [bounded] at boundedShown
              cases boundedShown
              exact .stop rfl (upper inside)
      | values _ values =>
          apply shows.of_entries
          apply forall₂_imp_of_mem values
          rintro entry present value ⟨sameKey, expandedValue⟩
          refine ⟨sameKey, ?_, expandRange_supersedes expandedValue⟩
          exact ih entry present (proper.2 entry present) expandedValue
  | multiset elements ih =>
      rw [proper_multiset] at proper
      rcases expandRange_multiset_eq_ok.mp expanded with ⟨values, related, rfl⟩
      apply shows.of_elements
      · apply forall₂_imp_of_mem related
        intro element present value expandedElement
        exact ih element present (proper.2 element present) expandedElement
      · intro value present
        rcases exists_source related present with ⟨element, among, expandedElement⟩
        exact expandRange_proper (proper.2 element among) expandedElement
  | sequence items => simp at expanded

end Steps

section Ranged

/-- Where bounds stand under `between`, nothing stands beside them. -/
def RangedHere (node : Node) : Prop :=
  ∀ start stop, node.range? = some (start, stop) →
    node = entry (.operator .between)
      (.mapping [(.operator .start, start), (.operator .stop, stop)])

/-- A tree in which every range is written out. -/
def Ranged (node : Node) : Prop := node.Everywhere RangedHere

theorem rangedHere_of_none {node : Node} (plain : node.range? = none) : RangedHere node := by
  intro start stop range
  simp [plain] at range

/-- The first pass leaves no bounds but those that it puts under `between`. -/
theorem bounds?_of_expandRange {node : Node} {entries : Entries}
    (expanded : expandRange node = .ok (.mapping entries)) : Entries.bounds? entries = none := by
  cases node with
  | scalar value => cases expanded
  | mapping sources =>
      generalize same : Node.mapping entries = result at expanded
      cases expandRange_mapping_eq_ok.mp expanded with
      | range =>
          cases same
          exact Entries.bounds?_singleton _ _
      | values unbounded values =>
          cases same
          have bounds := Entries.bounds?_rel
            (Entries.get?_of_forall₂ values (.operator .start))
            (Entries.get?_of_forall₂ values (.operator .stop))
          rw [unbounded] at bounds
          exact eq_none_of_rel bounds
  | multiset elements =>
      rcases expandRange_multiset_eq_ok.mp expanded with ⟨_, _, same⟩
      cases same
  | sequence items => simp at expanded

theorem expandRange_ranged {node result : Node} (expanded : expandRange node = .ok result) :
    result.Ranged := by
  induction node generalizing result with
  | scalar value =>
      cases expanded
      exact everywhere_scalar.mpr (rangedHere_of_none rfl)
  | mapping entries ih =>
      cases expandRange_mapping_eq_ok.mp expanded with
      | @range start stop lower upper bounded expandedStart expandedStop =>
          rcases Entries.bounds?_eq_some.mp bounded with ⟨foundStart, foundStop⟩
          have lowerRanged := ih _ (Entries.mem_of_get? foundStart) expandedStart
          have upperRanged := ih _ (Entries.mem_of_get? foundStop) expandedStop
          have whole : RangedHere (entry (.operator .between)
              (.mapping [(.operator .start, lower), (.operator .stop, upper)])) := by
            intro start stop range
            cases range
            rfl
          have inner : RangedHere
              (.mapping [(.operator .start, lower), (.operator .stop, upper)]) :=
            rangedHere_of_none rfl
          simpa [Ranged, entry, inner] using ⟨whole, lowerRanged, upperRanged⟩
      | @values results _ values =>
          rw [Ranged, everywhere_mapping]
          constructor
          · apply rangedHere_of_none
            cases range : range? (.mapping results) with
            | none => rfl
            | some bounds =>
                rcases range?_eq_some.mp range with ⟨_, inner, same, between, bounded⟩
                cases same
                rcases exists_source values (Entries.mem_of_get? between) with
                  ⟨source, _, _, expandedValue⟩
                simp [bounds?_of_expandRange expandedValue] at bounded
          · intro entry present
            rcases exists_source values present with ⟨source, among, _, expandedValue⟩
            exact ih source among expandedValue
  | multiset elements ih =>
      rcases expandRange_multiset_eq_ok.mp expanded with ⟨values, related, rfl⟩
      rw [Ranged, everywhere_multiset]
      refine ⟨rangedHere_of_none rfl, ?_⟩
      intro value present
      rcases exists_source related (Elements.mem_of_mem_ofList present) with
        ⟨source, among, expandedElement⟩
      exact ih source among expandedElement
  | sequence items => simp at expanded

variable {field : String}

theorem Shows.of_range {start stop : Node}
    (shows : Shows field (entry (.operator .between)
      (.mapping [(.operator .start, start), (.operator .stop, stop)]))) :
    Shows field start ∨ Shows field stop := by
  generalize same : entry _ _ = node at shows
  cases shows with
  | key _ present =>
      cases same
      simp at present
  | value _ present inside =>
      cases same
      rw [List.mem_singleton] at present
      subst present
      generalize same : Node.mapping _ = node at inside
      cases inside with
      | key unbounded =>
          cases same
          cases unbounded
      | value unbounded =>
          cases same
          cases unbounded
      | start bounded inside =>
          cases same
          cases bounded
          exact .inl inside
      | stop bounded inside =>
          cases same
          cases bounded
          exact .inr inside
      | element => cases same
  | start bounded =>
      cases same
      simp [Entries.bounds?_singleton] at bounded
  | stop bounded =>
      cases same
      simp [Entries.bounds?_singleton] at bounded
  | element => cases same

theorem Shows.of_comparisons {lower upper : Node} (inside : Shows field lower ∨ Shows field upper) :
    Shows field (.mapping [(.operator .gte, lower), (.operator .lte, upper)]) := by
  rcases inside with inside | inside
  · exact .value rfl List.mem_cons_self inside
  · exact .value rfl (List.mem_cons_of_mem _ (List.mem_singleton_self _)) inside

theorem compareRange_shows {node result : Node} (proper : node.Proper) (ranged : node.Ranged)
    (compared : compareRange node = .ok result) (shows : Shows field node) :
    Shows field result := by
  induction node using deepInduction generalizing result with
  | scalar value => cases shows
  | mapping entries ih =>
      rw [proper_mapping] at proper
      rw [Ranged, everywhere_mapping] at ranged
      rcases compareRange_mapping_eq_ok.mp compared with ⟨results, values, rfl⟩
      apply shows.of_entries
      apply forall₂_imp_of_mem values
      rintro entry present ⟨valueKey, value⟩ ⟨sameKey, comparedValue⟩
      refine ⟨sameKey, ?_, compareValue_supersedes comparedValue⟩
      intro shown
      have valueProper := proper.2 entry present
      have valueRanged : entry.2.Ranged := ranged.2 entry present
      cases compareValue_eq_ok.mp comparedValue with
      | range range comparedStart comparedStop =>
          rcases within_of_range range with ⟨start, stop⟩
          rw [valueRanged _ .here _ _ range] at shown
          apply Shows.of_comparisons
          rcases shown.of_range with inside | inside
          · exact .inl (ih entry present _ start (valueProper.inside start)
              (valueRanged.inside start) comparedStart inside)
          · exact .inr (ih entry present _ stop (valueProper.inside stop)
              (valueRanged.inside stop) comparedStop inside)
      | plain _ plainCompared =>
          exact ih entry present _ .here valueProper valueRanged plainCompared shown
  | multiset elements ih =>
      rw [proper_multiset] at proper
      rw [Ranged, everywhere_multiset] at ranged
      rcases compareRange_multiset_eq_ok.mp compared with ⟨values, related, rfl⟩
      apply shows.of_elements
      · apply forall₂_imp_of_mem related
        intro element present value comparedElement
        exact ih element present _ .here (proper.2 element present) (ranged.2 element present)
          comparedElement
      · intro value present
        rcases exists_source related present with ⟨element, among, comparedElement⟩
        exact compareRange_proper (proper.2 element among) comparedElement
  | sequence items => simp at compared

end Ranged

section Mentions

variable {field : String}

theorem Mentions.of_entry {key : Key} {value : Node} (mentions : Mentions field value) :
    Mentions field (entry key value) :=
  .value (List.mem_singleton_self _) mentions

theorem mentions_ofList {values : List Node} {value : Node} (present : value ∈ values)
    (mentions : Mentions field value) : Mentions field (.multiset (Elements.ofList values)) := by
  rcases Elements.exists_kept present with ⟨kept, among, rfl | equal⟩
  · exact .element among mentions
  · exact .element among (mentions_of_equal equal mentions)

theorem mentions_conjunction {clauses : List Node} {clause : Node} (present : clause ∈ clauses)
    (mentions : Mentions field clause) : Mentions field (conjunction clauses) := by
  have explicit : Mentions field (Node.and clauses) :=
    (mentions_ofList present mentions).of_entry
  rcases clauses with _ | ⟨first, _ | ⟨second, rest⟩⟩
  · exact explicit
  · rw [List.mem_singleton] at present
    subst present
    exact mentions
  · exact explicit

theorem Shows.exists_entry {entries : Entries} (shows : Shows field (.mapping entries)) :
    (∃ value, (.field field, value) ∈ entries ∧ ¬Supersedes value) ∨
      ∃ entry ∈ entries, Shows field entry.2 := by
  cases shows with
  | key _ present kept => exact .inl ⟨_, present, kept⟩
  | value _ present inside => exact .inr ⟨_, present, inside⟩
  | start bounded inside =>
      exact .inr ⟨_, Entries.mem_of_get? (Entries.bounds?_eq_some.mp bounded).1, inside⟩
  | stop bounded inside =>
      exact .inr ⟨_, Entries.mem_of_get? (Entries.bounds?_eq_some.mp bounded).2, inside⟩

/-- A field that its value does not supersede is part of its clause. -/
theorem IsFieldClause.mentions {value clause : Node} (kept : ¬Supersedes value)
    (isClause : IsFieldClause (.field field, value) clause) : Mentions field clause := by
  cases isClause with
  | @mapping entries _ isMapping expanded =>
      simp only at isMapping expanded
      subst isMapping
      have comparison : ∃ key ∈ Entries.keys entries, key.category? = some .comparison := by
        by_contra none
        apply kept
        refine ⟨entries, rfl, ?_⟩
        intro key present comparison
        exact none ⟨key, present, comparison⟩
      rcases comparison with ⟨key, present, comparison⟩
      cases expandConjunction_mapping_eq_ok.mp expanded with
      | whole reads => cases reads.of_mem_comparison present comparison
      | @comparisons enclosing clauses reads related =>
          cases reads.of_mem_comparison present comparison
          rcases List.mem_map.mp present with ⟨entry, among, _⟩
          rcases exists_result related among with ⟨clause, clauseAmong, operand, _, rfl⟩
          exact mentions_conjunction clauseAmong (.key (List.mem_singleton_self _))
      | fields reads => cases reads.of_mem_comparison present comparison
  | other => exact .key (List.mem_singleton_self _)

theorem expandConjunction_mentions {enclosing : Option Key} {node result : Node}
    (expanded : expandConjunction enclosing node = .ok result) (shows : Shows field node) :
    Mentions field result := by
  induction node generalizing enclosing result with
  | scalar value => cases shows
  | mapping entries ih =>
      cases expandConjunction_mapping_eq_ok.mp expanded with
      | whole reads values =>
          rcases shows.exists_entry with ⟨value, present, _⟩ | ⟨entry, present, inside⟩
          · apply Mentions.key
            rw [Entries.keys_eq_of_forall₂ values]
            exact List.mem_map_of_mem present
          · rcases exists_result values present with ⟨value, among, _, expandedValue⟩
            exact .value among (ih entry present expandedValue inside)
      | comparisons reads clauses =>
          rcases shows.exists_entry with ⟨value, present, _⟩ | ⟨entry, present, inside⟩
          · have comparison := reads.of_comparisons.2.2 _ (List.mem_map_of_mem present)
            simp at comparison
          · rcases exists_result clauses present with ⟨_, among, operand, expandedOperand, rfl⟩
            have mentioned := ih entry present expandedOperand inside
            exact mentions_conjunction among mentioned.of_entry.of_entry
      | fields reads clauses =>
          rcases shows.exists_entry with ⟨value, present, kept⟩ | ⟨entry, present, inside⟩
          · rcases exists_result clauses present with ⟨clause, among, isClause⟩
            exact mentions_conjunction among (isClause.mentions kept)
          · rcases exists_result clauses present with ⟨clause, among, isClause⟩
            apply mentions_conjunction among
            cases isClause with
            | mapping _ expandedValue => exact ih entry present expandedValue inside
            | other _ expandedValue => exact (ih entry present expandedValue inside).of_entry
  | multiset elements ih =>
      rcases expandConjunction_multiset_eq_ok.mp expanded with ⟨values, related, rfl⟩
      cases shows with
      | element present inside =>
          rcases exists_result related present with ⟨value, among, expandedElement⟩
          exact mentions_ofList among (ih _ present expandedElement inside)
  | sequence items => simp at expanded

/-- A field that occurs where normalization does not discard it is mentioned by the normal form. -/
theorem normalize_mentions {node result : Node} (proper : node.Proper)
    (normalized : normalize node = .ok result) (shows : Shows field node) :
    Mentions field result := by
  rcases normalize_eq_ok.mp normalized with ⟨ranged, compared, expanded, comparedOk, resultOk⟩
  have rangedShows := expandRange_shows proper expanded shows
  have rangedProper := expandRange_proper proper expanded
  have comparedShows := compareRange_shows rangedProper (expandRange_ranged expanded) comparedOk
    rangedShows
  exact expandConjunction_mentions resultOk comparedShows

end Mentions

end Node

end FilterLang
