import FilterLang.Proofs.Filter.Equality

/-!
# Mappings and multisets as they are filled

A mapping is filled by binding keys and a multiset by adding values, one after the other, whether
they are filled at once or bit by bit. What they hold in the end is told by all that was ever put
into them: `Entries.Reflects` and `Elements.Reflects` say how, without the steps. The values of a
multiset are compared as trees, so that it holds the first value of each group of equal ones.
-/

namespace FilterLang

section Firsts

variable {α : Type} {same : α → α → Bool} {list : List α} {member : α}

/-- The members of a list that are the same as no member before them, in order. -/
def firsts (same : α → α → Bool) (list : List α) : List α :=
  (list.zipIdx.filter fun (member, i) => !(list.take i).any (same member)).map (·.1)

theorem firsts_concat :
    firsts same (list ++ [member]) =
      firsts same list ++ if list.any (same member) then [] else [member] := by
  have earlier : (list.zipIdx.filter fun (other, i) =>
        !((list ++ [member]).take i).any (same other)) =
      list.zipIdx.filter fun (other, i) => !(list.take i).any (same other) := by
    apply List.filter_congr
    rintro ⟨other, i⟩ present
    have inside := (List.mem_zipIdx present).2.1
    simp only
    rw [List.take_append_of_le_length (by omega)]
  simp only [firsts, List.zipIdx_append, List.filter_append, List.map_append, earlier]
  congr 1
  cases seen : list.any (same member) <;> simp [seen]

/-- A value is the same as one of the list exactly if it is the same as one of the first ones. -/
theorem any_firsts (same : α → α → Bool)
    (trans : ∀ first second third, same first second = true → same second third = true →
      same first third = true) (list : List α) (value : α) :
    (firsts same list).any (same value) = list.any (same value) := by
  induction list using List.reverseRecOn with
  | nil => rfl
  | append_singleton list member ih =>
      rw [firsts_concat, List.any_append, List.any_append, ih]
      cases seen : list.any (same member) with
      | false => rfl
      | true =>
          rcases List.any_eq_true.mp seen with ⟨other, present, sameOther⟩
          cases sameMember : same value member with
          | false => simp [sameMember]
          | true =>
              have found : list.any (same value) = true :=
                List.any_eq_true.mpr ⟨other, present, trans _ _ _ sameMember sameOther⟩
              simp [found]

end Firsts

namespace Entries

variable {entries : Entries} {key : Key} {value : Node}

theorem insert_of_absent (absent : key ∉ keys entries) :
    insert key value entries = entries ++ [(key, value)] := by
  induction entries with
  | nil => rfl
  | cons entry rest ih =>
      rcases entry with ⟨first, other⟩
      simp only [keys, List.map_cons, List.mem_cons, not_or] at absent
      rw [insert, if_neg (Ne.symm absent.1), ih absent.2]
      rfl

theorem mem_of_mem_insert {entry : Key × Node} (present : entry ∈ insert key value entries) :
    entry = (key, value) ∨ entry ∈ entries := by
  induction entries with
  | nil => simpa [insert] using present
  | cons first rest ih =>
      rcases first with ⟨first, other⟩
      rw [insert] at present
      split at present
      · rcases List.mem_cons.mp present with same | later
        · next sameKey => exact .inl (by rw [same, sameKey])
        · exact .inr (List.mem_cons_of_mem _ later)
      · rcases List.mem_cons.mp present with same | later
        · exact .inr (same ▸ List.mem_cons_self)
        · exact (ih later).imp_right (List.mem_cons_of_mem _)

theorem keys_insert_of_present (present : key ∈ keys entries) :
    keys (insert key value entries) = keys entries := by
  induction entries with
  | nil => simp [keys] at present
  | cons entry rest ih =>
      rcases entry with ⟨first, other⟩
      rw [insert]
      split
      · rfl
      · next different =>
        rcases List.mem_cons.mp present with same | later
        · exact absurd same.symm different
        · exact congrArg (first :: ·) (ih later)

theorem keys_insert_nodup (distinct : (keys entries).Nodup) :
    (keys (insert key value entries)).Nodup := by
  by_cases present : key ∈ keys entries
  · rw [keys_insert_of_present present]
    exact distinct
  · rw [insert_of_absent present, keys, List.map_append, List.nodup_append]
    refine ⟨distinct, List.nodup_singleton _, ?_⟩
    rintro first among second added rfl
    simp only [List.map_cons, List.map_nil, List.mem_singleton] at added
    exact present (added ▸ among)

theorem ofList_concat (pairs : List (Key × Node)) (pair : Key × Node) :
    ofList (pairs ++ [pair]) = insert pair.1 pair.2 (ofList pairs) := by
  simp [ofList, List.foldl_append]

theorem mem_of_mem_ofList {pairs : List (Key × Node)} {entry : Key × Node}
    (present : entry ∈ ofList pairs) : entry ∈ pairs := by
  induction pairs using List.reverseRecOn with
  | nil => exact present
  | append_singleton pairs pair ih =>
      rw [ofList_concat] at present
      rcases mem_of_mem_insert present with same | earlier
      · simp [same]
      · exact List.mem_append_left _ (ih earlier)

theorem keys_ofList_nodup (pairs : List (Key × Node)) : (keys (ofList pairs)).Nodup := by
  induction pairs using List.reverseRecOn with
  | nil => exact .nil
  | append_singleton pairs pair ih =>
      rw [ofList_concat]
      exact keys_insert_nodup ih

/-- Pairs with distinct keys are entries as they stand. -/
theorem ofList_of_distinct {pairs : List (Key × Node)} (distinct : (keys pairs).Nodup) :
    ofList pairs = pairs := by
  induction pairs using List.reverseRecOn with
  | nil => rfl
  | append_singleton pairs pair ih =>
      rw [keys, List.map_append, List.nodup_append] at distinct
      rcases distinct with ⟨before, _, apart⟩
      rw [ofList_concat, ih before]
      apply insert_of_absent
      intro present
      exact apart pair.1 present pair.1 (by simp) rfl

theorem keys_ofList (pairs : List (Key × Node)) :
    keys (ofList pairs) = firsts (· == ·) (pairs.map (·.1)) := by
  induction pairs using List.reverseRecOn with
  | nil => rfl
  | append_singleton pairs pair ih =>
      have bound : (pairs.map (·.1)).any (fun key => pair.1 == key) = true ↔
          pair.1 ∈ keys (ofList pairs) := by
        rw [ih, ← any_firsts (· == ·) (by simp +contextual), List.any_beq, List.contains_iff_mem]
      rw [ofList_concat, List.map_append, List.map_singleton, firsts_concat]
      by_cases present : pair.1 ∈ keys (ofList pairs)
      · rw [keys_insert_of_present present, if_pos (bound.mpr present), List.append_nil, ih]
      · rw [insert_of_absent present, if_neg (mt bound.mp present), ← ih]
        simp [keys]

theorem get?_insert (other : Key) :
    get? other (insert key value entries) =
      if key = other then some value else get? other entries := by
  induction entries with
  | nil => rfl
  | cons entry rest ih =>
      rcases entry with ⟨first, bound⟩
      by_cases here : first = key
      · subst here
        by_cases same : first = other <;> simp [insert, get?, same]
      · by_cases same : first = other
        · subst same
          simp [insert, get?, here, Ne.symm here]
        · simp [insert, get?, here, same, ih]

theorem get?_ofList (pairs : List (Key × Node)) (key : Key) :
    get? key (ofList pairs) = pairs.reverse.lookup key := by
  induction pairs using List.reverseRecOn with
  | nil => rfl
  | append_singleton pairs pair ih =>
      rcases pair with ⟨last, value⟩
      rw [ofList_concat, get?_insert, List.reverse_append, ih]
      by_cases same : last = key
      · simp [same]
      · have different : (key == last) = false := by simpa using Ne.symm same
        simp [same, different, List.lookup_cons]

/-- The ways in which a mapping comes about, each with the bindings that went into it, in order. -/
inductive Built : List (Key × Node) → Entries → Prop
  | new : Built [] []
  | single (key : Key) (value : Node) : Built [(key, value)] [(key, value)]
  | collected (pairs : List (Key × Node)) : Built pairs (ofList pairs)
  | inserted {pairs : List (Key × Node)} {entries : Entries} (built : Built pairs entries)
      (key : Key) (value : Node) : Built (pairs ++ [(key, value)]) (exchange key value entries).2
  /-- What the results of a function are bound to is what counts as bound. -/
  | mapped {pairs : List (Key × Node)} {entries results : Entries} (built : Built pairs entries)
      {ε : Type} {f : Node → Except ε Node} (succeeds : traverse f entries = .ok results) :
      Built results results

/-- A mapping holds what was bound, as a mapping should. -/
structure Reflects (pairs : List (Key × Node)) (entries : Entries) : Prop where
  /-- No key comes twice. -/
  distinct : (keys entries).Nodup
  /-- The keys are those that were bound, in the order in which they were bound first. -/
  order : keys entries = firsts (· == ·) (pairs.map (·.1))
  /-- A key has the value that it was bound to last. -/
  last : ∀ key, get? key entries = pairs.reverse.lookup key
  /-- The value of an operator is that of its key. -/
  operators : ∀ op, operator? op entries = get? (.operator op) entries
  /-- The value of a field is that of its key. -/
  fields : ∀ name, field? name entries = get? (.field name) entries
  /-- To bind a key gives the value that it had. -/
  previous : ∀ key value, (exchange key value entries).1 = get? key entries
  /-- To apply a function to the values keeps the keys and their order. -/
  mapped : ∀ {ε : Type} (f : Node → Except ε Node) (results : Entries),
    traverse f entries = .ok results →
      List.Forall₂ (Corresponds fun value result => f value = .ok result) entries results

theorem Built.eq_ofList {pairs : List (Key × Node)} (built : Built pairs entries) :
    entries = ofList pairs := by
  induction built with
  | new => rfl
  | single key value => rfl
  | collected pairs => rfl
  | inserted _ key value ih => rw [exchange_eq, ofList_concat, ← ih]
  | mapped _ succeeds ih =>
      have sameKeys := keys_eq_of_forall₂ (traverse_eq_ok.mp succeeds)
      rw [ih] at sameKeys
      exact (ofList_of_distinct (sameKeys ▸ keys_ofList_nodup _)).symm

theorem reflects_ofList (pairs : List (Key × Node)) : Reflects pairs (ofList pairs) where
  distinct := keys_ofList_nodup pairs
  order := keys_ofList pairs
  last := get?_ofList pairs
  operators op := operator?_eq_get? op _
  fields name := field?_eq_get? name _
  previous key value := by rw [exchange_eq]
  mapped _ _ := traverse_eq_ok.mp

end Entries

namespace Elements

theorem ofList_eq_firsts (values : List Node) : ofList values = firsts Node.equal values := by
  induction values using List.reverseRecOn with
  | nil => rfl
  | append_singleton values value ih =>
      rw [ofList_concat, firsts_concat, insert, contains, ih,
        any_firsts Node.equal fun _ _ _ => Node.equal_trans]
      cases values.any (Node.equal value) <;> simp

/-- The ways in which a multiset comes about, each with the values that went into it, in order. -/
inductive Built : List Node → Elements → Prop
  | new : Built [] []
  | collected (values : List Node) : Built values (ofList values)
  | inserted {values : List Node} {elements : Elements} (built : Built values elements)
      (value : Node) : Built (values ++ [value]) (add value elements).2
  /-- The results of a function on the elements are what goes into the new multiset. -/
  | mapped {values outcomes : List Node} {elements results : Elements}
      (built : Built values elements) {ε : Type} {f : Node → Except ε Node}
      (applied : List.Forall₂ (fun element outcome => f element = .ok outcome) elements outcomes)
      (succeeds : traverse f elements = .ok results) : Built outcomes results

/-- A multiset holds what was added, as a multiset should. -/
structure Reflects (values : List Node) (elements : Elements) : Prop where
  /-- No two elements are equal, whichever is compared with the other. -/
  unequal : elements.Pairwise fun first second =>
    Node.equal first second = false ∧ Node.equal second first = false
  /-- The elements are the first of each group of equal values, in order. -/
  order : elements = firsts Node.equal values
  /-- A value is contained exactly if it equals one that was added. -/
  contains : ∀ value, contains value elements = true ↔
    ∃ added ∈ values, Node.equal value added = true
  /-- To add a value tells whether it was not contained. -/
  added : ∀ value, (add value elements).1 = !Elements.contains value elements

theorem Built.eq_ofList {values : List Node} {elements : Elements}
    (built : Built values elements) : elements = ofList values := by
  induction built with
  | new => rfl
  | collected values => rfl
  | inserted _ value ih => rw [add_eq, ofList_concat, ← ih]
  | mapped _ applied succeeds =>
      rcases traverse_eq_ok.mp succeeds with ⟨outcomes, others, rfl⟩
      rw [← mapM_eq_ok] at applied others
      rw [applied, Except.ok.injEq] at others
      rw [others]

theorem reflects_ofList {values : List Node} (proper : ∀ value ∈ values, value.Proper) :
    Reflects values (ofList values) where
  unequal := by
    apply ofList_unequal.imp_of_mem
    intro first second present _ different
    refine ⟨?_, different⟩
    by_contra same
    have converse := Node.equal_symm (proper first (mem_of_mem_ofList present))
      (Bool.not_eq_false _ ▸ same)
    simp [converse] at different
  order := ofList_eq_firsts values
  contains value := by
    rw [ofList_eq_firsts, contains, any_firsts Node.equal fun _ _ _ => Node.equal_trans,
      List.any_eq_true]
  added value := by rw [add_eq]

end Elements

/-- However a mapping or a multiset of proper trees has come about, it holds what went into it. -/
theorem built_reflects :
    (∀ (pairs : List (Key × Node)) (entries : Entries),
      Entries.Built pairs entries → Entries.Reflects pairs entries) ∧
    ∀ (values : List Node) (elements : Elements), Elements.Built values elements →
      (∀ value ∈ values, value.Proper) → Elements.Reflects values elements := by
  constructor
  · intro pairs entries built
    rw [built.eq_ofList]
    exact Entries.reflects_ofList pairs
  · intro values elements built proper
    rw [built.eq_ofList]
    exact Elements.reflects_ofList proper

/-- A year, a make and another year, bound one after the other. -/
def yearAgain : List (Key × Node) :=
  [(.field "year", .scalar (.int 2001)), (.field "make", .scalar (.text "ford")),
    (.field "year", .scalar (.int 2002))]

/-- A clause, the same clause in another order, and a year, added one after the other. -/
def clauseAgain : List Node :=
  [.mapping [(.operator .gte, .scalar (.int 1)), (.operator .lte, .scalar (.int 2))],
    .mapping [(.operator .lte, .scalar (.int 2)), (.operator .gte, .scalar (.int 1))],
    .scalar (.int 2001)]

/-- The second year takes the place of the first, and the clause is kept as it came first. -/
theorem built_reflects_again :
    Entries.Reflects yearAgain
        [(.field "year", .scalar (.int 2002)), (.field "make", .scalar (.text "ford"))] ∧
      Elements.Reflects clauseAgain
        [.mapping [(.operator .gte, .scalar (.int 1)), (.operator .lte, .scalar (.int 2))],
          .scalar (.int 2001)] := by
  have bound : Entries.Built yearAgain
      [(.field "year", .scalar (.int 2002)), (.field "make", .scalar (.text "ford"))] :=
    (Entries.Built.collected [(.field "year", .scalar (.int 2001)),
      (.field "make", .scalar (.text "ford"))]).inserted (.field "year") (.scalar (.int 2002))
  have added : Elements.Built clauseAgain
      [.mapping [(.operator .gte, .scalar (.int 1)), (.operator .lte, .scalar (.int 2))],
        .scalar (.int 2001)] :=
    ((Elements.Built.new.inserted _).inserted _).inserted _
  have proper : ∀ value ∈ clauseAgain, value.Proper := by simp [clauseAgain, Entries.keys]
  exact ⟨built_reflects.1 _ _ bound, built_reflects.2 _ _ added proper⟩

end FilterLang
