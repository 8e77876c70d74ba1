import FilterLang.Validation.Position

/-!
# Written paths

A path is read off its text from the left. A name goes on to the next dot or opening bracket and an
index to the bracket that closes it, so a segment can be taken off the front of a text and leaves
the text of the others (`append_inj_of_stop`). What is special about the first key is only that its
dot is left out: that some segment comes first, and of which kind, is still seen from the first
character.
-/

namespace FilterLang

/-- A part of a text that ends at the first character of a kind is determined, and so is what comes
after it. -/
theorem append_inj_of_stop {stop : Char → Bool} {front other back rest : List Char}
    (inside : ∀ c ∈ front, stop c = false) (otherInside : ∀ c ∈ other, stop c = false)
    (stops : ∀ c ∈ back.head?, stop c = true) (otherStops : ∀ c ∈ rest.head?, stop c = true)
    (same : front ++ back = other ++ rest) : front = other ∧ back = rest := by
  induction front generalizing other with
  | nil =>
      cases other with
      | nil => exact ⟨rfl, same⟩
      | cons c other =>
          have stopped := stops c (by simp [show back = c :: (other ++ rest) from same])
          rw [otherInside c List.mem_cons_self] at stopped
          cases stopped
  | cons c front ih =>
      cases other with
      | nil =>
          have stopped := otherStops c (by simp [show rest = c :: (front ++ back) from same.symm])
          rw [inside c List.mem_cons_self] at stopped
          cases stopped
      | cons d other =>
          rcases List.cons.inj same with ⟨rfl, sameRest⟩
          rw [List.forall_mem_cons] at inside otherInside
          rcases ih inside.2 otherInside.2 sameRest with ⟨rfl, sameBack⟩
          exact ⟨rfl, sameBack⟩

namespace Segment

/-- A name that is not empty and holds neither of the characters that start a segment. -/
def PlainName (name : String) : Prop := name ≠ "" ∧ '.' ∉ name.toList ∧ '[' ∉ name.toList

/-- A segment is an index or a key with a plain name. -/
def Plain : Segment → Prop
  | .key name => PlainName name
  | .index _ => True

/-- Whether a character starts a segment after other segments. -/
def opens (c : Char) : Bool := c == '.' || c == '['

theorem PlainName.opens_eq_false {name : String} (plain : PlainName name) :
    ∀ c ∈ name.toList, opens c = false := by
  intro c present
  have noDot : c ≠ '.' := by
    rintro rfl
    exact plain.2.1 present
  have noBracket : c ≠ '[' := by
    rintro rfl
    exact plain.2.2 present
  simp [opens, noDot, noBracket]

/-- The characters of a path after other segments. -/
def tailChars (path : List Segment) : List Char := path.flatMap fun segment => segment.text.toList

theorem tailChars_key {name : String} {rest : List Segment} :
    tailChars (.key name :: rest) = '.' :: (name.toList ++ tailChars rest) := by
  simp [tailChars, text]

theorem tailChars_index {n : Nat} {rest : List Segment} :
    tailChars (.index n :: rest) =
      '[' :: (Nat.toDigits 10 n ++ ']' :: tailChars rest) := by
  simp [tailChars, text]

/-- Whatever comes after a segment starts with a dot or a bracket. -/
theorem opens_of_tailChars (path : List Segment) :
    ∀ c ∈ (tailChars path).head?, opens c = true := by
  cases path with
  | nil => simp [tailChars]
  | cons segment rest =>
      cases segment with
      | key name => simp [tailChars_key, opens]
      | index n => simp [tailChars_index, opens]

theorem toList_join (path : List Segment) :
    (String.join (path.map text)).toList = tailChars path := by
  rw [String.toList_join, List.flatMap_map, tailChars]

theorem toDigits_injective {first second : Nat}
    (same : Nat.toDigits 10 first = Nat.toDigits 10 second) : first = second := by
  calc first = Nat.ofDigitChars 10 (Nat.toDigits 10 first) 0 := Nat.ofDigitChars_ten_toDigits.symm
    _ = Nat.ofDigitChars 10 (Nat.toDigits 10 second) 0 := by rw [same]
    _ = second := Nat.ofDigitChars_ten_toDigits

/-- The digits of an index end at the bracket that closes it. -/
theorem index_append_injective {first second : Nat} {back rest : List Char}
    (same : Nat.toDigits 10 first ++ ']' :: back = Nat.toDigits 10 second ++ ']' :: rest) :
    first = second ∧ back = rest := by
  have digits : ∀ n, ∀ c ∈ Nat.toDigits 10 n, (!c.isDigit) = false := by
    intro n c present
    simp [Nat.isDigit_of_mem_toDigits (by decide) (by decide) present]
  rcases append_inj_of_stop (digits first) (digits second) (by simp) (by simp) same with
    ⟨sameDigits, sameRest⟩
  exact ⟨toDigits_injective sameDigits, (List.cons.inj sameRest).2⟩

/-- A plain name ends where the next segment starts. -/
theorem name_append_injective {first second : String} {path other : List Segment}
    (plain : PlainName first) (otherPlain : PlainName second)
    (same : first.toList ++ tailChars path = second.toList ++ tailChars other) :
    first = second ∧ tailChars path = tailChars other := by
  rcases append_inj_of_stop plain.opens_eq_false otherPlain.opens_eq_false
    (opens_of_tailChars path) (opens_of_tailChars other) same with ⟨sameName, sameRest⟩
  exact ⟨String.toList_inj.mp sameName, sameRest⟩

theorem tailChars_injective {path other : List Segment} (plain : ∀ segment ∈ path, segment.Plain)
    (otherPlain : ∀ segment ∈ other, segment.Plain) (same : tailChars path = tailChars other) :
    path = other := by
  induction path generalizing other with
  | nil =>
      cases other with
      | nil => rfl
      | cons segment rest => cases segment <;> simp [tailChars, text] at same
  | cons segment path ih =>
      cases other with
      | nil => cases segment <;> simp [tailChars, text] at same
      | cons another other =>
          rw [List.forall_mem_cons] at plain otherPlain
          cases segment with
          | key name =>
              cases another with
              | key another =>
                  rw [tailChars_key, tailChars_key, List.cons.injEq] at same
                  rcases name_append_injective plain.1 otherPlain.1 same.2 with ⟨rfl, sameRest⟩
                  rw [ih plain.2 otherPlain.2 sameRest]
              | index n => simp [tailChars_key, tailChars_index] at same
          | index n =>
              cases another with
              | key another => simp [tailChars_key, tailChars_index] at same
              | index m =>
                  rw [tailChars_index, tailChars_index, List.cons.injEq] at same
                  rcases index_append_injective same.2 with ⟨rfl, sameRest⟩
                  rw [ih plain.2 otherPlain.2 sameRest]

/-- The dot that is left out before a name, put back. -/
def withDot : List Char → List Char
  | [] => []
  | c :: rest => if opens c then c :: rest else '.' :: c :: rest

/-- The text of a path tells whether it starts with a key, and so where a dot is left out. -/
theorem withDot_pathText {path : List Segment} (plain : ∀ segment ∈ path, segment.Plain) :
    withDot (pathText path).toList = tailChars path := by
  cases path with
  | nil => rfl
  | cons segment rest =>
      rw [List.forall_mem_cons] at plain
      cases segment with
      | key name =>
          have nonempty : name.toList ≠ [] := mt String.toList_eq_nil_iff.mp plain.1.1
          rcases List.exists_cons_of_ne_nil nonempty with ⟨c, others, first⟩
          have inside := PlainName.opens_eq_false plain.1 c (by simp [first])
          rw [pathText, String.toList_append, toList_join, tailChars_key, first]
          simp [withDot, inside]
      | index n =>
          rw [pathText, toList_join, tailChars_index]
          rfl

/-- A written path identifies its position: paths whose keys have plain names are written alike only
if they are the same path. -/
theorem pathText_injective (path other : List Segment) (plain : ∀ segment ∈ path, segment.Plain)
    (otherPlain : ∀ segment ∈ other, segment.Plain) (same : pathText path = pathText other) :
    path = other := by
  apply tailChars_injective plain otherPlain
  rw [← withDot_pathText plain, ← withDot_pathText otherPlain, same]

/-- Names of keys may hold closing brackets and digits, and indexes may follow each other. -/
def bracketedPath : List Segment := [.key "a]", .index 10, .index 0, .key "1]", .key "]"]

/-- The steps that are written as a path with brackets in its names. -/
def bracketedPosition : Position :=
  [.key (.field "a]"), .index 10, .index 0, .key (.field "1]"), .key (.field "]")]

theorem pathText_injective_bracketedPath :
    (∀ segment ∈ bracketedPath, segment.Plain) ∧
      (∀ segment ∈ bracketedPosition.map Step.segment, segment.Plain) ∧
      pathText bracketedPath = "a][10][0].1].]" ∧
      pathText bracketedPath = pathText (bracketedPosition.map Step.segment) ∧
      bracketedPath = bracketedPosition.map Step.segment := by
  have plain : ∀ segment ∈ bracketedPath, segment.Plain := by
    simp [bracketedPath, Plain, PlainName]
  have positionPlain : ∀ segment ∈ bracketedPosition.map Step.segment, segment.Plain := by
    simp [bracketedPosition, Step.segment, Key.name, Plain, PlainName]
  have written : pathText bracketedPath = "a][10][0].1].]" := by decide
  have same : pathText bracketedPath = pathText (bracketedPosition.map Step.segment) := by decide
  exact ⟨plain, positionPlain, written, same,
    pathText_injective bracketedPath (bracketedPosition.map Step.segment) plain positionPlain same⟩

end Segment

end FilterLang
