import FilterLang.Proofs.Filter.Traversal
import Mathlib.Data.List.Perm.Subperm

/-!
# Matching members

Two lists match if the second one can be reordered so that its members are related to those of the
first, one by one. This is how the entries of two equal mappings are related, and how the elements
of two equal multisets are. What is computed from matching lists member by member matches again.
-/

namespace FilterLang

variable {α β : Type} {relation : α → β → Prop} {list : List α} {others : List β}

/-- A reordering of the second list is related to the first list member by member. -/
def Matching (relation : α → β → Prop) (list : List α) (others : List β) : Prop :=
  ∃ partners, partners.Perm others ∧ List.Forall₂ relation list partners

namespace Matching

theorem length_eq (matching : Matching relation list others) : list.length = others.length := by
  rcases matching with ⟨partners, perm, matched⟩
  rw [matched.length_eq, perm.length_eq]

theorem exists_right (matching : Matching relation list others) {member : α}
    (present : member ∈ list) : ∃ other ∈ others, relation member other := by
  rcases matching with ⟨partners, perm, matched⟩
  rcases exists_result matched present with ⟨other, among, related⟩
  exact ⟨other, perm.mem_iff.mp among, related⟩

theorem exists_left (matching : Matching relation list others) {other : β}
    (present : other ∈ others) : ∃ member ∈ list, relation member other := by
  rcases matching with ⟨partners, perm, matched⟩
  exact exists_source matched (perm.mem_iff.mpr present)

theorem imp_of_mem {implied : α → β → Prop} (matching : Matching relation list others)
    (implies : ∀ member ∈ list, ∀ other, relation member other → implied member other) :
    Matching implied list others := by
  rcases matching with ⟨partners, perm, matched⟩
  exact ⟨partners, perm, forall₂_imp_of_mem matched implies⟩

/-- A traversal that succeeds on a list succeeds on a matching list, with matching results, if it
does so member by member. -/
theorem results {same : α → α → Prop} {equal : β → β → Prop} {sources targets : List α}
    {results : List β} (matching : Matching same sources targets)
    (related : List.Forall₂ relation sources results)
    (step : ∀ source ∈ sources, ∀ target result, same source target → relation source result →
      ∃ other, relation target other ∧ equal result other) :
    ∃ others, List.Forall₂ relation targets others ∧ Matching equal results others := by
  rcases matching with ⟨partners, perm, matched⟩
  have pointwise : ∃ others, List.Forall₂ relation partners others ∧
      List.Forall₂ equal results others := by
    clear perm
    induction related generalizing partners with
    | nil =>
        cases matched
        exact ⟨[], .nil, .nil⟩
    | cons first _ ih =>
        cases matched with
        | cons sameFirst sameRest =>
            rcases step _ List.mem_cons_self _ _ sameFirst first with ⟨other, relates, equals⟩
            have stepRest := fun source present => step source (List.mem_cons_of_mem _ present)
            rcases ih stepRest _ sameRest with ⟨others, relatesRest, equalsRest⟩
            exact ⟨other :: others, .cons relates relatesRest, .cons equals equalsRest⟩
  rcases pointwise with ⟨inOrder, relates, equals⟩
  rcases List.perm_comp_forall₂ perm.symm relates with ⟨others, relatesOthers, reordered⟩
  exact ⟨others, relatesOthers, inOrder, reordered.symm, equals⟩

/-- What matching members contribute, taken together, is the same up to order. -/
theorem flatMap_perm {γ : Type} {f : α → List γ} {g : β → List γ}
    (matching : Matching relation list others)
    (same : ∀ member ∈ list, ∀ other, relation member other → (f member).Perm (g other)) :
    (list.flatMap f).Perm (others.flatMap g) := by
  rcases matching with ⟨partners, perm, matched⟩
  have pointwise : (list.flatMap f).Perm (partners.flatMap g) := by
    clear perm
    induction matched with
    | nil => simp
    | cons first _ ih =>
        simp only [List.flatMap_cons]
        apply List.Perm.append (same _ List.mem_cons_self _ first)
        apply ih
        intro member present
        exact same member (List.mem_cons_of_mem _ present)
  exact pointwise.trans (perm.flatMap_right g)

/-- Members that are apart have partners that are apart, in any order. -/
theorem pairwise {apart : α → α → Prop} {separate : β → β → Prop}
    (matching : Matching relation list others) (pairwise : list.Pairwise apart)
    (symm : ∀ {first second}, separate first second → separate second first)
    (step : ∀ first ∈ list, ∀ second ∈ list, ∀ partner other, relation first partner →
      relation second other → apart first second → separate partner other) :
    others.Pairwise separate := by
  rcases matching with ⟨partners, perm, matched⟩
  rw [← perm.pairwise_iff symm]
  clear perm
  induction matched with
  | nil => exact .nil
  | cons first rest ih =>
      rw [List.pairwise_cons] at pairwise ⊢
      constructor
      · intro other present
        rcases exists_source rest present with ⟨member, among, related⟩
        exact step _ List.mem_cons_self _ (List.mem_cons_of_mem _ among) _ _ first related
          (pairwise.1 member among)
      · apply ih pairwise.2
        intro earlier present later among
        exact step earlier (List.mem_cons_of_mem _ present) later (List.mem_cons_of_mem _ among)

end Matching

/-- If no two members share a partner, then a list finds all its partners at different places. -/
theorem exists_partners
    (partner : ∀ member ∈ list, ∃ other ∈ others, relation member other)
    (apart : list.Pairwise fun earlier later =>
      ∀ other ∈ others, relation earlier other → ¬relation later other) :
    ∃ partners, partners.Subperm others ∧ List.Forall₂ relation list partners := by
  induction list generalizing others with
  | nil => exact ⟨[], List.nil_subperm, .nil⟩
  | cons member rest ih =>
      rcases partner member List.mem_cons_self with ⟨other, present, related⟩
      rcases List.append_of_mem present with ⟨before, after, rfl⟩
      rcases List.pairwise_cons.mp apart with ⟨alone, apart⟩
      have reordered : (other :: (before ++ after)).Perm (before ++ other :: after) :=
        List.perm_middle.symm
      have partnerRest : ∀ later ∈ rest, ∃ left ∈ before ++ after, relation later left := by
        intro later among
        rcases partner later (List.mem_cons_of_mem _ among) with ⟨left, leftPresent, leftRelated⟩
        rcases List.mem_cons.mp (reordered.mem_iff.mpr leftPresent) with rfl | remaining
        · exact absurd leftRelated (alone later among left present related)
        · exact ⟨left, remaining, leftRelated⟩
      have apartRest : rest.Pairwise fun earlier later =>
          ∀ left ∈ before ++ after, relation earlier left → ¬relation later left := by
        apply apart.imp
        intro earlier later separate left among
        exact separate left (reordered.mem_iff.mp (List.mem_cons_of_mem _ among))
      rcases ih partnerRest apartRest with ⟨partners, subperm, matched⟩
      refine ⟨other :: partners, ?_, .cons related matched⟩
      exact ((List.subperm_cons other).mpr subperm).trans reordered.subperm

/-- If no two members share a partner, and the two lists are of one length, then they match. -/
theorem exists_matching (length : list.length = others.length)
    (partner : ∀ member ∈ list, ∃ other ∈ others, relation member other)
    (apart : list.Pairwise fun earlier later =>
      ∀ other ∈ others, relation earlier other → ¬relation later other) :
    Matching relation list others := by
  rcases exists_partners partner apart with ⟨partners, subperm, matched⟩
  have sameLength : others.length = partners.length := length.symm.trans matched.length_eq
  exact ⟨partners, subperm.perm_of_length_le (Nat.le_of_eq sameLength), matched⟩

/-- If no two members share a partner, then there are not more members than partners. -/
theorem length_le_of_partners
    (partner : ∀ member ∈ list, ∃ other ∈ others, relation member other)
    (apart : list.Pairwise fun earlier later =>
      ∀ other ∈ others, relation earlier other → ¬relation later other) :
    list.length ≤ others.length := by
  rcases exists_partners partner apart with ⟨partners, subperm, matched⟩
  rw [matched.length_eq]
  exact subperm.length_le

theorem Entries.keys_perm_of_matching {relation : Node → Node → Prop} {entries others : Entries}
    (matching : Matching (Corresponds relation) entries others) :
    (keys entries).Perm (keys others) := by
  rcases matching with ⟨partners, perm, matched⟩
  rw [← keys_eq_of_forall₂ matched]
  exact perm.map _

end FilterLang
