import FilterLang.Proofs.Validation.Checked
import FilterLang.Proofs.Validation.Order
import Mathlib.Logic.Relation

/-!
# The order of multisets in a report

The elements of a multiset are walked over under one context, which no element changes for the
others. So the elements of the multisets in any tree may come in another order, canonical or not:
the same kinds of problems are found, and only their places in the report and their positions
differ. The entries of mappings have to stay where they are, since they hand on a context.
-/

namespace FilterLang

namespace Node

/-- A tree turns into another one when the elements of one multiset come in another order. -/
inductive Shuffles : Node → Node → Prop
  /-- The multiset is the tree itself. -/
  | elements {elements others : Elements} (perm : elements.Perm others) :
      Shuffles (.multiset elements) (.multiset others)
  /-- The multiset is inside the value of an entry. -/
  | value {before after : Entries} {key : Key} {value other : Node}
      (inside : Shuffles value other) :
      Shuffles (.mapping (before ++ (key, value) :: after))
        (.mapping (before ++ (key, other) :: after))
  /-- The multiset is inside an element. -/
  | element {before after : Elements} {element other : Node} (inside : Shuffles element other) :
      Shuffles (.multiset (before ++ element :: after)) (.multiset (before ++ other :: after))
  /-- The multiset is inside an item. -/
  | item {before after : List Node} {item other : Node} (inside : Shuffles item other) :
      Shuffles (.sequence (before ++ item :: after)) (.sequence (before ++ other :: after))

variable {node other : Node}

theorem Shuffles.isMapping (shuffles : Shuffles node other) :
    other.isMapping = node.isMapping := by
  cases shuffles <;> rfl

theorem Shuffles.composite (shuffles : Shuffles node other) :
    node.isComposite = true ∧ other.isComposite = true := by
  cases shuffles <;> exact ⟨rfl, rfl⟩

end Node

namespace View

open Finding (kinds)
open Node (Shuffles)

variable {view : View} {context : Context} {node other : Node}

/-- The kinds of problems in a tree stay the same when the elements of a multiset in it come in
another order. -/
theorem kinds_findings_of_shuffles (shuffles : Shuffles node other) :
    (kinds (view.findings context node)).Perm (kinds (view.findings context other)) := by
  induction shuffles generalizing context with
  | @elements elements others perm =>
      rw [kinds_multiset elements, kinds_multiset others]
      exact (perm.flatMap_right _).append_left _
  | @value before after key value other inside ih =>
      have here : (kinds (view.findingsAt context.operator
            (view.contextThrough context before) (key, value))).Perm
          (kinds (view.findingsAt context.operator
            (view.contextThrough context before) (key, other))) :=
        kinds_findingsAt_of_composite inside.composite.1 inside.composite.2 fun _ => ih
      simp only [findings, entryFindings_append, entryFindings_cons, Finding.kinds_append,
        Finding.kinds_under]
      exact (here.append_right _).append_left _
  | @element before after element other inside ih =>
      have sameScalar : other.scalar? = element.scalar? := by
        rw [Node.scalar?_of_composite inside.composite.1,
          Node.scalar?_of_composite inside.composite.2]
      have here : (view.elementKinds context element).Perm (view.elementKinds context other) :=
        elementKinds_perm inside.isMapping sameScalar ih
      rw [kinds_multiset (before ++ element :: after), kinds_multiset (before ++ other :: after),
        List.flatMap_append, List.flatMap_append, List.flatMap_cons, List.flatMap_cons]
      exact ((here.append_right _).append_left _).append_left _
  | item inside ih => rfl

theorem kinds_validate_of_shuffles (shuffles : Shuffles node other) :
    ((view.validate node).issues.map Issue.kind).Perm
      ((view.validate other).issues.map Issue.kind) := by
  rw [map_kind_validate, map_kind_validate]
  exact kinds_filterFindings shuffles.isMapping (kinds_findings_of_shuffles shuffles)

/-- The order of the elements of multisets, at any depth of any tree, does not count for the number
and the kinds of the issues in the report, and so not for whether there are any. -/
theorem validate_shuffled (view : View) (node other : Node)
    (shuffled : Relation.ReflTransGen Shuffles node other) :
    (view.validate node).issues.length = (view.validate other).issues.length ∧
      ((view.validate node).issues.map Issue.kind).Perm
        ((view.validate other).issues.map Issue.kind) ∧
      (view.validate node).isValid = (view.validate other).isValid := by
  have sameKinds : ((view.validate node).issues.map Issue.kind).Perm
      ((view.validate other).issues.map Issue.kind) := by
    induction shuffled with
    | refl => rfl
    | tail _ shuffles ih => exact ih.trans (kinds_validate_of_shuffles shuffles)
  exact ⟨Report.length_of_kinds sameKinds, sameKinds, Report.isValid_of_kinds sameKinds⟩

/-- Admitted years, one of them ill-typed, and alternatives, none of which fits cars. -/
def soonFirst : Node :=
  .mapping [
    (.field "year", .entry (.operator .among)
      (.multiset [.scalar (.text "soon"), .scalar (.int 2001)])),
    (.operator .or, .multiset [.scalar (.int 5), .entry (.field "bogus") (.scalar .null)])]

/-- The same filter with both multisets in the other order. -/
def soonLast : Node :=
  .mapping [
    (.field "year", .entry (.operator .among)
      (.multiset [.scalar (.int 2001), .scalar (.text "soon")])),
    (.operator .or, .multiset [.entry (.field "bogus") (.scalar .null), .scalar (.int 5)])]

theorem validate_shuffled_soonFirst :
    Relation.ReflTransGen Shuffles soonFirst soonLast ∧
      (carView.validate soonFirst).issues.map Issue.kind =
        [.typeMismatch, .expectedMapping, .unknownKey] ∧
      (carView.validate soonFirst).issues.length = (carView.validate soonLast).issues.length ∧
      ((carView.validate soonFirst).issues.map Issue.kind).Perm
        ((carView.validate soonLast).issues.map Issue.kind) ∧
      (carView.validate soonFirst).isValid = (carView.validate soonLast).isValid := by
  have shuffled : Relation.ReflTransGen Shuffles soonFirst soonLast := by
    apply Relation.ReflTransGen.tail (.single _)
    · exact @Shuffles.value [_] [] _ _ _ (.elements (.swap _ _ _))
    · exact @Shuffles.value [] [_] _ _ _ (@Shuffles.value [] [] _ _ _ (.elements (.swap _ _ _)))
  exact ⟨shuffled, rfl, validate_shuffled carView soonFirst soonLast shuffled⟩

end View

end FilterLang
