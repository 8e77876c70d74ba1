import FilterLang.Proofs.Normal.Congruence
import FilterLang.Proofs.Validation.Order
import FilterLang.Proofs.Validation.UnknownFields
import FilterLang.Session

/-!
# Verdicts

A session looks at the normal form of a filter only. What it accepts may therefore hold unknown
fields, but only at positions that normalization discards. And since equal filters have equal normal
forms, which are canonical, the order in which a filter is written does not count for its verdict.
-/

namespace FilterLang

namespace Session

/-- A session that runs every pass accepts a filter if nothing is found in its normal form. -/
theorem checkNode_eq_accepted {registry : Registry} {dataset : Option String} {node form : Node}
    {name : String} :
    (ofRegistry registry).checkNode dataset node = .ok (.accepted name form) ↔
      ∃ view, registry.viewOf dataset = .ok view ∧ node.normalize = .ok form ∧
        view.filterFindings form = [] ∧ view.name = name := by
  have judged : ∀ (view : View) (filter : Node), judge view filter = .accepted name form ↔
      filter = form ∧ view.filterFindings form = [] ∧ view.name = name := by
    intro view filter
    simp only [judge, View.validate_eq, Report.isValid,
      List.isEmpty_map]
    cases clean : view.filterFindings filter with
    | nil =>
        simp only [List.isEmpty_nil, if_true, Outcome.accepted.injEq]
        constructor
        · rintro ⟨sameName, rfl⟩
          exact ⟨rfl, clean, sameName⟩
        · rintro ⟨rfl, _, sameName⟩
          exact ⟨sameName, rfl⟩
    | cons finding rest =>
        simp only [List.isEmpty_cons, Bool.false_eq_true, if_false]
        constructor
        · intro impossible
          cases impossible
        · rintro ⟨rfl, none, _⟩
          simp [clean] at none
  have normalized : ∀ filter : Node, filter.normalizeWith (ofRegistry registry).passes =
      filter.normalize := fun _ => rfl
  simp only [checkNode, bind_eq_ok, mapError_eq_ok, normalized, Except.ok.injEq, judged]
  constructor
  · rintro ⟨view, resolved, filter, normal, rfl, clean, sameName⟩
    exact ⟨view, resolved, normal, clean, sameName⟩
  · rintro ⟨view, resolved, normal, clean, sameName⟩
    exact ⟨view, resolved, form, normal, rfl, clean, sameName⟩

/-- Validation of a filter that a session accepts finds unknown keys at hidden positions only. -/
theorem hidden_of_unknownKey (registry : Registry) (dataset : Option String) (view : View)
    (node : Node) (proper : node.Proper) (resolved : registry.viewOf dataset = .ok view)
    (accepted : ∃ name form,
      (ofRegistry registry).checkNode dataset node = .ok (.accepted name form)) :
    (view.validate node).issues = (view.filterFindings node).map Issue.ofFinding ∧
      ∀ finding ∈ view.filterFindings node, finding.problem.kind = .unknownKey →
        node.Hidden finding.position := by
  rcases accepted with ⟨name, form, accepted⟩
  rcases checkNode_eq_accepted.mp accepted with ⟨other, resolvedOther, normalized, clean, _⟩
  rw [resolved, Except.ok.injEq] at resolvedOther
  subst resolvedOther
  rw [View.filterFindings, List.append_eq_nil_iff] at clean
  refine ⟨congrArg Report.issues (view.validate_eq node), ?_⟩
  intro finding found unknown
  rcases List.mem_append.mp found with atRoot | inside
  · split at atRoot
    · simp at atRoot
    · rw [List.mem_singleton] at atRoot
      subst atRoot
      cases unknown
  · rcases View.hiddenOrShown_of_findings proper inside unknown with
      hidden | ⟨field, unknownField, shows⟩
    · exact hidden
    · have mentions := Node.normalize_mentions proper normalized shows
      have known := View.hasField_of_findings_eq_nil clean.2 mentions
      simp [unknownField] at known

/-- A registry with one dataset, which has one field. -/
def carRegistry : Registry where
  datasets := .ofList [("car", .declare "car" [("year", ⟨.int, none, .none⟩)] none [])]
  default? := some "car"

/-- A field with a mapping of another field, which takes its place. -/
def supersededField : Node :=
  .entry (.field "bogus") (.entry (.field "year") (.scalar (.int 2001)))

theorem hidden_of_unknownKey_superseded :
    ∃ view, carRegistry.viewOf none = .ok view ∧ supersededField.Proper ∧
      (∃ name form,
        (ofRegistry carRegistry).checkNode none supersededField = .ok (.accepted name form)) ∧
      (view.validate supersededField).issues =
        (view.filterFindings supersededField).map Issue.ofFinding ∧
      ∀ finding ∈ view.filterFindings supersededField, finding.problem.kind = .unknownKey →
        supersededField.Hidden finding.position := by
  have proper : supersededField.Proper := by
    simp [supersededField]
  refine ⟨_, rfl, proper, ⟨_, _, rfl⟩, ?_⟩
  exact hidden_of_unknownKey carRegistry none _ supersededField proper rfl ⟨_, _, rfl⟩

/-- A field whose value supersedes it, and a field beside two bounds, are unknown and escape a
session. -/
theorem unknownKey_of_accepted :
    ∃ view, carRegistry.viewOf none = .ok view ∧
      ((ofRegistry carRegistry).checkNode none (Node.entry (.field "bogus") Node.empty) =
          .ok (.accepted "car" Node.empty) ∧
        (view.validate (Node.entry (.field "bogus") Node.empty)).issues.map Issue.kind =
          [.unknownKey]) ∧
      ((ofRegistry carRegistry).checkNode none (Node.entry (.field "year")
          (.mapping [(.operator .start, .scalar (.int 1)), (.operator .stop, .scalar (.int 2)),
            (.field "bogus", .scalar (.int 3))])) =
          .ok (.accepted "car" (Node.and
            [Node.entry (.field "year") (Node.entry (.operator .gte) (.scalar (.int 1))),
              Node.entry (.field "year") (Node.entry (.operator .lte) (.scalar (.int 2)))])) ∧
        (view.validate (Node.entry (.field "year")
          (.mapping [(.operator .start, .scalar (.int 1)), (.operator .stop, .scalar (.int 2)),
            (.field "bogus", .scalar (.int 3))]))).issues.map Issue.kind = [.unknownKey]) := by
  refine ⟨_, rfl, ⟨rfl, rfl⟩, rfl, rfl⟩

section Order

/-- A session has one verdict on two filters, up to the order of what it says: both cannot be
evaluated, both are accepted with equal normal forms, or both are rejected for issues of the same
kinds. -/
inductive SameVerdict (session : Session) (dataset : Option String) (node other : Node) : Prop
  | failed {error otherError : SessionError} (fails : session.checkNode dataset node = .error error)
      (otherFails : session.checkNode dataset other = .error otherError)
  | accepted {name : String} {form otherForm : Node}
      (accepts : session.checkNode dataset node = .ok (.accepted name form))
      (otherAccepts : session.checkNode dataset other = .ok (.accepted name otherForm))
      (sameForm : form.equal otherForm = true)
  | rejected {view : View} {form otherForm : Node}
      (resolved : session.registry.viewOf dataset = .ok view)
      (normalized : node.normalizeWith session.passes = .ok form)
      (otherNormalized : other.normalizeWith session.passes = .ok otherForm)
      (rejects : session.checkNode dataset node =
        .ok (.rejected view.name (view.validate form).messages))
      (otherRejects : session.checkNode dataset other =
        .ok (.rejected view.name (view.validate otherForm).messages))
      (sameNumber : (view.validate form).messages.length =
        (view.validate otherForm).messages.length)
      (sameKinds : ((view.validate form).issues.map Issue.kind).Perm
        ((view.validate otherForm).issues.map Issue.kind))

variable {session : Session} {dataset : Option String} {view : View}

theorem checkNode_of_normalized {node form : Node}
    (resolved : session.registry.viewOf dataset = .ok view)
    (normalized : node.normalizeWith session.passes = .ok form) :
    session.checkNode dataset node = .ok (judge view form) := by
  rw [checkNode, resolved, normalized]
  rfl

theorem checkNode_of_fault {node : Node} {fault : Fault}
    (resolved : session.registry.viewOf dataset = .ok view)
    (refused : node.normalizeWith session.passes = .error fault) :
    session.checkNode dataset node = .error (.malformed fault) := by
  rw [checkNode, resolved, refused]
  rfl

theorem checkNode_of_unresolved {error : RegistryError}
    (unresolved : session.registry.viewOf dataset = .error error) (node : Node) :
    session.checkNode dataset node = .error (.registry error) := by
  rw [checkNode, unresolved]
  rfl

/-- The verdict on two equal canonical filters is the same. -/
theorem sameVerdict_of_sameTree {node other form otherForm : Node}
    (resolved : session.registry.viewOf dataset = .ok view)
    (normalized : node.normalizeWith session.passes = .ok form)
    (otherNormalized : other.normalizeWith session.passes = .ok otherForm)
    (canonical : form.Canonical) (same : Node.SameTree form otherForm) :
    session.SameVerdict dataset node other := by
  have judged := checkNode_of_normalized resolved normalized
  have otherJudged := checkNode_of_normalized resolved otherNormalized
  have sameKinds : ((view.validate form).issues.map Issue.kind).Perm
      ((view.validate otherForm).issues.map Issue.kind) := View.kinds_validate canonical same
  have sameNumber := Report.length_of_kinds sameKinds
  have sameValidity := (Report.isValid_of_kinds sameKinds).symm
  cases valid : (view.validate form).isValid with
  | true =>
      rw [judge, if_pos valid] at judged
      rw [judge, if_pos (sameValidity.trans valid)] at otherJudged
      exact .accepted judged otherJudged same.2
  | false =>
      rw [judge, if_neg (by simp [valid])] at judged
      rw [judge, if_neg (by simp [sameValidity, valid])] at otherJudged
      apply SameVerdict.rejected resolved normalized otherNormalized judged otherJudged _ sameKinds
      simpa [Report.messages] using sameNumber

/-- The order in which a filter is written does not count for the verdict of a session that makes
conjunctions explicit: neither the order of mapping entries nor that of multiset elements. -/
theorem checkNode_respects_equality (session : Session) (dataset : Option String)
    (selected : .impliedConjunction ∈ session.passes) (node other : Node) (proper : node.Proper)
    (same : node.equal other = true) : session.SameVerdict dataset node other := by
  cases resolved : session.registry.viewOf dataset with
  | error error =>
      exact .failed (checkNode_of_unresolved resolved node) (checkNode_of_unresolved resolved other)
  | ok view =>
      have respected := Node.normalizeWith_respected session.passes
      cases normalized : node.normalizeWith session.passes with
      | ok form =>
          rcases respected node other form ⟨proper, same⟩ normalized with
            ⟨otherForm, otherNormalized, sameForm⟩
          have canonical := Node.canonical_of_normalizeWith selected normalized
          exact sameVerdict_of_sameTree resolved normalized otherNormalized canonical sameForm
      | error fault =>
          have outcome := Node.sameOutcome_of_respected respected ⟨proper, same⟩
          rw [normalized] at outcome
          cases refused : other.normalizeWith session.passes with
          | ok otherForm =>
              rw [refused] at outcome
              exact outcome.elim
          | error otherFault =>
              exact .failed (checkNode_of_fault resolved normalized)
                (checkNode_of_fault resolved refused)

/-- An ill-typed year, and a field that is unknown. -/
def yearFirst : Node :=
  .mapping [(.field "year", .scalar (.bool true)), (.field "bogus", .scalar (.int 1))]

/-- The same filter with its fields in the other order. -/
def yearLast : Node :=
  .mapping [(.field "bogus", .scalar (.int 1)), (.field "year", .scalar (.bool true))]

theorem checkNode_respects_equality_yearFirst :
    .impliedConjunction ∈ (ofRegistry carRegistry).passes ∧ yearFirst.Proper ∧
      yearFirst.equal yearLast = true ∧
      (∃ name errors, (ofRegistry carRegistry).checkNode none yearFirst =
        .ok (.rejected name errors)) ∧
      (ofRegistry carRegistry).SameVerdict none yearFirst yearLast := by
  have selected : .impliedConjunction ∈ (ofRegistry carRegistry).passes := by
    simp [ofRegistry, Pass.all]
  have proper : yearFirst.Proper := by
    simp [yearFirst, Entries.keys]
  have same : yearFirst.equal yearLast = true := rfl
  exact ⟨selected, proper, same, ⟨_, _, rfl⟩,
    checkNode_respects_equality (ofRegistry carRegistry) none selected _ _ proper same⟩

end Order

end Session

end FilterLang
