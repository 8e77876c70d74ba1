import FilterLang.Proofs.Dataset.Registry
import FilterLang.Proofs.Validation.Alike
import FilterLang.Proofs.Validation.Visits

/-!
# Delegation to foreign datasets

What a view answers is settled by the declarations of the dataset itself and of the foreign datasets
that it names. The foreign datasets of those, the rest of the registry, its default and the order of
registration do not count. A field is judged by one dataset alone (`Registry.Judges`): the dataset
itself if it declares the field, and else the first foreign one that does. What a report says of
values, comparisons, operators and fields is what the declarations of these datasets have against
the filter (`Registry.Objects`), no more and no less.
-/

namespace FilterLang

namespace View

section Owners

variable {view : View} {problem : Problem}

/-- The owner of a field says what is wrong with a value of it, the type first, and no other dataset
does. -/
theorem mem_valueProblems {field : String} {value : Scalar} :
    problem ∈ view.valueProblems field value ↔
      ∃ judge declaration, view.owner? field = some judge ∧
        judge.field? field = some declaration ∧
        ((declaration.type.accepts value = false ∧
            problem = .wrongType (.wrongType field declaration.type (.scalar value))) ∨
          (declaration.type.accepts value = true ∧
            ∃ violation ∈ declaration.limits.violations value,
              problem = .outsideLimits (.outsideLimits field value violation))) := by
  cases owned : view.owner? field with
  | none => simp [valueProblems, typeComplaints, limitComplaints, owned]
  | some judge =>
      cases declared : judge.field? field with
      | none =>
          simp [valueProblems, typeComplaints, limitComplaints, owned, Dataset.typeComplaints,
            Dataset.limitComplaints, declared]
      | some declaration =>
          cases accepted : declaration.type.accepts value with
          | false =>
              simp [valueProblems, typeComplaints, owned, Dataset.typeComplaints, declared,
                accepted, Node.scalar?]
          | true =>
              simp [valueProblems, typeComplaints, limitComplaints, owned, Dataset.typeComplaints,
                Dataset.limitComplaints, declared, accepted, Node.scalar?, @eq_comm _ problem]

theorem mem_operatorComplaints {field : String} {op : Operator} {complaint : Complaint} :
    complaint ∈ view.operatorComplaints (some field) op ↔
      ∃ judge declaration admitted, view.owner? field = some judge ∧
        judge.field? field = some declaration ∧ declaration.operators = some admitted ∧
        op.isComparison = true ∧ op ∉ admitted ∧
        complaint = .operatorNotAdmitted op field judge.name := by
  cases owned : view.owner? field with
  | none =>
      have undeclared : view.root.field? field = none := by
        have passes := List.find?_eq_none.mp owned view.root List.mem_cons_self
        simpa [Dataset.hasField, Dataset.field?, Table.has] using passes
      simp [operatorComplaints, owned, Dataset.operatorComplaints, undeclared]
  | some judge =>
      cases declared : judge.field? field with
      | none => simp [operatorComplaints, owned, Dataset.operatorComplaints, declared]
      | some declaration =>
          cases restricted : declaration.operators with
          | none =>
              simp [operatorComplaints, owned, Dataset.operatorComplaints, declared, restricted]
          | some admitted =>
              cases compares : op.isComparison with
              | false =>
                  simp [operatorComplaints, owned, Dataset.operatorComplaints, declared,
                    restricted, compares]
              | true =>
                  by_cases admits : op ∈ admitted
                  · simp [operatorComplaints, owned, Dataset.operatorComplaints, declared,
                      restricted, compares, admits]
                  · simp [operatorComplaints, owned, Dataset.operatorComplaints, declared,
                      restricted, compares, admits]

theorem mem_operatorProblems {field : Option String} {op : Operator} :
    problem ∈ view.operatorProblems ⟨none, field⟩ op ↔
      (view.hasOperator op = false ∧ problem = .operatorNotAdmitted op view.name) ∨
        (view.hasOperator op = true ∧ ∃ name, field = some name ∧
          ∃ complaint ∈ view.operatorComplaints (some name) op,
            problem = .comparisonNotAdmitted complaint) := by
  cases admits : view.hasOperator op with
  | false => simp [operatorProblems, admits]
  | true =>
      cases field with
      | none => simp [operatorProblems, admits, operatorComplaints, Dataset.operatorComplaints]
      | some name => simp [operatorProblems, admits, @eq_comm _ problem]

end Owners

end View

namespace Registry

variable {registry other : Registry} {name field : String} {view otherView : View}
  {judge : Dataset}

/-- Two registries say the same of a dataset and of the foreign datasets that it names. Of those
only the fields and the operators count. -/
structure AgreesOn (registry other : Registry) (name : String) : Prop where
  root : ∀ dataset counterpart, registry.find? name = some dataset →
    other.find? name = some counterpart →
      dataset.Agrees counterpart ∧ dataset.foreigns = counterpart.foreigns
  foreign : ∀ dataset, registry.find? name = some dataset → ∀ foreign ∈ dataset.foreigns,
    ∀ neighbour counterpart, registry.find? foreign = some neighbour →
      other.find? foreign = some counterpart → neighbour.Agrees counterpart

/-- The dataset that judges a field under a name: the dataset of that name if it declares the field,
and else the first of its foreign datasets that does. -/
inductive Judges (registry : Registry) (name field : String) : Dataset → Prop
  | root {root : Dataset} (finds : registry.find? name = some root)
      (declares : root.hasField field = true) : Judges registry name field root
  | foreign {root judge : Dataset} {before after : List String} {foreign : String}
      (finds : registry.find? name = some root) (passes : root.hasField field = false)
      (order : root.foreigns = before ++ foreign :: after)
      (earlier : ∀ skipped ∈ before, ∀ dataset, registry.find? skipped = some dataset →
        dataset.hasField field = false)
      (findsForeign : registry.find? foreign = some judge)
      (declares : judge.hasField field = true) : Judges registry name field judge

/-- A field has a judge under a name. -/
def Knows (registry : Registry) (name field : String) : Prop :=
  ∃ judge, registry.Judges name field judge

/-- An operator is admitted under a name: by the dataset of that name or by one of its foreign
datasets. -/
inductive Admits (registry : Registry) (name : String) (op : Operator) : Prop
  | root {root : Dataset} (finds : registry.find? name = some root) (admits : op ∈ root.operators)
  | foreign {root neighbour : Dataset} {foreign : String}
      (finds : registry.find? name = some root) (named : foreign ∈ root.foreigns)
      (findsForeign : registry.find? foreign = some neighbour) (admits : op ∈ neighbour.operators)

/-- What the declarations have against a filter. The judge of a field objects to a value that the
type of the field refuses, to a value of the type that is outside its limits, and to a comparison
that the field does not admit. An operator that no dataset admits and a field without judge are
objected to as such. -/
inductive Objects (registry : Registry) (name : String) (filter : Node) :
    Position → Problem → Prop
  | type {position : Position} {field : String} {value : Scalar} {judge : Dataset}
      {declaration : Field}
      (compared : filter.Compared (registry.Knows name) position field value)
      (judges : registry.Judges name field judge)
      (declares : judge.field? field = some declaration)
      (refuses : declaration.type.accepts value = false) :
      Objects registry name filter position
        (.wrongType (.wrongType field declaration.type (.scalar value)))
  | limit {position : Position} {field : String} {value : Scalar} {judge : Dataset}
      {declaration : Field} {violation : Violation}
      (compared : filter.Compared (registry.Knows name) position field value)
      (judges : registry.Judges name field judge)
      (declares : judge.field? field = some declaration)
      (accepts : declaration.type.accepts value = true)
      (violates : violation ∈ declaration.limits.violations value) :
      Objects registry name filter position (.outsideLimits (.outsideLimits field value violation))
  | comparison {position : Position} {op : Operator} {field : String} {judge : Dataset}
      {declaration : Field} {admitted : List Operator}
      (applied : filter.Applied (registry.Knows name) position op (some field))
      (admits : registry.Admits name op) (judges : registry.Judges name field judge)
      (declares : judge.field? field = some declaration)
      (restricts : declaration.operators = some admitted) (compares : op.isComparison = true)
      (refuses : op ∉ admitted) :
      Objects registry name filter position
        (.comparisonNotAdmitted (.operatorNotAdmitted op field judge.name))
  | operator {position : Position} {op : Operator} {field : Option String}
      (applied : filter.Applied (registry.Knows name) position op field)
      (refuses : ¬registry.Admits name op) :
      Objects registry name filter position (.operatorNotAdmitted op name)
  | unknown {position : Position} {field : String}
      (named : filter.Named (registry.Knows name) position field)
      (noJudge : ¬registry.Knows name field) :
      Objects registry name filter position (.unknownField field name)

theorem alike_of_find? (built : registry.Built) (otherBuilt : other.Built)
    {dataset counterpart : Dataset} (finds : registry.find? name = some dataset)
    (otherFinds : other.find? name = some counterpart) (agree : dataset.Agrees counterpart) :
    dataset.Alike counterpart := by
  refine ⟨agree, ?_⟩
  rw [name_of_find? built finds, name_of_find? otherBuilt otherFinds]

theorem alike_of_resolved (built : registry.Built) (otherBuilt : other.Built) {names : List String}
    {datasets others : List Dataset}
    (agree : ∀ foreign ∈ names, ∀ neighbour counterpart, registry.find? foreign = some neighbour →
      other.find? foreign = some counterpart → neighbour.Agrees counterpart)
    (resolved : List.Forall₂ (fun foreign dataset => registry.find? foreign = some dataset)
      names datasets)
    (otherResolved : List.Forall₂ (fun foreign dataset => other.find? foreign = some dataset)
      names others) : List.Forall₂ Dataset.Alike datasets others := by
  induction resolved generalizing others with
  | nil =>
      cases otherResolved
      exact .nil
  | cons here _ ih =>
      rcases otherResolved with _ | ⟨otherHere, otherRest⟩
      rw [List.forall_mem_cons] at agree
      have agreeHere := agree.1 _ _ here otherHere
      exact .cons (alike_of_find? built otherBuilt here otherHere agreeHere) (ih agree.2 otherRest)

/-- Registries that agree on a dataset have views of it that answer alike. -/
theorem alike_of_agreesOn (built : registry.Built) (otherBuilt : other.Built)
    (resolved : registry.view name = .ok view) (otherResolved : other.view name = .ok otherView)
    (agree : registry.AgreesOn other name) : view.Alike otherView := by
  rcases view_eq_ok.mp resolved with ⟨finds, foreigns⟩
  rcases view_eq_ok.mp otherResolved with ⟨otherFinds, otherForeigns⟩
  rcases agree.root _ _ finds otherFinds with ⟨rootsAgree, sameForeigns⟩
  have roots := alike_of_find? built otherBuilt finds otherFinds rootsAgree
  rw [← sameForeigns] at otherForeigns
  have neighbours :=
    alike_of_resolved built otherBuilt (agree.foreign _ finds) foreigns otherForeigns
  exact View.alike_of_datasets (.cons roots neighbours) sameForeigns

/-- The first of the named datasets that declares a field, in terms of the names. -/
theorem find?_eq_some_of_resolved {names : List String} {datasets : List Dataset}
    (resolved : List.Forall₂ (fun foreign dataset => registry.find? foreign = some dataset)
      names datasets) :
    datasets.find? (fun dataset => dataset.hasField field) = some judge ↔
      ∃ before foreign after, names = before ++ foreign :: after ∧
        (∀ skipped ∈ before, ∀ dataset, registry.find? skipped = some dataset →
          dataset.hasField field = false) ∧
        registry.find? foreign = some judge ∧ judge.hasField field = true := by
  induction resolved with
  | nil => simp
  | @cons foreign dataset names datasets here _ ih =>
      cases declares : dataset.hasField field with
      | true =>
          simp only [List.find?_cons, declares, Option.some.injEq]
          constructor
          · rintro rfl
            exact ⟨[], foreign, names, rfl, by simp, here, declares⟩
          · rintro ⟨_ | ⟨_, before⟩, found, after, order, earlier, finds, _⟩
            · cases order
              exact Option.some.inj (here.symm.trans finds)
            · cases order
              have passes := earlier foreign List.mem_cons_self dataset here
              simp [declares] at passes
      | false =>
          simp only [List.find?_cons, declares, ih]
          constructor
          · rintro ⟨before, found, after, rfl, earlier, finds, declaresFound⟩
            refine ⟨foreign :: before, found, after, rfl, ?_, finds, declaresFound⟩
            rw [List.forall_mem_cons]
            refine ⟨?_, earlier⟩
            intro same findsSame
            cases here.symm.trans findsSame
            exact declares
          · rintro ⟨_ | ⟨_, before⟩, found, after, order, earlier, finds, declaresFound⟩
            · cases order
              cases here.symm.trans finds
              simp [declares] at declaresFound
            · cases order
              exact ⟨before, found, after, rfl, (List.forall_mem_cons.mp earlier).2, finds,
                declaresFound⟩

/-- The judge of a field is the dataset that a view takes for its owner. -/
theorem judges_iff (resolved : registry.view name = .ok view) :
    registry.Judges name field judge ↔ view.owner? field = some judge := by
  rcases view_eq_ok.mp resolved with ⟨finds, foreigns⟩
  rw [View.owner?, View.datasets]
  constructor
  · rintro (⟨findsRoot, declares⟩ | ⟨findsRoot, passes, order, earlier, findsForeign, declares⟩)
    · cases finds.symm.trans findsRoot
      simp only [List.find?_cons, declares]
    · cases finds.symm.trans findsRoot
      simp only [List.find?_cons, passes, find?_eq_some_of_resolved foreigns]
      exact ⟨_, _, _, order, earlier, findsForeign, declares⟩
  · intro owned
    cases declares : view.root.hasField field with
    | true =>
        simp only [List.find?_cons, declares, Option.some.injEq] at owned
        subst owned
        exact .root finds declares
    | false =>
        simp only [List.find?_cons, declares, find?_eq_some_of_resolved foreigns] at owned
        rcases owned with ⟨before, foreign, after, order, earlier, findsForeign, declaresForeign⟩
        exact .foreign finds declares order earlier findsForeign declaresForeign

theorem eq_of_judges (resolved : registry.view name = .ok view) {another : Dataset}
    (judges : registry.Judges name field judge) (alsoJudges : registry.Judges name field another) :
    another = judge := by
  rw [judges_iff resolved] at judges alsoJudges
  exact Option.some.inj (alsoJudges.symm.trans judges)

theorem knows_eq (resolved : registry.view name = .ok view) :
    registry.Knows name = view.Knows := by
  funext field
  apply propext
  simp only [Knows, judges_iff resolved]
  exact Option.isSome_iff_exists.symm

theorem admits_iff (resolved : registry.view name = .ok view) {op : Operator} :
    registry.Admits name op ↔ view.hasOperator op = true := by
  rcases view_eq_ok.mp resolved with ⟨finds, foreigns⟩
  simp only [View.hasOperator, View.datasets, List.any_cons, Bool.or_eq_true, List.any_eq_true,
    Dataset.hasOperator, List.contains_iff_mem]
  constructor
  · rintro (⟨findsRoot, admits⟩ | ⟨findsRoot, named, findsForeign, admits⟩)
    · cases finds.symm.trans findsRoot
      exact .inl admits
    · cases finds.symm.trans findsRoot
      rcases exists_result foreigns named with ⟨_, among, findsNeighbour⟩
      cases findsForeign.symm.trans findsNeighbour
      exact .inr ⟨_, among, admits⟩
  · rintro (admits | ⟨neighbour, among, admits⟩)
    · exact .root finds admits
    · rcases exists_source foreigns among with ⟨foreign, named, findsForeign⟩
      exact .foreign finds named findsForeign admits

theorem raised_of_objects (built : registry.Built) (resolved : registry.view name = .ok view)
    {filter : Node} {position : Position} {problem : Problem}
    (objects : registry.Objects name filter position problem) :
    view.Raised filter ⟨position, problem⟩ := by
  have named : view.name = name := name_of_find? built (view_eq_ok.mp resolved).1
  cases objects with
  | type compared judges declares refuses =>
      rw [knows_eq resolved] at compared
      rw [judges_iff resolved] at judges
      apply View.Raised.value compared
      exact View.mem_valueProblems.mpr ⟨_, _, judges, declares, .inl ⟨refuses, rfl⟩⟩
  | limit compared judges declares accepts violates =>
      rw [knows_eq resolved] at compared
      rw [judges_iff resolved] at judges
      apply View.Raised.value compared
      exact View.mem_valueProblems.mpr
        ⟨_, _, judges, declares, .inr ⟨accepts, _, violates, rfl⟩⟩
  | comparison applied admits judges declares restricts compares refuses =>
      rw [knows_eq resolved] at applied
      rw [judges_iff resolved] at judges
      rw [admits_iff resolved] at admits
      have complains := View.mem_operatorComplaints.mpr
        ⟨_, _, _, judges, declares, restricts, compares, refuses, rfl⟩
      apply View.Raised.operator applied
      exact View.mem_operatorProblems.mpr (.inr ⟨admits, _, rfl, _, complains, rfl⟩)
  | operator applied refuses =>
      rw [knows_eq resolved] at applied
      rw [admits_iff resolved, Bool.not_eq_true] at refuses
      rw [← named]
      apply View.Raised.operator applied
      exact View.mem_operatorProblems.mpr (.inl ⟨refuses, rfl⟩)
  | unknown namedBy noJudge =>
      rw [knows_eq resolved] at namedBy noJudge
      rw [← named]
      exact .unknown namedBy noJudge

theorem objects_of_raised (built : registry.Built) (resolved : registry.view name = .ok view)
    {filter : Node} {position : Position} {problem : Problem}
    (raised : view.Raised filter ⟨position, problem⟩) :
    registry.Objects name filter position problem := by
  have named : view.name = name := name_of_find? built (view_eq_ok.mp resolved).1
  cases raised with
  | value compared wrong =>
      rw [← knows_eq resolved] at compared
      rcases View.mem_valueProblems.mp wrong with ⟨_, _, owned, declares, refused | violated⟩
      · rcases refused with ⟨refuses, rfl⟩
        exact .type compared ((judges_iff resolved).mpr owned) declares refuses
      · rcases violated with ⟨accepts, _, violates, rfl⟩
        exact .limit compared ((judges_iff resolved).mpr owned) declares accepts violates
  | operator applied wrong =>
      rw [← knows_eq resolved] at applied
      rcases View.mem_operatorProblems.mp wrong with
        ⟨refuses, rfl⟩ | ⟨admits, _, rfl, _, complains, rfl⟩
      · rw [named]
        apply Objects.operator applied
        simp [admits_iff resolved, refuses]
      · rcases View.mem_operatorComplaints.mp complains with
          ⟨_, _, _, owned, declares, restricts, compares, refuses, rfl⟩
        exact .comparison applied ((admits_iff resolved).mpr admits)
          ((judges_iff resolved).mpr owned) declares restricts compares refuses
  | unknown namedBy isUnknown =>
      rw [← knows_eq resolved] at namedBy isUnknown
      rw [named]
      exact .unknown namedBy isUnknown

/-- The objections by the declarations are what the view has to say. -/
theorem objects_iff (built : registry.Built) (resolved : registry.view name = .ok view)
    {filter : Node} {position : Position} {problem : Problem} :
    registry.Objects name filter position problem ↔ view.Raised filter ⟨position, problem⟩ :=
  ⟨raised_of_objects built resolved, objects_of_raised built resolved⟩

/-- Validation delegates one level deep. A registry that agrees on a dataset and on the fields and
operators of the foreign datasets that it names gives the same reports, whatever else it holds. A
field has one judge at most, and what is reported of values, comparisons and fields is exactly what
the judges have against them, with operators left to all datasets of the view and a field without
judge being unknown. -/
theorem validate_delegates (registry : Registry) (name : String) (view : View)
    (built : registry.Built) (resolved : registry.view name = .ok view) :
    (∀ (other : Registry) (otherView : View), other.Built → other.view name = .ok otherView →
      registry.AgreesOn other name →
        ∀ filter, view.validate filter = otherView.validate filter) ∧
    (∀ field judge another, registry.Judges name field judge →
      registry.Judges name field another → another = judge) ∧
    ∀ filter issue,
      (issue ∈ (view.validate filter).issues ∧ issue.kind.isDelegated = true) ↔
        ∃ position problem, registry.Objects name filter position problem ∧
          Issue.ofFinding ⟨position, problem⟩ = issue := by
  refine ⟨?_, fun _ _ _ judges => eq_of_judges resolved judges, ?_⟩
  · intro other otherView otherBuilt otherResolved agree filter
    exact (alike_of_agreesOn built otherBuilt resolved otherResolved agree).validate
  · intro filter issue
    simp only [View.validate_eq, List.mem_map, objects_iff built resolved, View.raised_iff]
    constructor
    · rintro ⟨⟨finding, found, rfl⟩, delegated⟩
      exact ⟨finding.position, finding.problem, ⟨found, delegated⟩, rfl⟩
    · rintro ⟨position, problem, ⟨found, delegated⟩, rfl⟩
      exact ⟨⟨_, found, rfl⟩, delegated⟩

/-- Cars, which are sold by dealers. -/
def car : Dataset :=
  .declare "car" [("make", ⟨.text, some [.eq, .neg], .none⟩), ("year", ⟨.int, none, .none⟩)] none
    ["dealer"]

/-- Dealers, whose cars have a make as well. -/
def dealer : Dataset :=
  .declare "dealer" [("city", ⟨.text, none, .none⟩), ("make", ⟨.int, none, .none⟩)]
    (some [.eq, .foreign]) []

/-- Dealers who are tied to a bank. -/
def bankedDealer : Dataset :=
  .declare "dealer" [("make", ⟨.int, none, .none⟩), ("city", ⟨.text, none, .none⟩)]
    (some [.foreign, .eq]) ["bank"]

/-- Banks, which share a field with dealers. -/
def bank : Dataset := .declare "bank" [("city", ⟨.bool, none, .none⟩)] none ["car"]

/-- Cars and dealers alone. -/
def market : Registry := ⟨.ofList [("car", car), ("dealer", dealer)], some "car"⟩

/-- The same cars among dealers with a bank. -/
def bankedMarket : Registry :=
  ⟨.ofList [("bank", bank), ("car", car), ("dealer", bankedDealer)], some "bank"⟩

theorem built_market : market.Built :=
  @Built.register _ _ dealer (@Built.register _ _ car .empty rfl) rfl

theorem built_bankedMarket : bankedMarket.Built :=
  have withBank := @Built.register _ _ bank .empty rfl
  @Built.register _ _ car (@Built.register _ _ bankedDealer withBank rfl) rfl

theorem agreesOn_car : market.AgreesOn bankedMarket "car" := by
  have isCar : market.find? "car" = some car := rfl
  have isCarToo : bankedMarket.find? "car" = some car := rfl
  have isDealer : market.find? "dealer" = some dealer := rfl
  have isBankedDealer : bankedMarket.find? "dealer" = some bankedDealer := rfl
  constructor
  · intro dataset counterpart finds otherFinds
    cases isCar.symm.trans finds
    cases isCarToo.symm.trans otherFinds
    exact ⟨Dataset.agrees_of_fields rfl fun _ => Iff.rfl, rfl⟩
  · intro dataset finds foreign present neighbour counterpart findsForeign otherFinds
    cases isCar.symm.trans finds
    rw [List.mem_singleton.mp present] at findsForeign otherFinds
    cases isDealer.symm.trans findsForeign
    cases isBankedDealer.symm.trans otherFinds
    exact Dataset.agrees_of_fields rfl fun op => List.Perm.mem_iff (.swap _ _ _)

theorem objects_of_bound {value : Scalar} {declaration : Field}
    (judges : registry.Judges name field judge)
    (declares : judge.field? field = some declaration)
    (refuses : declaration.type.accepts value = false) :
    registry.Objects name (.entry (.field field) (.scalar value)) [.key (.field field)]
      (.wrongType (.wrongType field declaration.type (.scalar value))) :=
  .type (@Node.Compared.bound _ _ [] _ [] [] _ _ .root ⟨judge, judges⟩) judges declares refuses

/-- A bank behind the dealer changes no report. The make is judged as one of cars, although dealers
declare it too, and the city as one of dealers. -/
theorem validate_delegates_market :
    market.Built ∧ ∃ view otherView, market.view "car" = .ok view ∧ bankedMarket.Built ∧
      bankedMarket.view "car" = .ok otherView ∧ market.AgreesOn bankedMarket "car" ∧
      (∀ filter, view.validate filter = otherView.validate filter) ∧
      (∀ judge, market.Judges "car" "make" judge → judge = car) ∧
      (∀ judge, market.Judges "car" "city" judge → judge = dealer) ∧
      ∀ field ∈ ["make", "city"],
        Issue.ofFinding
            ⟨[.key (.field field)], .wrongType (.wrongType field .text (.scalar (.int 5)))⟩
          ∈ (view.validate (.entry (.field field) (.scalar (.int 5)))).issues := by
  rcases validate_delegates market "car" _ built_market rfl with ⟨sameReports, alone, reported⟩
  have judgesMake : market.Judges "car" "make" car := .root rfl rfl
  have judgesCity : market.Judges "car" "city" dealer :=
    @Judges.foreign _ _ _ car dealer [] [] "dealer" rfl rfl rfl (by simp) rfl rfl
  refine ⟨built_market, _, _, rfl, built_bankedMarket, rfl, agreesOn_car,
    sameReports bankedMarket _ built_bankedMarket rfl agreesOn_car,
    fun judge => alone "make" car judge judgesMake,
    fun judge => alone "city" dealer judge judgesCity, ?_⟩
  intro field present
  have objects : market.Objects "car" (.entry (.field field) (.scalar (.int 5)))
      [.key (.field field)] (.wrongType (.wrongType field .text (.scalar (.int 5)))) := by
    rcases List.mem_pair.mp present with rfl | rfl
    · exact objects_of_bound judgesMake rfl rfl
    · exact objects_of_bound judgesCity rfl rfl
  exact ((reported _ _).mpr ⟨_, _, objects, rfl⟩).1

end Registry

end FilterLang
