import ViewTree.Check
import ViewTree.Proofs.Json.Equality
import ViewTree.Proofs.Json.Fields
import ViewTree.Proofs.Registry.Built

/-
  ViewTree.Proofs.Check.Contract — the check of a node decides the contract of its type.

  A contract is a list of constraints: what is demanded of each declared prop, in the order
  of declaration, and at last whether there must be children (`contract`). When a node
  violates a constraint, and what is said of it then, does not mention the check
  (`Violates`): a prop without a value violates only the demand for one, and a value the
  demands on its kind and on its choices, each for itself, where choices are told apart by
  `Json.Equal`.

  The check tells of each violated constraint once, in this order, and of nothing else
  (`validate_reports_violations`). It sees nothing of a node but its type, the values of its
  props and whether there are children (`validate_congr`).
-/

namespace ViewTree

/-- What a contract can demand of a node. -/
inductive Constraint where
  /-- A value for a prop. -/
  | given (prop : String)
  /-- One of some kinds, for the value of a prop. -/
  | kind (prop : String) (allowed : List String)
  /-- One of some values, for the value of a prop. -/
  | choice (prop : String) (choices : List Json)
  | children

namespace Check

/-! ## Contracts -/

/-- What is demanded of a prop. No kinds are no demand. -/
def constraints (prop : String) (spec : PropSpec) : List Constraint :=
  (if spec.required then [.given prop] else []) ++
    (if spec.allowedTypes = [] then [] else [.kind prop spec.allowedTypes]) ++
      (spec.enum.map (Constraint.choice prop)).toList

def contract (c : Capability) : List Constraint :=
  (c.props.filter fun p => p.1 ≠ childrenProp).flatMap (fun (prop, spec) =>
      constraints prop spec) ++
    if (c.spec? childrenProp).any PropSpec.required then [.children] else []

/-- The violation of a constraint, and the problem it is. -/
inductive Violates (node : Node) : Constraint → Problem → Prop where
  | absent {prop : String} (absent : node.props.get? prop = none) :
      Violates node (.given prop) (.required prop)
  | null {prop : String} (null : node.props.get? prop = some .null) :
      Violates node (.given prop) (.required prop)
  | kind {prop : String} {allowed : List String} {v : Json}
      (value : node.props.get? prop = some v) (given : v ≠ .null) (narrow : anyKind ∉ allowed)
      (other : v.kind ∉ allowed) : Violates node (.kind prop allowed) (.wrongKind prop allowed v.kind)
  | choice {prop : String} {choices : List Json} {v : Json}
      (value : node.props.get? prop = some v) (given : v ≠ .null)
      (other : ∀ w ∈ choices, ¬ Json.Equal v w) :
      Violates node (.choice prop choices) (.notAllowed prop v choices)
  | childless {type : String} (type_eq : node.type = some type) (childless : node.children = []) :
      Violates node .children (.childless type)

/-- One problem for each violated constraint, in order. -/
inductive Reports (node : Node) : List Constraint → List Problem → Prop where
  | nil : Reports node [] []
  | met {demand : Constraint} {demands : List Constraint} {problems : List Problem}
      (met : ∀ problem, ¬ Violates node demand problem) (rest : Reports node demands problems) :
      Reports node (demand :: demands) problems
  | violated {demand : Constraint} {demands : List Constraint} {problem : Problem}
      {problems : List Problem} (violated : Violates node demand problem)
      (rest : Reports node demands problems) :
      Reports node (demand :: demands) (problem :: problems)

variable {node : Node} {demand : Constraint} {demands demands' : List Constraint}
  {problem problem' : Problem} {problems problems' : List Problem}

theorem Violates.unique (h : Violates node demand problem) (h' : Violates node demand problem') :
    problem = problem' := by
  cases h with
  | absent _ => cases h' <;> rfl
  | null _ => cases h' <;> rfl
  | kind value _ _ _ =>
    cases h' with
    | kind value' _ _ _ => rw [Option.some_inj.mp (value.symm.trans value')]
  | choice value _ _ =>
    cases h' with
    | choice value' _ _ => rw [Option.some_inj.mp (value.symm.trans value')]
  | childless htype _ =>
    cases h' with
    | childless htype' _ => rw [Option.some_inj.mp (htype.symm.trans htype')]

namespace Reports

/-- There is one report on a node. -/
theorem unique (h : Reports node demands problems) (h' : Reports node demands problems') :
    problems = problems' := by
  induction h generalizing problems' with
  | nil => cases h'; rfl
  | met hmet _ ih =>
    cases h' with
    | met _ hrest => exact ih hrest
    | violated hviolated _ => exact absurd hviolated (hmet _)
  | violated hviolated _ ih =>
    cases h' with
    | met hmet _ => exact absurd hviolated (hmet _)
    | violated hviolated' hrest => rw [hviolated.unique hviolated', ih hrest]

theorem append (h : Reports node demands problems) (h' : Reports node demands' problems') :
    Reports node (demands ++ demands') (problems ++ problems') := by
  induction h with
  | nil => exact h'
  | met hmet _ ih => exact .met hmet ih
  | violated hviolated _ ih => exact .violated hviolated ih

/-- Nothing is reported exactly if nothing is violated. -/
theorem nil_iff : Reports node demands [] ↔
    ∀ demand ∈ demands, ∀ problem, ¬ Violates node demand problem := by
  induction demands with
  | nil => exact ⟨fun _ _ hmem => absurd hmem List.not_mem_nil, fun _ => .nil⟩
  | cons demand demands ih =>
    rw [List.forall_mem_cons, ← ih]
    constructor
    · rintro (_ | ⟨hmet, hrest⟩)
      exact ⟨hmet, hrest⟩
    · exact fun ⟨hmet, hrest⟩ => .met hmet hrest

/-- A constraint on its own. -/
theorem of_iff {violated : Prop} [Decidable violated]
    (h : ∀ problem', Violates node demand problem' ↔ violated ∧ problem' = problem) :
    Reports node [demand] (if violated then [problem] else []) := by
  split_ifs with hviolated
  · exact .violated ((h problem).mpr ⟨hviolated, rfl⟩) .nil
  · exact .met (fun problem' hproblem => hviolated ((h problem').mp hproblem).1) .nil

end Reports

/-! ## When constraints are violated -/

variable {prop : String} {spec : PropSpec} {v : Json}

theorem violates_given_iff : Violates node (.given prop) problem ↔
    node.props.given? prop = none ∧ problem = .required prop := by
  rw [Fields.given?_eq_none_iff]
  constructor
  · rintro (habsent | hnull)
    · exact ⟨.inl habsent, rfl⟩
    · exact ⟨.inr hnull, rfl⟩
  · rintro ⟨habsent | hnull, rfl⟩
    · exact .absent habsent
    · exact .null hnull

theorem violates_kind_iff {allowed : List String} :
    Violates node (.kind prop allowed) problem ↔ ∃ v, node.props.given? prop = some v ∧
      anyKind ∉ allowed ∧ v.kind ∉ allowed ∧ problem = .wrongKind prop allowed v.kind := by
  constructor
  · rintro (_ | _ | ⟨hvalue, hne, hnarrow, hother⟩)
    exact ⟨_, Fields.given?_eq_some_iff.mpr ⟨hvalue, hne⟩, hnarrow, hother, rfl⟩
  · rintro ⟨v, hgiven, hnarrow, hother, rfl⟩
    obtain ⟨hvalue, hne⟩ := Fields.given?_eq_some_iff.mp hgiven
    exact .kind hvalue hne hnarrow hother

theorem violates_choice_iff {choices : List Json} :
    Violates node (.choice prop choices) problem ↔ ∃ v, node.props.given? prop = some v ∧
      (∀ w ∈ choices, ¬ Json.Equal v w) ∧ problem = .notAllowed prop v choices := by
  constructor
  · rintro (_ | _ | _ | ⟨hvalue, hne, hother⟩)
    exact ⟨_, Fields.given?_eq_some_iff.mpr ⟨hvalue, hne⟩, hother, rfl⟩
  · rintro ⟨v, hgiven, hother, rfl⟩
    obtain ⟨hvalue, hne⟩ := Fields.given?_eq_some_iff.mp hgiven
    exact .choice hvalue hne hother

theorem violates_children_iff {type : String} (htype : node.type = some type) :
    Violates node .children problem ↔ node.children = [] ∧ problem = .childless type := by
  constructor
  · rintro (_ | _ | _ | _ | ⟨htype', hchildless⟩)
    rw [Option.some_inj.mp (htype.symm.trans htype')]
    exact ⟨hchildless, rfl⟩
  · rintro ⟨hchildless, rfl⟩
    exact .childless htype hchildless

/-! ## The check -/

theorem reports_kind (hgiven : node.props.given? prop = some v) (allowed : List String) :
    Reports node (if allowed = [] then [] else [.kind prop allowed])
      (if allowed.isEmpty || allowed.contains anyKind || allowed.contains v.kind then []
        else [.wrongKind prop allowed v.kind]) := by
  by_cases hempty : allowed = []
  · subst hempty
    exact .nil
  · have hviolated (problem : Problem) : Violates node (.kind prop allowed) problem ↔
        (anyKind ∉ allowed ∧ v.kind ∉ allowed) ∧ problem = .wrongKind prop allowed v.kind := by
      simp [violates_kind_iff, hgiven, and_assoc]
    have hreports := Reports.of_iff hviolated
    rw [if_neg hempty]
    simpa [hempty, ← not_or, ite_not] using hreports

theorem reports_choice (hgiven : node.props.given? prop = some v) (enum : Option (List Json)) :
    Reports node (enum.map (Constraint.choice prop)).toList
      (match enum with
        | none => []
        | some choices => if choices.any (Json.same v) then [] else [.notAllowed prop v choices]) := by
  cases enum with
  | none => exact .nil
  | some choices =>
    have hviolated (problem : Problem) : Violates node (.choice prop choices) problem ↔
        ¬ choices.any (Json.same v) = true ∧ problem = .notAllowed prop v choices := by
      simp [violates_choice_iff, hgiven, ← Json.same_iff]
    have hreports := Reports.of_iff hviolated
    rwa [ite_not] at hreports

theorem reports_checkProp (prop : String) (spec : PropSpec) :
    Reports node (constraints prop spec) (checkProp prop spec (node.props.given? prop)) := by
  unfold constraints checkProp
  cases hgiven : node.props.given? prop with
  | none =>
    have hrequired : Reports node (if spec.required then [.given prop] else [])
        (if spec.required then [.required prop] else []) := by
      split_ifs
      · exact .violated (violates_given_iff.mpr ⟨hgiven, rfl⟩) .nil
      · exact .nil
    have hkind : Reports node
        (if spec.allowedTypes = [] then [] else [.kind prop spec.allowedTypes]) [] := by
      split_ifs
      · exact .nil
      · exact .met (by simp [violates_kind_iff, hgiven]) .nil
    have hchoice : Reports node (spec.enum.map (Constraint.choice prop)).toList [] := by
      cases spec.enum with
      | none => exact .nil
      | some choices => exact .met (by simp [violates_choice_iff, hgiven]) .nil
    simpa using (hrequired.append hkind).append hchoice
  | some v =>
    have hrequired : Reports node (if spec.required then [.given prop] else []) [] := by
      split_ifs
      · exact .met (by simp [violates_given_iff, hgiven]) .nil
      · exact .nil
    exact (hrequired.append (reports_kind hgiven _)).append (reports_choice hgiven _)

theorem reports_props (props : List (String × PropSpec)) :
    Reports node (props.flatMap fun (prop, spec) => constraints prop spec)
      (props.flatMap fun (prop, spec) => checkProp prop spec (node.props.given? prop)) := by
  induction props with
  | nil => exact .nil
  | cons p rest ih => exact (reports_checkProp p.1 p.2).append ih

theorem reports_children {type : String} (htype : node.type = some type) (demanded : Bool) :
    Reports node (if demanded then [.children] else [])
      (if demanded && node.children.isEmpty then [.childless type] else []) := by
  cases demanded with
  | false => exact .nil
  | true => simpa using Reports.of_iff fun _ => violates_children_iff htype

theorem reports_checkNode {type : String} (c : Capability) (htype : node.type = some type) :
    Reports node (contract c) (checkNode c type node) :=
  (reports_props _).append (reports_children htype _)

variable {registry : Registry} {type : String} {c : Capability}

theorem validate_eq_checkNode (hbuilt : registry.Built) (htype : node.type = some type)
    (hc : registry.capability? type = some c) : validate registry node = checkNode c type node := by
  rw [validate, htype]
  dsimp only
  rw [if_neg (hbuilt.type_ne_empty hc), hc]

/-- The check sees the type, the values of the props and whether there are children. -/
theorem validate_congr {a b : Node} (htype : a.type = b.type)
    (hprops : ∀ key, a.props.get? key = b.props.get? key)
    (hchildren : a.children.isEmpty = b.children.isEmpty) :
    validate registry a = validate registry b := by
  have hgiven (key : String) : a.props.given? key = b.props.given? key := by
    rw [Fields.given?, Fields.given?, hprops]
  simp only [validate, checkNode, htype, hgiven, hchildren]

/-- The report on a node of a registered type has one problem for each violated constraint of
    the type's contract, in order, and nothing else; the node is valid exactly if none is
    violated, and nodes with the same type, the same values of props and children or none have
    the same report. -/
theorem validate_reports_violations (hbuilt : registry.Built) (htype : node.type = some type)
    (hc : registry.capability? type = some c) :
    (∀ problems, validate registry node = problems ↔ Reports node (contract c) problems) ∧
      (validate registry node = [] ↔
        ∀ demand ∈ contract c, ∀ problem, ¬ Violates node demand problem) ∧
      ∀ other : Node, other.type = some type →
        (∀ key, other.props.get? key = node.props.get? key) →
        (other.children = [] ↔ node.children = []) →
        validate registry other = validate registry node := by
  have hreports : Reports node (contract c) (validate registry node) := by
    rw [validate_eq_checkNode hbuilt htype hc]
    exact reports_checkNode c htype
  have hreported (problems : List Problem) :
      validate registry node = problems ↔ Reports node (contract c) problems :=
    ⟨fun h => h ▸ hreports, hreports.unique⟩
  refine ⟨hreported, (hreported []).trans Reports.nil_iff, ?_⟩
  intro other htype' hprops hchildren
  exact validate_congr (htype'.trans htype.symm) hprops
    (by rw [Bool.eq_iff_iff, List.isEmpty_iff, List.isEmpty_iff, hchildren])

/-- A poster needs a title and children; its size is a number or a text, one of two. -/
def posterCapability : Capability :=
  { Catalog.entry "poster" .layout "" with
    props := [("title", { PropSpec.ofKind "string" with required := true }),
      ("children", { PropSpec.free with required := true }),
      ("size", { PropSpec.ofKinds ["number", "string"] with enum := some [.int 1, .str "L"] }),
      ("shade", (PropSpec.ofKind "string").oneOf ["dark", "light"])] }

def posters : Registry := Registry.empty.put (Registry.libraryEntry posterCapability)

def bareProps : Fields := [("shade", .int 3), ("size", .bool true), ("title", .null)]

def barePoster : Node := { (default : Node) with type := some "poster", props := bareProps }

/-- A truth value is no number, but equals one of the choices; the demand for children is the
    last, wherever it is declared. -/
theorem bare_poster_reported :
    validate posters barePoster =
        [.required "title", .wrongKind "size" ["number", "string"] "boolean",
          .wrongKind "shade" ["string"] "number",
          .notAllowed "shade" (.int 3) [.str "dark", .str "light"], .childless "poster"] ∧
      Reports barePoster (contract posterCapability) (validate posters barePoster) ∧
      validate posters { barePoster with id := some "p", events := [("click", .null)] } =
        validate posters barePoster := by
  have hbuilt : posters.Built :=
    .register .empty (Registry.registerValid_eq_ok_iff.mpr ⟨by decide, rfl, rfl, rfl⟩)
  have hc : posters.capability? "poster" = some posterCapability := rfl
  have htype : barePoster.type = some "poster" := rfl
  obtain ⟨hreports, -, hothers⟩ := validate_reports_violations hbuilt htype hc
  exact ⟨by decide, (hreports _).mp rfl, hothers _ rfl (fun _ => rfl) Iff.rfl⟩

end Check

end ViewTree
