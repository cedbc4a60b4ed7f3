import Mathlib.Data.List.Forall2
import Mathlib.Data.Option.Basic
import ViewTree.Proofs.Live.Single

/-
  ViewTree.Proofs.Live.Ties — instances that correspond in two stores.

  Two stores may have different numbers for what is the same in both. A tie pairs the
  instances and the hosts that correspond (`Ties`); it fits two stores when it pairs them
  one to one, instances in their order and hosts under one name (`Ties.Fit`).

  Two instances are tied when they differ in numbers only: what they have for hosts is
  paired, their outputs have the same names, they keep equally many subscriptions, and
  everything else is equal (`Instance.Tied`). Of tied instances all questions get the same
  answer: which operations they have and can carry out, what stands under a name, how many
  tabs they list.
-/

namespace ViewTree.Live

/-- Which instances and which hosts of two stores correspond. -/
structure Ties where
  instances : InstanceId → InstanceId → Prop
  hosts : HostId → HostId → Prop

/-- More is tied. -/
structure Ties.Le (T T' : Ties) : Prop where
  instances {i j : InstanceId} : T.instances i j → T'.instances i j
  hosts {g h : HostId} : T.hosts g h → T'.hosts g h

theorem Ties.Le.refl (T : Ties) : T.Le T := ⟨id, id⟩

theorem Ties.Le.trans {T T' T'' : Ties} (h : T.Le T') (h' : T'.Le T'') : T.Le T'' :=
  ⟨fun hij => h'.instances (h.instances hij), fun hgh => h'.hosts (h.hosts hgh)⟩

/-! ## Members -/

section Related

variable {α β γ : Type} {R : α → β → Prop} {a a' : Option α} {b b' : Option β}

theorem rel_or (h : Option.Rel R a b) (h' : Option.Rel R a' b') :
    Option.Rel R (a.or a') (b.or b') := by
  cases h with
  | none => exact h'
  | some hab => exact .some hab

theorem map_eq_of_rel {f : α → γ} {g : β → γ} (h : Option.Rel R a b)
    (hfg : ∀ x y, R x y → f x = g y) : a.map f = b.map g := by
  cases h with
  | none => rfl
  | some hab => exact congrArg some (hfg _ _ hab)

theorem rel_map {δ ε : Type} {S : δ → ε → Prop} {f : α → δ} {g : β → ε} (h : Option.Rel R a b)
    (hfg : ∀ x y, R x y → S (f x) (g y)) : Option.Rel S (a.map f) (b.map g) := by
  cases h with
  | none => exact .none
  | some hab => exact .some (hfg _ _ hab)

theorem isSome_of_rel (h : Option.Rel R a b) : a.isSome = b.isSome := by
  cases h <;> rfl

theorem rel_mono {S : α → β → Prop} (h : Option.Rel R a b) (hRS : ∀ x y, R x y → S x y) :
    Option.Rel S a b := by
  cases h with
  | none => exact .none
  | some hab => exact .some (hRS _ _ hab)

end Related

variable {R R' : HostId → HostId → Prop}

/-- Members that differ in numbers only. -/
inductive Member.Tied (R : HostId → HostId → Prop) : Member → Member → Prop where
  | output (e e' : EmitterId) : Tied R (.output e) (.output e')
  | host {g h : HostId} : R g h → Tied R (.host g) (.host h)
  | same {m : Member} : (∀ g, m ≠ .host g) → Tied R m m

namespace Member.Tied

variable {m m' : Member}

theorem typeName (h : Tied R m m') : m.typeName = m'.typeName := by
  cases h <;> rfl

theorem isVacant (h : Tied R m m') : m.isVacant = m'.isVacant := by
  cases h <;> rfl

theorem isCallable (h : Tied R m m') : m.isCallable = m'.isCallable := by
  cases h <;> rfl

theorem callFault (h : Tied R m m') : m.callFault = m'.callFault := by
  rw [Member.callFault, Member.callFault, h.isCallable, h.typeName]

theorem mono (h : Tied R m m') (hR : ∀ g g', R g g' → R' g g') : Tied R' m m' := by
  cases h with
  | output e e' => exact .output e e'
  | host hgh => exact .host (hR _ _ hgh)
  | same hm => exact .same hm

end Member.Tied

namespace Instance

/-- What two instances have in common whose mount points may differ. -/
structure Akin (R : HostId → HostId → Prop) (x y : Instance) : Prop where
  blueprint : x.blueprint = y.blueprint
  inputs : x.inputs = y.inputs
  host : Option.Rel R x.host y.host
  destroyed : x.destroyed = y.destroyed
  tracked : x.tracked.length = y.tracked.length
  outputs : x.outputs.map Prod.fst = y.outputs.map Prod.fst

/-- Instances that differ in numbers only. -/
structure Tied (R : HostId → HostId → Prop) (x y : Instance) : Prop extends Akin R x y where
  attributes : x.attributes = y.attributes
  checks : x.checks = y.checks
  content : Option.Rel R x.content y.content
  panels : List.Forall₂ R x.panels y.panels

variable {x y : Instance}

theorem Akin.mono (h : Akin R x y) (hR : ∀ g g', R g g' → R' g g') : Akin R' x y :=
  { h with host := rel_mono h.host hR }

theorem Tied.mono (h : Tied R x y) (hR : ∀ g g', R g g' → R' g g') : Tied R' x y :=
  { h with
    toAkin := h.toAkin.mono hR
    content := rel_mono h.content hR
    panels := h.panels.imp hR }

/-- What a refresh leaves as it is stays akin. -/
theorem Akin.settled {x' y' : Instance} (h : Akin R x y) (hx : Settled x x') (hy : Settled y y') :
    Akin R x' y' where
  blueprint := by rw [hx.blueprint, hy.blueprint, h.blueprint]
  inputs := by rw [hx.inputs, hy.inputs, h.inputs]
  host := by
    rw [hx.host, hy.host]
    exact h.host
  destroyed := by rw [hx.destroyed, hy.destroyed, h.destroyed]
  tracked := by rw [hx.tracked, hy.tracked, h.tracked]
  outputs := by rw [hx.outputs, hy.outputs, h.outputs]

namespace Tied

variable (t : Tied R x y)
include t

theorem own : x.own = y.own := by
  rw [Instance.own, Instance.own, t.inputs, t.attributes, t.checks, t.destroyed]

theorem isBare : x.isBare = y.isBare := by
  rw [Instance.isBare, Instance.isBare, t.blueprint]

theorem isTabs : x.isTabs = y.isTabs := by
  rw [Instance.isTabs, Instance.isTabs, t.blueprint]

theorem offers (o : Operation) : x.offers o = y.offers o := by
  have hdistributes : x.distributes = y.distributes := by
    rw [Instance.distributes, Instance.distributes, t.blueprint]
  cases o <;> simp only [Instance.offers, hdistributes, t.isBare]

theorem own? (name : String) : x.own? name = y.own? name := by
  have hdatum : x.datum? = y.datum? := by
    funext d
    unfold Instance.datum?
    rw [t.isBare]
  have hoffers : x.offers = y.offers := funext t.offers
  rw [Instance.own?, Instance.own?, hdatum, hoffers]

theorem kept? (name : String) : Option.Rel (Member.Tied R) (x.kept? name) (y.kept? name) := by
  unfold Instance.kept?
  rw [← t.blueprint, ← t.isTabs]
  split
  · exact .none
  · split
    · exact .some (.same nofun)
    · split
      · refine .some ?_
        have hcontent := t.content
        revert hcontent
        generalize x.content = a
        generalize y.content = b
        rintro (hgh | _)
        · exact .host hgh
        · exact .same nofun
      · split
        · exact .some (.same nofun)
        · exact .none

theorem given? (name : String) : Option.Rel (Member.Tied R) (x.given? name) (y.given? name) := by
  unfold Instance.given?
  refine rel_or ?_ (rel_or ?_ (rel_or (t.kept? name) ?_))
  · rw [t.attributes]
    cases Fields.get? name y.attributes with
    | none => exact .none
    | some v => exact .some (.same nofun)
  · split
    · exact rel_map t.host fun _ _ hgh => .host hgh
    · exact .none
  · have hfound : (x.outputs.find? fun o => o.1 = name).isSome =
        (y.outputs.find? fun o => o.1 = name).isSome := by
      have hnames (o : List (String × EmitterId)) : (o.find? fun o => o.1 = name).isSome =
          ((o.map Prod.fst).find? fun k => k = name).isSome := by
        rw [List.find?_map, Option.isSome_map]
        rfl
      rw [hnames, hnames, t.outputs]
    revert hfound
    cases x.outputs.find? fun o => o.1 = name <;> cases y.outputs.find? fun o => o.1 = name
    · exact fun _ => .none
    · exact nofun
    · exact nofun
    · exact fun _ => .some (.output _ _)

theorem member? (name : String) :
    Option.Rel (Member.Tied R) (x.member? name) (y.member? name) := by
  refine rel_or (t.given? name) ?_
  rw [t.own?]
  cases hown : y.own? name with
  | none => exact .none
  | some m => exact .some (.same fun g hg => own?_ne_host y name g (hg ▸ hown))

theorem blocked? (o : Operation) : x.blocked? o = y.blocked? o :=
  map_eq_of_rel (t.given? o.name) fun _ _ h => h.callFault

theorem can (o : Operation) : x.can o = y.can o := by
  rw [Instance.can, Instance.can, t.offers, t.blocked?]

theorem tabCount : Store.tabCount x = Store.tabCount y := by
  unfold Store.tabCount
  rw [← t.inputs]
  have hhidden := t.given? Datum.inputs.name
  revert hhidden
  unfold Instance.hidden?
  generalize x.given? Datum.inputs.name = a
  generalize y.given? Datum.inputs.name = b
  rintro (h | _)
  · dsimp only
    rw [h.typeName]
  · rfl

end Tied

end Instance

end ViewTree.Live
