import Mathlib.Data.List.Basic
import ViewTree.Proofs.Live.Forest

/-
  ViewTree.Proofs.Live.Wiring — listeners, the subscriptions they stand for, and the
  instances that keep these.

  In a store that is wired (`Store.Wiring`) every emitter belongs to one instance, its
  listeners are the callbacks of the open subscriptions to it, and each of these is kept
  by the instance that the emitter belongs to. An instance that is not live keeps none, so
  nothing listens to its outputs any more (`Wiring.silent`).

  Subscribing a callback to an output of an instance that then keeps the subscription
  leaves a store wired, ending a subscription does, and an instance may let go of its
  subscriptions once they are ended.
-/

namespace ViewTree.Live

namespace Instance

theorem mem_outputs_of_emitter? {x : Instance} {event : String} {e : EmitterId}
    (h : x.emitter? event = some e) : (event, e) ∈ x.outputs := by
  obtain ⟨o, hfound, rfl⟩ := Option.map_eq_some_iff.mp h
  have hname := List.find?_some hfound
  rw [decide_eq_true_eq] at hname
  rw [← hname]
  exact List.mem_of_find?_eq_some hfound

end Instance

namespace Store

/-- The emitters of the outputs of an instance. -/
def emittersOf (s : Store) (i : InstanceId) : List EmitterId :=
  ((s.instances[i]?).map fun x => x.outputs.map Prod.snd).getD []

/-- The subscriptions that an instance keeps. -/
def keptBy (s : Store) (i : InstanceId) : List SubscriptionId :=
  ((s.instances[i]?).map Instance.tracked).getD []

/-- A subscription that was not ended. -/
def Open (s : Store) (id : SubscriptionId) (sub : Subscription) : Prop :=
  s.subscriptions[id]? = some sub ∧ sub.closed = false

structure Wiring (s : Store) : Prop where
  emitter_lt {i : InstanceId} {e : EmitterId} : e ∈ s.emittersOf i → e < s.emitters.length
  owner {i j : InstanceId} {e : EmitterId} : e ∈ s.emittersOf i → e ∈ s.emittersOf j → i = j
  listening (e : EmitterId) : (s.listeners e).Perm ((s.openOn e).map Subscription.callback)
  kept {id : SubscriptionId} {sub : Subscription} : s.Open id sub →
    ∃ i, sub.emitter ∈ s.emittersOf i ∧ id ∈ s.keptBy i
  released {i : InstanceId} : ¬ s.Alive i → s.keptBy i = []

variable {s s' : Store} {i j : InstanceId} {e : EmitterId} {x y : Instance}

theorem emittersOf_some (hx : s.instances[i]? = some x) :
    s.emittersOf i = x.outputs.map Prod.snd := by
  rw [emittersOf, hx]
  rfl

theorem keptBy_some (hx : s.instances[i]? = some x) : s.keptBy i = x.tracked := by
  rw [keptBy, hx]
  rfl

theorem mem_emittersOf {o : String × EmitterId} (hx : s.instances[i]? = some x)
    (ho : o ∈ x.outputs) : o.2 ∈ s.emittersOf i := by
  rw [emittersOf_some hx]
  exact List.mem_map_of_mem ho

theorem mem_emittersOf_of_output {event : String} (hx : s.instances[i]? = some x) (h : x.Plain)
    (houtput : s.output? i event = some e) : e ∈ s.emittersOf i := by
  rw [output?_plain hx h] at houtput
  exact mem_emittersOf hx (Instance.mem_outputs_of_emitter? houtput)

theorem listeners_modify {f : Emitter → Emitter} {g : List Callback → List Callback}
    (hf : ∀ x, (f x).listeners = g x.listeners)
    (hemitters : s'.emitters = s.emitters.modify e f) (hlt : e < s.emitters.length)
    (e' : EmitterId) :
    s'.listeners e' = if e' = e then g (s.listeners e') else s.listeners e' := by
  rw [listeners, listeners, hemitters, List.getElem?_modify]
  split
  · rename_i heq
    subst heq
    rw [if_pos rfl, List.getElem?_eq_getElem hlt]
    exact hf _
  · rename_i hne
    rw [if_neg (Ne.symm hne)]
    cases s.emitters[e']? <;> rfl

/-- Nothing listens to new emitters. -/
theorem listeners_append (names : List String)
    (hemitters : s'.emitters = s.emitters ++ names.map fun name => ⟨name, []⟩) (e : EmitterId) :
    s'.listeners e = s.listeners e := by
  rw [listeners, listeners, hemitters, List.getElem?_append]
  split
  · rfl
  · rename_i hge
    rw [List.getElem?_eq_none (Nat.le_of_not_lt hge)]
    cases hfound : (names.map fun name => (⟨name, []⟩ : Emitter))[e - s.emitters.length]? with
    | none => rfl
    | some emitter =>
      obtain ⟨name, -, rfl⟩ := List.mem_map.mp (List.mem_of_getElem? hfound)
      rfl

/-! ## A store with a new instance -/

theorem emittersOf_created (s : Store) (h : HostId) (b : Blueprint) (i : InstanceId) :
    (s.created h b).emittersOf i =
      if i = s.instances.length then List.range' s.emitters.length b.outputs.length
      else s.emittersOf i := by
  rw [emittersOf, emittersOf, created, map_concat]
  split
  · exact s.born_emitters h b
  · rfl

theorem keptBy_created (s : Store) (h : HostId) (b : Blueprint) (i : InstanceId) :
    (s.created h b).keptBy i = s.keptBy i := by
  rw [keptBy, keptBy, created, map_concat]
  split
  · rename_i heq
    rw [heq, List.getElem?_eq_none (Nat.le_refl _)]
    rfl
  · rfl

/-- Nothing listens to a new instance. -/
theorem listeners_created (s : Store) (h : HostId) (b : Blueprint) (e : EmitterId) :
    (s.created h b).listeners e = s.listeners e :=
  listeners_append b.outputs rfl e

/-! ## A store with a new subscription -/

theorem alive_listening (hx : s.instances[i]? = some x) (e : EmitterId) (callback : Callback)
    (j : InstanceId) : (s.listening i x e callback).Alive j ↔ s.Alive j := by
  rw [Alive, Alive, listening, map_set hx]
  rfl

theorem emittersOf_listening (hx : s.instances[i]? = some x) (e : EmitterId)
    (callback : Callback) (j : InstanceId) :
    (s.listening i x e callback).emittersOf j = s.emittersOf j := by
  rw [emittersOf, emittersOf, listening, map_set hx]
  rfl

theorem keptBy_listening (hx : s.instances[i]? = some x) (e : EmitterId) (callback : Callback)
    (j : InstanceId) : (s.listening i x e callback).keptBy j =
      if j = i then s.keptBy j ++ [s.subscriptions.length] else s.keptBy j := by
  rw [keptBy, keptBy, listening, List.getElem?_set]
  split
  · rename_i heq
    subst heq
    rw [if_pos (List.getElem?_eq_some_iff.mp hx).1, if_pos rfl, hx]
    rfl
  · rename_i hne
    rw [if_neg (Ne.symm hne)]

/-! ## Listeners and subscriptions -/

/-- The listeners are those of the open subscriptions still when a callback is subscribed. -/
theorem perm_subscribed {callback : Callback}
    (hperm : ∀ e, (s.listeners e).Perm ((s.openOn e).map Subscription.callback))
    (hlt : e < s.emitters.length)
    (hemitters : s'.emitters = s.emitters.modify e fun x =>
      { x with listeners := x.listeners ++ [callback] })
    (hsubscriptions : s'.subscriptions = s.subscriptions ++ [⟨e, callback, false⟩])
    (e' : EmitterId) :
    (s'.listeners e').Perm ((s'.openOn e').map Subscription.callback) := by
  rw [listeners_modify (g := (· ++ [callback])) (fun _ => rfl) hemitters hlt, openOn,
    hsubscriptions, List.filter_append, List.map_append]
  split
  · rename_i heq
    subst heq
    refine (hperm e').append ?_
    simp
  · rename_i hne
    have hperm := hperm e'
    rw [openOn] at hperm
    simpa [Ne.symm hne] using hperm

/-- Nothing comes of an event that nothing listens to. -/
theorem emit_silent (h : s.listeners e = []) (data : Json) : s.emit e data = ([], none) := by
  rw [emit, deliver, h]
  rfl

namespace Wiring

/-- Nothing listens to an instance that is not live. -/
theorem silent (W : Wiring s) (hdead : ¬ s.Alive i) (hemitter : e ∈ s.emittersOf i) :
    s.listeners e = [] := by
  have hnone : s.openOn e = [] := by
    rw [openOn, List.filter_eq_nil_iff]
    intro sub hsub hopen
    rw [Bool.and_eq_true, decide_eq_true_eq, Bool.not_eq_true'] at hopen
    obtain ⟨id, hid⟩ := List.mem_iff_getElem?.mp hsub
    obtain ⟨j, hj, hkept⟩ := W.kept ⟨hid, hopen.2⟩
    have heq : i = j := W.owner hemitter (hopen.1 ▸ hj)
    rw [← heq, W.released hdead] at hkept
    cases hkept
  have hperm := W.listening e
  rw [hnone] at hperm
  exact hperm.eq_nil

/-- An act that leaves the subscriptions and what instances have of them alone. -/
theorem unchanged (W : Wiring s) (hemitters : s'.emitters = s.emitters)
    (hsubscriptions : s'.subscriptions = s.subscriptions)
    (hemittersOf : ∀ i, s'.emittersOf i = s.emittersOf i) (hkeptBy : ∀ i, s'.keptBy i = s.keptBy i)
    (halive : ∀ i, s'.Alive i ↔ s.Alive i) : Wiring s' := by
  constructor
  case emitter_lt =>
    intro i e he
    rw [hemitters]
    exact W.emitter_lt (hemittersOf i ▸ he)
  case owner =>
    intro i j e hi hj
    exact W.owner (hemittersOf i ▸ hi) (hemittersOf j ▸ hj)
  case listening =>
    intro e
    rw [listeners, openOn, hemitters, hsubscriptions]
    exact W.listening e
  case kept =>
    intro id sub hopen
    rw [Open, hsubscriptions] at hopen
    obtain ⟨i, hemitter, hkept⟩ := W.kept hopen
    exact ⟨i, (hemittersOf i).symm ▸ hemitter, (hkeptBy i).symm ▸ hkept⟩
  case released =>
    intro i hdead
    rw [hkeptBy]
    exact W.released fun hlive => hdead ((halive i).mpr hlive)

/-- A new instance with emitters of its own. -/
theorem create (W : Wiring s) (h : HostId) (b : Blueprint) : Wiring (s.created h b) := by
  have hold {i : InstanceId} {e : EmitterId} (he : e ∈ s.emittersOf i) :
      e ∈ (s.created h b).emittersOf i := by
    rw [emittersOf_created, if_neg]
    · exact he
    · rintro rfl
      rw [emittersOf, List.getElem?_eq_none (Nat.le_refl _)] at he
      cases he
  constructor
  case emitter_lt =>
    intro i e he
    rw [created, List.length_append, List.length_map]
    rw [emittersOf_created] at he
    split at he
    · exact (List.mem_range'_1.mp he).2
    · exact Nat.lt_add_right _ (W.emitter_lt he)
  case owner =>
    intro i j e hi hj
    rw [emittersOf_created] at hi hj
    split at hi <;> split at hj
    · rename_i hi' hj'
      exact hi'.trans hj'.symm
    · exact absurd (W.emitter_lt hj) (Nat.not_lt.mpr (List.mem_range'_1.mp hi).1)
    · exact absurd (W.emitter_lt hi) (Nat.not_lt.mpr (List.mem_range'_1.mp hj).1)
    · exact W.owner hi hj
  case listening =>
    intro e
    rw [listeners_created]
    exact W.listening e
  case kept =>
    intro id sub hopen
    obtain ⟨i, hemitter, hkept⟩ := W.kept (show s.Open id sub from hopen)
    exact ⟨i, hold hemitter, (s.keptBy_created h b i).symm ▸ hkept⟩
  case released =>
    intro i hdead
    rw [keptBy_created]
    exact W.released fun hlive => hdead ((s.alive_created h b i).mpr (.inr hlive))

/-- A callback on an output of a live instance, which keeps the subscription. -/
theorem listen (W : Wiring s) (hx : s.instances[i]? = some x) (hlive : x.destroyed = false)
    (hemitter : e ∈ s.emittersOf i) (callback : Callback) :
    Wiring (s.listening i x e callback) := by
  have hemittersOf := emittersOf_listening hx e callback
  have hold {j : InstanceId} {id : SubscriptionId} (hkept : id ∈ s.keptBy j) :
      id ∈ (s.listening i x e callback).keptBy j := by
    rw [keptBy_listening hx]
    split
    · exact List.mem_append_left _ hkept
    · exact hkept
  constructor
  case emitter_lt =>
    intro j e' he
    rw [Store.listening, List.length_modify]
    exact W.emitter_lt (hemittersOf j ▸ he)
  case owner =>
    intro j k e' hj hk
    exact W.owner (hemittersOf j ▸ hj) (hemittersOf k ▸ hk)
  case listening =>
    exact perm_subscribed W.listening (W.emitter_lt hemitter) rfl rfl
  case kept =>
    intro id sub hopen
    rw [Open, Store.listening, List.getElem?_append] at hopen
    split at hopen
    · obtain ⟨j, hj, hkept⟩ := W.kept hopen
      exact ⟨j, (hemittersOf j).symm ▸ hj, hold hkept⟩
    · rename_i hge
      have hlast : id = s.subscriptions.length := by
        have hbound := (List.getElem?_eq_some_iff.mp hopen.1).1
        rw [List.length_singleton, Nat.lt_one_iff, Nat.sub_eq_zero_iff_le] at hbound
        exact Nat.le_antisymm hbound (Nat.le_of_not_lt hge)
      subst hlast
      rw [Nat.sub_self] at hopen
      obtain rfl := Option.some.inj hopen.1
      refine ⟨i, (hemittersOf i).symm ▸ hemitter, ?_⟩
      rw [keptBy_listening hx, if_pos rfl]
      exact List.mem_append_right _ (List.mem_singleton_self _)
  case released =>
    intro j hdead
    have hdead' : ¬ s.Alive j := fun hlive =>
      hdead ((alive_listening hx e callback j).mpr hlive)
    have hne : j ≠ i := fun heq => hdead' (heq ▸ Alive.of_some hx hlive)
    rw [keptBy_listening hx, if_neg hne]
    exact W.released hdead'

end Wiring

/-! ## Ending subscriptions -/

section Ending

variable {id id' : SubscriptionId} {sub sub' : Subscription}

theorem unsubscribe_instances (s : Store) (id : SubscriptionId) :
    (s.unsubscribe id).instances = s.instances := by
  unfold unsubscribe
  split
  · rfl
  · split <;> rfl

theorem unsubscribe_hosts (s : Store) (id : SubscriptionId) :
    (s.unsubscribe id).hosts = s.hosts := by
  unfold unsubscribe
  split
  · rfl
  · split <;> rfl

/-- Ending an open subscription takes it out of those that are open. -/
theorem unsubscribe_open (hopen : s.Open id sub) :
    s.unsubscribe id =
      { s with
        emitters := s.emitters.modify sub.emitter fun x =>
          { x with listeners := x.listeners.erase sub.callback }
        subscriptions := s.subscriptions.set id { sub with closed := true } } := by
  rw [unsubscribe, hopen.1]
  simp only [hopen.2, Bool.false_eq_true, if_false, modify_eq_set_of hopen.1]

theorem unsubscribe_not_open (hclosed : ∀ sub, ¬ s.Open id sub) : s.unsubscribe id = s := by
  rw [unsubscribe]
  cases hsub : s.subscriptions[id]? with
  | none => rfl
  | some sub =>
    cases hended : sub.closed with
    | true => simp [hended]
    | false => exact absurd ⟨hsub, hended⟩ (hclosed sub)

/-- What is open behind the end of a subscription was open before, and is another one. -/
theorem Open.of_unsubscribe (hopen : (s.unsubscribe id).Open id' sub') :
    s.Open id' sub' ∧ id' ≠ id := by
  by_cases hany : ∃ sub, s.Open id sub
  · obtain ⟨sub, hsub⟩ := hany
    rw [unsubscribe_open hsub] at hopen
    obtain ⟨hfound, hended⟩ := hopen
    rw [List.getElem?_set] at hfound
    split at hfound
    · rename_i heq
      rw [if_pos (List.getElem?_eq_some_iff.mp hsub.1).1] at hfound
      obtain rfl := Option.some.inj hfound
      cases hended
    · rename_i hne
      exact ⟨⟨hfound, hended⟩, Ne.symm hne⟩
  · rw [unsubscribe_not_open fun sub hsub => hany ⟨sub, hsub⟩] at hopen
    exact ⟨hopen, fun heq => hany ⟨sub', heq ▸ hopen⟩⟩

theorem openOn_unsubscribe (hopen : s.Open id sub) (e : EmitterId) :
    (s.openOn e).Perm
      (if sub.emitter = e then sub :: (s.unsubscribe id).openOn e
       else (s.unsubscribe id).openOn e) := by
  obtain ⟨hlt, hfound⟩ := List.getElem?_eq_some_iff.mp hopen.1
  obtain ⟨before, behind, hsplit, -, hset⟩ := List.exists_of_set hlt
  rw [hfound] at hsplit
  rw [unsubscribe_open hopen, openOn, openOn, hset, hsplit]
  split
  · rename_i heq
    simp [heq, hopen.2, List.perm_middle]
  · rename_i hne
    simp [hne]

/-- The first listener that equals the callback is as good as the one that was subscribed. -/
theorem perm_unsubscribe
    (hperm : ∀ e, (s.listeners e).Perm ((s.openOn e).map Subscription.callback))
    (hlt : sub.emitter < s.emitters.length) (hopen : s.Open id sub) (e : EmitterId) :
    ((s.unsubscribe id).listeners e).Perm
      (((s.unsubscribe id).openOn e).map Subscription.callback) := by
  have hbefore := (hperm e).trans ((openOn_unsubscribe hopen e).map Subscription.callback)
  rw [listeners_modify (g := (·.erase sub.callback)) (fun _ => rfl)
    (congrArg Store.emitters (unsubscribe_open hopen)) hlt]
  by_cases heq : sub.emitter = e
  · rw [if_pos heq, List.map_cons] at hbefore
    rw [if_pos heq.symm]
    have herased := hbefore.erase sub.callback
    rw [List.erase_cons_head] at herased
    exact herased
  · rw [if_neg heq] at hbefore
    rw [if_neg (Ne.symm heq)]
    exact hbefore

theorem Wiring.unsubscribe (W : Wiring s) (id : SubscriptionId) : Wiring (s.unsubscribe id) := by
  by_cases hany : ∃ sub, s.Open id sub
  · obtain ⟨sub, hsub⟩ := hany
    have hlt : sub.emitter < s.emitters.length := by
      obtain ⟨i, hemitter, -⟩ := W.kept hsub
      exact W.emitter_lt hemitter
    have hequation := unsubscribe_open hsub
    have hemittersOf (i : InstanceId) : (s.unsubscribe id).emittersOf i = s.emittersOf i := by
      rw [emittersOf, emittersOf, unsubscribe_instances]
    have hkeptBy (i : InstanceId) : (s.unsubscribe id).keptBy i = s.keptBy i := by
      rw [keptBy, keptBy, unsubscribe_instances]
    constructor
    case emitter_lt =>
      intro i e he
      rw [hequation, List.length_modify]
      exact W.emitter_lt (hemittersOf i ▸ he)
    case owner =>
      intro i j e hi hj
      exact W.owner (hemittersOf i ▸ hi) (hemittersOf j ▸ hj)
    case listening =>
      exact perm_unsubscribe W.listening hlt hsub
    case kept =>
      intro id' sub' hopen
      obtain ⟨i, hemitter, hkept⟩ := W.kept hopen.of_unsubscribe.1
      exact ⟨i, (hemittersOf i).symm ▸ hemitter, (hkeptBy i).symm ▸ hkept⟩
    case released =>
      intro i hdead
      rw [hkeptBy]
      refine W.released fun hlive => hdead ?_
      rw [Alive, unsubscribe_instances]
      exact hlive
  · rw [unsubscribe_not_open fun sub hsub => hany ⟨sub, hsub⟩]
    exact W

/-- Several subscriptions are ended one after the other. -/
theorem foldl_unsubscribe (W : Wiring s) (ids : List SubscriptionId) :
    Wiring (ids.foldl Store.unsubscribe s) ∧
      (ids.foldl Store.unsubscribe s).instances = s.instances ∧
      (ids.foldl Store.unsubscribe s).hosts = s.hosts ∧
      ∀ id sub, (ids.foldl Store.unsubscribe s).Open id sub → s.Open id sub ∧ id ∉ ids := by
  induction ids generalizing s with
  | nil => exact ⟨W, rfl, rfl, fun _ _ hopen => ⟨hopen, List.not_mem_nil⟩⟩
  | cons id rest ih =>
    obtain ⟨hwiring, hinstances, hhosts, hopen⟩ := ih (W.unsubscribe id)
    refine ⟨hwiring, hinstances.trans (unsubscribe_instances s id),
      hhosts.trans (unsubscribe_hosts s id), fun id' sub' hopen' => ?_⟩
    obtain ⟨hbefore, hrest⟩ := hopen id' sub' hopen'
    obtain ⟨hstart, hne⟩ := hbefore.of_unsubscribe
    exact ⟨hstart, fun hmem => (List.mem_cons.mp hmem).elim hne hrest⟩

/-- An instance lets go of its subscriptions once they are ended, and is marked. -/
theorem Wiring.mark (W : Wiring s) (hx : s.instances[i]? = some x)
    (hended : ∀ id sub, s.Open id sub → id ∉ s.keptBy i)
    (hemitters : s'.emitters = s.emitters) (hsubscriptions : s'.subscriptions = s.subscriptions)
    (hinstances : s'.instances = s.instances.set i { x with tracked := [], destroyed := true }) :
    Wiring s' := by
  have hlt := (List.getElem?_eq_some_iff.mp hx).1
  have hemittersOf (j : InstanceId) : s'.emittersOf j = s.emittersOf j := by
    rw [emittersOf, emittersOf, hinstances, map_set hx]
    rfl
  have hkeptBy (j : InstanceId) : s'.keptBy j = if j = i then [] else s.keptBy j := by
    rw [keptBy, keptBy, hinstances, List.getElem?_set]
    split
    · rename_i heq
      subst heq
      rw [if_pos rfl]
      rfl
    · rename_i hne
      rw [if_neg (Ne.symm hne)]
  constructor
  case emitter_lt =>
    intro j e he
    rw [hemitters]
    exact W.emitter_lt (hemittersOf j ▸ he)
  case owner =>
    intro j k e hj hk
    exact W.owner (hemittersOf j ▸ hj) (hemittersOf k ▸ hk)
  case listening =>
    intro e
    rw [listeners, openOn, hemitters, hsubscriptions]
    exact W.listening e
  case kept =>
    intro id sub hopen
    rw [Open, hsubscriptions] at hopen
    obtain ⟨j, hemitter, hkept⟩ := W.kept hopen
    refine ⟨j, (hemittersOf j).symm ▸ hemitter, ?_⟩
    rw [hkeptBy, if_neg fun heq : j = i => hended id sub hopen (heq ▸ hkept)]
    exact hkept
  case released =>
    intro j hdead
    rw [hkeptBy]
    split
    · rfl
    · rename_i hne
      refine W.released fun hlive => hdead ?_
      rw [Alive, hinstances, List.getElem?_set, if_neg (Ne.symm hne)]
      exact hlive

end Ending

end Store

end ViewTree.Live
