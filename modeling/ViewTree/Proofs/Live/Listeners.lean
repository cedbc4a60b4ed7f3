import Mathlib.Data.List.Perm.Subperm
import ViewTree.Proofs.Live.Wiring

/-
  ViewTree.Proofs.Live.Listeners — what listens to an emitter, whatever was subscribed and
  ended before.

  Ending a subscription takes out the first listener that equals its callback, which need
  not be the one that was put in for it. So listeners and open subscriptions do not
  correspond place by place. They do up to order (`Matched`), and no more is needed: an
  open subscription finds its callback among the listeners, and what is taken out is as
  good as what was put in.

  A store is used by making emitters and instances, subscribing and ending subscriptions in
  any order and any number of times, and by destroying the instances that keep them
  (`Use`). Each of these keeps a store matched and ended subscriptions ended (`Later`), and
  so does a run (`later_foldl`).

  Callbacks are called one after the other, and the first that fails is the last that is
  called (`called`). Nothing sets one listener apart from another: when one fails, those
  behind it are not called for this event (`nothing_behind_a_failing_callback`).
-/

namespace ViewTree.Live

/-! ## Callbacks that are called -/

/-- The callbacks up to the first that fails, and that one. -/
def calledOf (fire : Callback → Delivery) : List Callback → List Callback
  | [] => []
  | c :: rest => if (fire c).2 = none then c :: calledOf fire rest else [c]

section Calls

variable {fire : Callback → Delivery} {cs : List Callback}

theorem calledOf_front (fire : Callback → Delivery) (cs : List Callback) :
    calledOf fire cs <+: cs := by
  induction cs with
  | nil => exact List.prefix_rfl
  | cons c rest ih =>
    rw [calledOf]
    split
    · exact List.cons_prefix_cons.mpr ⟨rfl, ih⟩
    · exact ⟨rest, rfl⟩

theorem calledOf_eq_self (h : ∀ c ∈ cs, (fire c).2 = none) : calledOf fire cs = cs := by
  induction cs with
  | nil => rfl
  | cons c rest ih =>
    obtain ⟨hc, hrest⟩ := List.forall_mem_cons.mp h
    rw [calledOf, if_pos hc, ih hrest]

/-- Only the last that is called may fail. -/
theorem of_mem_dropLast_calledOf {c : Callback} (hmem : c ∈ (calledOf fire cs).dropLast) :
    (fire c).2 = none := by
  induction cs with
  | nil => cases hmem
  | cons d rest ih =>
    rw [calledOf] at hmem
    split at hmem
    · rename_i hd
      cases hrest : calledOf fire rest with
      | nil =>
        rw [hrest] at hmem
        cases hmem
      | cons d' rest' =>
        rw [hrest, List.dropLast_cons_cons, List.mem_cons] at hmem
        rcases hmem with rfl | hmem
        · exact hd
        · exact ih (hrest ▸ hmem)
    · cases hmem

theorem fireAll_cons (fire : Callback → Delivery) (c : Callback) (rest : List Callback) :
    fireAll fire (c :: rest) =
      if (fire c).2 = none then ((fire c).1 ++ (fireAll fire rest).1, (fireAll fire rest).2)
      else fire c := by
  rw [fireAll]
  rcases fire c with ⟨calls, _ | failure⟩
  · rfl
  · rfl

/-- What comes of callbacks is what comes of those that are called. -/
theorem fireAll_eq (fire : Callback → Delivery) (cs : List Callback) :
    fireAll fire cs =
      ((calledOf fire cs).flatMap fun c => (fire c).1,
        (calledOf fire cs).getLast?.bind fun c => (fire c).2) := by
  induction cs with
  | nil => rfl
  | cons c rest ih =>
    rw [fireAll_cons, calledOf]
    split
    · rename_i hc
      rw [ih, List.flatMap_cons, List.getLast?_cons]
      cases (calledOf fire rest).getLast? with
      | none => rw [Option.getD_none, Option.bind_some, hc, Option.bind_none]
      | some last => rfl
    · simp

theorem fireAll_failure_eq_none_iff :
    (fireAll fire cs).2 = none ↔ ∀ c ∈ cs, (fire c).2 = none := by
  induction cs with
  | nil => exact ⟨fun _ _ hmem => absurd hmem List.not_mem_nil, fun _ => rfl⟩
  | cons c rest ih =>
    rw [fireAll_cons, List.forall_mem_cons, ← ih]
    split
    · rename_i hc
      exact ⟨fun h => ⟨hc, h⟩, fun h => h.2⟩
    · rename_i hc
      exact ⟨fun h => absurd h hc, fun h => absurd h.1 hc⟩

end Calls

namespace Store

/-- What comes of one callback of an emitter. -/
def callOne (s : Store) (data : Json) : Callback → Delivery
  | .relay next => s.deliver data s.emitters.length next
  | c => fireHandler data c

/-- The callbacks that an event is brought to. -/
def called (s : Store) (e : EmitterId) (data : Json) : List Callback :=
  calledOf (s.callOne data) (s.listeners e)

theorem emit_eq_fireAll (s : Store) (e : EmitterId) (data : Json) :
    s.emit e data = fireAll (s.callOne data) (s.listeners e) := by
  rw [emit, deliver]
  refine congrArg (fireAll · _) (funext fun c => ?_)
  cases c <;> rfl

/-! ## Listeners that stand for subscriptions -/

/-- Ends a subscription as `unsubscribe` does, but demands that its callback listens. -/
def unsubscribe? (s : Store) (id : SubscriptionId) : Option Store :=
  match s.subscriptions[id]? with
  | none => some s
  | some sub =>
    if sub.closed then some s
    else if sub.callback ∈ s.listeners sub.emitter then some (s.unsubscribe id)
    else none

/-- A subscription that was ended. -/
def Ended (s : Store) (id : SubscriptionId) : Prop :=
  ∃ sub, s.subscriptions[id]? = some sub ∧ sub.closed = true

/-- The listeners of every emitter are the callbacks of the open subscriptions to it. -/
structure Matched (s : Store) : Prop where
  emitter_lt {id : SubscriptionId} {sub : Subscription} : s.Open id sub →
    sub.emitter < s.emitters.length
  listening (e : EmitterId) : (s.listeners e).Perm ((s.openOn e).map Subscription.callback)

variable {s s' s'' : Store} {id : SubscriptionId} {sub : Subscription} {e : EmitterId}

theorem matched_empty : Matched Store.empty where
  emitter_lt h := by cases h.1
  listening _ := .nil

theorem mem_openOn (hopen : s.Open id sub) : sub ∈ s.openOn sub.emitter := by
  rw [openOn, List.mem_filter, hopen.2, decide_eq_true rfl]
  exact ⟨List.mem_of_getElem? hopen.1, rfl⟩

theorem Ended.unsubscribe_eq (h : s.Ended id) : s.unsubscribe id = s := by
  obtain ⟨sub, hsub, hclosed⟩ := h
  exact unsubscribe_not_open fun other hopen => by
    obtain rfl := Option.some.inj (hsub.symm.trans hopen.1)
    exact absurd (hclosed.symm.trans hopen.2) nofun

theorem ended_unsubscribe (hlt : id < s.subscriptions.length) : (s.unsubscribe id).Ended id := by
  have hsub := List.getElem?_eq_getElem hlt
  cases hclosed : s.subscriptions[id].closed with
  | true =>
    have hended : s.Ended id := ⟨_, hsub, hclosed⟩
    rw [hended.unsubscribe_eq]
    exact hended
  | false =>
    rw [unsubscribe_open ⟨hsub, hclosed⟩]
    exact ⟨_, List.getElem?_set_self hlt, rfl⟩

namespace Matched

/-- No subscription misses its callback among the listeners. -/
theorem unsubscribe?_eq_some (M : Matched s) (id : SubscriptionId) :
    s.unsubscribe? id = some (s.unsubscribe id) := by
  rw [unsubscribe?]
  cases hsub : s.subscriptions[id]? with
  | none =>
    rw [unsubscribe_not_open fun sub hopen => nomatch hsub.symm.trans hopen.1]
  | some sub =>
    cases hclosed : sub.closed with
    | true =>
      rw [Ended.unsubscribe_eq ⟨sub, hsub, hclosed⟩]
      simp only [hclosed, if_true]
    | false =>
      have hopen : s.Open id sub := ⟨hsub, hclosed⟩
      have hlistens : sub.callback ∈ s.listeners sub.emitter :=
        (M.listening sub.emitter).mem_iff.mpr (List.mem_map_of_mem (mem_openOn hopen))
      simp only [hclosed, Bool.false_eq_true, if_false, hlistens, if_true]

theorem observers_eq (M : Matched s) (e : EmitterId) : s.observers e = (s.openOn e).length := by
  rw [observers, (M.listening e).length_eq, List.length_map]

end Matched

/-! ## Uses of a store -/

/-- What a store has come to after a while, as far as subscriptions go. -/
structure Later (s s' : Store) : Prop where
  matched : Matched s → Matched s'
  ended {id : SubscriptionId} : s.Ended id → s'.Ended id

namespace Later

theorem refl (s : Store) : Later s s := ⟨fun M => M, fun h => h⟩

theorem trans (l : Later s s') (l' : Later s' s'') : Later s s'' :=
  ⟨fun M => l'.matched (l.matched M), fun h => l'.ended (l.ended h)⟩

/-- New emitters, and a change that does not concern subscriptions. -/
theorem extend (names : List String)
    (hemitters : s'.emitters = s.emitters ++ names.map fun name => ⟨name, []⟩)
    (hsubscriptions : s'.subscriptions = s.subscriptions) : Later s s' where
  matched M := by
    constructor
    case emitter_lt =>
      intro id sub hopen
      rw [Open, hsubscriptions] at hopen
      rw [hemitters, List.length_append]
      exact Nat.lt_add_right _ (M.emitter_lt hopen)
    case listening =>
      intro e
      rw [listeners_append names hemitters, openOn, hsubscriptions]
      exact M.listening e
  ended h := by
    rw [Ended, hsubscriptions]
    exact h

theorem unchanged (hemitters : s'.emitters = s.emitters)
    (hsubscriptions : s'.subscriptions = s.subscriptions) : Later s s' :=
  extend [] (by rw [hemitters, List.map_nil, List.append_nil]) hsubscriptions

theorem subscribe (hlt : e < s.emitters.length) (callback : Callback) :
    Later s (s.subscribe e callback).2 where
  matched M := by
    constructor
    case emitter_lt =>
      intro id sub hopen
      rw [Store.subscribe, List.length_modify]
      obtain ⟨hsub, hclosed⟩ := hopen
      rw [Store.subscribe, List.getElem?_append] at hsub
      split at hsub
      · exact M.emitter_lt ⟨hsub, hclosed⟩
      · obtain rfl := List.mem_singleton.mp (List.mem_of_getElem? hsub)
        exact hlt
    case listening => exact perm_subscribed M.listening hlt rfl rfl
  ended h := by
    obtain ⟨sub, hsub, hclosed⟩ := h
    refine ⟨sub, ?_, hclosed⟩
    rw [Store.subscribe, List.getElem?_append_left (List.getElem?_eq_some_iff.mp hsub).1]
    exact hsub

theorem unsubscribe (s : Store) (id : SubscriptionId) : Later s (s.unsubscribe id) := by
  by_cases hany : ∃ sub, s.Open id sub
  · obtain ⟨sub, hsub⟩ := hany
    constructor
    case matched =>
      intro M
      constructor
      case emitter_lt =>
        intro id' sub' hopen
        rw [unsubscribe_open hsub, List.length_modify]
        exact M.emitter_lt hopen.of_unsubscribe.1
      case listening => exact perm_unsubscribe M.listening (M.emitter_lt hsub) hsub
    case ended =>
      intro id' hended
      by_cases heq : id' = id
      · rw [heq]
        exact ended_unsubscribe (List.getElem?_eq_some_iff.mp hsub.1).1
      · obtain ⟨sub', hsub', hclosed⟩ := hended
        rw [unsubscribe_open hsub]
        exact ⟨sub', (List.getElem?_set_ne (Ne.symm heq)).trans hsub', hclosed⟩
  · rw [unsubscribe_not_open fun sub hsub => hany ⟨sub, hsub⟩]
    exact refl s

theorem foldl_unsubscribe (s : Store) (ids : List SubscriptionId) :
    Later s (ids.foldl Store.unsubscribe s) := by
  induction ids generalizing s with
  | nil => exact refl s
  | cons id rest ih => exact (unsubscribe s id).trans (ih _)

end Later

/-- So none of several subscriptions does, in whatever order they are ended. -/
theorem Matched.foldlM_unsubscribe? (M : Matched s) (ids : List SubscriptionId) :
    ids.foldlM unsubscribe? s = some (ids.foldl Store.unsubscribe s) := by
  induction ids generalizing s with
  | nil => rfl
  | cons id rest ih =>
    rw [List.foldlM_cons, M.unsubscribe?_eq_some, List.foldl_cons]
    exact ih ((Later.unsubscribe s id).matched M)

/-! ## Destruction -/

theorem later_attemptAll {α : Type} {step : Store → α → Attempt}
    (hstep : ∀ s a, Later s (step s a).1) (s : Store) (l : List α) :
    Later s (attemptAll step s l).1 := by
  induction l generalizing s with
  | nil => exact .refl s
  | cons a rest ih =>
    have hfirst := hstep s a
    rw [attemptAll]
    cases hrun : step s a with
    | mk t result =>
      rw [hrun] at hfirst
      cases result with
      | error failure => exact hfirst
      | ok _ => exact hfirst.trans (ih t)

theorem later_andThen {first : Attempt} {next : Store → Attempt} (hfirst : Later s first.1)
    (hnext : ∀ t, Later t (next t).1) : Later s (andThen first next).1 := by
  rcases first with ⟨t, failure | _⟩
  · exact hfirst
  · exact hfirst.trans (hnext t)

theorem later_emptyMember (s : Store) (i : InstanceId) (name : String) (m : Member) :
    Later s (s.emptyMember i name m).1 := by
  unfold emptyMember
  split <;> exact .unchanged rfl rfl

section Clearing

variable {destroy : Store → InstanceId → Attempt} {clear : Store → HostId → Attempt}

theorem later_clearBy (hdestroy : ∀ s i, Later s (destroy s i).1) (s : Store) (h : HostId) :
    Later s (clearBy destroy s h).1 :=
  later_andThen (later_attemptAll hdestroy s _) fun _ => .unchanged rfl rfl

theorem later_clearMemberBy (hclear : ∀ s h, Later s (clear s h).1) (s : Store) (i : InstanceId)
    (name : String) (m : Member) : Later s (clearMemberBy clear s i name m).1 := by
  unfold clearMemberBy
  split
  · exact hclear s _
  · exact later_emptyMember s i name m

theorem later_clearOffered (hclear : ∀ s h, Later s (clear s h).1) (s : Store) (i : InstanceId)
    (x : Instance) : Later s (clearOffered clear s i x).1 := by
  refine later_andThen (later_attemptAll hclear s _) fun t => ?_
  split
  · exact .refl t
  · exact .refl t
  · split
    · exact .refl t
    · exact later_clearMemberBy hclear t i _ _

end Clearing

theorem later_release (s : Store) (i : InstanceId) (x : Instance) : Later s (s.release i x).1 := by
  unfold release
  split
  · split
    · exact .unchanged rfl rfl
    · exact .refl s
  · exact (Later.foldl_unsubscribe s x.tracked).trans (.unchanged rfl rfl)

/-- Destroying ends the subscriptions that are kept, wherever it stops. -/
theorem later_destroyTo (depth : Nat) (s : Store) (i : InstanceId) :
    Later s (destroyTo depth s i).1 := by
  induction depth generalizing s i with
  | zero => exact .refl s
  | succ depth ih =>
    rw [destroyTo]
    split
    · exact .refl s
    · split
      · exact .refl s
      · exact later_andThen (later_clearOffered (later_clearBy ih) s i _)
          fun t => later_release t i _

/-! ## Instances -/

theorem foldl_newOutputs_store (names : List String) (outputs : List (String × EmitterId))
    (s : Store) :
    (names.foldl (fun (outputs, s) name =>
      let (e, s) := newEmitter s name
      (putOutput name e outputs, s)) (outputs, s)).2 =
    { s with emitters := s.emitters ++ names.map fun name => ⟨name, []⟩ } := by
  induction names generalizing outputs s with
  | nil => simp
  | cons name rest ih =>
    rw [List.foldl_cons]
    change (rest.foldl _ (putOutput name s.emitters.length outputs, (s.newEmitter name).2)).2 = _
    rw [ih]
    simp [newEmitter]

theorem later_spawn (s : Store) (b : Blueprint) : Later s (s.spawn b).2 := by
  let names := b.outputs.filter fun name => ((Instance.fresh b).kept? name).isNone
  have hstore := foldl_newOutputs_store names [] s
  have hemitters := congrArg Store.emitters hstore
  have hsubscriptions := congrArg Store.subscriptions hstore
  exact .extend names hemitters hsubscriptions

theorem later_make {factory : Factory} {i : InstanceId} (h : s.make factory = .ok (i, s')) :
    Later s s' := by
  cases factory with
  | make b =>
    simp only [make] at h
    split at h
    · cases h
    · obtain rfl : (s.spawn b).2 = s' := congrArg Prod.snd (Except.ok.inj h)
      exact later_spawn s b
  | fails message => cases h
  | notCallable typeName => cases h
  | wantsData typeName => cases h

theorem later_track {i : InstanceId} (h : s.track i id = .ok s') : Later s s' := by
  unfold track at h
  split at h
  · cases h
  · obtain rfl := Except.ok.inj h
    exact .unchanged rfl rfl

/-! ## Runs -/

/-- One thing done with a store. A subscription is one that `subscribe` gave, in whatever
    order they are ended, and however often. -/
inductive Use where
  | emitter (name : String)
  | make (factory : Factory)
  | subscribe (e : EmitterId) (callback : Callback)
  | unsubscribe (id : SubscriptionId)
  | track (i : InstanceId) (id : SubscriptionId)
  | destroy (i : InstanceId)

def Use.run (s : Store) : Use → Store
  | .emitter name => (s.newEmitter name).2
  | .make factory =>
    match s.make factory with
    | .ok (_, s) => s
    | .error _ => s
  | .subscribe e callback => if e < s.emitters.length then (s.subscribe e callback).2 else s
  | .unsubscribe id => s.unsubscribe id
  | .track i id =>
    match s.track i id with
    | .ok s => s
    | .error _ => s
  | .destroy i => (s.destroy i).1

/-- The store that a run makes out of nothing. -/
def made (uses : List Use) : Store := uses.foldl Use.run Store.empty

theorem later_run (s : Store) (u : Use) : Later s (u.run s) := by
  cases u with
  | emitter name => exact .extend [name] rfl rfl
  | make factory =>
    rw [Use.run]
    split
    · rename_i hmade
      exact later_make hmade
    · exact .refl s
  | subscribe e callback =>
    rw [Use.run]
    split
    · rename_i hlt
      exact .subscribe hlt callback
    · exact .refl s
  | unsubscribe id => exact .unsubscribe s id
  | track i id =>
    rw [Use.run]
    split
    · rename_i htracked
      exact later_track htracked
    · exact .refl s
  | destroy i => exact later_destroyTo _ s i

theorem later_foldl (uses : List Use) (s : Store) : Later s (uses.foldl Use.run s) := by
  induction uses generalizing s with
  | nil => exact .refl s
  | cons u rest ih => exact (later_run s u).trans (ih _)

theorem matched_made (uses : List Use) : Matched (made uses) :=
  (later_foldl uses Store.empty).matched matched_empty

/-! ## What an event is brought to -/

/-- What comes of an event, in terms of the open subscriptions to its emitter. -/
structure Brought (s : Store) (e : EmitterId) (data : Json) : Prop where
  calls : (s.emit e data).1 = (s.called e data).flatMap fun c => (s.callOne data c).1
  failure : (s.emit e data).2 = (s.called e data).getLast?.bind fun c => (s.callOne data c).2
  before {c : Callback} : c ∈ (s.called e data).dropLast → (s.callOne data c).2 = none
  succeeds : (s.emit e data).2 = none ↔
    ∀ sub ∈ s.openOn e, (s.callOne data sub.callback).2 = none
  /-- Without a failure, those of all open subscriptions, each as often as it is subscribed. -/
  all : (s.emit e data).2 = none →
    (s.called e data).Perm ((s.openOn e).map Subscription.callback)
  /-- In any case, none oftener than it is subscribed. -/
  some : (s.called e data).Subperm ((s.openOn e).map Subscription.callback)

theorem Matched.brought (M : Matched s) (e : EmitterId) (data : Json) : Brought s e data := by
  have hperm := M.listening e
  have hsucceeds : (s.emit e data).2 = none ↔
      ∀ c ∈ s.listeners e, (s.callOne data c).2 = none := by
    rw [emit_eq_fireAll]
    exact fireAll_failure_eq_none_iff
  constructor
  case calls => rw [emit_eq_fireAll, fireAll_eq, called]
  case failure => rw [emit_eq_fireAll, fireAll_eq, called]
  case before => exact of_mem_dropLast_calledOf
  case succeeds =>
    rw [hsucceeds]
    constructor
    · intro h sub hsub
      exact h _ (hperm.mem_iff.mpr (List.mem_map_of_mem hsub))
    · intro h c hc
      obtain ⟨sub, hsub, rfl⟩ := List.mem_map.mp (hperm.mem_iff.mp hc)
      exact h sub hsub
  case all =>
    intro hnone
    rw [called, calledOf_eq_self (hsucceeds.mp hnone)]
    exact hperm
  case some =>
    exact (calledOf_front _ _).sublist.subperm.trans hperm.subperm

/-- After any run subscriptions can be ended in any order, and ending one once more, at
    whatever time, does nothing. The observers of an emitter are as many as the open
    subscriptions to it, and an event is brought to the callbacks of these. -/
theorem listeners_match_subscriptions (uses : List Use) :
    (∀ ids : List SubscriptionId,
        ids.foldlM unsubscribe? (made uses) = some (ids.foldl Store.unsubscribe (made uses))) ∧
      (∀ id < (made uses).subscriptions.length, ∀ more : List Use,
        (more.foldl Use.run ((made uses).unsubscribe id)).unsubscribe? id =
          some (more.foldl Use.run ((made uses).unsubscribe id))) ∧
      ∀ e, (made uses).observers e = ((made uses).openOn e).length ∧
        ∀ data, Brought (made uses) e data := by
  have M := matched_made uses
  refine ⟨M.foldlM_unsubscribe?, fun id hlt more => ?_, fun e => ⟨M.observers_eq e, M.brought e⟩⟩
  have hlater := (Later.unsubscribe (made uses) id).trans (later_foldl more _)
  have hended := (later_foldl more _).ended (ended_unsubscribe hlt)
  rw [(hlater.matched M).unsubscribe?_eq_some, hended.unsubscribe_eq]

/-- The one callback three times and another between: the last of the three is ended twice,
    the other is ended, and then the last is ended once more. -/
theorem one_callback_subscribed_thrice :
    let c : Callback := .next ⟨1, "1", "object", false, true, false, false⟩
    let d : Callback := .emit ⟨2, "2", "object", false, false, true, false⟩
    let uses : List Use := [.emitter "changed", .subscribe 0 c, .subscribe 0 d, .subscribe 0 c,
      .subscribe 0 c, .unsubscribe 3]
    let ended := (made uses).unsubscribe 3
    3 < (made uses).subscriptions.length ∧
      (ended.unsubscribe 1).unsubscribe? 3 = some (ended.unsubscribe 1) ∧
      (made uses).observers 0 = 3 ∧ ((made uses).emit 0 .null).2 = none ∧
      ((made uses).called 0 .null).Perm [d, c, c] := by
  intro c d uses ended
  have hlt : 3 < (made uses).subscriptions.length := by decide
  have hsucceeds : ((made uses).emit 0 .null).2 = none := by decide
  obtain ⟨-, hagain, hlisten⟩ := listeners_match_subscriptions uses
  obtain ⟨hobservers, hbrought⟩ := hlisten 0
  refine ⟨hlt, hagain 3 hlt [.unsubscribe 1], hobservers, hsucceeds, ?_⟩
  exact ((hbrought .null).all hsucceeds).trans (by decide)

/-- A callback that fails keeps the event from those behind it: one of two open subscriptions
    is passed over, and the failure is what comes of the event. -/
theorem nothing_behind_a_failing_callback :
    let failing : Callback := .call ⟨1, "1", "function", true, false, false, true⟩
    let c : Callback := .call ⟨2, "2", "function", true, false, false, false⟩
    let s := made [.emitter "changed", .subscribe 0 failing, .subscribe 0 c]
    (s.openOn 0).map Subscription.callback = [failing, c] ∧
      s.called 0 .null = [failing] ∧
      s.emit 0 .null = ([⟨"1", "call", .null⟩], some (.handlerFails "1")) ∧
      ¬ (s.called 0 .null).Perm ((s.openOn 0).map Subscription.callback) := by
  decide

end Store

end ViewTree.Live
