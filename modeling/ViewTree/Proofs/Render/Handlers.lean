import Mathlib.Data.List.Nodup
import ViewTree.Proofs.Json.Fields
import ViewTree.Proofs.Live.Additions
import ViewTree.Proofs.Render.Acts

/-
  ViewTree.Proofs.Render.Handlers — the event handlers of a node.

  The handlers of a node are subscribed one after the other to the outputs of its
  instance, or reported. The subscriptions made are numbered in order, and the instance
  keeps each of them. Outputs have emitters of their own and the events of a node have
  different names, so where nothing listened before, an output has the one listener that is
  meant for it, and no other output has any.
-/

namespace ViewTree

open Live

namespace Live

/-- Callbacks on emitters, one after the other, where an instance keeps the subscriptions. -/
def Store.listeningAll (s : Store) (i : InstanceId) (x : Instance) :
    List (EmitterId × Callback) → Store
  | [] => s
  | (e, callback) :: rest =>
    (s.listening i x e callback).listeningAll i
      { x with tracked := x.tracked ++ [s.subscriptions.length] } rest

section Listening

variable {s : Store} {i : InstanceId} {x : Instance}

theorem listeningAll_hosts (bindings : List (EmitterId × Callback)) :
    (s.listeningAll i x bindings).hosts = s.hosts := by
  induction bindings generalizing s x with
  | nil => rfl
  | cons binding rest ih => exact ih

theorem listeningAll_subscriptions (bindings : List (EmitterId × Callback)) :
    (s.listeningAll i x bindings).subscriptions =
      s.subscriptions ++ bindings.map fun b => ⟨b.1, b.2, false⟩ := by
  induction bindings generalizing s x with
  | nil => exact (List.append_nil _).symm
  | cons binding rest ih =>
    obtain ⟨e, callback⟩ := binding
    rw [Store.listeningAll, ih]
    simp [Store.listening]

theorem listeningAll_instances (hx : s.instances[i]? = some x)
    (bindings : List (EmitterId × Callback)) :
    (s.listeningAll i x bindings).instances =
      s.instances.set i { x with
        tracked := x.tracked ++ List.range' s.subscriptions.length bindings.length } := by
  have hlt := (List.getElem?_eq_some_iff.mp hx).1
  induction bindings generalizing s x with
  | nil =>
    obtain ⟨_, rfl⟩ := List.getElem?_eq_some_iff.mp hx
    simp only [Store.listeningAll, List.length_nil, List.range'_zero, List.append_nil]
    exact (List.set_getElem_self hlt).symm
  | cons binding rest ih =>
    obtain ⟨e, callback⟩ := binding
    have hy : (s.listening i x e callback).instances[i]? =
        some { x with tracked := x.tracked ++ [s.subscriptions.length] } :=
      List.getElem?_set_self hlt
    rw [Store.listeningAll, ih hy (by simpa [Store.listening] using hlt)]
    simp [Store.listening, List.range'_succ]

theorem listeningAll_emitters_length (bindings : List (EmitterId × Callback)) :
    (s.listeningAll i x bindings).emitters.length = s.emitters.length := by
  induction bindings generalizing s x with
  | nil => rfl
  | cons binding rest ih =>
    rw [Store.listeningAll, ih]
    exact List.length_modify ..

/-- Callbacks come behind those that listen already. -/
theorem listeningAll_emitter (bindings : List (EmitterId × Callback)) (e : EmitterId) :
    (s.listeningAll i x bindings).emitters[e]? = (s.emitters[e]?).map fun emitter =>
      { emitter with
        listeners := emitter.listeners ++ (bindings.filter fun b => b.1 = e).map Prod.snd } := by
  induction bindings generalizing s x with
  | nil => cases hfound : s.emitters[e]? <;> simp [Store.listeningAll, hfound]
  | cons binding rest ih =>
    obtain ⟨e', callback⟩ := binding
    rw [Store.listeningAll, ih, Store.listening]
    simp only [List.getElem?_modify, List.filter_cons]
    by_cases heq : e' = e
    · subst heq
      cases s.emitters[e']? <;> simp
    · cases s.emitters[e]? <;> simp [heq]

end Listening

end Live

namespace Render

/-! ## Event handlers -/

/-- The callback of a handler, with the emitter of the output it is for. -/
def binding? (x : Instance) (entry : String × Json) : Option (EmitterId × Callback) :=
  (Callback.ofBinding? entry.2).bind fun callback =>
    (x.emitter? entry.1).map fun e => (e, callback)

def bindings (x : Instance) (events : Fields) : List (EmitterId × Callback) :=
  events.filterMap (binding? x)

/-- What is reported of a handler that is not subscribed: it cannot be called, or there is
    no output for it. -/
def eventWarning (type : String) (outputs : List String) (entry : String × Json) :
    Option String :=
  match Callback.ofBinding? entry.2 with
  | none => some ("Handler for '" ++ entry.1 ++ "' on '" ++ type ++ "' is not callable")
  | some _ =>
    if entry.1 ∈ outputs then none
    else some ("Component '" ++ type ++ "' has no '" ++ entry.1 ++ "' output")

theorem emitter?_isSome {x : Instance} (h : x.Plain) (event : String) :
    (x.emitter? event).isSome ↔ event ∈ x.blueprint.outputs := by
  rw [Instance.emitter?, Option.isSome_map, List.find?_isSome, ← h.outputs]
  simp

/-- Every handler is subscribed, or there is a warning. -/
theorem does_bindEvents {s : Store} {i : InstanceId} {x : Instance} (type : String)
    (events : Fields) (hx : s.instances[i]? = some x) (h : x.Plain) :
    Does (bindEvents i type events) s
      (events.filterMap (eventWarning type x.blueprint.outputs), .ok ())
      (s.listeningAll i x (bindings x events)) := by
  induction events generalizing s x with
  | nil => exact does_pure s _
  | cons entry rest ih =>
    obtain ⟨event, handler⟩ := entry
    rw [bindEvents]
    cases hcallback : Callback.ofBinding? handler with
    | none =>
      simp only [bindings, binding?, List.filterMap_cons, eventWarning, hcallback]
      exact (does_note s _).bind ((ih hx h).bind (does_pure _ _))
    | some callback =>
      have houtput : s.output? i event = x.emitter? event := Store.output?_plain hx h event
      have hread := does_ofStore s (·.output? i event)
      simp only [houtput] at hread
      refine hread.bind ?_
      cases hemitter : x.emitter? event with
      | none =>
        have hnone : event ∉ x.blueprint.outputs := by
          rw [← emitter?_isSome h, hemitter]
          exact Bool.false_ne_true
        simp only [bindings, binding?, List.filterMap_cons, eventWarning, hcallback, hemitter, hnone]
        exact (does_note s _).bind ((ih hx h).bind (does_pure _ _))
      | some e =>
        have hsome : event ∈ x.blueprint.outputs := by
          rw [← emitter?_isSome h, hemitter]
          rfl
        simp only [bindings, binding?, List.filterMap_cons, eventWarning, hcallback, hemitter, hsome]
        refine (does_listen hx h e callback).bind ?_
        have hy : (s.listening i x e callback).instances[i]? =
            some { x with tracked := x.tracked ++ [s.subscriptions.length] } :=
          List.getElem?_set_self (List.getElem?_eq_some_iff.mp hx).1
        exact ih hy ⟨h.blueprint, h.attributes, h.outputs, h.content, h.panels⟩

/-- A callback is the one listener to the output for an event, by a subscription that the
    instance keeps once. -/
def Subscribed (s : Store) (x : Instance) (event : String) (callback : Callback) : Prop :=
  ∃ e id, x.emitter? event = some e ∧ s.listeners e = [callback] ∧
    s.subscriptions[id]? = some ⟨e, callback, false⟩ ∧ x.tracked.count id = 1

theorem binding?_eq_some {x : Instance} {entry : String × Json} {e : EmitterId}
    {callback : Callback} :
    binding? x entry = some (e, callback) ↔
      Callback.ofBinding? entry.2 = some callback ∧ x.emitter? entry.1 = some e := by
  rw [binding?, Option.bind_eq_some_iff]
  constructor
  · rintro ⟨callback', hcallback, hfound⟩
    obtain ⟨e', hemitter, heq⟩ := Option.map_eq_some_iff.mp hfound
    cases heq
    exact ⟨hcallback, hemitter⟩
  · rintro ⟨hcallback, hemitter⟩
    exact ⟨callback, hcallback, Option.map_eq_some_iff.mpr ⟨e, hemitter, rfl⟩⟩

theorem emitter?_of_binding? {x : Instance} {entry : String × Json} {e : EmitterId}
    {callback : Callback} (h : binding? x entry = some (e, callback)) :
    x.emitter? entry.1 = some e :=
  (binding?_eq_some.mp h).2

/-- Outputs with emitters of their own: events of different names have different ones. -/
theorem bindings_nodup {x : Instance} (houtputs : (x.outputs.map Prod.snd).Nodup) {events : Fields}
    (hevents : events.keys.Nodup) : ((bindings x events).map Prod.fst).Nodup := by
  induction events with
  | nil => exact List.nodup_nil
  | cons entry rest ih =>
    obtain ⟨hnew, hrest⟩ := List.nodup_cons.mp hevents
    have ih := ih hrest
    rw [bindings, List.filterMap_cons]
    cases hbinding : binding? x entry with
    | none => exact ih
    | some binding =>
      refine List.nodup_cons.mpr ⟨fun hmem => hnew ?_, ih⟩
      obtain ⟨binding', hbinding', heq⟩ := List.mem_map.mp hmem
      obtain ⟨entry', hentry', hbinding'⟩ := List.mem_filterMap.mp hbinding'
      have hsame := List.inj_on_of_nodup_map houtputs
        (Instance.mem_outputs_of_emitter? (emitter?_of_binding? hbinding'))
        (Instance.mem_outputs_of_emitter? (emitter?_of_binding? hbinding)) heq
      have hname : entry'.1 = entry.1 := (Prod.mk.inj hsame).1
      exact List.mem_map.mpr ⟨entry', hentry', hname⟩

theorem filter_eq_singleton {α β : Type} [DecidableEq α] {l : List (α × β)} {a : α} {b : β}
    (hnodup : (l.map Prod.fst).Nodup) (hmem : (a, b) ∈ l) :
    l.filter (fun p => p.1 = a) = [(a, b)] := by
  induction l with
  | nil => cases hmem
  | cons p rest ih =>
    obtain ⟨hnew, hrest⟩ := List.nodup_cons.mp hnodup
    rcases List.mem_cons.mp hmem with rfl | hmem
    · have hnone : rest.filter (fun p => p.1 = a) = [] := by
        rw [List.filter_eq_nil_iff]
        intro p hp heq
        exact hnew (List.mem_map.mpr ⟨p, hp, of_decide_eq_true heq⟩)
      simp [hnone]
    · have hne : p.1 ≠ a := fun heq => hnew (heq ▸ List.mem_map_of_mem hmem)
      rw [List.filter_cons_of_neg (by simpa using hne)]
      exact ih hrest hmem

/-- A handler for an output of an instance that nothing listened to before. -/
theorem subscribed_listeningAll {s : Store} {i : InstanceId} {x : Instance} {events : Fields}
    (houtputs : (x.outputs.map Prod.snd).Nodup) (hevents : events.keys.Nodup)
    (hquiet : ∀ o ∈ x.outputs, (s.emitters[o.2]?).map Emitter.listeners = some [])
    {event : String} {handler : Json} {callback : Callback} {e : EmitterId}
    (hentry : (event, handler) ∈ events) (hcallback : Callback.ofBinding? handler = some callback)
    (hemitter : x.emitter? event = some e) :
    Subscribed (s.listeningAll i x (bindings x events))
      { x with tracked := List.range' s.subscriptions.length (bindings x events).length }
      event callback := by
  have hmem : (e, callback) ∈ bindings x events :=
    List.mem_filterMap.mpr ⟨_, hentry, binding?_eq_some.mpr ⟨hcallback, hemitter⟩⟩
  obtain ⟨k, hk⟩ := List.mem_iff_getElem?.mp hmem
  have hlt := (List.getElem?_eq_some_iff.mp hk).1
  refine ⟨e, s.subscriptions.length + k, hemitter, ?_, ?_, ?_⟩
  · obtain ⟨emitter, hfound, hnone⟩ :=
      Option.map_eq_some_iff.mp (hquiet _ (Instance.mem_outputs_of_emitter? hemitter))
    have hfilter := filter_eq_singleton (bindings_nodup houtputs hevents) hmem
    rw [Store.listeners, listeningAll_emitter, hfound, hfilter]
    simp [hnone]
  · rw [listeningAll_subscriptions, List.getElem?_append_right (Nat.le_add_right _ _),
      Nat.add_sub_cancel_left, List.getElem?_map, hk]
    rfl
  · refine List.count_eq_one_of_mem List.nodup_range' (List.mem_range'_1.mpr ?_)
    exact ⟨Nat.le_add_right _ _, Nat.add_lt_add_left hlt _⟩

/-- A handler is reported unless it has a callback and an output. -/
theorem eventWarning_isNone {c : Capability} {x : Instance} (h : x.Plain)
    (hx : x.blueprint = .ofCapability c) (entry : String × Json) :
    (eventWarning c.name c.outputs entry).isNone = (binding? x entry).isSome := by
  have houtput := emitter?_isSome h entry.1
  rw [hx, ofCapability_outputs] at houtput
  rw [eventWarning, binding?]
  cases Callback.ofBinding? entry.2 with
  | none => rfl
  | some callback =>
    simp only [Option.bind_some, Option.isSome_map]
    by_cases hevent : entry.1 ∈ c.outputs
    · rw [if_pos hevent, houtput.mpr hevent]
      rfl
    · rw [if_neg hevent, Bool.eq_false_iff.mpr (mt houtput.mp hevent)]
      rfl

section Handlers

variable {s : Store} {i : InstanceId} {x : Instance} {c : Capability} {events : Fields}
variable (h : x.Plain) (hx : x.blueprint = .ofCapability c)
include h hx

theorem length_bindings (events : Fields) :
    (bindings x events).length =
      events.countP fun entry => (eventWarning c.name c.outputs entry).isNone := by
  rw [bindings, List.length_filterMap_eq_countP]
  exact List.countP_congr fun entry _ => by rw [eventWarning_isNone h hx]

theorem subscribed_of_no_warning (houtputs : (x.outputs.map Prod.snd).Nodup)
    (hevents : events.keys.Nodup)
    (hquiet : ∀ o ∈ x.outputs, (s.emitters[o.2]?).map Emitter.listeners = some [])
    {event : String} {handler : Json} (hentry : (event, handler) ∈ events)
    (hwarning : eventWarning c.name c.outputs (event, handler) = none) :
    ∃ callback, Callback.ofBinding? handler = some callback ∧
      Subscribed (s.listeningAll i x (bindings x events))
        { x with tracked := List.range' s.subscriptions.length (bindings x events).length }
        event callback := by
  have hbound := eventWarning_isNone h hx (event, handler)
  rw [hwarning] at hbound
  obtain ⟨⟨e, callback⟩, hbinding⟩ := Option.isSome_iff_exists.mp hbound.symm
  obtain ⟨hcallback, hemitter⟩ := binding?_eq_some.mp hbinding
  exact ⟨callback, hcallback,
    subscribed_listeningAll houtputs hevents hquiet hentry hcallback hemitter⟩

/-- Where something listens now, there is a handler for it. -/
theorem handler_of_listening (houtputs : (x.outputs.map Prod.snd).Nodup)
    (hquiet : ∀ o ∈ x.outputs, (s.emitters[o.2]?).map Emitter.listeners = some [])
    {event : String} {e : EmitterId} (ho : (event, e) ∈ x.outputs)
    (hlistening : (s.listeningAll i x (bindings x events)).listeners e ≠ []) :
    ∃ handler, (event, handler) ∈ events ∧
      eventWarning c.name c.outputs (event, handler) = none := by
  obtain ⟨emitter, hfound, hnone⟩ := Option.map_eq_some_iff.mp (hquiet _ ho)
  rw [Store.listeners, listeningAll_emitter, hfound, Option.map_some, Option.map_some,
    Option.getD_some, hnone, List.nil_append] at hlistening
  obtain ⟨callback, hcallback⟩ := List.exists_mem_of_ne_nil _ hlistening
  obtain ⟨binding, hmem, -⟩ := List.mem_map.mp hcallback
  obtain ⟨hbinding, heq⟩ := List.mem_filter.mp hmem
  obtain ⟨⟨event', handler⟩, hentry, hbound⟩ := List.mem_filterMap.mp hbinding
  have ho' := Instance.mem_outputs_of_emitter? (emitter?_of_binding? hbound)
  have hsame := List.inj_on_of_nodup_map houtputs ho' ho (of_decide_eq_true heq)
  obtain rfl : event' = event := (Prod.mk.inj hsame).1
  have hwarning := eventWarning_isNone h hx (event', handler)
  rw [hbound] at hwarning
  exact ⟨handler, hentry, Option.isNone_iff_eq_none.mp hwarning⟩

end Handlers

end Render

end ViewTree
