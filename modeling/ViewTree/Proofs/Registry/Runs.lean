import ViewTree.Proofs.Registry.Built
import ViewTree.Proofs.Registry.Tally

/-
  ViewTree.Proofs.Registry.Runs — what a registry holds after any run of requests.

  Of a run only the events count: registrations that succeed, removals, and clearing
  (`Request.run_eq`). A registration succeeds or fails whatever the registry holds, and
  those of a batch go as far as the first that fails (`Request.events`).

  Two readings of the events, newest first, say what the registry has to hold without
  speaking of a list of entries: the entry that stands under a type is that of the last
  registration since the last removal (`standing`), and the time since when the type is
  there is that of the first one (`since`). The registry finds just the standing entries
  (`get?_after`) and lists their types by these times (`types_in_order`): a registration
  of a type that is there leaves all times alone, a new type comes later than all others,
  and a removal leaves the order of the others.
-/

namespace ViewTree.Registry

open Live

/-! ## Entries and their types -/

theorem has_iff_mem_types {r : Registry} {t : String} : r.has t = true ↔ t ∈ r.types := by
  rw [has, get?, List.find?_isSome, types, List.mem_map]
  simp

theorem get?_put (r : Registry) (e : RegistryEntry) (t : String) :
    (r.put e).get? t = if e.type = t then some e else r.get? t := by
  obtain ⟨entries⟩ := r
  change (putEntry e entries).find? (fun x => x.type = t) = _
  rw [get?]
  induction entries with
  | nil => simp [putEntry]
  | cons first rest ih =>
    rw [putEntry]
    by_cases hfirst : first.type = e.type
    · by_cases ht : e.type = t
      · simp [hfirst, ht]
      · simp [hfirst, ht]
    · rw [if_neg hfirst, List.find?_cons, ih, List.find?_cons]
      by_cases ht : first.type = t
      · have hne : e.type ≠ t := fun heq => hfirst (ht.trans heq.symm)
        simp [ht, hne]
      · simp [ht]

theorem types_put (r : Registry) (e : RegistryEntry) :
    (r.put e).types = if e.type ∈ r.types then r.types else r.types ++ [e.type] := by
  obtain ⟨entries⟩ := r
  change (putEntry e entries).map RegistryEntry.type = _
  rw [types]
  induction entries with
  | nil => rfl
  | cons first rest ih =>
    rw [putEntry]
    by_cases hfirst : first.type = e.type
    · simp [hfirst]
    · rw [if_neg hfirst, List.map_cons, ih, List.map_cons]
      by_cases hmem : e.type ∈ rest.map RegistryEntry.type
      · rw [if_pos hmem, if_pos (List.mem_cons_of_mem _ hmem)]
      · rw [if_neg hmem, if_neg (List.not_mem_cons_of_ne_of_not_mem (Ne.symm hfirst) hmem)]
        rfl

theorem types_unregister (r : Registry) (t : String) :
    (r.unregister t).2.types = r.types.erase t := by
  obtain ⟨entries⟩ := r
  change (entries.eraseP fun e => e.type = t).map RegistryEntry.type = _
  rw [types]
  induction entries with
  | nil => rfl
  | cons first rest ih =>
    by_cases hfirst : first.type = t
    · simp [hfirst]
    · rw [List.eraseP_cons_of_neg (by simp [hfirst]), List.map_cons, ih, List.map_cons,
        List.erase_cons_tail (by simp [hfirst])]

theorem get?_unregister_of_ne {s t : String} (h : s ≠ t) (r : Registry) :
    (r.unregister s).2.get? t = r.get? t := by
  obtain ⟨entries⟩ := r
  change (entries.eraseP fun e => e.type = s).find? (fun e => e.type = t) = _
  rw [get?]
  induction entries with
  | nil => rfl
  | cons first rest ih =>
    by_cases hfirst : first.type = s
    · have hne : first.type ≠ t := fun heq => h (hfirst.symm.trans heq)
      rw [List.eraseP_cons_of_pos (by simp [hfirst]), List.find?_cons]
      simp [hne]
    · rw [List.eraseP_cons_of_neg (by simp [hfirst]), List.find?_cons, List.find?_cons, ih]

/-- Where types are different, the removed one is gone. -/
theorem get?_unregister_self {r : Registry} (h : r.types.Nodup) (t : String) :
    (r.unregister t).2.get? t = none := by
  have hgone : ¬ (r.unregister t).2.has t = true := by
    rw [has_iff_mem_types, types_unregister]
    exact h.not_mem_erase
  rw [has, Option.not_isSome_iff_eq_none] at hgone
  exact hgone

theorem mem_entries_iff {r : Registry} (h : r.types.Nodup) {e : RegistryEntry} :
    e ∈ r.entries ↔ r.get? e.type = some e := by
  refine ⟨fun hmem => ?_, fun hget => List.mem_of_find?_eq_some hget⟩
  obtain ⟨entries⟩ := r
  rw [get?]
  change (entries.map RegistryEntry.type).Nodup at h
  induction entries with
  | nil => cases hmem
  | cons first rest ih =>
    obtain ⟨hfirst, hrest⟩ := List.nodup_cons.mp h
    rcases List.mem_cons.mp hmem with rfl | hmem
    · simp
    · have hne : first.type ≠ e.type := fun heq => hfirst (heq ▸ List.mem_map_of_mem hmem)
      rw [List.find?_cons_of_neg (by simp [hne])]
      exact ih hmem hrest

/-! ## Events -/

/-- What changes a registry. -/
inductive Event where
  | put (entry : RegistryEntry)
  | drop (type : String)
  | wipe

def Event.apply (r : Registry) : Event → Registry
  | put entry => r.put entry
  | drop type => (r.unregister type).2
  | wipe => empty

/-- The registry that events lead to, the newest first. -/
def after : List Event → Registry
  | [] => empty
  | event :: earlier => event.apply (after earlier)

/-- The entry of a type: that of its last registration, unless it was removed since. -/
def standing (t : String) : List Event → Option RegistryEntry
  | [] => none
  | .put entry :: earlier => if entry.type = t then some entry else standing t earlier
  | .drop s :: earlier => if s = t then none else standing t earlier
  | .wipe :: _ => none

/-- The time since when a type is there: that of the first registration since it was last
    absent. -/
def since (t : String) : List Event → Option Nat
  | [] => none
  | .put entry :: earlier =>
    if entry.type = t then some ((since t earlier).getD earlier.length) else since t earlier
  | .drop s :: earlier => if s = t then none else since t earlier
  | .wipe :: _ => none

/-- A type is there for longer than another. -/
def Before (events : List Event) (a b : String) : Prop :=
  ∃ m n, since a events = some m ∧ since b events = some n ∧ m < n

variable {t : String}

theorem nodup_after (events : List Event) : (after events).types.Nodup := by
  induction events with
  | nil => exact List.nodup_nil
  | cons event earlier ih =>
    cases event with
    | put entry =>
      rw [after, Event.apply, types_put]
      split
      · exact ih
      · rename_i hnew
        rw [← List.concat_eq_append]
        exact ih.concat hnew
    | drop s =>
      rw [after, Event.apply, types_unregister]
      exact ih.erase s
    | wipe => exact List.nodup_nil

/-- The registry finds the entries that stand. -/
theorem get?_after (events : List Event) (t : String) :
    (after events).get? t = standing t events := by
  induction events with
  | nil => rfl
  | cons event earlier ih =>
    cases event with
    | put entry => rw [after, Event.apply, get?_put, standing, ih]
    | drop s =>
      rw [after, Event.apply, standing]
      split
      · rename_i heq
        subst heq
        exact get?_unregister_self (nodup_after earlier) s
      · rename_i hne
        exact (get?_unregister_of_ne hne _).trans ih
    | wipe => rfl

theorem isSome_since (t : String) (events : List Event) :
    (since t events).isSome = (standing t events).isSome := by
  induction events with
  | nil => rfl
  | cons event earlier ih =>
    cases event with
    | put entry =>
      rw [since, standing]
      split
      · rfl
      · exact ih
    | drop s =>
      rw [since, standing]
      split
      · rfl
      · exact ih
    | wipe => rfl

theorem mem_types_after {events : List Event} :
    t ∈ (after events).types ↔ (since t events).isSome = true := by
  rw [isSome_since, ← get?_after, ← has_iff_mem_types, has]

theorem since_lt {events : List Event} {m : Nat} (h : since t events = some m) :
    m < events.length := by
  induction events generalizing m with
  | nil => cases h
  | cons event earlier ih =>
    have hearlier {n : Nat} (hn : since t earlier = some n) : n < (event :: earlier).length :=
      Nat.lt_succ_of_lt (ih hn)
    cases event with
    | put entry =>
      rw [since] at h
      split at h
      · obtain rfl := Option.some.inj h
        cases hbefore : since t earlier with
        | none => exact Nat.lt_succ_self _
        | some n => exact hearlier hbefore
      · exact hearlier h
    | drop s =>
      rw [since] at h
      split at h
      · cases h
      · exact hearlier h
    | wipe => cases h

/-- A registration leaves the times of those that are there alone. -/
theorem since_put {events : List Event} {n : Nat} (h : since t events = some n)
    (entry : RegistryEntry) : since t (.put entry :: events) = some n := by
  rw [since, h]
  split <;> rfl

/-- Types are listed in the order since when they are there. -/
theorem types_in_order (events : List Event) :
    (after events).types.Pairwise (Before events) := by
  induction events with
  | nil => exact .nil
  | cons event earlier ih =>
    cases event with
    | put entry =>
      have hkept : (after earlier).types.Pairwise (Before (.put entry :: earlier)) :=
        ih.imp fun ⟨m, n, ha, hb, hlt⟩ => ⟨m, n, since_put ha entry, since_put hb entry, hlt⟩
      rw [after, Event.apply, types_put]
      split
      · exact hkept
      · rename_i hnew
        -- the new type has the time of this event, and all others have earlier ones
        refine List.pairwise_append.mpr ⟨hkept, List.pairwise_singleton _ _, fun a ha b hb => ?_⟩
        obtain rfl := List.mem_singleton.mp hb
        obtain ⟨m, hm⟩ := Option.isSome_iff_exists.mp (mem_types_after.mp ha)
        have hfresh : since entry.type earlier = none := by
          rw [mem_types_after, Option.not_isSome_iff_eq_none] at hnew
          exact hnew
        refine ⟨m, earlier.length, since_put hm entry, ?_, since_lt hm⟩
        rw [since, if_pos rfl, hfresh, Option.getD_none]
    | drop s =>
      -- no two entries are of the removed type, so that what is left is of other types
      rw [after, Event.apply, types_unregister]
      refine (ih.sublist List.erase_sublist).imp_of_mem fun ha hb hbefore => ?_
      obtain ⟨m, n, hm, hn, hlt⟩ := hbefore
      have hne {a : String} (ha : a ∈ (after earlier).types.erase s) : s ≠ a := by
        rintro rfl
        exact (nodup_after earlier).not_mem_erase ha
      refine ⟨m, n, ?_, ?_, hlt⟩
      · rw [since, if_neg (hne ha), hm]
      · rw [since, if_neg (hne hb), hn]
    | wipe => exact .nil

/-! ## Requests -/

/-- What can be asked of a registry. A capability is given as a value, or was read before. -/
inductive Request where
  | register (type : Json) (factory : Factory) (capability : Json)
  | registerValid (type : String) (factory : Factory) (capability : Capability)
  | batch (entries : List RegistryEntry)
  | unregister (type : String)
  | clear

def Request.run (r : Registry) : Request → Registry
  | register type factory capability =>
    match r.register type factory capability with
    | .ok (_, r') => r'
    | .error _ => r
  | registerValid type factory capability =>
    match r.registerValid type factory capability with
    | .ok (_, r') => r'
    | .error _ => r
  | batch entries => (r.registerAll entries).1
  | unregister type => (r.unregister type).2
  | clear => empty

/-- An entry can be registered, whatever is there. -/
def accepted (e : RegistryEntry) : Bool := e.type ≠ "" && e.factory.isCallable

/-- The events of a request, the first one first. -/
def Request.events : Request → List Event
  | register (.str type) factory capability =>
    match Capability.ofJson capability with
    | .ok c => if accepted ⟨type, factory, c⟩ then [.put ⟨type, factory, c⟩] else []
    | .error _ => []
  | register _ _ _ => []
  | registerValid type factory c =>
    if accepted ⟨type, factory, c⟩ then [.put ⟨type, factory, c⟩] else []
  | batch entries => (entries.takeWhile accepted).map .put
  | unregister type => [.drop type]
  | clear => [.wipe]

theorem accepted_iff {e : RegistryEntry} :
    accepted e = true ↔ e.type ≠ "" ∧ e.factory.isCallable = true := by
  rw [accepted, Bool.and_eq_true, decide_eq_true_eq]

variable {type : String} {factory : Factory} {c : Capability} {replaced : Bool}
variable {r r' : Registry}

/-- A registration succeeds for each entry that can be registered. -/
theorem registerValid_ok_iff :
    r.registerValid type factory c = .ok (replaced, r') ↔
      accepted ⟨type, factory, c⟩ = true ∧ replaced = r.has type ∧
        r' = r.put ⟨type, factory, c⟩ := by
  rw [registerValid_eq_ok_iff, accepted_iff, and_assoc]

theorem not_accepted_of_error {fault : RegistryFault}
    (h : r.registerValid type factory c = .error fault) : ¬ accepted ⟨type, factory, c⟩ = true :=
  fun haccepted => by cases h.symm.trans (registerValid_ok_iff.mpr ⟨haccepted, rfl, rfl⟩)

/-- Values can be registered that are a text and hold a capability. -/
theorem register_ok_iff {v capability : Json} :
    r.register v factory capability = .ok (replaced, r') ↔
      ∃ type c, v = .str type ∧ Capability.ofJson capability = .ok c ∧
        accepted ⟨type, factory, c⟩ = true ∧ replaced = r.has type ∧
        r' = r.put ⟨type, factory, c⟩ := by
  constructor
  · intro h
    unfold register at h
    split at h
    · cases h
    · split at h
      · cases h
      · split at h
        · cases h
        · rename_i c hcapability
          cases v with
          | str type => exact ⟨type, c, rfl, hcapability, registerValid_ok_iff.mp h⟩
          | _ => cases h
  · rintro ⟨type, c, rfl, hcapability, haccepted, rfl, rfl⟩
    obtain ⟨htype, hcallable⟩ := accepted_iff.mp haccepted
    have htruthy : Json.truthy (.str type) = true := by simpa [Json.truthy] using htype
    have hvalid := (registerValid_ok_iff (r := r)).mpr ⟨haccepted, rfl, rfl⟩
    simp only [register, htruthy, hcallable, hcapability, Bool.not_true, Bool.false_eq_true,
      if_false]
    exact hvalid

/-- Entries of a batch are registered up to the first that cannot be. -/
theorem registerAll_eq (r : Registry) (entries : List RegistryEntry) :
    (r.registerAll entries).1 =
      ((entries.takeWhile accepted).map Event.put).foldl Event.apply r := by
  induction entries generalizing r with
  | nil => rfl
  | cons e rest ih =>
    rw [registerAll, List.takeWhile_cons]
    cases hvalid : r.registerValid e.type e.factory e.capability with
    | error fault =>
      have hrefused : ¬ accepted e = true := not_accepted_of_error hvalid
      rw [if_neg hrefused]
      rfl
    | ok done =>
      obtain ⟨replaced, r'⟩ := done
      obtain ⟨haccepted, -, rfl⟩ := registerValid_ok_iff.mp hvalid
      have haccepted : accepted e = true := haccepted
      rw [haccepted]
      exact ih _

/-- A request comes to its events. -/
theorem Request.run_eq (r : Registry) (q : Request) : q.run r = q.events.foldl Event.apply r := by
  cases q with
  | register v factory capability =>
    rw [Request.run]
    split
    · rename_i hdone
      obtain ⟨type, c, rfl, hcapability, haccepted, -, rfl⟩ := register_ok_iff.mp hdone
      simp only [events, hcapability, haccepted, if_true]
      rfl
    · rename_i fault hfault
      have hrefused (type : String) (c : Capability) (hv : v = .str type)
          (hcapability : Capability.ofJson capability = .ok c) :
          ¬ accepted ⟨type, factory, c⟩ = true := fun haccepted => by
        cases hfault.symm.trans
          (register_ok_iff.mpr ⟨type, c, hv, hcapability, haccepted, rfl, rfl⟩)
      cases v with
      | str type =>
        cases hcapability : Capability.ofJson capability with
        | error rejection => simp only [events, hcapability]; rfl
        | ok c => simp only [events, hcapability, if_neg (hrefused type c rfl hcapability)]; rfl
      | _ => rfl
  | registerValid type factory c =>
    rw [Request.run]
    split
    · rename_i hdone
      obtain ⟨haccepted, -, rfl⟩ := registerValid_ok_iff.mp hdone
      rw [events, if_pos haccepted]
      rfl
    · rename_i fault hfault
      rw [events, if_neg (not_accepted_of_error hfault)]
      rfl
  | batch entries => exact registerAll_eq r entries
  | unregister type => rfl
  | clear => rfl

/-! ## Runs -/

/-- The registry that requests make out of nothing. -/
def made (requests : List Request) : Registry := requests.foldl Request.run empty

/-- The events of a run, the newest first. -/
def history (requests : List Request) : List Event := (requests.flatMap Request.events).reverse

theorem after_append (events earlier : List Event) :
    after (events.reverse ++ earlier) = events.foldl Event.apply (after earlier) := by
  induction events generalizing earlier with
  | nil => rfl
  | cons event rest ih =>
    rw [List.reverse_cons, List.append_assoc]
    exact ih (event :: earlier)

theorem foldl_run (requests : List Request) (earlier : List Event) :
    requests.foldl Request.run (after earlier) =
      after ((requests.flatMap Request.events).reverse ++ earlier) := by
  induction requests generalizing earlier with
  | nil => rfl
  | cons q rest ih =>
    rw [List.foldl_cons, Request.run_eq, ← after_append, ih, List.flatMap_cons,
      List.reverse_append, List.append_assoc]

theorem made_eq_after (requests : List Request) : made requests = after (history requests) := by
  rw [history, ← List.append_nil (List.reverse _)]
  exact foldl_run requests []

/-- What a registry that holds what events left tells to each who asks. -/
structure Consistent (r : Registry) (events : List Event) : Prop where
  distinct : r.types.Nodup
  ordered : r.types.Pairwise (Before events)
  /-- What is found is what was registered last. -/
  found (t : String) : r.get? t = standing t events
  has (t : String) : r.has t = true ↔ t ∈ r.types
  has_get (t : String) : r.has t = (r.get? t).isSome
  size : r.size = r.types.length
  listed : r.entries.map RegistryEntry.type = r.types
  entry {e : RegistryEntry} : e ∈ r.entries ↔ r.get? e.type = some e

theorem consistent_after (events : List Event) : Consistent (after events) events where
  distinct := nodup_after events
  ordered := types_in_order events
  found := get?_after events
  has _ := has_iff_mem_types
  has_get _ := rfl
  size := (List.length_map _).symm
  listed := rfl
  entry := mem_entries_iff (nodup_after events)

/-- Whatever was asked of a registry, it is the map that the registrations and removals of
    the run make, in the order of first registration, and its statistics count its entries.
    A further registration tells whether the type is there, and one that fails changes
    nothing. -/
theorem registry_is_an_ordered_map (requests : List Request) :
    Consistent (made requests) (history requests) ∧ Tallied (made requests) ∧
      (∀ v factory capability replaced r',
        (made requests).register v factory capability = .ok (replaced, r') ↔
          ∃ type c, v = .str type ∧ Capability.ofJson capability = .ok c ∧
            accepted ⟨type, factory, c⟩ = true ∧ replaced = (made requests).has type ∧
            r' = (made requests).put ⟨type, factory, c⟩) ∧
      (∀ type factory c replaced r',
        (made requests).registerValid type factory c = .ok (replaced, r') ↔
          accepted ⟨type, factory, c⟩ = true ∧ replaced = (made requests).has type ∧
            r' = (made requests).put ⟨type, factory, c⟩) ∧
      (∀ v factory capability fault,
        (made requests).register v factory capability = .error fault →
          made (requests ++ [.register v factory capability]) = made requests) ∧
      ∀ type factory c fault, (made requests).registerValid type factory c = .error fault →
        made (requests ++ [.registerValid type factory c]) = made requests := by
  refine ⟨?_, tallied _, fun _ _ _ _ _ => register_ok_iff, fun _ _ _ _ _ => registerValid_ok_iff,
    fun v factory capability fault hfault => ?_, fun type factory c fault hfault => ?_⟩
  · rw [made_eq_after]
    exact consistent_after _
  · rw [made, List.foldl_append, List.foldl_cons, List.foldl_nil, ← made, Request.run, hfault]
  · rw [made, List.foldl_append, List.foldl_cons, List.foldl_nil, ← made, Request.run, hfault]

/-- A type that is registered again keeps its place, one that was removed in between comes
    last, and of a batch nothing is registered from the entry without a type on. -/
theorem places_kept_and_given_up :
    let c : Capability := ⟨"x", "", some .form, [], [], false, none, []⟩
    let other : Capability := ⟨"x", "", none, [], [], true, none, []⟩
    let factory : Factory := .make (.leaf "x" [])
    let requests : List Request :=
      [.batch [⟨"a", factory, c⟩, ⟨"b", factory, c⟩, ⟨"c", factory, c⟩], .unregister "a",
        .registerValid "b" factory other,
        .batch [⟨"a", factory, c⟩, ⟨"", factory, c⟩, ⟨"d", factory, c⟩]]
    (made requests).types = ["b", "c", "a"] ∧
      (made requests).get? "b" = some ⟨"b", factory, other⟩ ∧
      countOf "form" (made requests).stats.categories = 2 ∧
      (made requests).registerValid "" factory c = .error .emptyType ∧
      made (requests ++ [.registerValid "" factory c]) = made requests := by
  intro c other factory requests
  obtain ⟨hconsistent, htallied, -, -, -, hfails⟩ := registry_is_an_ordered_map requests
  have hrefused : (made requests).registerValid "" factory c = .error .emptyType := rfl
  exact ⟨by decide, hconsistent.found "b", htallied.category .form, hrefused,
    hfails "" factory c .emptyType hrefused⟩

end ViewTree.Registry
