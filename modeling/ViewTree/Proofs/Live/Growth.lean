import ViewTree.Proofs.Live.Plain

/-
  ViewTree.Proofs.Live.Growth — what is new in a store after a plain instance was made or
  refreshed.

  Making an instance in a host adds one emitter for each of its events, the instance
  itself behind all others, and its number at the end of the host. A refresh adds mount
  points: hosts behind all others, with nothing in them. Nothing that was there before is
  dropped or renumbered. Each act is given by one equation for the whole store.
-/

namespace ViewTree.Live

namespace Store

/-! ## New instances -/

theorem putOutput_new {name : String} {outputs : List (String × EmitterId)} (e : EmitterId)
    (h : name ∉ outputs.map Prod.fst) : putOutput name e outputs = outputs ++ [(name, e)] := by
  induction outputs with
  | nil => rfl
  | cons o rest ih =>
    rw [List.map_cons, List.mem_cons, not_or] at h
    rw [putOutput, if_neg (Ne.symm h.1), ih h.2]
    rfl

/-- Emitters for further names, behind those for earlier ones. -/
theorem foldl_newOutputs (names : List String) (outputs : List (String × EmitterId)) (s : Store)
    (hnodup : names.Nodup) (hfresh : ∀ name ∈ names, name ∉ outputs.map Prod.fst) :
    names.foldl (fun (outputs, s) name =>
      let (e, s) := newEmitter s name
      (putOutput name e outputs, s)) (outputs, s) =
    (outputs ++ names.zip (List.range' s.emitters.length names.length),
      { s with emitters := s.emitters ++ names.map fun name => ⟨name, []⟩ }) := by
  induction names generalizing outputs s with
  | nil => simp
  | cons name rest ih =>
    obtain ⟨hhead, hnodup⟩ := List.nodup_cons.mp hnodup
    have hput := putOutput_new s.emitters.length (hfresh name List.mem_cons_self)
    have hlater : ∀ other ∈ rest, other ∉ (outputs ++ [(name, s.emitters.length)]).map Prod.fst := by
      intro other hother hmem
      rw [List.map_append, List.mem_append] at hmem
      rcases hmem with hmem | hmem
      · exact hfresh other (List.mem_cons_of_mem _ hother) hmem
      · have heq : other = name := List.mem_singleton.mp hmem
        exact hhead (heq ▸ hother)
    rw [List.foldl_cons]
    change rest.foldl _ (putOutput name s.emitters.length outputs, (s.newEmitter name).2) = _
    rw [hput, ih _ (s.newEmitter name).2 hnodup hlater]
    simp [newEmitter, List.range'_succ]

theorem newOutputs_eq {names : List String} (s : Store) (hnodup : names.Nodup) :
    s.newOutputs names =
      (names.zip (List.range' s.emitters.length names.length),
        { s with emitters := s.emitters ++ names.map fun name => ⟨name, []⟩ }) := by
  rw [newOutputs, foldl_newOutputs names [] s hnodup fun _ _ => List.not_mem_nil]
  rfl

/-- The instance that is made in a host of a store. -/
def born (s : Store) (h : HostId) (b : Blueprint) : Instance :=
  { Instance.fresh b with
    host := some h
    outputs := b.outputs.zip (List.range' s.emitters.length b.outputs.length) }

theorem born_outputs_names (s : Store) (h : HostId) (b : Blueprint) :
    (s.born h b).outputs.map Prod.fst = b.outputs := by
  simp [born, List.map_fst_zip]

theorem born_emitters (s : Store) (h : HostId) (b : Blueprint) :
    (s.born h b).outputs.map Prod.snd = List.range' s.emitters.length b.outputs.length := by
  rw [born, List.map_snd_zip]
  simp

theorem born_plain (s : Store) (h : HostId) {b : Blueprint} (hb : b.Plain) : (s.born h b).Plain where
  blueprint := hb
  attributes := rfl
  outputs := s.born_outputs_names h b
  content _ := rfl
  panels _ := rfl

theorem modify_length_concat {α : Type} (l : List α) (a : α) (f : α → α) :
    (l ++ [a]).modify l.length f = l ++ [f a] := by
  induction l with
  | nil => rfl
  | cons b l ih => exact congrArg (b :: ·) ih

/-- A container keeps nothing under the name of an event. -/
theorem kept?_fresh {b : Blueprint} (hb : b.Plain) {name : String} (hname : name ∈ b.outputs) :
    (Instance.fresh b).kept? name = none :=
  Instance.Plain.kept?_eq_none (hb.output_not_reserved hname) fun hhost =>
    hb.output_no_host hname (hb.host_of_library hhost)

/-- A store with a new instance in a host. -/
def created (s : Store) (h : HostId) (b : Blueprint) : Store :=
  { s with
    emitters := s.emitters ++ b.outputs.map fun name => ⟨name, []⟩
    hosts := s.hosts.modify h fun x => { x with instances := x.instances ++ [s.instances.length] }
    instances := s.instances ++ [s.born h b] }

theorem create_plain (s : Store) (h : HostId) {b : Blueprint} (hb : b.Plain) :
    s.create h (.make b) = .ok (s.instances.length, s.created h b) := by
  have hkept : b.outputs.filter (fun name => ((Instance.fresh b).kept? name).isNone) =
      b.outputs := by
    rw [List.filter_eq_self]
    intro name hname
    rw [kept?_fresh hb hname]
    rfl
  have hdrop : (b.outputs.zip (List.range' s.emitters.length b.outputs.length)).filter
      (fun o => o.1 ≠ Datum.host.name) =
      b.outputs.zip (List.range' s.emitters.length b.outputs.length) := by
    rw [List.filter_eq_self]
    intro o ho
    have hname := hb.output_not_reserved (List.of_mem_zip ho).1
    exact decide_eq_true fun heq => hname (heq ▸ by decide)
  simp only [created, create, make, hb.fault?, spawn, hkept, newOutputs_eq s hb.nodup,
    updateInstance, modify_length_concat, dropOutput, hdrop]
  rfl

/-! ## New subscriptions -/

theorem modify_eq_set_of {α : Type} {l : List α} {i : Nat} {a : α} (h : l[i]? = some a)
    (f : α → α) : l.modify i f = l.set i (f a) := by
  obtain ⟨hlt, rfl⟩ := List.getElem?_eq_some_iff.mp h
  refine List.ext_getElem? fun j => ?_
  rw [List.getElem?_modify, List.getElem?_set]
  split
  · rename_i heq
    subst heq
    simp [hlt]
  · cases l[j]? <;> rfl

theorem updateInstance_eq {s : Store} {i : InstanceId} {x : Instance}
    (hx : s.instances[i]? = some x) (f : Instance → Instance) :
    s.updateInstance i f = { s with instances := s.instances.set i (f x) } := by
  rw [updateInstance, modify_eq_set_of hx]

/-- A store with a callback on an emitter, where an instance keeps the subscription. -/
def listening (s : Store) (i : InstanceId) (x : Instance) (e : EmitterId) (callback : Callback) :
    Store :=
  { s with
    emitters := s.emitters.modify e fun x => { x with listeners := x.listeners ++ [callback] }
    subscriptions := s.subscriptions ++ [⟨e, callback, false⟩]
    instances := s.instances.set i { x with tracked := x.tracked ++ [s.subscriptions.length] } }

theorem track_subscribe {s : Store} {i : InstanceId} {x : Instance}
    (hx : s.instances[i]? = some x) (h : x.Plain) (e : EmitterId) (callback : Callback) :
    (s.subscribe e callback).2.track i (s.subscribe e callback).1 =
      .ok (s.listening i x e callback) := by
  have hx' : (s.subscribe e callback).2.instances[i]? = some x := hx
  rw [track_plain hx' h, updateInstance_eq hx']
  rfl

/-! ## New mount points -/

theorem addPanels_eq (i : InstanceId) (label : String) (start count : Nat) (s : Store) :
    s.addPanels i label start count =
      { s with
        hosts := s.hosts ++ (List.range' start count).map fun k => ⟨label ++ toString k, []⟩
        instances := s.instances.modify i fun x =>
          { x with panels := x.panels ++ List.range' s.hosts.length count } } := by
  induction count generalizing s start with
  | zero =>
    have hsame : s.instances.modify i (fun x => { x with panels := x.panels }) = s.instances :=
      List.modify_id _ _
    simp only [addPanels, List.range'_zero, List.map_nil, List.append_nil, hsame]
  | succ count ih =>
    change ((s.newHost (label ++ toString start)).2.updateInstance i fun x =>
      { x with panels := x.panels ++ [s.hosts.length] }).addPanels i label (start + 1) count = _
    rw [ih]
    simp [newHost, updateInstance, List.range'_succ, List.modify_modify_eq, Function.comp_def]

end Store

namespace Instance

/-- The content host that appears with the next refresh. -/
def newContent (x : Instance) : List Host :=
  match x.blueprint.host? with
  | none => []
  | some name =>
    if x.content.isSome then [] else [⟨x.blueprint.componentType ++ "." ++ name, []⟩]

/-- How many panels appear with the next refresh. -/
def newPanels (x : Instance) : Nat :=
  if x.isTabs then
    match Store.tabCount x with
    | .ok n => n - x.panels.length
    | .error _ => 0
  else 0

/-- The mount points that appear with the next refresh: the content host before panels. -/
def newMounts (x : Instance) : List Host :=
  x.newContent ++
    (List.range' x.panels.length x.newPanels).map fun k => ⟨"tabs.panel" ++ toString k, []⟩

theorem newMounts_empty {x : Instance} {host : Host} (hmem : host ∈ x.newMounts) :
    host.instances = [] := by
  rcases List.mem_append.mp hmem with hmem | hmem
  · unfold newContent at hmem
    split at hmem
    · cases hmem
    · split at hmem
      · cases hmem
      · rw [List.mem_singleton.mp hmem]
  · obtain ⟨k, -, rfl⟩ := List.mem_map.mp hmem
    rfl

/-- An instance behind a refresh; the mount points that appear are numbered from `next` on. -/
def refreshed (x : Instance) (next : HostId) : Instance :=
  { x with
    checks := x.checks + 1
    content := x.content.or (x.blueprint.host?.map fun _ => next)
    panels := x.panels ++ List.range' (next + x.newContent.length) x.newPanels }

/-- The content host appears once. -/
theorem newContent_refreshed (x : Instance) (next : HostId) : (x.refreshed next).newContent = [] := by
  have hsame : (x.refreshed next).blueprint.host? = x.blueprint.host? := rfl
  rw [newContent, hsame]
  cases hhost : x.blueprint.host? with
  | none => rfl
  | some name =>
    refine if_pos ?_
    change (x.content.or (x.blueprint.host?.map fun _ => next)).isSome = true
    rw [hhost]
    cases x.content <;> rfl

/-- An instance behind a refresh that brings nothing. -/
def counted (x : Instance) : Instance := { x with checks := x.checks + 1 }

theorem refreshed_settled {x : Instance} (h : x.newMounts = []) (next : HostId) :
    x.refreshed next = x.counted := by
  obtain ⟨hcontent, hpanels⟩ := List.append_eq_nil_iff.mp h
  have hnone : x.newPanels = 0 := by simpa using hpanels
  have hsame : x.content.or (x.blueprint.host?.map fun _ => next) = x.content := by
    unfold newContent at hcontent
    cases hhost : x.blueprint.host? with
    | none => rw [Option.map_none, Option.or_none]
    | some name =>
      simp only [hhost] at hcontent
      split at hcontent
      · rename_i hsome
        obtain ⟨g, hg⟩ := Option.isSome_iff_exists.mp hsome
        rw [hg, Option.some_or]
      · cases hcontent
  rw [refreshed, counted, hsame, hnone, List.range'_zero, List.append_nil]

/-- What a refresh of a live instance comes to: only the tab list may be in the way. -/
def refreshOutcome (x : Instance) : Except Failure Unit :=
  if x.isTabs then (Store.tabCount x).map fun _ => () else .ok ()

theorem Plain.refreshed {x : Instance} (h : x.Plain) (next : HostId) : (x.refreshed next).Plain where
  blueprint := h.blueprint
  attributes := h.attributes
  outputs := h.outputs
  content hhost := by
    change x.content.or _ = none
    rw [h.content hhost]
    change (x.blueprint.host?.map _) = none
    rw [show x.blueprint.host? = none from hhost]
    rfl
  panels htabs := by
    have htabs : x.isTabs = false := htabs
    change x.panels ++ _ = []
    rw [h.panels htabs, newPanels, htabs]
    rfl

end Instance

namespace Store

section Refreshing

variable {s : Store} {i : InstanceId} {x y : Instance}

/-- The content host of a container appears unless it is there. -/
theorem showContent_plain (hy : s.instances[i]? = some y) (h : y.Plain) {name : String}
    (hhost : y.blueprint.host? = some name) :
    s.showContent i y name =
      { s with
        hosts := s.hosts ++ y.newContent
        instances := s.instances.set i
          { y with content := y.content.or (y.blueprint.host?.map fun _ => s.hosts.length) } } := by
  have hlt : i < s.instances.length := (List.getElem?_eq_some_iff.mp hy).1
  have hmount := mount?_plain hy h (h.blueprint.host_of_library hhost)
  rw [if_pos hhost] at hmount
  rw [showContent, hmount]
  cases hcontent : y.content with
  | some host =>
    have hsame : { y with content := some host } = y := by rw [← hcontent]
    have hset : s.instances.set i y = s.instances := by
      obtain ⟨_, rfl⟩ := List.getElem?_eq_some_iff.mp hy
      exact List.set_getElem_self hlt
    simp [Instance.newContent, hhost, hcontent, hsame, hset]
  | none =>
    have hnew : (s.newHost (y.blueprint.componentType ++ "." ++ name)).2.instances[i]? = some y := hy
    rw [typeText_plain h]
    have herase : Fields.erase name y.attributes = y.attributes := by
      rw [h.attributes]
      rfl
    simp only [Option.map_none, Option.isSome_none, Bool.false_eq_true, if_false]
    change ((s.newHost _).2.updateInstance i _) = _
    rw [updateInstance_eq hnew, herase]
    simp [newHost, Instance.newContent, hhost, hcontent]

/-- A store in which an instance was refreshed. -/
def refreshed (s : Store) (i : InstanceId) (x : Instance) : Store :=
  { s with
    hosts := s.hosts ++ x.newMounts
    instances := s.instances.set i (x.refreshed s.hosts.length) }

theorem refresh_live (hx : s.instances[i]? = some x) (h : x.Plain) (hlive : x.destroyed = false) :
    s.refresh i = (s.refreshed i x, x.refreshOutcome) := by
  have hlt : i < s.instances.length := (List.getElem?_eq_some_iff.mp hx).1
  let counted : Instance := { x with checks := x.checks + 1 }
  let between : Store := { s with instances := s.instances.set i counted }
  have hcounted : between.instances[i]? = some counted := List.getElem?_set_self hlt
  have hplain : counted.Plain := ⟨h.blueprint, h.attributes, h.outputs, h.content, h.panels⟩
  have hstart : s.refresh i = between.showOffered i x := by
    rw [refresh_plain hx h, hlive, if_neg Bool.false_ne_true, updateInstance_eq hx]
  have hcontent {name : String} (hhost : x.blueprint.host? = some name) :
      between.showContent i x name =
        { s with
          hosts := s.hosts ++ x.newContent
          instances := s.instances.set i
            { counted with
              content := x.content.or (x.blueprint.host?.map fun _ => s.hosts.length) } } := by
    change between.showContent i counted name = _
    rw [showContent_plain hcounted hplain hhost]
    simp only [between, List.set_set]
    rfl
  rw [hstart, showOffered, refreshed]
  rcases h.blueprint.shape with hshape | hshape | hshape
  · have hhost : x.blueprint.host? = none := by rw [Blueprint.host?, hshape]
    have htabs : x.isTabs = false := by rw [Instance.isTabs, hshape]
    have hnone : x.content = none := h.content hhost
    simp [hshape, between, counted, Instance.newMounts, Instance.newContent, Instance.newPanels,
      Instance.refreshed, Instance.refreshOutcome, hhost, htabs, hnone]
  · obtain ⟨name, hhost, hshape⟩ := Option.map_eq_some_iff.mp hshape
    have htabs : x.isTabs = false := by rw [Instance.isTabs, ← hshape]
    have hpanels : x.panels = [] := h.panels htabs
    simp [← hshape, hcontent hhost, counted, Instance.newMounts, Instance.newPanels,
      Instance.refreshed, Instance.refreshOutcome, htabs, hpanels]
  · obtain ⟨name, hhost, hshape⟩ := Option.map_eq_some_iff.mp hshape
    have htabs : x.isTabs = true := by rw [Instance.isTabs, ← hshape]
    have hfree (content : Option HostId) :
        Instance.Plain { counted with content := content } :=
      ⟨h.blueprint, h.attributes, h.outputs,
        fun hnone => absurd (hhost.symm.trans hnone) (Option.some_ne_none name), h.panels⟩
    have hsame : (between.showContent i x name).tabCountOf i = tabCount x := by
      rw [hcontent hhost, tabCountOf, List.getElem?_set_self hlt, Option.map_some, Option.getD_some]
      exact tabCount_plain (hfree _) h rfl
    rw [hcontent hhost] at hsame
    cases hcount : tabCount x with
    | error failure =>
      simp [← hshape, hcontent hhost, hsame, hcount, counted, Instance.newMounts, Instance.newPanels,
        Instance.refreshed, Instance.refreshOutcome, htabs]
      rfl
    | ok n =>
      simp only [← hshape, hcontent hhost, hsame, hcount, addPanels_eq, Instance.newMounts,
        Instance.newPanels, Instance.refreshed, Instance.refreshOutcome, htabs, if_true,
        List.length_append, List.append_assoc, modify_eq_set_of (List.getElem?_set_self hlt),
        List.set_set]
      rfl

end Refreshing

end Store

end ViewTree.Live
