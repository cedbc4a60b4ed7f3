import ViewTree.Proofs.Check.Contract
import ViewTree.Proofs.Patch.Growth
import ViewTree.Proofs.Payload.Walk
import ViewTree.Proofs.Session.Patching
import ViewTree.Proofs.Wire.Height

/-
  ViewTree.Proofs.Session.Limits — patched schemas and the limits on payloads.

  Loading admits a schema only within the limits on size and depth. Patching asks for a
  valid tree and not for the limits, so a patched schema keeps to them (`FitsWritten`) exactly
  if loading it would succeed. How deep it can be follows from the patches: the tree they make
  is no deeper than they reach, and normalizing it adds two levels at most
  (`depth_of_patched`).

  No limit holds by itself: a valid schema can always be patched beyond them, by one patch
  that puts a node with the same contract and a deep extra in its place (`deepTwin`).
-/

namespace ViewTree

/-! ## Contracts -/

theorem Check.exists_type_of_valid {registry : Registry} {node : Node}
    (h : validate registry node = []) : ∃ type, node.type = some type := by
  cases htype : node.type with
  | none => simp [validate, htype] at h
  | some type => exact ⟨type, rfl⟩

namespace Session

/-! ## A twin beyond the limits -/

/-- Lists around each other. -/
def nested : Nat → Json
  | 0 => .arr []
  | n + 1 => .arr [nested n]

theorem height_nested (n : Nat) : (nested n).height = n := by
  induction n with
  | zero => rfl
  | succ n ih =>
    rw [nested, Json.height, Json.heightItems, Json.heightItems, ih]
    omega

/-- An object with the type and the props of a node, an empty child if the node has any, and
    an extra of some depth. -/
def deepTwin (type : String) (node : Node) (depth : Nat) : Json :=
  .obj [("type", .str type), ("props", .obj node.props),
    ("children", .arr (if node.children.isEmpty then [] else [.obj []])),
    ("deep", nested depth)]

theorem normalize_deepTwin (type : String) (node : Node) (depth : Nat) :
    ∃ twin, Wire.normalize (deepTwin type node depth) = .ok twin ∧ twin.type = some type ∧
      twin.props = node.props ∧ twin.children.isEmpty = node.children.isEmpty ∧
      twin.extras = [("deep", nested depth)] := by
  let children : List Node := if node.children.isEmpty then [] else [default]
  have hchildren : Node.readEach Node.maxLevels 0
      (if node.children.isEmpty then [] else [.obj []]) = .ok children := by
    by_cases hempty : node.children.isEmpty
    · simp only [children, hempty, if_true]
      rfl
    · simp only [children, hempty]
      rfl
  have hread : Node.ofJson (deepTwin type node depth) =
      .ok ⟨none, some type, node.props, children, [], [("deep", nested depth)], none⟩ := by
    rw [Node.ofJson_eq_ok_iff, Node.read_eq_ok_iff]
    exact ⟨_, rfl, rfl, rfl, rfl, Field.optional_eq_ok_iff.mpr (.inr ⟨.arr _, rfl, hchildren⟩),
      rfl, rfl, rfl⟩
  refine ⟨_, (Wire.normalize_of_not_wire rfl).trans hread, rfl, rfl, ?_, rfl⟩
  by_cases hempty : node.children.isEmpty
  · simp [children, hempty]
  · simp [children, hempty]

/-- One patch that puts a value in the place of the document. -/
def supplant (value : Json) : Json :=
  .arr [.obj [("op", .str "replace"), ("path", .str ""), ("value", value)]]

theorem run_supplant (doc value : Json) : ∃ list outcome, (supplant value).iterate? = some list ∧
    Patch.run doc list = .ok outcome ∧ outcome.tree = value :=
  ⟨_, _, rfl, rfl, rfl⟩

/-! ## The limits -/

/-- A value within the limits of settings. -/
def Fits (settings : Settings) (v : Json) : Prop :=
  Payload.check settings.maxSchemaSize settings.maxSchemaDepth Payload.defaultName v = .ok ()

instance (settings : Settings) (v : Json) : Decidable (Fits settings v) :=
  inferInstanceAs (Decidable (_ = _))

/-- A node that is written, and within the limits of settings. -/
def FitsWritten (settings : Settings) (node : Node) : Prop :=
  ∃ payload, node.dump? = some payload ∧ Fits settings payload

theorem fitsWritten_iff {settings : Settings} {node : Node} :
    FitsWritten settings node ↔ node.levels ≤ Node.maxWritten ∧ Fits settings node.toJson := by
  simp only [FitsWritten, Node.dump?_eq_some_iff]
  constructor
  · rintro ⟨_, ⟨hwritten, rfl⟩, hfits⟩
    exact ⟨hwritten, hfits⟩
  · rintro ⟨hwritten, hfits⟩
    exact ⟨_, ⟨hwritten, rfl⟩, hfits⟩

instance (settings : Settings) (node : Node) : Decidable (FitsWritten settings node) :=
  decidable_of_iff _ fitsWritten_iff.symm

theorem Fits.checkDepth {settings : Settings} {v : Json} (h : Fits settings v) :
    Payload.checkDepth settings.maxSchemaDepth v = .ok () := by
  rw [Fits, Payload.check] at h
  split at h
  · cases h
  · assumption

section Limits

variable {s s' : Session} {node shown : Node} {patches : Json}

theorem admitted?_node (c : Render.Context) (payload : Json) (node : Node) :
    admitted? c payload (.node node) =
      if Fits c.settings payload then valid? c.registry node else none := by
  rw [admitted?]
  split
  · rename_i issue hcheck
    rw [if_neg]
    intro hfits
    rw [Fits, hcheck] at hfits
    cases hfits
  · rename_i hcheck
    exact (if_pos hcheck).symm

/-- A valid node is within the limits exactly if it can be loaded. -/
theorem fits_iff_loads (hvalid : Check.validate s.registry shown = []) :
    FitsWritten s.settings shown ↔ (s.load (.node shown)).1 = .ok true := by
  cases hdump : shown.dump? with
  | none => simp [FitsWritten, load_unwritten hdump, hdump]
  | some payload =>
    have hupdates := loadWithin_updates payload (.node shown) s
    have hshown : valid? s.context.registry shown = some shown :=
      if_pos (List.isEmpty_iff.mpr hvalid)
    rw [admitted?_node, hshown] at hupdates
    rw [load_of_payload (by exact hdump : (Input.node shown).payload? = some payload)]
    simp only [FitsWritten, hdump, Option.some.injEq, exists_eq_left', Except.ok.injEq]
    change Fits s.context.settings payload ↔ _
    by_cases hfits : Fits s.context.settings payload
    · rw [if_pos hfits] at hupdates
      simp [hfits, hupdates.1]
    · rw [if_neg hfits] at hupdates
      simp [hfits, hupdates.1]

/-- A patched schema is no deeper than the patches reach, and two levels more. -/
theorem depth_of_patched {list : List Json} {outcome : Patch.Outcome}
    (h : Patched s patches node list outcome shown)
    (hreach : Patch.reach node.toJson.height list + 2 ≤ s.settings.maxSchemaDepth) :
    Payload.checkDepth s.settings.maxSchemaDepth shown.toJson = .ok () := by
  have hruns : Patch.Runs 0 node.toJson list outcome := Patch.runs_of_runFrom h.ran
  have htree := hruns.height_le
  have hshown := Wire.height_of_normalize h.normalized
  rw [Payload.checkDepth_eq_ok_iff]
  omega

/-- A valid schema that is written can be patched beyond the limits. -/
theorem exists_patch_beyond (hcurrent : s.current = some node)
    (hwritten : node.levels ≤ Node.maxWritten) (hvalid : Check.validate s.registry node = []) :
    ∃ patches s' shown, s.applyPatches patches = (.ok true, s') ∧ s'.current = some shown ∧
      ¬ FitsWritten s.settings shown := by
  obtain ⟨type, htype⟩ := Check.exists_type_of_valid hvalid
  obtain ⟨twin, hnormalized, htwin, hprops, hchildren, hextras⟩ :=
    normalize_deepTwin type node s.settings.maxSchemaDepth
  obtain ⟨list, outcome, hlisted, hran, htree⟩ :=
    run_supplant node.toJson (deepTwin type node s.settings.maxSchemaDepth)
  have hvalid' : Check.validate s.registry twin = [] := by
    rw [← hvalid]
    exact Check.validate_congr (htwin.trans htype.symm) (fun _ => hprops ▸ rfl) hchildren
  have hpatched : Patched s _ node list outcome twin :=
    ⟨hcurrent, hlisted, hwritten, hran, htree ▸ hnormalized, hvalid'⟩
  obtain ⟨s', hdone, hshows⟩ := hpatched.applies
  refine ⟨_, s', twin, hdone, hshows.current, fun hfits => ?_⟩
  have hle := Payload.checkDepth_eq_ok_iff.mp (fitsWritten_iff.mp hfits).2.checkDepth
  have hdeep : twin.toFields.get? "deep" = some (nested s.settings.maxSchemaDepth) := by
    rw [Node.toFields_eq, hextras, Fields.get?_merge (by simp)]
    rfl
  have hlt := Json.height_lt_of_get? hdeep
  rw [height_nested] at hlt
  rw [Node.toJson, Json.height] at hle
  omega

end Limits

/-- A successful patching makes a schema current that is within the limits exactly if it
    could be loaded, and within the limit on the depth when the patches reach less far. But
    whatever valid schema is current and can be patched at all, there are patches that
    succeed and lead beyond the limits. -/
theorem patched_fits_iff_loads (s : Session) (node : Node) (hcurrent : s.current = some node) :
    (∀ patches s', s.applyPatches patches = (.ok true, s') →
      ∃ list outcome shown, patches.iterate? = some list ∧
        Patch.run node.toJson list = .ok outcome ∧ s'.current = some shown ∧
        (FitsWritten s.settings shown ↔ (s.load (.node shown)).1 = .ok true) ∧
        (Patch.reach node.toJson.height list + 2 ≤ s.settings.maxSchemaDepth →
          Payload.checkDepth s.settings.maxSchemaDepth shown.toJson = .ok ())) ∧
      (node.levels ≤ Node.maxWritten → Check.validate s.registry node = [] →
        ∃ patches s' shown, s.applyPatches patches = (.ok true, s') ∧ s'.current = some shown ∧
          ¬ FitsWritten s.settings shown) := by
  refine ⟨?_, fun hwritten hvalid => exists_patch_beyond hcurrent hwritten hvalid⟩
  intro patches s' h
  obtain ⟨node', list, outcome, shown, hpatched, hshows⟩ := patched_of_applyPatches h
  obtain rfl : node' = node := Option.some_inj.mp (hpatched.current.symm.trans hcurrent)
  exact ⟨list, outcome, shown, hpatched.listed, hpatched.ran, hshows.current,
    fits_iff_loads hpatched.valid, fun hreach => depth_of_patched hpatched hreach⟩

/-- A patch that puts some value among the props of the root. -/
def addProp (value : Json) : Json :=
  .obj [("op", .str "add"), ("path", .str "/props/x"), ("value", value)]

def deepLists : Json := .arr [.arr [.arr [.int 1]]]

/-- Some lists stay within the limit that applies by default, and other patches do not. -/
theorem heading_within_default_limits :
    let s := withHeading .default
    ∃ node shown, s.current = some node ∧
      (s.applyPatches (.arr [addProp deepLists])).2.current = some shown ∧
      Payload.checkDepth s.settings.maxSchemaDepth shown.toJson = .ok () ∧
      ∃ patches s' beyond, s.applyPatches patches = (.ok true, s') ∧ s'.current = some beyond ∧
        ¬ FitsWritten s.settings beyond := by
  intro s
  have hshape : s.current.map (fun n => (n.toJson, n.levels, Check.validate s.registry n)) =
      some (.obj [("type", .str "heading"), ("props", .obj [("text", .str "Hi")]),
        ("children", .arr []), ("events", .obj [])], 1, []) := by
    decide +kernel
  obtain ⟨node, hcurrent, hnode⟩ := Option.map_eq_some_iff.mp hshape
  obtain ⟨hjson, hlevels, hvalid⟩ : node.toJson = _ ∧ node.levels = 1 ∧ _ := by
    simpa only [Prod.mk.injEq] using hnode
  obtain ⟨hfits, hbeyond⟩ := patched_fits_iff_loads s node hcurrent
  have hdone : (s.applyPatches (.arr [addProp deepLists])).1 = .ok true := by decide +kernel
  obtain ⟨list, outcome, shown, hlisted, hran, hshown, -, hdepth⟩ := hfits _ _ (Prod.ext hdone rfl)
  obtain rfl : [addProp deepLists] = list := Option.some_inj.mp hlisted
  have hreach : Patch.reach node.toJson.height [addProp deepLists] + 2 ≤
      s.settings.maxSchemaDepth := by
    rw [hjson]
    decide +kernel
  exact ⟨node, shown, hcurrent, hshown, hdepth hreach, hbeyond (hlevels ▸ by decide) hvalid⟩

/-- A heading that is within a limit of three levels, and the same patch beyond it. -/
theorem lists_beyond_the_limit :
    let s := withHeading { Settings.default with maxSchemaDepth := 3 }
    let patched := s.applyPatches (.arr [addProp deepLists])
    ∃ node shown, s.current = some node ∧ FitsWritten s.settings node ∧ patched.1 = .ok true ∧
      patched.2.current = some shown ∧ ¬ FitsWritten s.settings shown := by
  intro s patched
  have hbefore : s.current.map (fun n => decide (FitsWritten s.settings n)) = some true := by
    decide +kernel
  have hafter : patched.2.current.map (fun n => decide (FitsWritten s.settings n)) =
      some false := by
    decide +kernel
  obtain ⟨node, hcurrent, hfits⟩ := Option.map_eq_some_iff.mp hbefore
  obtain ⟨shown, hshown, hbeyond⟩ := Option.map_eq_some_iff.mp hafter
  exact ⟨node, shown, hcurrent, of_decide_eq_true hfits, by decide +kernel, hshown,
    of_decide_eq_false hbeyond⟩

end Session

end ViewTree
