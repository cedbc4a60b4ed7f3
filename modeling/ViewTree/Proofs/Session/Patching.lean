import ViewTree.Proofs.Patch.Untouched
import ViewTree.Proofs.Session.Display
import ViewTree.Proofs.Wire.Canonical

/-
  ViewTree.Proofs.Session.Patching — which schema a successful patching makes current.

  Patching has gone through six stages when it succeeds (`Patched`): there was a current
  schema, the patches were a list, the schema was written, their run on its object had an
  outcome, the tree of the outcome was normalized, and what came of it is valid. Nothing
  else makes it succeed (`patched_of_applyPatches`), and nothing else is needed
  (`Patched.applies`).

  The normalization reads the tree as a node unless it is a wire schema, and then shows the
  tree of its components instead (`normalized_iff_read`). What makes a wire schema are two
  keys of the root, so a run whose patches touch neither of them makes none
  (`isWire_of_untouched`). Both facts together are `patched_reads_canonically`;
  `heading_becomes_container` is a heading that two patches turn into a container.
-/

namespace ViewTree

/-! ## Wire schemas -/

namespace Wire

/-- Whether an object is a wire schema depends on two of its keys. -/
theorem isWire_of_agreeOn {d d' : Json} (hversion : Patch.AgreeOn "schemaVersion" d d')
    (hcomponents : Patch.AgreeOn "components" d d') : isWire d' = isWire d := by
  obtain ⟨fields, fields', rfl, rfl, hversion⟩ := hversion
  obtain ⟨_, _, hfields, hfields', hcomponents⟩ := hcomponents
  cases hfields
  cases hfields'
  simp only [isWire, Fields.given?, hversion, hcomponents]

/-- A run that touches neither key leaves what is no wire schema none. -/
theorem isWire_of_untouched {d : Fields} {patches : List Json} {outcome : Patch.Outcome}
    (h : Patch.run (.obj d) patches = .ok outcome)
    (hversion : Patch.Untouched "schemaVersion" patches)
    (hcomponents : Patch.Untouched "components" patches) :
    isWire outcome.tree = isWire (.obj d) := by
  have hruns : Patch.Runs 0 (.obj d) patches outcome := Patch.runs_of_runFrom h
  exact isWire_of_agreeOn (hruns.agreeOn rfl hversion) (hruns.agreeOn rfl hcomponents)

/-- A node that was read from a wire schema keeps its version mark. -/
theorem extras_ne_nil_of_wire {v : Json} {node : Node} (hwire : isWire v = true)
    (h : Node.ofJson v = .ok node) : node.extras ≠ [] := by
  rw [Node.ofJson_eq_ok_iff] at h
  obtain ⟨fields, rfl, hreads⟩ := Node.read_eq_ok_iff.mp h
  rw [isWire, Bool.and_eq_true] at hwire
  have hkept : node.extras.get? "schemaVersion" = Fields.get? "schemaVersion" fields := by
    rw [hreads.extras, Fields.get?_filter_keys, if_neg (by decide)]
  intro hnone
  rw [hnone, Fields.get?_nil] at hkept
  rw [Fields.given?, ← hkept] at hwire
  cases hwire.1

/-- A wire schema is normalized to the tree of its components. -/
theorem normalize_of_wire {raw : Json} (hwire : isWire raw = true) :
    ∃ fields, raw = .obj fields ∧ normalize raw = .ok (tree fields) := by
  cases raw with
  | obj fields => exact ⟨fields, rfl, by simp [normalize, hwire]⟩
  | _ => cases hwire

/-- What a value is normalized to is the node in it exactly if it is no wire schema. -/
theorem normalized_iff_read {raw : Json} {node : Node} (h : normalize raw = .ok node) :
    Node.ofJson raw = .ok node ↔ isWire raw = false := by
  constructor
  · intro hread
    by_contra hwire
    rw [Bool.not_eq_false] at hwire
    obtain ⟨fields, rfl, htree⟩ := normalize_of_wire hwire
    rw [h, Except.ok.injEq] at htree
    exact extras_ne_nil_of_wire hwire hread (htree ▸ rfl)
  · intro hwire
    rw [← normalize_of_not_wire hwire, h]

end Wire

namespace Session

/-! ## The stages of a patching -/

/-- The stages that a successful patching went through. -/
structure Patched (s : Session) (patches : Json) (node : Node) (list : List Json)
    (outcome : Patch.Outcome) (shown : Node) : Prop where
  current : s.current = some node
  listed : patches.iterate? = some list
  written : node.levels ≤ Node.maxWritten
  ran : Patch.run node.toJson list = .ok outcome
  normalized : Wire.normalize outcome.tree = .ok shown
  valid : Check.validate s.registry shown = []

section Stages

variable {s s' : Session} {patches : Json}

theorem shownBy?_eq_some_iff {registry : Registry} {tree : Json} {shown : Node} :
    shownBy? registry tree = some shown ↔
      Wire.normalize tree = .ok shown ∧ Check.validate registry shown = [] := by
  unfold shownBy? valid?
  cases Wire.normalize tree with
  | error rejection => simp
  | ok node =>
    simp only [List.isEmpty_iff, Option.ite_none_right_eq_some, Option.some.injEq, Except.ok.injEq]
    constructor
    · rintro ⟨hvalid, rfl⟩
      exact ⟨rfl, hvalid⟩
    · rintro ⟨rfl, hvalid⟩
      exact ⟨hvalid, rfl⟩

/-- What a run on the current schema comes to is all that its patching goes by. -/
theorem applyPatches_updates {node : Node} {list : List Json} {outcome : Patch.Outcome}
    (hcurrent : s.current = some node) (hlisted : patches.iterate? = some list)
    (hwritten : node.levels ≤ Node.maxWritten) (hran : Patch.run node.toJson list = .ok outcome) :
    ∃ done, (s.applyPatches patches).1 = .ok done ∧
      Updates (shownBy? s.registry outcome.tree) s done (s.applyPatches patches).2 := by
  have hupdates (opened closed : Telemetry.Journal) :
      Updates (shownBy? s.registry outcome.tree) s
        (((s.note opened).note closed).commitPatched outcome).1
        (((s.note opened).note closed).commitPatched outcome).2 :=
    ((note_keeps opened s).trans (note_keeps closed _)).updates
      (commitPatched_updates outcome ((s.note opened).note closed))
  unfold applyPatches
  simp only [hcurrent, hlisted, Node.dump?_of_le hwritten, hran]
  exact ⟨_, rfl, hupdates _ _⟩

/-- A patching that went through all stages has succeeded. -/
theorem Patched.applies {node : Node} {list : List Json} {outcome : Patch.Outcome} {shown : Node}
    (h : Patched s patches node list outcome shown) :
    ∃ s', s.applyPatches patches = (.ok true, s') ∧ Shows shown s s' := by
  obtain ⟨done, hdone, hupdates⟩ := applyPatches_updates h.current h.listed h.written h.ran
  rw [shownBy?_eq_some_iff.mpr ⟨h.normalized, h.valid⟩] at hupdates
  obtain ⟨rfl, hshows⟩ := hupdates
  exact ⟨_, Prod.ext hdone rfl, hshows⟩

/-- A patching that succeeded went through all stages. -/
theorem patched_of_applyPatches (h : s.applyPatches patches = (.ok true, s')) :
    ∃ node list outcome shown, Patched s patches node list outcome shown ∧ Shows shown s s' := by
  cases hcurrent : s.current with
  | none => simp [applyPatches, hcurrent] at h
  | some node =>
    cases hlisted : patches.iterate? with
    | none => simp [applyPatches, hcurrent, hlisted] at h
    | some list =>
      cases hdump : node.dump? with
      | none => simp [applyPatches, hcurrent, hlisted, hdump] at h
      | some doc =>
        obtain ⟨hwritten, rfl⟩ := Node.dump?_eq_some_iff.mp hdump
        cases hran : Patch.run node.toJson list with
        | error stopped => simp [applyPatches, hcurrent, hlisted, hdump, hran] at h
        | ok outcome =>
          obtain ⟨done, hdone, hupdates⟩ := applyPatches_updates hcurrent hlisted hwritten hran
          rw [h] at hdone hupdates
          cases hdone
          cases hshown : shownBy? s.registry outcome.tree with
          | none =>
            rw [hshown] at hupdates
            cases hupdates.1
          | some shown =>
            rw [hshown] at hupdates
            obtain ⟨hnormalized, hvalid⟩ := shownBy?_eq_some_iff.mp hshown
            exact ⟨node, list, outcome, shown,
              ⟨hcurrent, hlisted, hwritten, hran, hnormalized, hvalid⟩, hupdates.2⟩

end Stages

/-! ## The patched schema -/

/-- A successful patching shows the node in the tree that the patches made, exactly if that
    tree is no wire schema, and the tree of its components otherwise. No wire schema comes of
    a schema that is none itself when no patch touches the two keys that make one. -/
theorem patched_reads_canonically {s s' : Session} {patches : Json}
    (h : s.applyPatches patches = (.ok true, s')) :
    ∃ node list outcome shown, s.current = some node ∧ patches.iterate? = some list ∧
      Patch.run node.toJson list = .ok outcome ∧ s'.current = some shown ∧
      (Node.ofJson outcome.tree = .ok shown ↔ Wire.isWire outcome.tree = false) ∧
      (Wire.isWire outcome.tree = true →
        ∃ fields, outcome.tree = .obj fields ∧ shown = Wire.tree fields) ∧
      (Wire.isWire node.toJson = false → Patch.Untouched "schemaVersion" list →
        Patch.Untouched "components" list → Wire.isWire outcome.tree = false) := by
  obtain ⟨node, list, outcome, shown, hpatched, hshows⟩ := patched_of_applyPatches h
  refine ⟨node, list, outcome, shown, hpatched.current, hpatched.listed, hpatched.ran,
    hshows.current, Wire.normalized_iff_read hpatched.normalized, ?_, ?_⟩
  · intro hwire
    obtain ⟨fields, htree, hnormalized⟩ := Wire.normalize_of_wire hwire
    rw [hpatched.normalized, Except.ok.injEq] at hnormalized
    exact ⟨fields, htree, hnormalized⟩
  · intro hplain hversion hcomponents
    rw [← hplain]
    exact Wire.isWire_of_untouched hpatched.ran hversion hcomponents

/-- A session that shows a heading. -/
def withHeading (settings : Settings) : Session :=
  ((fresh .library settings .empty).loadValue
    (.obj [("type", .str "heading"), ("props", .obj [("text", .str "Hi")])])).2

/-- Another text for the heading touches neither key. -/
theorem retitled_heading :
    let s := withHeading .default
    let patch : Json :=
      .obj [("op", .str "replace"), ("path", .str "/props/text"), ("value", .str "Ho")]
    ∃ node outcome shown, s.current = some node ∧
      Patch.run node.toJson [patch] = .ok outcome ∧
      (s.applyPatches (.arr [patch])).2.current = some shown ∧
      Node.ofJson outcome.tree = .ok shown := by
  intro s patch
  have hdone : (s.applyPatches (.arr [patch])).1 = .ok true := by decide +kernel
  obtain ⟨node, list, outcome, shown, hcurrent, hlisted, hran, hshown, hread, -, hnone⟩ :=
    patched_reads_canonically (Prod.ext hdone rfl :
      s.applyPatches (.arr [patch]) = (.ok true, _))
  obtain rfl : [patch] = list := Option.some_inj.mp hlisted
  have hplain : Wire.isWire node.toJson = false := by
    have hshape : s.current.map (fun n => Wire.isWire n.toJson) = some false := by
      decide +kernel
    simpa [hcurrent] using hshape
  have huntouched (key : String) (hkey : "props" ≠ key) : Patch.Untouched key [patch] := by
    intro p hp o ho
    obtain rfl := List.mem_singleton.mp hp
    cases ho
    rw [Patch.Operation.Touches, not_or, Classical.not_not]
    exact ⟨⟨"props", ["text"], by decide, hkey⟩, by simp⟩
  exact ⟨node, outcome, shown, hcurrent, hran, hshown,
    hread.mpr (hnone hplain (huntouched _ (by decide)) (huntouched _ (by decide)))⟩

/-- Two patches that add a version mark and an empty list of components turn the heading into
    an empty container, although the node in the patched tree is still a heading. -/
theorem heading_becomes_container :
    let s := withHeading .default
    let patches : List Json :=
      [.obj [("op", .str "add"), ("path", .str "/schemaVersion"), ("value", .str "1")],
        .obj [("op", .str "add"), ("path", .str "/components"), ("value", .arr [])]]
    (s.applyPatches (.arr patches)).1 = .ok true ∧
      (s.applyPatches (.arr patches)).2.current.map Node.type = some (some "container") ∧
      ∃ node outcome read, s.current = some node ∧
        Patch.run node.toJson patches = .ok outcome ∧ Node.ofJson outcome.tree = .ok read ∧
        read.type = some "heading" ∧ read.props = [("text", .str "Hi")] := by
  intro s patches
  have hshape : s.current.map Node.toJson = some (.obj [("type", .str "heading"),
      ("props", .obj [("text", .str "Hi")]), ("children", .arr []), ("events", .obj [])]) := by
    decide +kernel
  obtain ⟨node, hcurrent, hnode⟩ := Option.map_eq_some_iff.mp hshape
  have htree : (Patch.run node.toJson patches).toOption.map Patch.Outcome.tree =
      some (.obj [("type", .str "heading"), ("props", .obj [("text", .str "Hi")]),
        ("children", .arr []), ("events", .obj []), ("schemaVersion", .str "1"),
        ("components", .arr [])]) := by
    rw [hnode]
    decide +kernel
  cases hran : Patch.run node.toJson patches with
  | error stopped => simp [hran, Except.toOption] at htree
  | ok outcome =>
    have hread : (Node.ofJson outcome.tree).toOption.map (fun n => (n.type, n.props)) =
        some (some "heading", [("text", .str "Hi")]) := by
      rw [hran] at htree
      rw [Option.some_inj.mp htree]
      decide +kernel
    cases hnode : Node.ofJson outcome.tree with
    | error rejection => simp [hnode, Except.toOption] at hread
    | ok read =>
      rw [hnode] at hread
      obtain ⟨htype, hprops⟩ := Prod.mk.inj (Option.some_inj.mp hread)
      exact ⟨by decide +kernel, by decide +kernel, node, outcome, read, hcurrent, hran, hnode,
        htype, hprops⟩

end Session

end ViewTree
