import ViewTree.Proofs.Node.Documents
import ViewTree.Proofs.Wire.Expansion

/-
  ViewTree.Proofs.Wire.Canonical — a normalized tree is not normalized further.

  The object of a tree that came out of a normalization is no wire schema: what makes one
  are keys that no node has of its own, and a tree keeps them only from a value that was
  none (`isWire_toJson`). So it is read as a node, and what is read is the same tree, plain,
  as long as it has no more levels of nodes than are written (`normalize_toJson`); just as
  many are read.

  Every value that is read as a node stays within these levels. The tree of a wire schema
  has as many as its components, and beyond the limit no object is written of it
  (`nested_cards_unwritten`).
-/

namespace ViewTree.Wire

section Normalized

variable {raw : Json} {node : Node}

theorem normalize_of_not_wire (h : isWire raw = false) : normalize raw = Node.ofJson raw := by
  cases raw <;> simp [normalize, h]

/-- Whether the object of a node is a wire schema depends on what the node keeps alone. -/
theorem isWire_toJson_eq (h : node.Tidy) : isWire node.toJson = isWire (.obj node.extras) := by
  have hversion := h.get?_toFields_kept (by decide : "schemaVersion" ∉ Node.keys)
  have hcomponents := h.get?_toFields_kept (by decide : "components" ∉ Node.keys)
  simp only [Node.toJson, isWire, Fields.given?, hversion, hcomponents]

/-- The nodes of components keep nothing. -/
theorem extras_of_wire (hwire : isWire raw = true) (hraw : raw.Throughout Json.Keyed)
    (h : normalize raw = .ok node) : node.Throughout fun n => n.extras = [] := by
  have hextras : ∃ root, normalize raw = .ok root ∧ root.Throughout fun n => n.extras = [] :=
    throughout_tree (fun _ _ => rfl) (fun _ _ _ _ _ => rfl) (fun _ => rfl) hwire hraw
  obtain ⟨root, hroot, hextras⟩ := hextras
  rw [h] at hroot
  rwa [Except.ok.inj hroot]

/-- A tree that was normalized is tidy throughout. -/
theorem tidy_of_normalize (hraw : raw.Throughout Json.Keyed) (h : normalize raw = .ok node) :
    node.Throughout Node.Tidy := by
  by_cases hwire : isWire raw = true
  · refine (extras_of_wire hwire hraw h).mono fun n hn => ⟨?_, ?_⟩
    · rw [hn]
      exact List.nodup_nil
    · rw [hn]
      simp
  · rw [normalize_of_not_wire (Bool.eq_false_iff.mpr hwire), Node.ofJson_eq_ok_iff] at h
    exact (Node.read_throughout (fun hfields hreads => hreads.tidy hfields.1) hraw h).1

/-- The object of a tree that was normalized is no wire schema. -/
theorem isWire_toJson (hraw : raw.Throughout Json.Keyed) (h : normalize raw = .ok node) :
    isWire node.toJson = false := by
  rw [isWire_toJson_eq (Node.throughout_iff.mp (tidy_of_normalize hraw h)).1]
  by_cases hwire : isWire raw = true
  · rw [(Node.throughout_iff.mp (extras_of_wire hwire hraw h)).1]
    rfl
  · rw [Bool.not_eq_true] at hwire
    rw [normalize_of_not_wire hwire, Node.ofJson_eq_ok_iff] at h
    obtain ⟨fields, rfl, hreads⟩ := Node.read_eq_ok_iff.mp h
    have hkept {key : String} (hkey : key ∉ Node.keys) :
        node.extras.get? key = Fields.get? key fields := by
      rw [hreads.extras, Fields.get?_filter_keys, if_neg hkey]
    rw [← hwire]
    simp only [isWire, Fields.given?, hkept (by decide : "schemaVersion" ∉ Node.keys),
      hkept (by decide : "components" ∉ Node.keys)]

theorem normalize_toJson_iff (hraw : raw.Throughout Json.Keyed) (h : normalize raw = .ok node)
    {again : Node} : normalize node.toJson = .ok again ↔
      again = node.plain ∧ node.levels ≤ Node.maxLevels + 1 := by
  rw [normalize_of_not_wire (isWire_toJson hraw h), Node.ofJson_eq_ok_iff,
    Node.read_toJson_iff (tidy_of_normalize hraw h)]

/-- The object of a normalized tree is no wire schema. It is written exactly if the tree has
    no more levels than that, as it has when it was no wire schema before, and is normalized
    to the same object again. -/
theorem normalize_toJson (hraw : raw.Throughout Json.Keyed) (h : normalize raw = .ok node) :
    isWire node.toJson = false ∧
      (isWire raw = false → node.levels ≤ Node.maxWritten) ∧
      (node.levels ≤ Node.maxWritten → ∃ written, node.dump? = some written ∧
        normalize written = .ok node.plain ∧ node.plain.dump? = some written) ∧
      (Node.maxWritten < node.levels → node.dump? = none) := by
  refine ⟨isWire_toJson hraw h, fun hplain => ?_, fun hlevels => ?_, Node.dump?_eq_none_iff.mpr⟩
  · rw [normalize_of_not_wire hplain, Node.ofJson_eq_ok_iff] at h
    have hread : node.Throughout (fun _ => True) ∧ node.levels ≤ Node.maxLevels + 1 :=
      Node.read_throughout (fun _ _ => trivial) hraw h
    exact hread.2
  · refine ⟨_, Node.dump?_of_le hlevels, (normalize_toJson_iff hraw h).mpr ⟨rfl, hlevels⟩, ?_⟩
    rw [Node.dump?_eq_some_iff, Node.levels_plain]
    exact ⟨hlevels, node.toJson_plain⟩

end Normalized

/-- A schema with a component that nothing corresponds to, and a heading behind it. -/
def chart : Json :=
  .obj [("schemaVersion", .int 1), ("components", .arr [
    .obj [("type", .str "chart"), ("id", .int 7)],
    .obj [("type", .str "heading"), ("id", .int 8), ("events", .obj [("click", .null)])]])]

theorem chart_normalized_again : ∃ node written, normalize chart = .ok node ∧
    isWire node.toJson = false ∧ node.dump? = some written ∧
      normalize written = .ok node.plain ∧ node.plain.dump? = some written := by
  have hkeyed : chart.Throughout Json.Keyed := by
    simp [chart, Json.Throughout, Json.ThroughoutFields, Json.ThroughoutItems, Json.Keyed,
      Fields.keys]
  obtain ⟨hwire, -, hagain, -⟩ := normalize_toJson hkeyed rfl
  obtain ⟨written, hwritten, hnormalized, hdumped⟩ := hagain (by decide)
  exact ⟨_, written, rfl, hwire, hwritten, hnormalized, hdumped⟩

/-! ## Nested cards -/

/-- A card around another one, and so on; without any below it, the innermost. -/
def nestedCards : Nat → Json
  | 0 => .obj [("type", .str "card")]
  | n + 1 => .obj [("type", .str "card"), ("components", .arr [nestedCards n])]

def nestedCardsSchema (n : Nat) : Json :=
  .obj [("schemaVersion", .str "1"), ("components", .arr [nestedCards n])]

theorem keyed_nestedCards (n : Nat) : (nestedCards n).Throughout Json.Keyed := by
  induction n with
  | zero => exact ⟨List.nodup_singleton _, trivial, trivial⟩
  | succ n ih =>
    refine ⟨?_, trivial, ⟨trivial, ih, trivial⟩, trivial⟩
    show (Fields.keys _).Nodup
    simp

theorem levels_nestedCards (n : Nat) : (expand (nestedCards n)).levels = n + 1 := by
  induction n with
  | zero => rfl
  | succ n ih =>
    have hkind : kindOf? [("type", .str "card"), ("components", .arr [nestedCards n])] =
        some (.passThrough "card") := rfl
    rw [nestedCards, expand]
    simp only [hkind, Node.levels_eq, nodeOf]
    simp [expandNested, expandList, expandEach, Node.levelsEach, ih]

theorem keyed_nestedCardsSchema (n : Nat) : (nestedCardsSchema n).Throughout Json.Keyed := by
  refine ⟨?_, trivial, ⟨trivial, keyed_nestedCards n, trivial⟩, trivial⟩
  show (Fields.keys _).Nodup
  simp

/-- The tree of a schema with nested cards has a root around them. -/
theorem levels_nestedCardsSchema {n : Nat} {node : Node}
    (h : normalize (nestedCardsSchema n) = .ok node) : node.levels = n + 2 := by
  obtain rfl := Except.ok.inj h
  have hlist : (Fields.get? "components"
      [("schemaVersion", .str "1"), ("components", .arr [nestedCards n])]).getD .null =
        .arr [nestedCards n] := rfl
  simp [tree, hlist, Node.levels, expandList, expandEach, Node.levelsEach, levels_nestedCards]

/-- A schema with 255 cards, one inside the other, is normalized; its tree has a level of
    nodes too many, and no object is written of it. -/
theorem nested_cards_unwritten : (nestedCardsSchema 254).Throughout Json.Keyed ∧
    ∃ node, normalize (nestedCardsSchema 254) = .ok node ∧ node.dump? = none := by
  refine ⟨keyed_nestedCardsSchema 254, _, rfl, Node.dump?_eq_none_iff.mpr ?_⟩
  rw [levels_nestedCardsSchema (n := 254) rfl]
  decide

end ViewTree.Wire
