import ViewTree.Document
import ViewTree.Proofs.Json.Roundtrip
import ViewTree.Proofs.Json.Yielded
import ViewTree.Proofs.Node.Reading
import ViewTree.Wire

/-
  ViewTree.Proofs.Node.Documents — what a document keeps of a tree.

  The document of a tree, at any indentation, reads as the tree again, plain, exactly if
  no integer in the tree is wide (`decode_encode_iff`). A wide integer is written with all
  its digits, but a document is strict: the reader makes a double of it, or refuses the
  document (`wide_comes_back_as_double`).

  What holds throughout the data of every node holds throughout the object of the tree
  (`throughout_toJson`), and what was read throughout a value holds throughout the data of
  the nodes that were read from it. The first makes the text readable, the second shows
  that nothing wide can have come back.
-/

namespace ViewTree

theorem Json.nesting_le_of_mem {key : String} {v : Json} {fields : Fields} (h : (key, v) ∈ fields) :
    v.nesting ≤ Json.nestingFields fields := by
  induction fields with
  | nil => cases h
  | cons field rest ih =>
    obtain ⟨k, w⟩ := field
    rw [Json.nestingFields]
    rcases List.mem_cons.mp h with heq | hrest
    · cases heq
      exact Nat.le_max_left _ _
    · exact Nat.le_trans (ih hrest) (Nat.le_max_right _ _)

namespace Node

/-! ## The data of a node -/

/-- A property of everything inside the props, the events and the kept keys of a node. -/
structure Holds (p : Json → Prop) (node : Node) : Prop where
  props : Json.ThroughoutFields p node.props
  events : Json.ThroughoutFields p node.events
  extras : Json.ThroughoutFields p node.extras

theorem Reads.holds {p : Json → Prop} {room : Nat} {fields : Fields} {node : Node}
    (h : Reads room fields node) (hfields : (Json.obj fields).Throughout p) : node.Holds p := by
  have hmapping : ∀ {key : String} {inner : Fields},
      Field.optional [key] fields [] mapping = .ok inner → Json.ThroughoutFields p inner := by
    intro key inner hinner
    rcases Field.optional_eq_ok_iff.mp hinner with ⟨-, rfl⟩ | ⟨v, hv, hread⟩
    · trivial
    · have hv := hfields.2.of_get? hv
      cases v with
      | null =>
        obtain rfl := Except.ok.inj hread
        trivial
      | obj inner' =>
        obtain rfl := Except.ok.inj hread
        exact hv.2
      | _ => cases hread
  refine ⟨hmapping h.props, hmapping h.events, ?_⟩
  rw [h.extras, Json.throughoutFields_iff]
  exact fun f hf => Json.throughoutFields_iff.mp hfields.2 f (List.mem_of_mem_filter hf)

/-- A property of every value that is written for a node itself. -/
structure Written (p : Json → Prop) (node : Node) : Prop where
  object : p (.obj node.toFields)
  props : p (.obj node.props)
  events : p (.obj node.events)
  children : p (.arr (toItems node.children))
  id : ∀ s, node.id = some s → p (.str s)
  type : ∀ s, node.type = some s → p (.str s)

section Written

variable {p : Json → Prop}

theorem throughout_identity {key : String} {value : Option String}
    (h : ∀ s, value = some s → p (.str s)) : Json.ThroughoutFields p (identity key value) := by
  cases value with
  | none => trivial
  | some s => exact ⟨h s rfl, trivial⟩

theorem throughout_toFields {node : Node} (hwritten : node.Written p) (hdata : node.Holds p)
    (hchildren : Json.ThroughoutItems p (toItems node.children)) :
    Json.ThroughoutFields p node.toFields := by
  have hown : Json.ThroughoutFields p node.ownFields := by
    rw [ownFields, Json.throughoutFields_iff]
    intro f hf
    rw [List.append_assoc, List.mem_append, List.mem_append] at hf
    rcases hf with hf | hf | hf
    · exact Json.throughoutFields_iff.mp (throughout_identity hwritten.id) f hf
    · exact Json.throughoutFields_iff.mp (throughout_identity hwritten.type) f hf
    · simp only [List.mem_cons, List.not_mem_nil, or_false] at hf
      rcases hf with rfl | rfl | rfl
      · exact ⟨hwritten.props, hdata.props⟩
      · exact ⟨hwritten.children, hchildren⟩
      · exact ⟨hwritten.events, hdata.events⟩
  rw [toFields_eq]
  exact hown.merge hdata.extras

mutual
theorem throughout_toJson : ∀ {node : Node},
    node.Throughout (fun n => n.Written p ∧ n.Holds p) → node.toJson.Throughout p
  | ⟨_, _, _, _, _, _, _⟩, h => by
    rw [throughout_iff] at h
    exact ⟨h.1.1.object, throughout_toFields h.1.1 h.1.2 (throughout_toItems h.2)⟩

theorem throughout_toItems : ∀ {nodes : List Node},
    ThroughoutAll (fun n => n.Written p ∧ n.Holds p) nodes →
      Json.ThroughoutItems p (toItems nodes)
  | [], _ => trivial
  | node :: rest, h => by
    rw [toItems]
    exact ⟨throughout_toJson h.1, throughout_toItems h.2⟩
end

end Written

/-- The data of a node that a dialect keeps: that of its props, of its events and of the
    keys that it keeps, which are apart from its own. -/
structure Kept (d : Json.Dialect) (node : Node) : Prop where
  props : (Json.obj node.props).Kept d
  events : (Json.obj node.events).Kept d
  extras : (Json.obj node.extras).Kept d
  apart : ∀ key ∈ node.extras.keys, key ∉ keys

theorem kept_empty (d : Json.Dialect) : (Json.obj []).Kept d := ⟨List.nodup_nil, trivial⟩

theorem Kept.tidy {d : Json.Dialect} {node : Node} (h : node.Kept d) : node.Tidy :=
  ⟨h.extras.1, h.apart⟩

theorem nodup_toFields (node : Node) : node.toFields.keys.Nodup := by
  rw [toFields_eq]
  exact Fields.nodup_merge _ ((by decide : keys.Nodup).sublist node.keys_ownFields)

theorem kept_toJson {d : Json.Dialect} {node : Node} (h : node.Throughout (Kept d)) :
    node.toJson.Kept d := by
  refine throughout_toJson (h.mono fun n hn => ⟨?_, hn.props.2, hn.events.2, hn.extras.2⟩)
  exact ⟨n.nodup_toFields, hn.props.1, hn.events.1, trivial, fun _ _ => trivial,
    fun _ _ => trivial⟩

/-- In the object of a tree that was read there is nothing wide where none was read. -/
theorem narrow_toJson_of_read {room : Nat} {v : Json} {node : Node}
    (hv : v.Throughout Json.Narrow) (h : read room v = .ok node) :
    node.toJson.Throughout Json.Narrow := by
  have hdata := (read_throughout (fun hfields hreads => hreads.holds hfields) hv h).1
  refine throughout_toJson (hdata.mono fun n hn => ⟨?_, hn⟩)
  exact ⟨rfl, rfl, rfl, rfl, fun _ _ => rfl, fun _ _ => rfl⟩

/-! ## Nesting -/

mutual
/-- A level of nodes is nested twice: in an object and in the list of its children. -/
theorem two_mul_levels_le_nesting : ∀ {node : Node}, node.Throughout Tidy →
    2 * node.levels ≤ node.toJson.nesting
  | ⟨id, type, props, children, events, extras, source⟩, h => by
    rw [throughout_iff] at h
    have hfield : Fields.get? "children"
        (toFields ⟨id, type, props, children, events, extras, source⟩) =
          some (.arr (toItems children)) :=
      (h.1.get?_toFields (by decide)).trans (get?_ownFields _ "children")
    have hmember := Json.nesting_le_of_mem (Fields.mem_of_get? hfield)
    have hchildren : 2 * levelsEach children ≤ Json.nestingItems (toItems children) :=
      two_mul_levelsEach_le_nesting h.2
    rw [Json.nesting] at hmember
    rw [toJson, Json.nesting, levels]
    omega

theorem two_mul_levelsEach_le_nesting : ∀ {nodes : List Node}, ThroughoutAll Tidy nodes →
    2 * levelsEach nodes ≤ Json.nestingItems (toItems nodes)
  | [], _ => Nat.zero_le _
  | node :: rest, h => by
    have hnode := two_mul_levels_le_nesting h.1
    have hrest := two_mul_levelsEach_le_nesting h.2
    rw [toJson] at hnode
    rw [levelsEach, toItems, Json.nestingItems]
    omega
end

/-! ## Documents -/

theorem ofJson_eq_ok_iff {v : Json} {node : Node} :
    ofJson v = .ok node ↔ read maxLevels v = .ok node := by
  unfold ofJson
  cases read maxLevels v <;> simp

theorem decode_eq_ok_iff {text : String} {node : Node} :
    decode text = .ok node ↔
      ∃ v, Json.read .strict text.toList = .ok v ∧ v.nesting ≤ Json.strictNesting ∧
        ofJson v = .ok node := by
  unfold decode Json.decode? Json.read?
  cases Json.read .strict text.toList with
  | error flaw => simp [Except.toOption]
  | ok v =>
    by_cases h : v.nesting ≤ Json.strictNesting
    · cases hnode : ofJson v <;> simp [Except.toOption, h, hnode]
    · simp [Except.toOption, h]

/-- A document that was read holds nothing wide. -/
theorem narrow_of_decode {text : String} {node : Node} (h : decode text = .ok node) :
    node.toJson.Throughout Json.Narrow := by
  obtain ⟨v, hv, -, hnode⟩ := decode_eq_ok_iff.mp h
  exact narrow_toJson_of_read (Json.narrow_of_read hv) (ofJson_eq_ok_iff.mp hnode)

theorem decode_encode_of_narrow {node : Node} (hnode : node.Throughout (Kept .exact))
    (hdepth : node.toJson.nesting ≤ 254) (indent : Int)
    (hnarrow : node.toJson.Throughout Json.Narrow) :
    decode (node.toJson.encode indent) = .ok node.plain := by
  have htidy : node.Throughout Tidy := hnode.mono fun _ h => h.tidy
  have hlevels := two_mul_levels_le_nesting htidy
  have hstrict : node.toJson.Kept .strict := (kept_toJson hnode).strict_iff.mpr hnarrow
  refine decode_eq_ok_iff.mpr ⟨node.toJson, ?_, Nat.le_trans hdepth (by decide), ?_⟩
  · rw [Json.toList_encode]
    exact Json.read_encodeChars hstrict indent
  · rw [ofJson_eq_ok_iff, read_toJson_iff htidy, maxLevels]
    exact ⟨rfl, by omega⟩

mutual
theorem plain_eq_self_iff : ∀ {node : Node}, node.plain = node ↔ Wire.standIns node = []
  | ⟨id, type, props, children, events, extras, source⟩ => by
    have hchildren : plainEach children = children ↔ Wire.standInsFrom 0 children = [] :=
      plainEach_eq_self_iff
    cases source with
    | none => simpa [plain, Wire.standIns] using hchildren
    | some component => simp [plain, Wire.standIns]

theorem plainEach_eq_self_iff : ∀ {nodes : List Node} {position : Nat},
    plainEach nodes = nodes ↔ Wire.standInsFrom position nodes = []
  | [], _ => by simp [plainEach, Wire.standInsFrom]
  | node :: rest, position => by
    have hnode : node.plain = node ↔ Wire.standIns node = [] := plain_eq_self_iff
    have hrest : plainEach rest = rest ↔ Wire.standInsFrom (position + 1) rest = [] :=
      plainEach_eq_self_iff
    simp [plainEach, Wire.standInsFrom, hnode, hrest]
end

/-- A tree that is not nested too deep is written. -/
theorem encode?_of_nesting {node : Node} (htidy : node.Throughout Tidy)
    (hdepth : node.toJson.nesting ≤ 254) (indent : Int) :
    node.encode? indent = some (node.toJson.encode indent) := by
  have hlevels := two_mul_levels_le_nesting htidy
  rw [encode?, dump?_of_le (by rw [maxWritten]; omega)]
  rfl

/-- A tree that keeps its data has a document, which reads as the tree again, plain, exactly
    if no integer in it is wide. Plain is a tree as it is exactly if it has no stand-ins. -/
theorem decode_encode_iff {node : Node} (hnode : node.Throughout (Kept .exact))
    (hdepth : node.toJson.nesting ≤ 254) (indent : Int) :
    ∃ text, node.encode? indent = some text ∧
      (decode text = .ok node.plain ↔ node.toJson.anyLeaf Json.isWide = false) ∧
      (node.plain = node ↔ Wire.standIns node = []) := by
  refine ⟨_, encode?_of_nesting (hnode.mono fun _ h => h.tidy) hdepth indent, ?_,
    plain_eq_self_iff⟩
  rw [Json.anyLeaf_isWide_iff]
  refine ⟨fun hdecode => ?_, decode_encode_of_narrow hnode hdepth indent⟩
  rw [← toJson_plain]
  exact narrow_of_decode hdecode

/-- A form with a kept key, whose button has texts to escape and the greatest integer that
    is not wide. -/
def form : Node :=
  { (default : Node) with
    id := some "f1"
    type := some "form"
    children := [{ (default : Node) with
      type := some "button"
      props := [("label", .str "\"é\"\n"), ("weights", .arr [.int 18446744073709551615, .null])]
      events := [("click", .bool true)] }]
    extras := [("rendererVersion", .str "2")] }

theorem form_comes_back : ∃ text, form.encode? 2 = some text ∧ decode text = .ok form := by
  have hnone := kept_empty .exact
  have hdigits : (Nat.toDigits 10 18446744073709551615).length ≤ Text.maxDigits := by decide
  have hprops : (Json.obj [("label", .str "\"é\"\n"),
      ("weights", .arr [.int 18446744073709551615, .null])]).Kept .exact :=
    ⟨by simp [Json.Dialect.Keeps, Fields.keys], trivial, ⟨trivial, hdigits, trivial, trivial⟩,
      trivial⟩
  have hevents : (Json.obj [("click", .bool true)]).Kept .exact :=
    ⟨List.nodup_singleton _, trivial, trivial⟩
  have hextras : (Json.obj [("rendererVersion", .str "2")]).Kept .exact :=
    ⟨List.nodup_singleton _, trivial, trivial⟩
  have hkept : form.Throughout (Kept .exact) :=
    ⟨⟨hnone, hnone, hextras, by decide⟩, ⟨⟨hprops, hevents, hnone, by decide⟩, trivial⟩, trivial⟩
  have hplain : form.plain = form := rfl
  obtain ⟨text, htext, hdecode, -⟩ := decode_encode_iff hkept (by decide) 2
  rw [hplain] at hdecode
  exact ⟨text, htext, hdecode.mpr (by decide)⟩

/-- The least wide integer above zero is written with its digits, and comes back as a
    double. -/
theorem wide_comes_back_as_double :
    let node : Node := { (default : Node) with
      type := some "c", props := [("n", .int 18446744073709551616)] }
    node.Throughout (Kept .exact) ∧ node.toJson.nesting ≤ 254 ∧ Wire.standIns node = [] ∧
      ∃ text, node.encode? 0 = some text ∧
        decode text = .ok { node with
          props := [("n", .real (Double.ofInt 18446744073709551616))] } ∧
        decode text ≠ .ok node := by
  intro node
  have hnone := kept_empty .exact
  have hdigits : (Nat.toDigits 10 18446744073709551616).length ≤ Text.maxDigits := by decide
  have hprops : (Json.obj [("n", .int 18446744073709551616)]).Kept .exact :=
    ⟨List.nodup_singleton _, hdigits, trivial⟩
  have hkept : node.Throughout (Kept .exact) := ⟨⟨hprops, hnone, hnone, by decide⟩, trivial⟩
  refine ⟨hkept, by decide, rfl, _, rfl, ?_, fun h => ?_⟩
  · have hread : Json.read .strict (node.toJson.encode 0).toList = .ok (Json.obj
      [("type", .str "c"), ("props", .obj [("n", .real (Double.ofInt 18446744073709551616))]),
        ("children", .arr []), ("events", .obj [])]) := by decide +kernel
    exact decode_eq_ok_iff.mpr ⟨_, hread, by decide, rfl⟩
  · have hnarrow := Json.anyLeaf_isWide_iff.mpr (narrow_of_decode h)
    exact absurd hnarrow (by decide)

end Node

end ViewTree
