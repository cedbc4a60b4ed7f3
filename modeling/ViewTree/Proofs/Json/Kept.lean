import ViewTree.Json.Read
import ViewTree.Json.Shown
import ViewTree.Proofs.Json.Fields

/-
  ViewTree.Proofs.Json.Kept — values that a document keeps as they are.

  A property of single values holds throughout a value when it holds of the value and of
  everything inside it (`Throughout`). Two such properties matter here. `Keyed`: an
  object holds each key once, as every object that was read or built does. `Keeps d`:
  besides, there is neither a double nor a handler, and each integer is one that the
  dialect reads as itself. Nothing is asked of texts, of keys or of the depth.
-/

namespace ViewTree.Json

mutual
/-- A property of a value and of every value inside it. -/
def Throughout (p : Json → Prop) : Json → Prop
  | .arr items => p (.arr items) ∧ ThroughoutItems p items
  | .obj fields => p (.obj fields) ∧ ThroughoutFields p fields
  | v => p v

def ThroughoutItems (p : Json → Prop) : List Json → Prop
  | [] => True
  | v :: rest => Throughout p v ∧ ThroughoutItems p rest

def ThroughoutFields (p : Json → Prop) : List (String × Json) → Prop
  | [] => True
  | (_, v) :: rest => Throughout p v ∧ ThroughoutFields p rest
end

section Throughout

variable {p q : Json → Prop}

mutual
theorem Throughout.mono (h : ∀ v, p v → q v) : ∀ {v : Json}, v.Throughout p → v.Throughout q
  | .arr _, hv => ⟨h _ hv.1, ThroughoutItems.mono h hv.2⟩
  | .obj _, hv => ⟨h _ hv.1, ThroughoutFields.mono h hv.2⟩
  | .null, hv => h _ hv
  | .bool _, hv => h _ hv
  | .int _, hv => h _ hv
  | .real _, hv => h _ hv
  | .str _, hv => h _ hv
  | .handler _, hv => h _ hv

theorem ThroughoutItems.mono (h : ∀ v, p v → q v) :
    ∀ {items : List Json}, ThroughoutItems p items → ThroughoutItems q items
  | [], _ => trivial
  | _ :: _, hitems => ⟨Throughout.mono h hitems.1, ThroughoutItems.mono h hitems.2⟩

theorem ThroughoutFields.mono (h : ∀ v, p v → q v) :
    ∀ {fields : List (String × Json)}, ThroughoutFields p fields → ThroughoutFields q fields
  | [], _ => trivial
  | (_, _) :: _, hfields => ⟨Throughout.mono h hfields.1, ThroughoutFields.mono h hfields.2⟩
end

mutual
theorem Throughout.and : ∀ {v : Json}, v.Throughout p → v.Throughout q →
    v.Throughout fun w => p w ∧ q w
  | .arr _, hp, hq => ⟨⟨hp.1, hq.1⟩, ThroughoutItems.and hp.2 hq.2⟩
  | .obj _, hp, hq => ⟨⟨hp.1, hq.1⟩, ThroughoutFields.and hp.2 hq.2⟩
  | .null, hp, hq => ⟨hp, hq⟩
  | .bool _, hp, hq => ⟨hp, hq⟩
  | .int _, hp, hq => ⟨hp, hq⟩
  | .real _, hp, hq => ⟨hp, hq⟩
  | .str _, hp, hq => ⟨hp, hq⟩
  | .handler _, hp, hq => ⟨hp, hq⟩

theorem ThroughoutItems.and : ∀ {items : List Json}, ThroughoutItems p items →
    ThroughoutItems q items → ThroughoutItems (fun w => p w ∧ q w) items
  | [], _, _ => trivial
  | _ :: _, hp, hq => ⟨Throughout.and hp.1 hq.1, ThroughoutItems.and hp.2 hq.2⟩

theorem ThroughoutFields.and : ∀ {fields : List (String × Json)}, ThroughoutFields p fields →
    ThroughoutFields q fields → ThroughoutFields (fun w => p w ∧ q w) fields
  | [], _, _ => trivial
  | (_, _) :: _, hp, hq => ⟨Throughout.and hp.1 hq.1, ThroughoutFields.and hp.2 hq.2⟩
end

mutual
theorem throughout_of_forall (h : ∀ v, p v) : ∀ v : Json, v.Throughout p
  | .arr items => ⟨h _, throughoutItems_of_forall h items⟩
  | .obj fields => ⟨h _, throughoutFields_of_forall h fields⟩
  | .null => h _
  | .bool _ => h _
  | .int _ => h _
  | .real _ => h _
  | .str _ => h _
  | .handler _ => h _

theorem throughoutItems_of_forall (h : ∀ v, p v) : ∀ items : List Json, ThroughoutItems p items
  | [] => trivial
  | v :: rest => ⟨throughout_of_forall h v, throughoutItems_of_forall h rest⟩

theorem throughoutFields_of_forall (h : ∀ v, p v) :
    ∀ fields : List (String × Json), ThroughoutFields p fields
  | [] => trivial
  | (_, v) :: rest => ⟨throughout_of_forall h v, throughoutFields_of_forall h rest⟩
end

theorem throughoutFields_iff {fields : Fields} :
    ThroughoutFields p fields ↔ ∀ field ∈ fields, field.2.Throughout p := by
  induction fields with
  | nil => simp [ThroughoutFields]
  | cons field rest ih => rw [ThroughoutFields, ih, List.forall_mem_cons]

theorem ThroughoutFields.of_mem {fields : Fields} (h : ThroughoutFields p fields) {key : String}
    {v : Json} (hmem : (key, v) ∈ fields) : v.Throughout p :=
  throughoutFields_iff.mp h _ hmem

/-- What holds throughout an object holds throughout the value of a field. -/
theorem ThroughoutFields.of_get? {fields : Fields} (h : ThroughoutFields p fields) {key : String}
    {v : Json} (hfound : fields.get? key = some v) : v.Throughout p :=
  h.of_mem (Fields.mem_of_get? hfound)

end Throughout

/-- An object holds each of its keys once. -/
def Keyed : Json → Prop
  | .obj fields => (Fields.keys fields).Nodup
  | _ => True

/-- The integers that a dialect reads as themselves: those of 64 bits where others become
    doubles, and otherwise those that have no more than `Text.maxDigits` digits. -/
def Dialect.KeepsInt (d : Dialect) (n : Int) : Prop :=
  if d.wideAsDouble then fitsWord n = true else (Nat.toDigits 10 n.natAbs).length ≤ Text.maxDigits

/-- The single values that a dialect reads as themselves. -/
def Dialect.Keeps (d : Dialect) : Json → Prop
  | .int n => d.KeepsInt n
  | .real _ => False
  | .handler _ => False
  | .obj fields => (Fields.keys fields).Nodup
  | _ => True

/-- A value that a dialect keeps, with everything inside it. -/
abbrev Kept (d : Dialect) (v : Json) : Prop := v.Throughout d.Keeps

theorem Kept.keyed {d : Dialect} {v : Json} (h : v.Kept d) : v.Throughout Keyed := by
  refine h.mono fun v hv => ?_
  cases v <;> first | exact hv | trivial

/-- The dialects in which integers keep their value keep the same values. -/
theorem Kept.of_exact {d : Dialect} (hd : d.wideAsDouble = false) {v : Json} (h : v.Kept .exact) :
    v.Kept d := by
  refine h.mono fun v hv => ?_
  cases v with
  | int n => simpa [Dialect.Keeps, Dialect.KeepsInt, Dialect.exact, hd] using hv
  | _ => exact hv

end ViewTree.Json
