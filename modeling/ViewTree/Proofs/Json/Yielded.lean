import ViewTree.Proofs.Json.Consumed

/-
  ViewTree.Proofs.Json.Yielded — what a reader gives.

  Whatever the text, a value that was read holds no handler, each of its objects holds a
  key once, and where integers outside the 64-bit range become doubles none is left
  (`throughout_of_read`). What a dialect keeps in general differs from that: a text may
  spell doubles, and a reader gives them. But a value that one dialect keeps is kept by the
  strict one too exactly if no integer in it is wide (`Kept.strict_iff`).
-/

namespace ViewTree.Json

/-- The single values that a dialect can give. -/
def Dialect.Yields (d : Dialect) : Json → Prop
  | .int n => d.wideAsDouble = true → fitsWord n = true
  | .handler _ => False
  | .obj fields => (Fields.keys fields).Nodup
  | _ => True

/-! ## Numbers -/

variable {d : Dialect}

theorem yields_integer {negative : Bool} {ds : List Char} {v : Json}
    (h : integer d negative ds = .ok v) : v.Throughout d.Yields := by
  simp only [integer] at h
  generalize (if negative then -(Nat.ofDigitChars 10 ds 0 : Int)
    else (Nat.ofDigitChars 10 ds 0 : Int)) = value at h
  split_ifs at h with hwide hword
  · exact Except.ok.inj h ▸ fun _ => hword
  · exact Except.ok.inj h ▸ trivial
  · exact Except.ok.inj h ▸ fun htrue => absurd htrue hwide

theorem yields_decimal {negative : Bool} {ds : List Char} {e : Int} {v : Json}
    (h : decimal d negative ds e = .ok v) : v.Throughout d.Yields := by
  simp only [decimal] at h
  split_ifs at h
  exact Except.ok.inj h ▸ trivial

theorem yields_readUnsigned {negative : Bool} {cs r : List Char} {v : Json}
    (h : readUnsigned d negative cs = .ok (v, r)) : v.Throughout d.Yields := by
  unfold readUnsigned at h
  split at h
  · cases h
  · split_ifs at h
    split at h
    · cases h
    · split at h
      · cases h
      · split at h
        · exact yields_integer (before_eq_ok.mp h).1
        · exact yields_decimal (before_eq_ok.mp h).1
      · exact yields_decimal (before_eq_ok.mp h).1

theorem yields_readNumber {cs r : List Char} {v : Json} (h : readNumber d cs = .ok (v, r)) :
    v.Throughout d.Yields := by
  unfold readNumber at h
  split at h
  · split at h
    · exact (Prod.mk.inj (Except.ok.inj h)).1 ▸ trivial
    · exact yields_readUnsigned h
  · exact yields_readUnsigned h

/-! ## Objects -/

section Objects

variable {p : Json → Prop}

theorem ThroughoutFields.put {key : String} {v : Json} {fields : Fields} (hv : v.Throughout p)
    (h : ThroughoutFields p fields) : ThroughoutFields p (Fields.put key v fields) := by
  induction fields with
  | nil => exact ⟨hv, trivial⟩
  | cons field rest ih =>
    rw [Fields.put]
    split_ifs
    · exact ⟨hv, h.2⟩
    · exact ⟨h.1, ih h.2⟩

theorem ThroughoutFields.merge {base update : Fields} (hbase : ThroughoutFields p base)
    (hupdate : ThroughoutFields p update) : ThroughoutFields p (base.merge update) := by
  induction update generalizing base with
  | nil => exact hbase
  | cons field rest ih => exact ih (hbase.put hupdate.1) hupdate.2

theorem ThroughoutFields.ofPairs {pairs : Fields} (h : ThroughoutFields p pairs) :
    ThroughoutFields p (Fields.ofPairs pairs) :=
  ThroughoutFields.merge trivial h

end Objects

/-! ## Values -/

theorem yields_readWord {word : String} {value v : Json} {cs r : List Char}
    (h : readWord word value cs = .ok (v, r)) (hvalue : value.Throughout d.Yields) :
    v.Throughout d.Yields :=
  (length_of_readWord h).1 ▸ hvalue

mutual
theorem yields_readValue (d : Dialect) : ∀ (fuel : Nat) {cs r : List Char} {v : Json},
    readValue d fuel cs = .ok (v, r) → v.Throughout d.Yields
  | 0, cs, r, v, h => by simp [readValue] at h
  | fuel + 1, cs, r, v, h => by
    rw [readValue] at h
    split at h
    · cases h
    · split at h
      · cases h
        exact ⟨List.nodup_nil, trivial⟩
      · obtain ⟨fs, hfields, rfl⟩ := Reading.map_eq_ok.mp h
        exact ⟨Fields.nodup_merge fs List.nodup_nil, (yields_readFields d fuel hfields).ofPairs⟩
    · split at h
      · cases h
        exact ⟨trivial, trivial⟩
      · obtain ⟨vs, hitems, rfl⟩ := Reading.map_eq_ok.mp h
        exact ⟨trivial, yields_readItems d fuel hitems⟩
    · obtain ⟨s, -, rfl⟩ := Reading.map_eq_ok.mp h
      trivial
    · exact yields_readWord h trivial
    · exact yields_readWord h trivial
    · exact yields_readWord h trivial
    · split_ifs at h
      exact yields_readWord h trivial
    · split_ifs at h
      exact yields_readWord h trivial
    · exact yields_readNumber h

theorem yields_readItems (d : Dialect) : ∀ (fuel : Nat) {cs r : List Char} {vs : List Json},
    readItems d fuel cs = .ok (vs, r) → ThroughoutItems d.Yields vs
  | 0, cs, r, vs, h => by simp [readItems] at h
  | fuel + 1, cs, r, vs, h => by
    rw [readItems] at h
    split at h
    · cases h
    · next hvalue =>
      have hv := yields_readValue d fuel hvalue
      split at h
      · obtain ⟨vs', hitems, rfl⟩ := Reading.map_eq_ok.mp h
        exact ⟨hv, yields_readItems d fuel hitems⟩
      · cases h
        exact ⟨hv, trivial⟩
      · cases h

theorem yields_readFields (d : Dialect) : ∀ (fuel : Nat) {cs r : List Char}
    {fs : List (String × Json)}, readFields d fuel cs = .ok (fs, r) →
      ThroughoutFields d.Yields fs
  | 0, cs, r, fs, h => by simp [readFields] at h
  | fuel + 1, cs, r, fs, h => by
    rw [readFields] at h
    split at h
    · split at h
      · cases h
      · split at h
        · split at h
          · cases h
          · next hvalue =>
            have hv := yields_readValue d fuel hvalue
            split at h
            · obtain ⟨fs', hfields, rfl⟩ := Reading.map_eq_ok.mp h
              exact ⟨hv, yields_readFields d fuel hfields⟩
            · cases h
              exact ⟨hv, trivial⟩
            · cases h
        · cases h
    · cases h
end

theorem throughout_of_read {cs : List Char} {v : Json} (h : read d cs = .ok v) :
    v.Throughout d.Yields := by
  unfold read at h
  split at h
  · next hvalue =>
    split_ifs at h
    exact Except.ok.inj h ▸ yields_readValue d _ hvalue
  · cases h

/-! ## Wide integers -/

/-- A single value that is no wide integer. -/
def Narrow (v : Json) : Prop := isWide v = false

mutual
theorem narrow_of_anyLeaf : ∀ {v : Json}, v.anyLeaf isWide = false → v.Throughout Narrow
  | .arr _, h => ⟨rfl, narrow_of_anyLeafItems h⟩
  | .obj _, h => ⟨rfl, narrow_of_anyLeafFields h⟩
  | .null, h => h
  | .bool _, h => h
  | .int _, h => h
  | .real _, h => h
  | .str _, h => h
  | .handler _, h => h

theorem narrow_of_anyLeafItems :
    ∀ {vs : List Json}, anyLeafItems isWide vs = false → ThroughoutItems Narrow vs
  | [], _ => trivial
  | _ :: _, h =>
    have ⟨hv, hvs⟩ := Bool.or_eq_false_iff.mp h
    ⟨narrow_of_anyLeaf hv, narrow_of_anyLeafItems hvs⟩

theorem narrow_of_anyLeafFields :
    ∀ {fs : List (String × Json)}, anyLeafFields isWide fs = false → ThroughoutFields Narrow fs
  | [], _ => trivial
  | (_, _) :: _, h =>
    have ⟨hv, hfs⟩ := Bool.or_eq_false_iff.mp h
    ⟨narrow_of_anyLeaf hv, narrow_of_anyLeafFields hfs⟩
end

/-- No integer in a value is wide exactly if it is narrow throughout. -/
theorem anyLeaf_isWide_iff {v : Json} : v.anyLeaf isWide = false ↔ v.Throughout Narrow :=
  ⟨narrow_of_anyLeaf, anyLeaf_eq_false⟩

theorem narrow_of_read {cs : List Char} {v : Json} (h : read .strict cs = .ok v) :
    v.Throughout Narrow := by
  refine (throughout_of_read h).mono fun w hw => ?_
  cases w with
  | int n => simpa [Narrow, isWide] using hw rfl
  | _ => rfl

/-- A value that is kept where integers keep their value is kept by the strict dialect
    exactly if it is narrow throughout. -/
theorem Kept.strict_iff {v : Json} (h : v.Kept .exact) : v.Kept .strict ↔ v.Throughout Narrow := by
  constructor
  · refine fun hstrict => hstrict.mono fun w hw => ?_
    cases w with
    | int n => simpa [Narrow, isWide, Dialect.Keeps, Dialect.KeepsInt, Dialect.strict] using hw
    | _ => rfl
  · refine fun hnarrow => (h.and hnarrow).mono fun w hw => ?_
    cases w with
    | int n => simpa [Narrow, isWide, Dialect.Keeps, Dialect.KeepsInt, Dialect.strict] using hw.2
    | _ => exact hw.1

end ViewTree.Json
