import ViewTree.Proofs.Json.Bytes
import ViewTree.Proofs.Payload.Walk

/-
  ViewTree.Proofs.Payload.Size — what the limit on the size of a payload bounds.

  The limit is named in bytes, and an issue reports bytes. What is compared with it is the
  number of characters of the compact text, though, and a text that is written as it is
  takes more bytes than characters where it leaves ASCII. So the limit admits that surplus
  on top of itself (`check_eq_ok_iff`).

  It bounds the bytes of a value, whatever the limit, exactly if there is no surplus: all
  texts and keys are ASCII, or there is a handler, beside which all other characters are
  escaped (`bytes_bounded_iff`). `umlauts_beyond_the_limit` is a short text that is admitted
  with two bytes more than the limit.
-/

namespace ViewTree.Payload

open Json Text

theorem check_eq_ok_iff {maxSize : Int} {maxDepth : Nat} {name : String} {v : Json} :
    check maxSize maxDepth name v = .ok () ↔
      v.height ≤ maxDepth ∧ ((v.encode 0).utf8ByteSize : Int) ≤ maxSize + v.surplus := by
  have hsize : checkSize maxSize name v = .ok () ↔
      ((v.encode 0).utf8ByteSize : Int) ≤ maxSize + v.surplus := by
    rw [utf8ByteSize_encode, checkSize]
    split_ifs with hlarge
    · exact iff_of_false (fun hok => by cases hok) (by omega)
    · exact iff_of_true rfl (by omega)
  rw [← checkDepth_eq_ok_iff, ← hsize, check]
  cases checkDepth maxDepth v <;> simp

/-- Where there is a surplus, the number of characters is a limit that it exceeds. -/
theorem exists_limit_exceeded {v : Json} (h : v.surplus ≠ 0) :
    ∃ maxSize maxDepth : Int, 0 < maxSize ∧ 0 < maxDepth ∧
      check maxSize maxDepth defaultName v = .ok () ∧
      maxSize < ((v.encode 0).utf8ByteSize : Int) := by
  have hwritten : (v.encodeChars 0).length ≠ 0 := by
    intro hnil
    rw [List.length_eq_zero_iff] at hnil
    rw [← surplus_encodeChars, hnil] at h
    exact h rfl
  have hbytes := utf8ByteSize_encode v
  refine ⟨(v.encodeChars 0).length, (v.height + 1 : Nat), by omega, by omega, ?_, by omega⟩
  exact check_eq_ok_iff.mpr ⟨by omega, by omega⟩

/-- A value is admitted exactly if it is no deeper than the limit and its text takes no more
    bytes than the limit and the surplus of its texts together. The limit bounds the bytes of
    the text, however the limits are set, exactly if there is a handler or the texts and keys
    of the value are ASCII. -/
theorem bytes_bounded_iff (v : Json) :
    (∀ (maxSize maxDepth : Int) (name : String), 0 < maxSize → 0 < maxDepth →
      (check maxSize maxDepth name v = .ok () ↔
        (v.height : Int) ≤ maxDepth ∧
          ((v.encode 0).utf8ByteSize : Int) ≤ maxSize + v.surplus)) ∧
      ((∀ (maxSize maxDepth : Int) (name : String), 0 < maxSize → 0 < maxDepth →
          check maxSize maxDepth name v = .ok () → ((v.encode 0).utf8ByteSize : Int) ≤ maxSize) ↔
        v.anyLeaf isHandler = true ∨ ∀ t ∈ v.texts, Ascii t.toList) := by
  have hadmits : ∀ (maxSize maxDepth : Int) (name : String), 0 < maxSize → 0 < maxDepth →
      (check maxSize maxDepth name v = .ok () ↔ (v.height : Int) ≤ maxDepth ∧
        ((v.encode 0).utf8ByteSize : Int) ≤ maxSize + v.surplus) := by
    intro maxSize maxDepth name _ hdepth
    obtain ⟨limit, rfl⟩ := Int.eq_ofNat_of_zero_le (Int.le_of_lt hdepth)
    rw [check_eq_ok_iff, Int.ofNat_le]
  refine ⟨hadmits, ?_⟩
  rw [← Json.surplus_eq_zero_iff]
  constructor
  · intro hbounds
    by_contra hsurplus
    obtain ⟨maxSize, maxDepth, hsize, hdepth, hok, hexceeds⟩ := exists_limit_exceeded hsurplus
    have hle := hbounds maxSize maxDepth defaultName hsize hdepth hok
    omega
  · intro hsurplus maxSize maxDepth name hsize hdepth hok
    obtain ⟨-, hle⟩ := (hadmits maxSize maxDepth name hsize hdepth).mp hok
    omega

/-- Beside a handler umlauts are escaped, and the limit bounds the bytes. -/
theorem escaped_umlauts_within_the_limit :
    let v : Json := .obj [("text", .str "Größe"),
      ("press", .handler ⟨0, "press", "CallableHandler", true, false, false, false⟩)]
    (0 : Int) < 55 ∧ (0 : Int) < 1 ∧ check 55 1 "Schema" v = .ok () ∧
      ((v.encode 0).utf8ByteSize : Int) ≤ 55 := by
  intro v
  have hbytes : (v.encode 0).utf8ByteSize = 55 := by
    rw [utf8ByteSize_encode]
    decide +kernel
  obtain ⟨hadmits, hbounds⟩ := bytes_bounded_iff v
  have hok : check 55 1 "Schema" v = .ok () :=
    (hadmits 55 1 "Schema" (by decide) (by decide)).mpr ⟨by decide, by omega⟩
  exact ⟨by decide, by decide, hok,
    hbounds.mpr (.inl rfl) 55 1 "Schema" (by decide) (by decide) hok⟩

/-- A text of sixteen characters that takes eighteen bytes is admitted by a limit of sixteen. -/
theorem umlauts_beyond_the_limit :
    let v : Json := .obj [("text", .str "Größe")]
    check 16 64 "Schema" v = .ok () ∧ (v.encode 0).utf8ByteSize = 18 ∧
      ¬ ∀ (payload : Json) (maxSize maxDepth : Int) (name : String), 0 < maxSize → 0 < maxDepth →
        check maxSize maxDepth name payload = .ok () →
          ((payload.encode 0).utf8ByteSize : Int) ≤ maxSize := by
  intro v
  have hbytes : (v.encode 0).utf8ByteSize = 18 := by
    rw [utf8ByteSize_encode]
    decide +kernel
  have hok : check 16 64 "Schema" v = .ok () := by
    refine check_eq_ok_iff.mpr ⟨by decide, ?_⟩
    rw [hbytes]
    decide +kernel
  refine ⟨hok, hbytes, fun hbounds => ?_⟩
  have hle := hbounds v 16 64 "Schema" (by decide) (by decide) hok
  omega

end ViewTree.Payload
