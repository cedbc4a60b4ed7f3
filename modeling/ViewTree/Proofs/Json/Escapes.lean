import ViewTree.Proofs.Json.Extent

/-
  ViewTree.Proofs.Json.Escapes — a text that was written is read back.

  Every character is read back from its escape, in both classes of escapes
  (`readText_escapeChar`): a short escape by its table, a unit by its four hexadecimal
  digits, and a character beyond the basic plane from the two units that it was split
  into. Hence a written text is read back with the rest behind it (`readText_written`).
-/

namespace ViewTree.Json

/-! ## Units -/

theorem hexDigit?_digitChar {n : Nat} (h : n < 16) : hexDigit? (Nat.digitChar n) = some n := by
  have hall : ∀ m < 16, hexDigit? (Nat.digitChar m) = some m := by decide
  exact hall n h

/-- A unit has four digits, the first ones zero if need be. -/
theorem hex_four {n : Nat} (h : n < 0x10000) :
    Text.hex 4 n = [Nat.digitChar (n / 4096), Nat.digitChar (n / 256 % 16),
      Nat.digitChar (n / 16 % 16), Nat.digitChar (n % 16)] := by
  have hzero : Nat.digitChar 0 = '0' := rfl
  have hdiv₂ : n / 16 / 16 = n / 256 := Nat.div_div_eq_div_mul ..
  have hdiv₃ : n / 256 / 16 = n / 4096 := Nat.div_div_eq_div_mul ..
  rw [Text.hex]
  rcases Nat.lt_or_ge n 16 with h₁ | h₁
  · rw [Nat.toDigits_of_lt_base h₁, Nat.mod_eq_of_lt h₁, Nat.div_eq_of_lt h₁,
      Nat.div_eq_of_lt (by omega : n < 256), Nat.div_eq_of_lt (by omega : n < 4096)]
    rfl
  rw [Nat.toDigits_of_base_le (by decide) h₁]
  rcases Nat.lt_or_ge n 256 with h₂ | h₂
  · have hdigit : n / 16 < 16 := by omega
    rw [Nat.toDigits_of_lt_base hdigit, Nat.mod_eq_of_lt hdigit,
      Nat.div_eq_of_lt h₂, Nat.div_eq_of_lt (by omega : n < 4096)]
    rfl
  rw [Nat.toDigits_of_base_le (by decide) (by omega : 16 ≤ n / 16), hdiv₂]
  rcases Nat.lt_or_ge n 4096 with h₃ | h₃
  · have hdigit : n / 256 < 16 := by omega
    rw [Nat.toDigits_of_lt_base hdigit, Nat.mod_eq_of_lt hdigit, Nat.div_eq_of_lt h₃]
    rfl
  · have hdigit : n / 4096 < 16 := by omega
    rw [Nat.toDigits_of_base_le (by decide) (by omega : 16 ≤ n / 256), hdiv₃,
      Nat.toDigits_of_lt_base hdigit]
    rfl

theorem unit?_digits {n : Nat} (h : n < 0x10000) :
    unit? (Nat.digitChar (n / 4096)) (Nat.digitChar (n / 256 % 16))
      (Nat.digitChar (n / 16 % 16)) (Nat.digitChar (n % 16)) = some n := by
  rw [unit?, hexDigit?_digitChar (by omega), hexDigit?_digitChar (by omega),
    hexDigit?_digitChar (by omega), hexDigit?_digitChar (by omega)]
  exact congrArg some (by omega)

theorem toNat_valid (c : Char) :
    c.toNat < 0xd800 ∨ 0xdfff < c.toNat ∧ c.toNat < 0x110000 := c.valid

/-- The signs that the escape of a unit is made of. -/
def unitSigns : List Char := '\\' :: 'u' :: (List.range 16).map Nat.digitChar

theorem mem_escapeUnit {n : Nat} (h : n < 0x10000) {c : Char} (hc : c ∈ escapeUnit n) :
    c ∈ unitSigns := by
  have hdigit : ∀ {m}, m < 16 → Nat.digitChar m ∈ (List.range 16).map Nat.digitChar := fun hm =>
    List.mem_map_of_mem (List.mem_range.mpr hm)
  rw [escapeUnit, hex_four h] at hc
  simp only [List.mem_cons, List.not_mem_nil, or_false] at hc
  rw [unitSigns, List.mem_cons, List.mem_cons]
  rcases hc with rfl | rfl | rfl | rfl | rfl | rfl
  · exact .inl rfl
  · exact .inr (.inl rfl)
  all_goals exact .inr (.inr (hdigit (by omega)))

theorem mem_escapeUnits {c d : Char} (h : d ∈ escapeUnits c) : d ∈ unitSigns := by
  have hc := toNat_valid c
  rw [escapeUnits] at h
  split at h
  · exact mem_escapeUnit ‹_› h
  · rcases List.mem_append.mp h with hhigh | hlow
    · exact mem_escapeUnit (by omega) hhigh
    · exact mem_escapeUnit (by omega) hlow

theorem joinUnits_split {c : Char} (h : 0x10000 ≤ c.toNat) :
    joinUnits (0xd800 + (c.toNat - 0x10000) / 0x400) (0xdc00 + (c.toNat - 0x10000) % 0x400) = c := by
  have hjoin : 0x10000 + (0xd800 + (c.toNat - 0x10000) / 0x400 - 0xd800) * 0x400 +
      (0xdc00 + (c.toNat - 0x10000) % 0x400 - 0xdc00) = c.toNat := by omega
  rw [joinUnits, hjoin, Char.ofNat_toNat]

theorem isHighUnit_iff {n : Nat} : isHighUnit n = true ↔ 0xd800 ≤ n ∧ n < 0xdc00 := by
  simp [isHighUnit]

theorem isLowUnit_iff {n : Nat} : isLowUnit n = true ↔ 0xdc00 ≤ n ∧ n < 0xe000 := by
  simp [isLowUnit]

/-- A character of the basic plane is read from its unit. -/
theorem readText_escapeUnit {c : Char} (h : c.toNat < 0x10000) (acc rest : List Char) :
    readText acc (escapeUnit c.toNat ++ rest) = readText (c :: acc) rest := by
  have hvalid := toNat_valid c
  have hhigh : ¬ isHighUnit c.toNat = true := by
    rw [isHighUnit_iff]
    omega
  have hlow : ¬ isLowUnit c.toNat = true := by
    rw [isLowUnit_iff]
    omega
  rw [escapeUnit, hex_four h]
  simp only [List.cons_append, List.nil_append]
  rw [readText, unit?_digits h]
  simp only [hhigh, hlow, Char.ofNat_toNat]
  rfl

/-- A character beyond the basic plane is read from its two units. -/
theorem readText_twoUnits {c : Char} (h : 0x10000 ≤ c.toNat) (acc rest : List Char) :
    readText acc (escapeUnit (0xd800 + (c.toNat - 0x10000) / 0x400) ++
      escapeUnit (0xdc00 + (c.toNat - 0x10000) % 0x400) ++ rest) = readText (c :: acc) rest := by
  have hvalid := toNat_valid c
  have hsplit := joinUnits_split h
  generalize hm : 0xd800 + (c.toNat - 0x10000) / 0x400 = m at hsplit ⊢
  generalize hn : 0xdc00 + (c.toNat - 0x10000) % 0x400 = n at hsplit ⊢
  have hhigh : isHighUnit m = true := by
    rw [isHighUnit_iff]
    omega
  have hlow : isLowUnit n = true := by
    rw [isLowUnit_iff]
    omega
  rw [escapeUnit, escapeUnit, hex_four (by omega), hex_four (by omega)]
  simp only [List.cons_append, List.nil_append]
  rw [readText, unit?_digits (by omega)]
  simp only [hhigh, if_true]
  rw [unit?_digits (by omega)]
  simp only [hlow, if_true, hsplit]

/-! ## Characters and texts -/

theorem readText_escapeUnits (c : Char) (acc rest : List Char) :
    readText acc (escapeUnits c ++ rest) = readText (c :: acc) rest := by
  rw [escapeUnits]
  split_ifs with h
  · exact readText_escapeUnit h acc rest
  · exact readText_twoUnits (Nat.le_of_not_lt h) acc rest

theorem readText_plain {c : Char} (hquote : c ≠ '"') (hslash : c ≠ '\\')
    (hcontrol : 0x20 ≤ c.toNat) (acc rest : List Char) :
    readText acc (c :: rest) = readText (c :: acc) rest := by
  rw [readText]
  · rw [if_neg]
    simp only [Bool.or_eq_true, decide_eq_true_eq, not_or]
    exact ⟨Nat.not_lt.mpr hcontrol, hslash⟩
  · exact hquote
  · exact fun _ _ _ _ _ h _ => hslash h
  · exact fun _ _ h _ => hslash h

theorem readText_short {c e : Char} (hunit : c ≠ 'u') (hshort : shortEscape? c = some e)
    (acc rest : List Char) : readText acc ('\\' :: c :: rest) = readText (e :: acc) rest := by
  rw [readText]
  · rw [hshort]
  · exact fun _ _ _ _ _ h _ => hunit h

theorem readText_escapeChar (asciiOnly : Bool) (c : Char) (acc rest : List Char) :
    readText acc (escapeChar asciiOnly c ++ rest) = readText (c :: acc) rest := by
  rw [escapeChar]
  split_ifs with h₁ h₂ h₃ h₄ h₅ h₆ h₇ h₈
  · subst h₁
    exact readText_short (by decide) rfl acc rest
  · subst h₂
    exact readText_short (by decide) rfl acc rest
  · subst h₃
    exact readText_short (by decide) rfl acc rest
  · subst h₄
    exact readText_short (by decide) rfl acc rest
  · subst h₅
    exact readText_short (by decide) rfl acc rest
  · subst h₆
    exact readText_short (by decide) rfl acc rest
  · subst h₇
    exact readText_short (by decide) rfl acc rest
  · exact readText_escapeUnits c acc rest
  · refine readText_plain h₁ h₂ ?_ acc rest
    simp only [Bool.or_eq_true, decide_eq_true_eq, not_or] at h₈
    exact Nat.le_of_not_lt h₈.1

theorem readText_escaped (asciiOnly : Bool) (cs acc rest : List Char) :
    readText acc (escaped asciiOnly cs ++ '"' :: rest) = .ok (acc.reverse ++ cs, rest) := by
  induction cs generalizing acc with
  | nil => rw [escaped_nil, List.nil_append, readText, List.append_nil]
  | cons c cs ih =>
    rw [escaped_cons, List.append_assoc, readText_escapeChar, ih, List.reverse_cons,
      List.append_assoc]
    rfl

/-- A text is read back up to its closing quote. -/
theorem readText_written (asciiOnly : Bool) (s : String) (rest : List Char) :
    readText [] (escaped asciiOnly s.toList ++ '"' :: rest) = .ok (s.toList, rest) :=
  readText_escaped asciiOnly s.toList [] rest

end ViewTree.Json
