import ViewTree.Proofs.Json.Extent

/-
  ViewTree.Proofs.Json.Consumed — no value is spelled in fewer characters than its
  compact text.

  A reader that gives a value has consumed at least the extent of the value
  (`extent_le_of_read`), whatever signs, zeros, escapes, blanks or repeated keys the text
  used: an escape stands for one character and is no shorter than the escape the compact
  text would need, digits spell no number that takes more of them, and of several fields
  with one key a single one is kept. The lemmas follow the reader, one for each of its
  functions.
-/

namespace ViewTree.Json

/-! ## Numbers -/

theorem length_skipSpace_le (cs : List Char) : (skipSpace cs).length ≤ cs.length :=
  (List.dropWhile_sublist _).length_le

theorem Reading.map_eq_ok {α β : Type} {f : α → β} {x : Reading α} {b : β} {r : List Char} :
    x.map f = .ok (b, r) ↔ ∃ a, x = .ok (a, r) ∧ f a = b := by
  rcases x with flaw | ⟨a, r'⟩ <;> simp [Reading.map, and_comm]

theorem ofDigitChars_lt {ds : List Char} (h : ∀ c ∈ ds, c.isDigit = true) :
    Nat.ofDigitChars 10 ds 0 < tenTo ds.length := by
  induction ds with
  | nil => exact tenTo_pos 0
  | cons c ds ih =>
    have hc : c.toNat - '0'.toNat ≤ 9 := by
      have := h c List.mem_cons_self
      simp only [Char.isDigit, Bool.and_eq_true, decide_eq_true_eq, UInt32.le_iff_toNat_le] at this
      have hnine : '9'.val.toNat = 57 := rfl
      have hzero : '0'.toNat = 48 := rfl
      have : c.toNat = c.val.toNat := rfl
      omega
    have hds := ih fun d hd => h d (List.mem_cons_of_mem _ hd)
    rw [Nat.ofDigitChars_cons, Nat.ofDigitChars_eq_ofDigitChars_zero, List.length_cons, tenTo_succ]
    show tenTo ds.length * (10 * 0 + (c.toNat - '0'.toNat)) + Nat.ofDigitChars 10 ds 0 < _
    have hle : tenTo ds.length * (10 * 0 + (c.toNat - '0'.toNat)) ≤ tenTo ds.length * 9 :=
      Nat.mul_le_mul_left _ (by omega)
    omega

/-- No digits spell a number that takes more of them. -/
theorem length_toDigits_le {ds : List Char} (hne : ds ≠ []) (h : ∀ c ∈ ds, c.isDigit = true) :
    (Nat.toDigits 10 (Nat.ofDigitChars 10 ds 0)).length ≤ ds.length :=
  (Nat.length_toDigits_le_iff (by decide) (List.length_pos_of_ne_nil hne)).mpr (ofDigitChars_lt h)

theorem length_intDigits_neg (n : Nat) :
    (intDigits (-(n : Int))).length ≤ (Nat.toDigits 10 n).length + 1 := by
  cases n with
  | zero => simp [intDigits]
  | succ n => exact Nat.le_refl _

theorem extent_integer {d : Dialect} {negative : Bool} {ds : List Char} {v : Json}
    (hne : ds ≠ []) (hds : ∀ c ∈ ds, c.isDigit = true) (h : integer d negative ds = .ok v) :
    extent v ≤ ds.length + (if negative then 1 else 0) := by
  have hdigits := length_toDigits_le hne hds
  have hint : extent (.int (if negative then -(Nat.ofDigitChars 10 ds 0 : Int)
      else (Nat.ofDigitChars 10 ds 0 : Int))) ≤ ds.length + (if negative then 1 else 0) := by
    cases negative with
    | true =>
      have := length_intDigits_neg (Nat.ofDigitChars 10 ds 0)
      simp only [extent, if_true]
      omega
    | false => exact hdigits
  simp only [integer] at h
  generalize (if negative then -(Nat.ofDigitChars 10 ds 0 : Int)
    else (Nat.ofDigitChars 10 ds 0 : Int)) = value at h hint
  split_ifs at h
  · exact Except.ok.inj h ▸ hint
  · exact Except.ok.inj h ▸ Nat.zero_le _
  · exact Except.ok.inj h ▸ hint

theorem extent_decimal {d : Dialect} {negative : Bool} {ds : List Char} {e : Int} {v : Json}
    (h : decimal d negative ds e = .ok v) : extent v = 0 := by
  simp only [decimal] at h
  split_ifs at h
  obtain rfl := Except.ok.inj h
  rfl

theorem before_eq_ok {r r' : List Char} {x : Except Flaw Json} {v : Json} :
    before r x = .ok (v, r') ↔ x = .ok v ∧ r = r' := by
  cases x <;> simp [before]

theorem length_of_spanDigits {cs ds r : List Char} (h : spanDigits cs = (ds, r)) :
    ds.length + r.length = cs.length := by
  obtain ⟨rfl, rfl⟩ := Prod.ext_iff.mp h
  rw [← List.length_append, spanDigits, List.takeWhile_append_dropWhile]

theorem isDigit_of_spanDigits {cs ds r : List Char} (h : spanDigits cs = (ds, r)) {c : Char}
    (hc : c ∈ ds) : c.isDigit = true := by
  obtain ⟨rfl, -⟩ := Prod.ext_iff.mp h
  exact List.all_eq_true.mp List.all_takeWhile c hc

theorem length_readFraction {cs r : List Char} {fraction : Option (List Char)}
    (h : readFraction cs = some (fraction, r)) : r.length ≤ cs.length := by
  unfold readFraction at h
  split at h
  · split at h
    · cases h
    · next hspan =>
      have := length_of_spanDigits hspan
      cases h
      simp only [List.length_cons]
      omega
  · cases h
    exact Nat.le_refl _

theorem length_readSign (cs : List Char) : (readSign cs).2.length ≤ cs.length := by
  unfold readSign
  split <;> simp

theorem length_readExponent {cs r : List Char} {e : Option Int}
    (h : readExponent cs = some (e, r)) : r.length ≤ cs.length := by
  unfold readExponent at h
  split at h
  · cases h
    exact Nat.le_refl _
  · next c cs' =>
    have hsign := length_readSign cs'
    split_ifs at h
    · simp only at h
      split at h
      · cases h
      · next hspan =>
        have := length_of_spanDigits hspan
        cases h
        simp only [List.length_cons]
        omega
    · cases h
      exact Nat.le_refl _

theorem extent_le_of_readUnsigned {d : Dialect} {negative : Bool} {cs r : List Char} {v : Json}
    (h : readUnsigned d negative cs = .ok (v, r)) :
    extent v + r.length ≤ cs.length + (if negative then 1 else 0) := by
  unfold readUnsigned at h
  split at h
  · cases h
  · next whole rest hne hspan =>
    have hlength := length_of_spanDigits hspan
    have hdigits : ∀ c ∈ whole, c.isDigit = true := fun c hc => isDigit_of_spanDigits hspan hc
    split_ifs at h with hzero
    split at h
    · cases h
    · next fraction r₁ hfraction =>
      have h₁ := length_readFraction hfraction
      split at h
      · cases h
      · next r₂ hexponent =>
        have h₂ := length_readExponent hexponent
        split at h
        · obtain ⟨hv, rfl⟩ := before_eq_ok.mp h
          have := extent_integer (fun hnil => hne (by rw [hnil])) hdigits hv
          omega
        · obtain ⟨hv, rfl⟩ := before_eq_ok.mp h
          have := extent_decimal hv
          omega
      · next e r₂ hexponent =>
        have h₂ := length_readExponent hexponent
        obtain ⟨hv, rfl⟩ := before_eq_ok.mp h
        have := extent_decimal hv
        omega

theorem length_of_dropWord {word cs r : List Char} (h : dropWord word cs = some r) :
    word.length + r.length = cs.length := by
  unfold dropWord at h
  split_ifs at h with hprefix
  obtain ⟨t, rfl⟩ := List.isPrefixOf_iff_prefix.mp hprefix
  rw [List.drop_left] at h
  rw [← Option.some.inj h, List.length_append]

theorem length_of_readWord {word : String} {value v : Json} {cs r : List Char}
    (h : readWord word value cs = .ok (v, r)) :
    v = value ∧ word.toList.length + r.length = cs.length := by
  unfold readWord at h
  split at h
  · next r' hword =>
    obtain ⟨rfl, rfl⟩ := Prod.mk.inj (Except.ok.inj h)
    exact ⟨rfl, length_of_dropWord hword⟩
  · cases h

theorem extent_le_of_readWord {word : String} {value v : Json} {cs r : List Char}
    (hvalue : extent value ≤ word.toList.length + 1) (h : readWord word value cs = .ok (v, r)) :
    extent v + r.length ≤ cs.length + 1 := by
  obtain ⟨rfl, hword⟩ := length_of_readWord h
  omega

theorem extent_le_of_readNumber {d : Dialect} {cs r : List Char} {v : Json}
    (h : readNumber d cs = .ok (v, r)) : extent v + r.length ≤ cs.length := by
  unfold readNumber at h
  split at h
  · next cs' =>
    split at h
    · next hword =>
      have := length_of_dropWord hword
      obtain ⟨rfl, rfl⟩ := Prod.mk.inj (Except.ok.inj h)
      simp only [extent, List.length_cons]
      omega
    · simpa using extent_le_of_readUnsigned h
  · simpa using extent_le_of_readUnsigned h

/-! ## Texts -/

theorem length_escapeUnits_control {c : Char} (h : c.toNat < 0x20) :
    (escapeUnits c).length = 6 := by
  have hhex : (Nat.toDigits 16 c.toNat).length ≤ 4 :=
    (Nat.length_toDigits_le_iff (by decide) (by decide)).mpr (by omega)
  rw [escapeUnits, if_pos (by omega)]
  simp only [escapeUnit, Text.hex, List.length_cons, List.length_append, List.length_replicate]
  omega

theorem length_escapeChar (c : Char) : (escapeChar false c).length ≤ 6 := by
  unfold escapeChar
  split_ifs with h₁ h₂ h₃ h₄ h₅ h₆ h₇ h₈
  all_goals first
    | exact Nat.le_of_eq (length_escapeUnits_control (by simpa using h₈))
    | simp

theorem length_escapeChar_of_short {c e : Char} (h : shortEscape? c = some e) :
    (escapeChar false e).length ≤ 2 := by
  unfold shortEscape? at h
  split_ifs at h <;> cases h <;> decide

theorem length_escapeChar_of_plain {c : Char} (hquote : c ≠ '"')
    (h : ¬ (c.toNat < 0x20 || c = '\\') = true) : (escapeChar false c).length = 1 := by
  simp only [Bool.or_eq_true, decide_eq_true_eq, not_or] at h
  have hcontrol : ∀ d : Char, d.toNat < 0x20 → c ≠ d := by
    rintro d hd rfl
    exact h.1 hd
  simp [escapeChar, hquote, h.2, h.1, hcontrol '\n' (by decide), hcontrol '\r' (by decide),
    hcontrol '\t' (by decide), hcontrol '\x08' (by decide), hcontrol '\x0c' (by decide)]

/-- What was read of a text behind `acc`: at least its characters and a quote. -/
def ReadBehind (acc cs' r : List Char) (length : Nat) : Prop :=
  ∃ t, cs' = acc.reverse ++ t ∧ (escaped false t).length + 1 + r.length ≤ length

theorem ReadBehind.push {acc cs' r : List Char} {c : Char} {length : Nat}
    (h : ReadBehind (c :: acc) cs' r length) {n : Nat} (hc : (escapeChar false c).length ≤ n) :
    ReadBehind acc cs' r (length + n) := by
  obtain ⟨t, rfl, ht⟩ := h
  refine ⟨c :: t, by simp, ?_⟩
  rw [escaped_cons, List.length_append]
  omega

theorem readBehind_of_readText {acc cs cs' r : List Char} (h : readText acc cs = .ok (cs', r)) :
    ReadBehind acc cs' r cs.length := by
  fun_induction readText acc cs with
  | case1 | case3 | case4 | case6 | case7 | case8 | case10 | case12 => cases h
  | case2 =>
    cases h
    exact ⟨[], by simp, by simp; omega⟩
  | case5 acc a b c d m _ _ a' b' c' d' rest m' _ _ ih =>
    -- two units, one character
    have := (ih h).push (Nat.le_trans (length_escapeChar _) (by decide : 6 ≤ 12))
    simpa using this
  | case9 acc a b c d rest m _ _ _ ih => exact (ih h).push (length_escapeChar _)
  | case11 acc c rest _ e hshort ih => exact (ih h).push (length_escapeChar_of_short hshort)
  | case13 acc c rest hquote _ _ hplain ih =>
    exact (ih h).push (Nat.le_of_eq (length_escapeChar_of_plain hquote hplain))

theorem textExtent_le_of_readText {cs cs' r : List Char} (h : readText [] cs = .ok (cs', r)) :
    textExtent (String.ofList cs') + r.length ≤ cs.length + 1 := by
  obtain ⟨t, ht, hlength⟩ := readBehind_of_readText h
  obtain rfl : cs' = t := ht
  rw [textExtent, String.toList_ofList]
  omega

/-! ## Values -/

theorem extentFields_put (key : String) (v : Json) (fields : Fields) :
    extentFields (Fields.put key v fields) ≤
      extentFields fields + (textExtent key + 1 + extent v + 1) := by
  induction fields with
  | nil => simp [Fields.put, extentFields]
  | cons field rest ih =>
    obtain ⟨k, w⟩ := field
    rw [Fields.put]
    split_ifs with hk
    · simp only [extentFields, hk]
      omega
    · simp only [extentFields]
      omega

theorem extentFields_merge (base update : Fields) :
    extentFields (base.merge update) ≤ extentFields base + extentFields update := by
  induction update generalizing base with
  | nil => exact Nat.le_refl _
  | cons field rest ih =>
    obtain ⟨k, v⟩ := field
    have hput := extentFields_put k v base
    have hrest := ih (Fields.put k v base)
    rw [extentFields]
    exact Nat.le_trans hrest (by omega)

/-- Of fields with one key a single one is kept, so an object takes no more than them. -/
theorem extentFields_ofPairs (pairs : Fields) :
    extentFields (Fields.ofPairs pairs) ≤ extentFields pairs := by
  have hmerge := extentFields_merge [] pairs
  rwa [extentFields, Nat.zero_add] at hmerge

theorem one_le_extentItems {vs : List Json} (h : vs ≠ []) : 1 ≤ extentItems vs := by
  cases vs with
  | nil => exact absurd rfl h
  | cons v vs =>
    rw [extentItems]
    omega

theorem one_le_extentFields {fs : List (String × Json)} (h : fs ≠ []) : 1 ≤ extentFields fs := by
  cases fs with
  | nil => exact absurd rfl h
  | cons field fs =>
    rw [extentFields]
    omega

mutual
theorem extent_le_of_readValue (d : Dialect) : ∀ (fuel : Nat) {cs r : List Char} {v : Json},
    readValue d fuel cs = .ok (v, r) → extent v + r.length ≤ cs.length
  | 0, cs, r, v, h => by simp [readValue] at h
  | fuel + 1, cs, r, v, h => by
    have hskip := length_skipSpace_le cs
    rw [readValue] at h
    split at h
    · cases h
    · next r₁ hopen =>
      have hskip₁ := length_skipSpace_le r₁
      rw [hopen, List.length_cons] at hskip
      split at h
      · next hclose =>
        cases h
        rw [hclose, List.length_cons] at hskip₁
        simp only [extent, extentFields]
        omega
      · obtain ⟨fs, hfields, rfl⟩ := Reading.map_eq_ok.mp h
        obtain ⟨hne, hfs⟩ := extentFields_le_of_readFields d fuel hfields
        have hpairs := extentFields_ofPairs fs
        have hone := one_le_extentFields hne
        simp only [extent]
        omega
    · next r₁ hopen =>
      have hskip₁ := length_skipSpace_le r₁
      rw [hopen, List.length_cons] at hskip
      split at h
      · next hclose =>
        cases h
        rw [hclose, List.length_cons] at hskip₁
        simp only [extent, extentItems]
        omega
      · obtain ⟨vs, hitems, rfl⟩ := Reading.map_eq_ok.mp h
        obtain ⟨hne, hvs⟩ := extentItems_le_of_readItems d fuel hitems
        have hone := one_le_extentItems hne
        simp only [extent]
        omega
    · next r₁ hquote =>
      rw [hquote, List.length_cons] at hskip
      obtain ⟨s, htext, rfl⟩ := Reading.map_eq_ok.mp h
      have hs := textExtent_le_of_readText htext
      rw [extent]
      omega
    · next r₁ hhead =>
      rw [hhead, List.length_cons] at hskip
      exact Nat.le_trans (extent_le_of_readWord (by simp [extent]) h) hskip
    · next r₁ hhead =>
      rw [hhead, List.length_cons] at hskip
      exact Nat.le_trans (extent_le_of_readWord (by simp [extent]) h) hskip
    · next r₁ hhead =>
      rw [hhead, List.length_cons] at hskip
      exact Nat.le_trans (extent_le_of_readWord (by simp [extent]) h) hskip
    · next r₁ hhead =>
      rw [hhead, List.length_cons] at hskip
      split_ifs at h
      exact Nat.le_trans (extent_le_of_readWord (by simp [extent]) h) hskip
    · next r₁ hhead =>
      rw [hhead, List.length_cons] at hskip
      split_ifs at h
      exact Nat.le_trans (extent_le_of_readWord (by simp [extent]) h) hskip
    · exact Nat.le_trans (extent_le_of_readNumber h) hskip

theorem extentItems_le_of_readItems (d : Dialect) : ∀ (fuel : Nat) {cs r : List Char}
    {vs : List Json}, readItems d fuel cs = .ok (vs, r) →
      vs ≠ [] ∧ extentItems vs + r.length ≤ cs.length
  | 0, cs, r, vs, h => by simp [readItems] at h
  | fuel + 1, cs, r, vs, h => by
    rw [readItems] at h
    split at h
    · cases h
    · next v r' hvalue =>
      have hv := extent_le_of_readValue d fuel hvalue
      have hskip := length_skipSpace_le r'
      split at h
      · next hcomma =>
        obtain ⟨vs', hitems, rfl⟩ := Reading.map_eq_ok.mp h
        have hvs := (extentItems_le_of_readItems d fuel hitems).2
        rw [hcomma, List.length_cons] at hskip
        exact ⟨List.cons_ne_nil _ _, by rw [extentItems]; omega⟩
      · next hbracket =>
        cases h
        rw [hbracket, List.length_cons] at hskip
        exact ⟨List.cons_ne_nil _ _, by simp only [extentItems]; omega⟩
      · cases h

theorem extentFields_le_of_readFields (d : Dialect) : ∀ (fuel : Nat) {cs r : List Char}
    {fs : List (String × Json)}, readFields d fuel cs = .ok (fs, r) →
      fs ≠ [] ∧ extentFields fs + r.length ≤ cs.length
  | 0, cs, r, fs, h => by simp [readFields] at h
  | fuel + 1, cs, r, fs, h => by
    have hskip := length_skipSpace_le cs
    rw [readFields] at h
    split at h
    · next r₁ hquote =>
      rw [hquote, List.length_cons] at hskip
      split at h
      · cases h
      · next k r₂ hkey =>
        have hk := textExtent_le_of_readText hkey
        have hskip₂ := length_skipSpace_le r₂
        split at h
        · next r₃ hcolon =>
          rw [hcolon, List.length_cons] at hskip₂
          split at h
          · cases h
          · next v r₄ hvalue =>
            have hv := extent_le_of_readValue d fuel hvalue
            have hskip₄ := length_skipSpace_le r₄
            split at h
            · next hcomma =>
              obtain ⟨fs', hfields, rfl⟩ := Reading.map_eq_ok.mp h
              have hfs := (extentFields_le_of_readFields d fuel hfields).2
              rw [hcomma, List.length_cons] at hskip₄
              exact ⟨List.cons_ne_nil _ _, by simp only [extentFields]; omega⟩
            · next hbrace =>
              cases h
              rw [hbrace, List.length_cons] at hskip₄
              exact ⟨List.cons_ne_nil _ _, by simp only [extentFields]; omega⟩
            · cases h
        · cases h
    · cases h
end

/-- What a text is read as takes no more characters than the text has. -/
theorem extent_le_of_read {d : Dialect} {cs : List Char} {v : Json} (h : read d cs = .ok v) :
    extent v ≤ cs.length := by
  unfold read at h
  split at h
  · next hvalue =>
    split_ifs at h
    obtain rfl := Except.ok.inj h
    have := extent_le_of_readValue d _ hvalue
    omega
  · cases h

end ViewTree.Json
