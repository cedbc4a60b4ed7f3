import ViewTree.Proofs.Patch.Arrival

/-
  ViewTree.Proofs.Patch.Numerals — the two notions of a position in a list.

  What a missing parent becomes is decided by the look of a segment: dashes and then digits
  (`looksLikeIndex_iff`). What position it denotes in a list that is there is decided by
  reading an integer: blanks, a sign, decimal digits of any script with single underscores
  between them and no more than may be, blanks (`toIndex?_isSome_iff`). The two part
  - where a list is made for a segment that no list takes: with more than one dash, a digit
    sign that is no decimal digit, or too many digits (`Unreadable`, `unreadable_iff`);
  - where an object is made for a segment that lists take: with blanks, a plus sign or
    underscores (`Overlooked`, `overlooked_iff`).

  `index_notions_agree_iff` is for every segment: the notions agree on all others; the first
  are those that an addition fails for in the very list that it has made for them; and the
  second, with the mark for the end of a list, are the property names that a list takes.
-/

namespace ViewTree.Patch

/-! ## Characters -/

section Characters

variable {c : Char}

theorem isDigit_of_isSome (h : (Text.decimalValue? c).isSome = true) : Text.isDigit c = true := by
  obtain ⟨n, hn⟩ := Option.isSome_iff_exists.mp h
  exact Text.isDigit_of_decimalValue? hn

/-- The blocks of decimal digits, the runs of other digits and those of blanks do not meet. -/
theorem not_isNumberBlank_of_isDigit (h : Text.isDigit c = true) :
    Text.isNumberBlank c = false := by
  have hzeros : ∀ r ∈ Text.blanks, ∀ z ∈ Text.decimalZeros, r.2 < z ∨ z + 10 ≤ r.1 := by decide
  have hothers : ∀ r ∈ Text.blanks, ∀ d ∈ Text.otherDigits, r.2 < d.1 ∨ d.2 < r.1 := by decide
  rw [Bool.eq_false_iff]
  intro hblank
  simp only [Text.isNumberBlank, Text.isBlank, Bool.and_eq_true, List.any_eq_true,
    decide_eq_true_eq] at hblank
  obtain ⟨⟨r, hr, hrange⟩, -⟩ := hblank
  simp only [Text.isDigit, Text.decimalValue?, Option.isSome_map, List.find?_isSome,
    Bool.or_eq_true, List.any_eq_true, Bool.and_eq_true, decide_eq_true_eq] at h
  rcases h with ⟨z, hz, hrange'⟩ | ⟨d, hd, hrange'⟩
  · have := hzeros r hr z hz
    omega
  · have := hothers r hr d hd
    omega

end Characters

/-! ## The look of a segment -/

section Look

variable {s : String} {n m : Nat} {ds es : List Char}

theorem dropWhile_dashes (n : Nat) (h : ∀ c ∈ ds, Text.isDigit c = true) :
    (List.replicate n '-' ++ ds).dropWhile (· == '-') = ds := by
  rw [List.dropWhile_append_of_pos (by simp)]
  cases ds with
  | nil => rfl
  | cons c rest =>
    refine List.dropWhile_cons_of_neg ?_
    rw [beq_iff_eq]
    rintro rfl
    exact absurd (h '-' List.mem_cons_self) (by decide)

/-- Dashes and the digits behind them are told apart. -/
theorem dashes_unique (hds : ∀ c ∈ ds, Text.isDigit c = true)
    (hes : ∀ c ∈ es, Text.isDigit c = true)
    (h : List.replicate n '-' ++ ds = List.replicate m '-' ++ es) : n = m ∧ ds = es := by
  have hsame : ds = es := by rw [← dropWhile_dashes n hds, h, dropWhile_dashes m hes]
  refine ⟨?_, hsame⟩
  have hlength := congrArg List.length h
  simp only [List.length_append, List.length_replicate, hsame] at hlength
  omega

theorem looksLikeIndex_iff : looksLikeIndex s = true ↔
    ∃ n ds, s.toList = List.replicate n '-' ++ ds ∧ ds ≠ [] ∧ ∀ c ∈ ds, Text.isDigit c = true := by
  simp only [looksLikeIndex, Bool.and_eq_true, Bool.not_eq_true', List.isEmpty_eq_false_iff,
    List.all_eq_true]
  constructor
  · rintro ⟨hrest, hdigits⟩
    have hdashes : s.toList.takeWhile (· == '-') =
        List.replicate (s.toList.takeWhile (· == '-')).length '-' := by
      refine List.eq_replicate_iff.mpr ⟨rfl, fun c hc => ?_⟩
      exact beq_iff_eq.mp (List.all_eq_true.mp List.all_takeWhile c hc)
    refine ⟨(s.toList.takeWhile (· == '-')).length, _, ?_, hrest, hdigits⟩
    rw [← hdashes, List.takeWhile_append_dropWhile]
  · rintro ⟨n, ds, hs, hds, hdigits⟩
    rw [hs, dropWhile_dashes n hdigits]
    exact ⟨hds, hdigits⟩

theorem mem_of_looksLikeIndex (h : looksLikeIndex s = true) {c : Char} (hc : c ∈ s.toList) :
    c = '-' ∨ Text.isDigit c = true := by
  obtain ⟨n, ds, hs, -, hdigits⟩ := looksLikeIndex_iff.mp h
  rw [hs, List.mem_append] at hc
  exact hc.imp List.eq_of_mem_replicate (hdigits c)

end Look

/-! ## Reading an integer -/

/-- Decimal digits of any script with single underscores between them, and their values. -/
inductive Spelled : List Char → List Nat → Prop
  | last {c : Char} {n : Nat} : Text.decimalValue? c = some n → Spelled [c] [n]
  | next {c : Char} {n : Nat} {cs : List Char} {ns : List Nat} :
      Text.decimalValue? c = some n → Spelled cs ns → Spelled (c :: cs) (n :: ns)
  | spaced {c : Char} {n : Nat} {cs : List Char} {ns : List Nat} :
      Text.decimalValue? c = some n → Spelled cs ns → Spelled (c :: '_' :: cs) (n :: ns)

section Digits

variable {cs : List Char} {ns : List Nat} {c : Char}

theorem Spelled.head (h : Spelled cs ns) :
    ∃ c rest, cs = c :: rest ∧ (Text.decimalValue? c).isSome = true := by
  cases h with
  | last hc => exact ⟨_, _, rfl, by rw [hc]; rfl⟩
  | next hc _ => exact ⟨_, _, rfl, by rw [hc]; rfl⟩
  | spaced hc _ => exact ⟨_, _, rfl, by rw [hc]; rfl⟩

theorem Spelled.getLast (h : Spelled cs ns) :
    ∃ front c, cs = front ++ [c] ∧ (Text.decimalValue? c).isSome = true := by
  induction h with
  | last hc => exact ⟨[], _, rfl, by rw [hc]; rfl⟩
  | next _ _ ih =>
    obtain ⟨front, d, rfl, hd⟩ := ih
    exact ⟨_ :: front, d, rfl, hd⟩
  | spaced _ _ ih =>
    obtain ⟨front, d, rfl, hd⟩ := ih
    exact ⟨_ :: '_' :: front, d, rfl, hd⟩

/-- Without underscores, every character is a digit. -/
theorem Spelled.plain (h : Spelled cs ns) (hplain : '_' ∉ cs) :
    (∀ c ∈ cs, (Text.decimalValue? c).isSome = true) ∧ ns.length = cs.length := by
  induction h with
  | last hc => simp [hc]
  | next hc _ ih =>
    obtain ⟨hdigits, hlength⟩ := ih fun hmem => hplain (List.mem_cons_of_mem _ hmem)
    simpa [hc, hlength] using hdigits
  | spaced _ _ _ => exact absurd (by simp) hplain

theorem spelled_of_digits (hcs : cs ≠ []) (h : ∀ c ∈ cs, (Text.decimalValue? c).isSome = true) :
    ∃ ns, Spelled cs ns ∧ ns.length = cs.length := by
  induction cs with
  | nil => exact absurd rfl hcs
  | cons c rest ih =>
    obtain ⟨n, hn⟩ := Option.isSome_iff_exists.mp (h c List.mem_cons_self)
    cases rest with
    | nil => exact ⟨[n], .last hn, rfl⟩
    | cons d more =>
      obtain ⟨ns, hns, hlength⟩ := ih (by simp) fun e he => h e (List.mem_cons_of_mem c he)
      exact ⟨n :: ns, .next hn hns, congrArg (· + 1) hlength⟩

theorem digitValues?_eq_some_iff : digitValues? cs = some ns ↔ Spelled cs ns := by
  constructor
  · intro h
    fun_induction digitValues? cs generalizing ns with
    | case1 => cases h
    | case2 c =>
      obtain ⟨n, hn, rfl⟩ := Option.map_eq_some_iff.mp h
      exact .last hn
    | case3 c r n ms hr hc ih =>
      cases h
      exact .spaced hc (ih hr)
    | case5 c r _ _ n ms hr hc ih =>
      cases h
      exact .next hc (ih hr)
    | case4 => cases h
    | case6 => cases h
  · intro h
    induction h with
    | last hc => simp [digitValues?, hc]
    | @next c n cs ns hc hcs ih =>
      obtain ⟨d, rest, rfl, hd⟩ := hcs.head
      have hnone : ∀ r, d :: rest = '_' :: r → False := by
        rintro r ⟨⟩
        exact absurd hd (by decide)
      rw [digitValues?.eq_4 c (d :: rest) (by simp) hnone, hc, ih]
    | spaced hc _ ih => simp [digitValues?, hc, ih]

theorem natIndex?_isSome_iff :
    (natIndex? cs).isSome = true ↔ ∃ ns, Spelled cs ns ∧ ns.length ≤ Text.maxDigits := by
  simp only [natIndex?, ← digitValues?_eq_some_iff]
  cases digitValues? cs with
  | none => simp
  | some ns => by_cases hle : ns.length ≤ Text.maxDigits <;> simp [hle]

end Digits

/-- A written integer: digits that are spelled out and not too many, a sign before them or
    none, and blanks around. -/
structure Written (s : String) (before sign cs after : List Char) : Prop where
  text : s.toList = before ++ (sign ++ cs) ++ after
  before_blank : ∀ c ∈ before, Text.isNumberBlank c = true
  after_blank : ∀ c ∈ after, Text.isNumberBlank c = true
  sign_eq : sign = [] ∨ sign = ['-'] ∨ sign = ['+']
  digits : ∃ ns, Spelled cs ns ∧ ns.length ≤ Text.maxDigits

section Trimming

variable {p : Char → Bool} {before core after : List Char}

/-- What trimming takes away at the two ends. -/
theorem exists_trimBy (p : Char → Bool) (cs : List Char) :
    ∃ before after, cs = before ++ Text.trimBy p cs ++ after ∧ (∀ c ∈ before, p c = true) ∧
      ∀ c ∈ after, p c = true := by
  have hends : ∀ l : List Char, ∀ c ∈ l.takeWhile p, p c = true := fun l =>
    List.all_eq_true.mp List.all_takeWhile
  refine ⟨cs.takeWhile p, ((cs.dropWhile p).reverse.takeWhile p).reverse, ?_, hends cs,
    fun c hc => hends _ c (List.mem_reverse.mp hc)⟩
  rw [List.append_assoc, Text.trimBy, ← List.reverse_append, List.takeWhile_append_dropWhile,
    List.reverse_reverse, List.takeWhile_append_dropWhile]

/-- Trimming takes away what stands around a text whose ends stay. -/
theorem trimBy_between (hbefore : ∀ c ∈ before, p c = true) (hafter : ∀ c ∈ after, p c = true)
    (hfirst : ∃ c rest, core = c :: rest ∧ p c = false)
    (hlast : ∃ front c, core = front ++ [c] ∧ p c = false) :
    Text.trimBy p (before ++ core ++ after) = core := by
  obtain ⟨c, rest, hc, hstay⟩ := hfirst
  obtain ⟨front, d, hd, hstay'⟩ := hlast
  have hleft : (before ++ core ++ after).dropWhile p = core ++ after := by
    rw [List.append_assoc, List.dropWhile_append_of_pos hbefore, hc, List.cons_append]
    exact List.dropWhile_cons_of_neg (by simp [hstay])
  have hright : (core ++ after).reverse.dropWhile p = core.reverse := by
    rw [List.reverse_append, List.dropWhile_append_of_pos
      (fun c hc => hafter c (List.mem_reverse.mp hc)), hd, List.reverse_append]
    exact List.dropWhile_cons_of_neg (by simp [hstay'])
  rw [Text.trimBy, hleft, hright, List.reverse_reverse]

end Trimming

section Integers

variable {s : String} {before sign cs after : List Char}

theorem isSome_ofNat (o : Option Nat) :
    (do let n ← o; pure (n : Int) : Option Int).isSome = o.isSome := by
  cases o <;> rfl

theorem Written.trimmed (h : Written s before sign cs after) :
    Text.trimBy Text.isNumberBlank s.toList = sign ++ cs := by
  obtain ⟨ns, hns, -⟩ := h.digits
  rw [h.text]
  refine trimBy_between h.before_blank h.after_blank ?_ ?_
  · obtain ⟨c, rest, rfl, hc⟩ := hns.head
    obtain rfl | rfl | rfl := h.sign_eq
    · exact ⟨c, rest, rfl, not_isNumberBlank_of_isDigit (isDigit_of_isSome hc)⟩
    · exact ⟨'-', c :: rest, rfl, by decide⟩
    · exact ⟨'+', c :: rest, rfl, by decide⟩
  · obtain ⟨front, c, rfl, hc⟩ := hns.getLast
    exact ⟨sign ++ front, c, (List.append_assoc ..).symm,
      not_isNumberBlank_of_isDigit (isDigit_of_isSome hc)⟩

/-- A segment denotes an integer exactly if it is a written one. -/
theorem toIndex?_isSome_iff :
    (toIndex? s).isSome = true ↔ ∃ before sign cs after, Written s before sign cs after := by
  constructor
  · intro h
    obtain ⟨before, after, htext, hbefore, hafter⟩ :=
      exists_trimBy Text.isNumberBlank s.toList
    unfold toIndex? at h
    split at h <;> rename_i heq <;>
      rw [Option.isSome_map, isSome_ofNat, natIndex?_isSome_iff] at h
    · exact ⟨before, ['-'], _, after, by rw [htext, heq]; rfl, hbefore, hafter, by simp, h⟩
    · exact ⟨before, ['+'], _, after, by rw [htext, heq]; rfl, hbefore, hafter, by simp, h⟩
    · exact ⟨before, [], _, after, by rw [List.nil_append, ← htext], hbefore, hafter, by simp, h⟩
  · rintro ⟨before, sign, cs, after, h⟩
    obtain ⟨ns, hns, hlength⟩ := h.digits
    have hnat : (natIndex? cs).isSome = true := natIndex?_isSome_iff.mpr ⟨ns, hns, hlength⟩
    unfold toIndex?
    rw [h.trimmed]
    obtain rfl | rfl | rfl := h.sign_eq
    · -- a digit is no sign
      obtain ⟨c, rest, rfl, hc⟩ := hns.head
      split <;> rename_i heq
      · cases heq
        exact absurd hc (by decide)
      · cases heq
        exact absurd hc (by decide)
      · rwa [Option.isSome_map, isSome_ofNat]
    · exact (Option.isSome_map ..).trans ((isSome_ofNat _).trans hnat)
    · exact (Option.isSome_map ..).trans ((isSome_ofNat _).trans hnat)

end Integers

/-! ## Where the notions part -/

/-- A segment with the look of a position that denotes none: with more than one dash, with a
    digit sign that is no decimal digit, or with too many digits. -/
def Unreadable (s : String) : Prop :=
  ∃ n ds, s.toList = List.replicate n '-' ++ ds ∧ ds ≠ [] ∧
    (∀ c ∈ ds, Text.isDigit c = true) ∧
    (2 ≤ n ∨ (∃ c ∈ ds, Text.decimalValue? c = none) ∨ Text.maxDigits < ds.length)

/-- A segment that denotes an integer without the look of one: with blanks around it, with a
    plus sign, or with underscores between its digits. -/
def Overlooked (s : String) : Prop :=
  ∃ before sign cs after, Written s before sign cs after ∧
    (before ≠ [] ∨ sign = ['+'] ∨ '_' ∈ cs ∨ after ≠ [])

section Parting

variable {s : String} {n : Nat} {before sign cs ds after : List Char}

/-- Of an integer that is written with the look of one, only digits and a dash are there. -/
theorem Written.of_looksLikeIndex (h : Written s before sign cs after)
    (hlooks : looksLikeIndex s = true) :
    before = [] ∧ sign ≠ ['+'] ∧ '_' ∉ cs ∧ after = [] := by
  have hnoBlanks : ∀ blanks : List Char, blanks ⊆ s.toList →
      (∀ c ∈ blanks, Text.isNumberBlank c = true) → blanks = [] := by
    intro blanks hmem hblank
    refine List.eq_nil_iff_forall_not_mem.mpr fun c hc => ?_
    have hnot : Text.isNumberBlank c = false := by
      obtain rfl | hdigit := mem_of_looksLikeIndex hlooks (hmem hc)
      · decide
      · exact not_isNumberBlank_of_isDigit hdigit
    rw [hblank c hc] at hnot
    cases hnot
  have htext := h.text
  refine ⟨hnoBlanks before ?_ h.before_blank, ?_, ?_, hnoBlanks after ?_ h.after_blank⟩
  · simp [htext]
  · rintro rfl
    exact absurd (mem_of_looksLikeIndex hlooks (c := '+') (by simp [htext])) (by decide)
  · intro hc
    exact absurd (mem_of_looksLikeIndex hlooks (c := '_') (by simp [htext, hc])) (by decide)
  · exact htext ▸ List.subset_append_right _ after

/-- A sign other than a plus is a dash or none. -/
theorem Written.dashes (h : Written s before sign cs after) (hplus : sign ≠ ['+']) :
    ∃ n ≤ 1, sign = List.replicate n '-' := by
  obtain rfl | rfl | rfl := h.sign_eq
  · exact ⟨0, by omega, rfl⟩
  · exact ⟨1, by omega, rfl⟩
  · exact absurd rfl hplus

/-- An integer that is written with the look of one is at most one dash and decimal digits. -/
theorem Written.decimals (h : Written s before sign cs after) (hlooks : looksLikeIndex s = true) :
    ∃ n ≤ 1, s.toList = List.replicate n '-' ++ cs ∧
      (∀ c ∈ cs, (Text.decimalValue? c).isSome = true) ∧ cs.length ≤ Text.maxDigits := by
  obtain ⟨rfl, hplus, hunderscore, rfl⟩ := h.of_looksLikeIndex hlooks
  obtain ⟨n, hn, rfl⟩ := h.dashes hplus
  obtain ⟨ns, hns, hlength⟩ := h.digits
  obtain ⟨hdecimal, hcount⟩ := hns.plain hunderscore
  refine ⟨n, hn, ?_, hdecimal, hcount ▸ hlength⟩
  rw [h.text, List.nil_append, List.append_nil]

theorem written_of_decimals (hs : s.toList = List.replicate n '-' ++ ds) (hn : n ≤ 1)
    (hds : ds ≠ []) (hdecimal : ∀ c ∈ ds, (Text.decimalValue? c).isSome = true)
    (hlength : ds.length ≤ Text.maxDigits) : Written s [] (List.replicate n '-') ds [] := by
  obtain ⟨ns, hns, hcount⟩ := spelled_of_digits hds hdecimal
  have hsign : List.replicate n '-' = [] ∨ List.replicate n '-' = ['-'] := by
    obtain rfl | rfl : n = 0 ∨ n = 1 := by omega
    · exact .inl rfl
    · exact .inr rfl
  exact { text := by rw [hs, List.nil_append, List.append_nil]
          before_blank := by simp
          after_blank := by simp
          sign_eq := hsign.imp_right .inl
          digits := ⟨ns, hns, hcount ▸ hlength⟩ }

theorem unreadable_iff : looksLikeIndex s = true ∧ toIndex? s = none ↔ Unreadable s := by
  constructor
  · rintro ⟨hlooks, hnone⟩
    obtain ⟨n, ds, hs, hds, hdigits⟩ := looksLikeIndex_iff.mp hlooks
    refine ⟨n, ds, hs, hds, hdigits, ?_⟩
    by_contra hplain
    simp only [not_or, not_exists, not_and, Nat.not_le, Nat.not_lt] at hplain
    obtain ⟨hn, hdecimal, hlength⟩ := hplain
    have hwritten : Written s [] (List.replicate n '-') ds [] :=
      written_of_decimals hs (by omega) hds
        (fun c hc => Option.isSome_iff_ne_none.mpr (hdecimal c hc)) hlength
    have hsome := toIndex?_isSome_iff.mpr ⟨_, _, _, _, hwritten⟩
    rw [hnone] at hsome
    cases hsome
  · rintro ⟨n, ds, hs, hds, hdigits, hpart⟩
    have hlooks : looksLikeIndex s = true := looksLikeIndex_iff.mpr ⟨n, ds, hs, hds, hdigits⟩
    refine ⟨hlooks, ?_⟩
    by_contra hsome
    obtain ⟨before, sign, cs, after, hwritten⟩ :=
      toIndex?_isSome_iff.mp (Option.isSome_iff_ne_none.mpr hsome)
    obtain ⟨m, hm, hs', hdecimal, hlength⟩ := hwritten.decimals hlooks
    obtain ⟨rfl, rfl⟩ := dashes_unique hdigits (fun c hc => isDigit_of_isSome (hdecimal c hc))
      (hs.symm.trans hs')
    obtain hdashes | ⟨c, hc, hnone⟩ | hmany := hpart
    · omega
    · exact absurd (hdecimal c hc) (by simp [hnone])
    · omega

theorem overlooked_iff :
    looksLikeIndex s = false ∧ (toIndex? s).isSome = true ↔ Overlooked s := by
  constructor
  · rintro ⟨hlooks, hsome⟩
    obtain ⟨before, sign, cs, after, hwritten⟩ := toIndex?_isSome_iff.mp hsome
    refine ⟨before, sign, cs, after, hwritten, ?_⟩
    by_contra hplain
    simp only [not_or, ne_eq, not_not] at hplain
    obtain ⟨rfl, hplus, hunderscore, rfl⟩ := hplain
    obtain ⟨n, -, rfl⟩ := hwritten.dashes hplus
    obtain ⟨ns, hns, -⟩ := hwritten.digits
    have hsome' : looksLikeIndex s = true := by
      refine looksLikeIndex_iff.mpr ⟨n, cs, ?_, ?_, fun c hc =>
        isDigit_of_isSome ((hns.plain hunderscore).1 c hc)⟩
      · rw [hwritten.text, List.nil_append, List.append_nil]
      · obtain ⟨c, rest, rfl, -⟩ := hns.head
        exact List.cons_ne_nil _ _
    rw [hlooks] at hsome'
    cases hsome'
  · rintro ⟨before, sign, cs, after, hwritten, hpart⟩
    refine ⟨?_, toIndex?_isSome_iff.mpr ⟨_, _, _, _, hwritten⟩⟩
    rw [Bool.eq_false_iff]
    intro hlooks
    obtain ⟨rfl, hplus, hunderscore, rfl⟩ := hwritten.of_looksLikeIndex hlooks
    simp [hplus, hunderscore] at hpart

end Parting

/-! ## Additions -/

section Additions

variable {doc c v : Json} {path s : String}

theorem freshParent_eq_obj_iff : freshParent s = .obj [] ↔ looksLikeIndex s = false := by
  cases h : looksLikeIndex s <;> simp [freshParent, h]

/-- A list refuses a segment that is no position of any list, the mark for its end apart. -/
theorem addMember_arr_badIndex_iff {items : List Json} :
    addMember path v s (.arr items) = .error (.fault (.badIndex s)) ↔
      s ≠ appendMark ∧ toIndex? s = none := by
  rw [addMember]
  split
  · rename_i hmark
    simp [hmark]
  · rename_i hmark
    cases hindex : toIndex? s with
    | none => simp [hmark]
    | some index => by_cases hfits : fitsSigned index = true <;> simp [hfits]

theorem looksLikeIndex_appendMark : looksLikeIndex appendMark = false := by decide

/-- What is made for a segment refuses it exactly if it is unreadable. -/
theorem addMember_freshParent_iff :
    addMember path v s (freshParent s) = .error (.fault (.badIndex s)) ↔ Unreadable s := by
  rw [← unreadable_iff]
  cases hlooks : looksLikeIndex s with
  | false => simp [freshParent, hlooks, addMember]
  | true =>
    have hmark : s ≠ appendMark := by
      rintro rfl
      simp [looksLikeIndex_appendMark] at hlooks
    simp [freshParent, hlooks, addMember_arr_badIndex_iff, hmark]

theorem add_error_iff {stop : Stop} (h : arrival (parsePath path) doc = some (c, s)) :
    (add doc path v).result = .error stop ↔ addMember path v s c = .error stop := by
  rw [add_of_ne_nil, addBelow_error_iff h]
  intro hnil
  rw [hnil] at h
  cases h

end Additions

/-- A segment has the look of a position exactly if it denotes one, unless it is unreadable or
    overlooked. An addition that arrives at the container made for its last segment fails for
    this segment exactly if it is unreadable. Of the segments that objects are made for, a list
    takes the overlooked ones and the mark for its end. -/
theorem index_notions_agree_iff (s : String) :
    ((looksLikeIndex s = true ↔ (toIndex? s).isSome = true) ↔ ¬ Unreadable s ∧ ¬ Overlooked s) ∧
      (∀ doc path v, arrival (parsePath path) doc = some (freshParent s, s) →
        ((add doc path v).result = .error (.fault (.badIndex s)) ↔ Unreadable s)) ∧
      (∀ doc path v items, arrival (parsePath path) doc = some (.arr items, s) →
        freshParent s = .obj [] →
        ((add doc path v).result ≠ .error (.fault (.badIndex s)) ↔
          Overlooked s ∨ s = appendMark)) := by
  refine ⟨?_, ?_, ?_⟩
  · rw [← unreadable_iff, ← overlooked_iff]
    cases looksLikeIndex s <;> cases toIndex? s <;> simp
  · intro doc path v harrival
    rw [add_error_iff harrival, addMember_freshParent_iff]
  · intro doc path v items harrival hfresh
    rw [ne_eq, add_error_iff harrival, addMember_arr_badIndex_iff, ← overlooked_iff,
      freshParent_eq_obj_iff.mp hfresh]
    cases toIndex? s <;> simp

/-- A superscript digit below two missing parents, and a number between blanks in a list. -/
theorem superscript_and_spaced_segments :
    let doc : Json := .obj [("rows", .arr [])]
    arrival (parsePath "/grid/cells/²") doc = some (freshParent "²", "²") ∧
      (add doc "/grid/cells/²" (.int 7)).result = .error (.fault (.badIndex "²")) ∧
      arrival (parsePath "/rows/ 1 ") doc = some (.arr [], " 1 ") ∧
      freshParent " 1 " = .obj [] ∧
      (add doc "/rows/ 1 " (.int 7)).result ≠ .error (.fault (.badIndex " 1 ")) := by
  intro doc
  have hmade : arrival (parsePath "/grid/cells/²") doc = some (freshParent "²", "²") := by
    decide +kernel
  have hlist : arrival (parsePath "/rows/ 1 ") doc = some (.arr [], " 1 ") := by decide +kernel
  have hobject : freshParent " 1 " = .obj [] := by decide +kernel
  have hunreadable : Unreadable "²" := unreadable_iff.mp (by decide +kernel)
  have hoverlooked : Overlooked " 1 " := overlooked_iff.mp (by decide +kernel)
  exact ⟨hmade, ((index_notions_agree_iff "²").2.1 _ _ _ hmade).mpr hunreadable, hlist, hobject,
    ((index_notions_agree_iff " 1 ").2.2 _ _ _ _ hlist hobject).mpr (.inl hoverlooked)⟩

/-- A list is made for two dashes and a digit, and does not take them; an object is made for a
    number between blanks, which is a position. -/
theorem dashed_number_opens_a_list :
    let doc : Json := .obj [("props", .obj [])]
    looksLikeIndex "--1" = true ∧ toIndex? "--1" = none ∧
      (add doc "/props/box/--1" (.int 1)).result = .error (.fault (.badIndex "--1")) ∧
      looksLikeIndex " 1 " = false ∧ toIndex? " 1 " = some 1 ∧
      ¬ ∀ s, looksLikeIndex s = true ↔ (toIndex? s).isSome = true := by
  intro doc
  have hlooks : looksLikeIndex "--1" = true := by decide +kernel
  have hnone : toIndex? "--1" = none := by decide +kernel
  refine ⟨hlooks, hnone, by decide +kernel, by decide +kernel, by decide +kernel, fun hagree => ?_⟩
  have hsome := (hagree "--1").mp hlooks
  rw [hnone] at hsome
  cases hsome

end ViewTree.Patch
