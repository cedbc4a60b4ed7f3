import ViewTree.Proofs.Json.Escapes

/-
  ViewTree.Proofs.Json.Roundtrip — a document that was written is read back.

  What a dialect keeps is read back from the text of any style, with nothing left over
  (`read_encodeChars`): from compact text, from text with blanks, and from text on lines
  of its own at any indentation.

  The reader is taken apart into rules first, one for each form of a value, of items and
  of fields: where a part reads so, the whole reads so (`readValue_list`, `readItems_more`
  and the others). Blanks in front never matter (`readValue_blanks`). A number ends only
  before certain characters, and no writer puts another one behind it (`EndsNumber`). The
  proof then follows the writer, with the extent of a value as the fuel it needs.
-/

namespace ViewTree.Json

variable {d : Dialect} {fuel : Nat}

/-! ## Blanks -/

def Blank (cs : List Char) : Prop := ∀ c ∈ cs, isSpace c = true

theorem Blank.append {cs cs' : List Char} (h : Blank cs) (h' : Blank cs') : Blank (cs ++ cs') :=
  fun c hc => (List.mem_append.mp hc).elim (h c) (h' c)

theorem blank_line (style : Style) (level : Nat) : Blank (style.line level) := by
  intro c hc
  rw [Style.line] at hc
  split at hc
  · cases hc
  · rcases List.mem_cons.mp hc with rfl | hc
    · decide
    · rw [List.eq_of_mem_replicate hc]
      decide

theorem skipSpace_blanks {blanks : List Char} (h : Blank blanks) (cs : List Char) :
    skipSpace (blanks ++ cs) = skipSpace cs :=
  List.dropWhile_append_of_pos h

theorem skipSpace_cons {c : Char} (h : isSpace c = false) (cs : List Char) :
    skipSpace (c :: cs) = c :: cs :=
  List.dropWhile_cons_of_neg (by simp [h])

theorem readValue_blanks {blanks : List Char} (h : Blank blanks) (fuel : Nat) (cs : List Char) :
    readValue d fuel (blanks ++ cs) = readValue d fuel cs := by
  cases fuel with
  | zero => rfl
  | succ fuel => rw [readValue, readValue, skipSpace_blanks h]

theorem readItems_blanks {blanks : List Char} (h : Blank blanks) (fuel : Nat) (cs : List Char) :
    readItems d fuel (blanks ++ cs) = readItems d fuel cs := by
  cases fuel with
  | zero => rfl
  | succ fuel => rw [readItems, readItems, readValue_blanks h]

theorem readFields_blanks {blanks : List Char} (h : Blank blanks) (fuel : Nat) (cs : List Char) :
    readFields d fuel (blanks ++ cs) = readFields d fuel cs := by
  cases fuel with
  | zero => rfl
  | succ fuel => rw [readFields, readFields, skipSpace_blanks h]

/-- The blanks in front of a text, and what is left without them. -/
theorem split_blanks (cs : List Char) : ∃ blanks, Blank blanks ∧ cs = blanks ++ skipSpace cs :=
  ⟨cs.takeWhile isSpace, List.all_eq_true.mp List.all_takeWhile,
    List.takeWhile_append_dropWhile.symm⟩

theorem readItems_skipSpace (fuel : Nat) (cs : List Char) :
    readItems d fuel (skipSpace cs) = readItems d fuel cs := by
  obtain ⟨blanks, hblanks, hcs⟩ := split_blanks cs
  rw [hcs, readItems_blanks hblanks, ← hcs]

theorem readFields_skipSpace (fuel : Nat) (cs : List Char) :
    readFields d fuel (skipSpace cs) = readFields d fuel cs := by
  obtain ⟨blanks, hblanks, hcs⟩ := split_blanks cs
  rw [hcs, readFields_blanks hblanks, ← hcs]

/-! ## Numbers -/

/-- What follows is no part of a number. -/
def EndsNumber (rest : List Char) : Prop :=
  ∀ c r, rest = c :: r → c.isDigit = false ∧ c ≠ '.' ∧ c ≠ 'e' ∧ c ≠ 'E'

theorem endsNumber_nil : EndsNumber [] := by
  intro c r h
  cases h

theorem endsNumber_cons {c : Char} (h : c.isDigit = false ∧ c ≠ '.' ∧ c ≠ 'e' ∧ c ≠ 'E')
    (r : List Char) : EndsNumber (c :: r) := by
  intro c' r' hcons
  cases hcons
  exact h

theorem endsNumber_blanks {blanks rest : List Char} (h : Blank blanks) (hrest : EndsNumber rest) :
    EndsNumber (blanks ++ rest) := by
  cases blanks with
  | nil => exact hrest
  | cons c blanks =>
    have hc : c = ' ' ∨ c = '\n' ∨ c = '\t' ∨ c = '\r' := by
      have := h c List.mem_cons_self
      simpa [isSpace, or_assoc] using this
    refine endsNumber_cons ?_ _
    rcases hc with rfl | rfl | rfl | rfl <;> decide

theorem head_toDigits_ne_zero {n : Nat} (h : n ≠ 0) : (Nat.toDigits 10 n).head? ≠ some '0' := by
  induction n using Nat.strongRecOn with
  | _ n ih =>
    rcases Nat.lt_or_ge n 10 with hlt | hge
    · rw [Nat.toDigits_of_lt_base hlt]
      have hdigit : ∀ m < 10, m ≠ 0 → Nat.digitChar m ≠ '0' := by decide
      simpa using hdigit n hlt h
    · rw [Nat.toDigits_of_base_le (by decide) hge,
        List.head?_append_of_ne_nil _ Nat.toDigits_ne_nil]
      exact ih (n / 10) (by omega) (by omega)

/-- Written digits have no zero in front of others. -/
theorem toDigits_no_leading_zero (n : Nat) :
    ((Nat.toDigits 10 n).head? = some '0' && decide (1 < (Nat.toDigits 10 n).length)) = false := by
  by_cases h : n = 0
  · subst h
    rfl
  · simp [head_toDigits_ne_zero h]

theorem spanDigits_toDigits (n : Nat) {rest : List Char} (hrest : EndsNumber rest) :
    spanDigits (Nat.toDigits 10 n ++ rest) = (Nat.toDigits 10 n, rest) := by
  have hdigits : ∀ c ∈ Nat.toDigits 10 n, c.isDigit = true := fun c hc =>
    Nat.isDigit_of_mem_toDigits (by decide) (by decide) hc
  rw [spanDigits, List.takeWhile_append_of_pos hdigits, List.dropWhile_append_of_pos hdigits]
  cases rest with
  | nil => simp
  | cons c r => simp [(hrest c r rfl).1]

theorem readFraction_none {rest : List Char} (hrest : EndsNumber rest) :
    readFraction rest = some (none, rest) := by
  unfold readFraction
  split
  · next r => exact absurd rfl (hrest '.' r rfl).2.1
  · rfl

theorem readExponent_none {rest : List Char} (hrest : EndsNumber rest) :
    readExponent rest = some (none, rest) := by
  cases rest with
  | nil => rfl
  | cons c r =>
    obtain ⟨-, -, hsmall, hcapital⟩ := hrest c r rfl
    simp [readExponent, hsmall, hcapital]

theorem readUnsigned_toDigits (negative : Bool) (n : Nat) {rest : List Char}
    (hrest : EndsNumber rest) :
    readUnsigned d negative (Nat.toDigits 10 n ++ rest) =
      before rest (integer d negative (Nat.toDigits 10 n)) := by
  unfold readUnsigned
  rw [spanDigits_toDigits n hrest]
  split
  · next hnil => exact absurd (Prod.mk.inj hnil).1 Nat.toDigits_ne_nil
  · next whole r _ hspan =>
    obtain ⟨rfl, rfl⟩ := Prod.mk.inj hspan
    rw [toDigits_no_leading_zero, if_neg Bool.false_ne_true, readFraction_none hrest]
    simp only
    rw [readExponent_none hrest]

/-- The digits of an integer that the dialect keeps denote it. -/
theorem integer_toDigits {negative : Bool} {n : Nat} {value : Int}
    (hvalue : (if negative then -(n : Int) else n) = value) (hkept : d.KeepsInt value) :
    integer d negative (Nat.toDigits 10 n) = .ok (.int value) := by
  have hdigits : Nat.ofDigitChars 10 (Nat.toDigits 10 n) 0 = n := Nat.ofDigitChars_ten_toDigits
  have habs : value.natAbs = n := by
    subst hvalue
    split <;> simp
  simp only [integer, hdigits, hvalue]
  rw [Dialect.KeepsInt, habs] at hkept
  by_cases hwide : d.wideAsDouble = true
  · rw [if_pos hwide] at hkept ⊢
    rw [if_pos hkept]
  · rw [if_neg hwide] at hkept ⊢
    rw [if_pos hkept]

theorem toDigits_cons (n : Nat) :
    ∃ c ds, Nat.toDigits 10 n = c :: ds ∧ c.isDigit = true := by
  cases h : Nat.toDigits 10 n with
  | nil => exact absurd h Nat.toDigits_ne_nil
  | cons c ds =>
    exact ⟨c, ds, rfl, Nat.isDigit_of_mem_toDigits (by decide) (by decide)
      (h ▸ List.mem_cons_self)⟩

theorem readNumber_intDigits {n : Int} (hn : d.KeepsInt n) {rest : List Char}
    (hrest : EndsNumber rest) : readNumber d (intDigits n ++ rest) = .ok (.int n, rest) := by
  cases n with
  | ofNat n =>
    obtain ⟨c, ds, hcons, hdigit⟩ := toDigits_cons n
    have hminus : c ≠ '-' := by
      rintro rfl
      exact absurd hdigit (by decide)
    have hnumber : readNumber d (Nat.toDigits 10 n ++ rest) =
        readUnsigned d false (Nat.toDigits 10 n ++ rest) := by
      rw [hcons, List.cons_append, readNumber]
      exact fun _ h => hminus (List.cons.inj h).1
    rw [intDigits, hnumber, readUnsigned_toDigits false n hrest, integer_toDigits rfl hn]
    rfl
  | negSucc n =>
    obtain ⟨c, ds, hcons, hdigit⟩ := toDigits_cons (n + 1)
    have hword : dropWord "Infinity".toList (Nat.toDigits 10 (n + 1) ++ rest) = none := by
      have hI : 'I' ≠ c := by
        rintro rfl
        exact absurd hdigit (by decide)
      rw [hcons]
      simp [dropWord, List.isPrefixOf, hI]
    rw [intDigits, List.cons_append, readNumber, hword]
    split
    · next hsome => cases hsome
    · have hvalue : (if true then -((n + 1 : Nat) : Int) else (n + 1 : Nat)) = Int.negSucc n :=
        if_pos rfl
      rw [readUnsigned_toDigits true (n + 1) hrest, integer_toDigits hvalue hn]
      rfl

theorem readValue_number {c : Char} (h : c.isDigit = true ∨ c = '-') (fuel : Nat)
    (r : List Char) : readValue d (fuel + 1) (c :: r) = readNumber d (c :: r) := by
  have hspace : isSpace c = false := by
    rcases h with h | rfl
    · rw [Bool.eq_false_iff]
      intro hspace
      have hblank : c = ' ' ∨ c = '\n' ∨ c = '\t' ∨ c = '\r' := by
        simpa [isSpace, or_assoc] using hspace
      rcases hblank with rfl | rfl | rfl | rfl <;> exact absurd h (by decide)
    · decide
  rw [readValue, skipSpace_cons hspace]
  split
  · next hnil => cases hnil
  · next hcons => cases hcons; exact absurd h (by decide)
  · next hcons => cases hcons; exact absurd h (by decide)
  · next hcons => cases hcons; exact absurd h (by decide)
  · next hcons => cases hcons; exact absurd h (by decide)
  · next hcons => cases hcons; exact absurd h (by decide)
  · next hcons => cases hcons; exact absurd h (by decide)
  · next hcons => cases hcons; exact absurd h (by decide)
  · next hcons => cases hcons; exact absurd h (by decide)
  · rfl

theorem readValue_int {n : Int} (hn : d.KeepsInt n) (fuel : Nat) {rest : List Char}
    (hrest : EndsNumber rest) :
    readValue d (fuel + 1) (intDigits n ++ rest) = .ok (.int n, rest) := by
  obtain ⟨c, r, hcons, hhead⟩ : ∃ c r, intDigits n = c :: r ∧ (c.isDigit = true ∨ c = '-') := by
    cases n with
    | ofNat n =>
      obtain ⟨c, ds, hcons, hdigit⟩ := toDigits_cons n
      exact ⟨c, ds, hcons, .inl hdigit⟩
    | negSucc n => exact ⟨_, _, rfl, .inr rfl⟩
  have hread := readNumber_intDigits hn hrest
  rw [hcons, List.cons_append] at hread ⊢
  rw [readValue_number hhead, hread]

/-! ## Rules of the reader -/

theorem readWord_append (word : String) (value : Json) (rest : List Char) :
    readWord word value (word.toList ++ rest) = .ok (value, rest) := by
  have hprefix : word.toList.isPrefixOf (word.toList ++ rest) = true :=
    List.isPrefixOf_iff_prefix.mpr (List.prefix_append ..)
  rw [readWord, dropWord, if_pos hprefix, List.drop_left]

theorem readValue_text (asciiOnly : Bool) (s : String) (fuel : Nat) (rest : List Char) :
    readValue d (fuel + 1) (writeText asciiOnly s.toList rest) = .ok (.str s, rest) := by
  rw [writeText_eq, readValue, skipSpace_cons (by decide)]
  simp only
  rw [readText_written, Reading.map, String.ofList_toList]

/-- No value starts with a closing bracket. -/
theorem readItems_closed (fuel : Nat) {cs r : List Char} (h : skipSpace cs = ']' :: r) :
    readItems d fuel cs = .error .malformed := by
  cases fuel with
  | zero => rfl
  | succ fuel =>
    have hvalue : readValue d fuel cs = .error .malformed := by
      cases fuel with
      | zero => rfl
      | succ fuel =>
        rw [readValue, h]
        rfl
    rw [readItems, hvalue]

theorem readValue_list {r rest : List Char} {items : List Json}
    (h : readItems d fuel r = .ok (items, rest)) :
    readValue d (fuel + 1) ('[' :: r) = .ok (.arr items, rest) := by
  rw [readValue, skipSpace_cons (by decide)]
  simp only
  split
  · next hclosed =>
    rw [readItems_closed fuel hclosed] at h
    cases h
  · rw [readItems_skipSpace, h]
    rfl

theorem readItems_last {cs blanks rest : List Char} {v : Json} (hblanks : Blank blanks)
    (h : readValue d fuel cs = .ok (v, blanks ++ ']' :: rest)) :
    readItems d (fuel + 1) cs = .ok ([v], rest) := by
  rw [readItems, h]
  simp only
  rw [skipSpace_blanks hblanks, skipSpace_cons (by decide)]
  rfl

theorem readItems_more {cs r rest : List Char} {v : Json} {vs : List Json}
    (h : readValue d fuel cs = .ok (v, ',' :: r)) (hvs : readItems d fuel r = .ok (vs, rest)) :
    readItems d (fuel + 1) cs = .ok (v :: vs, rest) := by
  rw [readItems, h]
  simp only
  rw [skipSpace_cons (by decide)]
  simp only
  rw [hvs]
  rfl

/-- No field starts with a closing brace. -/
theorem readFields_closed (fuel : Nat) {cs r : List Char} (h : skipSpace cs = '\x7d' :: r) :
    readFields d fuel cs = .error .malformed := by
  cases fuel with
  | zero => rfl
  | succ fuel =>
    rw [readFields, h]
    rfl

theorem readValue_object {r rest : List Char} {fields : List (String × Json)}
    (h : readFields d fuel r = .ok (fields, rest)) :
    readValue d (fuel + 1) ('\x7b' :: r) = .ok (.obj (Fields.ofPairs fields), rest) := by
  rw [readValue, skipSpace_cons (by decide)]
  simp only
  split
  · next hclosed =>
    rw [readFields_closed fuel hclosed] at h
    cases h
  · rw [readFields_skipSpace, h]
    rfl

section Fields

variable {asciiOnly : Bool} {k : String} {v : Json} {blanks cs rest : List Char}

theorem readFields_last {blanks' : List Char} (hblanks : Blank blanks) (hblanks' : Blank blanks')
    (h : readValue d fuel cs = .ok (v, blanks' ++ '\x7d' :: rest)) :
    readFields d (fuel + 1) (writeText asciiOnly k.toList (':' :: (blanks ++ cs))) =
      .ok ([(k, v)], rest) := by
  rw [writeText_eq, readFields, skipSpace_cons (by decide)]
  simp only
  rw [readText_written]
  simp only
  rw [skipSpace_cons (by decide)]
  simp only
  rw [readValue_blanks hblanks, h]
  simp only
  rw [skipSpace_blanks hblanks', skipSpace_cons (by decide), String.ofList_toList]
  rfl

theorem readFields_more {r : List Char} {fs : List (String × Json)} (hblanks : Blank blanks)
    (h : readValue d fuel cs = .ok (v, ',' :: r)) (hfs : readFields d fuel r = .ok (fs, rest)) :
    readFields d (fuel + 1) (writeText asciiOnly k.toList (':' :: (blanks ++ cs))) =
      .ok ((k, v) :: fs, rest) := by
  rw [writeText_eq, readFields, skipSpace_cons (by decide)]
  simp only
  rw [readText_written]
  simp only
  rw [skipSpace_cons (by decide)]
  simp only
  rw [readValue_blanks hblanks, h]
  simp only
  rw [skipSpace_cons (by decide)]
  simp only
  rw [hfs, Reading.map, String.ofList_toList]

end Fields

/-! ## Values -/

section Values

variable {style : Style}

theorem endsNumber_items (hs : style.Regular) (level : Nat) (vs : List Json)
    {blanks : List Char} (hblanks : Blank blanks) (rest : List Char) :
    EndsNumber (writeItems style level vs (blanks ++ ']' :: rest)) := by
  obtain ⟨separator, hitems, -⟩ := hs.items
  cases vs with
  | nil => exact endsNumber_blanks hblanks (endsNumber_cons (by decide) rest)
  | cons v vs =>
    rw [writeItems, hitems]
    exact endsNumber_cons (by decide) _

theorem endsNumber_fields (hs : style.Regular) (level : Nat) (fs : List (String × Json))
    {blanks : List Char} (hblanks : Blank blanks) (rest : List Char) :
    EndsNumber (writeFields style level fs (blanks ++ '\x7d' :: rest)) := by
  obtain ⟨separator, hitems, -⟩ := hs.items
  cases fs with
  | nil => exact endsNumber_blanks hblanks (endsNumber_cons (by decide) rest)
  | cons field fs =>
    rw [writeFields, hitems]
    exact endsNumber_cons (by decide) _

/-- Behind the comma in front of an item stand blanks and the item. -/
theorem writeItems_cons (hs : style.Regular) (level : Nat) (v : Json) (vs : List Json)
    (tail : List Char) : ∃ blanks, Blank blanks ∧ writeItems style level (v :: vs) tail =
      ',' :: (blanks ++ write style level v (writeItems style level vs tail)) := by
  obtain ⟨separator, hitems, hseparator⟩ := hs.items
  refine ⟨separator ++ style.line level, Blank.append hseparator (blank_line style level), ?_⟩
  rw [writeItems, hitems, List.append_assoc]
  rfl

theorem writeFields_cons (hs : style.Regular) (level : Nat) (k : String) (v : Json)
    (fs : List (String × Json)) (tail : List Char) :
    ∃ blanks, Blank blanks ∧ writeFields style level ((k, v) :: fs) tail =
      ',' :: (blanks ++ writeText style.asciiOnly k.toList (style.keySeparator ++
        write style level v (writeFields style level fs tail))) := by
  obtain ⟨separator, hitems, hseparator⟩ := hs.items
  refine ⟨separator ++ style.line level, Blank.append hseparator (blank_line style level), ?_⟩
  rw [writeFields, hitems, List.append_assoc]
  rfl

theorem one_le_extent {v : Json} (hv : v.Kept d) : 1 ≤ extent v := by
  cases v with
  | null | str s | arr items | obj fields => simp [extent, textExtent]
  | bool b => cases b <;> simp [extent]
  | int n =>
    rw [extent]
    cases n with
    | ofNat n => exact Nat.length_toDigits_pos
    | negSucc n => exact Nat.succ_pos _
  | real x | handler h => exact hv.elim

mutual
theorem readValue_write (hs : style.Regular) (level : Nat) :
    ∀ (v : Json) (rest : List Char) {fuel : Nat}, v.Kept d → extent v ≤ fuel →
      EndsNumber rest → readValue d fuel (write style level v rest) = .ok (v, rest)
  | v, rest, 0, hv, hfuel, hrest => absurd hfuel (Nat.not_le.mpr (one_le_extent hv))
  | .null, rest, fuel + 1, _, _, _ => readWord_append "ull" .null rest
  | .bool true, rest, fuel + 1, _, _, _ => readWord_append "rue" (.bool true) rest
  | .bool false, rest, fuel + 1, _, _, _ => readWord_append "alse" (.bool false) rest
  | .int n, rest, fuel + 1, hn, _, hrest => readValue_int hn fuel hrest
  | .str s, rest, fuel + 1, _, _, _ => readValue_text style.asciiOnly s fuel rest
  | .arr [], rest, fuel + 1, _, _, _ => rfl
  | .obj [], rest, fuel + 1, _, _, _ => rfl
  | .arr (v :: vs), rest, fuel + 1, hv, hfuel, hrest => by
    have hneed : extentItems (v :: vs) ≤ fuel := by
      rw [extent] at hfuel
      omega
    have hitems := readItems_write hs (level + 1) (v :: vs) rest (blank_line style level)
      hv.2 (List.cons_ne_nil _ _) hneed
    obtain ⟨blanks, hblanks, htext⟩ := writeItems_cons hs (level + 1) v vs
      (style.line level ++ ']' :: rest)
    rw [htext, List.drop_one, List.tail_cons, readItems_blanks hblanks] at hitems
    exact readValue_list ((readItems_blanks (blank_line style (level + 1)) fuel _).trans hitems)
  | .obj ((k, v) :: fs), rest, fuel + 1, hv, hfuel, hrest => by
    have hneed : extentFields ((k, v) :: fs) ≤ fuel := by
      rw [extent] at hfuel
      omega
    have hfields := readFields_write hs (level + 1) ((k, v) :: fs) rest
      (blank_line style level) hv.2 (List.cons_ne_nil _ _) hneed
    obtain ⟨blanks, hblanks, htext⟩ := writeFields_cons hs (level + 1) k v fs
      (style.line level ++ '\x7d' :: rest)
    rw [htext, List.drop_one, List.tail_cons, readFields_blanks hblanks] at hfields
    have hread := readValue_object
      ((readFields_blanks (blank_line style (level + 1)) fuel _).trans hfields)
    rw [Fields.ofPairs_of_nodup hv.1] at hread
    exact hread

theorem readItems_write (hs : style.Regular) (level : Nat) :
    ∀ (vs : List Json) (rest : List Char) {fuel : Nat} {blanks : List Char}, Blank blanks →
      ThroughoutItems d.Keeps vs → vs ≠ [] → extentItems vs ≤ fuel →
      readItems d fuel ((writeItems style level vs (blanks ++ ']' :: rest)).drop 1) =
        .ok (vs, rest)
  | [], _, _, _, _, _, hne, _ => absurd rfl hne
  | v :: vs, _, 0, _, _, _, _, hfuel => by
    rw [extentItems] at hfuel
    omega
  | v :: vs, rest, fuel + 1, blanks, hblanks, hkept, _, hfuel => by
    rw [extentItems] at hfuel
    obtain ⟨before, hbefore, htext⟩ := writeItems_cons hs level v vs (blanks ++ ']' :: rest)
    have hv := readValue_write hs level v _ hkept.1 (by omega : extent v ≤ fuel)
      (endsNumber_items hs level vs hblanks rest)
    rw [htext, List.drop_one, List.tail_cons, readItems_blanks hbefore]
    cases vs with
    | nil => exact readItems_last hblanks hv
    | cons w ws =>
      have hws := readItems_write hs level (w :: ws) rest hblanks hkept.2
        (List.cons_ne_nil _ _) (by omega : extentItems (w :: ws) ≤ fuel)
      obtain ⟨between, -, hmore⟩ := writeItems_cons hs level w ws (blanks ++ ']' :: rest)
      rw [hmore] at hv hws ⊢
      exact readItems_more hv hws

theorem readFields_write (hs : style.Regular) (level : Nat) :
    ∀ (fs : List (String × Json)) (rest : List Char) {fuel : Nat} {blanks : List Char},
      Blank blanks →
      ThroughoutFields d.Keeps fs → fs ≠ [] → extentFields fs ≤ fuel →
      readFields d fuel ((writeFields style level fs (blanks ++ '\x7d' :: rest)).drop 1) =
        .ok (fs, rest)
  | [], _, _, _, _, _, hne, _ => absurd rfl hne
  | (k, v) :: fs, _, 0, _, _, _, _, hfuel => by
    rw [extentFields] at hfuel
    omega
  | (k, v) :: fs, rest, fuel + 1, blanks, hblanks, hkept, _, hfuel => by
    rw [extentFields] at hfuel
    obtain ⟨separator, hkeys, hseparator⟩ := hs.keys
    obtain ⟨before, hbefore, htext⟩ := writeFields_cons hs level k v fs (blanks ++ '\x7d' :: rest)
    have hv := readValue_write hs level v _ hkept.1 (by omega : extent v ≤ fuel)
      (endsNumber_fields hs level fs hblanks rest)
    rw [htext, List.drop_one, List.tail_cons, readFields_blanks hbefore, hkeys]
    cases fs with
    | nil => exact readFields_last hseparator hblanks hv
    | cons field more =>
      have hmore := readFields_write hs level (field :: more) rest hblanks hkept.2
        (List.cons_ne_nil _ _) (by omega : extentFields (field :: more) ≤ fuel)
      obtain ⟨between, -, hnext⟩ := writeFields_cons hs level field.1 field.2 more
        (blanks ++ '\x7d' :: rest)
      rw [hnext] at hv hmore ⊢
      exact readFields_more hseparator hv hmore
end

end Values

/-- The characters of a document are those that were written. -/
theorem toList_encode (v : Json) (indent : Int) : (encode v indent).toList = encodeChars v indent :=
  String.toList_ofList

/-- What a dialect keeps is read back from its text, whatever the indentation. -/
theorem read_encodeChars {v : Json} (hv : v.Kept d) (indent : Int) :
    read d (encodeChars v indent) = .ok v := by
  have hs := styleFor_regular indent v
  have hfuel := extent_le_write hs 0 v []
  have hvalue := readValue_write hs 0 v [] hv
    (by omega : extent v ≤ (write (styleFor indent v) 0 v []).length + 1) endsNumber_nil
  rw [read, encodeChars, hvalue]
  rfl

end ViewTree.Json
