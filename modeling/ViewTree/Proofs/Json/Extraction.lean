import ViewTree.Json.Extract

/-
  ViewTree.Proofs.Json.Extraction — the texts whose search for an object has no end of
  its own.

  A search ends with an object or with a reason why there is none, and there is one more
  end: the exact reading of the candidate fails and the lenient one meets an integer with
  too many digits (`Overlong`). Nothing else ends so (`extract_longInteger_iff`), in
  particular no repaired text.

  Such texts exist for every number of digits beyond the limit (`overlong_onesText`): a
  text from brace to brace without a fence is its own candidate, and both readings of an
  object come to the integer in its first field.
-/

namespace ViewTree.Json

/-- The reading that decides about a text meets an integer with this many digits, which
    are too many. -/
def Overlong (text : String) (digits : Nat) : Prop :=
  ∃ candidate, findObject? text.toList = some candidate ∧ read? .exact candidate = none ∧
    read .lenient candidate = .error (.longInteger digits)

theorem asObject_ne_longInteger (v : Json) (n : Nat) : asObject v ≠ .error (.longInteger n) := by
  cases v <;> simp [asObject]

theorem extract_longInteger_iff (text : String) (n : Nat) :
    extract text true = .error (.longInteger n) ↔ Overlong text n := by
  unfold extract Overlong
  cases findObject? text.toList with
  | none => simp
  | some candidate =>
    cases hexact : read? .exact candidate with
    | some v => simp [hexact, asObject_ne_longInteger]
    | none =>
      cases hlenient : read .lenient candidate with
      | ok v => simp [hexact, hlenient, asObject_ne_longInteger]
      | error flaw =>
        cases flaw with
        | longInteger m => simp [hexact, hlenient]
        | malformed => simp [hexact, hlenient, asObject_ne_longInteger]

/-! ## A text that is its own candidate -/

/-- A word whose first character does not occur is not found. -/
theorem find?_eq_none {w : Char} {cs : List Char} (h : w ∉ cs) (word : List Char) (start : Nat) :
    find? (w :: word) start cs = none := by
  induction cs generalizing start with
  | nil => rfl
  | cons c cs ih =>
    have hne : w ≠ c := fun e => h (e ▸ List.mem_cons_self)
    have hprefix : (w :: word).isPrefixOf (c :: cs) = false := by simp [List.isPrefixOf, hne]
    rw [find?, hprefix]
    exact ih (fun hm => h (List.mem_cons_of_mem _ hm)) _

/-- Blanks are dropped at neither end of a text in braces. -/
theorem trim_braced (body : List Char) :
    Text.trim ('\x7b' :: (body ++ ['\x7d'])) = '\x7b' :: (body ++ ['\x7d']) := by
  have hopen : Text.isBlank '\x7b' = false := by decide
  have hclose : Text.isBlank '\x7d' = false := by decide
  simp [Text.trim, Text.trimBy, hopen, hclose]

theorem findObject?_braced {body : List Char} (h : '\x60' ∉ body) :
    findObject? ('\x7b' :: (body ++ ['\x7d'])) = some ('\x7b' :: (body ++ ['\x7d'])) := by
  have hmem : '\x60' ∉ '\x7b' :: (body ++ ['\x7d']) := by simp [h]
  have hplain : after? fence ('\x7b' :: (body ++ ['\x7d'])) = none := by
    simp only [after?, fence, find?_eq_none hmem, Option.map_none]
  simp [findObject?, trim_braced, stripFences, hplain, upToLastBrace]

/-! ## An integer that is too long -/

/-- What a dialect without a fallback makes of an integer with too many digits. -/
def Dialect.refusal (d : Dialect) (digits : Nat) : Flaw :=
  if d.nonFinite then .longInteger digits else .malformed

/-- Digits `1` and then the end of an object. -/
def ones (n : Nat) : List Char := List.replicate n '1' ++ ['\x7d']

theorem spanDigits_ones (n : Nat) : spanDigits (ones n) = (List.replicate n '1', ['\x7d']) := by
  have hdigits : ∀ c ∈ List.replicate n '1', c.isDigit = true := by
    intro c hc
    rw [List.eq_of_mem_replicate hc]
    decide
  have hend : Char.isDigit '\x7d' = false := by decide
  simp [spanDigits, ones, List.takeWhile_append_of_pos hdigits, List.dropWhile_append_of_pos hdigits,
    hend]

theorem readUnsigned_ones {d : Dialect} (hd : d.wideAsDouble = false) {n : Nat}
    (hn : Text.maxDigits < n) (negative : Bool) :
    readUnsigned d negative (ones n) = .error (d.refusal n) := by
  obtain ⟨m, rfl⟩ : ∃ m, n = m + 1 := ⟨n - 1, by omega⟩
  have hlong : ¬ m + 1 ≤ Text.maxDigits := Nat.not_le.mpr hn
  rw [readUnsigned, spanDigits_ones]
  simp [List.replicate_succ, readFraction, readExponent, before, integer, hd, hlong, Dialect.refusal]

theorem readValue_ones {d : Dialect} (hd : d.wideAsDouble = false) {n : Nat}
    (hn : Text.maxDigits < n) (fuel : Nat) :
    readValue d (fuel + 1) (ones n) = .error (d.refusal n) := by
  obtain ⟨m, rfl⟩ : ∃ m, n = m + 1 := ⟨n - 1, by omega⟩
  have hcons : ones (m + 1) = '1' :: ones m := by simp [ones, List.replicate_succ]
  have hspace : skipSpace ('1' :: ones m) = '1' :: ones m := by
    simp [skipSpace, isSpace]
  rw [readValue, hcons, hspace]
  simp only [readNumber]
  rw [← hcons]
  exact readUnsigned_ones hd hn false

/-- An object with one integer, of this many digits. -/
def onesText (n : Nat) : List Char := '\x7b' :: '"' :: 'n' :: '"' :: ':' :: ones n

theorem read_onesText {d : Dialect} (hd : d.wideAsDouble = false) {n : Nat}
    (hn : Text.maxDigits < n) : read d (onesText n) = .error (d.refusal n) := by
  obtain ⟨fuel, hfuel⟩ : ∃ fuel, (onesText n).length + 1 = fuel + 3 :=
    ⟨(onesText n).length - 2, by simp [onesText]⟩
  have hkey : readText [] ('n' :: '"' :: ':' :: ones n) = .ok (['n'], ':' :: ones n) := rfl
  have hfields : readFields d (fuel + 2) ('"' :: 'n' :: '"' :: ':' :: ones n) =
      .error (d.refusal n) := by
    simp [readFields, skipSpace, isSpace, hkey, readValue_ones hd hn]
  rw [read, hfuel, onesText, readValue]
  simp [skipSpace, isSpace, hfields, Reading.map]

/-- Beyond the limit, every number of digits is met in some text. -/
theorem overlong_onesText {n : Nat} (hn : Text.maxDigits < n) :
    Overlong (String.ofList (onesText n)) n := by
  have hbody : onesText n =
      '\x7b' :: (('"' :: 'n' :: '"' :: ':' :: List.replicate n '1') ++ ['\x7d']) := rfl
  have hfence : '\x60' ∉ '"' :: 'n' :: '"' :: ':' :: List.replicate n '1' := by
    simp [List.mem_replicate]
  refine ⟨onesText n, ?_, ?_, ?_⟩
  · rw [String.toList_ofList, hbody, findObject?_braced hfence]
  · rw [read?, read_onesText rfl hn]
    rfl
  · exact read_onesText rfl hn

end ViewTree.Json
