import ViewTree.Proofs.Json.Roundtrip
import ViewTree.Proofs.Json.Search

/-
  ViewTree.Proofs.Json.Written — fences in a written text.

  The writers put no backtick of their own into a document, and escapes neither make one
  nor separate two: a fence stands in the text of a value, in whatever style, exactly
  when it stands in one of the value's texts or keys (`fence_infix_encodeChars`). The
  text of an object stands in braces (`braced_encodeChars`).
-/

namespace ViewTree.Json

mutual
/-- The texts of a value, its keys among them. -/
def texts : Json → List String
  | .str s => [s]
  | .arr items => textsItems items
  | .obj fields => textsFields fields
  | _ => []

def textsItems : List Json → List String
  | [] => []
  | v :: rest => texts v ++ textsItems rest

def textsFields : List (String × Json) → List String
  | [] => []
  | (k, v) :: rest => k :: texts v ++ textsFields rest
end

/-- A fence stands in this text. -/
def Fenced (s : String) : Prop := fence <:+: s.toList

instance (s : String) : Decidable (Fenced s) :=
  decidable_of_iff (¬ find? fence 0 s.toList = none) (by rw [find?_eq_none_iff, not_not, Fenced])

/-! ## Fences beside other characters -/

section Beside

variable {a b : List Char} {c : Char}

/-- A fence behind text in which none starts is behind that text. -/
theorem Fenceless.infix_append (h : Fenceless a) : fence <:+: a ++ b ↔ fence <:+: b := by
  rw [← not_iff_not, ← after?_eq_none_iff, ← after?_eq_none_iff, h.after?_fence_append]

theorem fence_infix_skip (h : '\x60' ∉ a) : fence <:+: a ++ b ↔ fence <:+: b :=
  (Fenceless.of_not_mem h).infix_append

theorem fence_infix_cons (h : '\x60' ≠ c) : fence <:+: c :: b ↔ fence <:+: b :=
  fence_infix_skip (a := [c]) (by simpa using h)

theorem Fenceless.of_ends (h : '\x60' ≠ c) (hfree : ¬ fence <:+: a) : Fenceless (a ++ [c]) where
  free hfence := by
    rcases List.infix_concat_iff.mp hfence with hsuffix | hin
    · obtain ⟨front, hfront⟩ := hsuffix
      have hlast := congrArg List.getLast? hfront
      simp [fence] at hlast
      exact h hlast
    · exact hfree hin
  ends hlast := by
    rw [List.getLast?_concat, Option.some_inj] at hlast
    exact h hlast.symm

/-- A character that is no backtick separates fences. -/
theorem fence_infix_between (h : '\x60' ≠ c) :
    fence <:+: a ++ c :: b ↔ fence <:+: a ∨ fence <:+: b := by
  constructor
  · intro hfence
    by_cases hfree : fence <:+: a
    · exact .inl hfree
    · rw [List.append_cons, (Fenceless.of_ends h hfree).infix_append] at hfence
      exact .inr hfence
  · rintro (hleft | hright)
    · exact hleft.trans (List.prefix_append a _).isInfix
    · exact hright.trans ((List.suffix_cons c b).trans (List.suffix_append a _)).isInfix

end Beside

/-! ## Escapes -/

theorem backtick_not_mem_escapeUnits (c : Char) : '\x60' ∉ escapeUnits c := fun h =>
  absurd (mem_escapeUnits h) (by decide)

theorem backtick_not_mem_escapeChar {asciiOnly : Bool} {c : Char} (h : '\x60' ≠ c) :
    '\x60' ∉ escapeChar asciiOnly c := by
  unfold escapeChar
  split_ifs
  all_goals first | decide | exact backtick_not_mem_escapeUnits c | simpa using h

theorem escapeChar_backtick (asciiOnly : Bool) : escapeChar asciiOnly '\x60' = ['\x60'] := by
  cases asciiOnly <;> decide

theorem escapeChar_cons (asciiOnly : Bool) (c : Char) :
    ∃ d more, escapeChar asciiOnly c = d :: more := by
  unfold escapeChar
  split_ifs
  all_goals try exact ⟨_, _, rfl⟩
  rw [escapeUnits]
  split <;> exact ⟨_, _, rfl⟩

/-- Escapes keep runs of backticks as they are. -/
theorem replicate_prefix_escaped (asciiOnly : Bool) (cs : List Char) (k : Nat) :
    List.replicate k '\x60' <+: escaped asciiOnly cs ↔ List.replicate k '\x60' <+: cs := by
  induction cs generalizing k with
  | nil => rfl
  | cons c cs ih =>
    cases k with
    | zero => simp
    | succ k =>
      rw [List.replicate_succ]
      by_cases hc : '\x60' = c
      · subst hc
        rw [escaped_cons, escapeChar_backtick, List.cons_append, List.nil_append,
          List.cons_prefix_cons, List.cons_prefix_cons, ih]
      · obtain ⟨d, more, hd⟩ := escapeChar_cons asciiOnly c
        have hfirst : '\x60' ≠ d := by
          rintro rfl
          exact backtick_not_mem_escapeChar hc (hd ▸ List.mem_cons_self)
        rw [escaped_cons, hd, List.cons_append, List.cons_prefix_cons, List.cons_prefix_cons]
        exact iff_of_false (fun h => hfirst h.1) (fun h => hc h.1)

theorem fence_infix_escaped (asciiOnly : Bool) (cs : List Char) :
    fence <:+: escaped asciiOnly cs ↔ fence <:+: cs := by
  induction cs with
  | nil => rfl
  | cons c cs ih =>
    -- a backtick is its own escape, and no other character begins a fence
    by_cases hc : '\x60' = c
    · subst hc
      have hprefix := replicate_prefix_escaped asciiOnly ('\x60' :: cs) 3
      rw [escaped_cons, escapeChar_backtick] at hprefix ⊢
      rw [List.cons_append, List.nil_append, List.infix_cons_iff, List.infix_cons_iff, ih]
      exact or_congr hprefix Iff.rfl
    · rw [escaped_cons, fence_infix_skip (backtick_not_mem_escapeChar hc), fence_infix_cons hc, ih]

theorem fence_infix_writeText (asciiOnly : Bool) (s : String) (rest : List Char) :
    fence <:+: writeText asciiOnly s.toList rest ↔ Fenced s ∨ fence <:+: rest := by
  rw [writeText_eq, fence_infix_cons (by decide), fence_infix_between (by decide),
    fence_infix_escaped, Fenced]

/-! ## Values -/

theorem backtick_not_mem_blanks {cs : List Char} (h : Blank cs) : '\x60' ∉ cs := fun hmem =>
  absurd (h _ hmem) (by decide)

theorem backtick_not_mem_intDigits (n : Int) : '\x60' ∉ intDigits n := by
  have hdigits : ∀ m, '\x60' ∉ Nat.toDigits 10 m := fun m hmem =>
    absurd (Nat.isDigit_of_mem_toDigits (by decide) (by decide) hmem) (by decide)
  cases n with
  | ofNat m => exact hdigits m
  | negSucc m => simpa [intDigits] using hdigits (m + 1)

section Values

variable {d : Dialect} {style : Style}

/-- A bracket or a comma and the line break behind it. -/
theorem backtick_not_mem_opening {c : Char} (hc : '\x60' ≠ c) (level : Nat) :
    '\x60' ∉ c :: style.line level :=
  List.not_mem_cons_of_ne_of_not_mem hc (backtick_not_mem_blanks (blank_line style level))

theorem backtick_not_mem_itemSeparator (hs : style.Regular) : '\x60' ∉ style.itemSeparator := by
  obtain ⟨blanks, hshape, hblanks⟩ := hs.items
  rw [hshape]
  exact List.not_mem_cons_of_ne_of_not_mem (by decide) (backtick_not_mem_blanks hblanks)

theorem backtick_not_mem_keySeparator (hs : style.Regular) : '\x60' ∉ style.keySeparator := by
  obtain ⟨blanks, hshape, hblanks⟩ := hs.keys
  rw [hshape]
  exact List.not_mem_cons_of_ne_of_not_mem (by decide) (backtick_not_mem_blanks hblanks)

/-- The line break before a closing bracket, and the bracket. -/
theorem fence_infix_closing {c : Char} (hc : '\x60' ≠ c) (level : Nat) (rest : List Char) :
    fence <:+: style.line level ++ c :: rest ↔ fence <:+: rest := by
  rw [fence_infix_skip (backtick_not_mem_blanks (blank_line style level)), fence_infix_cons hc]

mutual
theorem fence_infix_write (hs : style.Regular) (level : Nat) :
    ∀ (v : Json) (rest : List Char), v.Kept d →
      (fence <:+: write style level v rest ↔ (∃ t ∈ texts v, Fenced t) ∨ fence <:+: rest)
  | .null, rest, _ => by
    simpa [write, texts] using fence_infix_skip (a := "null".toList) (by decide)
  | .bool true, rest, _ => by
    simpa [write, texts] using fence_infix_skip (a := "true".toList) (by decide)
  | .bool false, rest, _ => by
    simpa [write, texts] using fence_infix_skip (a := "false".toList) (by decide)
  | .int n, rest, _ => by
    simpa [write, texts] using fence_infix_skip (backtick_not_mem_intDigits n)
  | .real r, rest, hv => hv.elim
  | .handler h, rest, hv => hv.elim
  | .str s, rest, _ => by
    simpa [write, texts] using fence_infix_writeText style.asciiOnly s rest
  | .arr [], rest, _ => by
    simpa [write, texts, textsItems] using fence_infix_skip (a := ['[', ']']) (by decide)
  | .arr (v :: vs), rest, hv => by
    rw [write, fence_infix_skip (backtick_not_mem_opening (by decide) _),
      fence_infix_write hs (level + 1) v _ hv.2.1,
      fence_infix_writeItems hs (level + 1) vs _ hv.2.2, fence_infix_closing (by decide)]
    simp only [texts, textsItems, List.mem_append, or_and_right, exists_or, or_assoc]
  | .obj [], rest, _ => by
    simpa [write, texts, textsFields] using fence_infix_skip (a := ['\x7b', '\x7d']) (by decide)
  | .obj ((k, v) :: fs), rest, hv => by
    rw [write, fence_infix_skip (backtick_not_mem_opening (by decide) _), fence_infix_writeText,
      fence_infix_skip (backtick_not_mem_keySeparator hs),
      fence_infix_write hs (level + 1) v _ hv.2.1,
      fence_infix_writeFields hs (level + 1) fs _ hv.2.2, fence_infix_closing (by decide)]
    simp only [texts, textsFields, List.mem_append, List.mem_cons, or_and_right, exists_or,
      exists_eq_left, or_assoc, List.cons_append]

theorem fence_infix_writeItems (hs : style.Regular) (level : Nat) :
    ∀ (vs : List Json) (rest : List Char), ThroughoutItems d.Keeps vs →
      (fence <:+: writeItems style level vs rest ↔
        (∃ t ∈ textsItems vs, Fenced t) ∨ fence <:+: rest)
  | [], rest, _ => by simp [writeItems, textsItems]
  | v :: vs, rest, hv => by
    rw [writeItems, fence_infix_skip (backtick_not_mem_itemSeparator hs),
      fence_infix_skip (backtick_not_mem_blanks (blank_line style level)),
      fence_infix_write hs level v _ hv.1, fence_infix_writeItems hs level vs _ hv.2]
    simp only [textsItems, List.mem_append, or_and_right, exists_or, or_assoc]

theorem fence_infix_writeFields (hs : style.Regular) (level : Nat) :
    ∀ (fs : List (String × Json)) (rest : List Char), ThroughoutFields d.Keeps fs →
      (fence <:+: writeFields style level fs rest ↔
        (∃ t ∈ textsFields fs, Fenced t) ∨ fence <:+: rest)
  | [], rest, _ => by simp [writeFields, textsFields]
  | (k, v) :: fs, rest, hv => by
    rw [writeFields, fence_infix_skip (backtick_not_mem_itemSeparator hs),
      fence_infix_skip (backtick_not_mem_blanks (blank_line style level)),
      fence_infix_writeText, fence_infix_skip (backtick_not_mem_keySeparator hs),
      fence_infix_write hs level v _ hv.1, fence_infix_writeFields hs level fs _ hv.2]
    simp only [textsFields, List.mem_append, List.mem_cons, or_and_right, exists_or,
      exists_eq_left, or_assoc, List.cons_append]
end

/-- A fence stands in a document exactly when it stands in a text or key of the value. -/
theorem fence_infix_encodeChars {v : Json} (hv : v.Kept d) (indent : Int) :
    fence <:+: encodeChars v indent ↔ ∃ t ∈ texts v, Fenced t := by
  rw [encodeChars, fence_infix_write (styleFor_regular indent v) 0 v [] hv]
  simp [fence]

theorem suffix_writeText (asciiOnly : Bool) (cs rest : List Char) :
    rest <:+ writeText asciiOnly cs rest := by
  rw [writeText_eq]
  exact ((List.suffix_cons _ rest).trans (List.suffix_append _ _)).trans (List.suffix_cons _ _)

theorem suffix_writeKey (style : Style) (k : String) (rest : List Char) :
    rest <:+ writeText style.asciiOnly k.toList (style.keySeparator ++ rest) :=
  (List.suffix_append _ _).trans (suffix_writeText _ _ _)

mutual
/-- What follows a value in a document ends the document. -/
theorem suffix_write (style : Style) (level : Nat) :
    ∀ (v : Json) (rest : List Char), rest <:+ write style level v rest
  | .null, rest => List.suffix_append _ _
  | .bool true, rest => List.suffix_append _ _
  | .bool false, rest => List.suffix_append _ _
  | .int _, rest => List.suffix_append _ _
  | .real _, rest => List.suffix_append _ _
  | .handler _, rest => suffix_writeText style.asciiOnly _ rest
  | .str _, rest => suffix_writeText style.asciiOnly _ rest
  | .arr [], rest => List.suffix_append ['[', ']'] rest
  | .arr (v :: vs), rest => by
    have hclose : rest <:+ style.line level ++ ']' :: rest :=
      (List.suffix_cons _ rest).trans (List.suffix_append _ _)
    have hvs := suffix_writeItems style (level + 1) vs (style.line level ++ ']' :: rest)
    have hv := suffix_write style (level + 1) v
      (writeItems style (level + 1) vs (style.line level ++ ']' :: rest))
    rw [write]
    exact ((hclose.trans hvs).trans hv).trans (List.suffix_append _ _)
  | .obj [], rest => List.suffix_append ['\x7b', '\x7d'] rest
  | .obj ((k, v) :: fs), rest => by
    have hclose : rest <:+ style.line level ++ '\x7d' :: rest :=
      (List.suffix_cons _ rest).trans (List.suffix_append _ _)
    have hfs := suffix_writeFields style (level + 1) fs (style.line level ++ '\x7d' :: rest)
    have hv := suffix_write style (level + 1) v
      (writeFields style (level + 1) fs (style.line level ++ '\x7d' :: rest))
    rw [write]
    exact (((hclose.trans hfs).trans hv).trans (suffix_writeKey style k _)).trans
      (List.suffix_append _ _)

theorem suffix_writeItems (style : Style) (level : Nat) :
    ∀ (vs : List Json) (rest : List Char), rest <:+ writeItems style level vs rest
  | [], rest => List.suffix_refl rest
  | v :: vs, rest => by
    have hvs := suffix_writeItems style level vs rest
    have hv := suffix_write style level v (writeItems style level vs rest)
    rw [writeItems, ← List.append_assoc]
    exact (hvs.trans hv).trans (List.suffix_append _ _)

theorem suffix_writeFields (style : Style) (level : Nat) :
    ∀ (fs : List (String × Json)) (rest : List Char), rest <:+ writeFields style level fs rest
  | [], rest => List.suffix_refl rest
  | (k, v) :: fs, rest => by
    have hfs := suffix_writeFields style level fs rest
    have hv := suffix_write style level v (writeFields style level fs rest)
    rw [writeFields, ← List.append_assoc]
    exact ((hfs.trans hv).trans (suffix_writeKey style k _)).trans (List.suffix_append _ _)
end

end Values

/-- The text of an object stands in braces. -/
theorem braced_encodeChars (fields : Fields) (indent : Int) :
    Braced (encodeChars (.obj fields) indent) := by
  rw [encodeChars]
  generalize styleFor indent (.obj fields) = style
  cases fields with
  | nil => exact ⟨[], rfl⟩
  | cons field fs =>
    obtain ⟨k, v⟩ := field
    have hclose : ['\x7d'] <:+ style.line 0 ++ ['\x7d'] := List.suffix_append _ _
    have hfs := suffix_writeFields style 1 fs (style.line 0 ++ ['\x7d'])
    have hv := suffix_write style 1 v
      (writeFields style 1 fs (style.line 0 ++ ['\x7d']))
    obtain ⟨body, hbody⟩ := ((hclose.trans hfs).trans hv).trans (suffix_writeKey style k _)
    refine ⟨style.line 1 ++ body, ?_⟩
    rw [write, ← hbody, List.cons_append, List.append_assoc]

end ViewTree.Json
