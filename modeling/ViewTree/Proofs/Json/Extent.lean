import ViewTree.Json.Write
import ViewTree.Proofs.Json.Kept

/-
  ViewTree.Proofs.Json.Extent — how many characters a value takes.

  The extent of a value is the number of characters of its compact text. A writer of any
  style writes at least the extent (`extent_le_write`), and a tight one, which has no
  blanks and escapes only what it must, writes exactly that (`length_write`). Doubles and
  handlers have no spelling of their own here and count nothing.
-/

namespace ViewTree.Json

/-- The characters of a text, escaped, without the quotes around it. -/
def escaped (asciiOnly : Bool) (cs : List Char) : List Char := cs.flatMap (escapeChar asciiOnly)

@[simp] theorem escaped_nil (asciiOnly : Bool) : escaped asciiOnly [] = [] := rfl

@[simp] theorem escaped_cons (asciiOnly : Bool) (c : Char) (cs : List Char) :
    escaped asciiOnly (c :: cs) = escapeChar asciiOnly c ++ escaped asciiOnly cs := rfl

theorem writeText_eq (asciiOnly : Bool) (cs rest : List Char) :
    writeText asciiOnly cs rest = '"' :: (escaped asciiOnly cs ++ '"' :: rest) := by
  rw [writeText]
  congr 1
  induction cs with
  | nil => rfl
  | cons c cs ih => rw [List.foldr_cons, ih, escaped_cons, List.append_assoc]

/-- The characters of a text between quotes. -/
def textExtent (s : String) : Nat := (escaped false s.toList).length + 2

mutual
/-- The number of characters of the compact text of a value. -/
def extent : Json → Nat
  | .null => 4
  | .bool true => 4
  | .bool false => 5
  | .int n => (intDigits n).length
  | .real _ => 0
  | .handler _ => 0
  | .str s => textExtent s
  | .arr items => max 1 (extentItems items) + 1
  | .obj fields => max 1 (extentFields fields) + 1

/-- The items of a list, each with the comma or the bracket behind it. -/
def extentItems : List Json → Nat
  | [] => 0
  | v :: rest => extent v + 1 + extentItems rest

/-- The fields of an object, each with its colon and the comma or the brace behind it. -/
def extentFields : List (String × Json) → Nat
  | [] => 0
  | (k, v) :: rest => textExtent k + 1 + extent v + 1 + extentFields rest
end

/-! ## Writing -/

theorem length_escapeUnit (n : Nat) : 6 ≤ (escapeUnit n).length := by
  simp only [escapeUnit, Text.hex, List.length_cons, List.length_append, List.length_replicate]
  omega

theorem length_ite_le {p : Prop} [Decidable p] {a b b' : List Char} (h : b.length ≤ b'.length) :
    (if p then a else b).length ≤ (if p then a else b').length := by
  split_ifs
  · exact Nat.le_refl _
  · exact h

/-- An escape is never shorter where more is escaped. -/
theorem length_escapeChar_le (asciiOnly : Bool) (c : Char) :
    (escapeChar false c).length ≤ (escapeChar asciiOnly c).length := by
  cases asciiOnly with
  | false => exact Nat.le_refl _
  | true =>
    have hone : 1 ≤ (escapeUnits c).length := by
      have hunit := length_escapeUnit c.toNat
      simp only [escapeUnits]
      split
      · omega
      · rw [List.length_append]
        have := length_escapeUnit (0xd800 + (c.toNat - 0x10000) / 0x400)
        omega
    -- only the last choice depends on what is escaped
    unfold escapeChar
    iterate 7 refine length_ite_le ?_
    split_ifs <;> simp_all

theorem length_escaped_le (asciiOnly : Bool) (cs : List Char) :
    (escaped false cs).length ≤ (escaped asciiOnly cs).length := by
  induction cs with
  | nil => exact Nat.le_refl _
  | cons c cs ih =>
    have hc := length_escapeChar_le asciiOnly c
    simp only [escaped_cons, List.length_append]
    omega

theorem textExtent_le_writeText (asciiOnly : Bool) (s : String) (rest : List Char) :
    textExtent s + rest.length ≤ (writeText asciiOnly s.toList rest).length := by
  have h := length_escaped_le asciiOnly s.toList
  simp only [writeText_eq, textExtent, List.length_cons, List.length_append]
  omega

/-- Only blanks stand beside the comma between members and the colon behind a key. -/
structure Style.Regular (style : Style) : Prop where
  items : ∃ blanks, style.itemSeparator = ',' :: blanks ∧ ∀ c ∈ blanks, isSpace c = true
  keys : ∃ blanks, style.keySeparator = ':' :: blanks ∧ ∀ c ∈ blanks, isSpace c = true

/-- Nothing is written that is not needed. -/
structure Style.Tight (style : Style) : Prop where
  items : style.itemSeparator = [',']
  keys : style.keySeparator = [':']
  plain : style.asciiOnly = false
  straight : style.indent = none

theorem styleFor_regular (indent : Int) (v : Json) : (styleFor indent v).Regular := by
  unfold styleFor
  split_ifs
  · exact ⟨⟨[], rfl, by simp⟩, ⟨[' '], rfl, by simp [isSpace]⟩⟩
  · exact ⟨⟨[' '], rfl, by simp [isSpace]⟩, ⟨[' '], rfl, by simp [isSpace]⟩⟩
  · exact ⟨⟨[], rfl, by simp⟩, ⟨[], rfl, by simp⟩⟩
  · exact ⟨⟨[], rfl, by simp⟩, ⟨[], rfl, by simp⟩⟩

mutual
theorem anyLeaf_eq_false {p : Json → Bool} :
    ∀ {v : Json}, v.Throughout (fun w => p w = false) → v.anyLeaf p = false
  | .arr _, hv => anyLeafItems_eq_false hv.2
  | .obj _, hv => anyLeafFields_eq_false hv.2
  | .null, hv => hv
  | .bool _, hv => hv
  | .int _, hv => hv
  | .real _, hv => hv
  | .str _, hv => hv
  | .handler _, hv => hv

theorem anyLeafItems_eq_false {p : Json → Bool} :
    ∀ {vs : List Json}, ThroughoutItems (fun w => p w = false) vs → anyLeafItems p vs = false
  | [], _ => rfl
  | _ :: _, hvs => Bool.or_eq_false_iff.mpr ⟨anyLeaf_eq_false hvs.1, anyLeafItems_eq_false hvs.2⟩

theorem anyLeafFields_eq_false {p : Json → Bool} :
    ∀ {fs : List (String × Json)},
      ThroughoutFields (fun w => p w = false) fs → anyLeafFields p fs = false
  | [], _ => rfl
  | (_, _) :: _, hfs =>
    Bool.or_eq_false_iff.mpr ⟨anyLeaf_eq_false hfs.1, anyLeafFields_eq_false hfs.2⟩
end

/-- Without an indentation, a value that a document keeps is written tightly. -/
theorem styleFor_tight {d : Dialect} {v : Json} (hv : v.Kept d) : (styleFor 0 v).Tight := by
  have hplain : v.anyLeaf isHandler = false := anyLeaf_eq_false <| hv.mono fun w hw => by
    cases w <;> first | rfl | exact hw.elim
  rw [styleFor, if_neg (by decide), hplain]
  simp only [Int.lt_irrefl, decide_false, Bool.or_self, Bool.false_eq_true, if_false]
  split_ifs <;> exact ⟨rfl, rfl, rfl, rfl⟩

section Writing

variable {style : Style} {level : Nat}

mutual
theorem extent_le_write (hs : style.Regular) (level : Nat) :
    ∀ (v : Json) (rest : List Char), extent v + rest.length ≤ (write style level v rest).length
  | .null, rest => by simp [extent, write]; omega
  | .bool true, rest => by simp [extent, write]; omega
  | .bool false, rest => by simp [extent, write]; omega
  | .int n, rest => by simp [extent, write]
  | .real d, rest => by simp [extent, write]
  | .handler h, rest => by
    have := textExtent_le_writeText style.asciiOnly h.text rest
    simp only [extent, write]
    omega
  | .str s, rest => textExtent_le_writeText style.asciiOnly s rest
  | .arr [], rest => by simp [extent, extentItems, write]; omega
  | .arr (v :: vs), rest => by
    have hvs := extentItems_le_write hs (level + 1) vs (style.line level ++ ']' :: rest)
    have hv := extent_le_write hs (level + 1) v
      (writeItems style (level + 1) vs (style.line level ++ ']' :: rest))
    rw [extent, extentItems, write]
    simp only [List.length_cons, List.length_append] at hvs ⊢
    omega
  | .obj [], rest => by simp [extent, extentFields, write]; omega
  | .obj ((k, v) :: fs), rest => by
    obtain ⟨blanks, hkeys, -⟩ := hs.keys
    have hfs := extentFields_le_write hs (level + 1) fs (style.line level ++ '\x7d' :: rest)
    have hv := extent_le_write hs (level + 1) v
      (writeFields style (level + 1) fs (style.line level ++ '\x7d' :: rest))
    have hk := textExtent_le_writeText style.asciiOnly k (style.keySeparator ++
      write style (level + 1) v
        (writeFields style (level + 1) fs (style.line level ++ '\x7d' :: rest)))
    rw [extent, extentFields, write]
    simp only [hkeys, List.length_cons, List.length_append] at hfs hk ⊢
    omega

theorem extentItems_le_write (hs : style.Regular) (level : Nat) :
    ∀ (vs : List Json) (rest : List Char),
      extentItems vs + rest.length ≤ (writeItems style level vs rest).length
  | [], rest => by simp [extentItems, writeItems]
  | v :: vs, rest => by
    obtain ⟨blanks, hitems, -⟩ := hs.items
    have hvs := extentItems_le_write hs level vs rest
    have hv := extent_le_write hs level v (writeItems style level vs rest)
    rw [extentItems, writeItems, hitems]
    simp only [List.length_cons, List.length_append]
    omega

theorem extentFields_le_write (hs : style.Regular) (level : Nat) :
    ∀ (fs : List (String × Json)) (rest : List Char),
      extentFields fs + rest.length ≤ (writeFields style level fs rest).length
  | [], rest => by simp [extentFields, writeFields]
  | (k, v) :: fs, rest => by
    obtain ⟨blanks, hitems, -⟩ := hs.items
    obtain ⟨blanks', hkeys, -⟩ := hs.keys
    have hfs := extentFields_le_write hs level fs rest
    have hv := extent_le_write hs level v (writeFields style level fs rest)
    have hk := textExtent_le_writeText style.asciiOnly k (style.keySeparator ++
      write style level v (writeFields style level fs rest))
    rw [extentFields, writeFields, hitems]
    simp only [hkeys, List.length_cons, List.length_append] at hk ⊢
    omega
end

theorem length_writeText_tight (hs : style.Tight) (s : String) (rest : List Char) :
    (writeText style.asciiOnly s.toList rest).length = textExtent s + rest.length := by
  simp only [writeText_eq, hs.plain, textExtent, List.length_cons, List.length_append]
  omega

theorem line_tight (hs : style.Tight) (level : Nat) : style.line level = [] := by
  rw [Style.line, hs.straight]

mutual
/-- A tight writer writes the extent of a value. -/
theorem length_write {d : Dialect} (hs : style.Tight) (level : Nat) :
    ∀ (v : Json) (rest : List Char), v.Kept d →
      (write style level v rest).length = extent v + rest.length
  | .null, rest, _ => by simp [extent, write]; omega
  | .bool true, rest, _ => by simp [extent, write]; omega
  | .bool false, rest, _ => by simp [extent, write]; omega
  | .int n, rest, _ => by simp [extent, write]
  | .real d, rest, hv => hv.elim
  | .handler h, rest, hv => hv.elim
  | .str s, rest, _ => length_writeText_tight hs s rest
  | .arr [], rest, _ => by simp [extent, extentItems, write]; omega
  | .arr (v :: vs), rest, hv => by
    have hvs := length_writeItems hs (level + 1) vs (style.line level ++ ']' :: rest) hv.2.2
    have hv := length_write hs (level + 1) v
      (writeItems style (level + 1) vs (style.line level ++ ']' :: rest)) hv.2.1
    rw [extent, extentItems, write]
    simp only [line_tight hs, List.nil_append, List.cons_append, List.length_cons] at hv hvs ⊢
    omega
  | .obj [], rest, _ => by simp [extent, extentFields, write]; omega
  | .obj ((k, v) :: fs), rest, hv => by
    have hfs := length_writeFields hs (level + 1) fs (style.line level ++ '\x7d' :: rest) hv.2.2
    have hv := length_write hs (level + 1) v
      (writeFields style (level + 1) fs (style.line level ++ '\x7d' :: rest)) hv.2.1
    rw [extent, extentFields, write]
    simp only [line_tight hs, hs.keys, List.nil_append, List.cons_append, List.length_cons,
      length_writeText_tight hs] at hv hfs ⊢
    omega

theorem length_writeItems {d : Dialect} (hs : style.Tight) (level : Nat) :
    ∀ (vs : List Json) (rest : List Char), ThroughoutItems d.Keeps vs →
      (writeItems style level vs rest).length = extentItems vs + rest.length
  | [], rest, _ => by simp [extentItems, writeItems]
  | v :: vs, rest, hv => by
    have hvs := length_writeItems hs level vs rest hv.2
    have hv := length_write hs level v (writeItems style level vs rest) hv.1
    rw [extentItems, writeItems, line_tight hs, hs.items]
    simp only [List.nil_append, List.cons_append, List.length_cons]
    omega

theorem length_writeFields {d : Dialect} (hs : style.Tight) (level : Nat) :
    ∀ (fs : List (String × Json)) (rest : List Char), ThroughoutFields d.Keeps fs →
      (writeFields style level fs rest).length = extentFields fs + rest.length
  | [], rest, _ => by simp [extentFields, writeFields]
  | (k, v) :: fs, rest, hv => by
    have hfs := length_writeFields hs level fs rest hv.2
    have hv := length_write hs level v (writeFields style level fs rest) hv.1
    rw [extentFields, writeFields, line_tight hs, hs.items, hs.keys]
    simp only [List.nil_append, List.cons_append, List.length_cons, length_writeText_tight hs]
    omega
end

end Writing

end ViewTree.Json
