import Mathlib.Data.String.Basic
import ViewTree.Proofs.Json.Written

/-
  ViewTree.Proofs.Json.Bytes — how many bytes the text of a value takes.

  A character of ASCII takes one byte, and every other one takes more: what a text takes
  beyond one byte for each character is its surplus (`utf8ByteSize_ofList_eq`). All that the
  writers put into a document by themselves is ASCII: words, digits, separators, line breaks
  and escapes. So a document has the surplus of the texts and keys of the value, where they
  are written as they are, and none where everything beyond ASCII is escaped
  (`surplus_encodeChars`). The second happens only beside a handler, as long as no
  indentation is asked for.
-/

namespace ViewTree

/-! ## Characters beyond ASCII -/

namespace Text

variable {c : Char} {cs ds : List Char}

def Ascii (cs : List Char) : Prop := ∀ c ∈ cs, c.toNat < 0x80

instance (cs : List Char) : Decidable (Ascii cs) :=
  List.decidableBAll (fun c : Char => c.toNat < 0x80) cs

@[simp] theorem ascii_nil : Ascii [] := fun _ h => absurd h List.not_mem_nil

@[simp] theorem ascii_cons : Ascii (c :: cs) ↔ c.toNat < 0x80 ∧ Ascii cs := List.forall_mem_cons

@[simp] theorem ascii_append : Ascii (cs ++ ds) ↔ Ascii cs ∧ Ascii ds := List.forall_mem_append

@[simp] theorem ascii_flatMap {α : Type} {as : List α} {f : α → List Char} :
    Ascii (as.flatMap f) ↔ ∀ a ∈ as, Ascii (f a) := List.forall_mem_flatMap

theorem Ascii.subset (h : Ascii ds) (hsub : cs ⊆ ds) : Ascii cs := fun c hc => h c (hsub hc)

theorem ascii_replicate (n : Nat) (h : c.toNat < 0x80) : Ascii (List.replicate n c) := by
  intro d hd
  rwa [List.eq_of_mem_replicate hd]

/-- The bytes of a text beyond one for each character. -/
def surplus : List Char → Nat
  | [] => 0
  | c :: cs => c.utf8Size - 1 + surplus cs

@[simp] theorem surplus_nil : surplus [] = 0 := rfl

@[simp] theorem surplus_cons : surplus (c :: cs) = c.utf8Size - 1 + surplus cs := rfl

@[simp] theorem surplus_append : surplus (cs ++ ds) = surplus cs + surplus ds := by
  induction cs with
  | nil => exact (Nat.zero_add _).symm
  | cons c cs ih => rw [List.cons_append, surplus_cons, surplus_cons, ih, Nat.add_assoc]

theorem utf8ByteSize_ofList_eq (cs : List Char) :
    (String.ofList cs).utf8ByteSize = cs.length + surplus cs := by
  rw [String.utf8ByteSize_ofList]
  induction cs with
  | nil => rfl
  | cons c cs ih =>
    have hc := c.utf8Size_pos
    rw [String.utf8Len_cons, ih, List.length_cons, surplus_cons]
    omega

theorem utf8Size_eq_one_iff : c.utf8Size = 1 ↔ c.toNat < 0x80 := by
  rw [Char.utf8Size_eq_one_iff, UInt32.le_iff_toNat_le]
  exact Nat.lt_succ_iff.symm

theorem surplus_eq_zero_iff : surplus cs = 0 ↔ Ascii cs := by
  induction cs with
  | nil => simp
  | cons c cs ih =>
    have hc := c.utf8Size_pos
    rw [surplus_cons, Nat.add_eq_zero_iff, ih, ascii_cons, ← utf8Size_eq_one_iff]
    exact and_congr_left' (by omega)

theorem Ascii.surplus_append (h : Ascii cs) : surplus (cs ++ ds) = surplus ds := by
  rw [Text.surplus_append, surplus_eq_zero_iff.mpr h, Nat.zero_add]

end Text

open Text

/-! ## Numbers -/

theorem ascii_toDigits (n : Nat) : Ascii (Nat.toDigits 10 n) := by
  intro c hc
  have hdigit := Nat.isDigit_of_mem_toDigits (by decide) (by decide) hc
  simp only [Char.isDigit, Bool.and_eq_true, decide_eq_true_eq, UInt32.le_iff_toNat_le] at hdigit
  exact Nat.lt_of_le_of_lt hdigit.2 (by decide)

namespace Decimal

theorem ascii_shortest (d : Double) : Ascii (shortest d).digits := by
  unfold shortest
  dsimp only
  split
  · decide
  · rename_i c _ _
    refine (ascii_toDigits c).subset fun d hd => ?_
    have hreversed := (List.dropWhile_suffix _).subset (List.mem_reverse.mp hd)
    exact List.mem_reverse.mp hreversed

namespace Layout

variable {layout : Layout}

/-- The words for the values that are no numbers. -/
def words (layout : Layout) : List Char :=
  layout.nan ++ layout.infinity ++ layout.minusInfinity

theorem ascii_writeExponent (x : Int) : Ascii (layout.writeExponent x) := by
  have hsign : Ascii (if x < 0 then ['-'] else if layout.plus then ['+'] else []) := by
    split_ifs <;> decide
  simp [writeExponent, hsign, ascii_replicate, ascii_toDigits]

theorem ascii_writeScientific {s : Scientific} (h : Ascii s.digits) :
    Ascii (layout.writeScientific s) := by
  have htake : ∀ n, Ascii (s.digits.take n) := fun n => h.subset (List.take_subset n _)
  have hdrop : ∀ n, Ascii (s.digits.drop n) := fun n => h.subset (List.drop_subset n _)
  unfold writeScientific
  dsimp only
  split_ifs
  · split
    · exact ascii_nil
    · simp_all [ascii_writeExponent]
    · simp_all [ascii_writeExponent]
  · simp [h, ascii_replicate]
  · simp [htake, ascii_replicate]
  · simp [htake, hdrop, ascii_replicate]

theorem ascii_write (h : Ascii layout.words) (d : Double) : Ascii (layout.write d) := by
  simp only [words, ascii_append] at h
  have hsign : Ascii (if d.negative then ['-'] else []) := by split_ifs <;> decide
  have hdigits : Ascii (layout.writeScientific (shortest d)) :=
    ascii_writeScientific (ascii_shortest d)
  unfold write
  split_ifs <;> simp_all

end Layout

end Decimal

/-! ## Texts -/

namespace Json

section Texts

variable {asciiOnly : Bool} {c : Char} {cs rest : List Char}

theorem ascii_escapeUnits (c : Char) : Ascii (escapeUnits c) := by
  have hsigns : Ascii unitSigns := by decide
  exact fun d hd => hsigns d (mem_escapeUnits hd)

/-- Escapes bring no surplus, and every character beyond ASCII is escaped if any is. -/
theorem surplus_escapeChar (asciiOnly : Bool) (c : Char) :
    surplus (escapeChar asciiOnly c) = if asciiOnly then 0 else surplus [c] := by
  have hunits := surplus_eq_zero_iff.mpr (ascii_escapeUnits c)
  by_cases hlow : c.toNat < 0x80
  · have hc : surplus [c] = 0 := surplus_eq_zero_iff.mpr (by simpa using hlow)
    rw [hc, ite_self, surplus_eq_zero_iff]
    unfold escapeChar
    split_ifs
    all_goals first | decide | exact ascii_escapeUnits c | simpa using hlow
  · have hlast : escapeChar asciiOnly c = if asciiOnly then escapeUnits c else [c] := by
      unfold escapeChar
      repeat rw [if_neg (by rintro rfl; exact hlow (by decide))]
      have hhigh : 0x7f ≤ c.toNat := by omega
      have hprintable : ¬ c.toNat < 0x20 := by omega
      simp [hhigh, hprintable]
    rw [hlast]
    split_ifs
    · exact hunits
    · rfl

theorem surplus_escaped (asciiOnly : Bool) (cs : List Char) :
    surplus (escaped asciiOnly cs) = if asciiOnly then 0 else surplus cs := by
  induction cs with
  | nil => simp
  | cons c cs ih =>
    rw [escaped_cons, surplus_append, surplus_escapeChar, ih]
    split_ifs <;> simp

theorem surplus_writeText (asciiOnly : Bool) (cs rest : List Char) :
    surplus (writeText asciiOnly cs rest) = (if asciiOnly then 0 else surplus cs) + surplus rest := by
  have hquote : Ascii ['"'] := by decide
  rw [writeText_eq, ← List.singleton_append, hquote.surplus_append, surplus_append,
    surplus_escaped, ← List.singleton_append, hquote.surplus_append]

end Texts

/-! ## Values -/

/-- What a style writes beside the texts of a value is ASCII. -/
structure Style.Plain (style : Style) : Prop where
  items : Ascii style.itemSeparator
  keys : Ascii style.keySeparator
  words : Ascii style.numbers.words

theorem styleFor_plain (indent : Int) (v : Json) : (styleFor indent v).Plain := by
  have hwords : Ascii Decimal.Layout.portable.words := by decide
  have hindented : ∀ width, (Style.indented width).Plain := fun _ =>
    ⟨by simp [Style.indented], by simp [Style.indented], hwords⟩
  unfold styleFor
  split_ifs
  · exact hindented _
  all_goals exact ⟨by decide, by decide, by decide⟩

theorem ascii_blank {cs : List Char} (h : Blank cs) : Ascii cs := by
  intro c hc
  have hspace := h c hc
  simp only [isSpace, Bool.or_eq_true, decide_eq_true_eq] at hspace
  rcases hspace with ((rfl | rfl) | rfl) | rfl <;> decide

theorem ascii_intDigits (n : Int) : Ascii (intDigits n) := by
  cases n with
  | ofNat n => exact ascii_toDigits n
  | negSucc n => simpa [intDigits] using ascii_toDigits (n + 1)

/-- The surplus of some texts in a document of a style. -/
def Style.surplus (style : Style) (ts : List String) : Nat :=
  if style.asciiOnly then 0 else Text.surplus (ts.flatMap String.toList)

section Values

variable {style : Style}

@[simp] theorem Style.surplus_nil : style.surplus [] = 0 := by simp [Style.surplus]

@[simp] theorem Style.surplus_append (ts us : List String) :
    style.surplus (ts ++ us) = style.surplus ts + style.surplus us := by
  unfold Style.surplus
  split_ifs <;> simp

theorem Style.surplus_cons (t : String) (ts : List String) :
    style.surplus (t :: ts) = style.surplus [t] + style.surplus ts := Style.surplus_append [t] ts

theorem surplus_writeText_style (style : Style) (t : String) (rest : List Char) :
    Text.surplus (writeText style.asciiOnly t.toList rest) =
      style.surplus [t] + Text.surplus rest := by
  rw [surplus_writeText]
  simp [Style.surplus]

theorem surplus_closing {c : Char} (hc : c.toNat < 0x80) (level : Nat) (rest : List Char) :
    Text.surplus (style.line level ++ c :: rest) = Text.surplus rest := by
  have hcut : Ascii (style.line level ++ [c]) := by simp [ascii_blank (blank_line style level), hc]
  rw [List.append_cons, hcut.surplus_append]

mutual
/-- The texts of a value bring their surplus into its document, and nothing else does. -/
theorem surplus_write (hs : style.Plain) (level : Nat) :
    ∀ (v : Json) (rest : List Char), (style.asciiOnly = false → v.anyLeaf isHandler = false) →
      Text.surplus (write style level v rest) = style.surplus (texts v) + Text.surplus rest
  | .null, rest, _ => by
    simp only [write, texts, Style.surplus_nil, Nat.zero_add]
    exact Ascii.surplus_append (by decide)
  | .bool true, rest, _ => by
    simp only [write, texts, Style.surplus_nil, Nat.zero_add]
    exact Ascii.surplus_append (by decide)
  | .bool false, rest, _ => by
    simp only [write, texts, Style.surplus_nil, Nat.zero_add]
    exact Ascii.surplus_append (by decide)
  | .int n, rest, _ => by
    simp only [write, texts, Style.surplus_nil, Nat.zero_add]
    exact (ascii_intDigits n).surplus_append
  | .real d, rest, _ => by
    simp only [write, texts, Style.surplus_nil, Nat.zero_add]
    exact (Decimal.Layout.ascii_write hs.words d).surplus_append
  | .str s, rest, _ => by
    rw [write, surplus_writeText_style, texts]
  | .handler h, rest, hv => by
    -- beside a handler everything beyond ASCII is escaped
    have hescaped : style.asciiOnly = true := by
      cases hstyle : style.asciiOnly with
      | true => rfl
      | false => cases hv hstyle
    simp only [write, texts, Style.surplus_nil]
    rw [surplus_writeText, hescaped, if_pos rfl]
  | .arr [], rest, _ => by
    simp only [write, texts, textsItems, Style.surplus_nil, Nat.zero_add]
    exact (show Ascii ['[', ']'] by decide).surplus_append
  | .arr (v :: vs), rest, hv => by
    have hmembers := fun h => Bool.or_eq_false_iff.mp (hv h)
    have hopening : Ascii ('[' :: style.line (level + 1)) := by
      simp [ascii_blank (blank_line style (level + 1))]
    rw [write, hopening.surplus_append, surplus_write hs (level + 1) v _ fun h => (hmembers h).1,
      surplus_writeItems hs (level + 1) vs _ fun h => (hmembers h).2, surplus_closing (by decide),
      texts, textsItems, Style.surplus_append, Nat.add_assoc]
  | .obj [], rest, _ => by
    simp only [write, texts, textsFields, Style.surplus_nil, Nat.zero_add]
    exact (show Ascii ['\x7b', '\x7d'] by decide).surplus_append
  | .obj ((k, v) :: fs), rest, hv => by
    have hmembers := fun h => Bool.or_eq_false_iff.mp (hv h)
    have hopening : Ascii ('\x7b' :: style.line (level + 1)) := by
      simp [ascii_blank (blank_line style (level + 1))]
    rw [write, hopening.surplus_append, surplus_writeText_style, hs.keys.surplus_append,
      surplus_write hs (level + 1) v _ fun h => (hmembers h).1,
      surplus_writeFields hs (level + 1) fs _ fun h => (hmembers h).2, surplus_closing (by decide),
      texts, textsFields, Style.surplus_append, Style.surplus_cons k (texts v)]
    omega

theorem surplus_writeItems (hs : style.Plain) (level : Nat) :
    ∀ (vs : List Json) (rest : List Char),
      (style.asciiOnly = false → anyLeafItems isHandler vs = false) →
      Text.surplus (writeItems style level vs rest) =
        style.surplus (textsItems vs) + Text.surplus rest
  | [], rest, _ => by simp [writeItems, textsItems]
  | v :: vs, rest, hv => by
    have hmembers := fun h => Bool.or_eq_false_iff.mp (hv h)
    rw [writeItems, hs.items.surplus_append,
      (ascii_blank (blank_line style level)).surplus_append,
      surplus_write hs level v _ fun h => (hmembers h).1,
      surplus_writeItems hs level vs _ fun h => (hmembers h).2, textsItems,
      Style.surplus_append, Nat.add_assoc]

theorem surplus_writeFields (hs : style.Plain) (level : Nat) :
    ∀ (fs : List (String × Json)) (rest : List Char),
      (style.asciiOnly = false → anyLeafFields isHandler fs = false) →
      Text.surplus (writeFields style level fs rest) =
        style.surplus (textsFields fs) + Text.surplus rest
  | [], rest, _ => by simp [writeFields, textsFields]
  | (k, v) :: fs, rest, hv => by
    have hmembers := fun h => Bool.or_eq_false_iff.mp (hv h)
    rw [writeFields, hs.items.surplus_append,
      (ascii_blank (blank_line style level)).surplus_append, surplus_writeText_style,
      hs.keys.surplus_append, surplus_write hs level v _ fun h => (hmembers h).1,
      surplus_writeFields hs level fs _ fun h => (hmembers h).2, textsFields,
      Style.surplus_append, Style.surplus_cons k (texts v)]
    omega
end

end Values

theorem asciiOnly_styleFor_zero (v : Json) : (styleFor 0 v).asciiOnly = v.anyLeaf isHandler := by
  unfold styleFor
  cases v.anyLeaf isHandler
  · simp only [Int.lt_irrefl, decide_false, Bool.or_self, Bool.false_eq_true, if_false]
    split_ifs <;> rfl
  · rfl

/-- The bytes of the text of a value, without an indentation, beyond its characters. -/
def surplus (v : Json) : Nat :=
  if v.anyLeaf isHandler then 0 else Text.surplus ((texts v).flatMap String.toList)

theorem surplus_encodeChars (v : Json) : Text.surplus (encodeChars v 0) = v.surplus := by
  rw [encodeChars, surplus_write (styleFor_plain 0 v) 0 v [] fun h => by
    rwa [asciiOnly_styleFor_zero] at h]
  rw [Style.surplus, asciiOnly_styleFor_zero, Text.surplus_nil, Nat.add_zero, surplus]

theorem utf8ByteSize_encode (v : Json) :
    (v.encode 0).utf8ByteSize = (v.encodeChars 0).length + v.surplus := by
  rw [encode, utf8ByteSize_ofList_eq, surplus_encodeChars]

theorem surplus_eq_zero_iff {v : Json} :
    v.surplus = 0 ↔ v.anyLeaf isHandler = true ∨ ∀ t ∈ texts v, Ascii t.toList := by
  unfold surplus
  cases v.anyLeaf isHandler
  · simp [Text.surplus_eq_zero_iff]
  · simp

end Json

end ViewTree
