import ViewTree.Proofs.Json.Extraction

/-
  ViewTree.Proofs.Json.Search — where the search for an object looks.

  The search has three stages, and each is pinned here on the texts in question. Trimming
  takes blanks from both ends and leaves what stands between characters that are none
  (`trim_around`). A fenced block is what stands between the first fence and the next
  one, or the end, without a tag (`stripFences_block`); a text without a fence is left
  alone. The candidate is what stands from the first opening to the last closing brace
  (`candidate_between`).

  Fences are met one after the other: text that holds none and does not end in a
  backtick is passed over, since no fence starts in it (`Fenceless`).
-/

namespace ViewTree.Json

/-! ## The first occurrence of a word -/

theorem find?_succ (word cs : List Char) (start : Nat) :
    find? word (start + 1) cs = (find? word start cs).map (· + 1) := by
  induction cs generalizing start with
  | nil =>
    rw [find?, find?]
    split <;> rfl
  | cons c cs ih =>
    rw [find?, find?]
    split
    · rfl
    · exact ih (start + 1)

theorem find?_eq_none_iff {word cs : List Char} {start : Nat} :
    find? word start cs = none ↔ ¬ word <:+: cs := by
  induction cs generalizing start with
  | nil => cases word <;> simp [find?]
  | cons c cs ih =>
    rw [find?, List.infix_cons_iff, ← List.isPrefixOf_iff_prefix]
    by_cases h : word.isPrefixOf (c :: cs) = true
    · simp [h]
    · simp [h, ih]

section Words

variable {word : List Char} {c : Char} {cs : List Char}

theorem find?_cons (h : ¬ word <+: c :: cs) :
    find? word 0 (c :: cs) = (find? word 0 cs).map (· + 1) := by
  rw [← List.isPrefixOf_iff_prefix] at h
  rw [find?, if_neg h, find?_succ]

/-- Where a word does not start, the search goes on behind the next character. -/
theorem after?_cons (h : ¬ word <+: c :: cs) : after? word (c :: cs) = after? word cs := by
  rw [after?, after?, find?_cons h, Option.map_map]
  congr 1
  funext n
  simp only [Function.comp_apply]
  rw [Nat.add_right_comm, List.drop_succ_cons]

theorem upTo_cons (h : ¬ word <+: c :: cs) : upTo word (c :: cs) = c :: upTo word cs := by
  rw [upTo, upTo, find?_cons h]
  cases find? word 0 cs <;> rfl

theorem find?_here (hne : word ≠ []) (cs : List Char) : find? word 0 (word ++ cs) = some 0 := by
  cases hword : word with
  | nil => exact absurd hword hne
  | cons w rest =>
    have hprefix : (w :: rest).isPrefixOf (w :: (rest ++ cs)) = true :=
      List.isPrefixOf_iff_prefix.mpr ⟨cs, rfl⟩
    rw [List.cons_append, find?, if_pos hprefix]

theorem after?_here (hne : word ≠ []) (cs : List Char) : after? word (word ++ cs) = some cs := by
  rw [after?, find?_here hne]
  simp

theorem after?_eq_none_iff : after? word cs = none ↔ ¬ word <:+: cs := by
  rw [after?, Option.map_eq_none_iff, find?_eq_none_iff]

theorem length_after?_lt {r : List Char} (hne : word ≠ []) (h : after? word cs = some r) :
    r.length < cs.length := by
  obtain ⟨n, hn, rfl⟩ := Option.map_eq_some_iff.mp h
  have hword := List.length_pos_iff.mpr hne
  cases cs with
  | nil =>
    cases word with
    | nil => exact absurd rfl hne
    | cons w rest => simp [find?] at hn
  | cons c cs =>
    rw [List.length_drop, List.length_cons]
    omega

theorem upTo_isPrefix (word cs : List Char) : upTo word cs <+: cs := by
  rw [upTo]
  split
  · exact List.take_prefix _ _
  · exact List.prefix_refl _

end Words

/-! ## Text without fences -/

/-- No fence stands in a text, and none starts in it. -/
structure Fenceless (cs : List Char) : Prop where
  free : ¬ fence <:+: cs
  ends : cs.getLast? ≠ some '\x60'

theorem fence_ne_nil : fence ≠ [] := List.cons_ne_nil _ _

/-- A fence in front of a text that does not end in a backtick stands in that text. -/
theorem fence_prefix_append {a b : List Char} (hne : a ≠ []) (hends : a.getLast? ≠ some '\x60')
    (h : fence <+: a ++ b) : fence <+: a := by
  rcases a with _ | ⟨c, _ | ⟨d, _ | ⟨e, rest⟩⟩⟩
  · exact absurd rfl hne
  · simp only [fence, List.cons_append, List.nil_append, List.cons_prefix_cons] at h
    exact absurd (congrArg some h.1.symm) hends
  · simp only [fence, List.cons_append, List.nil_append, List.cons_prefix_cons] at h
    exact absurd (congrArg some h.2.1.symm) hends
  · simpa [fence] using h

namespace Fenceless

variable {a b cs : List Char}

theorem of_not_mem (h : '\x60' ∉ cs) : Fenceless cs where
  free hfence := h (hfence.subset List.mem_cons_self)
  ends hlast := h (List.mem_of_getLast? hlast)

theorem tail {c : Char} (h : Fenceless (c :: cs)) : Fenceless cs where
  free hfence := h.free (List.infix_cons hfence)
  ends hlast := by
    refine h.ends ?_
    rw [List.getLast?_cons, hlast]
    rfl

theorem not_prefix {c : Char} (h : Fenceless (c :: cs)) (w b : List Char) :
    ¬ fence ++ w <+: c :: (cs ++ b) := by
  intro hprefix
  have hfence : fence <+: (c :: cs) ++ b := (List.prefix_append fence w).trans hprefix
  exact h.free (fence_prefix_append (List.cons_ne_nil _ _) h.ends hfence).isInfix

/-- The search for a fence, tagged or not, passes over it. -/
theorem after?_append (h : Fenceless a) (w b : List Char) :
    after? (fence ++ w) (a ++ b) = after? (fence ++ w) b := by
  induction a with
  | nil => rfl
  | cons c a ih => rw [List.cons_append, after?_cons (h.not_prefix w b), ih h.tail]

theorem after?_fence_append (h : Fenceless a) (b : List Char) :
    after? fence (a ++ b) = after? fence b := by
  have hskip := h.after?_append [] b
  rwa [List.append_nil] at hskip

theorem upTo_append (h : Fenceless a) (b : List Char) : upTo fence (a ++ b) = a ++ upTo fence b := by
  induction a with
  | nil => rfl
  | cons c a ih =>
    have hno := h.not_prefix [] b
    rw [List.append_nil] at hno
    rw [List.cons_append, upTo_cons hno, ih h.tail]
    rfl

theorem append (ha : Fenceless a) (hb : Fenceless b) : Fenceless (a ++ b) where
  free := by
    rw [← after?_eq_none_iff, ha.after?_fence_append, after?_eq_none_iff]
    exact hb.free
  ends hlast := by
    rw [List.getLast?_append] at hlast
    cases hb' : b.getLast? with
    | none =>
      rw [hb'] at hlast
      exact ha.ends hlast
    | some e =>
      rw [hb'] at hlast
      exact hb.ends (hb'.trans hlast)

end Fenceless

/-! ## Blanks at the ends -/

theorem dropWhile_stop {p : Char → Bool} {c : Char} (hc : p c = false) (cs rest : List Char) :
    ∃ kept, kept <:+ cs ∧ (cs ++ c :: rest).dropWhile p = kept ++ c :: rest := by
  induction cs with
  | nil => exact ⟨[], List.suffix_refl _, by simp [hc]⟩
  | cons d cs ih =>
    rw [List.cons_append, List.dropWhile_cons]
    split
    · obtain ⟨kept, hkept, heq⟩ := ih
      exact ⟨kept, hkept.trans (List.suffix_cons d cs), heq⟩
    · exact ⟨d :: cs, List.suffix_refl _, rfl⟩

/-- A text that neither begins nor ends with a blank. -/
structure Solid (core : List Char) : Prop where
  first : ∃ c rest, core = c :: rest ∧ Text.isBlank c = false
  last : ∃ c rest, core = rest ++ [c] ∧ Text.isBlank c = false

/-- Only what stands around a solid text loses blanks. -/
theorem trim_around {core : List Char} (h : Solid core) (p s : List Char) :
    ∃ p' s', p' <:+ p ∧ s' <+: s ∧ Text.trim (p ++ core ++ s) = p' ++ core ++ s' := by
  obtain ⟨first, behind, hfirst, hsolid⟩ := h.first
  obtain ⟨last, ahead, hlast, hsolid'⟩ := h.last
  obtain ⟨p', hp', hleft⟩ := dropWhile_stop hsolid p (behind ++ s)
  obtain ⟨s', hs', hright⟩ := dropWhile_stop hsolid' s.reverse (ahead.reverse ++ p'.reverse)
  refine ⟨p', s'.reverse, hp', ?_, ?_⟩
  · rw [← List.reverse_suffix, List.reverse_reverse]
    exact hs'
  · have hends : (p' ++ core ++ s).reverse =
        s.reverse ++ last :: (ahead.reverse ++ p'.reverse) := by
      rw [hlast]
      simp
    rw [Text.trim, Text.trimBy, hfirst, List.append_assoc, List.cons_append, hleft,
      ← List.cons_append, ← hfirst, ← List.append_assoc, hends, hright, hlast]
    simp

/-! ## The inside of a fenced block -/

theorem stripFences_plain {cs : List Char} (h : ¬ fence <:+: cs) : stripFences cs = cs := by
  rw [stripFences, after?_eq_none_iff.mpr h]

/-- The word that tags a fence as JSON. -/
def jsonTag : List Char := "json".toList

/-- What is left of the line behind a fence. -/
def untagged (line : List Char) : List Char :=
  if jsonTag.isPrefixOf line then line.drop jsonTag.length else line

/-- A fence without the tag is passed over, unless a backtick follows. -/
theorem after?_jsonFence_fence {cs : List Char} (htag : ¬ jsonTag <+: cs)
    (hhead : cs.head? ≠ some '\x60') : after? jsonFence (fence ++ cs) = after? jsonFence cs := by
  have hshape : jsonFence = '\x60' :: '\x60' :: '\x60' :: jsonTag := rfl
  have hfirst : ∀ w, ¬ '\x60' :: w <+: cs := by
    rintro w ⟨rest, rfl⟩
    exact hhead rfl
  rw [fence, List.cons_append, List.cons_append, List.cons_append, List.nil_append, hshape,
    after?_cons, after?_cons, after?_cons]
  · simpa [List.cons_prefix_cons] using hfirst _
  · simpa [List.cons_prefix_cons] using hfirst _
  · simpa [List.cons_prefix_cons] using htag

/-- A prefix without line breaks of a text stands in its first line. -/
theorem prefix_line {word line : List Char} (hword : '\n' ∉ word)
    (hline : line.getLast? = some '\n') {rest : List Char} (h : word <+: line ++ rest) :
    word <+: line := by
  rcases List.prefix_or_prefix_of_prefix h (List.prefix_append line rest) with hin | hover
  · exact hin
  · exact absurd (hover.subset (List.mem_of_getLast? hline)) hword

theorem after?_jsonFence_tagged {p : List Char} (hp : '\x60' ∉ p) (tail : List Char) :
    after? jsonFence (p ++ (fence ++ (jsonTag ++ tail))) = some tail := by
  have htag : jsonFence ≠ [] := by simp [jsonFence, fence]
  rw [jsonFence, (Fenceless.of_not_mem hp).after?_append, ← jsonFence, ← List.append_assoc]
  exact after?_here htag tail

theorem after?_jsonFence_untagged {p line body rest : List Char} (hp : '\x60' ∉ p)
    (hline : '\x60' ∉ line) (hends : line.getLast? = some '\n') (htag : ¬ jsonTag <+: line)
    (hbody : Fenceless body) (hrest : after? jsonFence rest = none) :
    after? jsonFence (p ++ (fence ++ (line ++ (body ++ rest)))) = none := by
  have hhead : (line ++ (body ++ rest)).head? ≠ some '\x60' := by
    intro hhead
    cases line with
    | nil => simp at hends
    | cons c line =>
      rw [List.cons_append, List.head?_cons, Option.some_inj] at hhead
      exact hline (hhead ▸ List.mem_cons_self)
  have hnext : ¬ jsonTag <+: line ++ (body ++ rest) := fun h =>
    htag (prefix_line (by decide) hends h)
  rw [jsonFence, (Fenceless.of_not_mem hp).after?_append, ← jsonFence,
    after?_jsonFence_fence hnext hhead, jsonFence, (Fenceless.of_not_mem hline).after?_append,
    hbody.after?_append]
  exact hrest

/-- The inside of a block reaches from the tag to the next fence. -/
theorem stripFences_block {p line body rest : List Char} (hp : '\x60' ∉ p)
    (hline : '\x60' ∉ line) (hends : line.getLast? = some '\n') (hbody : Fenceless body)
    (hrest : after? jsonFence rest = none) :
    stripFences (p ++ (fence ++ (line ++ (body ++ rest)))) =
      Text.trim (untagged line ++ body ++ upTo fence rest) := by
  have hplain : after? fence (p ++ (fence ++ (line ++ (body ++ rest)))) =
      some (line ++ (body ++ rest)) := by
    rw [(Fenceless.of_not_mem hp).after?_fence_append, after?_here fence_ne_nil]
  rw [stripFences, hplain]
  simp only
  -- the tag decides behind which characters the block begins
  by_cases htag : jsonTag <+: line
  · obtain ⟨tail, rfl⟩ := htag
    have htail : untagged (jsonTag ++ tail) = tail := by
      rw [untagged, if_pos (List.isPrefixOf_iff_prefix.mpr (List.prefix_append _ _)),
        List.drop_left]
    have hfree : Fenceless tail := .of_not_mem fun hmem => hline (List.mem_append_right _ hmem)
    rw [List.append_assoc jsonTag, after?_jsonFence_tagged hp, Option.getD_some, htail,
      hfree.upTo_append, hbody.upTo_append, List.append_assoc]
  · have hword : untagged line = line := by
      rw [untagged, if_neg (fun h => htag (List.isPrefixOf_iff_prefix.mp h))]
    rw [after?_jsonFence_untagged hp hline hends htag hbody hrest, Option.getD_none, hword,
      (Fenceless.of_not_mem hline).upTo_append, hbody.upTo_append, List.append_assoc]

/-! ## From brace to brace -/

/-- A text from brace to brace. -/
def Braced (cs : List Char) : Prop := ∃ body, cs = '\x7b' :: (body ++ ['\x7d'])

theorem Braced.solid {cs : List Char} (h : Braced cs) : Solid cs := by
  obtain ⟨body, rfl⟩ := h
  exact ⟨⟨_, _, rfl, by decide⟩, ⟨'\x7d', '\x7b' :: body, rfl, by decide⟩⟩

theorem candidate_between {p j s : List Char} (hp : '\x7b' ∉ p) (hj : Braced j)
    (hs : '\x7d' ∉ s) :
    upToLastBrace ((p ++ j ++ s).dropWhile (· != '\x7b')) = j := by
  obtain ⟨body, rfl⟩ := hj
  have hleft : ∀ c ∈ p, (c != '\x7b') = true := fun c hc => by
    rw [bne_iff_ne]
    rintro rfl
    exact hp hc
  have hright : ∀ c ∈ s.reverse, (c != '\x7d') = true := fun c hc => by
    rw [bne_iff_ne]
    rintro rfl
    exact hs (List.mem_reverse.mp hc)
  rw [List.append_assoc, List.dropWhile_append_of_pos hleft]
  simp [upToLastBrace, List.dropWhile_append_of_pos hright]

/-- The candidate of an object in braces, when the block around it holds no other brace. -/
theorem findObject?_eq {cs p j s : List Char} (h : stripFences (Text.trim cs) = p ++ j ++ s)
    (hp : '\x7b' ∉ p) (hj : Braced j) (hs : '\x7d' ∉ s) : findObject? cs = some j := by
  rw [findObject?, h, candidate_between hp hj hs]
  obtain ⟨body, rfl⟩ := hj
  rfl

/-! ## What is lost behind a fence -/

theorem length_trim_le (cs : List Char) : (Text.trim cs).length ≤ cs.length := by
  have hleft := (List.dropWhile_sublist Text.isBlank (l := cs)).length_le
  have hright := (List.dropWhile_sublist Text.isBlank
    (l := (cs.dropWhile Text.isBlank).reverse)).length_le
  rw [List.length_reverse] at hright
  rw [Text.trim, Text.trimBy, List.length_reverse]
  omega

theorem length_stripFences_lt {cs : List Char} (h : fence <:+: cs) :
    (stripFences cs).length < cs.length := by
  cases hplain : after? fence cs with
  | none => exact absurd h (after?_eq_none_iff.mp hplain)
  | some plain =>
    have hblock : ((after? jsonFence cs).getD plain).length < cs.length := by
      cases htagged : after? jsonFence cs with
      | none => exact length_after?_lt fence_ne_nil hplain
      | some tagged => exact length_after?_lt (by simp [jsonFence, fence]) htagged
    have hinside := (upTo_isPrefix fence ((after? jsonFence cs).getD plain)).length_le
    have htrim := length_trim_le (upTo fence ((after? jsonFence cs).getD plain))
    rw [stripFences, hplain]
    simp only
    omega

/-- With a fence in it, a text loses at least the fence. -/
theorem length_findObject?_lt {cs candidate : List Char} (h : fence <:+: Text.trim cs)
    (hfound : findObject? cs = some candidate) : candidate.length < cs.length := by
  have hstrip := length_stripFences_lt h
  have htrim := length_trim_le cs
  have hopen := (List.dropWhile_sublist (· != '\x7b')
    (l := stripFences (Text.trim cs))).length_le
  have hclose := (List.dropWhile_sublist (· != '\x7d')
    (l := ((stripFences (Text.trim cs)).dropWhile (· != '\x7b')).reverse)).length_le
  have hcandidate : candidate =
      upToLastBrace ((stripFences (Text.trim cs)).dropWhile (· != '\x7b')) := by
    rw [findObject?] at hfound
    split at hfound
    · cases hfound
    · exact (Option.some_inj.mp hfound).symm
  rw [hcandidate, upToLastBrace, List.length_reverse]
  rw [List.length_reverse] at hclose
  omega

end ViewTree.Json
