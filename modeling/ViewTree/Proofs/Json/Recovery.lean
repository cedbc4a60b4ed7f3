import ViewTree.Proofs.Json.Consumed
import ViewTree.Proofs.Json.Written

/-
  ViewTree.Proofs.Json.Recovery — which written objects are found again.

  An object whose text holds no fence is recovered from prose and from a fenced block
  around it (`extract_wrapped`), whatever its indentation: the search ends with the text
  of the object and nothing else, and the exact reading inverts the writer.

  The search looks for fences in the raw text, also where they stand inside a string. An
  object on its own is therefore recovered exactly when no fence stands in its texts and
  keys (`extract_encode_iff`). Otherwise the candidate is shorter than the text of the
  object, and no shorter text reads as the object, since a value takes at least its
  extent.
-/

namespace ViewTree.Json

/-- A text without braces and backticks. -/
structure Bare (cs : List Char) : Prop where
  opening : '\x7b' ∉ cs
  closing : '\x7d' ∉ cs
  backtick : '\x60' ∉ cs

theorem Bare.of_subset {cs cs' : List Char} (h : Bare cs) (hsub : cs' ⊆ cs) : Bare cs' :=
  ⟨fun hc => h.opening (hsub hc), fun hc => h.closing (hsub hc), fun hc => h.backtick (hsub hc)⟩

theorem Bare.nil : Bare [] := ⟨List.not_mem_nil, List.not_mem_nil, List.not_mem_nil⟩

/-- How a block ends: it is left open, or a fence on a line of its own closes it and at
    most a line break may follow on that line. -/
def Closes (close after : List Char) : Prop :=
  close = [] ∨ close = '\n' :: fence ∧ (after = [] ∨ after.head? = some '\n')

theorem Braced.fenceless {cs : List Char} (h : Braced cs) (hfree : ¬ fence <:+: cs) :
    Fenceless cs := by
  obtain ⟨body, rfl⟩ := h
  refine ⟨hfree, ?_⟩
  rw [← List.cons_append, List.getLast?_concat]
  decide

section Wrapped

variable {p j s : List Char}

/-- Prose around an object. -/
theorem findObject?_prose (hp : Bare p) (hj : Braced j) (hfree : ¬ fence <:+: j) (hs : Bare s) :
    findObject? (p ++ j ++ s) = some j := by
  obtain ⟨p', s', hp', hs', htrim⟩ := trim_around hj.solid p s
  replace hp' := hp.of_subset hp'.subset
  replace hs' := hs.of_subset hs'.subset
  have hbefore := Fenceless.of_not_mem hp'.backtick
  have hafter := Fenceless.of_not_mem hs'.backtick
  refine findObject?_eq ?_ hp'.opening hj hs'.closing
  rw [htrim, stripFences_plain ((hbefore.append (hj.fenceless hfree)).append hafter).free]

theorem after?_jsonFence_bare {cs : List Char} (h : '\x60' ∉ cs) : after? jsonFence cs = none :=
  after?_eq_none_iff.mpr fun hin => h (hin.subset (by decide))

/-- What closes a block is no fence tagged as JSON. -/
theorem Closes.after? {close s' : List Char} (h : Closes close s) (hs : Bare s)
    (hs' : s' <+: s) : after? jsonFence (close ++ s') = none := by
  have hbare := after?_jsonFence_bare (hs.of_subset hs'.subset).backtick
  rcases h with rfl | ⟨rfl, hnext⟩
  · exact hbare
  · have hhead : ∀ c, s'.head? = some c → c = '\n' := by
      intro c hc
      obtain ⟨more, rfl⟩ := hs'
      rcases hnext with hnil | hline
      · rw [(List.append_eq_nil_iff.mp hnil).1] at hc
        cases hc
      · rw [List.head?_append, hc] at hline
        exact Option.some_inj.mp hline
    have hbreak : ¬ jsonFence <+: '\n' :: (fence ++ s') := by simp [jsonFence, fence]
    rw [List.cons_append, after?_cons hbreak, after?_jsonFence_fence]
    · exact hbare
    · rintro ⟨more, rfl⟩
      exact absurd (hhead 'j' rfl) (by decide)
    · intro htick
      exact absurd (hhead _ htick) (by decide)

theorem solid_block (line : List Char) {close : List Char} (hj : Braced j) (hclose : Closes close s) :
    Solid (fence ++ line ++ j ++ close) where
  first := ⟨'\x60', _, rfl, by decide⟩
  last := by
    rcases hclose with rfl | ⟨rfl, -⟩
    · obtain ⟨c, rest, hlast, hsolid⟩ := hj.solid.last
      exact ⟨c, fence ++ line ++ rest, by rw [hlast]; simp, hsolid⟩
    · exact ⟨'\x60', fence ++ line ++ j ++ ['\n', '\x60', '\x60'], by simp [fence], by decide⟩

theorem untagged_suffix (line : List Char) : untagged line <:+ line := by
  rw [untagged]
  split
  · exact List.drop_suffix _ _
  · exact List.suffix_refl _

/-- A fenced block around an object, and prose around the block. -/
theorem findObject?_block {line close : List Char} (hp : Bare p) (hline : Bare line)
    (hends : line.getLast? = some '\n') (hj : Braced j) (hfree : ¬ fence <:+: j)
    (hclose : Closes close s) (hs : Bare s) :
    findObject? (p ++ (fence ++ line ++ j ++ close) ++ s) = some j := by
  -- blanks are dropped twice: around the block, and in the block around the object
  obtain ⟨p', s', hp', hs', htrim⟩ := trim_around (solid_block line hj hclose) p s
  have hblock := stripFences_block (hp.of_subset hp'.subset).backtick hline.backtick hends
    (hj.fenceless hfree) (hclose.after? hs hs')
  obtain ⟨front, back, hfront, hback, hinside⟩ :=
    trim_around hj.solid (untagged line) (upTo fence (close ++ s'))
  have hopening := (hline.of_subset (hfront.trans (untagged_suffix line)).subset).opening
  have hclosing : '\x7d' ∉ back := by
    intro hmem
    rcases List.mem_append.mp ((hback.trans (upTo_isPrefix _ _)).subset hmem) with hc | hc
    · rcases hclose with rfl | ⟨rfl, -⟩
      · cases hc
      · exact absurd hc (by decide)
    · exact hs.closing (hs'.subset hc)
  refine findObject?_eq ?_ hopening hj hclosing
  rw [htrim]
  simp only [List.append_assoc] at hblock hinside ⊢
  rw [hblock, hinside]

end Wrapped

/-! ## Extraction -/

/-- The exact reading of the candidate decides. -/
theorem extract_eq {text : String} {candidate : List Char} {o : Fields}
    (hfound : findObject? text.toList = some candidate)
    (hread : read .exact candidate = .ok (.obj o)) (mend : Bool) : extract text mend = .ok o := by
  have hexact : read? .exact candidate = some (.obj o) := by
    rw [read?, hread]
    rfl
  rw [extract, hfound]
  simp only [hexact]
  rfl

/-- Without repair, an object comes from a candidate that reads as this object. -/
theorem read_of_extract {text : String} {o : Fields} (h : extract text false = .ok o) :
    ∃ candidate, findObject? text.toList = some candidate ∧
      read .exact candidate = .ok (.obj o) := by
  rw [extract] at h
  cases hfound : findObject? text.toList with
  | none => simp [hfound] at h
  | some candidate =>
    refine ⟨candidate, rfl, ?_⟩
    cases hread : read .exact candidate with
    | error flaw => simp [hfound, read?, hread, Except.toOption] at h
    | ok v =>
      simp only [hfound, read?, hread, Except.toOption] at h
      cases v with
      | obj fields =>
        cases h
        rfl
      | _ => simp [asObject] at h

/-- An object with a fence in its text is not what its own text gives: what is left of
    the text is too short for it. -/
theorem extract_fenced {o : Fields} (ho : (Json.obj o).Kept .exact)
    (hfenced : fence <:+: encodeChars (.obj o) 0) : extract (encode (.obj o) 0) false ≠ .ok o := by
  intro h
  -- the object needs all of its text, and the fence is lost
  obtain ⟨candidate, hfound, hread⟩ := read_of_extract h
  obtain ⟨body, hbody⟩ := braced_encodeChars o 0
  rw [toList_encode] at hfound
  have hshort : candidate.length < (encodeChars (.obj o) 0).length := by
    refine length_findObject?_lt ?_ hfound
    rwa [hbody, trim_braced, ← hbody]
  have hwhole : (encodeChars (.obj o) 0).length = extent (.obj o) := by
    rw [encodeChars, length_write (styleFor_tight ho) 0 _ _ ho]
    rfl
  have hneeded : extent (.obj o) ≤ candidate.length := extent_le_of_read hread
  omega

/-- An object is recovered from prose around it, and from a fenced block with prose around
    the block, unless a fence stands in the text of the object itself. -/
theorem extract_wrapped {o : Fields} (ho : (Json.obj o).Kept .exact) (indent : Int)
    (hfree : ¬ Fenced (encode (.obj o) indent)) {before after : String}
    (hbefore : Bare before.toList) (hafter : Bare after.toList) (mend : Bool) :
    extract (before ++ encode (.obj o) indent ++ after) mend = .ok o ∧
      ∀ line close : String, Bare line.toList → line.toList.getLast? = some '\n' →
        Closes close.toList after.toList →
          extract (before ++ (String.ofList fence ++ line ++ encode (.obj o) indent ++ close) ++
            after) mend = .ok o := by
  have hj := braced_encodeChars o indent
  have hread := read_encodeChars ho indent
  rw [Fenced, toList_encode] at hfree
  constructor
  · refine extract_eq ?_ hread mend
    rw [String.toList_append, String.toList_append, toList_encode]
    exact findObject?_prose hbefore hj hfree hafter
  · intro line close hline hends hclose
    refine extract_eq ?_ hread mend
    simp only [String.toList_append, toList_encode, String.toList_ofList]
    exact findObject?_block hbefore hline hends hj hfree hclose hafter

/-- Braces, a quote and single backticks, all inside a text. -/
def snippet : Fields :=
  [("code", .str "run \x60f(\x7b\"a\"\x7d)\x60"), ("lines", .arr [.int 12, .null])]

theorem kept_snippet : (Json.obj snippet).Kept .exact := by
  refine ⟨?_, trivial, ⟨trivial, ?_, trivial, trivial⟩, trivial⟩
  · show (Fields.keys snippet).Nodup
    decide
  · show (Nat.toDigits 10 12).length ≤ Text.maxDigits
    decide

theorem extract_wrapped_snippet :
    extract ("Here it is: " ++ encode (.obj snippet) 2 ++ "\nDone.") true = .ok snippet ∧
      extract ("Here it is: " ++ (String.ofList fence ++ "json\n" ++ encode (.obj snippet) 2 ++
        "\n\x60\x60\x60") ++ "\nDone.") true = .ok snippet := by
  have hfree : ¬ Fenced (encode (.obj snippet) 2) := by
    rw [Fenced, toList_encode, fence_infix_encodeChars kept_snippet]
    decide
  have hbefore : Bare "Here it is: ".toList := ⟨by decide, by decide, by decide⟩
  have hafter : Bare "\nDone.".toList := ⟨by decide, by decide, by decide⟩
  obtain ⟨hprose, hblock⟩ := extract_wrapped kept_snippet 2 hfree hbefore hafter true
  exact ⟨hprose, hblock "json\n" "\n\x60\x60\x60" ⟨by decide, by decide, by decide⟩ (by decide)
    (.inr ⟨by decide, .inr (by decide)⟩)⟩

/-- An object on its own is read back exactly when no fence stands in a text or key of it,
    and then under repair too. -/
theorem extract_encode_iff {o : Fields} (ho : (Json.obj o).Kept .exact) :
    (extract (encode (.obj o) 0) false = .ok o ↔ ∀ t ∈ texts (.obj o), ¬ Fenced t) ∧
      ((∀ t ∈ texts (.obj o), ¬ Fenced t) → ∀ mend, extract (encode (.obj o) 0) mend = .ok o) := by
  have hplain : (∀ t ∈ texts (.obj o), ¬ Fenced t) →
      ∀ mend, extract (encode (.obj o) 0) mend = .ok o := by
    intro hfree mend
    have hunfenced : ¬ fence <:+: encodeChars (.obj o) 0 := by
      rw [fence_infix_encodeChars ho]
      rintro ⟨t, ht, hfenced⟩
      exact hfree t ht hfenced
    have hfound := findObject?_prose Bare.nil (braced_encodeChars o 0) hunfenced Bare.nil
    rw [List.nil_append, List.append_nil, ← toList_encode] at hfound
    exact extract_eq hfound (by rw [toList_encode]; exact read_encodeChars ho 0) mend
  refine ⟨⟨fun h t ht hfenced => ?_, fun hfree => hplain hfree false⟩, hplain⟩
  exact extract_fenced ho ((fence_infix_encodeChars ho 0).mpr ⟨t, ht, hfenced⟩) h

theorem extract_encode_snippet : extract (encode (.obj snippet) 0) false = .ok snippet :=
  (extract_encode_iff kept_snippet).1.mpr (by decide)

/-- A text with a fenced block of its own. -/
def listing : Fields := [("text", .str "Run:\n\x60\x60\x60bash\nls\n\x60\x60\x60")]

/-- The block inside the text is taken for one around the object, and what stands in it is
    no object. -/
theorem extract_encode_listing : (Json.obj listing).Kept .exact ∧
    ∀ mend, extract (encode (.obj listing) 0) mend = .error .noObject := by
  refine ⟨⟨?_, trivial, trivial⟩, ?_⟩
  · show (Fields.keys listing).Nodup
    decide
  · have hnone : findObject? (encodeChars (.obj listing) 0) = none := by decide
    intro mend
    rw [extract, toList_encode, hnone]

end ViewTree.Json
