import Mathlib.Data.List.Induction
import ViewTree.Patch.Path

/-
  ViewTree.Proofs.Patch.Pointer — paths that are written from their segments.

  A pointer writes each of its segments behind a slash: first the tildes of the segment are
  escaped and then its slashes. Reading resolves the escapes the other way round, which
  gives back every segment, those that look escaped already among them (`unescape_escape`).
  An escaped segment holds no slash, so all the slashes of a pointer separate, and between
  them stand the escaped segments (`pieces_pointer`).

  Further slashes at the ends of a path or next to its slashes bring empty pieces only,
  which do not count (`pieces_of_padded`). Both together are `parsePath_pointer`.
-/

namespace ViewTree.Patch

/-! ## Writing -/

/-- The characters of a text, with some characters in the place of one of them. -/
def replaceChar (c : Char) (image cs : List Char) : List Char :=
  cs.flatMap fun x => if x = c then image else [x]

/-- A segment with its tildes escaped, and then its slashes. -/
def escape (segment : List Char) : List Char :=
  replaceChar '/' ['~', '1'] (replaceChar '~' ['~', '0'] segment)

/-- The path to what the segments name, one below the other. -/
def pointer (segments : List String) : String :=
  String.ofList (segments.flatMap fun s => '/' :: escape s.toList)

/-- A text with further slashes at its start, at its end or next to one of its slashes. -/
inductive Padded (path : List Char) : List Char → Prop
  | same : Padded path path
  | start {more : List Char} : Padded path more → Padded path ('/' :: more)
  | stop {more : List Char} : Padded path more → Padded path (more ++ ['/'])
  | beside {front back : List Char} :
      Padded path (front ++ '/' :: back) → Padded path (front ++ '/' :: '/' :: back)

/-! ## Escapes -/

section Escapes

variable {a b c x y : Char} {cs r : List Char}

theorem replaceChar_cons_self (image : List Char) :
    replaceChar c image (c :: cs) = image ++ replaceChar c image cs := by
  simp [replaceChar]

theorem replaceChar_cons_of_ne (image : List Char) (h : x ≠ c) :
    replaceChar c image (x :: cs) = x :: replaceChar c image cs := by
  simp [replaceChar, h]

theorem replacePair_pair : replacePair a b c (a :: b :: r) = c :: replacePair a b c r := by
  simp [replacePair]

theorem replacePair_cons_of_ne (h : x ≠ a) :
    replacePair a b c (x :: r) = x :: replacePair a b c r := by
  cases r <;> simp [replacePair, h]

theorem replacePair_cons_cons_of_ne (h : y ≠ b) :
    replacePair a b c (x :: y :: r) = x :: replacePair a b c (y :: r) := by
  simp [replacePair, h]

/-- What a tilde, a slash or another character becomes. -/
theorem escape_cons (x : Char) (cs : List Char) :
    escape (x :: cs) =
      (if x = '~' then ['~', '0'] else if x = '/' then ['~', '1'] else [x]) ++ escape cs := by
  unfold escape
  by_cases htilde : x = '~'
  · rw [if_pos htilde, htilde, replaceChar_cons_self, List.cons_append, List.singleton_append,
      replaceChar_cons_of_ne _ (by decide), replaceChar_cons_of_ne _ (by decide)]
    rfl
  · rw [if_neg htilde, replaceChar_cons_of_ne _ htilde]
    by_cases hslash : x = '/'
    · rw [if_pos hslash, hslash, replaceChar_cons_self]
    · rw [if_neg hslash, replaceChar_cons_of_ne _ hslash]
      rfl

/-- Slashes come back first: behind each tilde of the segment itself stands a zero. -/
theorem replacePair_escape (cs : List Char) :
    replacePair '~' '1' '/' (escape cs) = replaceChar '~' ['~', '0'] cs := by
  induction cs with
  | nil => rfl
  | cons x cs ih =>
    rw [escape_cons]
    by_cases htilde : x = '~'
    · rw [if_pos htilde, htilde, replaceChar_cons_self, List.cons_append, List.singleton_append,
        replacePair_cons_cons_of_ne (by decide), replacePair_cons_of_ne (by decide), ih]
      rfl
    · rw [if_neg htilde, replaceChar_cons_of_ne _ htilde]
      by_cases hslash : x = '/'
      · rw [if_pos hslash, hslash, List.cons_append, List.singleton_append, replacePair_pair, ih]
      · rw [if_neg hslash, List.singleton_append, replacePair_cons_of_ne htilde, ih]

theorem replacePair_replaceChar_tilde (cs : List Char) :
    replacePair '~' '0' '~' (replaceChar '~' ['~', '0'] cs) = cs := by
  induction cs with
  | nil => rfl
  | cons x cs ih =>
    by_cases htilde : x = '~'
    · rw [htilde, replaceChar_cons_self, List.cons_append, List.singleton_append,
        replacePair_pair, ih]
    · rw [replaceChar_cons_of_ne _ htilde, replacePair_cons_of_ne htilde, ih]

theorem unescape_escape (cs : List Char) : unescape (escape cs) = cs := by
  rw [unescape, replacePair_escape, replacePair_replaceChar_tilde]

/-- Tildes first would take the escape of a segment for that of another one. -/
example : replacePair '~' '1' '/' (replacePair '~' '0' '~' (escape "~1".toList)) = "/".toList := by
  decide

theorem slash_not_mem_escape (cs : List Char) : '/' ∉ escape cs := by
  induction cs with
  | nil => exact List.not_mem_nil
  | cons x cs ih =>
    rw [escape_cons, List.mem_append, not_or]
    refine ⟨?_, ih⟩
    split_ifs with htilde hslash
    · decide
    · decide
    · simpa using Ne.symm hslash

theorem escape_ne_nil (h : cs ≠ []) : escape cs ≠ [] := by
  intro hnil
  apply h
  rw [← unescape_escape cs, hnil]
  rfl

end Escapes

/-! ## Pieces -/

section Pieces

variable {path more : List Char}

/-- The pieces of a text between its slashes that count. -/
def pieces (cs : List Char) : List (List Char) := (splitSlashes cs).filter (!·.isEmpty)

theorem parsePath_eq (path : String) :
    parsePath path = (pieces path.toList).map fun piece => String.ofList (unescape piece) := rfl

theorem splitSlashes_ne_nil (cs : List Char) : splitSlashes cs ≠ [] := by
  cases cs with
  | nil => simp [splitSlashes]
  | cons c r =>
    rw [splitSlashes]
    split
    · exact List.cons_ne_nil _ _
    · split <;> exact List.cons_ne_nil _ _

theorem splitSlashes_append (front back : List Char) :
    splitSlashes (front ++ '/' :: back) = splitSlashes front ++ splitSlashes back := by
  induction front with
  | nil => rfl
  | cons c front ih =>
    rw [List.cons_append, splitSlashes, splitSlashes, ih]
    by_cases hc : c = '/'
    · rw [if_pos hc, if_pos hc, List.cons_append]
    · rw [if_neg hc, if_neg hc]
      obtain ⟨piece, rest, hsplit⟩ := List.exists_cons_of_ne_nil (splitSlashes_ne_nil front)
      rw [hsplit]
      rfl

theorem splitSlashes_of_not_mem {cs : List Char} (h : '/' ∉ cs) : splitSlashes cs = [cs] := by
  induction cs with
  | nil => rfl
  | cons c cs ih =>
    rw [List.mem_cons, not_or] at h
    rw [splitSlashes, if_neg (Ne.symm h.1), ih h.2]

theorem pieces_nil : pieces [] = [] := rfl

/-- A slash separates. -/
theorem pieces_append (front back : List Char) :
    pieces (front ++ '/' :: back) = pieces front ++ pieces back := by
  rw [pieces, splitSlashes_append, List.filter_append]
  rfl

theorem pieces_escape {cs : List Char} (h : cs ≠ []) : pieces (escape cs) = [escape cs] := by
  rw [pieces, splitSlashes_of_not_mem (slash_not_mem_escape cs)]
  simp [escape_ne_nil h]

/-- The induction is on the last segment, since a slash stands before each of them. -/
theorem pieces_pointer {segments : List String} (h : ∀ s ∈ segments, s ≠ "") :
    pieces (pointer segments).toList = segments.map fun s => escape s.toList := by
  rw [pointer, String.toList_ofList]
  induction segments using List.reverseRecOn with
  | nil => rfl
  | append_singleton front s ih =>
    rw [List.forall_mem_append, List.forall_mem_singleton] at h
    have hs : s.toList ≠ [] := fun hnil => h.2 (String.toList_eq_nil_iff.mp hnil)
    rw [List.flatMap_append, List.flatMap_singleton, pieces_append, ih h.1, pieces_escape hs,
      List.map_append, List.map_singleton]

/-- Further slashes bring no piece that counts. -/
theorem pieces_of_padded (h : Padded path more) : pieces more = pieces path := by
  induction h with
  | same => rfl
  | @start more _ ih => exact (pieces_append [] more).trans ih
  | @stop more _ ih => rw [pieces_append, pieces_nil, List.append_nil, ih]
  | @beside front back _ ih =>
    rw [← ih, pieces_append, pieces_append]
    exact congrArg _ (pieces_append [] back)

end Pieces

/-! ## Reading -/

/-- The path of some segments that are not empty is read as these segments, and so is the
    path with further slashes at its ends or next to its slashes. -/
theorem parsePath_pointer (segments : List String) (h : ∀ s ∈ segments, s ≠ "") :
    parsePath (pointer segments) = segments ∧
      ∀ path : String, Padded (pointer segments).toList path.toList → parsePath path = segments := by
  have hread : ∀ path : String, pieces path.toList = pieces (pointer segments).toList →
      parsePath path = segments := by
    intro path hpieces
    rw [parsePath_eq, hpieces, pieces_pointer h, List.map_map]
    refine List.map_id'' (fun s => ?_) segments
    rw [Function.comp_apply, unescape_escape, String.ofList_toList]
  exact ⟨hread _ rfl, fun path hpadded => hread path (pieces_of_padded hpadded)⟩

/-- Segments that look escaped, and slashes wherever further ones may stand. -/
theorem parsePath_pointer_lookalikes :
    let segments := ["~1", "a/b", "~01", "~~"]
    (∀ s ∈ segments, s ≠ "") ∧ pointer segments = "/~01/a~1b/~001/~0~0" ∧
      Padded (pointer segments).toList "///~01/a~1b//~001/~0~0/".toList ∧
      parsePath "///~01/a~1b//~001/~0~0/" = segments := by
  intro segments
  have hfull : ∀ s ∈ segments, s ≠ "" := by decide
  have hpointer : pointer segments = "/~01/a~1b/~001/~0~0" := by decide +kernel
  have hpadded : Padded (pointer segments).toList "///~01/a~1b//~001/~0~0/".toList := by
    have hslashes : Padded (pointer segments).toList
        ("///~01/a~1b".toList ++ '/' :: "~001/~0~0".toList) := by
      rw [hpointer]
      exact .start (.start .same)
    exact .stop (.beside hslashes)
  exact ⟨hfull, hpointer, hpadded, (parsePath_pointer segments hfull).2 _ hpadded⟩

end ViewTree.Patch
