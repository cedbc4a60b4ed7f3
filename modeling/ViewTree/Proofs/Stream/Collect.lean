import ViewTree.Stream

/-
  ViewTree.Proofs.Stream.Collect — a stream from its start to its completing chunk.

  A new stream takes partial chunks whose sequence numbers rise; some or all of them may
  have none. It then holds just these chunks and the last of their numbers (`Collected`),
  and its text is what their strings amount to, one after the other. So the next number
  is never late, whether or not order is enforced.

  A completing chunk without a schema of its own has a text searched: the one it carries,
  or that of the stream (`searched`). `Searched` is what becomes of the stream, by how
  that search ends.
-/

namespace ViewTree

namespace Chunk

/-- The text that a chunk adds to its stream: its data, where that is a string. -/
def piece? (chunk : Chunk) : Option String :=
  match chunk.data with
  | .str s => some s
  | _ => none

/-- A chunk as a transport sends it. -/
def wire (chunk : Chunk) : Json :=
  .obj [("type", .str chunk.type.name), ("data", chunk.data),
    ("sequenceId", (chunk.sequence.map Json.int).getD .null)]

theorem read_name (t : ChunkType) : ChunkType.read (.str t.name) = .ok t := by
  cases t <;> rfl

theorem ofJson_wire (chunk : Chunk) : ofJson chunk.wire = .ok chunk := by
  obtain ⟨type, data, sequence⟩ := chunk
  have hsequence : readSequence ((sequence.map Json.int).getD .null) = .ok sequence := by
    cases sequence <;> rfl
  simp [ofJson, read, wire, Field.both, Field.required, Field.optional, Field.find?, Fields.get?,
    Field.under, read_name, hsequence]

end Chunk

namespace Stream

/-! ## Chunks in order -/

/-- The stream with the number of a chunk recorded, if the chunk has one. -/
def mark (s : Stream) : Option Int → Stream
  | none => s
  | some n => { s with last := some n }

section Mark

variable (s : Stream) (n : Option Int)

@[simp] theorem mark_state : (s.mark n).state = s.state := by cases n <;> rfl
@[simp] theorem mark_chunks : (s.mark n).chunks = s.chunks := by cases n <;> rfl
@[simp] theorem mark_schema : (s.mark n).schema = s.schema := by cases n <;> rfl
@[simp] theorem mark_error : (s.mark n).error = s.error := by cases n <;> rfl
@[simp] theorem mark_text : (s.mark n).text = s.text := by cases n <;> rfl
@[simp] theorem mark_total : (s.mark n).total = s.total := by cases n <;> rfl
@[simp] theorem mark_percent : (s.mark n).percent = s.percent := by cases n <;> rfl
@[simp] theorem mark_last : (s.mark n).last = n.or s.last := by cases n <;> rfl

end Mark

section InOrder

variable {settings : Settings} {s : Stream} {c : Chunk}

/-- What a chunk in order makes of a stream, by its type. -/
theorem addChunk_inOrder (horder : outOfOrder settings s c.sequence = false) :
    (s.addChunk settings c).2.1 =
      match c.type with
      | .partialData => (s.mark c.sequence).addPartial settings c
      | .complete => ((s.mark c.sequence).completeWith c.data).2.1
      | .error => ((s.mark c.sequence).fail (errorMessage c.data)).1 := by
  unfold addChunk accept mark
  rw [if_neg (by simp [horder])]
  cases c.type <;> rfl

/-- It is accepted, unless the search for a schema has no answer. -/
theorem answer_inOrder (horder : outOfOrder settings s c.sequence = false) :
    (s.addChunk settings c).1 =
      match c.type with
      | .complete => ((s.mark c.sequence).completeWith c.data).1.map fun _ => true
      | _ => .ok true := by
  unfold addChunk accept mark
  rw [if_neg (by simp [horder])]
  cases c.type <;> rfl

end InOrder

/-! ## Collecting -/

/-- The sequence numbers of chunks, in the order of arrival. -/
def numbers (cs : List Chunk) : List Int := cs.filterMap Chunk.sequence

/-- The numbers of chunks rise strictly. -/
def Rising (cs : List Chunk) : Prop := (numbers cs).Pairwise (· < ·)

/-- The stream is in progress and took these chunks since its start. -/
structure Collected (cs : List Chunk) (s : Stream) : Prop where
  streaming : s.state = .streaming
  chunks : s.chunks = cs
  last : s.last = (numbers cs).getLast?

theorem Rising.prefix {cs more : List Chunk} (h : Rising (cs ++ more)) : Rising cs := by
  unfold Rising numbers at h ⊢
  rw [List.filterMap_append] at h
  exact (List.pairwise_append.mp h).1

/-- A chunk behind others with lower numbers is in order. -/
theorem Collected.inOrder {cs : List Chunk} {c : Chunk} {s : Stream} (settings : Settings)
    (h : Collected cs s) (hrise : Rising (cs ++ [c])) :
    outOfOrder settings s c.sequence = false := by
  rw [Bool.eq_false_iff, Ne, outOfOrder_iff, h.last]
  rintro ⟨n, l, hn, hl, -, hle⟩
  have hpair : (numbers cs ++ [n]).Pairwise (· < ·) := by
    simpa [Rising, numbers, hn] using hrise
  have hlt : l < n :=
    (List.pairwise_append.mp hpair).2.2 l (List.mem_of_getLast? hl) n (List.mem_singleton_self n)
  exact absurd hle (Int.not_le.mpr hlt)

theorem start_collected (s : Stream) : Collected [] s.start.1 := ⟨rfl, rfl, rfl⟩

/-- A partial chunk in order is accepted and collected. -/
theorem Collected.addChunk {cs : List Chunk} {c : Chunk} {s : Stream} (settings : Settings)
    (h : Collected cs s) (hrise : Rising (cs ++ [c])) (ht : c.type = .partialData) :
    (s.addChunk settings c).1 = .ok true ∧ Collected (cs ++ [c]) (s.addChunk settings c).2.1 := by
  have horder := h.inOrder settings hrise
  have hnumbers : numbers (cs ++ [c]) = numbers cs ++ c.sequence.toList := by
    cases hn : c.sequence <;> simp [numbers, hn]
  rw [answer_inOrder horder, addChunk_inOrder horder, ht]
  refine ⟨rfl, (mark_state s c.sequence).trans h.streaming, ?_, ?_⟩
  · rw [← h.chunks, ← mark_chunks s c.sequence]
    rfl
  · rw [hnumbers]
    refine (mark_last s c.sequence).trans ?_
    cases c.sequence <;> simp [h.last]

/-- Data that is no string adds nothing to the text. -/
theorem text_eq (s : Stream) : s.text = String.join (s.chunks.filterMap Chunk.piece?) := by
  unfold text
  induction s.chunks with
  | nil => rfl
  | cons c cs ih => cases hd : c.data <;> simp [Chunk.text, Chunk.piece?, hd, ih]

/-! ## Completing -/

/-- The text that a completing chunk has searched; nothing if it carries the schema. -/
def searched (s : Stream) (c : Chunk) : Option String :=
  match c.data with
  | .null => some s.text
  | .str text => some text
  | _ => none

/-- What becomes of a stream once a text was searched for its schema. -/
def Searched {α : Type} (found : Except Json.ParseFault Fields) (done : α)
    (answer : Except Json.ParseFault α) (s' : Stream) : Prop :=
  match found with
  | .ok fields => answer = .ok done ∧ s'.error = none ∧ s'.schema = .obj fields
  | .error (.longInteger n) => answer = .error (.longInteger n)
  | .error _ => answer = .ok done ∧ ∃ message, s'.error = some message

theorem completeFrom_searched {text : String} {found : Except Json.ParseFault Fields}
    (hfound : Json.extract text true = found) (s : Stream) :
    Searched found () (s.completeFrom text).1 (s.completeFrom text).2.1 := by
  unfold completeFrom
  rw [hfound]
  cases found with
  | ok fields => exact ⟨rfl, rfl, rfl⟩
  | error fault =>
    cases fault with
    | longInteger n => exact rfl
    | _ => exact ⟨rfl, _, rfl⟩

theorem Searched.map {α β : Type} {found : Except Json.ParseFault Fields} {done : α}
    {answer : Except Json.ParseFault α} {s' : Stream} (h : Searched found done answer s')
    (f : α → β) : Searched found (f done) (answer.map f) s' := by
  cases found with
  | ok fields =>
    obtain ⟨rfl, hrest⟩ := h
    exact ⟨rfl, hrest⟩
  | error fault =>
    cases fault with
    | longInteger n =>
      cases (h : answer = .error (.longInteger n))
      exact rfl
    | _ =>
      obtain ⟨rfl, hrest⟩ := h
      exact ⟨rfl, hrest⟩

theorem addChunk_searched {settings : Settings} {s : Stream} {c : Chunk} {text : String}
    {found : Except Json.ParseFault Fields} (horder : outOfOrder settings s c.sequence = false)
    (ht : c.type = .complete) (hsearch : s.searched c = some text)
    (hfound : Json.extract text true = found) :
    Searched found true (s.addChunk settings c).1 (s.addChunk settings c).2.1 := by
  -- The chunk's number is recorded before the text is searched.
  have hmarked : (s.mark c.sequence).completeWith c.data =
      (s.mark c.sequence).completeFrom text := by
    unfold searched at hsearch
    cases hd : c.data <;> simp [hd] at hsearch <;> simp [completeWith, hsearch]
  rw [answer_inOrder horder, addChunk_inOrder horder, ht]
  simp only [hmarked]
  exact (completeFrom_searched hfound _).map fun _ => true

end Stream

end ViewTree
