import ViewTree.Proofs.Stream.Ending

/-
  ViewTree.Proofs.Stream.Books — what a stream keeps account of.

  A stream is started, cleared, fed with values, or ended from outside, in any order
  (`Call`). Beside it runs a list of the chunks that were accepted since the last start or
  clear: a value adds its chunk unless it is answered with no (`Call.accepted`).

  Proved of every run, from a stream that was never used:
  - the stream's books agree with that list (`Books`): the last number is the last one of
    the list, the collected chunks are the partial ones of the list, their total is the sum
    of their sizes, and there is an error exactly in a failed stream. Before it has ended a
    stream shows no schema, and its progress is what the total amounts to. This holds
    whether or not order is enforced (`Books.run`);
  - with order enforced the numbers of the list rise strictly (`rising_run`);
  - a value that is answered with no changes nothing (`addValue_refused`).
-/

namespace ViewTree.Stream

/-! ## Accepted chunks -/

/-- The chunk that a value adds to the accepted ones: that of a value not answered with no. -/
def accepted? (settings : Settings) (s : Stream) (v : Json) : Option Chunk :=
  match (s.addValue settings v).1 with
  | .ok false => none
  | _ => (Chunk.ofJson v).toOption

section Answers

variable {settings : Settings} {s : Stream} {v : Json} {c : Chunk}

/-- A chunk in order is never answered with no. -/
theorem answer_ne_no (horder : outOfOrder settings s c.sequence = false) :
    (s.addChunk settings c).1 ≠ .ok false := by
  rw [answer_inOrder horder]
  cases c.type with
  | partialData => simp
  | error => simp
  | complete =>
    generalize ((s.mark c.sequence).completeWith c.data).1 = outcome
    cases outcome <;> simp [Except.map]

/-- A value is answered with no if it is no chunk, or one that comes too late. -/
theorem accepted?_eq_some_iff : accepted? settings s v = some c ↔
    Chunk.ofJson v = .ok c ∧ outOfOrder settings s c.sequence = false := by
  unfold accepted? addValue
  cases hv : Chunk.ofJson v with
  | error rejection => simp
  | ok d =>
    by_cases horder : outOfOrder settings s d.sequence = true
    · have hno : (s.addChunk settings d).1 = .ok false := by rw [addChunk, if_pos horder]
      simp only [hno, Except.ok.injEq, reduceCtorEq, false_iff, not_and]
      rintro rfl
      simp [horder]
    · rw [Bool.not_eq_true] at horder
      have hyes := answer_ne_no horder
      split
      · rename_i hno
        exact absurd hno hyes
      · simp only [Except.toOption, Option.some.injEq, Except.ok.injEq]
        constructor
        · rintro rfl
          exact ⟨rfl, horder⟩
        · exact And.left

/-- A value that adds no chunk changes nothing. -/
theorem addValue_of_not_accepted (h : accepted? settings s v = none) :
    (s.addValue settings v).2.1 = s := by
  unfold addValue
  cases hv : Chunk.ofJson v with
  | error rejection => rfl
  | ok c =>
    by_cases horder : outOfOrder settings s c.sequence = true
    · simp only
      rw [addChunk, if_pos horder]
    · have hsome : accepted? settings s v = some c :=
        accepted?_eq_some_iff.mpr ⟨hv, Bool.eq_false_iff.mpr horder⟩
      rw [h] at hsome
      cases hsome

/-- A value that is answered with no changes nothing. -/
theorem addValue_refused (h : (s.addValue settings v).1 = .ok false) :
    (s.addValue settings v).2.1 = s :=
  addValue_of_not_accepted (by simp only [accepted?, h])

theorem addValue_of_accepted (h : accepted? settings s v = some c) :
    outOfOrder settings s c.sequence = false ∧ s.addValue settings v = s.addChunk settings c := by
  obtain ⟨hv, horder⟩ := accepted?_eq_some_iff.mp h
  refine ⟨horder, ?_⟩
  simp only [addValue, hv]

end Answers

/-! ## Chunks that end no stream, and chunks that end one -/

/-- The progress behind an ending, if there is one. -/
def percentAfter (percent : Nat) : Option Ending → Nat
  | some (.completed _) => 100
  | _ => percent

theorem completeFrom_counts (s : Stream) (text : String) :
    (s.completeFrom text).2.1.chunks = s.chunks ∧ (s.completeFrom text).2.1.total = s.total ∧
      (s.completeFrom text).2.1.percent =
        percentAfter s.percent (Ending.ofSearch (Json.extract text true)) := by
  unfold completeFrom
  cases Json.extract text true with
  | ok fields => exact ⟨rfl, rfl, rfl⟩
  | error fault => cases fault <;> exact ⟨rfl, rfl, rfl⟩

theorem completeWith_counts (s t : Stream) (c : Chunk) (htype : c.type = .complete)
    (htext : t.text = s.text) :
    (t.completeWith c.data).2.1.chunks = t.chunks ∧ (t.completeWith c.data).2.1.total = t.total ∧
      (t.completeWith c.data).2.1.percent = percentAfter t.percent (s.brings? c) := by
  simp only [brings?, htype, searched]
  cases c.data with
  | null =>
    simp only [completeWith, ← htext]
    exact completeFrom_counts t t.text
  | str text =>
    simp only [completeWith]
    exact completeFrom_counts t text
  | _ => exact ⟨rfl, rfl, rfl⟩

section InOrder

variable {settings : Settings} {s : Stream} {c : Chunk}

/-- A partial chunk is collected, and the progress follows the total. -/
theorem addChunk_partial (horder : outOfOrder settings s c.sequence = false)
    (htype : c.type = .partialData) :
    (s.addChunk settings c).2.1 = (s.mark c.sequence).addPartial settings c := by
  rw [addChunk_inOrder horder, htype]

/-- Any other chunk leaves what was collected, and the progress to the ending it brings. -/
theorem addChunk_counts (horder : outOfOrder settings s c.sequence = false)
    (htype : c.type ≠ .partialData) :
    (s.addChunk settings c).2.1.chunks = s.chunks ∧ (s.addChunk settings c).2.1.total = s.total ∧
      (s.addChunk settings c).2.1.percent = percentAfter s.percent (s.brings? c) := by
  rw [addChunk_inOrder horder]
  cases hc : c.type with
  | partialData => exact absurd hc htype
  | complete => simpa using completeWith_counts s (s.mark c.sequence) c hc (mark_text s c.sequence)
  | error =>
    simp only [brings?, hc, fail, percentAfter]
    simp

end InOrder

/-! ## Calls -/

/-- What can be done with a stream. -/
inductive Call where
  | start
  | clear
  | add (v : Json)
  | complete (schema : Json)
  | fail (error : String)

namespace Call

def step (settings : Settings) (s : Stream) : Call → Stream
  | start => s.start.1
  | clear => s.clear
  | add v => (s.addValue settings v).2.1
  | complete schema => (s.complete schema).1
  | fail error => (s.fail error).1

/-- The chunks accepted since the last start or clear, behind a call. -/
def accepted (settings : Settings) (s : Stream) (chunks : List Chunk) : Call → List Chunk
  | start | clear => []
  | add v => chunks ++ (accepted? settings s v).toList
  | complete _ | fail _ => chunks

end Call

/-- A stream with the chunks accepted since its last start or clear. -/
structure Ledger where
  stream : Stream
  accepted : List Chunk

/-- What a run of calls makes of a stream and the chunks it accepted. -/
def runCalls (settings : Settings) (l : Ledger) : List Call → Ledger
  | [] => l
  | call :: rest =>
    runCalls settings ⟨call.step settings l.stream, call.accepted settings l.stream l.accepted⟩ rest

/-- The total size of chunks. -/
def sizes : List Chunk → Nat
  | [] => 0
  | c :: rest => c.data.serializedSize + sizes rest

theorem sizes_append (cs ds : List Chunk) : sizes (cs ++ ds) = sizes cs + sizes ds := by
  induction cs with
  | nil => simp [sizes]
  | cons c rest ih =>
    rw [List.cons_append, sizes, ih, sizes]
    omega

theorem getLast?_numbers_concat (cs : List Chunk) (c : Chunk) :
    (numbers (cs ++ [c])).getLast? = c.sequence.or (numbers cs).getLast? := by
  unfold numbers
  cases hn : c.sequence with
  | none => simp [hn]
  | some n => simp [hn]

/-! ## Books -/

/-- The books of a stream that accepted these chunks since its last start or clear. -/
structure Books (settings : Settings) (accepted : List Chunk) (s : Stream) : Prop where
  last : s.last = (numbers accepted).getLast?
  chunks : s.chunks = accepted.filter fun c => c.type = .partialData
  total : s.total = sizes s.chunks
  error : s.error ≠ none ↔ s.state = .error
  /-- An unfinished stream shows no schema, and the progress of what it collected. -/
  unfinished : s.state = .idle ∨ s.state = .streaming →
    s.schema = .null ∧ s.percent = progress settings s.total

namespace Books

variable {settings : Settings} {accepted : List Chunk} {s : Stream}

/-- The books of a stream that collected nothing. -/
theorem blank (hstate : s.state ≠ .error) (herror : s.error = none) (hlast : s.last = none)
    (hchunks : s.chunks = []) (htotal : s.total = 0) (hschema : s.schema = .null)
    (hpercent : s.percent = 0) : Books settings [] s where
  last := hlast
  chunks := hchunks
  total := by rw [htotal, hchunks]; rfl
  error := by simp [herror, hstate]
  unfinished _ := ⟨hschema, by simp [hpercent, htotal, progress]⟩

theorem complete (h : Books settings accepted s) (schema : Json) :
    Books settings accepted (s.complete schema).1 where
  last := h.last
  chunks := h.chunks
  total := h.total
  error := by simp [Stream.complete]
  unfinished hstate := by simp [Stream.complete] at hstate

theorem fail (h : Books settings accepted s) (error : String) :
    Books settings accepted (s.fail error).1 where
  last := h.last
  chunks := h.chunks
  total := h.total
  error := by simp [Stream.fail]
  unfinished hstate := by simp [Stream.fail] at hstate

/-- A partial chunk in order is entered everywhere. -/
theorem addPartial {c : Chunk} (h : Books settings accepted s) (htype : c.type = .partialData) :
    Books settings (accepted ++ [c]) ((s.mark c.sequence).addPartial settings c) where
  last := by
    rw [getLast?_numbers_concat, ← h.last, ← mark_last]
    rfl
  chunks := by
    show (s.mark c.sequence).chunks ++ [c] = _
    rw [mark_chunks, h.chunks, List.filter_append]
    simp [htype]
  total := by
    show (s.mark c.sequence).total + c.data.serializedSize = sizes ((s.mark c.sequence).chunks ++ [c])
    rw [mark_total, mark_chunks, sizes_append, h.total]
    simp [sizes]
  error := by
    show (s.mark c.sequence).error ≠ none ↔ (s.mark c.sequence).state = .error
    rw [mark_error, mark_state]
    exact h.error
  unfinished hstate := by
    have hstate : (s.mark c.sequence).state = .idle ∨ (s.mark c.sequence).state = .streaming := hstate
    rw [mark_state] at hstate
    refine ⟨?_, rfl⟩
    show (s.mark c.sequence).schema = .null
    rw [mark_schema]
    exact (h.unfinished hstate).1

/-- So is any other, and the ending it brings decides on error, schema and progress. -/
theorem addOther {c : Chunk} (h : Books settings accepted s) (htype : c.type ≠ .partialData)
    (horder : outOfOrder settings s c.sequence = false) :
    Books settings (accepted ++ [c]) (s.addChunk settings c).2.1 := by
  obtain ⟨hchunks, htotal, hpercent⟩ := addChunk_counts horder htype
  have hends := addChunk_ends horder
  refine ⟨?_, ?_, ?_, ?_, ?_⟩
  · rw [last_addChunk, if_neg (by simp [horder]), getLast?_numbers_concat, h.last]
  · rw [hchunks, h.chunks, List.filter_append]
    simp [htype]
  · rw [htotal, hchunks, h.total]
  · rcases hbrings : s.brings? c with _ | ⟨schema⟩ | ⟨error⟩
    · rw [hbrings] at hends
      rw [hends.1, hends.2.2]
      exact h.error
    · rw [hbrings] at hends
      simp [hends.1, hends.2.2]
    · rw [hbrings] at hends
      simp [hends.1, hends.2.2]
  · intro hstate
    rcases hbrings : s.brings? c with _ | ⟨schema⟩ | ⟨error⟩
    · rw [hbrings] at hends hpercent
      rw [hends.1] at hstate
      obtain ⟨hschema, hprogress⟩ := h.unfinished hstate
      rw [hends.2.1, hpercent, htotal]
      exact ⟨hschema, hprogress⟩
    · rw [hbrings] at hends
      simp [hends.1] at hstate
    · rw [hbrings] at hends
      simp [hends.1] at hstate

theorem add (h : Books settings accepted s) (v : Json) :
    Books settings (accepted ++ (accepted? settings s v).toList) (s.addValue settings v).2.1 := by
  cases hv : accepted? settings s v with
  | none =>
    rw [addValue_of_not_accepted hv, Option.toList_none, List.append_nil]
    exact h
  | some c =>
    obtain ⟨horder, hadd⟩ := addValue_of_accepted hv
    rw [hadd, Option.toList_some]
    by_cases htype : c.type = .partialData
    · rw [addChunk_partial horder htype]
      exact h.addPartial htype
    · exact h.addOther htype horder

theorem step (h : Books settings accepted s) (call : Call) :
    Books settings (call.accepted settings s accepted) (call.step settings s) := by
  cases call with
  | start => exact blank nofun rfl rfl rfl rfl rfl rfl
  | clear => exact blank nofun rfl rfl rfl rfl rfl rfl
  | add v => exact h.add v
  | complete schema => exact h.complete schema
  | fail error => exact h.fail error

theorem run {l : Ledger} (h : Books settings l.accepted l.stream) (calls : List Call) :
    Books settings (runCalls settings l calls).accepted (runCalls settings l calls).stream := by
  induction calls generalizing l with
  | nil => exact h
  | cons call rest ih => exact ih (h.step call)

end Books

/-! ## Rising numbers -/

theorem rising_nil : Rising [] := .nil

theorem le_getLast?_of_rising {cs : List Chunk} (h : Rising cs) {last : Int}
    (hlast : (numbers cs).getLast? = some last) : ∀ n ∈ numbers cs, n ≤ last := by
  obtain ⟨before, hnumbers⟩ := List.getLast?_eq_some_iff.mp hlast
  intro n hn
  have hpair : (before ++ [last]).Pairwise (· < ·) := hnumbers ▸ h
  rw [hnumbers, List.mem_append, List.mem_singleton] at hn
  rcases hn with hbefore | rfl
  · have := (List.pairwise_append.mp hpair).2.2 n hbefore last (List.mem_singleton_self last)
    omega
  · exact Int.le_refl n

section Enforced

variable {settings : Settings} (henforce : settings.enforceSequenceOrder = true)

include henforce

/-- A chunk in order carries a number above all those before it, if it carries one. -/
theorem Rising.concat {cs : List Chunk} {s : Stream} (h : Rising cs)
    (hlast : s.last = (numbers cs).getLast?) {c : Chunk}
    (horder : outOfOrder settings s c.sequence = false) : Rising (cs ++ [c]) := by
  cases hn : c.sequence with
  | none => simpa [Rising, numbers, hn] using h
  | some n =>
    have habove : ∀ m ∈ numbers cs, m < n := by
      intro m hm
      cases hl : (numbers cs).getLast? with
      | none =>
        rw [List.getLast?_eq_none_iff.mp hl] at hm
        cases hm
      | some last =>
        have hle := le_getLast?_of_rising h hl m hm
        have hlate : ¬ n ≤ last := by
          intro hle
          have hout := outOfOrder_iff.mpr ⟨n, last, hn, hlast.trans hl, henforce, hle⟩
          rw [horder] at hout
          cases hout
        omega
    have hnumbers : numbers (cs ++ [c]) = numbers cs ++ [n] := by simp [numbers, hn]
    rw [Rising, hnumbers, List.pairwise_append]
    exact ⟨h, List.pairwise_singleton _ n, by simpa using habove⟩

theorem Rising.step {cs : List Chunk} {s : Stream} (h : Rising cs) (hbooks : Books settings cs s)
    (call : Call) : Rising (call.accepted settings s cs) := by
  cases call with
  | start => exact rising_nil
  | clear => exact rising_nil
  | add v =>
    rw [Call.accepted]
    cases hv : accepted? settings s v with
    | none => simpa using h
    | some c =>
      exact h.concat henforce hbooks.last (accepted?_eq_some_iff.mp hv).2
  | complete schema => exact h
  | fail error => exact h

theorem rising_run {l : Ledger} (h : Rising l.accepted) (hbooks : Books settings l.accepted l.stream)
    (calls : List Call) : Rising (runCalls settings l calls).accepted := by
  induction calls generalizing l with
  | nil => exact h
  | cons call rest ih => exact ih (h.step henforce hbooks call) (hbooks.step call)

end Enforced

/-! ## Every run -/

/-- The ledger of a stream that was never used. -/
def Ledger.fresh : Ledger := ⟨idle, []⟩

theorem books_fresh (settings : Settings) :
    Books settings Ledger.fresh.accepted Ledger.fresh.stream :=
  .blank nofun rfl rfl rfl rfl rfl rfl

/-- Where order is enforced, after every run of calls the numbers of the chunks accepted
    since the last start or clear rise strictly, and the last of them is the stream's; the
    stream holds the partial ones among them and the sum of their sizes; it has an error
    exactly if it has failed; an unfinished one shows no schema and the progress of its
    total; and what it answers with no changes nothing. -/
theorem books_of_every_run (settings : Settings) (henforce : settings.enforceSequenceOrder = true)
    (calls : List Call) :
    let l := runCalls settings Ledger.fresh calls
    Rising l.accepted ∧ l.stream.last = (numbers l.accepted).getLast? ∧
      l.stream.chunks = l.accepted.filter (fun c => c.type = .partialData) ∧
      l.stream.total = sizes l.stream.chunks ∧
      (l.stream.error ≠ none ↔ l.stream.state = .error) ∧
      (l.stream.state = .idle ∨ l.stream.state = .streaming →
        l.stream.schema = .null ∧ l.stream.percent =
          min settings.progressCap (100 * l.stream.total / settings.progressByteBudget)) ∧
      ∀ v, (l.stream.addValue settings v).1 = .ok false →
        (l.stream.addValue settings v).2.1 = l.stream := by
  intro l
  have hbooks : Books settings l.accepted l.stream := (books_fresh settings).run calls
  have hrising : Rising l.accepted :=
    rising_run henforce (rising_nil : Rising Ledger.fresh.accepted) (books_fresh settings) calls
  refine ⟨hrising, hbooks.last, hbooks.chunks, hbooks.total, hbooks.error, ?_, ?_⟩
  · intro hstate
    obtain ⟨hschema, hpercent⟩ := hbooks.unfinished hstate
    rw [Nat.mul_comm 100]
    exact ⟨hschema, hpercent⟩
  · intro v hno
    exact addValue_refused hno

/-- A piece before any start, a stream with a piece that comes too late, a value that is no
    chunk and a failure, and a piece without a number behind it. -/
theorem books_of_failed_stream :
    let piece (text : String) (n : Option Int) : Call :=
      .add (Chunk.wire ⟨.partialData, .str text, n⟩)
    let calls := [piece "early" (some 9), .start, piece "a" (some 3), piece "late" (some 2),
      .add (.int 0), .add (Chunk.wire ⟨.error, .str "down", some 4⟩), piece "bc" none]
    let l := runCalls .default Ledger.fresh calls
    numbers l.accepted = [3, 4] ∧ Rising l.accepted ∧
      l.stream.chunks = l.accepted.filter (fun c => c.type = .partialData) ∧
      l.stream.total = 7 ∧ l.stream.total = sizes l.stream.chunks ∧
      l.stream.error = some "down" ∧ (l.stream.error ≠ none ↔ l.stream.state = .error) := by
  intro piece calls l
  obtain ⟨hrising, -, hchunks, htotal, herror, -⟩ := books_of_every_run .default rfl calls
  exact ⟨by decide +kernel, hrising, hchunks, by decide +kernel, htotal, by decide +kernel, herror⟩

end ViewTree.Stream
