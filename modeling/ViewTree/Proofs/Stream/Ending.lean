import ViewTree.Proofs.Stream.Collect

/-
  ViewTree.Proofs.Stream.Ending — how a chunk ends a stream.

  A chunk brings an ending or none (`brings?`): an error chunk a failure, a completing one
  its schema, or what the search for the schema comes to. A partial chunk brings none, and
  neither does one whose search has no answer. In progress or not, a stream takes the ending
  that a chunk in order brings, and shows what it showed before if there is none
  (`addValue_ends`). Its number is recorded in either case (`last_addChunk`).
-/

namespace ViewTree.Stream

/-! ## Numbers -/

@[simp] theorem last_completeFrom (s : Stream) (text : String) :
    (s.completeFrom text).2.1.last = s.last := by
  unfold completeFrom
  cases Json.extract text true with
  | ok fields => rfl
  | error fault => cases fault <;> rfl

@[simp] theorem last_completeWith (s : Stream) (data : Json) :
    (s.completeWith data).2.1.last = s.last := by
  cases data with
  | null => rw [completeWith, last_completeFrom]
  | str text => rw [completeWith, last_completeFrom]
  | _ => rfl

/-- A chunk in order leaves its number behind, if it has one. -/
theorem last_addChunk (settings : Settings) (s : Stream) (c : Chunk) :
    (s.addChunk settings c).2.1.last =
      if outOfOrder settings s c.sequence then s.last else c.sequence.or s.last := by
  by_cases horder : outOfOrder settings s c.sequence = true
  · rw [if_pos horder, addChunk, if_pos horder]
  · rw [if_neg horder, addChunk_inOrder (Bool.eq_false_iff.mpr horder), ← mark_last]
    cases c.type with
    | partialData => rfl
    | complete => rw [last_completeWith]
    | error => rfl

/-! ## Endings -/

inductive Ending where
  | completed (schema : Json)
  | failed (error : String)
deriving DecidableEq

/-- How a stream has ended. -/
def ending? (s : Stream) : Option Ending :=
  match s.state with
  | .complete => some (.completed s.schema)
  | .error => s.error.map .failed
  | _ => none

/-- The ending that the search for a schema brings. -/
def Ending.ofSearch : Except Json.ParseFault Fields → Option Ending
  | .ok fields => some (.completed (.obj fields))
  | .error (.longInteger _) => none
  | .error fault => some (.failed ("Failed to parse streamed schema: " ++ fault.message))

/-- The ending that a chunk brings to a stream. -/
def brings? (s : Stream) (c : Chunk) : Option Ending :=
  match c.type with
  | .partialData => none
  | .error => some (.failed (errorMessage c.data))
  | .complete =>
    match s.searched c with
    | none => some (.completed c.data)
    | some text => Ending.ofSearch (Json.extract text true)

/-- The ending that a value brings, if it is a chunk in order. -/
def brought? (settings : Settings) (s : Stream) (v : Json) : Option Ending :=
  match Chunk.ofJson v with
  | .error _ => none
  | .ok c => if outOfOrder settings s c.sequence then none else s.brings? c

/-- A stream took an ending, or shows what it showed before if there is none. -/
def Ends : Option Ending → Stream → Stream → Prop
  | none, s, s' => s'.state = s.state ∧ s'.schema = s.schema ∧ s'.error = s.error
  | some (.completed schema), _, s' =>
    s'.state = .complete ∧ s'.schema = schema ∧ s'.error = none
  | some (.failed error), s, s' =>
    s'.state = .error ∧ s'.schema = s.schema ∧ s'.error = some error

theorem completeFrom_ends (s : Stream) (text : String) :
    Ends (Ending.ofSearch (Json.extract text true)) s (s.completeFrom text).2.1 := by
  unfold completeFrom
  cases Json.extract text true with
  | ok fields => exact ⟨rfl, rfl, rfl⟩
  | error fault => cases fault <;> exact ⟨rfl, rfl, rfl⟩

/-- Recording a number first makes no difference to what is shown. -/
theorem Ends.of_mark {e : Option Ending} {s s' : Stream} {n : Option Int}
    (h : Ends e (s.mark n) s') : Ends e s s' := by
  cases e with
  | none => simpa [Ends] using h
  | some e => cases e <;> simpa [Ends] using h

theorem completeWith_ends (s t : Stream) (c : Chunk) (htype : c.type = .complete)
    (htext : t.text = s.text) : Ends (s.brings? c) t (t.completeWith c.data).2.1 := by
  simp only [brings?, htype, searched]
  cases c.data with
  | null =>
    simp only [completeWith, ← htext]
    exact completeFrom_ends t t.text
  | str text =>
    simp only [completeWith]
    exact completeFrom_ends t text
  | _ => exact ⟨rfl, rfl, rfl⟩

theorem addChunk_ends {settings : Settings} {s : Stream} {c : Chunk}
    (horder : outOfOrder settings s c.sequence = false) :
    Ends (s.brings? c) s (s.addChunk settings c).2.1 := by
  refine Ends.of_mark (n := c.sequence) ?_
  rw [addChunk_inOrder horder]
  cases htype : c.type with
  | partialData =>
    simp only [brings?, htype]
    exact ⟨rfl, rfl, rfl⟩
  | complete => exact completeWith_ends s _ c htype (mark_text s c.sequence)
  | error =>
    simp only [brings?, htype]
    exact ⟨rfl, rfl, rfl⟩

/-- A value does to a stream what the ending it brings says. -/
theorem addValue_ends (settings : Settings) (s : Stream) (v : Json) :
    Ends (s.brought? settings v) s (s.addValue settings v).2.1 := by
  unfold brought? addValue
  cases Chunk.ofJson v with
  | error rejection => exact ⟨rfl, rfl, rfl⟩
  | ok c =>
    simp only
    split
    · rename_i horder
      rw [addChunk, if_pos horder]
      exact ⟨rfl, rfl, rfl⟩
    · rename_i horder
      exact addChunk_ends (Bool.eq_false_iff.mpr horder)

end ViewTree.Stream
