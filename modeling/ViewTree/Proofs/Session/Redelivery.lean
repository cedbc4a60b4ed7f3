import ViewTree.Proofs.Session.Streaming
import ViewTree.Proofs.Stream.Ending

/-
  ViewTree.Proofs.Session.Redelivery — chunks that arrive more than once.

  A transport that delivers at least once repeats chunks: behind a chunk, it and those
  before it may arrive again, any number of times and in any order (`Redelivers`). Where
  order is enforced and every chunk has a number, the number of a chunk that was handled
  never exceeds the last one of the stream (`Covers`), whether the chunk was accepted or
  dropped. So each copy is dropped, and is answered with no.

  A dropped copy leaves an entry in the journal and nothing else, and no handling of a chunk
  reads the journal (`handleChunk_unread`). So the copies change no other answer, and in the
  end the session is the same but for its journal (`redelivery_changes_nothing`).
-/

namespace ViewTree

open Telemetry

namespace Session

/-! ## The journal is not read -/

/-- A session whose journal is forgotten. -/
def quiet (s : Session) : Session := { s with world := { s.world with journal := [] } }

/-- Two calls answer the same, and leave the same but for the journal. -/
def SameBut {α : Type} (a b : α × Session) : Prop := a.1 = b.1 ∧ a.2.quiet = b.2.quiet

/-- A call answers the same, and leaves the same but for the journal, whatever the journal
    holds before. -/
def Unread {α : Type} (call : Session → α × Session) : Prop :=
  ∀ s : Session, SameBut (call s.quiet) (call s)

theorem Unread.congr {α : Type} {call : Session → α × Session} (h : Unread call)
    {s t : Session} (hst : s.quiet = t.quiet) : SameBut (call s) (call t) := by
  obtain ⟨hanswer, hleft⟩ := h s
  obtain ⟨hanswer', hleft'⟩ := h t
  rw [hst] at hanswer hleft
  exact ⟨hanswer.symm.trans hanswer', hleft.symm.trans hleft'⟩

theorem loadNode_unread (node : Node) : Unread (loadNode node) := by
  intro s
  have hregistry : s.quiet.registry = s.registry := rfl
  unfold loadNode
  rw [hregistry]
  by_cases h : (Check.validate s.registry node).isEmpty = true
  · simp only [h, if_true]
    exact ⟨rfl, rfl⟩
  · simp only [h]
    exact ⟨rfl, rfl⟩

theorem loadValue_unread (v : Json) : Unread (loadValue v) := by
  intro s
  have hsettings : s.quiet.settings = s.settings := rfl
  unfold loadValue loadWithin
  rw [hsettings]
  cases Payload.check s.settings.maxSchemaSize s.settings.maxSchemaDepth Payload.defaultName v with
  | error issue => exact ⟨rfl, rfl⟩
  | ok u =>
    cases u
    cases Input.normalize (.value v) with
    | error rejection => exact ⟨rfl, rfl⟩
    | ok node => exact (loadNode_unread node).congr rfl

theorem handleChunk_unread (v : Json) : Unread (handleChunk v) := by
  intro s
  cases hv : Chunk.ofJson v with
  | error rejection =>
    simp only [handleChunk, hv]
    exact ⟨rfl, rfl⟩
  | ok c =>
    have htook : (s.quiet.took c).quiet = (s.took c).quiet := rfl
    cases ha : (s.stream.addChunk s.settings c).1 with
    | error fault =>
      rw [handleChunk_stops hv ha, handleChunk_stops (s := s.quiet) hv ha]
      exact ⟨rfl, htook⟩
    | ok accepted =>
      by_cases hwait : accepted = true → c.type = .partialData
      · rw [handleChunk_waits hv ha hwait, handleChunk_waits (s := s.quiet) hv ha hwait]
        exact ⟨rfl, htook⟩
      · rw [Classical.not_imp] at hwait
        obtain ⟨rfl, ht⟩ := hwait
        cases he : (s.took c).stream.error with
        | some error =>
          rw [handleChunk_fails hv ha ht he, handleChunk_fails (s := s.quiet) hv ha ht he]
          exact ⟨rfl, rfl⟩
        | none =>
          rw [handleChunk_loads hv ha ht he, handleChunk_loads (s := s.quiet) hv ha ht he]
          obtain ⟨hanswer, hleft⟩ := (loadValue_unread (s.took c).stream.schema).congr
            (s := { s.quiet.took c with loading := false })
            (t := { s.took c with loading := false }) rfl
          exact ⟨congrArg Except.ok hanswer, hleft⟩

/-! ## The stream of a session -/

theorem loadValue_stream (v : Json) (s : Session) : (s.loadValue v).2.stream = s.stream := by
  unfold loadValue loadWithin
  split
  · rfl
  · simp only
    split
    · rfl
    · unfold loadNode
      simp only
      split <;> rfl

/-- Whatever else becomes of a chunk, the stream takes it. -/
theorem handleChunk_stream {v : Json} {c : Chunk} (hv : Chunk.ofJson v = .ok c) (s : Session) :
    (s.handleChunk v).2.stream = (s.stream.addChunk s.settings c).2.1 := by
  cases ha : (s.stream.addChunk s.settings c).1 with
  | error fault => rw [handleChunk_stops hv ha]; rfl
  | ok accepted =>
    by_cases hwait : accepted = true → c.type = .partialData
    · rw [handleChunk_waits hv ha hwait]
      rfl
    · rw [Classical.not_imp] at hwait
      obtain ⟨rfl, ht⟩ := hwait
      cases he : (s.took c).stream.error with
      | some error => rw [handleChunk_fails hv ha ht he]; rfl
      | none =>
        rw [handleChunk_loads hv ha ht he]
        exact loadValue_stream _ _

theorem handleChunk_settings (v : Json) (s : Session) :
    (s.handleChunk v).2.settings = s.settings := by
  have hsettles := handleChunk_settles v s
  unfold settings
  generalize (s.handleChunk v).1 = answer at hsettles
  match answer, hsettles with
  | .ok true, ⟨node, hshows⟩ => rw [hshows.context]
  | .ok false, hkeeps => rw [Keeps.context hkeeps]
  | .error _, hkeeps => rw [Keeps.context hkeeps]

/-! ## Copies -/

/-- The last number of a stream is no lower than that of the chunk in a value. -/
def Covers (s : Session) (v : Json) : Prop :=
  ∀ c, Chunk.ofJson v = .ok c → ∃ n last, c.sequence = some n ∧ s.stream.last = some last ∧ n ≤ last

section Copies

variable {s : Session} {v : Json}

/-- A covered chunk is dropped. -/
theorem handleChunk_covered (henforce : s.settings.enforceSequenceOrder = true)
    (h : s.Covers v) : (s.handleChunk v).1 = .ok false ∧ (s.handleChunk v).2.quiet = s.quiet := by
  cases hv : Chunk.ofJson v with
  | error rejection =>
    simp only [handleChunk, hv]
    exact ⟨trivial, rfl⟩
  | ok c =>
    obtain ⟨n, last, hn, hlast, hle⟩ := h c hv
    have hdropped : s.stream.addChunk s.settings c = (.ok false, s.stream, s.stream.dropped c) := by
      rw [Stream.addChunk, if_pos (Stream.outOfOrder_iff.mpr ⟨n, last, hn, hlast, henforce, hle⟩)]
    have ha : (s.stream.addChunk s.settings c).1 = .ok false := by rw [hdropped]
    have hno : false = true → c.type = .partialData := fun h => absurd h Bool.false_ne_true
    rw [handleChunk_waits hv ha hno, took, hdropped]
    exact ⟨rfl, rfl⟩

/-- The last number of a stream never falls. -/
theorem last_handleChunk (henforce : s.settings.enforceSequenceOrder = true) {last : Int}
    (h : s.stream.last = some last) (v : Json) :
    ∃ last', (s.handleChunk v).2.stream.last = some last' ∧ last ≤ last' := by
  cases hv : Chunk.ofJson v with
  | error rejection =>
    simp only [handleChunk, hv]
    exact ⟨last, h, Int.le_refl last⟩
  | ok c =>
    rw [handleChunk_stream hv, Stream.last_addChunk]
    by_cases horder : Stream.outOfOrder s.settings s.stream c.sequence = true
    · exact ⟨last, by rw [if_pos horder, h], Int.le_refl last⟩
    · rw [if_neg horder]
      cases hn : c.sequence with
      | none => exact ⟨last, h, Int.le_refl last⟩
      | some n =>
        have hrise : ¬ n ≤ last := fun hle =>
          horder (Stream.outOfOrder_iff.mpr ⟨n, last, hn, h, henforce, hle⟩)
        exact ⟨n, rfl, by omega⟩

theorem Covers.handleChunk (h : s.Covers v) (henforce : s.settings.enforceSequenceOrder = true)
    (w : Json) : (s.handleChunk w).2.Covers v := by
  intro c hv
  obtain ⟨n, last, hn, hlast, hle⟩ := h c hv
  obtain ⟨last', hlast', hrise⟩ := last_handleChunk henforce hlast w
  exact ⟨n, last', hn, hlast', Int.le_trans hle hrise⟩

/-- A chunk with a number is covered once it was handled, accepted or not. -/
theorem covers_handleChunk (hnumber : ∀ c, Chunk.ofJson v = .ok c → c.sequence.isSome) :
    (s.handleChunk v).2.Covers v := by
  intro c hv
  obtain ⟨n, hn⟩ := Option.isSome_iff_exists.mp (hnumber c hv)
  rw [handleChunk_stream hv, Stream.last_addChunk, hn]
  by_cases horder : Stream.outOfOrder s.settings s.stream (some n) = true
  · obtain ⟨n', last, hn', hlast, -, hle⟩ := Stream.outOfOrder_iff.mp horder
    exact ⟨n', last, hn', by rw [if_pos horder, hlast], hle⟩
  · exact ⟨n, n, rfl, by rw [if_neg horder]; rfl, Int.le_refl n⟩

end Copies

/-! ## Redelivery -/

/-- Values that arrive in their order, and may arrive again at any time after; `true` marks
    a copy. The first list holds what has arrived before. -/
inductive Redelivers : List Json → List Json → List (Json × Bool) → Prop where
  | done (seen : List Json) : Redelivers seen [] []
  | next {seen rest : List Json} {v : Json} {more : List (Json × Bool)} :
    Redelivers (v :: seen) rest more → Redelivers seen (v :: rest) ((v, false) :: more)
  | again {seen rest : List Json} {v : Json} {more : List (Json × Bool)} :
    v ∈ seen → Redelivers seen rest more → Redelivers seen rest ((v, true) :: more)

/-- The answers to arrivals that are copies, or to those that are none. -/
def answersTo (copies : Bool) (arrivals : List (Json × Bool))
    (answers : List (Except Json.ParseFault Bool)) : List (Except Json.ParseFault Bool) :=
  ((arrivals.zip answers).filter fun p => p.1.2 == copies).map Prod.snd

theorem redelivers_unread {seen values : List Json} {arrivals : List (Json × Bool)}
    (h : Redelivers seen values arrivals)
    (hnumbers : ∀ v ∈ values, ∀ c, Chunk.ofJson v = .ok c → c.sequence.isSome) :
    ∀ {s t : Session}, s.settings.enforceSequenceOrder = true → s.quiet = t.quiet →
      (∀ v ∈ seen, s.Covers v) →
      (∀ a ∈ answersTo true arrivals (handleAll (arrivals.map Prod.fst) s).1, a = .ok false) ∧
        answersTo false arrivals (handleAll (arrivals.map Prod.fst) s).1 = (handleAll values t).1 ∧
          (handleAll (arrivals.map Prod.fst) s).2.quiet = (handleAll values t).2.quiet := by
  induction h with
  | done seen =>
    intro s t _ hst _
    exact ⟨by simp [answersTo], rfl, hst⟩
  | @next seen rest v more _ ih =>
    intro s t henforce hst hseen
    obtain ⟨hanswer, hleft⟩ := (handleChunk_unread v).congr hst
    have hcovers : ∀ w ∈ v :: seen, (s.handleChunk v).2.Covers w := by
      intro w hw
      rcases List.mem_cons.mp hw with rfl | hw
      · exact covers_handleChunk (hnumbers w List.mem_cons_self)
      · exact (hseen w hw).handleChunk henforce v
    obtain ⟨hcopies, hanswers, hend⟩ := ih (fun w hw => hnumbers w (List.mem_cons_of_mem v hw))
      ((congrArg Settings.enforceSequenceOrder (handleChunk_settings v s)).trans henforce)
      hleft hcovers
    refine ⟨?_, ?_, hend⟩
    · simpa [answersTo, handleAll] using hcopies
    · simpa [answersTo, handleAll, hanswer] using hanswers
  | @again seen rest v more hv _ ih =>
    intro s t henforce hst hseen
    obtain ⟨hno, hsame⟩ := handleChunk_covered henforce (hseen v hv)
    obtain ⟨hcopies, hanswers, hend⟩ := ih hnumbers
      ((congrArg Settings.enforceSequenceOrder (handleChunk_settings v s)).trans henforce)
      (hsame.trans hst) fun w hw => (hseen w hw).handleChunk henforce v
    refine ⟨?_, ?_, hend⟩
    · simpa [answersTo, handleAll, hno] using hcopies
    · simpa [answersTo, handleAll] using hanswers

/-- With order enforced and every chunk numbered, a stream whose chunks arrive again and
    again leaves the session as it is left when they arrive once: each copy is answered with
    no, each chunk as without the copies, and only the journal tells that there were any. -/
theorem redelivery_changes_nothing (s : Session) (values : List Json)
    (arrivals : List (Json × Bool)) (henforce : s.settings.enforceSequenceOrder = true)
    (hnumbers : ∀ v ∈ values, ∀ c, Chunk.ofJson v = .ok c → c.sequence.isSome)
    (harrivals : Redelivers [] values arrivals) :
    let once := handleAll values s.startStream
    let all := handleAll (arrivals.map Prod.fst) s.startStream
    (∀ a ∈ answersTo true arrivals all.1, a = .ok false) ∧
      answersTo false arrivals all.1 = once.1 ∧ all.2.quiet = once.2.quiet :=
  redelivers_unread harrivals hnumbers henforce rfl nofun

/-- A heading in two pieces, each of them and the end of the stream delivered twice. -/
theorem heading_delivered_twice :
    let s := fresh .library .default .empty
    let first := Chunk.wire ⟨.partialData, .str "\x7b\"type\":\"heading\",", some 4⟩
    let second := Chunk.wire ⟨.partialData, .str "\"props\":\x7b\"text\":\"Hi\"\x7d\x7d", some 5⟩
    let last := Chunk.wire ⟨.complete, .null, some 9⟩
    let arrivals := [(first, false), (second, false), (first, true), (last, false), (last, true),
      (second, true)]
    let all := handleAll (arrivals.map Prod.fst) s.startStream
    all.1 = [.ok false, .ok false, .ok false, .ok true, .ok false, .ok false] ∧
      all.2.quiet = (handleAll [first, second, last] s.startStream).2.quiet := by
  intro s first second last arrivals all
  have harrivals : Redelivers [] [first, second, last] arrivals :=
    .next (.next (.again (by simp) (.next (.again (by simp) (.again (by simp) (.done _))))))
  have hnumbers : ∀ v ∈ [first, second, last], ∀ c, Chunk.ofJson v = .ok c → c.sequence.isSome := by
    intro v hv c hc
    simp only [List.mem_cons, List.not_mem_nil, or_false] at hv
    rcases hv with rfl | rfl | rfl <;> rw [Chunk.ofJson_wire, Except.ok.injEq] at hc <;>
      exact hc ▸ rfl
  obtain ⟨-, -, hend⟩ := redelivery_changes_nothing s _ arrivals rfl hnumbers harrivals
  exact ⟨by decide +kernel, hend⟩

end Session

end ViewTree
