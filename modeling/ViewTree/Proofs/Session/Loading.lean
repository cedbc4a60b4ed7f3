import ViewTree.Proofs.Session.Invariant
import ViewTree.Proofs.Session.Redelivery
import ViewTree.Proofs.Stream.Books

/-
  ViewTree.Proofs.Session.Loading — a session is loading only while a stream is in progress.

  Whether a session is loading is kept by the session, and whether a stream is in progress
  by the stream. The two are in step (`InStep`) when the first implies the second. Starting
  a stream sets both. A chunk leaves both as they were, unless it brings an ending: then the
  session is not loading any more, whatever the load behind it comes to
  (`loading_handleChunk`). Everything else leaves the stream alone and does not begin to
  load (`Rests`).

  So every command keeps the two in step (`InStep.run`), but for the one that sets the mark
  by hand, and so does every run (`loading_only_while_streaming`).
-/

namespace ViewTree

open Live Telemetry

/-! ## Chunks that end a stream -/

namespace Stream

variable {settings : Settings} {s : Stream} {c : Chunk}

theorem ofSearch_isSome (s : Stream) (text : String) :
    (Ending.ofSearch (Json.extract text true)).isSome = (s.completeFrom text).1.isOk := by
  unfold completeFrom
  cases Json.extract text true with
  | ok fields => rfl
  | error fault => cases fault <;> rfl

/-- A chunk in order ends the stream unless it is a partial one, or is stopped. -/
theorem brings?_isSome (horder : outOfOrder settings s c.sequence = false) :
    (s.brings? c).isSome =
      (decide (c.type ≠ .partialData) && (s.addChunk settings c).1.isOk) := by
  rw [answer_inOrder horder]
  unfold brings? searched
  cases htype : c.type with
  | partialData => rfl
  | error => rfl
  | complete =>
    have hmap (x : Except Json.ParseFault Unit) : (x.map fun _ => true).isOk = x.isOk := by
      cases x <;> rfl
    simp only [hmap, ne_eq, reduceCtorEq, not_false_eq_true, decide_true, Bool.true_and]
    cases c.data with
    | null =>
      simp only [completeWith, ← mark_text s c.sequence]
      exact ofSearch_isSome (s.mark c.sequence) _
    | str text =>
      simp only [completeWith]
      exact ofSearch_isSome (s.mark c.sequence) text
    | _ => rfl

end Stream

namespace Session

/-! ## Rests -/

/-- The stream is as before, and loading was not begun. -/
structure Rests (s s' : Session) : Prop where
  stream : s'.stream = s.stream
  loading : s'.loading = true → s.loading = true

theorem Rests.refl (s : Session) : Rests s s := ⟨rfl, id⟩

theorem Rests.trans {s t u : Session} (h : Rests s t) (h' : Rests t u) : Rests s u :=
  ⟨h'.stream.trans h.stream, fun hu => h.loading (h'.loading hu)⟩

theorem note_rests (entries : Journal) (s : Session) : Rests s (s.note entries) := ⟨rfl, id⟩

/-- An error ends the loading. -/
theorem setError_rests (error : String) (s : Session) : Rests s (s.setError error) := ⟨rfl, nofun⟩

theorem commit_rests (node : Node) (s : Session) : Rests s (s.commit node) := ⟨rfl, id⟩

theorem loadNode_rests (node : Node) (s : Session) : Rests s (s.loadNode node).2 := by
  have hnote := note_rests (Check.journal s.registry node) s
  unfold loadNode
  by_cases hvalid : (Check.validate s.registry node).isEmpty
  · simp only [hvalid, if_true]
    exact hnote.trans ((commit_rests node _).trans (note_rests _ _))
  · simp only [hvalid]
    exact hnote.trans ((note_rests _ _).trans (setError_rests _ _))

theorem loadWithin_rests (payload : Json) (input : Input) (s : Session) :
    Rests s (s.loadWithin payload input).2 := by
  unfold loadWithin
  cases Payload.check s.settings.maxSchemaSize s.settings.maxSchemaDepth Payload.defaultName
      payload with
  | error issue => exact (note_rests _ s).trans (setError_rests _ _)
  | ok _ =>
    have hnote := note_rests input.journal s
    cases input.normalize with
    | error rejection => exact hnote.trans ((note_rests _ _).trans (setError_rests _ _))
    | ok node => exact hnote.trans (loadNode_rests node _)

theorem load_rests (input : Input) (s : Session) : Rests s (s.load input).2 := by
  unfold load
  cases input.payload? with
  | none => exact .refl s
  | some payload => exact loadWithin_rests payload input s

theorem loadText_rests (text : String) (s : Session) : Rests s (s.loadText text).2 := by
  unfold loadText
  cases Json.extract text true with
  | ok fields => exact loadWithin_rests _ _ s
  | error fault =>
    cases fault with
    | longInteger n => exact .refl s
    | _ => exact (note_rests _ s).trans (setError_rests _ _)

theorem commitPatched_rests (outcome : Patch.Outcome) (s : Session) :
    Rests s (s.commitPatched outcome).2 := by
  have hwire := note_rests (Wire.journal outcome.tree) s
  unfold commitPatched
  cases Wire.normalize outcome.tree with
  | error rejection => exact hwire.trans (setError_rests _ _)
  | ok node =>
    have hcheck := hwire.trans (note_rests (Check.journal s.registry node) _)
    by_cases hvalid : (Check.validate s.registry node).isEmpty
    · simp only [registry, note] at hvalid ⊢
      simp only [hvalid, if_true]
      exact hcheck.trans ((commit_rests node _).trans (note_rests _ _))
    · simp only [registry, note] at hvalid ⊢
      simp only [hvalid]
      exact hcheck.trans ((note_rests _ _).trans (setError_rests _ _))

theorem applyPatches_rests (patches : Json) (s : Session) : Rests s (s.applyPatches patches).2 := by
  unfold applyPatches
  cases s.current with
  | none => exact setError_rests _ s
  | some node =>
    cases patches.iterate? with
    | none => exact .refl s
    | some list =>
      have hopened := note_rests [Span.opened "apply_patch" [("patches", .int list.length)]] s
      cases hdump : node.dump? with
      | none =>
        simp only [hdump]
        exact hopened.trans (note_rests _ _)
      | some doc =>
        cases hrun : Patch.run doc list with
        | error stopped =>
          simp only [hdump, hrun]
          exact hopened.trans (note_rests _ _)
        | ok outcome =>
          simp only [hdump, hrun]
          exact hopened.trans ((note_rests _ _).trans (commitPatched_rests outcome _))

theorem revert_rests (s : Session) : Rests s s.revert.2 := by
  unfold revert
  cases s.history.dropLast.getLast? with
  | none => exact .refl s
  | some previous => exact ⟨rfl, id⟩

theorem renderCurrent_rests (host : Option HostId) (s : Session) :
    Rests s (s.renderCurrent host).2 := by
  unfold renderCurrent
  cases host with
  | none => exact setError_rests _ s
  | some place =>
    cases s.current with
    | none => exact setError_rests _ s
    | some node =>
      have hmount : Rests s (s.mountScoped node place).2 := ⟨rfl, id⟩
      rcases hm : s.mountScoped node place with ⟨outcome, s'⟩
      rw [hm] at hmount
      simp only [hm]
      cases outcome with
      | error failure => exact hmount
      | ok result =>
        have hlast : Rests s { s' with lastRender := some result } := hmount.trans ⟨rfl, id⟩
        cases hr : result.error with
        | some error =>
          simp only [hr]
          exact hlast.trans (setError_rests error _)
        | none =>
          simp only [hr]
          exact hlast

/-! ## Chunks -/

/-- The stream of a session takes a value as it would by itself. -/
theorem handleChunk_addValue (v : Json) (s : Session) :
    (s.handleChunk v).2.stream = (s.stream.addValue s.settings v).2.1 := by
  cases hv : Chunk.ofJson v with
  | error rejection => simp only [handleChunk, Stream.addValue, hv, note]
  | ok c => rw [handleChunk_stream hv, Stream.addValue, hv]

/-- Behind a value that brings an ending the session is not loading, whatever comes of the
    load; behind any other it is loading if it was before. -/
theorem loading_handleChunk (v : Json) (s : Session) :
    (s.handleChunk v).2.loading = (s.loading && (s.stream.brought? s.settings v).isNone) := by
  unfold Stream.brought?
  cases hv : Chunk.ofJson v with
  | error rejection =>
    simp only [handleChunk, hv]
    exact (Bool.and_true _).symm
  | ok c =>
    by_cases hlate : Stream.outOfOrder s.settings s.stream c.sequence = true
    · have hno : (s.stream.addChunk s.settings c).1 = .ok false := by
        rw [Stream.addChunk, if_pos hlate]
      rw [handleChunk_waits hv hno fun h => by cases h]
      simp only [hlate, if_true]
      exact (Bool.and_true _).symm
    · have horder := Bool.eq_false_iff.mpr hlate
      simp only [horder, Bool.false_eq_true, if_false, ← Option.not_isSome,
        Stream.brings?_isSome horder]
      cases ha : (s.stream.addChunk s.settings c).1 with
      | error fault =>
        rw [handleChunk_stops hv ha]
        simp [Except.isOk, Except.toBool, took, note]
      | ok accepted =>
        by_cases htype : c.type = .partialData
        · rw [handleChunk_waits hv ha fun _ => htype]
          simp [htype, took, note]
        · cases accepted with
          | false => exact absurd ha (Stream.answer_ne_no horder)
          | true =>
            have hoff : (s.handleChunk v).2.loading ≠ true := by
              cases he : (s.took c).stream.error with
              | some error =>
                rw [handleChunk_fails hv ha htype he]
                exact Bool.false_ne_true
              | none =>
                rw [handleChunk_loads hv ha htype he]
                exact fun hloading => Bool.false_ne_true ((loadWithin_rests _ _ _).loading hloading)
            rw [Bool.eq_false_iff.mpr hoff]
            simp [htype, Except.isOk, Except.toBool]

/-! ## Runs -/

/-- A session that is loading has a stream in progress. -/
def InStep (s : Session) : Prop := s.loading = true → s.stream.state = .streaming

/-- Sets the mark by hand. -/
def Command.marks : Command → Bool
  | setLoading _ => true
  | _ => false

namespace InStep

variable {s : Session}

theorem of_rests {s' : Session} (h : InStep s) (hrests : Rests s s') : InStep s' := by
  intro hloading
  rw [hrests.stream]
  exact h (hrests.loading hloading)

theorem handleChunk (h : InStep s) (v : Json) : InStep (s.handleChunk v).2 := by
  intro hloading
  rw [loading_handleChunk, Bool.and_eq_true, Option.isNone_iff_eq_none] at hloading
  have hends := Stream.addValue_ends s.settings s.stream v
  rw [hloading.2, ← handleChunk_addValue] at hends
  exact hends.1.trans (h hloading.1)

theorem run (h : InStep s) {command : Command} (hmarks : command.marks = false) :
    InStep (command.run s) := by
  cases command with
  | clear => exact h
  | setLoading loading => cases hmarks
  | startStream => exact fun _ => rfl
  | request q =>
    cases q <;> simp only [Command.run, Request.run]
    case load input => exact h.of_rests (load_rests input s)
    case loadText text => exact h.of_rests (loadText_rests text s)
    case applyPatches patches => exact h.of_rests (applyPatches_rests patches s)
    case handleChunk v => exact h.handleChunk v
    case revert => exact h.of_rests (revert_rests s)
    case render host => exact h.of_rests (renderCurrent_rests host s)

theorem runAll (h : InStep s) {commands : List Command}
    (hmarks : ∀ c ∈ commands, c.marks = false) : InStep (s.runAll commands) := by
  induction commands generalizing s with
  | nil => exact h
  | cons command rest ih =>
    exact ih (h.run (hmarks command List.mem_cons_self))
      fun c hc => hmarks c (List.mem_cons_of_mem _ hc)

end InStep

/-- However a fresh session was used, but for setting the mark by hand, it is loading only
    while its stream is in progress. -/
theorem loading_only_while_streaming (registry : Registry) (settings : Settings) (world : World)
    (commands : List Command) (hmarks : ∀ c ∈ commands, c.marks = false)
    (hloading : ((fresh registry settings world).runAll commands).loading = true) :
    ((fresh registry settings world).runAll commands).stream.state = .streaming := by
  have hfresh : InStep (fresh registry settings world) := nofun
  exact hfresh.runAll hmarks hloading

/-- A completed stream whose schema is refused, and behind it a new stream with a late ending
    and a value that is no chunk: neither stops the loading. -/
theorem loading_behind_a_late_ending :
    let chunk (c : Chunk) : Command := .request (.handleChunk c.wire)
    let commands : List Command := [.startStream,
      chunk ⟨.complete, .obj [("type", .str "hologram")], some 9⟩, .startStream,
      chunk ⟨.partialData, .str "\x7b", some 3⟩, chunk ⟨.complete, .null, some 2⟩,
      .request (.handleChunk .null), .request .revert, .clear]
    let s := (fresh .library .default .empty).runAll commands
    (∀ c ∈ commands, c.marks = false) ∧ s.loading = true ∧ s.stream.state = .streaming := by
  intro chunk commands s
  have hmarks : ∀ c ∈ commands, c.marks = false := by
    simp [commands, chunk, Command.marks]
  have hloading : s.loading = true := by decide +kernel
  exact ⟨hmarks, hloading,
    loading_only_while_streaming .library .default .empty commands hmarks hloading⟩

end Session

end ViewTree
