import ViewTree.Session

/-
  ViewTree.Proofs.Session.Display — what a request does to the schema on display.

  The display is the current schema and the history. A request either leaves it as it
  was (`Keeps`) or makes one node current, which is then the newest of the history
  (`Shows`); an update does one of the two, by whether a node was accepted (`Updates`).
  Each request has one lemma that says which.

  - `accepted?`: the node that loading a value makes current. It depends on the settings
    and the registry alone, so every way to load the same schema ends in the same
    display (`Updates.agree`, `Reads.alike`).
  - `Reads`: what becomes of a session when the object in a text is loaded, by how the
    search for that object ended.
-/

namespace ViewTree.Session

open Live Telemetry

/-! ## The display -/

/-- The display is as before, and so are the settings and the registry. -/
structure Keeps (s s' : Session) : Prop where
  context : s'.context = s.context
  current : s'.current = s.current
  history : s'.history = s.history

/-- A node was made current. -/
structure Shows (node : Node) (s s' : Session) : Prop where
  context : s'.context = s.context
  current : s'.current = some node
  history : s'.history = extend s.settings.historyLimit s.history node
  error : s'.error = none

/-- What an update does and answers, by the node that was accepted. -/
def Updates (accepted : Option Node) (s : Session) (answer : Bool) (s' : Session) : Prop :=
  match accepted with
  | none => answer = false ∧ Keeps s s'
  | some node => answer = true ∧ Shows node s s'

/-- Two calls answer the same and leave the same on display. -/
def Alike {α : Type} (a b : α × Session) : Prop :=
  a.1 = b.1 ∧ a.2.current = b.2.current ∧ a.2.history = b.2.history

theorem Keeps.refl (s : Session) : Keeps s s := ⟨rfl, rfl, rfl⟩

theorem Keeps.trans {s t u : Session} (h : Keeps s t) (h' : Keeps t u) : Keeps s u :=
  ⟨h'.context.trans h.context, h'.current.trans h.current, h'.history.trans h.history⟩

theorem Keeps.shows {s t u : Session} {node : Node} (h : Keeps s t) (h' : Shows node t u) :
    Shows node s u := by
  refine ⟨h'.context.trans h.context, h'.current, ?_, h'.error⟩
  rw [h'.history, h.history, settings, settings, h.context]

theorem Keeps.updates {s t u : Session} {accepted : Option Node} {answer : Bool}
    (h : Keeps s t) (h' : Updates accepted t answer u) : Updates accepted s answer u := by
  cases accepted with
  | none => exact ⟨h'.1, h.trans h'.2⟩
  | some node => exact ⟨h'.1, h.shows h'.2⟩

/-- The display and the answer of an update hang on the accepted node alone. -/
theorem Updates.agree {s t u : Session} {accepted : Option Node} {a b : Bool}
    (h : Updates accepted s a t) (h' : Updates accepted s b u) :
    a = b ∧ t.current = u.current ∧ t.history = u.history := by
  cases accepted with
  | none =>
    exact ⟨h.1.trans h'.1.symm, h.2.current.trans h'.2.current.symm,
      h.2.history.trans h'.2.history.symm⟩
  | some node =>
    exact ⟨h.1.trans h'.1.symm, h.2.current.trans h'.2.current.symm,
      h.2.history.trans h'.2.history.symm⟩

/-- Nothing is lost from a history but its oldest entries, and those only to the limit. -/
theorem extend_eq (limit : Nat) (history : List Node) (node : Node) :
    ∃ dropped, history ++ [node] = dropped ++ extend limit history node ∧
      (extend limit history node).length = min (history.length + 1) limit := by
  refine ⟨(history ++ [node]).take (history.length + 1 - limit), ?_, ?_⟩
  · exact (List.take_append_drop _ _).symm
  · simp only [extend, List.length_drop, List.length_append, List.length_singleton]
    omega

/-! ## Bookkeeping -/

theorem note_keeps (entries : Journal) (s : Session) : Keeps s (s.note entries) := ⟨rfl, rfl, rfl⟩

theorem setError_keeps (error : String) (s : Session) : Keeps s (s.setError error) :=
  ⟨rfl, rfl, rfl⟩

theorem commit_shows (node : Node) (s : Session) (entries : Journal) :
    Shows node s ((s.commit node).note entries) := ⟨rfl, rfl, rfl, rfl⟩

/-! ## Loading -/

/-- A node that is valid for a registry. -/
def valid? (registry : Registry) (node : Node) : Option Node :=
  if (Check.validate registry node).isEmpty then some node else none

/-- The node that loading an input with some payload makes current. -/
def admitted? (c : Render.Context) (payload : Json) (input : Input) : Option Node :=
  match Payload.check c.settings.maxSchemaSize c.settings.maxSchemaDepth Payload.defaultName
      payload with
  | .error _ => none
  | .ok () =>
    match input.normalize with
    | .error _ => none
    | .ok node => valid? c.registry node

/-- The node that loading a value makes current. -/
def accepted? (c : Render.Context) (v : Json) : Option Node := admitted? c v (.value v)

theorem loadNode_updates (node : Node) (s : Session) :
    Updates (valid? s.registry node) s (s.loadNode node).1 (s.loadNode node).2 := by
  unfold loadNode valid?
  have hnote := note_keeps (Check.journal s.registry node) s
  by_cases h : (Check.validate s.registry node).isEmpty
  · simp only [h, if_true]
    exact ⟨rfl, hnote.shows (commit_shows node _ _)⟩
  · simp only [h]
    exact ⟨rfl, hnote.trans ((note_keeps _ _).trans (setError_keeps _ _))⟩

theorem loadWithin_updates (payload : Json) (input : Input) (s : Session) :
    Updates (admitted? s.context payload input) s (s.loadWithin payload input).1
      (s.loadWithin payload input).2 := by
  simp only [loadWithin, admitted?, settings]
  cases Payload.check s.context.settings.maxSchemaSize s.context.settings.maxSchemaDepth
      Payload.defaultName payload with
  | error issue => exact ⟨rfl, (note_keeps _ s).trans (setError_keeps _ _)⟩
  | ok u =>
    cases u
    have hnote := note_keeps input.journal s
    cases input.normalize with
    | error rejection =>
      exact ⟨rfl, hnote.trans ((note_keeps _ _).trans (setError_keeps _ _))⟩
    | ok node => exact hnote.updates (loadNode_updates node (s.note input.journal))

theorem loadValue_updates (v : Json) (s : Session) :
    Updates (accepted? s.context v) s (s.loadValue v).1 (s.loadValue v).2 :=
  loadWithin_updates v (.value v) s

theorem load_of_payload {input : Input} {payload : Json} (h : input.payload? = some payload)
    (s : Session) :
    s.load input = (.ok (s.loadWithin payload input).1, (s.loadWithin payload input).2) := by
  simp only [load, h]

/-- Without a payload nothing happens. -/
theorem load_of_no_payload {input : Input} (h : input.payload? = none) (s : Session) :
    s.load input = (.error .tooDeep, s) := by
  simp only [load, h]

theorem load_unwritten {node : Node} (h : node.dump? = none) (s : Session) :
    s.load (.node node) = (.error .tooDeep, s) := by
  simp only [load, Input.payload?, h]

/-! ## Loading from text -/

/-- What becomes of a session when the object in a text is loaded, by how the search for
    that object ended. -/
def Reads (found : Except Json.ParseFault Fields) (s : Session)
    (answer : Except Json.ParseFault Bool) (s' : Session) : Prop :=
  match found with
  | .error (.longInteger n) => answer = .error (.longInteger n) ∧ Keeps s s'
  | .error _ => answer = .ok false ∧ Keeps s s'
  | .ok fields => ∃ done, answer = .ok done ∧
      Updates (accepted? s.context (.obj fields)) s done s'

theorem Keeps.reads {s t u : Session} {found : Except Json.ParseFault Fields}
    {answer : Except Json.ParseFault Bool} (h : Keeps s t) (h' : Reads found t answer u) :
    Reads found s answer u := by
  cases found with
  | error fault => cases fault <;> exact ⟨h'.1, h.trans h'.2⟩
  | ok fields =>
    obtain ⟨done, hdone, hup⟩ := h'
    rw [h.context] at hup
    exact ⟨done, hdone, h.updates hup⟩

/-- Calls in which the same search was made from the same session end alike. -/
theorem Reads.alike {s : Session} {found : Except Json.ParseFault Fields}
    {a b : Except Json.ParseFault Bool × Session} (h : Reads found s a.1 a.2)
    (h' : Reads found s b.1 b.2) : Alike a b := by
  cases found with
  | error fault =>
    cases fault <;>
      exact ⟨h.1.trans h'.1.symm, h.2.current.trans h'.2.current.symm,
        h.2.history.trans h'.2.history.symm⟩
  | ok fields =>
    obtain ⟨done, hdone, hup⟩ := h
    obtain ⟨done', hdone', hup'⟩ := h'
    obtain ⟨rfl, hcurrent, hhistory⟩ := hup.agree hup'
    exact ⟨hdone.trans hdone'.symm, hcurrent, hhistory⟩

theorem loadText_reads {text : String} {found : Except Json.ParseFault Fields}
    (hfound : Json.extract text true = found) (s : Session) :
    Reads found s (s.loadText text).1 (s.loadText text).2 := by
  unfold loadText
  rw [hfound]
  cases found with
  | error fault =>
    cases fault with
    | longInteger n => exact ⟨rfl, .refl s⟩
    | _ => exact ⟨rfl, (note_keeps _ s).trans (setError_keeps _ _)⟩
  | ok fields => exact ⟨_, rfl, loadValue_updates _ s⟩

/-! ## Any update -/

/-- An update that says it succeeded made one node current; any other kept the display. -/
def Settles {ε : Type} (answer : Except ε Bool) (s s' : Session) : Prop :=
  match answer with
  | .ok true => ∃ node, Shows node s s'
  | _ => Keeps s s'

theorem Keeps.settles {ε : Type} {answer : Except ε Bool} {s t u : Session} (h : Keeps s t)
    (h' : Settles answer t u) : Settles answer s u := by
  match answer, h' with
  | .ok true, ⟨node, hnode⟩ => exact ⟨node, h.shows hnode⟩
  | .ok false, h' => exact h.trans h'
  | .error _, h' => exact h.trans h'

theorem Updates.settles {ε : Type} {accepted : Option Node} {answer : Bool} {s s' : Session}
    (h : Updates accepted s answer s') : Settles (.ok answer : Except ε Bool) s s' := by
  cases accepted with
  | none =>
    obtain ⟨rfl, hkeeps⟩ := h
    exact hkeeps
  | some node =>
    obtain ⟨rfl, hshows⟩ := h
    exact ⟨node, hshows⟩

theorem Reads.settles {found : Except Json.ParseFault Fields}
    {answer : Except Json.ParseFault Bool} {s s' : Session} (h : Reads found s answer s') :
    Settles answer s s' := by
  cases found with
  | error fault =>
    cases fault <;>
      · obtain ⟨rfl, hkeeps⟩ := h
        exact hkeeps
  | ok fields =>
    obtain ⟨done, rfl, hup⟩ := h
    exact hup.settles

theorem load_settles (input : Input) (s : Session) : Settles (s.load input).1 s (s.load input).2 := by
  cases hpayload : input.payload? with
  | none =>
    rw [load_of_no_payload hpayload]
    exact .refl s
  | some payload =>
    rw [load_of_payload hpayload]
    exact (loadWithin_updates payload input s).settles

/-! ## Patching -/

/-- The node that the tree of a run makes current. -/
def shownBy? (registry : Registry) (tree : Json) : Option Node :=
  match Wire.normalize tree with
  | .error _ => none
  | .ok node => valid? registry node

theorem commitPatched_updates (outcome : Patch.Outcome) (s : Session) :
    Updates (shownBy? s.registry outcome.tree) s (s.commitPatched outcome).1
      (s.commitPatched outcome).2 := by
  unfold commitPatched shownBy?
  have hwire := note_keeps (Wire.journal outcome.tree) s
  cases Wire.normalize outcome.tree with
  | error rejection => exact ⟨rfl, hwire.trans (setError_keeps _ _)⟩
  | ok node =>
    unfold valid?
    have hcheck := hwire.trans (note_keeps (Check.journal s.registry node) _)
    by_cases h : (Check.validate s.registry node).isEmpty
    · simp only [registry, note] at h ⊢
      simp only [h, if_true]
      exact ⟨rfl, hcheck.shows (commit_shows node _ _)⟩
    · simp only [registry, note] at h ⊢
      simp only [h]
      exact ⟨rfl, hcheck.trans ((note_keeps _ _).trans (setError_keeps _ _))⟩

theorem applyPatches_settles (patches : Json) (s : Session) :
    Settles (s.applyPatches patches).1 s (s.applyPatches patches).2 := by
  unfold applyPatches
  cases s.current with
  | none => exact setError_keeps _ s
  | some node =>
    cases patches.iterate? with
    | none => exact .refl s
    | some list =>
      have hopened := note_keeps [Span.opened "apply_patch" [("patches", .int list.length)]] s
      cases hdump : node.dump? with
      | none =>
        simp only [hdump]
        exact hopened.trans (note_keeps _ _)
      | some doc =>
        cases hrun : Patch.run doc list with
        | error stopped =>
          simp only [hdump, hrun]
          exact hopened.trans (note_keeps _ _)
        | ok outcome =>
          simp only [hdump, hrun]
          exact (hopened.trans (note_keeps _ _)).settles (commitPatched_updates outcome _).settles

/-! ## Streaming -/

theorem startStream_keeps (s : Session) : Keeps s s.startStream := ⟨rfl, rfl, rfl⟩

theorem loading_keeps (loading : Bool) (s : Session) : Keeps s { s with loading := loading } :=
  ⟨rfl, rfl, rfl⟩

/-- A session whose stream took a chunk. -/
def took (chunk : Chunk) (s : Session) : Session :=
  { s with stream := (s.stream.addChunk s.settings chunk).2.1 }.note
    (s.stream.addChunk s.settings chunk).2.2

theorem took_keeps (chunk : Chunk) (s : Session) : Keeps s (s.took chunk) := ⟨rfl, rfl, rfl⟩

section Chunks

variable {v : Json} {chunk : Chunk} {s : Session}

/-- A chunk that was not accepted, or is not the last one, is only taken by the stream. -/
theorem handleChunk_waits {accepted : Bool} (hv : Chunk.ofJson v = .ok chunk)
    (ha : (s.stream.addChunk s.settings chunk).1 = .ok accepted)
    (hwait : accepted = true → chunk.type = .partialData) :
    s.handleChunk v = (.ok false, s.took chunk) := by
  have h : (!accepted || decide (chunk.type = .partialData)) = true := by
    cases accepted with
    | false => rfl
    | true => simpa using hwait rfl
  simp only [handleChunk, hv, ha, h, if_true]
  rfl

/-- A search without an answer ends the handling of a chunk. -/
theorem handleChunk_stops {fault : Json.ParseFault} (hv : Chunk.ofJson v = .ok chunk)
    (ha : (s.stream.addChunk s.settings chunk).1 = .error fault) :
    s.handleChunk v = (.error fault, s.took chunk) := by
  simp only [handleChunk, hv, ha]
  rfl

/-- A stream that failed is recorded. -/
theorem handleChunk_fails {error : String} (hv : Chunk.ofJson v = .ok chunk)
    (ha : (s.stream.addChunk s.settings chunk).1 = .ok true) (ht : chunk.type ≠ .partialData)
    (he : (s.took chunk).stream.error = some error) :
    s.handleChunk v =
      (.ok false, { s.took chunk with loading := false }.setError ("Stream failed: " ++ error)) := by
  replace he : (s.stream.addChunk s.settings chunk).2.1.error = some error := he
  simp only [handleChunk, hv, ha, ht, he]
  rfl

/-- A schema that the stream completed is loaded. -/
theorem handleChunk_loads (hv : Chunk.ofJson v = .ok chunk)
    (ha : (s.stream.addChunk s.settings chunk).1 = .ok true) (ht : chunk.type ≠ .partialData)
    (he : (s.took chunk).stream.error = none) :
    s.handleChunk v =
      let loaded := { s.took chunk with loading := false }.loadValue (s.took chunk).stream.schema
      (.ok loaded.1, loaded.2) := by
  replace he : (s.stream.addChunk s.settings chunk).2.1.error = none := he
  simp only [handleChunk, hv, ha, ht, he]
  rfl

end Chunks

theorem handleChunk_settles (v : Json) (s : Session) :
    Settles (s.handleChunk v).1 s (s.handleChunk v).2 := by
  cases hv : Chunk.ofJson v with
  | error rejection =>
    simp only [handleChunk, hv]
    exact note_keeps _ s
  | ok chunk =>
    have htook := took_keeps chunk s
    cases ha : (s.stream.addChunk s.settings chunk).1 with
    | error fault =>
      rw [handleChunk_stops hv ha]
      exact htook
    | ok accepted =>
      by_cases hwait : accepted = true → chunk.type = .partialData
      · rw [handleChunk_waits hv ha hwait]
        exact htook
      · rw [Classical.not_imp] at hwait
        obtain ⟨rfl, ht⟩ := hwait
        have hloading := htook.trans (loading_keeps false _)
        cases he : (s.took chunk).stream.error with
        | some error =>
          rw [handleChunk_fails hv ha ht he]
          exact hloading.trans (setError_keeps _ _)
        | none =>
          rw [handleChunk_loads hv ha ht he]
          exact hloading.settles (loadValue_updates _ _).settles

/-! ## History and rendering -/

theorem revert_keeps {s : Session} (h : s.revert.1 = false) : Keeps s s.revert.2 := by
  unfold revert at h ⊢
  cases hp : s.history.dropLast.getLast? with
  | none => exact .refl s
  | some previous => simp [hp] at h

theorem mountScoped_keeps (node : Node) (host : HostId) (s : Session) :
    Keeps s (s.mountScoped node host).2 := ⟨rfl, rfl, rfl⟩

theorem lastRender_keeps (result : RenderResult) (s : Session) :
    Keeps s { s with lastRender := some result } := ⟨rfl, rfl, rfl⟩

/-- Rendering never touches the display, however it ends. -/
theorem renderCurrent_keeps (host : Option HostId) (s : Session) :
    Keeps s (s.renderCurrent host).2 := by
  unfold renderCurrent
  cases host with
  | none => exact setError_keeps _ s
  | some h =>
    cases s.current with
    | none => exact setError_keeps _ s
    | some node =>
      have hmount := mountScoped_keeps node h s
      rcases hm : s.mountScoped node h with ⟨outcome, s'⟩
      rw [hm] at hmount
      simp only [hm]
      cases outcome with
      | error failure => exact hmount
      | ok result =>
        have hlast := hmount.trans (lastRender_keeps result s')
        cases hr : result.error with
        | some error =>
          simp only [hr]
          exact hlast.trans (setError_keeps _ _)
        | none =>
          simp only [hr]
          exact hlast

end ViewTree.Session
