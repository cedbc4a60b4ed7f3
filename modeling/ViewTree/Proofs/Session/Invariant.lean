import ViewTree.Proofs.Live.Action
import ViewTree.Proofs.Render.Upkeep
import ViewTree.Proofs.Session.Requests

/-
  ViewTree.Proofs.Session.Invariant — what holds of a session however it was used.

  A session is orderly (`Orderly`) when its history is no longer than the limit, every
  schema of the history is valid, and the gauge shows how many there are. A fresh session
  is orderly. Making a valid schema current and going back to the one before keep it
  orderly; every other command leaves the history alone and reports nothing about it —
  rendering included, by the acts it is made of. So every command keeps a session orderly
  (`Orderly.run`), and so does every run of commands.

  What is displayed is the newest schema of the history, or there is nothing
  (`ShowsNewest`): that follows from what requests do to the display.
-/

namespace ViewTree

open Live Telemetry

/-! ## Rendering and the gauge -/

namespace Render

theorem storeOnly_createIn (factory : Factory) (m : Member) :
    Act.StoreOnly (createIn factory m) := by
  cases m with
  | host h => exact Act.storeOnly_attempt _
  | _ => exact Act.storeOnly_pure _

theorem storeOnly_bindProps (i : InstanceId) (asInputs : Bool) (props : Fields) :
    Act.StoreOnly (bindProps i asInputs props) := by
  induction props with
  | nil => exact Act.storeOnly_pure _
  | cons prop rest ih =>
    refine (Act.storeOnly_change _).bind fun outcome => ?_
    cases outcome with
    | error failure => exact Act.storeOnly_pure _
    | ok _ => exact ih

theorem storeOnly_listen (i : InstanceId) (e : EmitterId) (callback : Callback) :
    Act.StoreOnly (listen i e callback) := by
  refine (Act.storeOnly_update _).bind fun id => (Act.storeOnly_ofStore _).bind fun tracks => ?_
  cases tracks with
  | true => exact Act.storeOnly_change _
  | false => exact Act.storeOnly_pure _

/-- A mount stays within what a render pass stays within, if a change of the store does. -/
theorem mount_upkeep {c : Context} (u : Upkeep c) {host : HostId}
    (hplace : ∀ w, u.Place (.host host) w) (hstore : ∀ w s, u.Step w { w with store := s })
    (node : Node) (w : World) : u.Step w ((mount c node (some host)).run w).2 := by
  change u.Step w ((Act.perform (·.clear host) >>= _).run w).2
  rw [Act.run_bind, Act.run_perform]
  generalize w.store.clear host = cleared
  obtain ⟨s, outcome⟩ := cleared
  cases outcome with
  | error failure => exact hstore w s
  | ok _ =>
    have hrender := u.render node (some host) { w with store := s } fun h hmem => by
      cases hmem
      exact hplace _
    exact u.trans (hstore w s) hrender.1

/-- No act of a render pass moves the gauge. -/
def gaugeUpkeep (c : Context) : Upkeep c where
  Step w w' := w'.gauge = w.gauge
  Place _ _ := True
  Alive _ _ := True
  refl _ := rfl
  trans h h' := h'.trans h
  place _ _ := trivial
  alive _ _ := trivial
  note w h := World.gauge_note h w
  warned _ := rfl
  create {_ entry m w} _ _ := by
    obtain ⟨s, hs⟩ := storeOnly_createIn entry.factory m w
    exact ⟨by rw [hs]; rfl, fun _ _ => trivial⟩
  bindProps {i w} props _ := by
    obtain ⟨s, hs⟩ := storeOnly_bindProps i (w.store.can i .setInput) props w
    rw [hs]
    rfl
  listen {i w _ e} callback _ _ := by
    obtain ⟨s, hs⟩ := storeOnly_listen i e callback w
    rw [hs]
    rfl
  refresh _ := rfl
  mount _ _ _ _ := trivial
  panel _ _ _ := trivial

theorem mount_gauge (c : Context) (node : Node) (host : HostId) (w : World) :
    ((mount c node (some host)).run w).2.gauge = w.gauge :=
  mount_upkeep (gaugeUpkeep c) (fun _ => trivial) (fun _ _ => rfl) node w

end Render

namespace Session

/-! ## Commands -/

/-- Everything that can be asked of a session. -/
inductive Command where
  | request (q : Request)
  | clear
  | setLoading (loading : Bool)
  | startStream

namespace Command

def run (s : Session) : Command → Session
  | request q => (q.run s).2
  | clear => s.clearSchema
  | setLoading loading => s.setLoading loading
  | startStream => s.startStream

end Command

/-- The session after commands, one after the other. -/
def runAll (s : Session) (commands : List Command) : Session := commands.foldl Command.run s

theorem runAll_cons (s : Session) (command : Command) (rest : List Command) :
    s.runAll (command :: rest) = (command.run s).runAll rest := rfl

/-- No command changes the settings or the registry. -/
theorem Command.context_run (s : Session) (command : Command) :
    (command.run s).context = s.context := by
  cases command with
  | request q =>
    by_cases hreply : (q.run s).1 = .success
    · by_cases hupdate : q.isUpdate = true
      · obtain ⟨node, hshows⟩ := Request.shows_of_success hupdate hreply
        exact hshows.context
      · cases q with
        | revert =>
          simp only [run, Request.run, revert]
          split <;> rfl
        | render host => exact (renderCurrent_keeps host s).context
        | _ => exact absurd rfl hupdate
    · exact (Request.keeps_of_no_success hreply).context
  | _ => rfl

theorem runAll_context (s : Session) (commands : List Command) :
    (s.runAll commands).context = s.context := by
  induction commands generalizing s with
  | nil => rfl
  | cons command rest ih =>
    rw [runAll_cons, ih, command.context_run]

/-! ## The newest schema -/

/-- What is displayed is the newest of the history. -/
def ShowsNewest (s : Session) : Prop :=
  ∀ node, s.current = some node → s.history.getLast? = some node

theorem mem_extend {limit : Nat} {history : List Node} {node n : Node}
    (h : n ∈ extend limit history node) : n ∈ history ∨ n = node := by
  have hmem := List.mem_of_mem_drop h
  rwa [List.mem_append, List.mem_singleton] at hmem

/-- With room for one schema the newest one stays. -/
theorem getLast?_extend {limit : Nat} (hlimit : 0 < limit) (history : List Node) (node : Node) :
    (extend limit history node).getLast? = some node := by
  have hroom : history.length + 1 - limit ≤ history.length := by omega
  rw [extend, List.drop_append_of_le_length hroom, List.getLast?_append]
  rfl

theorem Keeps.showsNewest {s s' : Session} (h : Keeps s s') (hs : ShowsNewest s) :
    ShowsNewest s' := by
  intro node hnode
  rw [h.history]
  exact hs node (h.current ▸ hnode)

theorem ShowsNewest.run {s : Session} (hlimit : 0 < s.settings.historyLimit) (h : ShowsNewest s)
    (command : Command) : ShowsNewest (command.run s) := by
  cases command with
  | clear => exact nofun
  | setLoading loading => exact h
  | startStream => exact h
  | request q =>
    by_cases hreply : (q.run s).1 = .success
    · by_cases hupdate : q.isUpdate = true
      · obtain ⟨node, hshows⟩ := Request.shows_of_success hupdate hreply
        intro n hn
        rw [show (Command.run s (.request q)).current = some node from hshows.current] at hn
        cases hn
        rw [show (Command.run s (.request q)).history = _ from hshows.history]
        exact getLast?_extend hlimit s.history node
      · cases q with
        | revert =>
          simp only [Command.run, Request.run, Session.revert]
          split
          · exact h
          · rename_i previous hprevious
            intro n hn
            cases hn
            exact hprevious
        | render host => exact (renderCurrent_keeps host s).showsNewest h
        | _ => exact absurd rfl hupdate
    · exact (Request.keeps_of_no_success hreply).showsNewest h

theorem ShowsNewest.runAll {s : Session} (hlimit : 0 < s.settings.historyLimit)
    (h : ShowsNewest s) (commands : List Command) : ShowsNewest (s.runAll commands) := by
  induction commands generalizing s with
  | nil => exact h
  | cons command rest ih =>
    refine ih ?_ (h.run hlimit command)
    rw [settings, command.context_run]
    exact hlimit

/-! ## Orderly sessions -/

/-- What is kept for a registry and settings that stay the same. -/
structure Orderly (c : Render.Context) (s : Session) : Prop where
  context : s.context = c
  bounded : s.history.length ≤ c.settings.historyLimit
  valid : ∀ node ∈ s.history, Check.validate c.registry node = []
  gauge : s.world.gauge = Double.ofInt s.history.length

namespace Orderly

variable {c : Render.Context} {s : Session}

/-- A session with another world, stream, and the like. -/
theorem of_same {s' : Session} (h : Orderly c s) (hcontext : s'.context = s.context)
    (hhistory : s'.history = s.history) (hgauge : s'.world.gauge = s.world.gauge) :
    Orderly c s' where
  context := hcontext.trans h.context
  bounded := by
    rw [hhistory]
    exact h.bounded
  valid := by
    rw [hhistory]
    exact h.valid
  gauge := by
    rw [hgauge, hhistory]
    exact h.gauge

theorem of_keeps {s' : Session} (h : Orderly c s) (hkeeps : Keeps s s')
    (hgauge : s'.world.gauge = s.world.gauge) : Orderly c s' :=
  h.of_same hkeeps.context hkeeps.history hgauge

theorem note (h : Orderly c s) {entries : Journal} (hentries : entries.Apart) :
    Orderly c (s.note entries) :=
  h.of_keeps (note_keeps entries s) (World.gauge_note hentries s.world)

theorem setError (h : Orderly c s) (error : String) : Orderly c (s.setError error) :=
  h.of_keeps (setError_keeps error s) (World.gauge_note (by rfl) s.world)

theorem loading (h : Orderly c s) (loading : Bool) : Orderly c { s with loading := loading } :=
  h.of_keeps (loading_keeps loading s) rfl

end Orderly

theorem gauge_historyMeasure (length : Nat) (rest : Journal) (hrest : rest.Apart) (w : World) :
    (w.note (historyMeasure length :: rest)).gauge = Double.ofInt length := by
  have hsplit : Journal.measures (historyMeasure length :: rest) =
      [.historySize (Double.ofInt length)] ++ Journal.measures rest := rfl
  rw [World.gauge, World.measures_note, hsplit, ← List.append_assoc,
    Metrics.historySize_append hrest, Metrics.historySize_concat]

namespace Orderly

variable {c : Render.Context} {s : Session}

theorem took (h : Orderly c s) (chunk : Chunk) : Orderly c (s.took chunk) :=
  h.of_keeps (took_keeps chunk s)
    (World.gauge_note (Stream.addChunk_apart s.settings s.stream chunk) s.world)

theorem commit (h : Orderly c s) {node : Node} (hnode : Check.validate s.registry node = []) :
    Orderly c (s.commit node) := by
  obtain ⟨rfl, -, hvalid, -⟩ := h
  refine ⟨rfl, ?_, fun n hn => ?_, gauge_historyMeasure _ [] rfl s.world⟩
  · obtain ⟨-, -, hlength⟩ := extend_eq s.settings.historyLimit s.history node
    exact Nat.le_trans (Nat.le_of_eq hlength) (Nat.min_le_right _ _)
  · rcases mem_extend hn with hold | rfl
    · exact hvalid n hold
    · exact hnode

/-! ## Updates -/

theorem loadNode (h : Orderly c s) (node : Node) : Orderly c (s.loadNode node).2 := by
  have hnote := h.note (Check.journal_apart s.registry node)
  unfold Session.loadNode
  by_cases hvalid : (Check.validate s.registry node).isEmpty
  · simp only [hvalid, if_true]
    exact (hnote.commit (List.isEmpty_iff.mp hvalid)).note rfl
  · have hentries : Journal.Apart [loadMeasure "invalid", .measure (.failedNode node.type)] :=
      Measure.failedNode_apart node.type [] rfl
    simp only [hvalid]
    exact (hnote.note hentries).setError _

theorem loadWithin (h : Orderly c s) (payload : Json) (input : Input) :
    Orderly c (s.loadWithin payload input).2 := by
  unfold Session.loadWithin
  cases Payload.check s.settings.maxSchemaSize s.settings.maxSchemaDepth Payload.defaultName
      payload with
  | error issue => exact (h.note (by rfl)).setError _
  | ok _ =>
    have hinput : input.journal.Apart := by
      cases input with
      | value v => exact Wire.journal_apart v
      | node n => rfl
    have hnote := h.note hinput
    cases input.normalize with
    | error rejection => exact (hnote.note (by rfl)).setError _
    | ok node => exact hnote.loadNode node

theorem load (h : Orderly c s) (input : Input) : Orderly c (s.load input).2 := by
  unfold Session.load
  cases input.payload? with
  | none => exact h
  | some payload => exact h.loadWithin payload input

theorem loadText (h : Orderly c s) (text : String) : Orderly c (s.loadText text).2 := by
  unfold Session.loadText
  cases Json.extract text true with
  | ok fields => exact h.loadWithin _ _
  | error fault =>
    cases fault with
    | longInteger n => exact h
    | _ => exact (h.note (by rfl)).setError _

theorem commitPatched (h : Orderly c s) (outcome : Patch.Outcome) :
    Orderly c (s.commitPatched outcome).2 := by
  have hwire := h.note (Wire.journal_apart outcome.tree)
  unfold Session.commitPatched
  cases Wire.normalize outcome.tree with
  | error rejection => exact hwire.setError _
  | ok node =>
    have hcheck := hwire.note (Check.journal_apart s.registry node)
    by_cases hvalid : (Check.validate s.registry node).isEmpty
    · simp only [registry, Session.note] at hvalid ⊢
      simp only [hvalid, if_true]
      exact (hcheck.commit (List.isEmpty_iff.mp hvalid)).note rfl
    · simp only [registry, Session.note] at hvalid ⊢
      simp only [hvalid]
      exact (hcheck.note (Measure.failedNode_apart node.type [] rfl)).setError _

theorem applyPatches (h : Orderly c s) (patches : Json) : Orderly c (s.applyPatches patches).2 := by
  unfold Session.applyPatches
  cases s.current with
  | none => exact h.setError _
  | some node =>
    cases patches.iterate? with
    | none => exact h
    | some list =>
      have hopened : Orderly c (s.note [Span.opened "apply_patch" [("patches", .int list.length)]]) :=
        h.note rfl
      cases hdump : node.dump? with
      | none =>
        simp only [hdump]
        exact hopened.note rfl
      | some doc =>
        have hreported := Patch.reported_apart 0 doc list
        cases hrun : Patch.run doc list with
        | error stopped =>
          rw [show Patch.runFrom 0 doc list = _ from hrun] at hreported
          simp only [hdump, hrun]
          exact hopened.note (hreported.append rfl)
        | ok outcome =>
          rw [show Patch.runFrom 0 doc list = _ from hrun] at hreported
          simp only [hdump, hrun]
          exact (hopened.note (hreported.append rfl)).commitPatched outcome

theorem handleChunk (h : Orderly c s) (v : Json) : Orderly c (s.handleChunk v).2 := by
  cases hv : Chunk.ofJson v with
  | error rejection =>
    simp only [Session.handleChunk, hv]
    exact h.note rfl
  | ok chunk =>
    have htook := h.took chunk
    cases ha : (s.stream.addChunk s.settings chunk).1 with
    | error fault =>
      rw [handleChunk_stops hv ha]
      exact htook
    | ok accepted =>
      by_cases hwait : accepted = true → chunk.type = .partialData
      · rw [handleChunk_waits hv ha hwait]
        exact htook
      · rw [Classical.not_imp] at hwait
        obtain ⟨rfl, ht⟩ := hwait
        have hloading := htook.loading false
        cases he : (s.took chunk).stream.error with
        | some error =>
          rw [handleChunk_fails hv ha ht he]
          exact hloading.setError _
        | none =>
          rw [handleChunk_loads hv ha ht he]
          exact hloading.loadWithin _ _

/-! ## The other commands -/

theorem revert (h : Orderly c s) : Orderly c s.revert.2 := by
  unfold Session.revert
  cases hp : s.history.dropLast.getLast? with
  | none => exact h
  | some previous =>
    dsimp only
    refine ⟨h.context, ?_, ?_, gauge_historyMeasure _ _ rfl s.world⟩
    · have hshort : s.history.dropLast.length ≤ s.history.length := by
        rw [List.length_dropLast]
        omega
      exact Nat.le_trans hshort h.bounded
    · intro node hnode
      exact h.valid node (List.dropLast_subset _ hnode)

theorem startStream (h : Orderly c s) : Orderly c s.startStream :=
  h.of_keeps (startStream_keeps s) (World.gauge_note (Stream.start_apart s.stream) s.world)

theorem clearSchema (h : Orderly c s) : Orderly c s.clearSchema :=
  h.of_same rfl rfl rfl

theorem mountScoped (h : Orderly c s) (node : Node) (host : HostId) :
    Orderly c (s.mountScoped node host).2 :=
  h.of_keeps (mountScoped_keeps node host s)
    (Render.mount_gauge s.context node host
      { s.world with bound := s.world.bound.enter (renderScope node) })

theorem renderCurrent (h : Orderly c s) (host : Option HostId) :
    Orderly c (s.renderCurrent host).2 := by
  unfold Session.renderCurrent
  cases host with
  | none => exact h.setError _
  | some place =>
    cases s.current with
    | none => exact h.setError _
    | some node =>
      have hmount := h.mountScoped node place
      rcases hm : s.mountScoped node place with ⟨outcome, s'⟩
      rw [hm] at hmount
      simp only [hm]
      cases outcome with
      | error failure => exact hmount
      | ok result =>
        have hlast := hmount.of_keeps (lastRender_keeps result s') rfl
        cases hr : result.error with
        | some error =>
          simp only [hr]
          exact hlast.setError _
        | none =>
          simp only [hr]
          exact hlast

/-- Every command keeps a session orderly, whatever comes of it. -/
theorem run (h : Orderly c s) (command : Command) : Orderly c (command.run s) := by
  cases command with
  | clear => exact h.clearSchema
  | setLoading loading => exact h.loading loading
  | startStream => exact h.startStream
  | request q =>
    cases q <;> simp only [Command.run, Request.run]
    case load input => exact h.load input
    case loadText text => exact h.loadText text
    case applyPatches patches => exact h.applyPatches patches
    case handleChunk chunk => exact h.handleChunk chunk
    case revert => exact h.revert
    case render host => exact h.renderCurrent host

theorem runAll (h : Orderly c s) (commands : List Command) : Orderly c (s.runAll commands) := by
  induction commands generalizing s with
  | nil => exact h
  | cons command rest ih => exact ih (h.run command)

end Orderly

theorem fresh_orderly (registry : Registry) (settings : Settings) {world : World}
    (hworld : world.gauge = Double.zero) :
    Orderly ⟨registry, settings⟩ (fresh registry settings world) :=
  ⟨rfl, Nat.zero_le _, nofun, hworld⟩

end Session

end ViewTree
