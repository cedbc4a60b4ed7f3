import ViewTree.Proofs.Stream.Ending

/-
  ViewTree.Proofs.Stream.Machine — the states a stream goes through.

  The states of a stream are meant to follow a machine: a start leads into a stream from
  wherever there is none, a chunk ends the stream in progress, and clearing leads back to
  the beginning from everywhere (`Move`). A chunk that arrives while no stream is in progress
  is meant to change nothing that is shown (`Obeys`).

  No chunk is asked whether a stream is in progress. So a step obeys exactly if it is not
  late (`passed_obeys_iff`): the late ones are chunks in order that end a stream which is
  not in progress, in another way than it has ended already. They leave it ended so, whatever
  state it was in. `late_schema_shown` is such a chunk, without any stream before it.
-/

namespace ViewTree.Stream

inductive Action where
  | start
  | clear
  | add (v : Json)

def Action.step (settings : Settings) (s : Stream) : Action → Stream
  | start => s.start.1
  | clear => s.clear
  | add v => (s.addValue settings v).2.1

/-- The streams that a run passes, each with the action that is taken there. -/
def passed (settings : Settings) (s : Stream) : List Action → List (Stream × Action)
  | [] => []
  | a :: rest => (s, a) :: passed settings (a.step settings s) rest

/-- The changes of state that the machine has. -/
inductive Move : Action → StreamState → StreamState → Prop where
  | start : Move .start .idle .streaming
  | complete (v : Json) : Move (.add v) .streaming .complete
  | fail (v : Json) : Move (.add v) .streaming .error
  | startAfterComplete : Move .start .complete .streaming
  | startAfterError : Move .start .error .streaming
  | clear (state : StreamState) : Move .clear state .idle

/-- A step changes the state as the machine does, and a chunk that arrives while no stream
    is in progress changes neither state nor schema nor error. -/
structure Obeys (settings : Settings) (s : Stream) (a : Action) : Prop where
  moves : (a.step settings s).state ≠ s.state → Move a s.state (a.step settings s).state
  waits : ∀ v, a = .add v → s.state ≠ .streaming →
    (a.step settings s).state = s.state ∧ (a.step settings s).schema = s.schema ∧
      (a.step settings s).error = s.error

/-- A chunk in order ends a stream that is not in progress, and that has not ended in the
    same way already. -/
def Late (settings : Settings) (s : Stream) (a : Action) : Prop :=
  ∃ v e, a = .add v ∧ s.state ≠ .streaming ∧ s.brought? settings v = some e ∧ s.ending? ≠ some e

/-! ## Completed streams -/

/-- A completed stream shows no error. -/
def Clean (s : Stream) : Prop := s.state = .complete → s.error = none

theorem Ends.clean {e : Option Ending} {s s' : Stream} (h : Ends e s s') (hs : s.Clean) :
    s'.Clean := by
  intro hcomplete
  cases e with
  | none =>
    obtain ⟨hstate, -, herror⟩ := h
    rw [herror]
    exact hs (hstate ▸ hcomplete)
  | some e =>
    cases e with
    | completed schema => exact h.2.2
    | failed error =>
      rw [h.1] at hcomplete
      cases hcomplete

theorem Clean.step {s : Stream} (h : s.Clean) (settings : Settings) (a : Action) :
    (a.step settings s).Clean := by
  cases a with
  | start => exact fun _ => rfl
  | clear => exact fun _ => rfl
  | add v => exact (addValue_ends settings s v).clean h

theorem clean_of_passed {settings : Settings} {actions : List Action} {s : Stream} (h : s.Clean) :
    ∀ p ∈ passed settings s actions, p.1.Clean := by
  induction actions generalizing s with
  | nil => simp [passed]
  | cons a rest ih =>
    intro p hp
    rcases List.mem_cons.mp hp with rfl | hrest
    · exact h
    · exact ih (h.step settings a) p hrest

/-! ## Steps -/

/-- A stream that took an ending has ended so. -/
theorem Ends.ending? {e : Ending} {s s' : Stream} (h : Ends (some e) s s') :
    s'.ending? = some e := by
  cases e with
  | completed schema =>
    obtain ⟨hstate, hschema, -⟩ := h
    simp only [Stream.ending?, hstate, hschema]
  | failed error =>
    obtain ⟨hstate, -, herror⟩ := h
    simp only [Stream.ending?, hstate, herror, Option.map_some]

/-- An ending that a stream has already changes nothing that it shows. -/
theorem Ends.again {e : Ending} {s s' : Stream} (h : Ends (some e) s s')
    (he : s.ending? = some e) (hs : s.Clean) : Ends none s s' := by
  unfold Stream.ending? at he
  cases hstate : s.state with
  | complete =>
    simp only [hstate, Option.some.injEq] at he
    subst he
    exact ⟨h.1.trans hstate.symm, h.2.1, h.2.2.trans (hs hstate).symm⟩
  | error =>
    simp only [hstate, Option.map_eq_some_iff] at he
    obtain ⟨error, herror, rfl⟩ := he
    exact ⟨h.1.trans hstate.symm, h.2.1, h.2.2.trans herror.symm⟩
  | idle => simp [hstate] at he
  | streaming => simp [hstate] at he

theorem obeys_of_ends_none {settings : Settings} {s : Stream} {v : Json}
    (h : Ends none s ((Action.add v).step settings s)) : Obeys settings s (.add v) where
  moves hne := absurd h.1 hne
  waits _ _ _ := h

/-- An ending of the stream in progress is a move of the machine. -/
theorem obeys_of_streaming {settings : Settings} {s : Stream} {v : Json} {e : Ending}
    (h : Ends (some e) s ((Action.add v).step settings s)) (hs : s.state = .streaming) :
    Obeys settings s (.add v) where
  moves _ := by
    rw [hs]
    cases e with
    | completed schema =>
      rw [h.1]
      exact .complete v
    | failed error =>
      rw [h.1]
      exact .fail v
  waits _ _ hno := absurd hs hno

theorem obeys_of_not_late {settings : Settings} {s : Stream} {a : Action} (hs : s.Clean)
    (h : ¬ Late settings s a) : Obeys settings s a := by
  cases a with
  | start =>
    refine ⟨fun hne => ?_, nofun⟩
    change Move .start s.state .streaming
    cases hstate : s.state with
    | idle => exact .start
    | complete => exact .startAfterComplete
    | error => exact .startAfterError
    | streaming => exact absurd hstate.symm hne
  | clear => exact ⟨fun _ => .clear s.state, nofun⟩
  | add v =>
    have hends := addValue_ends settings s v
    cases hbrought : s.brought? settings v with
    | none =>
      rw [hbrought] at hends
      exact obeys_of_ends_none hends
    | some e =>
      rw [hbrought] at hends
      by_cases hstate : s.state = .streaming
      · exact obeys_of_streaming hends hstate
      · have hsame : s.ending? = some e :=
          Classical.not_not.mp fun hother => h ⟨v, e, rfl, hstate, hbrought, hother⟩
        exact obeys_of_ends_none (hends.again hsame hs)

theorem not_obeys_of_late {settings : Settings} {s : Stream} {a : Action}
    (h : Late settings s a) : ¬ Obeys settings s a := by
  obtain ⟨v, e, rfl, hstate, hbrought, hother⟩ := h
  intro hobeys
  have hends := addValue_ends settings s v
  rw [hbrought] at hends
  obtain ⟨hsame, hschema, herror⟩ := hobeys.waits v rfl hstate
  refine hother (hends.ending?.symm.trans ?_).symm
  change ((Action.add v).step settings s).ending? = s.ending?
  rw [Stream.ending?, Stream.ending?, hsame, hschema, herror]

/-! ## Runs -/

/-- In every run each step obeys the machine exactly if it is not late, and each chunk
    leaves the ending it brings, whether or not a stream is in progress. -/
theorem passed_obeys_iff (settings : Settings) (actions : List Action) :
    ∀ p ∈ passed settings idle actions,
      (Obeys settings p.1 p.2 ↔ ¬ Late settings p.1 p.2) ∧
        ∀ v, p.2 = .add v → Ends (p.1.brought? settings v) p.1 (p.2.step settings p.1) := by
  intro p hp
  have hclean : p.1.Clean := clean_of_passed (s := idle) nofun p hp
  refine ⟨⟨fun hobeys hlate => not_obeys_of_late hlate hobeys, obeys_of_not_late hclean⟩, ?_⟩
  rintro v hv
  rw [hv]
  exact addValue_ends settings p.1 v

/-- An error chunk behind a completed stream is late: the stream has failed then. -/
theorem late_failure_ends_again :
    let schema : Action := .add (Chunk.wire ⟨.complete, .obj [("a", .int 1)], some 1⟩)
    let failure : Action := .add (Chunk.wire ⟨.error, .str "down", some 2⟩)
    let s := schema.step .default (Action.start.step .default idle)
    (s, failure) ∈ passed .default idle [.start, schema, failure] ∧ s.state = .complete ∧
      ¬ Obeys .default s failure ∧ Ends (some (.failed "down")) s (failure.step .default s) := by
  intro schema failure s
  have hpassed : (s, failure) ∈ passed .default idle [.start, schema, failure] := by
    simp [passed, s]
  have hstate : s.state = .complete := by decide +kernel
  have hbrought : s.brought? .default (Chunk.wire ⟨.error, .str "down", some 2⟩) =
      some (.failed "down") := by decide +kernel
  have hother : s.ending? ≠ some (.failed "down") := by decide +kernel
  have hlate : Late .default s failure :=
    ⟨_, _, rfl, by rw [hstate]; decide, hbrought, hother⟩
  obtain ⟨hobeys, hends⟩ := passed_obeys_iff .default _ (s, failure) hpassed
  refine ⟨hpassed, hstate, fun h => hobeys.mp h hlate, ?_⟩
  rw [← hbrought]
  exact hends _ rfl

/-- Without any stream, a completing chunk is late: its schema is shown. -/
theorem late_schema_shown :
    let late : Action := .add (Chunk.wire ⟨.complete, .obj [("a", .int 1)], none⟩)
    passed .default idle [late] = [(idle, late)] ∧ ¬ Obeys .default idle late ∧
      (late.step .default idle).state = .complete := by
  intro late
  have hlate : Late .default idle late :=
    ⟨_, .completed (.obj [("a", .int 1)]), rfl, by decide, by decide +kernel, by decide⟩
  exact ⟨rfl, not_obeys_of_late hlate, by decide +kernel⟩

end ViewTree.Stream
