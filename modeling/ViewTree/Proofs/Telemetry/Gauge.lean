import ViewTree.Patch.Engine
import ViewTree.Proofs.Telemetry.Counters
import ViewTree.Check
import ViewTree.Live.World
import ViewTree.Stream
import ViewTree.Wire

/-
  ViewTree.Proofs.Telemetry.Gauge — the gauge of the history and what moves it.

  The gauge shows the last size that was measured, and zero before that. Entries that
  measure no history (`Apart`) leave it alone, whatever else they report; those of
  checking, patching, streaming and normalizing are such entries.
-/

namespace ViewTree.Telemetry

/-- The measures of the history. -/
def Measure.ofHistory : Measure → Bool
  | .historySize _ => true
  | _ => false

namespace Journal

/-- Entries that measure no history. -/
abbrev Apart (entries : Journal) : Prop :=
  ((Journal.measures entries).all fun m => !m.ofHistory) = true

theorem Apart.append {j k : Journal} (hj : j.Apart) (hk : k.Apart) : Journal.Apart (j ++ k) := by
  rw [Apart, measures_append, List.all_append, hj, hk]
  rfl

theorem apart_records {α : Type} (f : α → Record) (l : List α) :
    Journal.Apart (l.map fun a => .record (f a)) := by
  rw [Apart, measures_records]
  rfl

end Journal

namespace Metrics

/-- Measures of other things leave the gauge as it was. -/
theorem historySize_append {ms ns : List Measure} (h : (ns.all fun m => !m.ofHistory) = true) :
    historySize (ms ++ ns) = historySize ms := by
  unfold historySize
  rw [List.foldl_append]
  generalize ms.foldl _ Double.zero = shown
  induction ns with
  | nil => rfl
  | cons n ns ih =>
    rw [List.all_cons, Bool.and_eq_true] at h
    rw [List.foldl_cons]
    cases n with
    | historySize size => exact absurd h.1 Bool.false_ne_true
    | _ => exact ih h.2

theorem historySize_concat (ms : List Measure) (size : Double) :
    historySize (ms ++ [.historySize size]) = size := by
  rw [historySize, List.foldl_append]
  rfl

end Metrics

end ViewTree.Telemetry

namespace ViewTree

open Telemetry

/-! ## The gauge of a world -/

/-- What the gauge of the history shows. -/
def Live.World.gauge (w : Live.World) : Double :=
  Metrics.historySize (Journal.measures w.journal)

theorem Live.World.measures_note (entries : Journal) (w : Live.World) :
    Journal.measures (w.note entries).journal =
      Journal.measures w.journal ++ Journal.measures entries := by
  rw [note, Journal.measures_append, Journal.measures_stamp]

theorem Live.World.gauge_note {entries : Journal} (h : entries.Apart) (w : Live.World) :
    (w.note entries).gauge = w.gauge := by
  rw [gauge, measures_note, Metrics.historySize_append h, gauge]

/-! ## Journals that measure no history -/

theorem Check.journal_apart (registry : Registry) (node : Node) :
    (Check.journal registry node).Apart := by
  unfold Check.journal
  cases node.type with
  | none => rfl
  | some type =>
    dsimp only
    split <;> rfl

theorem Telemetry.Measure.failedNode_apart (type : Option String) (rest : Journal)
    (h : rest.Apart) : Journal.Apart (.measure (.failedNode type) :: rest) := by
  cases type <;> exact h

theorem Wire.journal_apart (v : Json) : (Wire.journal v).Apart := by
  cases v with
  | obj fields =>
    simp only [Wire.journal]
    split
    · exact (Journal.apart_records _ _).append rfl
    · rfl
  | _ => rfl

namespace Patch

theorem skipJournal_apart (index : Nat) (patch : Json) (cause : SkipCause) :
    (skipJournal index patch cause).Apart := by
  unfold skipJournal unknownJournal
  cases cause <;> rfl

/-- What a run reported, whether it ended or was stopped. -/
def reported : Except Interrupted Outcome → Journal
  | .ok o => o.journal
  | .error i => i.journal

theorem reported_apart (index : Nat) (doc : Json) (patches : List Json) :
    (reported (runFrom index doc patches)).Apart := by
  induction patches generalizing index doc with
  | nil => rfl
  | cons patch rest ih =>
    rw [runFrom]
    cases step doc patch with
    | stopped => rfl
    | applied doc' op =>
      have hrest := ih (index + 1) doc'
      dsimp only
      generalize runFrom (index + 1) doc' rest = outcome at hrest ⊢
      cases outcome <;> exact hrest
    | skipped cause =>
      have hrest := (skipJournal_apart index patch cause).append (ih (index + 1) doc)
      dsimp only
      generalize runFrom (index + 1) doc rest = outcome at hrest ⊢
      cases outcome <;> exact hrest

end Patch

namespace Stream

theorem start_apart (s : Stream) : s.start.2.Apart := by
  unfold start
  dsimp only
  split <;> rfl

theorem completeFrom_apart (s : Stream) (text : String) : (s.completeFrom text).2.2.Apart := by
  unfold completeFrom
  split <;> rfl

theorem completeWith_apart (s : Stream) (data : Json) : (s.completeWith data).2.2.Apart := by
  unfold completeWith
  split
  · exact s.completeFrom_apart _
  · exact s.completeFrom_apart _
  · rfl

theorem accept_apart (settings : Settings) (s : Stream) (chunk : Chunk) :
    (s.accept settings chunk).2.2.Apart := by
  unfold accept
  cases chunk.type with
  | partialData => rfl
  | complete => exact completeWith_apart _ chunk.data
  | error => rfl

theorem addChunk_apart (settings : Settings) (s : Stream) (chunk : Chunk) :
    (s.addChunk settings chunk).2.2.Apart := by
  unfold addChunk
  split
  · rfl
  · exact accept_apart settings s chunk

end Stream

end ViewTree
