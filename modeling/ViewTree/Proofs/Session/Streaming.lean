import Mathlib.Data.List.Forall2
import ViewTree.Proofs.Session.Display
import ViewTree.Proofs.Stream.Collect

/-
  ViewTree.Proofs.Session.Streaming — a streamed text against the same text loaded whole.

  A session that starts a stream and handles partial chunks in order displays what it did
  before, answers no to each, and its stream has collected them (`handleAll_collects`, by
  induction on the values). A completing chunk without a schema of its own then searches
  a text exactly as loading that text does (`handleChunk_reads`), so the two end alike:
  in the same answer, the same current schema and the same history, however the search
  and the load behind it turn out.
-/

namespace ViewTree.Session

/-- The answers to values handled one after the other, and the session they leave. -/
def handleAll : List Json → Session → List (Except Json.ParseFault Bool) × Session
  | [], s => ([], s)
  | v :: rest, s =>
    let (answer, s) := s.handleChunk v
    let (answers, s) := handleAll rest s
    (answer :: answers, s)

/-- The values are read as these chunks. -/
def WireForms (values : List Json) (chunks : List Chunk) : Prop :=
  List.Forall₂ (fun v c => Chunk.ofJson v = .ok c) values chunks

theorem wireForms_wire (chunks : List Chunk) : WireForms (chunks.map Chunk.wire) chunks :=
  List.forall₂_map_left_iff.mpr (List.forall₂_same.mpr fun c _ => Chunk.ofJson_wire c)

/-- Handling a chunk that has a text searched is loading the text. -/
theorem handleChunk_reads {v : Json} {c : Chunk} {s : Session} {text : String}
    {found : Except Json.ParseFault Fields} (hv : Chunk.ofJson v = .ok c) (ht : c.type = .complete)
    (horder : Stream.outOfOrder s.settings s.stream c.sequence = false)
    (hsearch : s.stream.searched c = some text) (hfound : Json.extract text true = found) :
    Reads found s (s.handleChunk v).1 (s.handleChunk v).2 := by
  have hstream := Stream.addChunk_searched horder ht hsearch hfound
  have htook := took_keeps c s
  have hloading := htook.trans (loading_keeps false _)
  have hlast : c.type ≠ .partialData := by rw [ht]; decide
  cases found with
  | ok fields =>
    obtain ⟨ha, he, hschema⟩ := hstream
    rw [handleChunk_loads hv ha hlast he]
    have hload := loadValue_updates (s.took c).stream.schema { s.took c with loading := false }
    rw [show (s.took c).stream.schema = .obj fields from hschema] at hload ⊢
    exact ⟨_, rfl, hloading.updates hload⟩
  | error fault =>
    cases fault with
    | longInteger n =>
      rw [handleChunk_stops hv hstream]
      exact ⟨rfl, htook⟩
    | _ =>
      obtain ⟨ha, message, he⟩ := hstream
      rw [handleChunk_fails hv ha hlast he]
      exact ⟨rfl, hloading.trans (setError_keeps _ _)⟩

/-- Partial chunks in order are collected, and nothing of them is displayed. -/
theorem handleAll_collects {values : List Json} {chunks cs : List Chunk} {s : Session}
    (hs : Stream.Collected cs s.stream) (hvalues : WireForms values chunks)
    (hpartial : ∀ c ∈ chunks, c.type = .partialData) (hrise : Stream.Rising (cs ++ chunks)) :
    (∀ a ∈ (handleAll values s).1, a = .ok false) ∧ Keeps s (handleAll values s).2 ∧
      Stream.Collected (cs ++ chunks) (handleAll values s).2.stream := by
  induction hvalues generalizing cs s with
  | nil => exact ⟨by simp [handleAll], .refl s, by simpa [handleAll] using hs⟩
  | @cons v c values chunks hv _ ih =>
    have hassoc : cs ++ c :: chunks = cs ++ [c] ++ chunks := by simp
    rw [hassoc] at hrise ⊢
    obtain ⟨ha, hcollected⟩ := hs.addChunk s.settings hrise.prefix (hpartial c List.mem_cons_self)
    have hhandle := handleChunk_waits hv ha fun _ => hpartial c List.mem_cons_self
    obtain ⟨hanswers, hkeeps, hrest⟩ :=
      ih (show Stream.Collected (cs ++ [c]) (s.took c).stream from hcollected)
        (fun c' hc' => hpartial c' (List.mem_cons_of_mem _ hc')) hrise
    simp only [handleAll, hhandle]
    refine ⟨?_, (took_keeps c s).trans hkeeps, hrest⟩
    intro a hmem
    rcases List.mem_cons.mp hmem with rfl | hmem
    · rfl
    · exact hanswers a hmem

/-- A text that arrives in partial chunks, in any pieces and among chunks with other data,
    ends as if it were loaded; so does a completing chunk that carries all of it. -/
theorem streamed_alike_loaded (s : Session) (values : List Json) (chunks : List Chunk)
    (final : Json) (n : Option Int) (text : String) (hvalues : WireForms values chunks)
    (hpartial : ∀ c ∈ chunks, c.type = .partialData)
    (htext : String.join (chunks.filterMap Chunk.piece?) = text)
    (hfinal : Chunk.ofJson final = .ok ⟨.complete, .null, n⟩)
    (horder : Stream.Rising (chunks ++ [⟨.complete, .null, n⟩])) :
    (∀ a ∈ (handleAll values s.startStream).1, a = .ok false) ∧
      Alike ((handleAll values s.startStream).2.handleChunk final) (s.loadText text) ∧
      ∀ one m, Chunk.ofJson one = .ok ⟨.complete, .str text, m⟩ →
        Alike (s.startStream.handleChunk one) (s.loadText text) ∧
          (Stream.outOfOrder s.settings s.stream m = false →
            Alike (s.handleChunk one) (s.loadText text)) := by
  have hstart : Stream.Collected [] s.startStream.stream := Stream.start_collected s.stream
  obtain ⟨found, hfound⟩ : ∃ found, Json.extract text true = found := ⟨_, rfl⟩
  have hload := loadText_reads hfound s
  obtain ⟨hanswers, hkeeps, hcollected⟩ := handleAll_collects hstart hvalues hpartial horder.prefix
  rw [List.nil_append] at hcollected
  refine ⟨hanswers, ?_, fun one m hone => ⟨?_, fun hinOrder => ?_⟩⟩
  · have hsearch : (handleAll values s.startStream).2.stream.searched ⟨.complete, .null, n⟩ =
        some text := by
      simp only [Stream.searched, Stream.text_eq, hcollected.chunks, htext]
    have hreads := handleChunk_reads hfinal rfl (hcollected.inOrder _ horder) hsearch hfound
    exact (((startStream_keeps s).trans hkeeps).reads hreads).alike hload
  · have hrise : Stream.Rising ([] ++ [(⟨.complete, .str text, m⟩ : Chunk)]) := by
      cases m <;> simp [Stream.Rising, Stream.numbers]
    have hreads := handleChunk_reads hone rfl (hstart.inOrder _ hrise) rfl hfound
    exact ((startStream_keeps s).reads hreads).alike hload
  · exact (handleChunk_reads hone rfl hinOrder rfl hfound).alike hload

/-- A fenced schema, cut inside the fence, a word and an escape; one chunk is no text. -/
def fencedPieces : List Chunk :=
  [⟨.partialData, .str "``", some 3⟩, ⟨.partialData, .str "`json\n\x7b\"type\":\"head", none⟩,
    ⟨.partialData, .int 7, some 5⟩,
    ⟨.partialData, .str "ing\",\"props\":\x7b\"text\":\"a\\u00", none⟩,
    ⟨.partialData, .str "e9\"\x7d\x7d\n```", some 9⟩]

theorem fenced_pieces_streamed :
    let s := fresh .library .default .empty
    let final : Chunk := ⟨.complete, .null, some 12⟩
    let streamed := (handleAll (fencedPieces.map Chunk.wire) s.startStream).2.handleChunk final.wire
    let text := String.join (fencedPieces.filterMap Chunk.piece?)
    let one : Chunk := ⟨.complete, .str text, none⟩
    Alike streamed (s.loadText text) ∧ Alike (s.handleChunk one.wire) (s.loadText text) ∧
      streamed.1 = .ok true := by
  intro s final streamed text one
  have hrise : Stream.Rising (fencedPieces ++ [final]) := by unfold Stream.Rising; decide
  obtain ⟨-, halike, hone⟩ := streamed_alike_loaded s (fencedPieces.map Chunk.wire) fencedPieces
    final.wire (some 12) text (wireForms_wire _) (by decide) rfl (Chunk.ofJson_wire final) hrise
  have hloaded : (s.loadText text).1 = .ok true := by decide +kernel
  exact ⟨halike, (hone one.wire none (Chunk.ofJson_wire one)).2 rfl, halike.1.trans hloaded⟩

end ViewTree.Session
