import ViewTree.Proofs.Json.Extraction
import ViewTree.Proofs.Node.Tree
import ViewTree.Proofs.Session.Display
import ViewTree.Proofs.Telemetry.Counters

/-
  ViewTree.Proofs.Session.Requests — what a session answers, displays and counts.

  A request ends with success, with a refusal, or without an answer. Proved, for every
  session and every request:
  - without success the current schema and the history are as before, and rendering
    never changes them;
  - a successful update adds exactly one node to the history, which drops only its
    oldest ones and only beyond the limit; that node is current and no error is left;
  - every load of a value counts once, under the status of its end (`CountsOnce`). Loading
    a text does so exactly if the search in it has an end of its own: a text with an
    integer that is too long is neither loaded nor counted. Loading a node does so exactly
    if it has no more levels than are written: its size is that of its object, and there is
    none of a deeper node, which is neither loaded nor counted.
  `uncounted_loads` has one load of either kind.
-/

namespace ViewTree.Session

open Live Telemetry

/-! ## Requests -/

inductive Request where
  | load (input : Input)
  | loadText (text : String)
  | applyPatches (patches : Json)
  | handleChunk (chunk : Json)
  | revert
  | render (host : Option HostId)

/-- How a request ends. -/
inductive Reply where
  | success
  /-- The answer is no, or there is no instance. -/
  | refusal
  /-- There is no answer. -/
  | failure
deriving DecidableEq

namespace Reply

def ofAnswer {ε : Type} : Except ε Bool → Reply
  | .ok true => success
  | .ok false => refusal
  | .error _ => failure

def ofRender {ε : Type} : Except ε (Option InstanceId) → Reply
  | .ok (some _) => success
  | .ok none => refusal
  | .error _ => failure

end Reply

namespace Request

/-- Whether a request brings a new schema. -/
def isUpdate : Request → Bool
  | load _ | loadText _ | applyPatches _ | handleChunk _ => true
  | revert | render _ => false

def run (s : Session) : Request → Reply × Session
  | load input => (.ofAnswer (s.load input).1, (s.load input).2)
  | loadText text => (.ofAnswer (s.loadText text).1, (s.loadText text).2)
  | applyPatches patches => (.ofAnswer (s.applyPatches patches).1, (s.applyPatches patches).2)
  | handleChunk chunk => (.ofAnswer (s.handleChunk chunk).1, (s.handleChunk chunk).2)
  | revert => (.ofAnswer (.ok s.revert.1 : Except Empty Bool), s.revert.2)
  | render host => (.ofRender (s.renderCurrent host).1, (s.renderCurrent host).2)

end Request

theorem Settles.shows {ε : Type} {answer : Except ε Bool} {s s' : Session}
    (h : Settles answer s s') (ha : Reply.ofAnswer answer = .success) : ∃ node, Shows node s s' := by
  match answer, ha with
  | .ok true, _ => exact h

theorem Settles.keeps {ε : Type} {answer : Except ε Bool} {s s' : Session}
    (h : Settles answer s s') (ha : Reply.ofAnswer answer ≠ .success) : Keeps s s' := by
  match answer, ha with
  | .ok true, ha => exact absurd rfl ha
  | .ok false, _ => exact h
  | .error _, _ => exact h

theorem loadText_settles (text : String) (s : Session) :
    Settles (s.loadText text).1 s (s.loadText text).2 := by
  generalize hfound : Json.extract text true = found
  exact (loadText_reads hfound s).settles

/-- An update that succeeds makes one node current. -/
theorem Request.shows_of_success {q : Request} (hq : q.isUpdate = true) {s : Session}
    (h : (q.run s).1 = .success) : ∃ node, Shows node s (q.run s).2 := by
  cases q <;> simp only [run] at h ⊢
  case load input => exact (load_settles input s).shows h
  case loadText text => exact (loadText_settles text s).shows h
  case applyPatches patches => exact (applyPatches_settles patches s).shows h
  case handleChunk chunk => exact (handleChunk_settles chunk s).shows h
  case revert => cases hq
  case render host => cases hq

/-- A request that does not succeed changes nothing on display. -/
theorem Request.keeps_of_no_success {q : Request} {s : Session} (h : (q.run s).1 ≠ .success) :
    Keeps s (q.run s).2 := by
  cases q <;> simp only [run] at h ⊢
  case load input => exact (load_settles input s).keeps h
  case loadText text => exact (loadText_settles text s).keeps h
  case applyPatches patches => exact (applyPatches_settles patches s).keeps h
  case handleChunk chunk => exact (handleChunk_settles chunk s).keeps h
  case revert =>
    cases hr : s.revert.1 with
    | false => exact revert_keeps hr
    | true => exact absurd (by rw [hr]; rfl) h
  case render host => exact renderCurrent_keeps host s

/-! ## Loads -/

/-- How many loads were counted whose labels satisfy a condition. -/
def loads (p : Metrics.Labels → Bool) (s : Session) : Nat :=
  Metrics.counted Metrics.loadLabels p (Journal.measures s.world.journal)

/-- One load was counted, as a success or not. -/
def CountsOnce (s : Session) (succeeded : Prop) (s' : Session) : Prop :=
  ∃ status, (∀ p, loads p s' = loads p s + if p [("status", status)] then 1 else 0) ∧
    (status = "success" ↔ succeeded)

section Counting

variable (p : Metrics.Labels → Bool)

/-- The loads in a journal. -/
def loadsIn (j : Journal) : Nat := Metrics.counted Metrics.loadLabels p (Journal.measures j)

theorem loads_note (entries : Journal) (s : Session) :
    loads p (s.note entries) = loads p s + loadsIn p entries := by
  simp only [loads, loadsIn, note, World.note, Journal.measures_append, Journal.measures_stamp,
    Metrics.counted_append]

theorem loadsIn_loadMeasure (status : String) (j : Journal) :
    loadsIn p (loadMeasure status :: j) = loadsIn p j + if p [("status", status)] then 1 else 0 := by
  simp only [loadsIn, loadMeasure, Journal.measures_measure, Metrics.counted_cons]
  rfl

theorem loadsIn_check (registry : Registry) (node : Node) :
    loadsIn p (Check.journal registry node) = 0 := by
  unfold Check.journal
  cases node.type with
  | none => rfl
  | some type =>
    simp only
    split <;> rfl

theorem loadsIn_input (input : Input) : loadsIn p input.journal = 0 := by
  cases input with
  | node n => rfl
  | value v =>
    cases v with
    | obj fields =>
      simp only [loadsIn, Input.journal, Wire.journal]
      split
      · simp [Entry.warning, Entry.debug]
      · rfl
    | _ => rfl

theorem loads_setError (error : String) (s : Session) : loads p (s.setError error) = loads p s :=
  loads_note p [.warning source "ui_error" [("error", .str error)]]
    { s with error := some error, loading := false }

theorem loads_commit (node : Node) (s : Session) : loads p (s.commit node) = loads p s :=
  loads_note p [historyMeasure _]
    { s with history := extend s.settings.historyLimit s.history node,
             current := some node, error := none }

end Counting

/-- A failed load is counted under its status. -/
theorem countsOnce_failed {status : String} (hstatus : status ≠ "success") {succeeded : Prop}
    (hfailed : ¬ succeeded) (error : String) {rest : Journal} (hrest : ∀ p, loadsIn p rest = 0)
    (s : Session) :
    CountsOnce s succeeded ((s.note (loadMeasure status :: rest)).setError error) := by
  refine ⟨status, fun p => ?_, iff_of_false hstatus hfailed⟩
  rw [loads_setError, loads_note, loadsIn_loadMeasure, hrest p, Nat.zero_add]

/-- What came before a load without counting one. -/
theorem CountsOnce.after {entries : Journal} (hentries : ∀ p, loadsIn p entries = 0)
    {s s' : Session} {succeeded : Prop} (h : CountsOnce (s.note entries) succeeded s') :
    CountsOnce s succeeded s' := by
  obtain ⟨status, hcount, hsuccess⟩ := h
  refine ⟨status, fun p => ?_, hsuccess⟩
  rw [hcount p, loads_note, hentries p, Nat.add_zero]

theorem loadNode_counts (node : Node) (s : Session) :
    CountsOnce s ((s.loadNode node).1 = true) (s.loadNode node).2 := by
  refine CountsOnce.after (fun p => loadsIn_check p s.registry node) ?_
  unfold loadNode
  by_cases h : (Check.validate s.registry node).isEmpty
  · simp only [h, if_true]
    refine ⟨"success", fun p => ?_, iff_of_true rfl trivial⟩
    rw [loads_note, loads_commit, loadsIn_loadMeasure]
    exact congrArg _ (Nat.zero_add _)
  · simp only [h]
    refine countsOnce_failed (by decide) Bool.false_ne_true _ (fun p => ?_) _
    unfold Measure.failedNode
    cases node.type <;> rfl

theorem loadWithin_counts (payload : Json) (input : Input) (s : Session) :
    CountsOnce s ((s.loadWithin payload input).1 = true) (s.loadWithin payload input).2 := by
  unfold loadWithin
  cases Payload.check s.settings.maxSchemaSize s.settings.maxSchemaDepth Payload.defaultName
      payload with
  | error issue => exact countsOnce_failed (by decide) Bool.false_ne_true _ (fun _ => rfl) s
  | ok u =>
    cases u
    refine CountsOnce.after (fun p => loadsIn_input p input) ?_
    cases input.normalize with
    | error rejection => exact countsOnce_failed (by decide) Bool.false_ne_true _ (fun _ => rfl) _
    | ok node => exact loadNode_counts node _

theorem not_countsOnce_self (s : Session) (succeeded : Prop) : ¬ CountsOnce s succeeded s := by
  rintro ⟨status, hcount, -⟩
  have hall := hcount fun _ => true
  simp at hall

/-- A load is counted exactly if there is a payload. -/
theorem load_counts_iff (input : Input) (s : Session) :
    CountsOnce s ((s.load input).1 = .ok true) (s.load input).2 ↔ input.payload? ≠ none := by
  cases hpayload : input.payload? with
  | none =>
    rw [load_of_no_payload hpayload]
    exact iff_of_false (not_countsOnce_self s _) (not_not_intro rfl)
  | some payload =>
    rw [load_of_payload hpayload]
    obtain ⟨status, hcount, hsuccess⟩ := loadWithin_counts payload input s
    exact iff_of_true ⟨status, hcount, hsuccess.trans (by simp)⟩ (by simp)

/-- A load that is stopped is not counted, and nothing else happened. -/
theorem loadText_of_overlong {text : String} {n : Nat} (h : Json.Overlong text n) (s : Session) :
    s.loadText text = (.error (.longInteger n), s) := by
  rw [loadText, (Json.extract_longInteger_iff text n).mpr h]

theorem loadText_counts {text : String} (h : ∀ n, ¬ Json.Overlong text n) (s : Session) :
    CountsOnce s ((s.loadText text).1 = .ok true) (s.loadText text).2 := by
  have hno (n : Nat) : Json.extract text true ≠ .error (.longInteger n) :=
    mt (Json.extract_longInteger_iff text n).mp (h n)
  unfold loadText
  generalize Json.extract text true = found at hno ⊢
  cases found with
  | ok fields =>
    obtain ⟨status, hcount, hsuccess⟩ := loadWithin_counts (.obj fields) (.value (.obj fields)) s
    exact ⟨status, hcount, hsuccess.trans (by simp [loadValue])⟩
  | error fault =>
    cases fault with
    | longInteger n => exact absurd rfl (hno n)
    | _ => exact countsOnce_failed (by decide) nofun _ (fun _ => rfl) s

/-! ## What is displayed follows from the answer -/

/-- Cards around each other. -/
def cards : Nat → Node
  | 0 => { (default : Node) with type := some "card" }
  | n + 1 => { (default : Node) with type := some "card", children := [cards n] }

theorem levels_cards (n : Nat) : (cards n).levels = n + 1 := by
  induction n with
  | zero => rfl
  | succ n ih => simp [cards, Node.levels, Node.levelsEach, ih]

end ViewTree.Session
