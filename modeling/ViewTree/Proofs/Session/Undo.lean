import ViewTree.Proofs.Session.Invariant

/-
  ViewTree.Proofs.Session.Undo — as many steps back as there were updates.

  The history drops its oldest schemas while new ones are added, so a schema that is
  displayed is found again only as long as it has not been dropped. It stands behind as
  many newer ones as updates succeeded since (`Behind`). An update that succeeds adds one
  in front of it and, while their number stays below the limit, does not reach it; any
  other command but going back leaves the history alone (`Behind.run`). Each step back
  takes the newest away (`revertTimes_behind`), so that many steps lead to it.
-/

namespace ViewTree.Session

/-! ## Updates and steps back -/

namespace Command

/-- The command is an update, and it succeeds. -/
def succeeds (s : Session) : Command → Bool
  | request q => q.isUpdate && (q.run s).1 = .success
  | _ => false

def isRevert : Command → Bool
  | request .revert => true
  | _ => false

end Command

/-- How many of the commands are updates that succeed. -/
def successes : Session → List Command → Nat
  | _, [] => 0
  | s, command :: rest =>
    (if command.succeeds s then 1 else 0) + successes (command.run s) rest

/-- Steps back, with their answers. -/
def revertTimes : Nat → Session → List Bool × Session
  | 0, s => ([], s)
  | k + 1, s =>
    let (done, s) := s.revert
    let (more, s) := revertTimes k s
    (done :: more, s)

/-! ## What stands behind newer schemas -/

/-- A schema is in a history, and there are so many newer ones. -/
def Behind (node : Node) (k : Nat) (history : List Node) : Prop :=
  ∃ older newer, history = older ++ node :: newer ∧ newer.length = k

variable {node : Node} {k : Nat} {s : Session}

theorem behind_of_getLast? {history : List Node} (h : history.getLast? = some node) :
    Behind node 0 history := by
  obtain ⟨older, rfl⟩ := List.getLast?_eq_some_iff.mp h
  exact ⟨older, [], rfl, rfl⟩

/-- One more schema does not drop one that it leaves within the limit. -/
theorem Behind.extend {history : List Node} {limit : Nat} (h : Behind node k history)
    (hlimit : k + 1 < limit) (newest : Node) :
    Behind node (k + 1) (extend limit history newest) := by
  obtain ⟨older, newer, rfl, rfl⟩ := h
  refine ⟨older.drop (older.length + newer.length + 2 - limit), newer ++ [newest], ?_, ?_⟩
  · have hshort : older.length + newer.length + 2 - limit ≤ older.length := by omega
    have hcount : (older ++ node :: newer).length + 1 - limit =
        older.length + newer.length + 2 - limit := by
      rw [List.length_append, List.length_cons]
      omega
    rw [Session.extend, hcount, List.append_assoc, List.drop_append_of_le_length hshort]
    rfl
  · rw [List.length_append, List.length_singleton]

/-- A command other than going back adds one schema if it is an update that succeeds. -/
theorem Behind.run (h : Behind node k s.history) {command : Command}
    (hrevert : command.isRevert = false)
    (hlimit : k + (if command.succeeds s then 1 else 0) < s.settings.historyLimit) :
    Behind node (k + if command.succeeds s then 1 else 0) (command.run s).history := by
  cases command with
  | request q =>
    by_cases hsucceeds : (Command.request q).succeeds s = true
    · rw [if_pos hsucceeds] at hlimit ⊢
      simp only [Command.succeeds, Bool.and_eq_true, decide_eq_true_eq] at hsucceeds
      obtain ⟨shown, hshows⟩ := Request.shows_of_success hsucceeds.1 hsucceeds.2
      rw [show (Command.run s (.request q)).history = _ from hshows.history]
      exact h.extend hlimit shown
    · rw [if_neg hsucceeds, Nat.add_zero]
      have hkeeps : Keeps s (q.run s).2 := by
        by_cases hreply : (q.run s).1 = .success
        · cases q with
          | revert => cases hrevert
          | render host => exact renderCurrent_keeps host s
          | _ =>
            refine absurd ?_ hsucceeds
            simpa only [Command.succeeds, Request.isUpdate, Bool.true_and,
              decide_eq_true_eq] using hreply
        · exact Request.keeps_of_no_success hreply
      rw [show (Command.run s (.request q)).history = s.history from hkeeps.history]
      exact h
  | clear => exact h
  | setLoading loading => exact h
  | startStream => exact h

theorem Behind.runAll {commands : List Command} (h : Behind node k s.history)
    (hreverts : ∀ c ∈ commands, c.isRevert = false)
    (hlimit : k + successes s commands < s.settings.historyLimit) :
    Behind node (k + successes s commands) (s.runAll commands).history := by
  induction commands generalizing k s with
  | nil => exact h
  | cons command rest ih =>
    simp only [successes] at hlimit ⊢
    rw [← Nat.add_assoc] at hlimit ⊢
    have hrun := h.run (hreverts command List.mem_cons_self) (by omega)
    refine ih hrun (fun c hc => hreverts c (List.mem_cons_of_mem _ hc)) ?_
    rw [settings, command.context_run]
    exact hlimit

/-! ## Going back -/

/-- A step back takes the newest schema away and shows the one before. -/
theorem revert_behind (h : Behind node (k + 1) s.history) :
    s.revert.1 = true ∧ Behind node k s.revert.2.history ∧
      s.revert.2.current = s.revert.2.history.getLast? := by
  obtain ⟨older, newer, hhistory, hlength⟩ := h
  have hnewer : newer ≠ [] := List.ne_nil_of_length_eq_add_one hlength
  have hdrop : s.history.dropLast = older ++ node :: newer.dropLast := by
    rw [hhistory, List.dropLast_append_of_ne_nil (by simp), List.dropLast_cons_of_ne_nil hnewer]
  cases hprevious : s.history.dropLast.getLast? with
  | none =>
    rw [List.getLast?_eq_none_iff, hdrop] at hprevious
    exact absurd hprevious (by simp)
  | some previous =>
    simp only [revert, hprevious]
    refine ⟨trivial, ⟨older, newer.dropLast, hdrop, ?_⟩, hprevious.symm⟩
    rw [List.length_dropLast, hlength]
    rfl

theorem revertTimes_behind (hk : 1 ≤ k) (h : Behind node k s.history) :
    (revertTimes k s).1 = List.replicate k true ∧ (revertTimes k s).2.current = some node := by
  induction k generalizing s with
  | zero => omega
  | succ k ih =>
    obtain ⟨hdone, hbehind, hcurrent⟩ := revert_behind h
    cases k with
    | zero =>
      obtain ⟨older, newer, hhistory, hlength⟩ := hbehind
      cases List.length_eq_zero_iff.mp hlength
      simp only [revertTimes, hdone, hcurrent, hhistory, List.getLast?_append]
      exact ⟨rfl, rfl⟩
    | succ k =>
      obtain ⟨hmore, hback⟩ := ih (by omega) hbehind
      refine ⟨?_, hback⟩
      change s.revert.1 :: (revertTimes (k + 1) s.revert.2).1 = _
      rw [hdone, hmore]
      rfl

/-! ## Undoing updates -/

end ViewTree.Session
