import ViewTree.Telemetry.Journal

/-
  ViewTree.Proofs.Telemetry.Counters — what the samples of a counter add up to.

  A counter keeps one total for each combination of labels that occurred. `counted` adds
  up the totals whose labels satisfy a condition; it is the number of measures that
  carry such labels (`counted_eq`), whatever else was measured in between, so it grows
  with every journal by what that journal holds (`counted_append`). Stamping a journal
  with bound fields changes no measure.
-/

namespace ViewTree.Telemetry

namespace Metrics

abbrev Labels := List (String × String)

/-- The sum of the totals whose labels satisfy a condition. -/
def Totals.sumWhere (p : Labels → Bool) : Totals → Nat
  | [] => 0
  | (labels, n) :: rest => (if p labels then n else 0) + Totals.sumWhere p rest

/-- What the samples of a counter add up to over the labels that satisfy a condition. -/
def counted (labels? : Measure → Option Labels) (p : Labels → Bool) (ms : List Measure) : Nat :=
  (totals labels? ms).sumWhere p

/-- The labels of one status. -/
def ofStatus (status : String) (labels : Labels) : Bool := labels.contains ("status", status)

/-- Counting labels adds one to the sums that look at them and nothing to the others. -/
theorem Totals.sumWhere_count (p : Labels → Bool) (labels : Labels) (t : Totals) :
    (Totals.count labels t).sumWhere p = t.sumWhere p + if p labels then 1 else 0 := by
  induction t with
  | nil => simp [Totals.count, Totals.sumWhere]
  | cons e rest ih =>
    obtain ⟨l, n⟩ := e
    by_cases h : l = labels
    · subst h
      by_cases hp : p l
      · simp only [Totals.count, Totals.sumWhere, hp, if_true]; omega
      · simp [Totals.count, Totals.sumWhere, hp]
    · simp only [Totals.count, h, if_false, Totals.sumWhere, ih]; omega

/-- The totals grow from any start by the measures with labels. -/
theorem sumWhere_foldl (labels? : Measure → Option Labels) (p : Labels → Bool) (ms : List Measure)
    (t : Totals) :
    (ms.foldl (fun acc m => match labels? m with
      | some labels => Totals.count labels acc
      | none => acc) t).sumWhere p = t.sumWhere p + ms.countP fun m => (labels? m).any p := by
  induction ms generalizing t with
  | nil => simp
  | cons m ms ih =>
    rw [List.foldl_cons, ih, List.countP_cons]
    cases h : labels? m with
    | none => simp
    | some labels =>
      rw [Totals.sumWhere_count]
      simp only [Option.any_some]
      omega

theorem counted_eq (labels? : Measure → Option Labels) (p : Labels → Bool) (ms : List Measure) :
    counted labels? p ms = ms.countP fun m => (labels? m).any p := by
  calc counted labels? p ms
      = Totals.sumWhere p [] + ms.countP fun m => (labels? m).any p :=
        sumWhere_foldl labels? p ms []
    _ = ms.countP fun m => (labels? m).any p := by simp [Totals.sumWhere]

@[simp] theorem counted_append (labels? : Measure → Option Labels) (p : Labels → Bool)
    (ms ns : List Measure) :
    counted labels? p (ms ++ ns) = counted labels? p ms + counted labels? p ns := by
  simp only [counted_eq, List.countP_append]

@[simp] theorem counted_nil (labels? : Measure → Option Labels) (p : Labels → Bool) :
    counted labels? p [] = 0 := rfl

/-- A measure without labels of the counter counts nothing. -/
theorem counted_cons (labels? : Measure → Option Labels) (p : Labels → Bool) (m : Measure)
    (ms : List Measure) :
    counted labels? p (m :: ms) = counted labels? p ms + if (labels? m).any p then 1 else 0 := by
  simp only [counted_eq, List.countP_cons]

end Metrics

namespace Journal

@[simp] theorem measures_nil : measures [] = [] := rfl

@[simp] theorem measures_append (j k : Journal) :
    Journal.measures (j ++ k) = Journal.measures j ++ Journal.measures k :=
  List.filterMap_append

@[simp] theorem measures_record (r : Record) (j : Journal) :
    Journal.measures (.record r :: j) = Journal.measures j := rfl

@[simp] theorem measures_measure (m : Measure) (j : Journal) :
    Journal.measures (.measure m :: j) = m :: Journal.measures j := rfl

@[simp] theorem measures_records {α : Type} (f : α → Record) (l : List α) :
    Journal.measures (l.map fun a => .record (f a)) = [] := by
  induction l with
  | nil => rfl
  | cons a l ih => exact ih

/-- Bound fields are stamped on records only. -/
@[simp] theorem measures_stamp (bound : Bound) (j : Journal) :
    Journal.measures (j.map (Entry.stamp bound)) = Journal.measures j := by
  induction j with
  | nil => rfl
  | cons e j ih => cases e <;> simp [Entry.stamp, ih]

end Journal

end ViewTree.Telemetry
