import ViewTree.Proofs.Json.Height

/-
  ViewTree.Proofs.Payload.Walk — walks over pending values, and the depth they find.

  A walk visits pending values in whatever order: a value within the limit gives way to its
  members, one level further down (`Visit`). It ends once no value is pending, or with the
  depth of a value below the limit that it takes (`Ends`). Where it has come to after some
  visits, some of these things are settled already:
  - The pending values stay within the limit exactly if those at the start do
    (`Visit.within_iff`), and none of them is more than one level below the limit
    (`Visit.near`). So the order decides neither whether a depth is reported nor which.
  - Each visit takes one value away from those that are still to come, whatever else it
    makes pending (`Visit.weight`). So a walk makes no more visits than there are values,
    though more of them may be pending after a visit than before.

  The check of the depth takes the youngest pending value each time, which is one such walk
  (`exists_walk`). `checkDepth_computes_height` says what it and every other one answers.
-/

namespace ViewTree

namespace Json

theorem weightItems_append (values more : List Json) :
    weightItems (values ++ more) = weightItems values + weightItems more := by
  induction values with
  | nil => simp [weightItems]
  | cons v rest ih =>
    rw [List.cons_append, weightItems, weightItems, ih]
    omega

theorem weightItems_perm {values more : List Json} (h : values.Perm more) :
    weightItems values = weightItems more := by
  induction h with
  | nil => rfl
  | cons v _ ih => rw [weightItems, weightItems, ih]
  | swap v w rest =>
    simp only [weightItems]
    omega
  | trans _ _ ih₁ ih₂ => exact ih₁.trans ih₂

end Json

namespace Payload

variable {limit : Int} {pending next last : Pending} {n : Nat} {answer : Option Nat}

/-! ## Visits -/

/-- A visit of some pending value within the limit: its members are pending in its stead. -/
def Visit (limit : Int) (pending next : Pending) : Prop :=
  ∃ v depth rest, pending.Perm ((v, depth) :: rest) ∧ (depth : Int) ≤ limit ∧
    next.Perm (v.members.map (·, depth + 1) ++ rest)

/-- A number of visits, one after another. -/
inductive Visits (limit : Int) : Nat → Pending → Pending → Prop
  | nil {pending : Pending} : Visits limit 0 pending pending
  | cons {n : Nat} {pending next last : Pending} :
      Visit limit pending next → Visits limit n next last → Visits limit (n + 1) pending last

/-- How a walk ends: nothing is pending, or it takes a value below the limit. -/
inductive Ends (limit : Int) : Pending → Option Nat → Prop
  | nothing : Ends limit [] none
  | tooDeep {pending : Pending} {v : Json} {depth : Nat} :
      (v, depth) ∈ pending → limit < depth → Ends limit pending (some depth)

/-- No pending value reaches below the limit. -/
def Within (limit : Int) (pending : Pending) : Prop :=
  ∀ p ∈ pending, (p.2 + p.1.height : Int) ≤ limit

/-- No pending value stands more than one level below the limit. -/
def Near (limit : Int) (pending : Pending) : Prop := ∀ p ∈ pending, (p.2 : Int) ≤ limit + 1

theorem Visit.within_iff (h : Visit limit pending next) :
    Within limit next ↔ Within limit pending := by
  obtain ⟨v, depth, rest, hpending, hdepth, hnext⟩ := h
  -- the members are one level further down, where the limit leaves that much less
  have hmembers : (∀ w ∈ v.members, ((depth + 1 : Nat) + w.height : Int) ≤ limit) ↔
      (depth + v.height : Int) ≤ limit := by
    have hheight : v.height ≤ (limit - depth).toNat ↔
        ∀ w ∈ v.members, w.height < (limit - depth).toNat := Json.height_le_iff
    constructor
    · intro h
      have hle := hheight.mpr fun w hw => by
        have := h w hw
        omega
      omega
    · intro h w hw
      have hlt := hheight.mp (by omega) w hw
      omega
  unfold Within
  simp only [hpending.mem_iff, hnext.mem_iff]
  rw [List.forall_mem_append, List.forall_mem_map, List.forall_mem_cons]
  exact and_congr_left' hmembers

theorem Visit.near (h : Visit limit pending next) (hnear : Near limit pending) :
    Near limit next := by
  obtain ⟨v, depth, rest, hpending, hdepth, hnext⟩ := h
  intro p hp
  rcases List.mem_append.mp (hnext.mem_iff.mp hp) with hmember | hrest
  · obtain ⟨w, -, rfl⟩ := List.mem_map.mp hmember
    show ((depth + 1 : Nat) : Int) ≤ limit + 1
    omega
  · exact hnear p (hpending.mem_iff.mpr (List.mem_cons_of_mem _ hrest))

theorem Visit.weight (h : Visit limit pending next) : next.weight + 1 = pending.weight := by
  obtain ⟨v, depth, rest, hpending, -, hnext⟩ := h
  have hbefore := Json.weightItems_perm (hpending.map Prod.fst)
  have hbehind := Json.weightItems_perm (hnext.map Prod.fst)
  have hmembers : (v.members.map (·, depth + 1)).map Prod.fst = v.members := by
    rw [List.map_map]
    exact List.map_id _
  simp only [List.map_cons, Json.weightItems, Json.weight_eq v] at hbefore
  rw [List.map_append, hmembers, Json.weightItems_append] at hbehind
  unfold Pending.weight
  omega

/-- What is settled at the start of a walk stays so, and its length is what it takes away. -/
theorem Visits.keeps (h : Visits limit n pending last) :
    (Within limit last ↔ Within limit pending) ∧ (Near limit pending → Near limit last) ∧
      n + last.weight = pending.weight := by
  induction h with
  | nil => exact ⟨Iff.rfl, id, Nat.zero_add _⟩
  | cons hvisit _ ih =>
    obtain ⟨hwithin, hnear, hweight⟩ := ih
    refine ⟨hwithin.trans hvisit.within_iff, fun h => hnear (hvisit.near h), ?_⟩
    have := hvisit.weight
    omega

/-! ## Ends -/

/-- At its end a walk knows whether everything that was still pending is within the limit. -/
theorem Ends.answer_eq {limit : Nat} (h : Ends limit last answer) (hnear : Near limit last) :
    (answer = none ∧ Within limit last) ∨ (answer = some (limit + 1) ∧ ¬ Within limit last) := by
  cases h with
  | nothing => exact .inl ⟨rfl, fun p hp => absurd hp List.not_mem_nil⟩
  | @tooDeep _ v depth hmem hdeep =>
    have hlevel : (depth : Int) ≤ limit + 1 := hnear _ hmem
    refine .inr ⟨congrArg some (by omega), fun hwithin => ?_⟩
    have hle : (depth + v.height : Int) ≤ limit := hwithin _ hmem
    omega

/-- A walk that has not come to an end can go on. -/
theorem visit_or_ends (limit : Int) (pending : Pending) :
    (∃ next, Visit limit pending next) ∨ ∃ answer, Ends limit pending answer := by
  cases pending with
  | nil => exact .inr ⟨_, .nothing⟩
  | cons p rest =>
    obtain ⟨v, depth⟩ := p
    by_cases hdeep : limit < depth
    · exact .inr ⟨_, .tooDeep List.mem_cons_self hdeep⟩
    · exact .inl ⟨_, v, depth, rest, .refl _, by omega, .refl _⟩

/-- What every walk from a value answers, in whatever order it visits. -/
theorem Visits.answer_eq {limit : Nat} {v : Json} (h : Visits limit n [(v, 0)] last)
    (hends : Ends limit last answer) :
    answer = if limit < v.height then some (limit + 1) else none := by
  obtain ⟨hwithin, hnear, -⟩ := h.keeps
  have hstart : Within limit [(v, 0)] ↔ v.height ≤ limit := by simp [Within]
  have hnear : Near limit last := hnear (by simp [Near]; omega)
  rcases hends.answer_eq hnear with ⟨rfl, hin⟩ | ⟨rfl, hout⟩
  · have hle := hstart.mp (hwithin.mp hin)
    rw [if_neg (by omega)]
  · have hlt := mt (fun hle => hwithin.mpr (hstart.mpr hle)) hout
    rw [if_pos (by omega)]

/-! ## The check -/

theorem push_eq (depth : Nat) (values : List Json) (pending : Pending) :
    pending.push depth values = (values.map (·, depth)).reverse ++ pending := by
  unfold Pending.push
  induction values generalizing pending with
  | nil => rfl
  | cons v rest ih => simp [ih]

/-- The check of the depth walks as far as its own answer. -/
theorem exists_walk (limit : Int) (pending : Pending) :
    ∃ n last, Visits limit n pending last ∧ Ends limit last (firstTooDeep limit pending) := by
  induction pending using firstTooDeep.induct limit with
  | case1 =>
    rw [firstTooDeep]
    exact ⟨0, [], .nil, .nothing⟩
  | case2 v depth rest hdeep =>
    rw [firstTooDeep, if_pos hdeep]
    exact ⟨0, _, .nil, .tooDeep List.mem_cons_self hdeep⟩
  | case3 v depth rest hdeep ih =>
    obtain ⟨n, last, hvisits, hends⟩ := ih
    rw [firstTooDeep, if_neg hdeep]
    refine ⟨n + 1, last, .cons ⟨v, depth, rest, .refl _, by omega, ?_⟩ hvisits, hends⟩
    rw [push_eq]
    exact (List.reverse_perm _).append_right rest

theorem firstTooDeep_eq (limit : Nat) (v : Json) :
    firstTooDeep limit [(v, 0)] = if limit < v.height then some (limit + 1) else none := by
  obtain ⟨n, last, hvisits, hends⟩ := exists_walk limit [(v, 0)]
  exact hvisits.answer_eq hends

theorem checkDepth_eq (limit : Nat) (v : Json) :
    checkDepth limit v =
      if limit < v.height then .error (.tooDeep (limit + 1) limit) else .ok () := by
  rw [checkDepth, firstTooDeep_eq]
  split_ifs <;> rfl

theorem checkDepth_eq_ok_iff {limit : Nat} {v : Json} :
    checkDepth limit v = .ok () ↔ v.height ≤ limit := by
  rw [checkDepth_eq]
  split_ifs with h
  · exact iff_of_false (fun hok => by cases hok) (by omega)
  · exact iff_of_true rfl (by omega)

/-- The check refuses a value exactly if its height exceeds the limit, and then it reports
    the first depth below the limit. Its walk comes to its end. So does every other walk, in
    whatever order it visits: after at most as many visits as there are values, and with the
    same answer. -/
theorem checkDepth_computes_height (limit : Nat) (v : Json) :
    checkDepth limit v =
        (if limit < v.height then .error (.tooDeep (limit + 1) limit) else .ok ()) ∧
      (∃ n last, Visits limit n [(v, 0)] last ∧
        Ends limit last (firstTooDeep limit [(v, 0)])) ∧
      ∀ n last, Visits limit n [(v, 0)] last →
        n ≤ v.weight ∧
        ((∃ next, Visit limit last next) ∨ ∃ answer, Ends limit last answer) ∧
        ∀ answer, Ends limit last answer →
          answer = if limit < v.height then some (limit + 1) else none := by
  refine ⟨checkDepth_eq limit v, exists_walk limit _, fun n last hvisits => ⟨?_, ?_, ?_⟩⟩
  · obtain ⟨-, -, hweight⟩ := hvisits.keeps
    have hstart : Pending.weight [(v, 0)] = v.weight := by simp [Pending.weight, Json.weightItems]
    omega
  · exact visit_or_ends limit last
  · exact fun answer hends => hvisits.answer_eq hends

/-- The eldest member first, where the check would take the youngest one. -/
theorem checkDepth_computes_height_eldest_first :
    let v : Json := .arr [.arr [.arr []], .null]
    let last : Pending := [(.arr [], 2), (.null, 1)]
    Visits (1 : Nat) 2 [(v, 0)] last ∧ Ends (1 : Nat) last (some 2) ∧ 2 ≤ v.weight ∧
      checkDepth (1 : Nat) v = .error (.tooDeep 2 1) := by
  intro v last
  have hfirst : Visit (1 : Nat) [(v, 0)] [(.arr [.arr []], 1), (.null, 1)] :=
    ⟨v, 0, [], .refl _, by decide, .refl _⟩
  have hsecond : Visit (1 : Nat) [(.arr [.arr []], 1), (.null, 1)] last :=
    ⟨.arr [.arr []], 1, [(.null, 1)], .refl _, by decide, .refl _⟩
  have hvisits : Visits (1 : Nat) 2 [(v, 0)] last := .cons hfirst (.cons hsecond .nil)
  have hends : Ends (1 : Nat) last (some 2) := .tooDeep List.mem_cons_self (by decide)
  obtain ⟨hcheck, -, hwalks⟩ := checkDepth_computes_height 1 v
  obtain ⟨hlength, -, hanswer⟩ := hwalks 2 last hvisits
  refine ⟨hvisits, hends, hlength, ?_⟩
  rw [hcheck, if_pos (by decide)]
  rfl

end Payload

end ViewTree
