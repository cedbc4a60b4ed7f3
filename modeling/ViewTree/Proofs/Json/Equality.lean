import Mathlib.Data.List.Forall2
import ViewTree.Json.Basic

/-
  ViewTree.Proofs.Json.Equality — which values are equal.

  Numbers and truth values are equal when they amount to the same: truth values to zero and
  one, integers to themselves, finite doubles to a whole number of units of 2^-1074, and
  infinities to one of two quantities of their own. A NaN amounts to nothing, not even to
  itself (`Double.eq_iff`): the ranks of the doubles of one sign grow with their magnitudes,
  so no two of them amount to the same, both zeros apart.

  Texts and nulls are equal to themselves only, handlers when they have the same serial
  number, lists item by item, and objects whatever the order of their fields (`Equal`).
  `same_iff` says that the comparison decides this.
-/

namespace ViewTree

/-- What a number amounts to: some units of 2^-1074, or an infinity. -/
inductive Quantity where
  | units (n : Int)
  | infinite (negative : Bool)

/-! ## Doubles -/

namespace Double

variable {d e : Double} {n : Int}

def quantity? (d : Double) : Option Quantity :=
  if d.isNaN then none else if d.isInfinite then some (.infinite d.negative) else some (.units d.units)

theorem one_pos : 0 < one := twoTo_pos 1074

theorem twoTo_le {k l : Nat} (h : k ≤ l) : twoTo k ≤ twoTo l :=
  Nat.pow_le_pow_right (by decide) h

/-- The binades lie one above the other. -/
theorem magnitude_lt (d : Double) : d.magnitude < binade * twoTo (d.rank / binade) := by
  have hlow : d.rank % binade < binade := Nat.mod_lt _ (by decide)
  unfold magnitude mantissa shift
  cases hbinade : d.rank / binade with
  | zero =>
    rw [if_pos rfl]
    exact Nat.mul_lt_mul_of_pos_right hlow (twoTo_pos 0)
  | succ k =>
    rw [if_neg (Nat.succ_ne_zero k), Nat.add_sub_cancel, twoTo_succ, Nat.mul_comm (twoTo k),
      ← Nat.mul_assoc]
    exact Nat.mul_lt_mul_of_pos_right (by omega) (twoTo_pos k)

theorem le_magnitude {k : Nat} (h : d.rank / binade = k + 1) :
    binade * twoTo k ≤ d.magnitude := by
  unfold magnitude mantissa shift
  rw [h, if_neg (Nat.succ_ne_zero k), Nat.add_sub_cancel]
  exact Nat.mul_le_mul_right _ (Nat.le_add_right _ _)

theorem not_binade_lt (h : d.magnitude = e.magnitude) :
    ¬ d.rank / binade < e.rank / binade := by
  intro hlt
  obtain ⟨k, hk⟩ := Nat.exists_eq_succ_of_ne_zero (Nat.ne_zero_of_lt hlt)
  have hle : twoTo (d.rank / binade) ≤ twoTo k := twoTo_le (by omega)
  have hd := magnitude_lt d
  have he := le_magnitude hk
  have := Nat.mul_le_mul_left binade hle
  omega

/-- The magnitude of a double tells its rank. -/
theorem rank_eq_of_magnitude_eq (h : d.magnitude = e.magnitude) : d.rank = e.rank := by
  have hbinade : d.rank / binade = e.rank / binade := by
    have := not_binade_lt h
    have := not_binade_lt h.symm
    omega
  have hmantissa : d.mantissa = e.mantissa := by
    unfold magnitude shift at h
    rw [hbinade] at h
    exact Nat.eq_of_mul_eq_mul_right (twoTo_pos _) h
  have hd := Nat.div_add_mod d.rank binade
  have he := Nat.div_add_mod e.rank binade
  unfold mantissa at hmantissa
  rw [hbinade] at hmantissa hd
  split_ifs at hmantissa <;> omega

theorem magnitude_eq_zero_iff : d.magnitude = 0 ↔ d.rank = 0 := by
  have hzero : zero.magnitude = 0 := by decide +kernel
  constructor
  · intro h
    exact rank_eq_of_magnitude_eq (h.trans hzero.symm)
  · intro h
    unfold magnitude mantissa
    rw [h]
    exact Nat.zero_mul _

theorem natAbs_units (d : Double) : d.units.natAbs = d.magnitude := by
  unfold units
  split_ifs <;> simp

theorem units_eq_iff : d.units = e.units ↔ d = e ∨ d.rank = 0 ∧ e.rank = 0 := by
  obtain ⟨negative, rank⟩ := d
  obtain ⟨negative', rank'⟩ := e
  constructor
  · intro h
    have hmagnitude : magnitude ⟨negative, rank⟩ = magnitude ⟨negative', rank'⟩ := by
      rw [← natAbs_units, ← natAbs_units, h]
    have hrank := rank_eq_of_magnitude_eq hmagnitude
    dsimp only at hrank
    subst hrank
    by_cases hzero : rank = 0
    · exact .inr ⟨hzero, hzero⟩
    · have hpos : magnitude ⟨negative, rank⟩ ≠ 0 := mt magnitude_eq_zero_iff.mp hzero
      unfold units at h
      rw [← hmagnitude] at h
      cases negative <;> cases negative' <;> simp at h ⊢ <;> omega
  · rintro (h | ⟨hd, he⟩)
    · rw [h]
    · have hd := magnitude_eq_zero_iff.mpr hd
      have he := magnitude_eq_zero_iff.mpr he
      simp [units, hd, he]

theorem quantity?_of_finite (h : d.isFinite = true) : d.quantity? = some (.units d.units) := by
  have hrank : d.rank < infiniteRank := of_decide_eq_true h
  have hnan : d.isNaN = false := decide_eq_false (by omega)
  have hinfinite : d.isInfinite = false := beq_eq_false_iff_ne.mpr (by omega)
  rw [quantity?, hnan, hinfinite]
  rfl

theorem isFinite_of_quantity? (h : d.quantity? = some (.units n)) : d.isFinite = true := by
  unfold quantity? at h
  split_ifs at h with hnan hinfinite
  · cases h
  · have hle : ¬ infiniteRank < d.rank := of_decide_eq_false (eq_false_of_ne_true hnan)
    have hne : d.rank ≠ infiniteRank := fun heq => hinfinite (beq_iff_eq.mpr heq)
    exact decide_eq_true (by omega)

/-- A double that is no NaN amounts to the same as another one exactly if they are one double
    or zeros of both signs. -/
theorem quantity?_eq_iff (h : d.isNaN = false) (h' : e.isNaN = false) :
    d.quantity? = e.quantity? ↔ d = e ∨ d.rank = 0 ∧ e.rank = 0 := by
  have hpos : infiniteRank ≠ 0 := by decide
  unfold quantity?
  rw [h, h']
  obtain ⟨negative, rank⟩ := d
  obtain ⟨negative', rank'⟩ := e
  by_cases hd : rank = infiniteRank <;> by_cases he : rank' = infiniteRank
  · subst hd he
    simp [isInfinite, hpos]
  · simp [isInfinite, hd, he, Ne.symm he, hpos]
  · simp [isInfinite, hd, he, hpos]
  · simpa [isInfinite, hd, he] using @units_eq_iff ⟨negative, rank⟩ ⟨negative', rank'⟩

/-- Doubles are equal exactly if both amount to the same. -/
theorem eq_iff : d.eq e = true ↔ ∃ q, d.quantity? = some q ∧ e.quantity? = some q := by
  cases hd : d.isNaN
  case true => simp [eq, quantity?, hd]
  cases he : e.isNaN
  case true => simp [eq, quantity?, he]
  obtain ⟨q, hq⟩ : ∃ q, d.quantity? = some q := by
    unfold quantity?
    rw [hd]
    exact ⟨if d.isInfinite then _ else _, (apply_ite some ..).symm⟩
  have heq : d.eq e = true ↔ d = e ∨ d.rank = 0 ∧ e.rank = 0 := by
    simp [eq, isZero, hd, he]
  rw [heq, ← quantity?_eq_iff hd he, hq]
  exact ⟨fun h => ⟨q, rfl, h.symm⟩, fun ⟨q', h, h'⟩ => h.trans h'.symm⟩

theorem mul_one_inj {m n : Int} : m * one = n * one ↔ m = n := by
  have hpos : (one : Int) ≠ 0 := Int.natCast_ne_zero.mpr (Nat.ne_of_gt one_pos)
  exact ⟨Int.eq_of_mul_eq_mul_right hpos, fun h => h ▸ rfl⟩

theorem units_eq_mul_one_iff (hmod : d.magnitude % one = 0) :
    d.units = n * one ↔ (if d.negative then -((d.magnitude / one : Nat) : Int)
      else (d.magnitude / one : Nat)) = n := by
  have hmagnitude : (d.magnitude : Int) = ((d.magnitude / one : Nat) : Int) * one := by
    rw [← Int.natCast_mul, Nat.div_mul_cancel (Nat.dvd_of_mod_eq_zero hmod)]
  have hunits : d.units = (if d.negative then -((d.magnitude / one : Nat) : Int)
      else (d.magnitude / one : Nat)) * one := by
    unfold units
    split_ifs
    · rw [Int.neg_mul, ← hmagnitude]
    · exact hmagnitude
  rw [hunits, mul_one_inj]

/-- A finite double equals an integer exactly if it amounts to the same. -/
theorem toInt?_eq_some_iff :
    d.toInt? = some n ↔ d.quantity? = some (.units (n * one)) := by
  by_cases hfinite : d.isFinite = true
  · rw [quantity?_of_finite hfinite, toInt?, hfinite, Bool.true_and]
    by_cases hmod : d.magnitude % one = 0
    · rw [if_pos (beq_iff_eq.mpr hmod), Option.some_inj, Option.some_inj, Quantity.units.injEq,
        units_eq_mul_one_iff hmod]
    · have hunits : d.units ≠ n * one := by
        intro h
        have habs := natAbs_units d
        rw [h, Int.natAbs_mul, Int.natAbs_natCast] at habs
        exact hmod (habs ▸ Nat.mul_mod_left _ _)
      rw [if_neg (mt beq_iff_eq.mp hmod)]
      exact ⟨nofun, fun h => absurd (Quantity.units.inj (Option.some.inj h)) hunits⟩
  · rw [toInt?, eq_false_of_ne_true hfinite, Bool.false_and, if_neg Bool.false_ne_true]
    exact ⟨nofun, fun h => absurd (isFinite_of_quantity? h) hfinite⟩

end Double

/-! ## Values -/

namespace Json

variable {v w : Json} {q : Quantity} {n : Int}

def quantity? : Json → Option Quantity
  | .bool b => some (.units ((if b then 1 else 0) * Double.one))
  | .int n => some (.units (n * Double.one))
  | .real d => d.quantity?
  | _ => none

/-- Equal scalars. -/
inductive EqualScalar : Json → Json → Prop where
  | null : EqualScalar .null .null
  | text (s : String) : EqualScalar (.str s) (.str s)
  | handler {h k : Handler} (serial : h.serial = k.serial) :
      EqualScalar (.handler h) (.handler k)
  | number {v w : Json} {q : Quantity} (left : v.quantity? = some q)
      (right : w.quantity? = some q) : EqualScalar v w

/-- Equal values. Objects have as many fields, and each on the left has an equal one on the
    right. -/
inductive Equal : Json → Json → Prop where
  | scalar {v w : Json} (equal : EqualScalar v w) : Equal v w
  | list {xs ys : List Json} (items : List.Forall₂ Equal xs ys) : Equal (.arr xs) (.arr ys)
  | object {fs gs : Fields} (length : fs.length = gs.length)
      (found : ∀ f ∈ fs, (gs.get? f.1).isSome)
      (values : ∀ f ∈ fs, ∀ w, gs.get? f.1 = some w → Equal f.2 w) : Equal (.obj fs) (.obj gs)

theorem units_mul_one_inj {m n : Int} :
    Quantity.units (m * Double.one) = .units (n * Double.one) ↔ m = n := by
  rw [Quantity.units.injEq, Double.mul_one_inj]

theorem integral?_eq_some_iff :
    v.integral? = some n ↔ v.quantity? = some (.units (n * Double.one)) := by
  cases v with
  | real d => exact Double.toInt?_eq_some_iff
  | bool b => rw [integral?, quantity?, Option.some_inj, Option.some_inj, units_mul_one_inj]
  | int m => rw [integral?, quantity?, Option.some_inj, Option.some_inj, units_mul_one_inj]
  | _ => exact iff_of_false (by rintro ⟨⟩) (by rintro ⟨⟩)

/-- Only doubles amount to anything else than an integer. -/
theorem real_or_integral (h : v.quantity? = some q) :
    (∃ d, v = .real d) ∨ ∃ n, v.integral? = some n := by
  cases v with
  | real d => exact .inl ⟨d, rfl⟩
  | bool b => exact .inr ⟨_, rfl⟩
  | int n => exact .inr ⟨_, rfl⟩
  | _ => cases h

theorem integral?_of_quantity? (hv : v.quantity? = some q) (hw : w.quantity? = some q)
    (h : v.integral? = some n) : w.integral? = some n := by
  rw [integral?_eq_some_iff, hv] at h
  rw [integral?_eq_some_iff, hw, h]

/-- Of two scalars that amount to the same both are doubles or both equal an integer. -/
theorem reals_or_integral (hv : v.quantity? = some q) (hw : w.quantity? = some q) :
    (∃ d e, v = .real d ∧ w = .real e) ∨ ∃ n, v.integral? = some n ∧ w.integral? = some n := by
  obtain ⟨d, rfl⟩ | ⟨n, hn⟩ := real_or_integral hv
  · obtain ⟨e, rfl⟩ | ⟨n, hn⟩ := real_or_integral hw
    · exact .inl ⟨d, e, rfl, rfl⟩
    · exact .inr ⟨n, integral?_of_quantity? hw hv hn, hn⟩
  · exact .inr ⟨n, hn, integral?_of_quantity? hv hw hn⟩

theorem sameScalar_iff : sameScalar v w = true ↔ EqualScalar v w := by
  fun_cases sameScalar v w
  case case1 => exact ⟨fun _ => .null, fun _ => rfl⟩
  case case2 s t =>
    constructor
    · intro h
      rw [beq_iff_eq.mp h]
      exact .text t
    · rintro (_ | _ | _ | ⟨⟨⟩, _⟩)
      exact beq_self_eq_true s
  case case3 h k =>
    constructor
    · exact fun h => .handler (beq_iff_eq.mp h)
    · rintro (_ | _ | hserial | ⟨⟨⟩, _⟩)
      exact beq_iff_eq.mpr hserial
  case case4 d e =>
    rw [Double.eq_iff]
    constructor
    · rintro ⟨q, hd, he⟩
      exact .number hd he
    · rintro (_ | _ | _ | ⟨hd, he⟩)
      exact ⟨_, hd, he⟩
  case case5 m n hv hw hnull htext hhandler hreal =>
    rw [beq_iff_eq]
    constructor
    · rintro rfl
      exact .number (integral?_eq_some_iff.mp hv) (integral?_eq_some_iff.mp hw)
    · rintro (_ | _ | _ | ⟨hleft, hright⟩)
      case null => exact (hnull rfl rfl).elim
      case text s => exact (htext s s rfl rfl).elim
      case handler => exact (hhandler _ _ rfl rfl).elim
      have hm := integral?_of_quantity? hleft hright hv
      exact Option.some_inj.mp (hm.symm.trans hw)
  case case6 hnull htext hhandler hreal hintegral =>
    refine ⟨nofun, ?_⟩
    rintro (_ | _ | _ | ⟨hleft, hright⟩)
    case null => exact (hnull rfl rfl).elim
    case text s => exact (htext s s rfl rfl).elim
    case handler => exact (hhandler _ _ rfl rfl).elim
    obtain ⟨d, e, rfl, rfl⟩ | ⟨n, hv, hw⟩ := reals_or_integral hleft hright
    · exact (hreal d e rfl rfl).elim
    · exact (hintegral n n hv hw).elim

/-- Values of which not both are lists and not both are objects. -/
theorem same_iff_of_scalar (hlist : ∀ xs ys, v = .arr xs → w = .arr ys → False)
    (hobject : ∀ fs gs, v = .obj fs → w = .obj gs → False) : same v w = true ↔ Equal v w := by
  rw [same.eq_3 v w hlist hobject, sameScalar_iff]
  constructor
  · exact .scalar
  · rintro (h | _ | _)
    · exact h
    · exact (hlist _ _ rfl rfl).elim
    · exact (hobject _ _ rfl rfl).elim

theorem equal_list_iff {xs ys : List Json} :
    Equal (.arr xs) (.arr ys) ↔ List.Forall₂ Equal xs ys := by
  constructor
  · rintro (⟨_ | _ | _ | ⟨⟨⟩, _⟩⟩ | h | _)
    exact h
  · exact .list

theorem equal_object_iff {fs gs : Fields} :
    Equal (.obj fs) (.obj gs) ↔ fs.length = gs.length ∧ (∀ f ∈ fs, (gs.get? f.1).isSome) ∧
      ∀ f ∈ fs, ∀ w, gs.get? f.1 = some w → Equal f.2 w := by
  constructor
  · rintro (⟨_ | _ | _ | ⟨⟨⟩, _⟩⟩ | _ | ⟨hlength, hfound, hvalues⟩)
    exact ⟨hlength, hfound, hvalues⟩
  · rintro ⟨hlength, hfound, hvalues⟩
    exact .object hlength hfound hvalues

-- The induction is on the value on the left, whose members are compared with those found on
-- the right.
mutual
/-- The comparison by value decides equality. -/
theorem same_iff : ∀ v w : Json, same v w = true ↔ Equal v w
  | .arr xs, w => by
    cases w with
    | arr ys => rw [same, sameItems_iff xs ys, equal_list_iff]
    | _ => exact same_iff_of_scalar nofun nofun
  | .obj fs, w => by
    cases w with
    | obj gs => rw [same, Bool.and_eq_true, beq_iff_eq, sameFields_iff fs gs, equal_object_iff]
    | _ => exact same_iff_of_scalar nofun nofun
  | .null, w => same_iff_of_scalar nofun nofun
  | .bool _, w => same_iff_of_scalar nofun nofun
  | .int _, w => same_iff_of_scalar nofun nofun
  | .real _, w => same_iff_of_scalar nofun nofun
  | .str _, w => same_iff_of_scalar nofun nofun
  | .handler _, w => same_iff_of_scalar nofun nofun

theorem sameItems_iff : ∀ xs ys : List Json, sameItems xs ys = true ↔ List.Forall₂ Equal xs ys
  | [], ys => by cases ys <;> simp [sameItems]
  | x :: xs, ys => by cases ys <;> simp [sameItems, same_iff x, sameItems_iff xs]

theorem sameFields_iff : ∀ fs gs : List (String × Json), sameFields fs gs = true ↔
    (∀ f ∈ fs, (Fields.get? f.1 gs).isSome) ∧
      ∀ f ∈ fs, ∀ w, Fields.get? f.1 gs = some w → Equal f.2 w
  | [], gs => by simp [sameFields]
  | (k, v) :: fs, gs => by
    rw [sameFields, Bool.and_eq_true, sameFields_iff fs gs]
    cases hget : Fields.get? k gs with
    | none => simp [hget]
    | some w => simp [hget, same_iff v w, and_left_comm]
end

end Json

end ViewTree
