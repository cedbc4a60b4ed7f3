import Mathlib.Data.List.Induction
import Mathlib.Data.List.Nodup
import ViewTree.Registry

/-
  ViewTree.Proofs.Registry.Tally — what the statistics of a registry count.

  The entries are counted one by one under the names of their categories, which are
  different for different categories and none of which is the name for entries without
  one (`label_eq_name_iff`). So the counts have different names and add up to the number of
  entries, and the count under a name is the number of entries with it (`tallied`).
-/

namespace ViewTree

theorem Category.name_injective {c c' : Category} (h : c.name = c'.name) : c = c' := by
  cases c <;> cases c' <;> first | rfl | exact absurd h (by decide)

theorem Category.name_ne_uncategorized (c : Category) : c.name ≠ Registry.uncategorized := by
  cases c <;> decide

namespace Registry

/-! ## Counting names -/

/-- The counts of some names, in the order in which these come first. -/
def tally (labels : List String) : List (String × Nat) :=
  labels.foldl (fun counts label => countOne label counts) []

/-- The count under a name; a name that is not there counts nothing. -/
def countOf (name : String) (counts : List (String × Nat)) : Nat := (counts.lookup name).getD 0

/-- What the counts add up to. -/
def sumOf (counts : List (String × Nat)) : Nat := counts.foldr (fun count sum => count.2 + sum) 0

theorem countOf_cons (name k : String) (n : Nat) (counts : List (String × Nat)) :
    countOf name ((k, n) :: counts) = if name = k then n else countOf name counts := by
  rw [countOf, List.lookup_cons]
  split
  · rename_i heq
    rw [if_pos (beq_iff_eq.mp heq)]
    rfl
  · rename_i hne
    rw [if_neg (fun heq => by simp [heq] at hne)]
    rfl

theorem countOf_countOne (name label : String) (counts : List (String × Nat)) :
    countOf name (countOne label counts) =
      countOf name counts + if label = name then 1 else 0 := by
  induction counts with
  | nil =>
    rw [countOne, countOf_cons]
    simp [countOf, eq_comm]
  | cons count rest ih =>
    obtain ⟨k, n⟩ := count
    rw [countOne, countOf_cons]
    by_cases hk : k = label
    · rw [if_pos hk, countOf_cons]
      subst hk
      by_cases hname : name = k
      · simp [hname]
      · simp [hname, Ne.symm hname]
    · rw [if_neg hk, countOf_cons, ih]
      by_cases hname : name = k
      · have hlabel : label ≠ name := fun heq => hk (heq.trans hname).symm
        simp [hname, hname ▸ hlabel]
      · simp [hname]

theorem sumOf_countOne (label : String) (counts : List (String × Nat)) :
    sumOf (countOne label counts) = sumOf counts + 1 := by
  induction counts with
  | nil => rfl
  | cons count rest ih =>
    obtain ⟨k, n⟩ := count
    rw [countOne]
    split
    · exact Nat.add_right_comm n 1 (sumOf rest)
    · have hrest : n + sumOf (countOne label rest) = n + (sumOf rest + 1) := by rw [ih]
      exact hrest

theorem names_countOne (label : String) (counts : List (String × Nat)) :
    (countOne label counts).map Prod.fst =
      if label ∈ counts.map Prod.fst then counts.map Prod.fst
      else counts.map Prod.fst ++ [label] := by
  induction counts with
  | nil => rfl
  | cons count rest ih =>
    obtain ⟨k, n⟩ := count
    rw [countOne]
    by_cases hk : k = label
    · simp [hk]
    · rw [if_neg hk, List.map_cons, ih, List.map_cons]
      by_cases hmem : label ∈ rest.map Prod.fst
      · rw [if_pos hmem, if_pos (List.mem_cons_of_mem _ hmem)]
      · rw [if_neg hmem, if_neg (List.not_mem_cons_of_ne_of_not_mem (Ne.symm hk) hmem)]
        rfl

/-- What holds of no counts, and is kept when one more name is counted, holds of a tally. -/
theorem tally_induction {P : List String → List (String × Nat) → Prop} (hnil : P [] [])
    (hone : ∀ labels label counts, P labels counts → P (labels ++ [label]) (countOne label counts))
    (labels : List String) : P labels (tally labels) := by
  induction labels using List.reverseRecOn with
  | nil => exact hnil
  | append_singleton labels label ih =>
    rw [tally, List.foldl_append]
    exact hone labels label _ ih

theorem countOf_tally (name : String) (labels : List String) :
    countOf name (tally labels) = labels.count name := by
  refine tally_induction (P := fun labels counts => countOf name counts = labels.count name) rfl
    (fun labels label counts ih => ?_) labels
  rw [countOf_countOne, ih, List.count_append, List.count_singleton]
  simp

theorem sumOf_tally (labels : List String) : sumOf (tally labels) = labels.length := by
  refine tally_induction (P := fun labels counts => sumOf counts = labels.length) rfl
    (fun labels label counts ih => ?_) labels
  rw [sumOf_countOne, ih, List.length_append]
  rfl

theorem nodup_tally (labels : List String) : ((tally labels).map Prod.fst).Nodup := by
  refine tally_induction (P := fun _ counts => (counts.map Prod.fst).Nodup) List.nodup_nil
    (fun _ label counts ih => ?_) labels
  rw [names_countOne]
  split
  · exact ih
  · rename_i hnew
    rw [← List.concat_eq_append]
    exact ih.concat hnew

theorem mem_of_mem_tally (labels : List String) :
    ∀ name ∈ (tally labels).map Prod.fst, name ∈ labels := by
  refine tally_induction (P := fun labels counts => ∀ name ∈ counts.map Prod.fst, name ∈ labels)
    (fun _ hmem => hmem) (fun labels label counts ih name hmem => ?_) labels
  rw [names_countOne] at hmem
  split at hmem
  · exact List.mem_append_left _ (ih name hmem)
  · rcases List.mem_append.mp hmem with hmem | hmem
    · exact List.mem_append_left _ (ih name hmem)
    · exact List.mem_append_right _ hmem

/-! ## Counting entries -/

/-- The name an entry is counted under. -/
def label (e : RegistryEntry) : String :=
  (e.capability.category.map Category.name).getD uncategorized

theorem stats_categories (r : Registry) : r.stats.categories = tally (r.entries.map label) := by
  rw [tally, List.foldl_map]
  rfl

theorem label_eq_name_iff {e : RegistryEntry} {c : Category} :
    label e = c.name ↔ e.capability.category = some c := by
  rw [label]
  cases e.capability.category with
  | none => exact ⟨fun h => absurd h.symm c.name_ne_uncategorized, nofun⟩
  | some c' =>
    exact ⟨fun h => congrArg some (Category.name_injective h),
      fun h => congrArg Category.name (Option.some.inj h)⟩

theorem label_eq_uncategorized_iff {e : RegistryEntry} :
    label e = uncategorized ↔ e.capability.category = none := by
  rw [label]
  cases e.capability.category with
  | none => exact ⟨fun _ => rfl, fun _ => rfl⟩
  | some c => exact ⟨fun h => absurd h c.name_ne_uncategorized, nofun⟩

/-- What the statistics of a registry say of its entries. -/
structure Tallied (r : Registry) : Prop where
  total : r.stats.total = r.size
  sum : sumOf r.stats.categories = r.stats.total
  distinct : (r.stats.categories.map Prod.fst).Nodup
  names {name : String} : name ∈ r.stats.categories.map Prod.fst →
    name = uncategorized ∨ ∃ c : Category, name = c.name
  category (c : Category) : countOf c.name r.stats.categories = (r.inCategory c).length
  without : countOf uncategorized r.stats.categories =
    r.entries.countP fun e => e.capability.category = none
  containers : r.stats.containers = r.entries.countP fun e => e.capability.isContainer

theorem tallied (r : Registry) : Tallied r := by
  constructor
  case total => rfl
  case sum =>
    rw [stats_categories, sumOf_tally, List.length_map]
    rfl
  case distinct =>
    rw [stats_categories]
    exact nodup_tally _
  case names =>
    intro name hmem
    rw [stats_categories] at hmem
    obtain ⟨e, -, rfl⟩ := List.mem_map.mp (mem_of_mem_tally _ name hmem)
    cases hcategory : e.capability.category with
    | none => exact .inl (label_eq_uncategorized_iff.mpr hcategory)
    | some c => exact .inr ⟨c, label_eq_name_iff.mpr hcategory⟩
  case category =>
    intro c
    rw [stats_categories, countOf_tally, List.count, List.countP_map, inCategory,
      ← List.countP_eq_length_filter, List.countP_map]
    refine List.countP_congr fun e _ => ?_
    simp [label_eq_name_iff]
  case without =>
    rw [stats_categories, countOf_tally, List.count, List.countP_map]
    refine List.countP_congr fun e _ => ?_
    simp [label_eq_uncategorized_iff]
  case containers => rfl

end Registry

end ViewTree
