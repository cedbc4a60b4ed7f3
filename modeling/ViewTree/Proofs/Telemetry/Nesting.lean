import ViewTree.Live.World
import ViewTree.Proofs.Json.Fields

/-
  ViewTree.Proofs.Telemetry.Nesting — scopes of bound fields, one inside the other.

  Scopes are entered and left in any number and to any depth; only the innermost one can be
  left. All of them share one flat map: entering a scope sets its keys, leaving it deletes
  them (`get?_enter`, `get?_leave`). What a whole scope comes to is told key by key:

  - `carried`: where no scope inside that is still open binds a key of a scope, the key is
    bound as the scope binds it if no scope inside ever bound it, and free otherwise.
  - `restored`: once a scope is left, a key is bound as it was on entry if neither the scope
    nor one inside binds it, and free otherwise.

  So a field is lost for the rest of its scope once a scope inside that binds the same key is
  left. Both follow from what one entering and one leaving keep (`Spared`, `Covered`), by one
  induction on the steps inside a scope (`run_within`). What is logged has the bound fields
  behind its own: the record's own field counts (`get?_stamp_of_not_mem`), and its line
  shows what it does not fill itself (`get?_written`).
-/

namespace ViewTree.Telemetry

open Live

/-! ## One scope -/

/-- Fields to bind, of different keys. -/
structure Scope where
  fields : Fields
  nodup : fields.keys.Nodup

namespace Bound

variable {bound : Bound} {key : String}

theorem get?_enter (f : Scope) (bound : Bound) (key : String) :
    (bound.enter f.fields).get? key = (f.fields.get? key).or (bound.get? key) :=
  Fields.get?_merge f.nodup key

theorem get?_enter_of_not_mem {f : Scope} (h : key ∉ f.fields.keys) :
    (bound.enter f.fields).get? key = bound.get? key :=
  Fields.get?_merge_of_not_mem h

theorem nodup_enter (scope : Fields) (h : bound.keys.Nodup) : (bound.enter scope).keys.Nodup :=
  Fields.nodup_merge scope h

/-- Whatever the keys of the scope were bound to before, nothing is bound to them now. -/
theorem get?_leave (scope : Fields) (h : bound.keys.Nodup) (key : String) :
    (bound.leave scope).get? key = if key ∈ scope.keys then none else bound.get? key := by
  induction scope generalizing bound with
  | nil => simp [leave]
  | cons field rest ih =>
    have hrest : (bound.leave (field :: rest)).get? key = _ := ih (Fields.nodup_erase field.1 h)
    rw [hrest]
    by_cases hkey : key = field.1
    · simp [hkey, Fields.get?_erase_self field.1 h]
    · simp [hkey, Fields.get?_erase_of_ne hkey]

theorem nodup_leave (scope : Fields) (h : bound.keys.Nodup) : (bound.leave scope).keys.Nodup := by
  induction scope generalizing bound with
  | nil => exact h
  | cons field rest ih => exact ih (Fields.nodup_erase field.1 h)

/-- A record has the bound field unless it has one of its own. -/
theorem get?_stamp_of_not_mem {r : Record} (hevent : key ≠ eventKey) (h : key ∉ r.fields.keys) :
    (bound.stamp r).fields.get? key = bound.get? key :=
  (Fields.get?_merge_of_not_mem h).trans (Fields.get?_erase_of_ne hevent bound)

/-- A key is bound to so much, and none of some scopes binds it. -/
def Spared (key : String) (found : Option Json) (scopes : List Scope) (bound : Bound) : Prop :=
  (∀ f ∈ scopes, key ∉ f.fields.keys) ∧ bound.get? key = found

/-- A key that is bound is one of some scopes. -/
def Covered (key : String) (scopes : List Scope) (bound : Bound) : Prop :=
  bound.get? key ≠ none → ∃ f ∈ scopes, key ∈ f.fields.keys

section Steps

variable {found : Option Json} {f : Scope} {scopes : List Scope}

theorem Spared.enter (h : Spared key found scopes bound) (hf : key ∉ f.fields.keys) :
    Spared key found (f :: scopes) (bound.enter f.fields) :=
  ⟨List.forall_mem_cons.mpr ⟨hf, h.1⟩, (get?_enter_of_not_mem hf).trans h.2⟩

theorem Spared.leave (h : Spared key found (f :: scopes) bound) (hnodup : bound.keys.Nodup) :
    Spared key found scopes (bound.leave f.fields) := by
  obtain ⟨hf, hscopes⟩ := List.forall_mem_cons.mp h.1
  refine ⟨hscopes, ?_⟩
  rw [get?_leave f.fields hnodup, if_neg hf]
  exact h.2

theorem Covered.enter (h : Covered key scopes bound) (f : Scope) :
    Covered key (f :: scopes) (bound.enter f.fields) := by
  intro hbound
  by_cases hf : key ∈ f.fields.keys
  · exact ⟨f, List.mem_cons_self, hf⟩
  · rw [get?_enter_of_not_mem hf] at hbound
    obtain ⟨g, hmem, hkey⟩ := h hbound
    exact ⟨g, List.mem_cons_of_mem _ hmem, hkey⟩

theorem Covered.leave (h : Covered key (f :: scopes) bound) (hnodup : bound.keys.Nodup) :
    Covered key scopes (bound.leave f.fields) := by
  intro hbound
  rw [get?_leave f.fields hnodup] at hbound
  split at hbound
  · exact absurd rfl hbound
  · rename_i hf
    obtain ⟨g, hmem, hkey⟩ := h hbound
    rcases List.mem_cons.mp hmem with rfl | hmem
    · exact absurd hkey hf
    · exact ⟨g, hmem, hkey⟩

end Steps

end Bound

theorem get?_lineFields (key : String) (fields : Fields) :
    Fields.get? key (lineFields fields) = (fields.get? key).map lineValue := by
  induction fields with
  | nil => rfl
  | cons field rest ih =>
    obtain ⟨k, v⟩ := field
    rw [lineFields, Fields.get?, Fields.get?, ih]
    split <;> rfl

/-- The line of a record shows every field that it does not fill itself. -/
theorem Record.get?_written {r : Record} {key : String} (hown : key ∉ ownFields)
    (hshown : isPrivate key = false) :
    r.written.fields.get? key = (r.fields.get? key).map lineValue := by
  let shown (k : String) : Bool := !ownFields.contains k && !isPrivate k
  have hkey : shown key = true := by simp [shown, hown, hshown]
  rw [← Fields.get?_filter_of_key hkey r.fields]
  exact get?_lineFields key _

/-- A record is written unless one of its fields bears the name of a part of the line. -/
theorem Journal.upToClash_record {r : Record} (threshold : Level) (h : r.clash? = none) :
    upToClash threshold [.record r] = ([.record r], none) := by
  have hclash : ((Entry.record r).record?.filter (shows threshold)).bind Record.clash? = none := by
    rw [Entry.record?, Option.filter_some]
    split
    · exact h
    · rfl
  rw [upToClash, hclash]
  rfl

/-! ## Scopes one inside the other -/

structure Nest where
  /-- The scopes that were entered and not left, the innermost first. -/
  opened : List Scope
  world : World

namespace Nest

/-- Nothing is bound. -/
def empty : Nest := ⟨[], World.empty⟩

def bound (n : Nest) : Bound := n.world.bound

inductive Step where
  | enter (f : Scope)
  /-- Leaves the innermost scope. -/
  | leave
  | note (entries : Journal)

/-- A step binds a key anew. -/
def Step.Binds (key : String) : Step → Prop
  | enter f => key ∈ f.fields.keys
  | leave => False
  | note _ => False

instance (key : String) : DecidablePred (Step.Binds key)
  | .enter f => inferInstanceAs (Decidable (key ∈ f.fields.keys))
  | .leave => .isFalse id
  | .note _ => .isFalse id

def step (n : Nest) : Step → Nest
  | .enter f => ⟨f :: n.opened, { n.world with bound := n.world.bound.enter f.fields }⟩
  | .leave =>
    match n.opened with
    | [] => n
    | f :: outer => ⟨outer, { n.world with bound := n.world.bound.leave f.fields }⟩
  | .note entries => ⟨n.opened, n.world.note entries⟩

def run (n : Nest) (steps : List Step) : Nest := steps.foldl step n

/-- How many scopes are open behind some steps that began with so many, unless a scope is
    left that was open before these. -/
def levels : Nat → List Step → Option Nat
  | d, [] => some d
  | d, .enter _ :: rest => levels (d + 1) rest
  | 0, .leave :: _ => none
  | d + 1, .leave :: rest => levels d rest
  | d, .note _ :: rest => levels d rest

variable {n : Nest} {f : Scope} {inside : List Step} {key : String} {v : Json} {d : Nat}

theorem run_cons (n : Nest) (s : Step) (rest : List Step) :
    n.run (s :: rest) = (n.step s).run rest := rfl

theorem nodup_step (h : n.bound.keys.Nodup) (s : Step) : (n.step s).bound.keys.Nodup := by
  cases s with
  | enter f => exact Bound.nodup_enter f.fields h
  | leave =>
    rw [step]
    split
    · exact h
    · exact Bound.nodup_leave _ h
  | note entries => exact h

theorem nodup_run (h : n.bound.keys.Nodup) (steps : List Step) :
    (n.run steps).bound.keys.Nodup := by
  induction steps generalizing n with
  | nil => exact h
  | cons s rest ih => exact ih (nodup_step h s)

/-- What entering a scope keeps, for each that is entered in some steps, and leaving one
    keeps, these steps keep. The scopes around them stay open. -/
theorem run_within {P : List Scope → Bound → Prop} {w : World} (inner outer : List Scope)
    (henter : ∀ g inner b, .enter g ∈ inside → P inner b → P (g :: inner) (b.enter g.fields))
    (hleave : ∀ g inner b, b.keys.Nodup → P (g :: inner) b → P inner (b.leave g.fields))
    (hlevels : levels inner.length inside = some d) (hnodup : w.bound.keys.Nodup)
    (h : P inner w.bound) :
    ∃ inner', (run ⟨inner ++ outer, w⟩ inside).opened = inner' ++ outer ∧ inner'.length = d ∧
      P inner' (run ⟨inner ++ outer, w⟩ inside).bound := by
  induction inside generalizing inner w with
  | nil => exact ⟨inner, rfl, Option.some.inj hlevels, h⟩
  | cons s rest ih =>
    have hrest : ∀ g inner b, .enter g ∈ rest → P inner b → P (g :: inner) (b.enter g.fields) :=
      fun g inner b hmem => henter g inner b (List.mem_cons_of_mem _ hmem)
    rw [run_cons]
    cases s with
    | enter g =>
      exact ih (g :: inner) hrest hlevels (Bound.nodup_enter g.fields hnodup)
        (henter g inner _ List.mem_cons_self h)
    | leave =>
      cases inner with
      | nil => cases hlevels
      | cons g inner =>
        exact ih inner hrest hlevels (Bound.nodup_leave g.fields hnodup)
          (hleave g inner _ hnodup h)
    | note entries => exact ih inner hrest hlevels hnodup h

/-- A key that no scope inside binds is bound as it was. -/
theorem run_keeps (hnodup : n.bound.keys.Nodup) (hlevels : levels 0 inside = some d)
    (hinside : ∀ s ∈ inside, ¬ s.Binds key) :
    (n.run inside).bound.get? key = n.bound.get? key := by
  have hstart : Bound.Spared key (n.bound.get? key) [] n.bound :=
    ⟨fun _ hmem => absurd hmem List.not_mem_nil, rfl⟩
  obtain ⟨inner, -, -, hkept⟩ := run_within (P := Bound.Spared key (n.bound.get? key)) []
    n.opened (fun g _ _ hmem h => h.enter (hinside _ hmem)) (fun _ _ _ hb h => h.leave hb)
    hlevels hnodup hstart
  exact hkept.2

/-- Behind whole scopes inside, the same scopes are open. -/
theorem opened_run (hnodup : n.bound.keys.Nodup) (hlevels : levels 0 inside = some 0) :
    (n.run inside).opened = n.opened := by
  obtain ⟨inner, hopened, hlength, -⟩ := run_within (P := fun _ _ => True) [] n.opened
    (fun _ _ _ _ _ => trivial) (fun _ _ _ _ _ => trivial) hlevels hnodup trivial
  obtain rfl := List.length_eq_zero_iff.mp hlength
  exact hopened

theorem levels_append (d : Nat) (first rest : List Step) :
    levels d (first ++ rest) = (levels d first).bind fun e => levels e rest := by
  fun_induction levels d first with
  | case1 d => rfl
  | case2 d f first ih => exact ih
  | case3 first => rfl
  | case4 d first ih => exact ih
  | case5 d entries first ih => exact ih

/-- A key that some scope inside has bound is bound no longer than one of those inside that
    bind it is open. -/
theorem run_covered (hnodup : n.bound.keys.Nodup) (hlevels : levels 0 inside = some d)
    (hinside : ∃ s ∈ inside, s.Binds key) :
    ∃ inner, (n.run inside).opened = inner ++ n.opened ∧ inner.length = d ∧
      Bound.Covered key inner (n.run inside).bound := by
  obtain ⟨s, hmem, hs⟩ := hinside
  cases s with
  | leave => exact hs.elim
  | note entries => exact hs.elim
  | enter g =>
    -- the scopes that were open before this one need not bind the key
    obtain ⟨first, rest, rfl⟩ := List.append_of_mem hmem
    rw [levels_append] at hlevels
    obtain ⟨e, hfirst, hrest⟩ := Option.bind_eq_some_iff.mp hlevels
    obtain ⟨inner, hopened, rfl, -⟩ := run_within (P := fun _ _ => True) [] n.opened
      (fun _ _ _ _ _ => trivial) (fun _ _ _ _ _ => trivial) hfirst hnodup trivial
    have hentered : (n.run (first ++ .enter g :: rest)) = run ⟨(g :: inner) ++ n.opened,
        ((n.run first).step (.enter g)).world⟩ rest := by
      rw [run, List.foldl_append, List.foldl_cons, List.cons_append, ← hopened]
      rfl
    rw [hentered]
    exact run_within (P := Bound.Covered key) (g :: inner) n.opened (fun g _ _ _ h => h.enter g)
      (fun _ _ _ hb h => h.leave hb) hrest (nodup_step (nodup_run hnodup first) (.enter g))
      fun _ => ⟨g, List.mem_cons_self, hs⟩

theorem step_leave {m : Nest} {outer : List Scope} (h : m.opened = f :: outer) :
    (m.step .leave).opened = outer ∧ (m.step .leave).bound = m.bound.leave f.fields := by
  obtain ⟨opened, w⟩ := m
  subst h
  exact ⟨rfl, rfl⟩

/-- Inside a scope its key is bound as it binds it, or by a scope inside that is still open;
    but it is free if there is none, and one that was left has bound it. -/
theorem carried (hnodup : n.bound.keys.Nodup) (hlevels : levels 0 inside = some d)
    (hget : f.fields.get? key = some v)
    (hopen : ∀ g ∈ ((n.step (.enter f)).run inside).opened.take d, key ∉ g.fields.keys) :
    ((n.step (.enter f)).run inside).bound.get? key =
      if ∀ s ∈ inside, ¬ s.Binds key then some v else none := by
  have hentered := nodup_step hnodup (.enter f)
  split
  · rename_i hinside
    rw [run_keeps hentered hlevels hinside]
    have henter := Bound.get?_enter f n.bound key
    rw [hget, Option.some_or] at henter
    exact henter
  · rename_i hinside
    push Not at hinside
    obtain ⟨inner, hopened, rfl, hcovered⟩ := run_covered hentered hlevels hinside
    rw [hopened, List.take_left] at hopen
    by_contra hbound
    obtain ⟨g, hmem, hkey⟩ := hcovered hbound
    exact hopen g hmem hkey

/-- Once a scope is left, the scopes around it are open. A key is bound as it was on entry if
    neither the scope nor one inside binds it, and free otherwise. -/
theorem restored (hnodup : n.bound.keys.Nodup) (hlevels : levels 0 inside = some 0) :
    (((n.step (.enter f)).run inside).step .leave).opened = n.opened ∧
      ∀ key, (((n.step (.enter f)).run inside).step .leave).bound.get? key =
        if key ∉ f.fields.keys ∧ ∀ s ∈ inside, ¬ s.Binds key then n.bound.get? key else none := by
  have hentered := nodup_step hnodup (.enter f)
  obtain ⟨hopened, hbound⟩ := step_leave (opened_run hentered hlevels)
  refine ⟨hopened, fun key => ?_⟩
  rw [hbound, Bound.get?_leave f.fields (nodup_run hentered inside)]
  by_cases hf : key ∈ f.fields.keys
  · rw [if_pos hf, if_neg fun h => h.1 hf]
  rw [if_neg hf]
  by_cases hinside : ∀ s ∈ inside, ¬ s.Binds key
  · rw [if_pos ⟨hf, hinside⟩, run_keeps hentered hlevels hinside]
    exact Bound.get?_enter_of_not_mem hf
  · rw [if_neg fun h => hinside h.2]
    push Not at hinside
    obtain ⟨inner, -, hlength, hcovered⟩ := run_covered hentered hlevels hinside
    obtain rfl := List.length_eq_zero_iff.mp hlength
    by_contra hstill
    obtain ⟨g, hmem, -⟩ := hcovered hstill
    cases hmem

end Nest

end ViewTree.Telemetry
