import ViewTree.Registry

/-
  ViewTree.Proofs.Registry.Built — registries as registrations and removals make them.

  A registry begins empty, and changes only when a registration succeeds or a type is
  removed (`Built`). Nothing is ever registered under the empty type then
  (`Built.type_ne_empty`). The built-in library is such a registry (`built_library`), and
  what is found in it is an entry of the catalog (`library_get?`).
-/

namespace ViewTree.Registry

open Live

/-- An entry bears the type it is found under. -/
theorem type_of_get? {r : Registry} {type : String} {entry : RegistryEntry}
    (h : r.get? type = some entry) : entry.type = type := by
  rw [get?] at h
  have htype := List.find?_some h
  exact of_decide_eq_true htype

theorem mem_putEntry {entry e : RegistryEntry} {entries : List RegistryEntry}
    (hmem : e ∈ putEntry entry entries) : e = entry ∨ e ∈ entries := by
  induction entries with
  | nil => exact .inl (List.mem_singleton.mp hmem)
  | cons first rest ih =>
    rw [putEntry] at hmem
    split at hmem
    · exact (List.mem_cons.mp hmem).imp_right (List.mem_cons_of_mem _)
    · rcases List.mem_cons.mp hmem with rfl | hmem
      · exact .inr List.mem_cons_self
      · exact (ih hmem).imp_right (List.mem_cons_of_mem _)

/-- The registries that registrations and removals lead to. -/
inductive Built : Registry → Prop where
  | empty : Built empty
  | register {r r' : Registry} {type : String} {factory : Factory} {c : Capability}
      {replaced : Bool} (before : Built r)
      (done : r.registerValid type factory c = .ok (replaced, r')) : Built r'
  | unregister {r : Registry} (type : String) (before : Built r) : Built (r.unregister type).2

/-- What a successful registration comes to. -/
theorem registerValid_eq_ok_iff {r r' : Registry} {type : String} {factory : Factory}
    {c : Capability} {replaced : Bool} :
    r.registerValid type factory c = .ok (replaced, r') ↔
      type ≠ "" ∧ factory.isCallable = true ∧ replaced = r.has type ∧
        r' = r.put ⟨type, factory, c⟩ := by
  unfold registerValid
  by_cases htype : type = ""
  · simp [htype]
  · by_cases hcallable : factory.isCallable = true
    · simp [htype, hcallable, eq_comm]
    · simp [htype, hcallable]

/-- Nothing is registered under the empty type. -/
theorem Built.entry_type_ne_empty {r : Registry} (h : Built r) :
    ∀ e ∈ r.entries, e.type ≠ "" := by
  induction h with
  | empty => exact fun e hmem => absurd hmem List.not_mem_nil
  | register _ done ih =>
    obtain ⟨htype, -, -, rfl⟩ := registerValid_eq_ok_iff.mp done
    intro e hmem
    rcases mem_putEntry hmem with rfl | hmem
    · exact htype
    · exact ih e hmem
  | unregister _ _ ih => exact fun e hmem => ih e (List.mem_of_mem_eraseP hmem)

theorem Built.type_ne_empty {r : Registry} {type : String} {c : Capability} (h : Built r)
    (hc : r.capability? type = some c) : type ≠ "" := by
  obtain ⟨entry, hentry, -⟩ := Option.map_eq_some_iff.mp hc
  rw [← type_of_get? hentry]
  exact h.entry_type_ne_empty entry (List.mem_of_find?_eq_some hentry)

/-! ## The built-in library -/

theorem mem_foldl_put (capabilities : List Capability) {r : Registry} {e : RegistryEntry}
    (hmem : e ∈ (capabilities.foldl (fun r c => r.put (libraryEntry c)) r).entries) :
    e ∈ r.entries ∨ ∃ c ∈ capabilities, e = libraryEntry c := by
  induction capabilities generalizing r with
  | nil => exact .inl hmem
  | cons c rest ih =>
    rcases ih hmem with hmem | ⟨c', hc', heq⟩
    · rcases mem_putEntry hmem with heq | hmem
      · exact .inr ⟨c, List.mem_cons_self, heq⟩
      · exact .inl hmem
    · exact .inr ⟨c', List.mem_cons_of_mem _ hc', heq⟩

/-- What is registered under a type in the library is the library's capability of that name,
    with the reference factory. -/
theorem library_get? {type : String} {entry : RegistryEntry}
    (h : library.get? type = some entry) :
    ∃ c ∈ Catalog.all, c.name = type ∧ entry = libraryEntry c := by
  have htype := type_of_get? h
  rw [library, get?] at h
  rcases mem_foldl_put Catalog.all (List.mem_of_find?_eq_some h) with hmem | ⟨c, hc, rfl⟩
  · exact absurd hmem List.not_mem_nil
  · exact ⟨c, hc, htype, rfl⟩

theorem library_capability? {type : String} {c : Capability}
    (h : library.capability? type = some c) : c ∈ Catalog.all ∧ c.name = type := by
  obtain ⟨entry, hentry, rfl⟩ := Option.map_eq_some_iff.mp h
  obtain ⟨c, hc, hname, rfl⟩ := library_get? hentry
  exact ⟨hc, hname⟩

theorem Built.put_library {capabilities : List Capability} {r : Registry} (h : Built r)
    (hnames : ∀ c ∈ capabilities, c.name ≠ "") :
    Built (capabilities.foldl (fun r c => r.put (libraryEntry c)) r) := by
  induction capabilities generalizing r with
  | nil => exact h
  | cons c rest ih =>
    obtain ⟨hname, hnames⟩ := List.forall_mem_cons.mp hnames
    exact ih (h.register (registerValid_eq_ok_iff.mpr ⟨hname, rfl, rfl, rfl⟩)) hnames

theorem built_library : Built library :=
  Built.empty.put_library (by decide)

end ViewTree.Registry
