import ViewTree.Catalog
import ViewTree.Live.Blueprint
import ViewTree.Telemetry.Journal

/-
  ViewTree.Registry — component types with their factories and capabilities.

  The registry is a map that keeps the order of registration: registering a type again
  replaces its entry in place, removing it gives up the place. A failed registration
  changes nothing.
-/

namespace ViewTree

structure RegistryEntry where
  type : String
  factory : Live.Factory
  capability : Capability

/-- What a rejected entry is called. -/
def RegistryEntry.model : String := "RegisteredComponent"

def RegistryEntry.readFactory (factory : Live.Factory) : Checked Live.Factory :=
  if factory.isCallable then .ok factory else Field.fail .notCallable

/-- An entry with a type and a capability given as values. The capability is looked at
    before the other parts. -/
def RegistryEntry.ofParts (type : Json) (factory : Live.Factory) (capability : Json) :
    Except Rejection RegistryEntry :=
  match Capability.ofJson capability with
  | .error rejection => .error rejection
  | .ok c =>
    match Field.both (Field.under "type" (Field.text type))
        (Field.under "factory" (readFactory factory)) with
    | .ok (type, factory) => .ok ⟨type, factory, c⟩
    | .error faults => .error ⟨RegistryEntry.model, faults⟩

structure Registry where
  entries : List RegistryEntry

/-- Why a component type was not registered. -/
inductive RegistryFault where
  | emptyType
  | notCallable (type : String)
  | badCapability (type : String) (rejection : Rejection)
  /-- The type is a list or an object, which cannot be looked up. -/
  | unhashable (typeName : String)
  | badEntry (rejection : Rejection)
deriving DecidableEq, Repr

def RegistryFault.message : RegistryFault → String
  | .emptyType => "Component type must be a non-empty string"
  | .notCallable type => "Factory for '" ++ type ++ "' is not callable"
  | .badCapability type rejection => "Invalid capability for '" ++ type ++ "': " ++ rejection.text
  | .unhashable typeName => "unhashable type: '" ++ typeName ++ "'"
  | .badEntry rejection => rejection.text

/-- The kind of a fault, as it is reported. -/
def RegistryFault.kind : RegistryFault → String
  | .emptyType => "RegistryError"
  | .notCallable _ => "RegistryError"
  | .badCapability _ _ => "RegistryError"
  | .unhashable _ => "TypeError"
  | .badEntry _ => "ValidationError"

namespace Registry

open Telemetry

def empty : Registry := ⟨[]⟩

def source : String := "genui.components.registry"
def catalogSource : String := "genui.components.catalog"

/-! ## Looking up -/

def get? (r : Registry) (type : String) : Option RegistryEntry :=
  r.entries.find? fun e => e.type = type

def has (r : Registry) (type : String) : Bool := (r.get? type).isSome

def capability? (r : Registry) (type : String) : Option Capability :=
  (r.get? type).map RegistryEntry.capability

def types (r : Registry) : List String := r.entries.map RegistryEntry.type

def size (r : Registry) : Nat := r.entries.length

/-- The capabilities of a category, in order. -/
def inCategory (r : Registry) (category : Category) : List Capability :=
  (r.entries.map RegistryEntry.capability).filter fun c => c.category = some category

/-! ## Changing -/

/-- Replaces the entry of a type in place, or appends a new one. -/
def putEntry (entry : RegistryEntry) : List RegistryEntry → List RegistryEntry
  | [] => [entry]
  | e :: rest => if e.type = entry.type then entry :: rest else e :: putEntry entry rest

def put (r : Registry) (entry : RegistryEntry) : Registry := ⟨putEntry entry r.entries⟩

/-- Registers a type with a valid capability; tells whether an entry was replaced. -/
def registerValid (r : Registry) (type : String) (factory : Live.Factory)
    (capability : Capability) : Except RegistryFault (Bool × Registry) :=
  if type = "" then .error .emptyType
  else if !factory.isCallable then .error (.notCallable type)
  else .ok (r.has type, r.put ⟨type, factory, capability⟩)

/-- The type that a value stands for when it is looked up. A list or an object cannot be
    looked up; other values that are no texts stand for the empty type, which is never
    registered. -/
def key (type : Json) : Except RegistryFault String :=
  match type with
  | .str s => .ok s
  | .arr _ => .error (.unhashable type.typeName)
  | .obj _ => .error (.unhashable type.typeName)
  | _ => .ok ""

/-- Why a value that is no text cannot be registered as a type. -/
def badType (type : Json) : RegistryFault :=
  match key type with
  | .error fault => fault
  | .ok _ => .badEntry ⟨RegistryEntry.model, [⟨["type"], .notText⟩]⟩

/-- Registers a type with a capability, both given as values. -/
def register (r : Registry) (type : Json) (factory : Live.Factory) (capability : Json) :
    Except RegistryFault (Bool × Registry) :=
  if !type.truthy then .error .emptyType
  else if !factory.isCallable then .error (.notCallable type.shown)
  else
    match Capability.ofJson capability with
    | .error rejection => .error (.badCapability type.shown rejection)
    | .ok c =>
      match type with
      | .str type => r.registerValid type factory c
      | _ => .error (badType type)

/-- What a registration reports. -/
def registered (type : String) (replaced : Bool) : Journal :=
  if replaced then [.warning source "component_replaced" [("type", .str type)]] else []

/-- Registers entries in order, up to the first that fails. -/
def registerAll (r : Registry) : List RegistryEntry → Registry × Journal × Option RegistryFault
  | [] => (r, [], none)
  | e :: rest =>
    match r.registerValid e.type e.factory e.capability with
    | .error fault => (r, [], some fault)
    | .ok (replaced, r') =>
      let (last, journal, fault) := registerAll r' rest
      (last, registered e.type replaced ++ journal, fault)

/-- Removes a type; tells whether it was there. -/
def unregister (r : Registry) (type : String) : Bool × Registry :=
  (r.has type, ⟨r.entries.eraseP fun e => e.type = type⟩)

/-- What a removal reports. -/
def unregistered (type : String) (removed : Bool) : Journal :=
  if removed then [.info source "component_unregistered" [("type", .str type)]] else []

/-! ## Statistics -/

structure Stats where
  total : Nat
  containers : Nat
  /-- The number of entries per category, in the order of their first occurrence. -/
  categories : List (String × Nat)

def uncategorized : String := "uncategorized"

def countOne (name : String) : List (String × Nat) → List (String × Nat)
  | [] => [(name, 1)]
  | (k, n) :: rest => if k = name then (k, n + 1) :: rest else (k, n) :: countOne name rest

def stats (r : Registry) : Stats where
  total := r.size
  containers := r.entries.countP fun e => e.capability.isContainer
  categories := r.entries.foldl (fun acc e =>
    countOne ((e.capability.category.map Category.name).getD uncategorized) acc) []

/-! ## The built-in library -/

/-- The entry of a library capability. -/
def libraryEntry (c : Capability) : RegistryEntry := ⟨c.name, .make (.ofCapability c), c⟩

/-- The registry that holds the library and nothing else. -/
def library : Registry := Catalog.all.foldl (fun r c => r.put (libraryEntry c)) empty

/-- What registering the library reports. -/
def libraryRegistered (r : Registry) : Entry :=
  .info catalogSource "library_registered" [("components", .int r.size)]

end Registry

end ViewTree
