import ViewTree.Live.Shown

/-
  ViewTree.Live.Refresh — refreshing live instances.

  A refresh is counted and then makes the mount points of the instance appear: the
  content host of a container with its first refresh, the panels of tabs as their tab
  list grows, those of a spread as its class wants them. Refreshing a destroyed instance
  fails, and so may the class of an instance of itself, at the beginning and at the end. A
  refresh that fails keeps what it had done until then.
-/

namespace ViewTree.Live.Store

/-- Makes the content host of an instance appear where nothing stands in its place. -/
def showContent (s : Store) (i : InstanceId) (x : Instance) (name : String) : Store :=
  if (s.mount? i name).isSome then s
  else
    let (h, s) := s.newHost (s.typeText x ++ "." ++ name)
    s.updateInstance i fun x =>
      { x with content := some h, attributes := Fields.erase name x.attributes }

/-- Adds panels, named by their number, until there are as many as wanted. -/
def addPanels (s : Store) (i : InstanceId) (label : String) (start : Nat) : Nat → Store
  | 0 => s
  | more + 1 =>
    let (h, s) := s.newHost (label ++ toString start)
    (s.updateInstance i fun x => { x with panels := x.panels ++ [h] }).addPanels i label
      (start + 1) more

/-- How many panels the tab list of an instance asks for. -/
def tabCount (x : Instance) : Except Failure Nat :=
  match x.hidden? .inputs with
  | some m => .error (.noAttribute m.typeName "get")
  | none =>
    match (x.inputs.get? "tabs").filter Json.truthy with
    | none => .ok 0
    | some v =>
      match v.count? with
      | some n => .ok n
      | none => .error (.notCountable v.typeName)

/-- How many panels the tab list of an instance of a store asks for. -/
def tabCountOf (s : Store) (i : InstanceId) : Except Failure Nat :=
  ((s.instances[i]?).map tabCount).getD (.ok 0)

/-- Makes the mount points of an instance appear where they can be looked for. -/
def showOffered (s : Store) (i : InstanceId) (x : Instance) : Attempt :=
  match x.blueprint.shape with
  | .leaf => (s, .ok ())
  | .bare => (s, .ok ())
  | .container name => (s.showContent i x name, .ok ())
  | .tabs name =>
    let s := s.showContent i x name
    match s.tabCountOf i with
    | .error f => (s, .error f)
    | .ok n => (s.addPanels i "tabs.panel" x.panels.length (n - x.panels.length), .ok ())
  | .spread name label wanted =>
    let s := s.showContent i x name
    (s.addPanels i label x.panels.length (wanted x.own - x.panels.length), .ok ())

/-- Makes the mount points of an instance appear, after the refresh was counted. -/
def showMounts (s : Store) (i : InstanceId) (x : Instance) : Attempt :=
  match x.contentFault? with
  | some f => (s, .error f)
  | none => s.showOffered i x

/-- Whether an instance counts as destroyed; what stands in the place of the mark decides
    where there is something. -/
def isGone (s : Store) (x : Instance) : Bool :=
  match x.hidden? .destroyed with
  | none => x.destroyed
  | some .vacant => false
  | some (.host h) => !(s.mounted h).isEmpty
  | some (.value v) => v.truthy
  | some _ => true

/-- Counts a refresh. -/
def countCheck (s : Store) (i : InstanceId) (x : Instance) : Attempt :=
  match x.hidden? .checks with
  | some m => (s, .error (.notAddable m.typeName))
  | none => (s.updateInstance i fun x => { x with checks := x.checks + 1 }, .ok ())

/-- How the class of an instance lets a refresh end, by what the instance held when it
    began. -/
def refreshEnd (x : Instance) : Except Failure Unit :=
  match x.blueprint.hooks.refreshed x.own with
  | some f => .error f
  | none => .ok ()

/-- Refreshes an instance. A failed refresh keeps what it had done. -/
def refresh (s : Store) (i : InstanceId) : Attempt :=
  match s.instances[i]? with
  | none => (s, .ok ())
  | some x =>
    match x.blocked? .refresh with
    | some f => (s, .error f)
    | none =>
      match x.blueprint.hooks.refresh x.own with
      | some f => (s, .error f)
      | none =>
        if x.isBare then (s, .ok ())
        else if s.isGone x then (s, .error (.usedAfterDestroy (s.typeText x)))
        else
          andThen (s.countCheck i x) fun s =>
            andThen (s.showMounts i x) fun s => (s, refreshEnd x)

end ViewTree.Live.Store
