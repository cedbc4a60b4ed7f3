import ViewTree.Capability

/-
  ViewTree.Catalog — the built-in component library.

  Every entry is a capability: the props a component understands, the events it emits,
  and for containers the mount point of their children. The order of `Catalog.all` is
  the order of registration.
-/

namespace ViewTree.Catalog

/-! ## Props -/

def text : PropSpec := .ofKind "string"
def number : PropSpec := .ofKind "number"
def flag : PropSpec := .ofKind "boolean"
def list : PropSpec := .ofKind "array"
def anything : PropSpec := .ofKind "any"
def textOrNumber : PropSpec := .ofKinds ["string", "number"]
def numberOrText : PropSpec := .ofKinds ["number", "string"]

/-- One of several words, with a default. -/
def choice (default : String) (choices : List String) : PropSpec :=
  (text.oneOf choices).defaultsTo (.str default)

/-- A truth value with a default. -/
def switch (default : Bool) : PropSpec := flag.defaultsTo (.bool default)

/-- A note on the shape of the items of a list: objects with these properties. -/
def itemShape (properties : List (String × String)) : Fields :=
  [("items", .obj [("type", .str "object"),
    ("properties", .obj (properties.map fun (k, t) => (k, .obj [("type", .str t)])))])]

/-- A list of labelled values. -/
def options (description : String) : PropSpec :=
  { list.describedAs description with extras := itemShape [("label", "string"), ("value", "any")] }

def tabList : PropSpec :=
  { list.describedAs "Array of tab definitions" with
    extras := itemShape [("label", "string"), ("value", "string"), ("disabled", "boolean")] }

/-- The events of an editable field. -/
def fieldEvents : Fields :=
  [("valueChange", .str "Emits the new value"), ("change", .str "Emits the committed value"),
    ("blur", .str "Field lost focus")]

/-- An entry that takes no children and emits no events yet. -/
def entry (name : String) (category : Category) (description : String) : Capability where
  name := name
  description := description
  category := some category
  props := []
  events := []
  isContainer := false
  contentHost := none
  extras := []

/-! ## Form -/

def input : Capability :=
  { entry "input" .form
      "Text input field with label, placeholder, and validation" with
    props :=
      [("id", text.describedAs "Unique identifier"),
        ("type", choice "text" ["text", "email", "password", "number", "tel", "url"]),
        ("label", text.describedAs "Field label"),
        ("placeholder", text.describedAs "Placeholder text"),
        ("value", textOrNumber.describedAs "Current value"),
        ("disabled", switch false),
        ("required", switch false),
        ("pattern", text.describedAs "Regex pattern for validation"),
        ("error", text.describedAs "Error message")]
    events := fieldEvents }

def select : Capability :=
  { entry "select" .form
      "Dropdown select field with options" with
    props :=
      [("id", text.describedAs "Unique identifier"),
        ("label", text.describedAs "Field label"),
        ("placeholder", text.describedAs "Placeholder text"),
        ("value", anything.describedAs "Current value"),
        ("options", options "Array of options"),
        ("disabled", switch false),
        ("required", switch false),
        ("error", text.describedAs "Error message")]
    events := fieldEvents }

def checkbox : Capability :=
  { entry "checkbox" .form
      "Checkbox input with label" with
    props :=
      [("id", text.describedAs "Unique identifier"),
        ("label", text.describedAs "Field label"),
        ("checked", switch false),
        ("disabled", switch false),
        ("error", text.describedAs "Error message")]
    events := [("checkedChange", .str "Emits the checked state"), ("change", .str ""),
      ("blur", .str "")] }

def radio : Capability :=
  { entry "radio" .form
      "Radio button group with multiple options" with
    props :=
      [("id", text.describedAs "Unique identifier"),
        ("groupLabel", text.describedAs "Group label"),
        ("value", anything.describedAs "Currently selected value"),
        ("options", options "Array of radio options"),
        ("disabled", switch false),
        ("error", text.describedAs "Error message")]
    events := [("valueChange", .str "Emits the selected value"), ("change", .str "")] }

def textarea : Capability :=
  { entry "textarea" .form
      "Multi-line text input field" with
    props :=
      [("id", text.describedAs "Unique identifier"),
        ("label", text.describedAs "Field label"),
        ("placeholder", text.describedAs "Placeholder text"),
        ("value", text.describedAs "Current value"),
        ("rows", number.defaultsTo (.int 4)),
        ("cols", number.defaultsTo (.int 50)),
        ("maxLength", number.describedAs "Maximum character count"),
        ("disabled", switch false),
        ("required", switch false),
        ("error", text.describedAs "Error message")]
    events := fieldEvents }

def button : Capability :=
  { entry "button" .form
      "Interactive button with variants and states" with
    props :=
      [("label", text.describedAs "Button text"),
        ("type", choice "button" ["button", "submit", "reset"]),
        ("variant", choice "primary" ["primary", "secondary", "danger", "success"]),
        ("size", choice "medium" ["small", "medium", "large"]),
        ("disabled", switch false),
        ("loading", switch false)]
    events := [("click", .str "Button pressed")] }

/-! ## Layout -/

def container : Capability :=
  { entry "container" .layout
      "Container wrapper with max-width and variants" with
    props :=
      [("maxWidth", (number.defaultsTo (.int 1200)).describedAs "Max width in pixels"),
        ("variant", choice "default" ["default", "fluid", "card"])]
    isContainer := true
    contentHost := some "containerHost" }

def grid : Capability :=
  { entry "grid" .layout
      "CSS Grid layout component" with
    props :=
      [("columns",
          (numberOrText.defaultsTo (.int 1)).describedAs
            "Number of columns or grid template string"),
        ("gap", (number.defaultsTo (.int 16)).describedAs "Gap in pixels")]
    isContainer := true
    contentHost := some "gridHost" }

def card : Capability :=
  { entry "card" .layout
      "Card container with header, content, and footer" with
    props :=
      [("title", text.describedAs "Card title"),
        ("padding", (number.defaultsTo (.int 1)).describedAs "Padding in rem"),
        ("elevated", (switch true).describedAs "Add shadow"),
        ("footer", (switch false).describedAs "Show footer")]
    isContainer := true
    contentHost := some "cardContent" }

def tabs : Capability :=
  { entry "tabs" .layout
      "Tabbed interface, one child per tab panel" with
    props :=
      [("tabs", tabList),
        ("defaultTab", text.describedAs "Default active tab"),
        ("selectionMode", choice "follow" ["follow", "explicit"]),
        ("orientation", choice "horizontal" ["horizontal", "vertical"])]
    events := [("tabChange", .str "Emits the active tab value")]
    isContainer := true
    contentHost := some "tabsHost" }

def accordion : Capability :=
  { entry "accordion" .layout
      "Expandable/collapsible sections" with
    props :=
      [("items", list.describedAs "Array of accordion items"),
        ("multiExpandable", (switch true).describedAs "Allow multiple panels open")]
    isContainer := true
    contentHost := some "accordionHost" }

def flexbox : Capability :=
  { entry "flexbox" .layout
      "Flexbox layout component" with
    props :=
      [("direction", choice "column" ["row", "column", "row-reverse", "column-reverse"]),
        ("alignItems", choice "stretch" ["stretch", "flex-start", "center", "flex-end",
          "baseline"]),
        ("justifyContent", choice "flex-start" ["flex-start", "center", "flex-end",
          "space-between", "space-around", "space-evenly"]),
        ("wrap", choice "nowrap" ["nowrap", "wrap", "wrap-reverse"]),
        ("gap", numberOrText.defaultsTo (.int 0)),
        ("padding", numberOrText.defaultsTo (.int 0))]
    isContainer := true
    contentHost := some "flexHost" }

/-! ## Data display -/

def table : Capability :=
  { entry "table" .dataDisplay
      "Data table with striping and borders" with
    props :=
      [("columns", list.describedAs "Column definitions"),
        ("data", list.describedAs "Table data rows"),
        ("striped", switch true),
        ("bordered", switch true),
        ("hoverable", switch true)]
    events := [("rowClick", .str "Emits the clicked row")] }

def listView : Capability :=
  { entry "list" .dataDisplay
      "List component with items and descriptions" with
    props :=
      [("items", list.describedAs "Array of list items"),
        ("styled", switch true)]
    events := [("itemClick", .str "Emits the clicked item")] }

def listbox : Capability :=
  { entry "listbox" .dataDisplay
      "Accessible listbox with keyboard navigation and selection" with
    props :=
      [("options", options "Array of listbox options"),
        ("label", text.describedAs "Listbox label"),
        ("multi", (switch false).describedAs "Allow multiple selection"),
        ("orientation", choice "vertical" ["vertical", "horizontal"]),
        ("selectionMode", choice "explicit" ["follow", "explicit"])]
    events := [("selectionChange", .str "Emits the selected values")] }

def basicChart : Capability :=
  { entry "basic-chart" .dataDisplay
      "Basic chart component with bar, line, and pie charts" with
    props :=
      [("data", list.describedAs "Chart data points"),
        ("title", text.describedAs "Chart title"),
        ("type", choice "bar" ["bar", "line", "pie"]),
        ("width", number.defaultsTo (.int 400)),
        ("height", number.defaultsTo (.int 300))] }

/-! ## Typography -/

def heading : Capability :=
  { entry "heading" .typography
      "Heading text with configurable level" with
    props :=
      [("text", text.describedAs "Heading text"),
        ("level", (number.defaultsTo (.int 2)).describedAs "Heading level (1-6)"),
        ("ariaLabel", text.describedAs "Accessibility label")] }

def paragraph : Capability :=
  { entry "paragraph" .typography
      "Paragraph text" with
    props :=
      [("text", text.describedAs "Paragraph text"),
        ("ariaLabel", text.describedAs "Accessibility label")] }

def divider : Capability :=
  { entry "divider" .typography
      "Horizontal divider line" with
    props :=
      [("ariaLabel", text.describedAs "Accessibility label")] }

/-! ## Navigation -/

def wizardStepper : Capability :=
  { entry "wizard-stepper" .navigation
      "Multi-step wizard with stepper UI" with
    props :=
      [("steps", list.describedAs "Array of wizard steps")]
    events := [("stepChange", .str "Emits the new step index"), ("back", .str ""),
      ("next", .str ""), ("finish", .str "")] }

def menu : Capability :=
  { entry "menu" .navigation
      "Dropdown menu with keyboard navigation and groups" with
    props :=
      [("actions", list.describedAs "Array of menu actions"),
        ("triggerLabel", (text.defaultsTo (.str "Menu")).describedAs "Trigger button text")]
    events := [("actionSelected", .str "Emits the chosen action value")] }

def toolbar : Capability :=
  { entry "toolbar" .navigation
      "Accessible toolbar with keyboard navigation" with
    props :=
      [("orientation", choice "horizontal" ["horizontal", "vertical"]),
        ("ariaLabel", (text.defaultsTo (.str "Toolbar")).describedAs "Accessible label")]
    isContainer := true
    contentHost := some "toolbarHost" }

/-! ## Errors -/

def errorView : Capability :=
  { entry "error" .error
      "Error display with retry and reporting options" with
    props :=
      [("title", text.describedAs "Error title"),
        ("message", text.describedAs "Error message"),
        ("details", text.describedAs "Detailed error information"),
        ("dismissible", switch true),
        ("visible", switch true)]
    events := [("retry", .str ""), ("tryDifferent", .str ""), ("reportIssue", .str ""),
      ("close", .str "")] }

/-- The library, in the order of registration. -/
def all : List Capability :=
  [input, select, checkbox, radio, textarea, button, container, grid, card, tabs, accordion,
    flexbox, table, listView, listbox, basicChart, heading, paragraph, divider, wizardStepper,
    menu, toolbar, errorView]

end ViewTree.Catalog
