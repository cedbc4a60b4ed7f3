/-
  ViewTree.Patch.Path — paths into a document.

  A path is a text of segments, each after a slash. Empty segments do not count, so
  slashes may be doubled or left out at the ends. Inside a segment `~1` stands for a
  slash and `~0` for a tilde.
-/

namespace ViewTree.Patch

/-- The pieces between the slashes of a text. -/
def splitSlashes : List Char → List (List Char)
  | [] => [[]]
  | c :: r =>
    if c = '/' then [] :: splitSlashes r
    else
      match splitSlashes r with
      | [] => [[c]]
      | piece :: rest => (c :: piece) :: rest

/-- Every occurrence of the two characters `a b`, from the left, as `c`. -/
def replacePair (a b c : Char) : List Char → List Char
  | [] => []
  | [x] => [x]
  | x :: y :: r =>
    if x = a ∧ y = b then c :: replacePair a b c r else x :: replacePair a b c (y :: r)

/-- A segment with its escapes resolved; slashes come first. -/
def unescape (segment : List Char) : List Char :=
  replacePair '~' '0' '~' (replacePair '~' '1' '/' segment)

/-- The segments of a path. -/
def parsePath (path : String) : List String :=
  ((splitSlashes path.toList).filter (!·.isEmpty)).map fun piece => String.ofList (unescape piece)

example : parsePath "//a~1b/~01/" = ["a/b", "~1"] := by decide +kernel

end ViewTree.Patch
