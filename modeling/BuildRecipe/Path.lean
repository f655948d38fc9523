/-!
# Paths

A path is a text; its components are read off it: a leading slash is the root, empty
segments and `.` segments are skipped except a `.` that begins a relative path, and
`..` is the parent. Joining a relative path appends it after a slash, and joining an
absolute path replaces. Paths are ordered by their components, the root before `.`,
`.` before `..`, and those before names, names by their characters. The lexical form
drops `.` and lets `..` remove the last component (the root and the empty path stay).
Main statement: the components of a path start with themselves.
-/

namespace BuildRecipe

/-- One component of a path. -/
inductive Component where
  | root
  | current
  | parent
  | normal (name : String)
  deriving DecidableEq, Repr, Inhabited

namespace Component

/-- The text of a component. -/
def text : Component → String
  | root => "/"
  | current => "."
  | parent => ".."
  | normal n => n

/-- The rank of a component's kind in the order of paths. -/
def rank : Component → Nat
  | root => 0
  | current => 1
  | parent => 2
  | normal _ => 3

/-- Components in path order. -/
def lt (a b : Component) : Bool :=
  match a, b with
  | normal x, normal y => decide (x < y)
  | _, _ => a.rank < b.rank

end Component

namespace Path

/-- The segments between slashes. -/
def segments (s : String) : List String := (s.toList.splitOn '/').map String.ofList

/-- The components of a path. -/
def components (s : String) : List Component :=
  let cs := s.toList
  let absolute := cs.head? == some '/'
  let segs := segments s
  let named := segs.filterMap fun seg =>
    if seg = "" ∨ seg = "." then none
    else if seg = ".." then some Component.parent
    else some (Component.normal seg)
  let leadingDot := !absolute && (segs.head? == some ".")
  (if absolute then [Component.root] else []) ++ (if leadingDot then [Component.current] else []) ++
    named

/-- Whether the path starts at the root. -/
def isAbsolute (s : String) : Bool := s.toList.head? == some '/'

/-- The path `rel` taken from `base`: `rel` itself when it is absolute, else `base`, a
slash unless `base` is empty or ends in one, and `rel`. -/
def join (base rel : String) : String :=
  if isAbsolute rel then rel
  else if base.isEmpty || base.toList.getLast? == some '/' then base ++ rel
  else base ++ "/" ++ rel

/-- The text of a list of components, joined as a path. -/
def ofComponents : List Component → String
  | [] => ""
  | Component.root :: rest => "/" ++ "/".intercalate (rest.map Component.text)
  | cs => "/".intercalate (cs.map Component.text)

/-- The components joined by slashes, the root written as a slash of its own. -/
def slashJoined (cs : List Component) : String := "/".intercalate (cs.map Component.text)

/-- The lexical form: `.` dropped, `..` removing the last component. -/
def lexical (s : String) : List Component :=
  (components s).foldl (fun acc c =>
    match c with
    | Component.current => acc
    | Component.parent =>
      match acc.getLast? with
      | some (Component.normal _) => acc.dropLast
      | _ => acc
    | other => acc ++ [other]) []

/-- Whether the components of `base` begin the components of `p`. -/
def startsWith (p base : List Component) : Bool := base.isPrefixOf p

/-- The components of `p` after those of `base`, if `base` begins `p`. -/
def stripPrefix? (p base : List Component) : Option (List Component) :=
  if base.isPrefixOf p then some (p.drop base.length) else none

/-- Paths in the order of their components. -/
def lt (a b : String) : Bool :=
  let rec go : List Component → List Component → Bool
    | [], [] => false
    | [], _ :: _ => true
    | _ :: _, [] => false
    | x :: xs, y :: ys => if x == y then go xs ys else Component.lt x y
  go (components a) (components b)

/-- The path without its last component, if it has one below the root. -/
def parent? (s : String) : Option String :=
  match (components s).reverse with
  | [] => none
  | [Component.root] => none
  | _ :: rest => some (ofComponents rest.reverse)

/-- The last component, if it is a name. -/
def fileName? (s : String) : Option String :=
  match (components s).getLast? with
  | some (Component.normal n) => some n
  | _ => none

/-- The text of `p` relative to `base`: the components after those of `base` when `base`
begins `p`, else all of them, joined by slashes (a leftover root gives a leading `//`). -/
def relativeText (base p : String) : String :=
  let cs := components p
  slashJoined ((stripPrefix? cs (components base)).getD cs)

/-- The component each segment of a path text stands for, if any. -/
def segmentComponents (s : String) : List (String × Option Component) :=
  let absolute := isAbsolute s
  (segments s).zipIdx.map fun (seg, i) =>
    if i = 0 ∧ absolute then (seg, some Component.root)
    else if i = 0 ∧ seg = "." then (seg, some Component.current)
    else if seg = "" ∨ seg = "." then (seg, none)
    else if seg = ".." then (seg, some Component.parent)
    else (seg, some (Component.normal seg))

/-- Whether a segment stands for no component of its own. -/
def isFiller (seg : String) : Bool := seg == "" || seg == "."

/-- The rest of `p` after the components of `base`, as it is written there (leading and
trailing empty and `.` segments dropped), when `base`'s components begin `p`'s. -/
def stripPrefixText? (p base : String) : Option String :=
  let want := components base
  let rec go : List Component → List (String × Option Component) → Option (List String)
    | [], rest => some (rest.map (·.1))
    | c :: cs, (_, none) :: rest => go (c :: cs) rest
    | c :: cs, (_, some d) :: rest => if c == d then go cs rest else none
    | _ :: _, [] => none
  (go want (segmentComponents p)).map fun segs =>
    "/".intercalate (((segs.dropWhile isFiller).reverse.dropWhile isFiller).reverse)

theorem startsWith_refl (p : List Component) : startsWith p p = true := by
  simp [startsWith]

end Path

end BuildRecipe
