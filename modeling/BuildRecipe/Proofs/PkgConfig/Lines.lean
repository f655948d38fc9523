import Mathlib.Data.List.TakeWhile
/-!
# pkg-config files, line by line

pkg-config reads its files line by line (`PkgConfig.readLines`): an empty line is blank, a
name followed by `=` defines a variable as the rest of the line, and a name followed by a colon
and a blank is a keyword line such as `Name: fm`. A value refers to a variable as `${name}`
(`PkgConfig.references`), and the variable must be defined on an earlier line; pkg-config defines
`pcfiledir` itself, so the references left undefined are those `PkgConfig.undefinedReferences`
finds from the names it is given.

Main statements: lines whose names are names and whose values hold no newline are read back from
their text (`readLines_render`), while no value read off a text holds a newline
(`newline_not_mem_value`); texts whose references close inside them give their references in
order when joined (`scanReferences_intercalate`); and lines that refer only to known variables
leave nothing undefined (`undefinedReferences_eq_nil`).
-/

namespace BuildRecipe

namespace PkgConfig

/-- A line of a pkg-config file. -/
inductive Line where
  | blank
  | definition (name value : String)
  | field (key value : String)
  | other (text : String)
  deriving DecidableEq, Repr

/-- The characters of the name of a variable or a keyword. -/
def isNameChar (c : Char) : Bool := c.isAlphanum || c == '_' || c == '.'

/-- How one line is read: a run of name characters followed by `=` defines that variable as the
rest of the line, followed by a colon and a blank it is the keyword line of that name; an empty
line is blank. -/
def readLine (l : List Char) : Line :=
  let name := l.takeWhile isNameChar
  match l.dropWhile isNameChar with
  | '=' :: value =>
    if name = [] then .other (String.ofList l) else .definition (String.ofList name) (String.ofList value)
  | ':' :: ' ' :: value =>
    if name = [] then .other (String.ofList l) else .field (String.ofList name) (String.ofList value)
  | _ => if l = [] then .blank else .other (String.ofList l)

/-- The lines of a text: the pieces between its newlines, less the empty piece after a newline
that ends the text. -/
def lines (cs : List Char) : List (List Char) :=
  let pieces := cs.splitOn '\n'
  if pieces.getLast? = some [] then pieces.dropLast else pieces

/-- A text read line by line. -/
def readLines (text : String) : List Line := (lines text.toList).map readLine

namespace Line

/-- The text of a line. -/
def text : Line → List Char
  | blank => []
  | definition name value => (name ++ "=" ++ value).toList
  | field key value => (key ++ ": " ++ value).toList
  | other t => t.toList

/-- The variable a line defines, with its value. -/
def definition? : Line → Option (String × String)
  | definition name value => some (name, value)
  | _ => none

/-- The keyword of a keyword line, with its value. -/
def field? : Line → Option (String × String)
  | field key value => some (key, value)
  | _ => none

/-- The value of a line: what a definition or a keyword line gives, or the whole text of a line
that is neither. -/
def value : Line → String
  | blank => ""
  | definition _ v | field _ v => v
  | other t => t

end Line

/-- The text of lines, each ended by a newline. -/
def render (ls : List Line) : List Char := (ls.map fun l => l.text ++ ['\n']).flatten

@[simp] theorem render_nil : render [] = [] := rfl

@[simp] theorem render_cons (l : Line) (ls : List Line) :
    render (l :: ls) = l.text ++ '\n' :: render ls := by
  simp [render]

@[simp] theorem render_append (ls ls' : List Line) : render (ls ++ ls') = render ls ++ render ls' := by
  simp [render]

/-- The variables defined by lines, with their values, in order. -/
def definedVariables (ls : List Line) : List (String × String) := ls.filterMap Line.definition?

/-- The keyword lines, as keywords with their values, in order. -/
def keywords (ls : List Line) : List (String × String) := ls.filterMap Line.field?

@[simp] theorem definedVariables_append (ls ls' : List Line) :
    definedVariables (ls ++ ls') = definedVariables ls ++ definedVariables ls' :=
  List.filterMap_append

@[simp] theorem keywords_append (ls ls' : List Line) :
    keywords (ls ++ ls') = keywords ls ++ keywords ls' :=
  List.filterMap_append

@[simp] theorem definedVariables_blank (ls : List Line) :
    definedVariables (.blank :: ls) = definedVariables ls := rfl

@[simp] theorem keywords_blank (ls : List Line) : keywords (.blank :: ls) = keywords ls := rfl

@[simp] theorem definedVariables_definition (n v : String) (ls : List Line) :
    definedVariables (.definition n v :: ls) = (n, v) :: definedVariables ls := rfl

@[simp] theorem keywords_definition (n v : String) (ls : List Line) :
    keywords (.definition n v :: ls) = keywords ls := rfl

@[simp] theorem definedVariables_field (k v : String) (ls : List Line) :
    definedVariables (.field k v :: ls) = definedVariables ls := rfl

@[simp] theorem keywords_field (k v : String) (ls : List Line) :
    keywords (.field k v :: ls) = (k, v) :: keywords ls := rfl

@[simp] theorem definedVariables_nil : definedVariables [] = [] := rfl

@[simp] theorem keywords_nil : keywords [] = [] := rfl

@[simp] theorem definedVariables_map_definition (vs : List (String × String)) :
    definedVariables (vs.map fun v => .definition v.1 v.2) = vs := by
  induction vs <;> simp_all

@[simp] theorem keywords_map_definition (vs : List (String × String)) :
    keywords (vs.map fun v => .definition v.1 v.2) = [] := by
  induction vs <;> simp_all

@[simp] theorem definedVariables_map_field (ks : List (String × String)) :
    definedVariables (ks.map fun k => .field k.1 k.2) = [] := by
  induction ks <;> simp_all

@[simp] theorem keywords_map_field (ks : List (String × String)) :
    keywords (ks.map fun k => .field k.1 k.2) = ks := by
  induction ks <;> simp_all

-- ============================================================================
-- References
-- ============================================================================

/-- The names a text refers to, read from outside a reference (`none`) or from inside one whose
name so far is `some acc`, reversed: `${` opens a reference and the next `}` closes it; one left
open runs to the end of the text. -/
def scanReferences : Option (List Char) → List Char → List String
  | none, '$' :: '{' :: rest => scanReferences (some []) rest
  | none, _ :: rest => scanReferences none rest
  | none, [] => []
  | some acc, '}' :: rest => String.ofList acc.reverse :: scanReferences none rest
  | some acc, c :: rest => scanReferences (some (c :: acc)) rest
  | some acc, [] => [String.ofList acc.reverse]

/-- The names of the variables a value refers to, in order. -/
def references (v : String) : List String := scanReferences none v.toList

/-- The variables a line refers to: those of the value of a definition or a keyword line. -/
def Line.references : Line → List String
  | definition _ value | field _ value => PkgConfig.references value
  | _ => []

/-- The variables a line defines. -/
def Line.defined (l : Line) : List String := l.definition?.toList.map Prod.fst

/-- The references of lines to variables that neither `known` nor an earlier line defines. -/
def undefinedReferences (known : List String) : List Line → List String
  | [] => []
  | l :: ls => l.references.filter (fun v => v ∉ known) ++ undefinedReferences (known ++ l.defined) ls

-- ============================================================================
-- Reading lines back
-- ============================================================================

/-- A name a line can start with: not empty, of name characters only. -/
def IsName (n : String) : Prop := n.toList ≠ [] ∧ ∀ c ∈ n.toList, isNameChar c = true

/-- A line that is read back from its text: a blank line, or a definition or a keyword line
whose name is a name. -/
def Line.Readable : Line → Prop
  | blank => True
  | definition name _ | field name _ => IsName name
  | other _ => False

/-- A line that starts with a name and a character outside names is cut right after the name. -/
theorem takeWhile_dropWhile_name {n : String} (hn : IsName n) {c : Char} (hc : isNameChar c = false)
    (rest : List Char) :
    (n.toList ++ c :: rest).takeWhile isNameChar = n.toList ∧
      (n.toList ++ c :: rest).dropWhile isNameChar = c :: rest := by
  constructor
  · rw [List.takeWhile_append_of_pos hn.2, List.takeWhile_cons_of_neg (by simp [hc]), List.append_nil]
  · rw [List.dropWhile_append_of_pos hn.2, List.dropWhile_cons_of_neg (by simp [hc])]

theorem readLine_definition {n : String} (hn : IsName n) (v : String) :
    readLine (Line.definition n v).text = .definition n v := by
  obtain ⟨htake, hdrop⟩ := takeWhile_dropWhile_name hn (c := '=') rfl v.toList
  have htext : (Line.definition n v).text = n.toList ++ '=' :: v.toList := by
    simp [Line.text, String.toList_append]
  rw [htext, readLine]
  simp only [hdrop, htake, hn.1, if_false, String.ofList_toList]

theorem readLine_field {k : String} (hk : IsName k) (v : String) :
    readLine (Line.field k v).text = .field k v := by
  obtain ⟨htake, hdrop⟩ := takeWhile_dropWhile_name hk (c := ':') rfl (' ' :: v.toList)
  have htext : (Line.field k v).text = k.toList ++ ':' :: ' ' :: v.toList := by
    simp [Line.text, String.toList_append]
  rw [htext, readLine]
  simp only [hdrop, htake, hk.1, if_false, String.ofList_toList]

theorem readLine_text {l : Line} (h : l.Readable) : readLine l.text = l := by
  cases l with
  | blank => rfl
  | definition name value => exact readLine_definition h value
  | field key value => exact readLine_field h value
  | other t => exact h.elim

/-- A name holds no newline. -/
theorem newline_not_mem_of_isName {n : String} (h : IsName n) : '\n' ∉ n.toList :=
  fun hn => by simpa [isNameChar] using h.2 _ hn

/-- A line that is read back holds a newline exactly when its value does. -/
theorem newline_mem_text_iff {l : Line} (h : l.Readable) : '\n' ∈ l.text ↔ '\n' ∈ l.value.toList := by
  cases l with
  | blank => simp [Line.text, Line.value]
  | definition name value =>
    simp [Line.text, Line.value, String.toList_append, newline_not_mem_of_isName h]
  | field key value =>
    simp [Line.text, Line.value, String.toList_append, newline_not_mem_of_isName h]
  | other t => exact h.elim

/-- The value read off a line is what stands at its end. -/
theorem value_readLine_suffix (l : List Char) : (readLine l).value.toList <:+ l := by
  unfold readLine
  split
  · rename_i value hdrop
    dsimp only
    split
    · simp [Line.value]
    · simp only [Line.value, String.toList_ofList]
      exact (List.suffix_cons _ _).trans (hdrop ▸ List.dropWhile_suffix _)
  · rename_i value hdrop
    dsimp only
    split
    · simp [Line.value]
    · simp only [Line.value, String.toList_ofList]
      exact ((List.suffix_cons _ _).trans (List.suffix_cons _ _)).trans
        (hdrop ▸ List.dropWhile_suffix _)
  · split
    · simp [Line.value]
    · simp [Line.value]

/-- Each line of a text followed by a newline is the text cut at its newlines, with the empty
piece after the last newline. -/
theorem render_eq_intercalate : ∀ ls : List Line,
    render ls = ['\n'].intercalate (ls.map Line.text ++ [[]])
  | [] => rfl
  | l :: ls => by
    rw [render, List.map_cons, List.flatten_cons, ← render, render_eq_intercalate ls,
      List.map_cons, List.cons_append, List.intercalate_cons_of_ne_nil (by simp), List.append_assoc]

/-- Lines without newlines are read back from their text. -/
theorem lines_render {ls : List Line} (h : ∀ l ∈ ls, '\n' ∉ l.text) :
    lines (render ls) = ls.map Line.text := by
  have hfree : ∀ x ∈ ls.map Line.text ++ [[]], '\n' ∉ x := by
    intro x hx
    rcases List.mem_append.mp hx with hx | hx
    · obtain ⟨l, hl, rfl⟩ := List.mem_map.mp hx
      exact h l hl
    · rw [List.mem_singleton.mp hx]
      exact List.not_mem_nil
  rw [lines, render_eq_intercalate, List.splitOn_intercalate '\n' hfree (by simp)]
  simp

/-- No piece of a text cut at a character holds that character. -/
theorem not_mem_of_mem_splitOn {sep : Char} : ∀ {cs l : List Char}, l ∈ cs.splitOn sep → sep ∉ l
  | [], l, h => by
    rw [List.splitOn_nil, List.mem_singleton] at h
    subst h
    exact List.not_mem_nil
  | c :: cs, l, h => by
    rw [List.splitOn_cons_eq_if_modifyHead] at h
    split at h
    · rcases List.mem_cons.mp h with rfl | h
      · exact List.not_mem_nil
      · exact not_mem_of_mem_splitOn h
    · -- the character joins the first piece
      rename_i hc
      obtain ⟨hd, tl, hsplit⟩ := List.exists_cons_of_ne_nil (List.splitOn_ne_nil sep cs)
      rw [hsplit, List.modifyHead_cons] at h
      rcases List.mem_cons.mp h with rfl | h
      · intro hm
        rcases List.mem_cons.mp hm with hm | hm
        · exact hc (by simp [hm])
        · exact not_mem_of_mem_splitOn (hsplit ▸ List.mem_cons_self) hm
      · exact not_mem_of_mem_splitOn (hsplit ▸ List.mem_cons_of_mem _ h)

theorem not_mem_of_mem_lines {cs l : List Char} (h : l ∈ lines cs) : '\n' ∉ l := by
  unfold lines at h
  dsimp only at h
  split at h
  · exact not_mem_of_mem_splitOn (List.dropLast_subset _ h)
  · exact not_mem_of_mem_splitOn h

/-- Lines that are read back, with no newline in their values, are read back from their text. -/
theorem readLines_render {text : String} {ls : List Line} (htext : text.toList = render ls)
    (hr : ∀ l ∈ ls, l.Readable) (hn : ∀ l ∈ ls, '\n' ∉ l.value.toList) : readLines text = ls := by
  have hfree : ∀ l ∈ ls, '\n' ∉ l.text := fun l hl =>
    (newline_mem_text_iff (hr l hl)).not.mpr (hn l hl)
  rw [readLines, htext, lines_render hfree, List.map_map]
  exact (List.map_congr_left fun l hl => readLine_text (hr l hl)).trans (List.map_id _)

/-- No value read line by line holds a newline. -/
theorem newline_not_mem_value {text : String} {l : Line} (h : l ∈ readLines text) :
    '\n' ∉ l.value.toList := by
  obtain ⟨piece, hpiece, rfl⟩ := List.mem_map.mp h
  exact fun hn => not_mem_of_mem_lines hpiece ((value_readLine_suffix piece).subset hn)

-- ============================================================================
-- Reading references
-- ============================================================================

theorem scanReferences_none_cons {c : Char} (hc : c ≠ '$') (rest : List Char) :
    scanReferences none (c :: rest) = scanReferences none rest := by
  cases rest <;> simp [scanReferences, hc]

theorem scanReferences_some_cons {c : Char} (hc : c ≠ '\x7d') (acc rest : List Char) :
    scanReferences (some acc) (c :: rest) = scanReferences (some (c :: acc)) rest := by
  simp [scanReferences]

/-- Reading past a text without `$` finds nothing in it. -/
theorem scanReferences_append_of_not_mem {s : List Char} (h : '$' ∉ s) (t : List Char) :
    scanReferences none (s ++ t) = scanReferences none t := by
  induction s with
  | nil => rfl
  | cons c s ih =>
    rw [List.cons_append, scanReferences_none_cons (fun hc => h (hc ▸ List.mem_cons_self)),
      ih fun hs => h (List.mem_cons_of_mem _ hs)]

/-- Inside a reference, a name without a closing brace is read up to the brace that follows it. -/
theorem scanReferences_name_append {n : List Char} (h : '\x7d' ∉ n) (acc t : List Char) :
    scanReferences (some acc) (n ++ '\x7d' :: t) =
      String.ofList (acc.reverse ++ n) :: scanReferences none t := by
  induction n generalizing acc with
  | nil => simp [scanReferences]
  | cons c n ih =>
    rw [List.cons_append, scanReferences_some_cons (fun hc => h (hc ▸ List.mem_cons_self)),
      ih (fun hn => h (List.mem_cons_of_mem _ hn))]
    simp

/-- A text whose references close inside it: read with anything after it, it gives its own
references, then those of what follows. -/
def Closed (s : List Char) : Prop :=
  ∀ t, scanReferences none (s ++ t) = scanReferences none s ++ scanReferences none t

theorem scanReferences_of_not_mem {s : List Char} (h : '$' ∉ s) : scanReferences none s = [] := by
  simpa [scanReferences] using scanReferences_append_of_not_mem h []

theorem closed_of_not_mem {s : List Char} (h : '$' ∉ s) : Closed s := fun t => by
  rw [scanReferences_append_of_not_mem h, scanReferences_of_not_mem h, List.nil_append]

/-- The text of a reference to a name. -/
def referenceText (n : String) : List Char := '$' :: '\x7b' :: n.toList ++ ['\x7d']

theorem scanReferences_referenceText_append {n : String} (h : '\x7d' ∉ n.toList) (t : List Char) :
    scanReferences none (referenceText n ++ t) = n :: scanReferences none t := by
  rw [referenceText, List.cons_append, List.cons_append, List.append_assoc, List.singleton_append]
  simp [scanReferences, scanReferences_name_append h]

theorem scanReferences_referenceText {n : String} (h : '\x7d' ∉ n.toList) :
    scanReferences none (referenceText n) = [n] := by
  simpa [scanReferences] using scanReferences_referenceText_append h []

theorem closed_referenceText {n : String} (h : '\x7d' ∉ n.toList) : Closed (referenceText n) :=
  fun t => by rw [scanReferences_referenceText_append h, scanReferences_referenceText h]; rfl

theorem Closed.append {a b : List Char} (ha : Closed a) (hb : Closed b) : Closed (a ++ b) :=
  fun t => by rw [List.append_assoc, ha, hb, ha b, List.append_assoc]

/-- Closed texts joined by a separator without references give their references in order. -/
theorem scanReferences_intercalate {sep : List Char} (hsep : '$' ∉ sep) :
    ∀ {xs : List (List Char)}, (∀ x ∈ xs, Closed x) →
      Closed (sep.intercalate xs) ∧
        scanReferences none (sep.intercalate xs) = xs.flatMap (scanReferences none)
  | [], _ => ⟨closed_of_not_mem List.not_mem_nil, rfl⟩
  | [x], h => by simpa using h x List.mem_cons_self
  | x :: y :: zs, h => by
    obtain ⟨hrest, hrefs⟩ := scanReferences_intercalate hsep
      fun z (hz : z ∈ y :: zs) => h z (List.mem_cons_of_mem _ hz)
    have hx := h x List.mem_cons_self
    rw [List.intercalate_cons_cons]
    refine ⟨(hx.append (closed_of_not_mem hsep)).append hrest, ?_⟩
    rw [List.append_assoc, hx, closed_of_not_mem hsep, scanReferences_of_not_mem hsep, hrefs]
    simp

-- ============================================================================
-- References left undefined
-- ============================================================================

@[simp] theorem flatMap_defined_map_definition (vs : List (String × String)) :
    (vs.map fun v => Line.definition v.1 v.2).flatMap Line.defined = vs.map Prod.fst := by
  induction vs <;> simp_all [Line.defined, Line.definition?]

theorem undefinedReferences_append (known : List String) :
    ∀ ls ls' : List Line, undefinedReferences known (ls ++ ls') =
      undefinedReferences known ls ++ undefinedReferences (known ++ ls.flatMap Line.defined) ls'
  | [], ls' => by simp [undefinedReferences]
  | l :: ls, ls' => by
    simp only [List.cons_append, undefinedReferences, undefinedReferences_append _ ls ls',
      List.flatMap_cons, List.append_assoc]

/-- Lines that refer only to known variables leave nothing undefined; the lines may define more. -/
theorem undefinedReferences_eq_nil {known : List String} {ls : List Line}
    (h : ∀ l ∈ ls, ∀ v ∈ l.references, v ∈ known) : undefinedReferences known ls = [] := by
  induction ls generalizing known with
  | nil => rfl
  | cons l ls ih =>
    rw [undefinedReferences, List.filter_eq_nil_iff.mpr fun v hv => by
        simpa using h l List.mem_cons_self v hv,
      ih fun l' hl' v hv => List.mem_append_left _ (h l' (List.mem_cons_of_mem _ hl') v hv)]
    rfl

end PkgConfig

end BuildRecipe
