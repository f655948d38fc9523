import BuildRecipe.Recipe.Validate
/-!
# Which option values the command line can select

An option is set on the command line by an assignment `name=value`. Reading it splits the
text at its first `=` and trims both sides (`parseAssignment`); resolving it reads the value
text as a flag when it spells one (`OptionValue.ofText`) and requires the value to lie in the
option's domain. So a name can only be given when it is not empty, holds no `=` and has no
blank at either end (`AssignableName`), and a value can only be selected when it is a flag,
or a text that is not empty, has no blank at either end and spells no flag
(`SelectableValue`).

Main statement: a declared option `n` can be set to a value `v` of its domain by some
assignment exactly when `n` is an assignable name and `v` a selectable value, and then the
assignment `n=` followed by the text of `v` does it (`option_value_selectable_iff`). A text
value spelled like a flag, such as `True`, is read as the flag and cannot be selected
(`flag_spelled_text_unselectable`).
-/

namespace BuildRecipe

namespace Text

-- ============================================================================
-- Trimmed texts
-- ============================================================================

/-- A text with no blank at either end. -/
def Trimmed (s : String) : Prop :=
  (∀ c ∈ s.toList.head?, isBlank c = false) ∧ ∀ c ∈ s.toList.getLast?, isBlank c = false

-- The quantifiers range over one optional character; the instance is named so that no
-- instance deciding a statement about every character is chosen instead.
instance : DecidablePred Trimmed := fun s =>
  @instDecidableAnd _ _ (Option.decidableForallMem s.toList.head?)
    (Option.decidableForallMem s.toList.getLast?)

theorem dropBlanks_of_head {cs : List Char} (h : ∀ c ∈ cs.head?, isBlank c = false) :
    dropBlanks cs = cs := by
  cases cs with
  | nil => rfl
  | cons c rest => simp [dropBlanks, h c rfl]

theorem dropTrailingBlanks_of_getLast {cs : List Char}
    (h : ∀ c ∈ cs.getLast?, isBlank c = false) : dropTrailingBlanks cs = cs := by
  unfold dropTrailingBlanks
  rw [dropBlanks_of_head (by simpa [List.head?_reverse] using h), List.reverse_reverse]

/-- A text with no blank at either end is its own trimming. -/
theorem trim_of_trimmed {s : String} (h : Trimmed s) : trim s = s := by
  unfold trim
  rw [dropBlanks_of_head h.1, dropTrailingBlanks_of_getLast h.2, String.ofList_toList]

/-- Dropping the trailing blanks keeps the first character of a text that does not end blank
only. -/
theorem head?_dropTrailingBlanks {cs : List Char} {c : Char}
    (h : (dropTrailingBlanks cs).head? = some c) : cs.head? = some c := by
  have hpre : dropTrailingBlanks cs <+: cs := by
    unfold dropTrailingBlanks dropBlanks
    simpa using (List.dropWhile_suffix isBlank (l := cs.reverse)).reverse
  obtain ⟨rest, hrest⟩ := hpre
  rw [← hrest, List.head?_append, h]
  rfl

theorem getLast?_dropTrailingBlanks {cs : List Char} {c : Char}
    (h : (dropTrailingBlanks cs).getLast? = some c) : isBlank c = false := by
  unfold dropTrailingBlanks at h
  rw [List.getLast?_reverse] at h
  obtain ⟨rest, hrest⟩ := List.head?_eq_some_iff.mp h
  exact dropBlanks_head _ c rest hrest

/-- Trimming leaves no blank at either end. -/
theorem trimmed_trim (s : String) : Trimmed (trim s) := by
  unfold trim Trimmed
  rw [String.toList_ofList]
  refine ⟨fun c hc => ?_, fun c hc => getLast?_dropTrailingBlanks hc⟩
  -- the first character left is the first one the leading blanks left
  obtain ⟨rest, hrest⟩ := List.head?_eq_some_iff.mp (head?_dropTrailingBlanks hc)
  exact dropBlanks_head _ c rest hrest

/-- Trimming keeps characters of the text only. -/
theorem mem_of_mem_trim {s : String} {c : Char} (h : c ∈ (trim s).toList) : c ∈ s.toList := by
  unfold trim at h
  rw [String.toList_ofList] at h
  have hpre : dropTrailingBlanks (dropBlanks s.toList) <+: dropBlanks s.toList := by
    unfold dropTrailingBlanks dropBlanks
    simpa using (List.dropWhile_suffix isBlank (l := (s.toList.dropWhile isBlank).reverse)).reverse
  exact (List.dropWhile_suffix isBlank).subset (hpre.subset h)

end Text

-- ============================================================================
-- Reading an assignment
-- ============================================================================

theorem splitFirst_append_of_not_mem {sep : Char} {a : List Char} (b : List Char)
    (ha : sep ∉ a) : Text.splitFirst sep (a ++ sep :: b) = some (a, b) := by
  induction a with
  | nil => simp [Text.splitFirst]
  | cons c rest ih =>
    have hc : c ≠ sep := fun h => ha (h ▸ List.mem_cons_self)
    have hrest : sep ∉ rest := fun h => ha (List.mem_cons_of_mem _ h)
    simp [Text.splitFirst, hc, ih hrest]

/-- What an assignment that reads gives: a name and a value that are not empty and have no
blank at either end, and a name with no `=`. -/
theorem parseAssignment_ok {raw name value : String}
    (h : parseAssignment raw = .ok (name, value)) :
    name ≠ "" ∧ '=' ∉ name.toList ∧ Text.Trimmed name ∧
      value ≠ "" ∧ Text.Trimmed value := by
  unfold parseAssignment at h
  split at h
  · cases h
  · rename_i n v hsplit
    dsimp only at h
    split at h
    · cases h
    · rename_i hne
      simp only [Except.ok.injEq, Prod.mk.injEq] at h
      obtain ⟨rfl, rfl⟩ := h
      simp only [Bool.or_eq_true, String.isEmpty_iff, not_or] at hne
      -- the name is trimmed from the text before the first `=`
      have hn : '=' ∉ n := (Text.splitFirst_eq_some hsplit).2
      refine ⟨hne.1, fun hm => hn ?_, Text.trimmed_trim _, hne.2, Text.trimmed_trim _⟩
      simpa using Text.mem_of_mem_trim hm

/-- A name and a value as assignments give them read back as themselves. -/
theorem parseAssignment_name_value {name value : String} (hn : name ≠ "")
    (heq : '=' ∉ name.toList) (htn : Text.Trimmed name) (hv : value ≠ "")
    (htv : Text.Trimmed value) :
    parseAssignment (name ++ "=" ++ value) = .ok (name, value) := by
  have hsplit : Text.splitFirst '=' (name ++ "=" ++ value).toList =
      some (name.toList, value.toList) := by
    rw [String.toList_append, String.toList_append, List.append_assoc]
    exact splitFirst_append_of_not_mem _ heq
  unfold parseAssignment
  rw [hsplit]
  simp [Text.trim_of_trimmed htn, Text.trim_of_trimmed htv, hn, hv]

-- ============================================================================
-- Reading a value
-- ============================================================================

namespace OptionValue

/-- The texts that read as flags. -/
def flagSpellings : List String := ["true", "True", "TRUE", "false", "False", "FALSE"]

/-- A value text reads as a text exactly when it spells no flag, and then as itself. -/
theorem ofText_eq_text_iff {raw s : String} :
    ofText raw = text s ↔ raw = s ∧ s ∉ flagSpellings := by
  unfold ofText flagSpellings
  by_cases h1 : raw = "true" ∨ raw = "True" ∨ raw = "TRUE"
  · rw [if_pos h1]
    simp only [reduceCtorEq, false_iff, not_and]
    rintro rfl
    rcases h1 with h | h | h <;> simp [h]
  · rw [if_neg h1]
    by_cases h2 : raw = "false" ∨ raw = "False" ∨ raw = "FALSE"
    · rw [if_pos h2]
      simp only [reduceCtorEq, false_iff, not_and]
      rintro rfl
      rcases h2 with h | h | h <;> simp [h]
    · rw [if_neg h2, text.injEq]
      constructor
      · rintro rfl
        refine ⟨rfl, ?_⟩
        simp only [not_or] at h1 h2
        simp only [List.mem_cons, List.not_mem_nil, or_false, not_or]
        exact ⟨h1.1, h1.2.1, h1.2.2, h2.1, h2.2.1, h2.2.2⟩
      · exact fun h => h.1

end OptionValue

-- ============================================================================
-- Selecting a value
-- ============================================================================

/-- A name an assignment can give: not empty, holding no `=`, with no blank at either end. -/
def AssignableName (n : String) : Prop := n ≠ "" ∧ '=' ∉ n.toList ∧ Text.Trimmed n

instance : DecidablePred AssignableName := fun n =>
  inferInstanceAs (Decidable (n ≠ "" ∧ '=' ∉ n.toList ∧ Text.Trimmed n))

/-- A value an assignment can select: a flag, or a text that is not empty, has no blank at
either end and spells no flag. -/
def SelectableValue : OptionValue → Prop
  | .flag _ => True
  | .text s => s ≠ "" ∧ Text.Trimmed s ∧ s ∉ OptionValue.flagSpellings

instance : DecidablePred SelectableValue := fun v =>
  match v with
  | .flag _ => isTrue trivial
  | .text s =>
    inferInstanceAs (Decidable (s ≠ "" ∧ Text.Trimmed s ∧ s ∉ OptionValue.flagSpellings))

namespace BuildOptions

/-- Resolving one override sets its option to the value its text reads as, when the option
is declared and the value lies in its domain. -/
theorem resolve_single (specs : OptionSpecs) (name raw : String) :
    resolve specs [(name, raw)] = match specs.get? name with
      | none => .error (unknownOption specs name)
      | some spec =>
        if OptionValue.ofText raw ∈ spec.values then
          .ok (Dictionary.insert (specs.map fun (k, s) => (k, s.default)) name
            (OptionValue.ofText raw))
        else .error (invalidValue spec name raw) := by
  unfold resolve applyOverrides
  cases specs.get? name with
  | none => rfl
  | some spec =>
    dsimp only
    split <;> rfl

/-- One override sets a declared option to a value exactly when its text reads as that value
and the value lies in the option's domain. -/
theorem resolve_single_sets_iff {specs : OptionSpecs} {name : String} {spec : OptionSpec}
    (hn : specs.get? name = some spec) (raw : String) {v : OptionValue} (hv : v ∈ spec.values) :
    (∃ o, resolve specs [(name, raw)] = .ok o ∧ o.get? name = some v) ↔
      OptionValue.ofText raw = v := by
  rw [resolve_single, hn]
  dsimp only
  constructor
  · rintro ⟨o, ho, hget⟩
    split at ho
    · cases ho
      rw [Dictionary.get?_insert_self] at hget
      exact Option.some.inj hget
    · cases ho
  · intro hraw
    rw [hraw, if_pos hv]
    exact ⟨_, rfl, Dictionary.get?_insert_self _ _ _⟩

end BuildOptions

/-- A value read from a trimmed text that is not empty is selectable. -/
theorem selectableValue_of_ofText {raw : String} (hne : raw ≠ "") (ht : Text.Trimmed raw) :
    SelectableValue (OptionValue.ofText raw) := by
  cases hv : OptionValue.ofText raw with
  | flag b => trivial
  | text s =>
    obtain ⟨rfl, hs⟩ := OptionValue.ofText_eq_text_iff.mp hv
    exact ⟨hne, ht, hs⟩

/-- The text of a selectable value is not empty, has no blank at either end, and reads back as
the value. -/
theorem display_of_selectable {v : OptionValue} (hv : SelectableValue v) :
    v.display ≠ "" ∧ Text.Trimmed v.display ∧ OptionValue.ofText v.display = v := by
  cases v with
  | flag b => cases b <;> decide
  | text s =>
    obtain ⟨hne, ht, hs⟩ := hv
    exact ⟨hne, ht, OptionValue.ofText_eq_text_iff.mpr ⟨rfl, hs⟩⟩

/-- Every value of a declared option can be selected from the command line exactly when the
option's name is assignable and the value selectable: an assignment reads as the name and a
value text, and resolving that override sets the option to the value. Then the assignment of
the name and the value's text does it. -/
theorem option_value_selectable_iff (r : Recipe) {n : String} {spec : OptionSpec}
    (hn : r.options.get? n = some spec) {v : OptionValue} (hv : v ∈ spec.values) :
    ((∃ a raw o, parseAssignment a = .ok (n, raw) ∧
        BuildOptions.resolve r.options [(n, raw)] = .ok o ∧ o.get? n = some v) ↔
      AssignableName n ∧ SelectableValue v) ∧
    (AssignableName n → SelectableValue v →
      parseAssignment (n ++ "=" ++ v.display) = .ok (n, v.display) ∧
        ∃ o, BuildOptions.resolve r.options [(n, v.display)] = .ok o ∧ o.get? n = some v) := by
  -- the assignment of the name and the value's text, when both can be given
  have hgiven : AssignableName n → SelectableValue v →
      parseAssignment (n ++ "=" ++ v.display) = .ok (n, v.display) ∧
        ∃ o, BuildOptions.resolve r.options [(n, v.display)] = .ok o ∧ o.get? n = some v := by
    rintro ⟨hne, heq, ht⟩ hsel
    obtain ⟨hdne, hdt, hread⟩ := display_of_selectable hsel
    exact ⟨parseAssignment_name_value hne heq ht hdne hdt,
      (BuildOptions.resolve_single_sets_iff hn _ hv).mpr hread⟩
  refine ⟨⟨fun ⟨a, raw, o, ha, hres⟩ => ?_, fun ⟨hname, hsel⟩ => ?_⟩, hgiven⟩
  · obtain ⟨hne, heq, ht, hrne, hrt⟩ := parseAssignment_ok ha
    have hread := (BuildOptions.resolve_single_sets_iff hn raw hv).mp ⟨o, hres⟩
    exact ⟨⟨hne, heq, ht⟩, hread ▸ selectableValue_of_ofText hrne hrt⟩
  · obtain ⟨hparse, o, hres⟩ := hgiven hname hsel
    exact ⟨_, _, o, hparse, hres⟩

/-- The option `mode`: the texts `True` and `x`, `x` by default. -/
def modeSpec : OptionSpec := ⟨[.text "True", .text "x"], .text "x"⟩

/-- The library `fm` with the option `mode`. -/
def modeRecipe : Recipe :=
  { package := { name := "fm", version := "1.0.0", url := "https://example.org/fm" }
    options := [("mode", modeSpec)] }

/-- The text `x` of `mode` is selected by `mode=x`. -/
theorem mode_text_selectable :
    modeRecipe.options.get? "mode" = some modeSpec ∧ OptionValue.text "x" ∈ modeSpec.values ∧
      AssignableName "mode" ∧ SelectableValue (.text "x") ∧
      parseAssignment ("mode" ++ "=" ++ (OptionValue.text "x").display) = .ok ("mode", "x") ∧
      ∃ o, BuildOptions.resolve modeRecipe.options [("mode", "x")] = .ok o ∧
        o.get? "mode" = some (.text "x") := by
  have hn : modeRecipe.options.get? "mode" = some modeSpec := rfl
  have hv : OptionValue.text "x" ∈ modeSpec.values := by decide
  have hname : AssignableName "mode" := by decide
  have hsel : SelectableValue (.text "x") := by decide
  exact ⟨hn, hv, hname, hsel, (option_value_selectable_iff modeRecipe hn hv).2 hname hsel⟩

/-- The text `True` of `mode` cannot be selected, although the recipe is valid: `mode=True`
reads as the name and `True`, but `True` reads as the flag, which `mode` does not allow, and
no assignment sets `mode` to the text. -/
theorem flag_spelled_text_unselectable :
    modeRecipe.validate.isOk = true ∧ OptionValue.text "True" ∈ modeSpec.values ∧
      parseAssignment "mode=True" = .ok ("mode", "True") ∧
      BuildOptions.resolve modeRecipe.options [("mode", "True")] =
        .error (.parse "Invalid value 'True' for option 'mode' (allowed: True, x)") ∧
      ¬ ∃ a raw o, parseAssignment a = .ok ("mode", raw) ∧
        BuildOptions.resolve modeRecipe.options [("mode", raw)] = .ok o ∧
        o.get? "mode" = some (.text "True") := by
  have hv : OptionValue.text "True" ∈ modeSpec.values := by decide
  refine ⟨by decide +kernel, hv, rfl, rfl, ?_⟩
  rintro ⟨a, raw, o, -, hres⟩
  -- the override would have to read as the text, but `True` spells a flag
  have hread := (BuildOptions.resolve_single_sets_iff
    (show modeRecipe.options.get? "mode" = some modeSpec from rfl) raw hv).mp ⟨o, hres⟩
  exact (OptionValue.ofText_eq_text_iff.mp hread).2 (by decide)

end BuildRecipe
