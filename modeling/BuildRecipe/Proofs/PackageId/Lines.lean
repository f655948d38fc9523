import BuildRecipe.PackageId
/-!
# The lines behind a package id

A package id hashes the text of a configuration (`configurationText`): one line `key:value`
for the package name and version, for each of the four settings and for every option in name
order. Nothing in it is escaped. A line is read by splitting it at its first colon and ending
it at its first newline, so a key that holds no colon and a value that holds no newline come
back from their line (`keyLine_append_inj`), and a list of such lines from its text
(`linesText_inj`).

A value shows as `true`, `false` or its own text (`OptionValue.display`), so the flag `true`
and the text `true` give one line. That is the only way two values share a line
(`OptionValue.eq_of_display_eq`).

Main statements: for configurations whose fields fit on one line and whose option names hold
no colon, two texts are equal exactly when the names, versions and settings are, and the
options have the same names with the same shown values; the options are then equal unless
one holds a text spelling a flag (`configurationText_determines_configuration`). Declaring
`shared` with the flag `true` and with the text `true` resolves to option sets that build
different libraries under one package id (`flag_and_text_share_packageId`).
-/

namespace BuildRecipe

/-- Splitting at the first separator: the parts before it agree, and so do the parts after. -/
theorem append_cons_inj_of_not_mem {α : Type} {x : α} {a b r r' : List α}
    (ha : x ∉ a) (hb : x ∉ b) (h : a ++ x :: r = b ++ x :: r') : a = b ∧ r = r' := by
  induction a generalizing b with
  | nil =>
    cases b with
    | nil => exact ⟨rfl, (List.cons.inj h).2⟩
    | cons c b =>
      -- the separator would stand first in `b`
      obtain ⟨rfl, -⟩ := List.cons.inj h
      exact absurd List.mem_cons_self hb
  | cons c a ih =>
    cases b with
    | nil =>
      obtain ⟨rfl, -⟩ := List.cons.inj h
      exact absurd List.mem_cons_self ha
    | cons d b =>
      obtain ⟨rfl, ht⟩ := List.cons.inj h
      obtain ⟨rfl, hr⟩ := ih (fun hm => ha (List.mem_cons_of_mem c hm))
        (fun hm => hb (List.mem_cons_of_mem c hm)) ht
      exact ⟨rfl, hr⟩

-- ============================================================================
-- Lines
-- ============================================================================

/-- A line `key:value`, ending in a newline. -/
def keyLine (key value : String) : String := key ++ ":" ++ value ++ "\n"

/-- The text of a list of lines. -/
def linesText (ls : List (String × String)) : String :=
  String.join (ls.map fun l => keyLine l.1 l.2)

/-- A line reads back when its key holds no colon and its value no newline. -/
def FitsLine (l : String × String) : Prop := ':' ∉ l.1.toList ∧ '\n' ∉ l.2.toList

theorem toList_keyLine (k v : String) :
    (keyLine k v).toList = k.toList ++ ':' :: (v.toList ++ ['\n']) := by
  simp [keyLine, String.toList_append]

theorem keyLine_append_ne_empty (k v r : String) : keyLine k v ++ r ≠ "" := by
  intro h
  have hl := congrArg String.toList h
  simp [String.toList_append, toList_keyLine] at hl

/-- A line that reads back is recovered from any text it begins, and so is the rest. -/
theorem keyLine_append_inj {k k' v v' r r' : String} (h : FitsLine (k, v))
    (h' : FitsLine (k', v')) (he : keyLine k v ++ r = keyLine k' v' ++ r') :
    k = k' ∧ v = v' ∧ r = r' := by
  have hl := congrArg String.toList he
  simp only [String.toList_append, toList_keyLine, List.append_assoc, List.cons_append] at hl
  obtain ⟨hk, hl⟩ := append_cons_inj_of_not_mem h.1 h'.1 hl
  obtain ⟨hv, hr⟩ := append_cons_inj_of_not_mem h.2 h'.2 hl
  exact ⟨String.ext hk, String.ext hv, String.ext hr⟩

@[simp] theorem linesText_nil : linesText [] = "" := rfl

@[simp] theorem linesText_cons (l : String × String) (ls : List (String × String)) :
    linesText (l :: ls) = keyLine l.1 l.2 ++ linesText ls := by
  rw [linesText, List.map_cons, String.join_cons, linesText]

theorem linesText_append (ls ms : List (String × String)) :
    linesText (ls ++ ms) = linesText ls ++ linesText ms := by
  rw [linesText, List.map_append, String.join_append, linesText, linesText]

/-- Lines that all read back are recovered from their text. -/
theorem linesText_inj {ls ls' : List (String × String)} (h : ∀ l ∈ ls, FitsLine l)
    (h' : ∀ l ∈ ls', FitsLine l) (he : linesText ls = linesText ls') : ls = ls' := by
  induction ls generalizing ls' with
  | nil =>
    cases ls' with
    | nil => rfl
    | cons l' ls' => exact absurd he.symm (by simpa using keyLine_append_ne_empty _ _ _)
  | cons l ls ih =>
    cases ls' with
    | nil => exact absurd he (by simpa using keyLine_append_ne_empty _ _ _)
    | cons l' ls' =>
      rw [linesText_cons, linesText_cons] at he
      obtain ⟨hk, hv, hr⟩ :=
        keyLine_append_inj (h l List.mem_cons_self) (h' l' List.mem_cons_self) he
      have hrest := ih (fun x hx => h x (List.mem_cons_of_mem l hx))
        (fun x hx => h' x (List.mem_cons_of_mem l' hx)) hr
      rw [Prod.ext hk hv, hrest]

-- ============================================================================
-- Shown values
-- ============================================================================

namespace OptionValue

/-- Whether a value is a text spelling a flag, and so shows as that flag does. -/
def spellsFlag : OptionValue → Bool
  | flag _ => false
  | text s => s == "true" || s == "false"

/-- Two values that show alike are equal unless one is a text spelling a flag. -/
theorem eq_of_display_eq {v w : OptionValue} (hv : v.spellsFlag = false)
    (hw : w.spellsFlag = false) (h : v.display = w.display) : v = w := by
  cases v with
  | flag b =>
    cases w with
    | flag c => cases b <;> cases c <;> simp_all [display]
    | text t =>
      -- the text would be the flag's spelling
      cases b <;> simp_all [display, spellsFlag]
  | text s =>
    cases w with
    | flag c => cases c <;> simp_all [display, spellsFlag]
    | text t => simpa [display] using h

end OptionValue

namespace BuildOptions

/-- The options as their lines show them: each name with the text of its value. -/
def shown (o : BuildOptions) : List (String × String) := o.map fun e => (e.1, e.2.display)

/-- Options that show alike are equal when neither holds a text spelling a flag. -/
theorem eq_of_shown_eq {o o' : BuildOptions} (ho : ∀ e ∈ o, e.2.spellsFlag = false)
    (ho' : ∀ e ∈ o', e.2.spellsFlag = false) (h : o.shown = o'.shown) : o = o' := by
  induction o generalizing o' with
  | nil => exact (List.map_eq_nil_iff.mp h.symm).symm
  | cons e o ih =>
    cases o' with
    | nil => exact absurd h (by simp [shown])
    | cons e' o' =>
      simp only [shown, List.map_cons, List.cons.injEq, Prod.mk.injEq] at h
      obtain ⟨⟨hk, hv⟩, hrest⟩ := h
      have hval := OptionValue.eq_of_display_eq (ho e List.mem_cons_self)
        (ho' e' List.mem_cons_self) hv
      rw [ih (fun x hx => ho x (List.mem_cons_of_mem e hx))
        (fun x hx => ho' x (List.mem_cons_of_mem e' hx)) hrest, Prod.ext hk hval]

end BuildOptions

-- ============================================================================
-- The lines of a configuration
-- ============================================================================

/-- The lines of the package name and version and of the four settings. -/
def headLines (name version : String) (s : Settings) : List (String × String) :=
  [("name", name), ("version", version), ("settings.os", s.os.name), ("settings.arch", s.arch),
    ("settings.compiler", s.compiler), ("settings.build_type", s.buildType.name)]

/-- The line of one shown option, its name under `options.`. -/
def optionLine (e : String × String) : String × String := ("options." ++ e.1, e.2)

/-- The lines of a configuration. -/
def configurationLines (p : Package) (s : Settings) (o : BuildOptions) : List (String × String) :=
  headLines p.name p.version s ++ o.shown.map optionLine

theorem linesText_headLines (n v : String) (s : Settings) :
    linesText (headLines n v s) = "name:" ++ n ++ "\nversion:" ++ v ++ "\n" ++
      "settings.os:" ++ s.os.name ++ "\nsettings.arch:" ++ s.arch ++
      "\nsettings.compiler:" ++ s.compiler ++ "\nsettings.build_type:" ++ s.buildType.name ++
      "\n" := by
  apply String.ext
  simp [headLines, keyLine, String.toList_append]

theorem linesText_optionLines (o : BuildOptions) :
    linesText (o.shown.map optionLine) =
      String.join (o.map fun (k, v) => "options." ++ k ++ ":" ++ v.display ++ "\n") := by
  rw [linesText, BuildOptions.shown, List.map_map, List.map_map]
  rfl

theorem configurationText_eq_linesText (p : Package) (s : Settings) (o : BuildOptions) :
    configurationText p s o = linesText (configurationLines p s o) := by
  rw [configurationLines, linesText_append, linesText_headLines, linesText_optionLines]
  rfl

/-- The text reads the options only through how they show. -/
theorem configurationText_eq_of_shown_eq (p : Package) (s : Settings) {o o' : BuildOptions}
    (h : o.shown = o'.shown) : configurationText p s o = configurationText p s o' := by
  rw [configurationText_eq_linesText, configurationText_eq_linesText, configurationLines,
    configurationLines, h]

theorem Os.name_injective {a b : Os} (h : a.name = b.name) : a = b :=
  Option.some.inj ((Os.ofName?_name a).symm.trans (h ▸ Os.ofName?_name b))

theorem BuildType.name_injective {a b : BuildType} (h : a.name = b.name) : a = b :=
  Option.some.inj ((BuildType.ofName?_name a).symm.trans (h ▸ BuildType.ofName?_name b))

theorem Os.newline_not_mem_name (os : Os) : '\n' ∉ os.name.toList := by
  cases os <;> decide

theorem BuildType.newline_not_mem_name (b : BuildType) : '\n' ∉ b.name.toList := by
  cases b <;> decide

theorem optionLine_injective : Function.Injective optionLine := by
  rintro ⟨k, v⟩ ⟨k', v'⟩ h
  simp only [optionLine, Prod.mk.injEq] at h
  obtain ⟨hk, rfl⟩ := h
  have hl := congrArg String.toList hk
  rw [String.toList_append, String.toList_append] at hl
  rw [String.ext (List.append_cancel_left hl)]

/-- Equal head lines are equal names, versions and settings. -/
theorem headLines_inj {n n' v v' : String} {s s' : Settings}
    (h : headLines n v s = headLines n' v' s') : n = n' ∧ v = v' ∧ s = s' := by
  simp only [headLines, List.cons.injEq, Prod.mk.injEq, true_and, and_true] at h
  obtain ⟨hn, hv, hos, harch, hcc, hbt⟩ := h
  refine ⟨hn, hv, ?_⟩
  obtain ⟨os, arch, cc, bt⟩ := s
  obtain ⟨os', arch', cc', bt'⟩ := s'
  simp only [Settings.mk.injEq]
  exact ⟨Os.name_injective hos, harch, hcc, BuildType.name_injective hbt⟩

/-- A configuration whose lines read back: the name, version, architecture, compiler and the
text of every option value fit on one line, and no option name holds a colon. -/
structure Readable (p : Package) (s : Settings) (o : BuildOptions) : Prop where
  name : '\n' ∉ p.name.toList
  version : '\n' ∉ p.version.toList
  arch : '\n' ∉ s.arch.toList
  compiler : '\n' ∉ s.compiler.toList
  options : ∀ e ∈ o, ':' ∉ e.1.toList ∧ '\n' ∉ e.2.display.toList

theorem Readable.lines {p : Package} {s : Settings} {o : BuildOptions} (hr : Readable p s o) :
    ∀ l ∈ configurationLines p s o, FitsLine l := by
  intro l hl
  simp only [configurationLines, headLines, List.mem_append, List.mem_cons, List.mem_map,
    BuildOptions.shown, List.not_mem_nil, or_false] at hl
  rcases hl with (rfl | rfl | rfl | rfl | rfl | rfl) | ⟨_, ⟨e, he, rfl⟩, rfl⟩
  · exact ⟨(by decide : ':' ∉ "name".toList), hr.name⟩
  · exact ⟨(by decide : ':' ∉ "version".toList), hr.version⟩
  · exact ⟨(by decide : ':' ∉ "settings.os".toList), Os.newline_not_mem_name s.os⟩
  · exact ⟨(by decide : ':' ∉ "settings.arch".toList), hr.arch⟩
  · exact ⟨(by decide : ':' ∉ "settings.compiler".toList), hr.compiler⟩
  · exact ⟨(by decide : ':' ∉ "settings.build_type".toList),
      BuildType.newline_not_mem_name s.buildType⟩
  · -- an option's key is its name under `options.`, which holds no colon
    obtain ⟨hk, hv⟩ := hr.options e he
    refine ⟨?_, hv⟩
    simp only [optionLine, String.toList_append, List.mem_append, not_or]
    exact ⟨(by decide : ':' ∉ "options.".toList), hk⟩

/-- For configurations whose lines read back, equal texts are equal names, versions and
settings with options that show alike. -/
theorem configurationText_eq_iff {p p' : Package} {s s' : Settings} {o o' : BuildOptions}
    (hr : Readable p s o) (hr' : Readable p' s' o') :
    configurationText p s o = configurationText p' s' o' ↔
      p.name = p'.name ∧ p.version = p'.version ∧ s = s' ∧ o.shown = o'.shown := by
  constructor
  · intro h
    rw [configurationText_eq_linesText, configurationText_eq_linesText] at h
    have hl := linesText_inj hr.lines hr'.lines h
    -- six head lines on each side, then the options
    obtain ⟨hhead, hopts⟩ := List.append_inj hl rfl
    obtain ⟨hn, hv, hs⟩ := headLines_inj hhead
    exact ⟨hn, hv, hs, (List.map_inj_right fun _ _ h => optionLine_injective h).mp hopts⟩
  · rintro ⟨hn, hv, rfl, ho⟩
    rw [configurationText_eq_linesText, configurationText_eq_linesText, configurationLines,
      configurationLines, hn, hv, ho]

/-- The text behind a package id determines the configuration, up to how option values show:
for configurations whose lines read back, equal texts are exactly equal names, versions and
settings with options of the same names and shown values; and such options are equal when
neither holds a text spelling a flag. -/
theorem configurationText_determines_configuration {p p' : Package} {s s' : Settings}
    {o o' : BuildOptions} (hr : Readable p s o) (hr' : Readable p' s' o') :
    (configurationText p s o = configurationText p' s' o' ↔
      p.name = p'.name ∧ p.version = p'.version ∧ s = s' ∧ o.shown = o'.shown) ∧
    (configurationText p s o = configurationText p' s' o' →
      (∀ e ∈ o, e.2.spellsFlag = false) → (∀ e ∈ o', e.2.spellsFlag = false) → o = o') := by
  refine ⟨configurationText_eq_iff hr hr', fun h ho ho' => ?_⟩
  obtain ⟨-, -, -, hshown⟩ := (configurationText_eq_iff hr hr').mp h
  exact BuildOptions.eq_of_shown_eq ho ho' hshown

/-- A package with no options of its own. -/
def samplePackage : Package := { name := "fm", version := "1.0.0", url := "https://example.org/fm" }

/-- The shared and the static build of one package have different texts. -/
theorem shared_and_static_texts_differ :
    configurationText samplePackage Settings.standard [("shared", .flag true)] ≠
      configurationText samplePackage Settings.standard [("shared", .flag false)] := by
  intro h
  have hr : Readable samplePackage Settings.standard [("shared", .flag true)] :=
    ⟨by decide, by decide, by decide, by decide, by decide⟩
  have hr' : Readable samplePackage Settings.standard [("shared", .flag false)] :=
    ⟨by decide, by decide, by decide, by decide, by decide⟩
  obtain ⟨-, -, -, hshown⟩ := (configurationText_determines_configuration hr hr').1.mp h
  exact absurd hshown (by decide)

/-- `shared` declared with the flag `true` as its allowed value and default. -/
def sharedFlagSpecs : OptionSpecs := [("shared", ⟨[.flag true, .flag false], .flag true⟩)]

/-- The same declaration with the text `true` in place of the flag. -/
def sharedTextSpecs : OptionSpecs := [("shared", ⟨[.text "true", .flag false], .text "true"⟩)]

/-- The flag `true` and the text `true` show alike: the two declarations resolve to option
sets of which one builds a shared library and the other a static one, and both get one
package id. -/
theorem flag_and_text_share_packageId :
    BuildOptions.resolve sharedFlagSpecs [] = .ok [("shared", .flag true)] ∧
    BuildOptions.resolve sharedTextSpecs [] = .ok [("shared", .text "true")] ∧
    BuildOptions.shared [("shared", .flag true)] = true ∧
    BuildOptions.shared [("shared", .text "true")] = false ∧
    packageId samplePackage Settings.standard [("shared", .flag true)] =
      packageId samplePackage Settings.standard [("shared", .text "true")] := by
  refine ⟨rfl, rfl, rfl, rfl, ?_⟩
  have hshown : BuildOptions.shown [("shared", .flag true)] =
      BuildOptions.shown [("shared", .text "true")] := rfl
  rw [packageId, packageId, configurationText_eq_of_shown_eq _ _ hshown]

end BuildRecipe
