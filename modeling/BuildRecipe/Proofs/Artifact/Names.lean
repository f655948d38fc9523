import BuildRecipe.Artifact
/-!
# Which library a file name belongs to

A build of library `name` leaves `lib<name>.a` as its static library (and also `<name>.lib` on
Windows), and `<name>.dll` or `lib<name>.dll` on Windows, `lib<name>.<...>.dylib` on macOS, and
`lib<name>.so` or `lib<name>.so.<...>` elsewhere as its shared library (`isLibraryArtifact`).

The file names of the two kinds never meet, and a static library's file name belongs to one
library name only. The shared rules accept versions after the name, so a shared library's file
name can belong to two names: exactly when one name is the other with `lib` before it on
Windows, with a dot and more after it on macOS, and with `.so` or `.so.` and more after it
elsewhere (`SharesSharedFiles`).

Main statements: `not_static_and_shared`, `static_name_unique` and `shared_overlap_iff`.
-/

namespace BuildRecipe

/-- The shared library file of `name` without a version. -/
def sharedFileName (os : Os) (name : String) : String :=
  match os with
  | .windows => name ++ ".dll"
  | .macos => "lib" ++ name ++ ".dylib"
  | _ => "lib" ++ name ++ ".so"

/-- The shared library files of `longer` are also taken for `name`: on Windows when `longer` is
`lib` followed by `name`, on macOS when it is `name` followed by a dot and more, elsewhere when it
is `name` followed by `.so`, or by `.so.` and more. -/
def SharesSharedFiles (os : Os) (name longer : String) : Prop :=
  match os with
  | .windows => longer = "lib" ++ name
  | .macos => ∃ rest, longer = name ++ "." ++ rest
  | _ => longer = name ++ ".so" ∨ ∃ rest, longer = name ++ ".so." ++ rest

-- ============================================================================
-- The rules, on characters
-- ============================================================================

section Rules

variable {f n : String}

theorem isLibraryArtifact_windows_static :
    isLibraryArtifact f n .static .windows = true ↔
      f.toList = n.toList ++ ".lib".toList ∨ f.toList = "lib".toList ++ n.toList ++ ".a".toList := by
  simp [isLibraryArtifact, String.ext_iff, String.toList_append]

theorem isLibraryArtifact_windows_shared :
    isLibraryArtifact f n .shared .windows = true ↔
      f.toList = n.toList ++ ".dll".toList ∨ f.toList = "lib".toList ++ n.toList ++ ".dll".toList := by
  simp [isLibraryArtifact, String.ext_iff, String.toList_append]

theorem isLibraryArtifact_static_of_ne_windows {os : Os} (hos : os ≠ .windows) :
    isLibraryArtifact f n .static os = true ↔ f.toList = "lib".toList ++ n.toList ++ ".a".toList := by
  cases os <;> simp_all [isLibraryArtifact, String.ext_iff, String.toList_append]

theorem isLibraryArtifact_macos_shared :
    isLibraryArtifact f n .shared .macos = true ↔
      "lib".toList ++ n.toList ++ ".".toList <+: f.toList ∧ ".dylib".toList <:+ f.toList := by
  simp [isLibraryArtifact, String.toList_append, List.isPrefixOf_iff_prefix,
    List.isSuffixOf_iff_suffix]

/-- Where neither Windows nor macOS names it, a shared library is `lib<name>.so`, with a version
after a dot or not. -/
theorem isLibraryArtifact_unix_shared {os : Os} (hw : os ≠ .windows) (hm : os ≠ .macos) :
    isLibraryArtifact f n .shared os = true ↔
      f.toList = "lib".toList ++ n.toList ++ ".so".toList ∨
        "lib".toList ++ n.toList ++ ".so.".toList <+: f.toList := by
  cases os <;> simp_all [isLibraryArtifact, String.ext_iff, String.toList_append,
    List.isPrefixOf_iff_prefix]

end Rules

-- ============================================================================
-- Static and shared libraries apart
-- ============================================================================

/-- A file name is never the static and the shared library of one name: on Windows and macOS the
two kinds end in different letters, elsewhere a static library's name is too short to be shared. -/
theorem not_static_and_shared (os : Os) (f n : String) :
    ¬ (isLibraryArtifact f n .static os = true ∧ isLibraryArtifact f n .shared os = true) := by
  rintro ⟨hs, hd⟩
  cases os with
  | windows =>
    rw [isLibraryArtifact_windows_static] at hs
    rw [isLibraryArtifact_windows_shared] at hd
    rcases hs with hs | hs <;> rcases hd with hd | hd <;> rw [hs] at hd <;>
      simpa using congrArg List.reverse hd
  | macos =>
    rw [isLibraryArtifact_static_of_ne_windows (by decide)] at hs
    obtain ⟨-, rest, hd⟩ := isLibraryArtifact_macos_shared.mp hd
    rw [hs] at hd
    simpa using congrArg List.reverse hd
  | linux | freeBsd =>
    rw [isLibraryArtifact_static_of_ne_windows (by decide)] at hs
    rcases (isLibraryArtifact_unix_shared (by decide) (by decide)).mp hd with hd | hd
    · rw [hs] at hd
      simp at hd
    · have hlen := hd.length_le
      rw [hs] at hlen
      simp at hlen

/-- A static library's file name belongs to one name only. -/
theorem static_name_unique {os : Os} {f n₁ n₂ : String} (h₁ : isLibraryArtifact f n₁ .static os = true)
    (h₂ : isLibraryArtifact f n₂ .static os = true) : n₁ = n₂ := by
  rw [String.ext_iff]
  cases os with
  | windows =>
    rw [isLibraryArtifact_windows_static] at h₁ h₂
    rcases h₁ with h₁ | h₁ <;> rcases h₂ with h₂ | h₂ <;> rw [h₁] at h₂
    · simpa using h₂
    · simpa using congrArg List.reverse h₂
    · simpa using congrArg List.reverse h₂
    · simpa using h₂
  | macos | linux | freeBsd =>
    rw [isLibraryArtifact_static_of_ne_windows (by decide)] at h₁ h₂
    rw [h₁] at h₂
    simpa using h₂

-- ============================================================================
-- Shared libraries of two names
-- ============================================================================

/-- A name followed by a dot that is another name followed by a dot and more is that name, or
that name, a dot and more. -/
theorem dot_extension {a b d : List Char} (h : b ++ ['.'] = a ++ ['.'] ++ d) :
    b = a ∨ ∃ r, b = a ++ '.' :: r := by
  rcases List.eq_nil_or_concat d with rfl | ⟨d', x, rfl⟩
  · exact .inl (by simpa using h)
  · -- the last dot is the last character of `d`
    rw [List.concat_eq_append, ← List.append_assoc] at h
    obtain ⟨hb, -⟩ := List.append_inj' h rfl
    exact .inr ⟨d', by simpa using hb⟩

/-- A name followed by `.so` that is another name followed by `.so.` and more is that name
followed by `.so`, or by `.so.` and more: only those put `.so` at the end. -/
theorem so_extension {a b w : List Char} (h : b ++ ['.', 's', 'o'] = a ++ ['.', 's', 'o', '.'] ++ w) :
    b = a ++ ['.', 's', 'o'] ∨ ∃ r, b = a ++ ['.', 's', 'o', '.'] ++ r := by
  rw [List.append_assoc] at h
  rcases List.append_eq_append_iff.mp h with ⟨a', ha, hso⟩ | ⟨c, hb, hrest⟩
  · -- `b` cannot be the shorter name: `.so` is shorter than `.so.`
    have := congrArg List.length hso
    simp at this
    omega
  · subst hb
    rcases List.append_eq_append_iff.mp hrest with ⟨c', hc, -⟩ | ⟨c', hso, hw⟩
    · exact .inr ⟨c', by rw [hc, List.append_assoc]⟩
    · -- what `b` adds is a beginning of `.so.` that leaves the rest of `.so` to `w`
      rcases c with _ | ⟨x₁, _ | ⟨x₂, _ | ⟨x₃, _ | ⟨x₄, _ | ⟨x₅, c⟩⟩⟩⟩⟩ <;>
        simp only [List.nil_append, List.cons_append, List.cons.injEq] at hso
      · subst hso
        simp at hw
      · obtain ⟨rfl, rfl⟩ := hso
        simp at hw
      · obtain ⟨rfl, rfl, rfl⟩ := hso
        simp at hw
      · obtain ⟨rfl, rfl, rfl, rfl⟩ := hso
        exact .inl rfl
      · obtain ⟨rfl, rfl, rfl, rfl, rfl⟩ := hso
        exact .inr ⟨[], by simp⟩
      · simp at hso

/-- A file name that begins with `p` and a dot and with `p` and `c` has the dot for `c`. -/
theorem eq_dot_of_isPrefix {p w f : List Char} {c : Char} (h₁ : p ++ c :: w <+: f)
    (h₂ : p ++ ['.'] <+: f) : c = '.' := by
  have h₃ : p ++ [c] <+: f := List.IsPrefix.trans ⟨w, by simp⟩ h₁
  have h₄ := (List.prefix_of_prefix_length_le h₃ h₂ (by simp)).eq_of_length (by simp)
  simpa using h₄

section Shares

variable {a b : String}

/-- A text that is another followed by a separator and more, read on characters. -/
theorem exists_rest_iff (sep : String) :
    (∃ rest, b = a ++ sep ++ rest) ↔ ∃ r, b.toList = a.toList ++ sep.toList ++ r := by
  constructor
  · rintro ⟨rest, rfl⟩
    exact ⟨rest.toList, by simp [String.toList_append]⟩
  · rintro ⟨r, h⟩
    exact ⟨String.ofList r, by simp [String.ext_iff, String.toList_append, h]⟩

theorem sharesSharedFiles_windows : SharesSharedFiles .windows a b ↔ b.toList = "lib".toList ++ a.toList := by
  simp [SharesSharedFiles, String.ext_iff, String.toList_append]

theorem sharesSharedFiles_macos : SharesSharedFiles .macos a b ↔ ∃ r, b.toList = a.toList ++ '.' :: r := by
  rw [SharesSharedFiles, exists_rest_iff]
  simp

theorem sharesSharedFiles_unix {os : Os} (hw : os ≠ .windows) (hm : os ≠ .macos) :
    SharesSharedFiles os a b ↔
      b.toList = a.toList ++ ".so".toList ∨ ∃ r, b.toList = a.toList ++ ".so.".toList ++ r := by
  have hdef : SharesSharedFiles os a b ↔ b = a ++ ".so" ∨ ∃ rest, b = a ++ ".so." ++ rest := by
    cases os <;> simp_all [SharesSharedFiles]
  rw [hdef, exists_rest_iff]
  exact or_congr_left (by simp [String.ext_iff, String.toList_append])

end Shares

/-- The unversioned shared library of a name is taken for it. -/
theorem isLibraryArtifact_sharedFileName (os : Os) (n : String) :
    isLibraryArtifact (sharedFileName os n) n .shared os = true := by
  cases os with
  | macos =>
    rw [isLibraryArtifact_macos_shared]
    simp only [sharedFileName, String.toList_append]
    exact ⟨⟨"dylib".toList, by simp⟩, List.suffix_append _ _⟩
  | windows | linux | freeBsd => simp [isLibraryArtifact, sharedFileName, String.toList_append]

/-- The unversioned shared library of the longer name is also taken for the shorter one. -/
theorem isLibraryArtifact_sharedFileName_of_shares {os : Os} {a b : String}
    (h : SharesSharedFiles os a b) : isLibraryArtifact (sharedFileName os b) a .shared os = true := by
  cases os with
  | windows =>
    rw [sharesSharedFiles_windows] at h
    rw [isLibraryArtifact_windows_shared]
    simp [sharedFileName, String.toList_append, h]
  | macos =>
    obtain ⟨r, h⟩ := sharesSharedFiles_macos.mp h
    rw [isLibraryArtifact_macos_shared]
    simp only [sharedFileName, String.toList_append]
    exact ⟨⟨r ++ ".dylib".toList, by simp [h]⟩, List.suffix_append _ _⟩
  | linux | freeBsd =>
    rw [isLibraryArtifact_unix_shared (by decide) (by decide)]
    rcases (sharesSharedFiles_unix (by decide) (by decide)).mp h with h | ⟨r, h⟩ <;>
      simp [sharedFileName, String.toList_append, h]

/-- On Windows a `.dll` is taken for its stem, and for the stem without `lib`. -/
theorem windows_shared_overlap {f n₁ n₂ : String} (h₁ : isLibraryArtifact f n₁ .shared .windows = true)
    (h₂ : isLibraryArtifact f n₂ .shared .windows = true) :
    n₁ = n₂ ∨ SharesSharedFiles .windows n₁ n₂ ∨ SharesSharedFiles .windows n₂ n₁ := by
  rw [isLibraryArtifact_windows_shared] at h₁ h₂
  rw [sharesSharedFiles_windows, sharesSharedFiles_windows, String.ext_iff]
  rcases h₁ with h₁ | h₁ <;> rcases h₂ with h₂ | h₂ <;> rw [h₁] at h₂
  · exact .inl (by simpa using h₂)
  · exact .inr (.inr (List.append_cancel_right h₂))
  · exact .inr (.inl (List.append_cancel_right h₂).symm)
  · exact .inl (by simpa using h₂)

/-- On macOS, of two names whose `lib<name>.` begin one another, the longer is the shorter
followed by a dot and more. -/
theorem macos_prefix_shares {a b : String}
    (h : "lib".toList ++ a.toList ++ ".".toList <+: "lib".toList ++ b.toList ++ ".".toList) :
    a = b ∨ SharesSharedFiles .macos a b := by
  obtain ⟨d, hd⟩ := h
  have hb : b.toList ++ ['.'] = a.toList ++ ['.'] ++ d := by simpa using hd.symm
  rcases dot_extension hb with h | ⟨r, h⟩
  · exact .inl (String.ext_iff.mpr h.symm)
  · exact .inr (sharesSharedFiles_macos.mpr ⟨r, h⟩)

theorem macos_shared_overlap {f n₁ n₂ : String} (h₁ : isLibraryArtifact f n₁ .shared .macos = true)
    (h₂ : isLibraryArtifact f n₂ .shared .macos = true) :
    n₁ = n₂ ∨ SharesSharedFiles .macos n₁ n₂ ∨ SharesSharedFiles .macos n₂ n₁ := by
  -- both `lib<name>.` begin the file name, so one of them begins the other
  have p₁ := (isLibraryArtifact_macos_shared.mp h₁).1
  have p₂ := (isLibraryArtifact_macos_shared.mp h₂).1
  rcases List.prefix_or_prefix_of_prefix p₁ p₂ with h | h
  · rcases macos_prefix_shares h with h | h
    · exact .inl h
    · exact .inr (.inl h)
  · rcases macos_prefix_shares h with h | h
    · exact .inl h.symm
    · exact .inr (.inr h)

section Unix

variable {os : Os} (hw : os ≠ .windows) (hm : os ≠ .macos)
include hw hm

/-- Every shared library of `n` begins with `lib<n>.so`. -/
theorem soName_isPrefix {f n : String} (h : isLibraryArtifact f n .shared os = true) :
    "lib".toList ++ n.toList ++ ".so".toList <+: f.toList := by
  rcases (isLibraryArtifact_unix_shared hw hm).mp h with h | h
  · exact h ▸ List.prefix_refl _
  · exact List.IsPrefix.trans ⟨['.'], by simp⟩ h

/-- Of two names whose `lib<name>.so` begin one another, the longer is the shorter followed by
`.so`, or by `.so.` and more: the file name goes on after the shorter `lib<name>.so`, and only
with a dot. -/
theorem unix_prefix_shares {f a b : String} (ha : isLibraryArtifact f a .shared os = true)
    (hb : isLibraryArtifact f b .shared os = true)
    (h : "lib".toList ++ a.toList ++ ".so".toList <+: "lib".toList ++ b.toList ++ ".so".toList) :
    a = b ∨ SharesSharedFiles os a b := by
  obtain ⟨d, hd⟩ := h
  rcases d with _ | ⟨c, w⟩
  · exact .inl (String.ext_iff.mpr (by simpa using hd))
  · have hlong : "lib".toList ++ a.toList ++ ".so".toList ++ c :: w <+: f.toList :=
      hd ▸ soName_isPrefix hw hm hb
    have hdot : "lib".toList ++ a.toList ++ ".so".toList ++ ['.'] <+: f.toList := by
      rcases (isLibraryArtifact_unix_shared hw hm).mp ha with ha | ha
      · -- the file name is no longer than `lib<a>.so`, so nothing follows it
        have hlen := hlong.length_le
        rw [ha] at hlen
        simp only [List.length_append, List.length_cons] at hlen
        omega
      · simpa using ha
    obtain rfl := eq_dot_of_isPrefix hlong hdot
    have hb' : b.toList ++ ['.', 's', 'o'] = a.toList ++ ['.', 's', 'o', '.'] ++ w := by
      simpa using hd.symm
    rcases so_extension hb' with h | ⟨r, h⟩
    · exact .inr ((sharesSharedFiles_unix hw hm).mpr (.inl (by simpa using h)))
    · exact .inr ((sharesSharedFiles_unix hw hm).mpr (.inr ⟨r, by simpa using h⟩))

theorem unix_shared_overlap {f n₁ n₂ : String} (h₁ : isLibraryArtifact f n₁ .shared os = true)
    (h₂ : isLibraryArtifact f n₂ .shared os = true) :
    n₁ = n₂ ∨ SharesSharedFiles os n₁ n₂ ∨ SharesSharedFiles os n₂ n₁ := by
  rcases List.prefix_or_prefix_of_prefix (soName_isPrefix hw hm h₁) (soName_isPrefix hw hm h₂) with h | h
  · rcases unix_prefix_shares hw hm h₁ h₂ h with h | h
    · exact .inl h
    · exact .inr (.inl h)
  · rcases unix_prefix_shares hw hm h₂ h₁ h with h | h
    · exact .inl h.symm
    · exact .inr (.inr h)

end Unix

/-- Two names have a shared library file in common exactly when they are one name, or one shares
its shared files with the other. -/
theorem shared_overlap_iff (os : Os) (n₁ n₂ : String) :
    (∃ f, isLibraryArtifact f n₁ .shared os = true ∧ isLibraryArtifact f n₂ .shared os = true) ↔
      n₁ = n₂ ∨ SharesSharedFiles os n₁ n₂ ∨ SharesSharedFiles os n₂ n₁ := by
  constructor
  · rintro ⟨f, h₁, h₂⟩
    cases os with
    | windows => exact windows_shared_overlap h₁ h₂
    | macos => exact macos_shared_overlap h₁ h₂
    | linux | freeBsd => exact unix_shared_overlap (by decide) (by decide) h₁ h₂
  · rintro (rfl | h | h)
    · exact ⟨_, isLibraryArtifact_sharedFileName os n₁, isLibraryArtifact_sharedFileName os n₁⟩
    · exact ⟨_, isLibraryArtifact_sharedFileName_of_shares h, isLibraryArtifact_sharedFileName os n₂⟩
    · exact ⟨_, isLibraryArtifact_sharedFileName os n₁, isLibraryArtifact_sharedFileName_of_shares h⟩

end BuildRecipe
