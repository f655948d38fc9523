import BuildRecipe.Toml.Value
/-!
# Assembling a TOML document

A document is assembled section by section. The section being read collects its key-value
pairs; a header closes it, placing it in the document, and opens the next. A header
`[a.b]` names a table that must not exist yet, except as a table made implicitly by an
earlier, longer header; `[[a.b]]` adds a table to an array of tables. Dotted keys make
tables inside the section, which a later pair may extend but a header may not redefine.
Walking a path goes through the last table of an array of tables; meeting a value on the
way is an error.

The span of a section grows to the end of each value placed in it; the root section starts
as the empty span at the start of the document. An array of tables spans from its first
table to its last.

Main statements: a key new to the open section is placed after its other pairs
(`Builder.addPair_fresh`), and a key given twice is refused, naming the key as first written
(`Builder.addPair_duplicate`).
-/

namespace BuildRecipe.Toml

/-- The state of assembly: the document so far, the open section, its header path, and
whether it belongs to an array of tables. -/
structure Builder where
  root : Table := {}
  current : Table := { span := some ⟨0, 0⟩ }
  path : List Key := []
  isArray : Bool := false
  deriving Inhabited

/-- The builder before the first line. -/
def Builder.start : Builder := {}

/-- The fault for a header whose last key names something that exists: the key as written,
in the table of the keys before it. -/
def headerConflict (path : List Key) : Fault :=
  .duplicateKey ((path.getLast?.map (·.raw)).getD "") (some (path.dropLast.map (·.name)))

/-- The table at `path` below `t` changed by `step`, with what `step` gives. Missing tables
are made implicit (and dotted when `dotted`); a dotted walk may not enter a table that a
header defined. -/
def within (dotted : Bool) (step : Table → Except Fault (Table × β)) (named : List String)
    (t : Table) : List Key → Except Fault (Table × β)
  | [] => step t
  | k :: rest =>
    let names := named ++ [k.name]
    match t.entries.find? k.name with
    | none => do
      let fresh : Table := { form := { implicit := true, dotted := dotted } }
      let (sub, b) ← within dotted step names fresh rest
      return ({ t with entries := t.entries ++ [(k, sub.toItem)] }, b)
    | some (.table es form span) =>
      if form.inline then .error (.extendWrongType names "inline table")
      else if dotted && !form.implicit then .error (.duplicateKey k.name none)
      else do
        let (sub, b) ← within dotted step names ⟨es, form, span⟩ rest
        return ({ t with entries := t.entries.replace k.name sub.toItem }, b)
    | some (.tables items span) =>
      match items.getLast? with
      | some (.table es form sp) => do
        let (sub, b) ← within dotted step names ⟨es, form, sp⟩ rest
        let item := Item.tables (items.dropLast ++ [sub.toItem]) span
        return ({ t with entries := t.entries.replace k.name item }, b)
      | _ => .error (.duplicateKey k.name none)
    | some other => .error (.extendWrongType names other.typeName)

/-- The span from the first item's start to the last item's end. -/
def coveringSpan (items : List Item) : Option Span :=
  match items.head?.bind Item.span?, items.getLast?.bind Item.span? with
  | some a, some b => some ⟨a.start, b.stop⟩
  | _, _ => none

/-- A span grown to the end of another. -/
def grow (s : Option Span) (by_ : Option Span) : Option Span :=
  match s, by_ with
  | some a, some b => some ⟨a.start, b.stop⟩
  | _, _ => s

namespace Builder

/-- A key-value pair placed in the open section, after the dotted `path`. -/
def addPair (b : Builder) (path : List Key) (key : Key) (item : Item) : Except Fault Builder := do
  let current := { b.current with span := grow b.current.span item.span? }
  let plain := path.isEmpty
  let sectionNames := b.path.map (·.name)
  let (current, ()) ← within true (fun t =>
      if t.form.dotted == plain then .error (.duplicateKey key.name none)
      else match t.entries.findEntry? key.name with
        | some (k, _) => .error (.duplicateKey k.name (some sectionNames))
        | none => .ok ({ t with entries := t.entries ++ [(key, item)] }, ())) [] current path
  return { b with current := current }

/-- The open section placed in the document. -/
def close (b : Builder) : Except Fault Builder := do
  match b.path.getLast? with
  | none => return { b with root := b.current, current := {} }
  | some last =>
    let sec := b.current
    let (root, ()) ← within false (fun parent =>
        match parent.entries.find? last.name with
        | none =>
          if b.isArray then
            let item := Item.tables [sec.toItem] sec.span
            .ok ({ parent with entries := parent.entries ++ [(last, item)] }, ())
          else .ok ({ parent with entries := parent.entries ++ [(last, sec.toItem)] }, ())
        | some (.tables items _) =>
          if b.isArray then
            let items := items ++ [sec.toItem]
            let item := Item.tables items (coveringSpan items)
            .ok ({ parent with entries := parent.entries.replace last.name item }, ())
          else .error (headerConflict b.path)
        | some (.table _ form _) =>
          if !b.isArray && !form.inline && form.implicit then
            .ok ({ parent with entries := parent.entries.replace last.name sec.toItem }, ())
          else .error (headerConflict b.path)
        | some _ => .error (headerConflict b.path)) [] b.root b.path.dropLast
    return { b with root := root, current := {}, path := [], isArray := false }

/-- The section of a `[path]` header opened, the header read from `span`. -/
def openTable (b : Builder) (path : List Key) (span : Span) : Except Fault Builder := do
  let b ← b.close
  let last := (path.getLast?).getD default
  let (root, reused) ← within false (fun parent =>
      match parent.entries.find? last.name with
      | none => .ok (parent, none)
      | some (.table es form sp) =>
        if !form.inline && form.implicit && !form.dotted then
          .ok ({ parent with entries := parent.entries.erase last.name }, some (Table.mk es form sp))
        else .error (headerConflict path)
      | some _ => .error (headerConflict path)) [] b.root path.dropLast
  let base := reused.getD {}
  return { root := root, current := { base with form := {}, span := some span },
           path := path, isArray := false }

/-- The section of a `[[path]]` header opened, the header read from `span`. -/
def openArrayTable (b : Builder) (path : List Key) (span : Span) : Except Fault Builder := do
  let b ← b.close
  let last := (path.getLast?).getD default
  let (root, ()) ← within false (fun parent =>
      match parent.entries.find? last.name with
      | none =>
        let item := Item.tables [] none
        .ok ({ parent with entries := parent.entries ++ [(last, item)] }, ())
      | some (.tables ..) => .ok (parent, ())
      | some _ => .error (headerConflict path)) [] b.root path.dropLast
  return { root := root, current := { span := some span }, path := path, isArray := true }

/-- The finished document. -/
def finish (b : Builder) : Except Fault Table := do
  let b ← b.close
  return b.root

/-- A key new to the open section is placed after its other pairs, and the section's span
grows to the value's end. -/
theorem addPair_fresh (b : Builder) (key : Key) (item : Item) (hform : b.current.form.dotted = false)
    (hnew : b.current.entries.findEntry? key.name = none) :
    b.addPair [] key item = .ok { b with current := { b.current with
      span := grow b.current.span item.span?, entries := b.current.entries ++ [(key, item)] } } := by
  simp [addPair, within, hform, hnew, bind, Except.bind, pure, Except.pure]

/-- A key given twice in a section is refused, naming the key as first written and the
section it is in. -/
theorem addPair_duplicate (b : Builder) (key : Key) (item : Item) {k : Key} {v : Item}
    (hform : b.current.form.dotted = false)
    (hfound : b.current.entries.findEntry? key.name = some (k, v)) :
    b.addPair [] key item = .error (.duplicateKey k.name (some (b.path.map (·.name)))) := by
  simp [addPair, within, hform, hfound, bind, Except.bind]

end Builder

end BuildRecipe.Toml
