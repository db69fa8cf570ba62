import Formwright.Proofs.Storage.Descent
import Formwright.Proofs.Workspace.Units
import Mathlib.Data.List.TakeWhile

/-!
Where the files of units lie. The directory of the components keeps them below the directory that
they are written to, unless it is an empty text, which makes their paths absolute.
-/

namespace Formwright.Workspace

open Component Formwright.Path

theorem trimSlashes_split (directory : String) :
    ∃ separators, directory.toList = (trimSlashes directory).toList ++ separators ∧
      ∀ c ∈ separators, c = '/' := by
  refine ⟨(directory.toList.reverse.takeWhile (· == '/')).reverse, ?_, ?_⟩
  · rw [trimSlashes, String.toList_ofList, ← List.reverse_append, List.takeWhile_append_dropWhile,
      List.reverse_reverse]
  · intro c mem
    have slash := List.mem_takeWhile_imp (List.mem_reverse.mp mem)
    exact eq_of_beq slash

theorem last_trimSlashes (directory : String) :
    (trimSlashes directory).toList.getLast? ≠ some '/' := by
  intro last
  have stopped := List.head?_dropWhile_not (· == '/') directory.toList.reverse
  rw [trimSlashes, String.toList_ofList, List.getLast?_reverse] at last
  rw [last] at stopped
  cases stopped

theorem segments_trimSlashes (directory : String) :
    segments (trimSlashes directory).toList = segments directory.toList := by
  obtain ⟨separators, same, all⟩ := trimSlashes_split directory
  rw [same, segments_append_separators _ all]

/-- A directory that is named and not absolute stays so without the separators at its end. -/
theorem head_trimSlashes {directory : String} (named : directory ≠ "")
    (relative : (⟨directory⟩ : Path).isAbsolute = false) :
    ∃ c later, (trimSlashes directory).toList = c :: later ∧ c ≠ '/' := by
  obtain ⟨separators, same, all⟩ := trimSlashes_split directory
  rw [isAbsolute, beq_eq_false_iff_ne] at relative
  cases text : (trimSlashes directory).toList with
  | nil =>
    rw [text, List.nil_append] at same
    cases separators with
    | nil => exact (named (String.toList_eq_nil_iff.mp same)).elim
    | cons c later =>
      obtain rfl := all c List.mem_cons_self
      exact (relative (by rw [same]; rfl)).elim
  | cons c later =>
    refine ⟨c, later, rfl, ?_⟩
    rintro rfl
    exact relative (by rw [same, text]; rfl)

/-- The steps that the directory of the components adds to the one it is joined to. A point at its
beginning is a step only if nothing stands before it. -/
def addedSteps (directory : Path) (components : String) : List Path.Component :=
  (if directory.text = "" then leadingPoint (segments components.toList) else []) ++
    plainComponents (segments components.toList)

theorem notMem_addedSteps {components : String}
    (relative : (⟨components⟩ : Path).isAbsolute = false)
    (inside : .parent ∉ (⟨components⟩ : Path).components) (directory : Path) :
    .root ∉ addedSteps directory components ∧ .parent ∉ addedSteps directory components := by
  rw [isAbsolute, beq_eq_false_iff_ne] at relative
  rw [Path.components, componentsOf_relative relative, List.mem_append, not_or] at inside
  have point := notMem_leadingPoint (segments components.toList)
  rw [addedSteps, List.mem_append, List.mem_append, not_or, not_or]
  refine ⟨⟨?_, root_notMem_plainComponents _⟩, ?_, inside.2⟩
  · split <;> simp [point.1]
  · split <;> simp [point.2]

variable {options : Options} {directory : Path} {unit : CodeUnit}

/-- A unit is reached by the steps of the directory of the components and its own name. -/
theorem components_unitFile (derived : Derived options unit) (named : options.directory ≠ "")
    (relative : (⟨options.directory⟩ : Path).isAbsolute = false) :
    (unitFile directory unit).components =
      directory.components ++
        (addedSteps directory options.directory ++ [.name (fileName options unit.name)]) := by
  obtain ⟨form, derives⟩ := derived.name
  obtain ⟨plain, nonempty, proper⟩ := fileName_plain options derives
  obtain ⟨c, later, text, first⟩ := head_trimSlashes named relative
  have path : (unitPath options unit.name).toList =
      (trimSlashes options.directory).toList ++ '/' :: (fileName options unit.name).toList := by
    rw [unitPath_eq, String.toList_append, String.toList_append, List.append_assoc]
    rfl
  have stays : (unitPath options unit.name).toList.head? ≠ some '/' := by
    rw [path, text]
    simpa using first
  have file : plainComponents (segments (fileName options unit.name).toList) =
      [.name (fileName options unit.name)] := by
    rw [segments_plain plain (mt String.toList_eq_nil_iff.mp nonempty), String.ofList_toList,
      plainComponents_single proper]
  have steps : segments (unitPath options unit.name).toList =
      segments options.directory.toList ++ segments (fileName options unit.name).toList := by
    rw [path, segments_separator, segments_trimSlashes]
  rw [unitFile, derived.path, addedSteps]
  by_cases here : directory.text = ""
  · have empty : directory.components = [] := by
      rw [components, here]
      rfl
    have joined : directory.join ⟨unitPath options unit.name⟩ = ⟨unitPath options unit.name⟩ := by
      rw [join, here]
      simp
    have begun : segments options.directory.toList ≠ [] := by
      rw [← segments_trimSlashes, text]
      exact segments_ne_nil first
    rw [joined, empty, if_pos here, components, componentsOf_relative stays, steps,
      leadingPoint_append begun, plainComponents_append, file, List.nil_append, List.append_assoc]
  · have relative : (⟨unitPath options unit.name⟩ : Path).isAbsolute = false := by
      rw [isAbsolute, beq_eq_false_iff_ne]
      exact stays
    rw [components_join here relative, if_neg here, steps, plainComponents_append, file,
      List.nil_append]

theorem unitFile_unnamed (derived : Derived options unit) (unnamed : options.directory = "") :
    unitFile directory unit = ⟨"/" ++ fileName options unit.name⟩ := by
  have trimmed : trimSlashes "" = "" := by decide
  have absolute : (⟨"/" ++ fileName options unit.name⟩ : Path).isAbsolute = true := by
    rw [isAbsolute, String.toList_append]
    rfl
  rw [unitFile, derived.path, unitPath_eq, unnamed, trimmed, String.empty_append, join, absolute]
  rfl

theorem components_unnamed (derived : Derived options unit) (unnamed : options.directory = "") :
    (unitFile directory unit).components = [.root, .name (fileName options unit.name)] := by
  obtain ⟨form, derives⟩ := derived.name
  obtain ⟨plain, nonempty, proper⟩ := fileName_plain options derives
  rw [unitFile_unnamed derived unnamed, components, String.toList_append]
  show componentsOf ('/' :: (fileName options unit.name).toList) = _
  rw [componentsOf_absolute, segments_plain plain (mt String.toList_eq_nil_iff.mp nonempty),
    String.ofList_toList, plainComponents_single proper]

/-- A directory of components that is not absolute and does not step up keeps every unit below the
directory that units are written to, one name behind the steps that it adds. Only the empty text
does not: it gives paths at the root, which are below no directory but the root. -/
theorem units_lie_below_directory (table : Mapping.Table) (options : Options) (batch : Batch)
    (directory : Path) {unit : CodeUnit} (mem : unit ∈ (convertBatch table options batch).units)
    (relative : (⟨options.directory⟩ : Path).isAbsolute = false)
    (inside : .parent ∉ (⟨options.directory⟩ : Path).components) :
    let file := unitFile directory unit
    (file.LiesBelow directory ↔ options.directory ≠ "" ∨ directory.components = [.root]) ∧
    (options.directory ≠ "" → file.components = directory.components ++
      (addedSteps directory options.directory ++ [.name (fileName options unit.name)])) ∧
    (options.directory = "" → file = ⟨"/" ++ fileName options unit.name⟩) := by
  intro file
  have derived := derived_of_convertBatch mem
  refine ⟨?_, fun named => components_unitFile derived named relative, unitFile_unnamed derived⟩
  by_cases named : options.directory ≠ ""
  · have below : file.LiesBelow directory :=
      ⟨_, _, components_unitFile derived named relative, notMem_addedSteps relative inside directory⟩
    exact iff_of_true below (.inl named)
  · have unnamed : options.directory = "" := not_not.mp named
    have steps : file.components = [.root, .name (fileName options unit.name)] :=
      components_unnamed derived unnamed
    rw [or_iff_right named, LiesBelow, steps]
    constructor
    · rintro ⟨way, name, same, noRoot, -⟩
      cases start : directory.components with
      | nil =>
        rw [start, List.nil_append] at same
        cases way with
        | nil => cases same
        | cons step others =>
          obtain ⟨rfl, -⟩ := List.cons.inj same
          exact (noRoot List.mem_cons_self).elim
      | cons step later =>
        rw [start, List.cons_append] at same
        obtain ⟨rfl, rest⟩ := List.cons.inj same
        have short : later.length = 0 := by
          have lengths := congrArg List.length rest
          simp only [List.length_append, List.length_singleton] at lengths
          omega
        rw [List.length_eq_zero_iff.mp short]
    · intro top
      rw [top]
      exact ⟨[], _, rfl, List.not_mem_nil, List.not_mem_nil⟩

def orderForm : Form := ⟨"orders", "order", [], []⟩

theorem dottedDirectory_lies_below :
    ∃ unit, (convertBatch .standard ⟨.tsx, "./ui//"⟩ ⟨[orderForm], [], []⟩).units = [unit] ∧
      (unitFile ⟨"../out/"⟩ unit).LiesBelow ⟨"../out/"⟩ := by
  have clear : obstacle .standard orderForm = none := by rfl
  obtain ⟨unit, given⟩ := exists_unit .standard ⟨.tsx, "./ui//"⟩ [] clear
  have units : (convertBatch .standard ⟨.tsx, "./ui//"⟩ ⟨[orderForm], [], []⟩).units = [unit] := by
    rw [convertBatch_single, given]
  have below := units_lie_below_directory .standard ⟨.tsx, "./ui//"⟩ ⟨[orderForm], [], []⟩
    ⟨"../out/"⟩ (by rw [units]; exact List.mem_cons_self) (by decide) (by decide)
  exact ⟨unit, units, below.1.mpr (.inl (by decide))⟩

def unnamedComponents : Manifest :=
  { name := "demo", output := { componentsDirectory := "" } }

/-- The manifest is in order, and still its units go to the root. -/
theorem unnamedComponents_escape :
    unnamedComponents.problem? = none ∧
      (⟨(optionsOf unnamedComponents).directory⟩ : Path).isAbsolute = false ∧
      .parent ∉ (⟨(optionsOf unnamedComponents).directory⟩ : Path).components ∧
      ∃ unit, (convertBatch unnamedComponents.table (optionsOf unnamedComponents)
          ⟨[orderForm], [], []⟩).units = [unit] ∧
        unitFile ⟨"generated"⟩ unit = ⟨"/Order.tsx"⟩ ∧
        ¬(unitFile ⟨"generated"⟩ unit).LiesBelow ⟨"generated"⟩ := by
  have clear : obstacle unnamedComponents.table orderForm = none := by rfl
  obtain ⟨unit, given⟩ := exists_unit unnamedComponents.table (optionsOf unnamedComponents) [] clear
  have path : (convertForm unnamedComponents.table (optionsOf unnamedComponents) []
      orderForm).units.map (·.path) = ["/Order.tsx"] := by
    rfl
  rw [given, List.map_singleton, List.singleton_inj] at path
  have file : unitFile ⟨"generated"⟩ unit = ⟨"/Order.tsx"⟩ := by
    rw [unitFile, path]
    decide
  refine ⟨rfl, by decide, by decide, unit, ?_, file, ?_⟩
  · rw [convertBatch_single, given]
  · rw [file]
    rintro ⟨way, name, same, -⟩
    have top : (⟨"/Order.tsx"⟩ : Path).components = [.root, .name "Order.tsx"] := by decide
    have below : (⟨"generated"⟩ : Path).components = [.name "generated"] := by decide
    rw [top, below] at same
    cases same

/-! ## What a form can do to a path -/

/-- Whatever a form is called, only letters and digits of its name come into the path of its unit,
and always as one file name behind the directory of the components. -/
theorem path_of_plain_name (table : Mapping.Table) (options : Options) (batch : Batch)
    {unit : CodeUnit} (mem : unit ∈ (convertBatch table options batch).units) :
    unit.name ≠ "" ∧
    (∀ c ∈ unit.name.toList, c.toNat < 128 → c.isAlphanum = true) ∧
    ∃ kept separators, options.directory.toList = kept ++ separators ∧
      (∀ c ∈ separators, c = '/') ∧ kept.getLast? ≠ some '/' ∧
      unit.path.toList =
        kept ++ '/' :: (unit.name.toList ++ '.' :: options.format.suffix.toList) := by
  obtain ⟨⟨form, derives⟩, path⟩ := derived_of_convertBatch mem
  obtain ⟨name, first, later, text, -⟩ := unitName_eq_some.mp derives
  refine ⟨?_, ?_, ?_⟩
  next =>
    intro empty
    rw [empty] at text
    cases text
  next =>
    intro c inName ascii
    have plain : Text.IsPlain c := by
      rw [name] at inName
      exact allPlain_pascalCase _ c inName
    exact plain.resolve_right (by omega)
  next =>
    obtain ⟨separators, split, slashes⟩ := trimSlashes_split options.directory
    refine ⟨_, separators, split, slashes, last_trimSlashes options.directory, ?_⟩
    rw [path, unitPath]
    simp only [String.toList_append, List.append_assoc]
    rfl

def pathForm : Form := ⟨"orders", "../..\\etc/pass_wd.tsx\u0000", [], []⟩

theorem path_of_pathForm :
    ∃ unit, (convertBatch .standard ⟨.jsx, "ui//"⟩ ⟨[pathForm], [], []⟩).units = [unit] ∧
      unit.name = "EtcPassWdTsx" ∧ unit.path = "ui/EtcPassWdTsx.jsx" ∧
      (∀ c ∈ unit.name.toList, c.toNat < 128 → c.isAlphanum = true) := by
  have clear : obstacle .standard pathForm = none := by rfl
  obtain ⟨unit, given⟩ := exists_unit .standard ⟨.jsx, "ui//"⟩ [] clear
  have derived : (convertForm .standard ⟨.jsx, "ui//"⟩ [] pathForm).units.map
      (fun unit => (unit.name, unit.path)) = [("EtcPassWdTsx", "ui/EtcPassWdTsx.jsx")] := by
    rfl
  rw [given, List.map_singleton, List.singleton_inj, Prod.mk.injEq] at derived
  have units : (convertBatch .standard ⟨.jsx, "ui//"⟩ ⟨[pathForm], [], []⟩).units = [unit] := by
    rw [convertBatch_single, given]
  obtain ⟨_, plain, _⟩ := path_of_plain_name .standard ⟨.jsx, "ui//"⟩ ⟨[pathForm], [], []⟩
    (by rw [units]; exact List.mem_cons_self)
  exact ⟨unit, units, derived.1, derived.2, plain⟩

end Formwright.Workspace
