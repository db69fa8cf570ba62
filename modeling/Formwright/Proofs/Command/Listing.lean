import Formwright.Command.Listing
import Formwright.Proofs.Manifest.Reading
import Formwright.Proofs.Storage.Session
import Formwright.Proofs.Toml.Lines
import Formwright.Proofs.Toml.Remainder
import Mathlib.Data.List.Find

/-!
The rules that are shown are those that are used. Of the rules for one kind the first is shown,
and a kind has a rule exactly when a text that names it stands in the manifest or among the names of
the built-in rules.
-/

namespace Formwright

namespace Kind

theorem name_ofName (text : String) : (ofName text).name = text := by
  have names : ∀ entry ∈ known, entry.2.name = entry.1 := by
    decide
  rw [ofName]
  cases found : known.lookup text with
  | none => rfl
  | some kind =>
    obtain ⟨before, after, split, -⟩ := List.lookup_eq_some_iff.mp found
    exact names (text, kind) (by
      rw [split]
      exact List.mem_append_right before List.mem_cons_self)

/-- No two texts name one kind. -/
theorem ofName_injective : Function.Injective ofName :=
  Function.LeftInverse.injective name_ofName

theorem ofName_name {kind : Kind} (isKnown : kind.isKnown = true) : ofName kind.name = kind := by
  cases kind with
  | other => cases isKnown
  | _ => rfl

theorem eq_ofName_iff {kind : Kind} (isKnown : kind.isKnown = true) (text : String) :
    kind = ofName text ↔ kind.name = text := by
  constructor
  · rintro rfl
    exact name_ofName text
  · rintro rfl
    exact (ofName_name isKnown).symm

end Kind

namespace Mapping.Table

def foundInPlace (rules : List Rule) : List Rule :=
  (rules.zipIdx.filter fun place =>
    rules.findIdx? (·.kind == place.1.kind) == some place.2).map Prod.fst

/-- The search for the kind of a rule ends at the rule if no rule of its kind has been passed. -/
theorem findIdx?_here (before : List Rule) (rule : Rule) (later : List Rule) :
    (before ++ rule :: later).findIdx? (·.kind == rule.kind) = some before.length ↔
      before.any (·.kind == rule.kind) = false := by
  rw [List.findIdx?_append, ← List.findIdx?_isSome]
  cases passed : before.findIdx? (·.kind == rule.kind) with
  | none => simp [List.findIdx?_cons]
  | some place =>
    have within := (List.findIdx?_eq_some_iff_findIdx_eq.mp passed).1
    simpa using Nat.ne_of_lt within

theorem effectiveAfter_eq {seen : List Kind} {before later : List Rule}
    (passed : ∀ kind, seen.contains kind = before.any (·.kind == kind)) :
    effectiveAfter seen later =
      ((later.zipIdx before.length).filter fun place =>
        (before ++ later).findIdx? (·.kind == place.1.kind) == some place.2).map Prod.fst := by
  induction later generalizing seen before with
  | nil => rfl
  | cons rule later ih =>
    have next (seen' : List Kind)
        (passed' : ∀ kind, seen'.contains kind = (before ++ [rule]).any (·.kind == kind)) :
        effectiveAfter seen' later =
          ((later.zipIdx (before.length + 1)).filter fun place =>
            (before ++ rule :: later).findIdx? (·.kind == place.1.kind) == some place.2).map
              Prod.fst := by
      rw [ih passed', List.length_append, List.append_assoc]
      rfl
    have here := findIdx?_here before rule later
    rw [effectiveAfter, List.zipIdx_cons, List.filter_cons, passed rule.kind]
    cases known : before.any (·.kind == rule.kind) with
    | true =>
      rw [if_pos rfl, if_neg (by simpa [known] using here), next seen]
      intro kind
      rw [passed kind, List.any_append, List.any_cons, List.any_nil, Bool.or_false]
      by_cases same : rule.kind = kind
      · rw [← same, known, Bool.true_or]
      · rw [beq_eq_false_iff_ne.mpr same, Bool.or_false]
    | false =>
      rw [if_neg Bool.false_ne_true, if_pos (by simpa [known] using here), List.map_cons,
        next (rule.kind :: seen)]
      intro kind
      rw [List.contains_cons, passed kind, List.any_append, List.any_cons, List.any_nil,
        Bool.or_false, Bool.or_comm, Bool.beq_comm]

/-- Rules count where the search for their kind ends. -/
theorem effective_eq (table : Table) : table.effective = foundInPlace table.rules :=
  @effectiveAfter_eq [] [] table.rules fun _ => rfl

theorem effective_sublist (table : Table) : table.effective.Sublist table.rules := by
  rw [effective_eq, foundInPlace]
  conv_rhs => rw [← List.zipIdx_map_fst 0 table.rules]
  exact List.filter_sublist.map Prod.fst

theorem filter_effectiveAfter (seen : List Kind) (rules : List Rule) (kind : Kind) :
    (effectiveAfter seen rules).filter (·.kind == kind) =
      if seen.contains kind then [] else (rules.find? (·.kind == kind)).toList := by
  induction rules generalizing seen with
  | nil => simp [effectiveAfter]
  | cons rule later ih =>
    rw [effectiveAfter, List.find?_cons]
    by_cases same : rule.kind = kind
    · subst same
      cases known : seen.contains rule.kind with
      | true => rw [if_pos rfl, if_pos rfl, ih, known, if_pos rfl]
      | false =>
        rw [if_neg Bool.false_ne_true, if_neg Bool.false_ne_true, beq_self_eq_true,
          List.filter_cons_of_pos (by simp), ih, List.contains_cons, beq_self_eq_true,
          Bool.true_or, if_pos rfl]
        rfl
    · have other : (rule.kind == kind) = false := beq_eq_false_iff_ne.mpr same
      rw [other]
      cases known : seen.contains rule.kind with
      | true => rw [if_pos rfl, ih]
      | false =>
        have apart : (kind == rule.kind) = false := beq_eq_false_iff_ne.mpr (Ne.symm same)
        rw [if_neg Bool.false_ne_true, List.filter_cons_of_neg (by simpa using same), ih,
          List.contains_cons, apart, Bool.false_or]

/-- Of the rules for a kind the one that is used is shown, and no other. -/
theorem filter_effective (table : Table) (kind : Kind) :
    table.effective.filter (·.kind == kind) = (table.find? kind).toList :=
  filter_effectiveAfter [] table.rules kind

/-- The first rule that a project has for the text, or the built-in one of that name. -/
theorem find?_manifest (manifest : Manifest) (text : String) :
    manifest.table.find? (.ofName text) =
      ((manifest.rules.find? (·.kind == text)).map Manifest.RuleEntry.rule).or
        (standardRules.find? (·.kind.name == text)) := by
  have own : (manifest.rules.map Manifest.RuleEntry.rule).find? (·.kind == .ofName text) =
      (manifest.rules.find? (·.kind == text)).map Manifest.RuleEntry.rule := by
    rw [List.find?_map]
    congr 2
    funext entry
    exact Bool.eq_iff_iff.mpr (by simp [Manifest.RuleEntry.rule, Kind.ofName_injective.eq_iff])
  have known : ∀ rule ∈ standardRules, rule.kind.isKnown = true := by
    decide
  have standard : standardRules.find? (·.kind == .ofName text) =
      standardRules.find? (·.kind.name == text) := by
    apply List.find?_congr
    intro rule mem
    exact Bool.eq_iff_iff.mpr (by simp [Kind.eq_ofName_iff (known rule mem)])
  rw [find?, Manifest.table, extending, List.find?_append, own, standard]

end Mapping.Table

namespace Disk

theorem walks_dotted {top : Item} {follow : Bool}
    {jump : List String → List String → Except SystemError Spot} {place names : List String}
    {name : String} {spot : Spot} (walks : Walks top follow jump place (name :: names) spot) :
    Walks top follow jump place ("." :: name :: names) spot := by
  cases walks with
  | stay opened rest => exact .stay opened (.stay opened rest)
  | up opened rest => exact .stay opened (.up opened rest)
  | free opened proper unused => exact .stay opened (.free opened proper unused)
  | link opened proper there own => exact .stay opened (.link opened proper there own)
  | jump opened proper there passed rest =>
    exact .stay opened (.jump opened proper there passed rest)
  | enter opened proper there solid rest =>
    exact .stay opened (.enter opened proper there solid rest)

/-- The manifest is looked for in two ways that come to the same. -/
theorem find_manifest {disk : Disk} {spot : Spot}
    (found : disk.find true ⟨manifestName⟩ = .ok spot) :
    disk.find true ((⟨"."⟩ : Path).join ⟨manifestName⟩) = .ok spot := by
  have joined : (⟨"."⟩ : Path).join ⟨manifestName⟩ = ⟨"./" ++ manifestName⟩ := by decide
  have names : namesOf manifestName.toList = [manifestName] := by decide
  have dotted : namesOf ("./" ++ manifestName).toList = [".", manifestName] := by decide
  obtain ⟨-, ended⟩ := find_eq_ok.mp found
  rw [names] at ended
  rw [joined]
  refine find_eq_ok.mpr ⟨⟨by decide, by decide, by decide⟩, ?_⟩
  rw [dotted]
  exact walkFrom_of_walks (walks_dotted (walkFrom_eq_ok.mp ended))

end Disk

namespace Command

open Mapping Disk

/-- The manifest that the working directory holds is the one in force. -/
theorem currentTable_eq {document : String} {manifest : Manifest} {session : Session}
    (accepted : Manifest.read document = .ok manifest)
    (held : session.disk.read ⟨manifestName⟩ = .ok document.toUTF8) :
    (currentTable : Task (StateM Session) Table).run.run session =
      (.ok manifest.table, session) := by
  obtain ⟨place, found⟩ := find_of_read held
  have kind : (Host.kind ⟨manifestName⟩ : Task (StateM Session) _).run.run session =
      (.ok (some .file), session) := by
    show (Except.ok (session.disk.kind? true ⟨manifestName⟩), session) = _
    rw [kind?, found]
    rfl
  have read : (Host.readText ((⟨"."⟩ : Path).join ⟨manifestName⟩) :
      Task (StateM Session) (Except ReadError String)).run.run session =
        (.ok (.ok document), session) := by
    rw [Session.run_readText, Session.textAt_eq_ok.mpr (read_of_find (find_manifest found))]
  have loaded : (Workspace.loadManifest ⟨"."⟩ : Task (StateM Session) Manifest).run.run session =
      (.ok manifest, session) := by
    rw [Workspace.loadManifest, run_bind, read]
    dsimp only
    rw [accepted]
    rfl
  rw [currentTable, run_bind, kind]
  dsimp only
  rw [Option.isSome_some, if_pos rfl, run_bind, loaded]
  rfl

theorem showMappings_none {table : Table} {session : Session}
    (current : (currentTable : Task (StateM Session) Table).run.run session =
      (.ok table, session)) :
    (showMappings none : Task (StateM Session) Unit).run.run session =
      (.ok (), { session with printed := session.printed ++ listing table }) := by
  rw [showMappings, run_bind, current]
  rfl

def kindLine (text component : String) : String :=
  String.ofList (Text.padEnd 12 text.toList) ++ s!" → {component}\n"

theorem ruleLine_eq (rule : Rule) : ruleLine rule = kindLine rule.kind.name rule.component := rfl

/-- The lines for a kind are those of the rule that is found for it. -/
theorem lines_for (table : Table) (text : String) :
    (table.effective.filter (·.kind == .ofName text)).map ruleLine =
      ((table.find? (.ofName text)).map fun rule => kindLine text rule.component).toList := by
  rw [Table.filter_effective]
  cases found : table.find? (.ofName text) with
  | none => rfl
  | some rule =>
    have named : rule.kind = .ofName text := by
      have kept := List.find?_some found
      exact eq_of_beq kept
    rw [Option.toList_some, List.map_singleton, ruleLine_eq, named, Kind.name_ofName]
    rfl

/-- The listing of a project has a line for every rule that conversion uses, in the order of the
table, and no others. The text that names a kind tells the rule: the first of the project for this
very text, or else the built-in one of that name. -/
theorem listing_shows_rules_in_use {document : String} {manifest : Manifest}
    (accepted : Manifest.read document = .ok manifest) :
    let shown := Table.foundInPlace manifest.table.rules
    (∀ session : Session, session.disk.read ⟨manifestName⟩ = .ok document.toUTF8 →
      (showMappings none : Task (StateM Session) Unit).run.run session =
        (.ok (), { session with
          printed := session.printed ++ String.join (shown.map ruleLine) })) ∧
    shown.Sublist manifest.table.rules ∧
    ∀ text,
      (shown.filter (·.kind == .ofName text)).map ruleLine =
        ((manifest.table.find? (.ofName text)).map
          fun rule => kindLine text rule.component).toList ∧
      manifest.table.find? (.ofName text) =
        ((manifest.rules.find? (·.kind == text)).map Manifest.RuleEntry.rule).or
          (standardRules.find? (·.kind.name == text)) := by
  rw [← Table.effective_eq]
  refine ⟨fun session held => ?_, Table.effective_sublist _, fun text =>
    ⟨lines_for _ text, Table.find?_manifest manifest text⟩⟩
  exact showMappings_none (currentTable_eq accepted held)

def repeatedRules : String :=
  "[[mappings]]\ncomponent = \"A\"\nkind = \"Div\"\n" ++
    "[[mappings]]\ncomponent = \"B\"\nkind = \"Div\"\n[project]\nname = \"x\"\n"

def repeatedManifest : Manifest where
  name := "x"
  rules := [⟨"Div", "A", [], [], []⟩, ⟨"Div", "B", [], [], []⟩]

def repeatedLines : List String :=
  ["[[mappings]]", "component = \"A\"", "kind = \"Div\"",
    "[[mappings]]", "component = \"B\"", "kind = \"Div\"", "[project]", "name = \"x\""]

theorem toList_repeatedRules : repeatedRules.toList = Toml.written repeatedLines := by
  decide +kernel

section

open Toml (Draft Reading BareKey written)

theorem run_repeatedLines : Reading.run 9 ⟨[], []⟩ (written repeatedLines) =
    some ⟨[("mappings", .tables
        [[("component", .closed (.text "A")), ("kind", .closed (.text "Div"))]]
        [("component", .closed (.text "B")), ("kind", .closed (.text "Div"))]),
      ("project", .table .header [("name", .closed (.text "x"))])], ["project"]⟩ := by
  have mappings : BareKey "mappings".toList := by decide
  have component : BareKey "component".toList := by decide
  have kind : BareKey "kind".toList := by decide
  have project : BareKey "project".toList := by decide
  have name : BareKey "name".toList := by decide
  have line (count : Nat) (code : Toml.beginsCode (repeatedLines.drop count) = true) :=
    Toml.endOfLine_written (repeatedLines.drop count) 0 rfl code
  let first : List (String × Draft) :=
    [("component", .closed (.text "A")), ("kind", .closed (.text "Div"))]
  let second : List (String × Draft) :=
    [("component", .closed (.text "B")), ("kind", .closed (.text "Div"))]
  calc
    _ = Reading.run 8 ⟨[("mappings", .tables [] [])], ["mappings"]⟩
          (written (repeatedLines.drop 1)) :=
      Reading.run_nextHeaderLine mappings (by rfl) (line 1 (by rfl)) (by rfl) 8
    _ = Reading.run 7 ⟨[("mappings", .tables [] (first.take 1))], ["mappings"]⟩
          (written (repeatedLines.drop 2)) :=
      Reading.run_textLine "A" component (by rfl) (List.all_eq_true.mp (by decide))
        (line 2 (by rfl)) (by rfl) 7
    _ = Reading.run 6 ⟨[("mappings", .tables [] first)], ["mappings"]⟩
          (written (repeatedLines.drop 3)) :=
      Reading.run_textLine "Div" kind (by rfl) (List.all_eq_true.mp (by decide))
        (line 3 (by rfl)) (by rfl) 6
    _ = Reading.run 5 ⟨[("mappings", .tables [first] [])], ["mappings"]⟩
          (written (repeatedLines.drop 4)) :=
      Reading.run_nextHeaderLine mappings (by rfl) (line 4 (by rfl)) (by rfl) 5
    _ = Reading.run 4 ⟨[("mappings", .tables [first] (second.take 1))], ["mappings"]⟩
          (written (repeatedLines.drop 5)) :=
      Reading.run_textLine "B" component (by rfl) (List.all_eq_true.mp (by decide))
        (line 5 (by rfl)) (by rfl) 4
    _ = Reading.run 3 ⟨[("mappings", .tables [first] second)], ["mappings"]⟩
          (written (repeatedLines.drop 6)) :=
      Reading.run_textLine "Div" kind (by rfl) (List.all_eq_true.mp (by decide))
        (line 6 (by rfl)) (by rfl) 3
    _ = Reading.run 2 ⟨[("mappings", .tables [first] second), ("project", .table .header [])],
          ["project"]⟩ (written (repeatedLines.drop 7)) :=
      Reading.run_headerLine project (by rfl) (line 7 (by rfl)) (by rfl) 2
    _ = Reading.run 1 ⟨[("mappings", .tables [first] second),
          ("project", .table .header [("name", .closed (.text "x"))])], ["project"]⟩
          (written (repeatedLines.drop 8)) :=
      Reading.run_textLine "x" name (by rfl) (List.all_eq_true.mp (by decide))
        (line 8 (by rfl)) (by rfl) 1
    _ = _ := rfl

end

theorem read_repeatedRules : Manifest.read repeatedRules = .ok repeatedManifest := by
  have parsed : Toml.read repeatedRules =
      some [("mappings", .array [.table [("component", .text "A"), ("kind", .text "Div")],
          .table [("component", .text "B"), ("kind", .text "Div")]]),
        ("project", .table [("name", .text "x")])] := by
    have unmarked : repeatedRules.toList.head? ≠ some '\uFEFF' := by decide +kernel
    have enough : repeatedRules.toList.length + 1 = 9 + (repeatedRules.toList.length - 8) := by
      decide +kernel
    rw [Toml.read_unmarked unmarked, enough, toList_repeatedRules,
      Toml.Reading.run_more run_repeatedLines]
    simp (disch := decide) only [Option.map_some, Toml.Draft.values, Toml.Draft.value,
      Toml.Draft.tableValues, Toml.sortByKey_of_ascending]
    rfl
  exact Manifest.read_eq_ok.mpr
    ⟨_, parsed, rfl, Manifest.problem?_eq_none.mp (by decide +kernel)⟩

def repeatedSession : Session :=
  ⟨⟨.directory [("formshift.toml", .file repeatedRules.toUTF8)], []⟩, "", ""⟩

theorem listing_of_repeatedRules :
    let shown := Table.foundInPlace repeatedManifest.table.rules
    ((showMappings none : Task (StateM Session) Unit).run.run repeatedSession).2.printed =
        String.join (shown.map ruleLine) ∧
      (shown.filter (·.kind == .ofName "Div")).map ruleLine = ["Div          → A\n"] ∧
      (shown.filter (·.kind == .ofName "div")).map ruleLine = [] ∧
      (shown.filter (·.kind == .ofName "Tab")).map ruleLine = ["Tab          → Tabs\n"] := by
  obtain ⟨printed, -, lines⟩ := listing_shows_rules_in_use read_repeatedRules
  have held : repeatedSession.disk.read ⟨manifestName⟩ = .ok repeatedRules.toUTF8 :=
    read_of_find rfl
  refine ⟨?_, ?_, ?_, ?_⟩
  · rw [printed repeatedSession held]
    rfl
  all_goals
    rw [(lines _).1]
    rfl

end Command
end Formwright
