import Formwright.Manifest.Basic
import Formwright.Mapping.Application
import Formwright.Proofs.Entries

/-!
What the defaults of a rule add to the declared properties. A default fills a property that is
missing, or the missing fields of an object, and changes nothing that is there.
-/

namespace Formwright.Mapping

def withDefault : Option Value → Value → Value
  | none, given => given
  | some (.object fields), .object missing => .object (Entries.insertMissing fields missing)
  | some declared, _ => declared

def Value.at? : List String → Value → Option Value
  | [], value => some value
  | field :: path, .object fields => (Entries.find? fields field).bind (Value.at? path)
  | _ :: _, _ => none

theorem at?_object (field : String) (path : List String) (fields : Entries Value) :
    Value.at? (field :: path) (.object fields) =
      (Entries.find? fields field).bind (Value.at? path) := rfl

/-! ## One default -/

theorem addDefault_eq (properties : Entries Value) (given : String × Value) :
    addDefault properties given = Entries.insert properties given.1
      (withDefault (Entries.find? properties given.1) given.2) := by
  obtain ⟨name, given⟩ := given
  unfold addDefault withDefault
  dsimp only
  cases found : Entries.find? properties name with
  | none => rfl
  | some declared =>
    have kept : properties = Entries.insert properties name declared :=
      (Entries.insert_same found).symm
    cases declared with
    | object fields =>
      cases given with
      | object missing => rfl
      | scalar | array | callback => exact kept
    | scalar | array | callback => exact kept

theorem find?_addDefault (properties : Entries Value) (given : String × Value) (name : String) :
    Entries.find? (addDefault properties given) name =
      if name = given.1 then some (withDefault (Entries.find? properties name) given.2)
      else Entries.find? properties name := by
  rw [addDefault_eq, Entries.find?_insert]
  split
  next same => rw [same]
  next => rfl

/-- What is declared is still found with a default, but for an object as a whole. -/
theorem at?_withDefault {declared value : Value} {path : List String}
    (found : declared.at? path = some value)
    (inside : path ≠ [] ∨ ∀ fields, value ≠ .object fields) (given : Value) :
    (withDefault (some declared) given).at? path = some value := by
  unfold withDefault
  split
  next absent => cases absent
  next fields missing same =>
    cases same
    cases path with
    | nil =>
      cases found
      exact absurd rfl (inside.resolve_left (absurd rfl) fields)
    | cons field path =>
      rw [at?_object] at found ⊢
      obtain ⟨inner, there, below⟩ := Option.bind_eq_some_iff.mp found
      rw [Entries.find?_insertMissing, there, Option.some_or]
      exact below
  next same _ =>
    cases same
    exact found

/-- Nothing is filled into what is declared unless both are objects. -/
theorem withDefault_apart {declared given : Value}
    (apart : ∀ fields missing, declared = .object fields → given ≠ .object missing) :
    withDefault (some declared) given = declared := by
  unfold withDefault
  split
  next absent => cases absent
  next fields missing same => exact absurd rfl (apart fields missing (Option.some.inj same))
  next same _ => exact (Option.some.inj same).symm

/-! ## All defaults -/

section

variable {defaults : Entries Value} (unique : (Entries.keys defaults).Nodup)
  (properties : Entries Value)

include unique

/-- Properties that are missing come behind, in the order of the defaults. -/
theorem keys_foldl_addDefault :
    Entries.keys (defaults.foldl addDefault properties) = Entries.keys properties ++
      (Entries.keys defaults).filter (· ∉ Entries.keys properties) := by
  induction defaults using List.reverseRecOn with
  | nil => exact (List.append_nil _).symm
  | append_singleton defaults last ih =>
    obtain ⟨fresh, before⟩ := Entries.nodup_keys_append_single.mp unique
    have there : last.1 ∈ Entries.keys (defaults.foldl addDefault properties) ↔
        last.1 ∈ Entries.keys properties := by
      rw [ih before, List.mem_append]
      exact or_iff_left fun mem => fresh (List.mem_filter.mp mem |>.1)
    rw [List.foldl_append, List.foldl_cons, List.foldl_nil, addDefault_eq, Entries.keys_insert,
      if_congr there rfl rfl, ih before, Entries.keys_append, List.filter_append]
    by_cases known : last.1 ∈ Entries.keys properties
    · have passed : (Entries.keys [last]).filter (· ∉ Entries.keys properties) = [] :=
        List.filter_cons_of_neg (by simpa using known)
      rw [if_pos known, passed, List.append_nil]
    · have taken : (Entries.keys [last]).filter (· ∉ Entries.keys properties) = [last.1] :=
        List.filter_cons_of_pos (by simpa using known)
      rw [if_neg known, taken, List.append_assoc]

/-- A property is filled by its own default alone. -/
theorem find?_foldl_addDefault (name : String) :
    Entries.find? (defaults.foldl addDefault properties) name =
      (Entries.find? defaults name).elim (Entries.find? properties name)
        fun given => some (withDefault (Entries.find? properties name) given) := by
  induction defaults using List.reverseRecOn with
  | nil => rfl
  | append_singleton defaults last ih =>
    obtain ⟨fresh, before⟩ := Entries.nodup_keys_append_single.mp unique
    rw [List.foldl_append, List.foldl_cons, List.foldl_nil, find?_addDefault, ih before,
      Entries.find?_append, Entries.find?_cons]
    by_cases here : name = last.1
    · subst here
      rw [if_pos rfl, if_pos rfl, Entries.find?_eq_none fresh]
      rfl
    · rw [if_neg here, if_neg here]
      cases Entries.find? defaults name with
      | none => rfl
      | some given => rfl

end

/-- What is declared beats the defaults of a rule, which are a map of distinct properties. The
properties of the result are those that are there without defaults, in the same order, and behind
them those that only the defaults give, in the order of the defaults and with their values. What is
declared at a property stays as it is, unless the default and it are both objects: then its fields
stay as they are, and the fields of the default that it lacks come behind them. So no value that is
declared is changed, however deep it lies in objects. -/
theorem declared_beats_default (rule : Rule) (unique : (Entries.keys rule.defaults).Nodup)
    (declared : List (String × PropertyValue)) :
    let explicit := { rule with defaults := [] }.apply declared
    let result := rule.apply declared
    Entries.keys result = Entries.keys explicit ++
      (Entries.keys rule.defaults).filter (· ∉ Entries.keys explicit) ∧
    (∀ name, name ∉ Entries.keys explicit →
      Entries.find? result name = Entries.find? rule.defaults name) ∧
    (∀ name value, Entries.find? explicit name = some value →
      (∀ fields missing, value = .object fields →
        Entries.find? rule.defaults name = some (.object missing) →
        ∃ filled, Entries.find? result name = some (.object filled) ∧ fields <+: filled ∧
          Entries.keys filled = Entries.keys fields ++
            ((Entries.keys missing).filter (· ∉ Entries.keys fields)).eraseDups ∧
          ∀ field, field ∉ Entries.keys fields →
            Entries.find? filled field = Entries.find? missing field) ∧
      ((∀ fields missing, value = .object fields →
        Entries.find? rule.defaults name ≠ some (.object missing)) →
        Entries.find? result name = some value)) ∧
    ∀ path value, (Value.object explicit).at? path = some value →
      (2 ≤ path.length ∨ ∀ fields, value ≠ .object fields) →
      (Value.object result).at? path = some value := by
  intro explicit result
  have found (name : String) : Entries.find? result name =
      (Entries.find? rule.defaults name).elim (Entries.find? explicit name)
        fun given => some (withDefault (Entries.find? explicit name) given) :=
    find?_foldl_addDefault unique explicit name
  refine ⟨?_, ?_, ?_, ?_⟩
  · exact keys_foldl_addDefault unique explicit
  · intro name absent
    rw [found, Entries.find?_eq_none absent]
    cases Entries.find? rule.defaults name with
    | none => rfl
    | some given => rfl
  · intro name value there
    refine ⟨?_, ?_⟩
    · rintro fields missing rfl given
      rw [found, given, there]
      refine ⟨Entries.insertMissing fields missing, rfl, Entries.prefix_insertMissing fields missing,
        Entries.keys_insertMissing fields missing, ?_⟩
      intro field lacking
      rw [Entries.find?_insertMissing, Entries.find?_eq_none lacking, Option.none_or]
    · intro apart
      rw [found, there]
      cases given : Entries.find? rule.defaults name with
      | none => rfl
      | some given =>
        refine congrArg some (withDefault_apart fun fields missing same other => ?_)
        exact apart fields missing same (given ▸ congrArg some other)
  · intro path value there inside
    cases path with
    | nil =>
      cases there
      exact absurd rfl (inside.resolve_left (by decide) explicit)
    | cons name path =>
      rw [at?_object] at there ⊢
      obtain ⟨declared, here, below⟩ := Option.bind_eq_some_iff.mp there
      rw [found, here]
      cases Entries.find? rule.defaults name with
      | none => exact below
      | some given =>
        refine at?_withDefault below (inside.imp_left fun deep => ?_) given
        rintro rfl
        exact Nat.not_succ_le_self 1 deep

/-- The defaults of every rule that a project can have are such a map. -/
theorem nodup_defaults {manifest : Manifest} {rule : Rule} (listed : rule ∈ manifest.table.rules) :
    (Entries.keys rule.defaults).Nodup := by
  have standard : ∀ rule ∈ standardRules, (Entries.keys rule.defaults).Nodup := by
    decide
  cases List.mem_append.mp listed with
  | inl custom =>
    obtain ⟨entry, _, rfl⟩ := List.mem_map.mp custom
    exact Entries.nodup_keys_ofPairs _
  | inr builtIn => exact standard rule builtIn

def boxEntry : Manifest.RuleEntry where
  kind := "Div"
  component := "Box"
  properties := [("hint", "title"), ("color", "style.color"), ("shown", "style.display")]
  defaults := [("role", .text "group"),
    ("style", .table [("color", .text "black"), ("border", .table [("width", .integer 1)])]),
    ("title", .table [("text", .text "box")])]

theorem box_fills_style :
    let rule := boxEntry.rule
    let declared := [("shown", .flag false), ("color", .text "red"), ("hint", .text "mine")]
    (Entries.keys rule.defaults).Nodup ∧
    Entries.keys (rule.apply declared) = ["style", "title", "role"] ∧
    Entries.find? (rule.apply declared) "role" = some (.text "group") ∧
    Entries.find? (rule.apply declared) "title" = some (.text "mine") ∧
    (∃ filled, Entries.find? (rule.apply declared) "style" = some (.object filled) ∧
      Entries.keys filled = ["display", "color", "border"] ∧
      Entries.find? filled "border" = some (.object [("width", .scalar (.integer 1))])) ∧
    (Value.object (rule.apply declared)).at? ["style", "color"] = some (.text "red") := by
  intro rule declared
  let manifest : Manifest := { name := "demo", rules := [boxEntry] }
  have listed : rule ∈ manifest.table.rules := List.mem_cons_self
  have unique := nodup_defaults listed
  obtain ⟨names, added, merged, kept⟩ := declared_beats_default rule unique declared
  obtain ⟨filled, found, -, inOrder, behind⟩ := (merged "style" _ rfl).1 _ _ rfl rfl
  refine ⟨unique, names, added "role" (by decide), ?_, ⟨filled, found, inOrder, ?_⟩, ?_⟩
  · exact (merged "title" _ rfl).2 nofun
  · exact behind "border" (by decide)
  · exact kept ["style", "color"] _ rfl (.inl (by decide))

end Formwright.Mapping
