import Formwright.Proofs.Script.Handlers
import Formwright.Proofs.Script.Matches

/-!
Scripts that are written out of handlers, each in one of the two forms of a declaration. Reading
such a script gives the handlers back: no declaration begins anywhere but at the head of one.
-/

namespace Formwright.Script

open Text

def isIdentifier : List Char → Bool
  | [] => false
  | c :: rest => startsIdentifier c && rest.all continuesIdentifier

abbrev Identifier := { name : List Char // isIdentifier name = true }

/-- How a handler is bound to `this`. A member may be reached through others. -/
inductive Binding
  | assigned (path : List Identifier)
  | named

def functionWord : List Char := "function".toList

/-- A handler that is written into a script. Its body holds no function of its own. -/
structure Source where
  binding : Binding
  name : Identifier
  parameters : List Char
  body : List Char
  oneList : ')' ∉ parameters
  trimmed : isTrimmed body = true
  noFunction : occursIn functionWord body = false
  closes : blockEnd (body ++ ['\n', '}']) = some (body.length + 1)

def members (names : List Identifier) : List Char := names.flatMap fun name => '.' :: name.val

namespace Source

def head (source : Source) : List Char :=
  match source.binding with
  | .assigned path => "this".toList ++ (members (path ++ [source.name]) ++ " = function".toList)
  | .named => "function this.".toList ++ source.name.val

def ending (source : Source) : List Char :=
  match source.binding with
  | .assigned _ => [';', '\n']
  | .named => ['\n']

def opening (source : Source) : List Char :=
  source.head ++ '(' :: (source.parameters ++ ") \x7b".toList)

def text (source : Source) : List Char :=
  source.opening ++ source.body ++ '\n' :: '}' :: source.ending

def handler (source : Source) : String × String :=
  (String.ofList source.name.val, String.ofList source.body)

end Source

def written (sources : List Source) : String := String.ofList (sources.flatMap Source.text)

theorem identifier_append (name : Identifier) {rest : List Char}
    (stops : ∀ c ∈ rest.head?, continuesIdentifier c = false) :
    identifier (name.val ++ rest) = some (name.val, rest) := by
  obtain ⟨name, isName⟩ := name
  cases name with
  | nil => cases isName
  | cons c tail =>
    obtain ⟨starts, continues⟩ := Bool.and_eq_true_iff.mp isName
    have all : ∀ d ∈ tail, continuesIdentifier d = true := List.all_eq_true.mp continues
    rw [List.cons_append, identifier, if_pos starts, takeWhile_run all stops,
      dropWhile_run all stops]

theorem lastMember_member (name : Identifier) {rest : List Char}
    (stops : ∀ c ∈ rest.head?, continuesIdentifier c = false) :
    lastMember ('.' :: (name.val ++ rest)) = (lastMember rest).or (some (name.val, rest)) := by
  rw [lastMember, if_pos rfl]
  split
  next found after same =>
    rw [identifier_append name stops] at same
    cases same
    rfl
  next none =>
    rw [identifier_append name stops] at none
    cases none

/-- Of a chain of members the last is taken, however long it is. -/
theorem lastMember_members (path : List Identifier) (name : Identifier) {rest : List Char}
    (stops : ∀ c ∈ rest.head?, continuesIdentifier c = false) (noDot : rest.head? ≠ some '.') :
    lastMember (members (path ++ [name]) ++ rest) = some (name.val, rest) := by
  have none : lastMember rest = none := by
    cases rest with
    | nil => rw [lastMember]
    | cons c later =>
      have other : c ≠ '.' := fun same => noDot (congrArg some same)
      rw [lastMember, if_neg other]
  induction path with
  | nil =>
    have single : members ([] ++ [name]) ++ rest = '.' :: (name.val ++ rest) := by simp [members]
    rw [single, lastMember_member name stops, none, Option.none_or]
  | cons first path ih =>
    have chain : members (first :: path ++ [name]) ++ rest =
        '.' :: (first.val ++ (members (path ++ [name]) ++ rest)) := by simp [members]
    have dot : ∀ c ∈ (members (path ++ [name]) ++ rest).head?, continuesIdentifier c = false := by
      have begins : (members (path ++ [name]) ++ rest).head? = some '.' := by
        cases path <;> simp [members]
      rw [begins]
      rintro c ⟨⟩
      decide
    rw [chain, lastMember_member first dot, ih, Option.some_or]

theorem dropBlanks_of_first {c : Char} (dark : isBlank c = false) (rest : List Char) :
    dropBlanks (c :: rest) = c :: rest :=
  List.dropWhile_cons_of_neg (Bool.eq_false_iff.mp dark)

theorem dropBlanks_space {c : Char} (dark : isBlank c = false) (rest : List Char) :
    dropBlanks (' ' :: c :: rest) = c :: rest := by
  rw [dropBlanks, List.dropWhile_cons_of_pos (by decide), ← dropBlanks,
    dropBlanks_of_first dark]

/-- A parameter list ends with its first closing parenthesis. -/
theorem afterParameters_written {parameters : List Char} (oneList : ')' ∉ parameters)
    (rest : List Char) :
    afterParameters ('(' :: (parameters ++ ')' :: ' ' :: '{' :: rest)) = some rest := by
  have inside : ∀ c ∈ parameters, (c != ')') = true := fun c mem =>
    bne_iff_ne.mpr fun same => oneList (same ▸ mem)
  have closes : (parameters ++ ')' :: ' ' :: '{' :: rest).dropWhile (· != ')') =
      [')'] ++ ' ' :: '{' :: rest := by
    rw [List.dropWhile_append_of_pos inside]
    rfl
  have opens : dropBlanks (' ' :: '{' :: rest) = ['{'] ++ rest :=
    dropBlanks_space (by decide) rest
  have list : afterStart ['('] ('(' :: (parameters ++ ')' :: ' ' :: '{' :: rest)) =
      some (parameters ++ ')' :: ' ' :: '{' :: rest) := rfl
  simp only [afterParameters, list, closes, opens, afterStart_append, Option.bind_eq_bind,
    Option.bind_some]

theorem atWordEnd_list (later : List Char) : atWordEnd ('(' :: later) = true := by
  have noWord : isWordCharacter '(' = false := by decide
  simp [atWordEnd, noWord]

theorem dropWhile_list (later : List Char) :
    ('(' :: later).dropWhile continuesIdentifier = '(' :: later :=
  List.dropWhile_cons_of_neg (by decide)

theorem assigned_written (path : List Identifier) (name : Identifier) {parameters : List Char}
    (oneList : ')' ∉ parameters) (rest : List Char) :
    Declaration.assigned ("this".toList ++ (members (path ++ [name]) ++ ' ' :: '=' :: ' ' ::
      (functionWord ++ '(' :: (parameters ++ ')' :: ' ' :: '{' :: rest)))) =
        some ⟨name.val, rest⟩ := by
  generalize lists : parameters ++ ')' :: ' ' :: '{' :: rest = later
  have parameter : afterParameters ('(' :: later) = some rest := by
    rw [← lists]
    exact afterParameters_written oneList rest
  have member : lastMember (members (path ++ [name]) ++ ' ' :: '=' :: ' ' ::
      (functionWord ++ '(' :: later)) =
        some (name.val, ' ' :: '=' :: ' ' :: (functionWord ++ '(' :: later)) := by
    apply lastMember_members
    · rintro c ⟨⟩
      decide
    · simp
  have equals : dropBlanks (' ' :: '=' :: ' ' :: (functionWord ++ '(' :: later)) =
      ['='] ++ ' ' :: (functionWord ++ '(' :: later) := dropBlanks_space (by decide) _
  have value : dropBlanks (' ' :: (functionWord ++ '(' :: later)) = functionWord ++ '(' :: later :=
    dropBlanks_space (by decide) _
  have noBlank : dropBlanks ('(' :: later) = '(' :: later :=
    dropBlanks_of_first (by decide) _
  have word : "function".toList = functionWord := rfl
  rw [Declaration.assigned, word, afterStart_append, Option.bind_eq_bind, Option.bind_some, member,
    Option.bind_eq_bind, Option.bind_some]
  show ((afterStart ['='] (dropBlanks (' ' :: '=' :: ' ' :: (functionWord ++ '(' :: later)))).bind
    _) = _
  rw [equals, afterStart_append, Option.bind_some, value, afterStart_append, Option.bind_some,
    atWordEnd_list, noBlank, dropWhile_list, noBlank]
  show ((afterParameters ('(' :: later)).bind _) = _
  rw [parameter]
  rfl

theorem named_written (name : Identifier) {parameters : List Char}
    (oneList : ')' ∉ parameters) (rest : List Char) :
    Declaration.named (functionWord ++ ' ' :: ("this.".toList ++ (name.val ++
      '(' :: (parameters ++ ')' :: ' ' :: '{' :: rest)))) = some ⟨name.val, rest⟩ := by
  generalize lists : parameters ++ ')' :: ' ' :: '{' :: rest = later
  have parameter : afterParameters ('(' :: later) = some rest := by
    rw [← lists]
    exact afterParameters_written oneList rest
  have read : identifier (name.val ++ '(' :: later) = some (name.val, '(' :: later) := by
    apply identifier_append
    rintro c ⟨⟩
    decide
  have path : dropBlanks (' ' :: ("this.".toList ++ (name.val ++ '(' :: later))) =
      "this.".toList ++ (name.val ++ '(' :: later) := dropBlanks_space (by decide) _
  have noBlank : dropBlanks ('(' :: later) = '(' :: later :=
    dropBlanks_of_first (by decide) _
  have blank : isBlank ' ' = true := by decide
  have word : "function".toList = functionWord := rfl
  rw [Declaration.named, word, afterStart_append, Option.bind_eq_bind, Option.bind_some,
    List.head?_cons, Option.any_some, blank, path, afterStart_append]
  show ((identifier (name.val ++ '(' :: later)).bind _) = _
  rw [read, Option.bind_some]
  show ((afterParameters (dropBlanks ('(' :: later))).bind _) = _
  rw [noBlank, parameter]
  rfl

namespace Declaration

theorem at?_of_first {c : Char} (noThis : c ≠ 't') (noFunction : c ≠ 'f') (previous : Option Char)
    (rest : List Char) : at? previous (c :: rest) = none := by
  have this : afterStart "this".toList (c :: rest) = none := if_neg noThis.symm
  have function : afterStart "function".toList (c :: rest) = none := if_neg noFunction.symm
  rw [at?, assigned, this, named, function]
  exact ite_self none

theorem at?_opening (source : Source) {previous : Option Char}
    (starts : atWordStart previous = true) (rest : List Char) :
    at? previous (source.opening ++ rest) = some ⟨source.name.val, rest⟩ := by
  have list : ") \x7b".toList = [')', ' ', '{'] := rfl
  rw [at?, if_pos starts, Source.opening, Source.head, list]
  cases source.binding with
  | assigned path =>
    have value : " = function".toList = ' ' :: '=' :: ' ' :: functionWord := rfl
    simp only [value, List.append_assoc, List.cons_append, List.nil_append,
      assigned_written path source.name source.oneList rest, Option.some_or]
  | named =>
    have word : "function this.".toList = functionWord ++ ' ' :: "this.".toList := rfl
    have noThis (later : List Char) : assigned (functionWord ++ later) = none := rfl
    simp only [word, List.append_assoc, List.cons_append, List.nil_append, noThis,
      named_written source.name source.oneList rest, Option.none_or]

theorem skips_lastMember {text name rest : List Char}
    (found : lastMember text = some (name, rest)) : Skips text rest := by
  fun_induction lastMember text generalizing name rest with
  | case1 => cases found
  | case2 later first after same ih =>
    have dot : Skips ('.' :: later) later := ⟨['.'], rfl, plain_of_all (by decide)⟩
    have read : Skips later after := skips_afterIdentifier (by rw [afterIdentifier, same]; rfl)
    rw [Option.or_eq_some_iff] at found
    obtain deeper | ⟨_, last⟩ := found
    · exact (dot.trans read).trans (ih deeper)
    · cases last
      exact dot.trans read
  | case3 => cases found
  | case4 => cases found

/-- Before the word `function` a declaration holds no braces. -/
theorem function_of_at? {previous : Option Char} {text : List Char} {declaration : Declaration}
    (found : at? previous text = some declaration) :
    ∃ front behind, text = front ++ (functionWord ++ behind) ∧ ∀ c ∈ front, isPlain c = true := by
  rw [at?] at found
  split at found
  · rw [Option.or_eq_some_iff] at found
    obtain assigns | ⟨_, names⟩ := found
    · obtain ⟨path, this, assigns⟩ := Option.bind_eq_some_iff.mp assigns
      obtain ⟨⟨name, rest⟩, member, assigns⟩ := Option.bind_eq_some_iff.mp assigns
      obtain ⟨value, equals, assigns⟩ := Option.bind_eq_some_iff.mp assigns
      obtain ⟨function, word, _⟩ := Option.bind_eq_some_iff.mp assigns
      have begins : Skips text path := skips_afterStart (plain_of_all (by decide)) this
      have blanks : Skips rest (dropBlanks rest) := skips_dropWhile isPlain_of_blank rest
      have sign : Skips (dropBlanks rest) value :=
        skips_afterStart (plain_of_all (by decide)) equals
      have blanksBehind : Skips value (dropBlanks value) := skips_dropWhile isPlain_of_blank value
      obtain ⟨front, split, plain⟩ :=
        (((begins.trans (skips_lastMember member)).trans blanks).trans sign).trans blanksBehind
      refine ⟨front, function, ?_, plain⟩
      rw [split, append_of_afterStart word]
      rfl
    · obtain ⟨spaced, word, _⟩ := Option.bind_eq_some_iff.mp names
      have begins : text = functionWord ++ spaced := append_of_afterStart word
      exact ⟨[], spaced, begins, fun c mem => by cases mem⟩
  · cases found

/-- A line feed and a brace part the word `function` from plain characters before them. -/
theorem function_before_brace {front behind quiet later : List Char}
    (plain : ∀ c ∈ front, isPlain c = true)
    (split : front ++ (functionWord ++ behind) = quiet ++ '\n' :: '}' :: later) :
    functionWord <:+: quiet := by
  obtain ⟨inside, rfl, ends⟩ | ⟨beyond, rfl, ends⟩ := List.append_eq_append_iff.mp split
  · obtain ⟨after, rfl, _⟩ | ⟨cut, whole, ends⟩ := List.append_eq_append_iff.mp ends
    · exact ⟨front, after, List.append_assoc ..⟩
    · cases cut with
      | nil =>
        rw [List.append_nil] at whole
        exact ⟨front, [], by rw [whole, List.append_nil]⟩
      | cons c cut =>
        injection ends with lineFeed
        have mem : '\n' ∈ functionWord := by
          rw [whole, lineFeed]
          exact List.mem_append_right _ List.mem_cons_self
        exact absurd mem (by decide)
  · cases beyond with
    | nil => cases ends
    | cons c beyond =>
      cases beyond with
      | nil => cases ends
      | cons d beyond =>
        injection ends with _ ends
        injection ends with brace
        have isBrace : isPlain '}' = true := by
          rw [brace]
          exact plain d (List.mem_append_right _ (List.mem_cons_of_mem _ List.mem_cons_self))
        exact absurd isBrace (by decide)

theorem allFrom_none {previous : Option Char} {c : Char} {rest : List Char}
    (none : at? previous (c :: rest) = none) :
    allFrom 0 previous (c :: rest) = allFrom 0 (some c) rest := by
  rw [allFrom, none]

/-- In a body without the word `function` no declaration begins, not even one that would end
behind it. -/
theorem allFrom_quiet {quiet : List Char} (noFunction : ¬functionWord <:+: quiet)
    (previous : Option Char) (later : List Char) :
    allFrom 0 previous (quiet ++ '\n' :: '}' :: later) = allFrom 0 (some '}') later := by
  induction quiet generalizing previous with
  | nil =>
    rw [List.nil_append, allFrom_none (at?_of_first (by decide) (by decide) _ _),
      allFrom_none (at?_of_first (by decide) (by decide) _ _)]
  | cons c quiet ih =>
    have none : at? previous (c :: (quiet ++ '\n' :: '}' :: later)) = none := by
      rw [Option.eq_none_iff_forall_ne_some]
      intro declaration found
      obtain ⟨front, behind, split, plain⟩ := function_of_at? found
      exact noFunction (function_before_brace plain split.symm)
    rw [List.cons_append, allFrom_none none]
    exact ih (fun inner => noFunction (List.infix_cons inner)) _

theorem allFrom_skip (passed : List Char) (previous : Option Char) (rest : List Char) :
    ∃ before, allFrom passed.length previous (passed ++ rest) = allFrom 0 before rest := by
  induction passed generalizing previous with
  | nil => exact ⟨previous, rfl⟩
  | cons c passed ih => exact ih (some c)

theorem allFrom_found {previous : Option Char} {opening rest : List Char}
    {declaration : Declaration} (filled : opening ≠ [])
    (found : at? previous (opening ++ rest) = some declaration) (after : declaration.after = rest) :
    ∃ before, allFrom 0 previous (opening ++ rest) = declaration :: allFrom 0 before rest := by
  cases opening with
  | nil => exact absurd rfl filled
  | cons c passed =>
    obtain ⟨before, skips⟩ := allFrom_skip passed (some c) rest
    refine ⟨before, ?_⟩
    rw [List.cons_append] at found
    have size : (passed ++ rest).length - declaration.after.length = passed.length := by
      rw [after, List.length_append, Nat.add_sub_cancel]
    rw [List.cons_append, allFrom, found]
    show declaration :: allFrom _ (some c) (passed ++ rest) = _
    rw [size, skips]

/-- What is found in a written handler is its head, and the search goes on behind it. -/
theorem allFrom_text (source : Source) {previous : Option Char}
    (starts : atWordStart previous = true) (later : List Char) :
    allFrom 0 previous (source.text ++ later) =
      ⟨source.name.val, source.body ++ '\n' :: '}' :: (source.ending ++ later)⟩ ::
        allFrom 0 (some '\n') later := by
  have split : source.text ++ later =
      source.opening ++ (source.body ++ '\n' :: '}' :: (source.ending ++ later)) := by
    simp [Source.text]
  have filled : source.opening ≠ [] := by simp [Source.opening]
  have quiet : ¬functionWord <:+: source.body := fun inner => by
    have occurs := (occursIn_iff functionWord source.body).mpr inner
    rw [source.noFunction] at occurs
    cases occurs
  have ending : allFrom 0 (some '}') (source.ending ++ later) = allFrom 0 (some '\n') later := by
    rw [Source.ending]
    cases source.binding with
    | assigned path =>
      show allFrom 0 (some '}') (';' :: '\n' :: later) = _
      rw [allFrom_none (at?_of_first (by decide) (by decide) _ _),
        allFrom_none (at?_of_first (by decide) (by decide) _ _)]
    | named => exact allFrom_none (at?_of_first (by decide) (by decide) _ _)
  obtain ⟨before, found⟩ := allFrom_found filled (at?_opening source starts _) rfl
  rw [split, found, allFrom_quiet quiet, ending]

end Declaration

/-- The handler of a declaration found is the one that was written. -/
theorem handler_of_source (source : Source) (later : List Char) :
    Declaration.handler ⟨source.name.val, source.body ++ '\n' :: '}' :: later⟩ =
      some source.handler := by
  have closes : closesAfter (source.body ++ ['\n']) = true := by
    rw [closesAfter, List.append_assoc, beq_iff_eq, List.length_append]
    exact source.closes
  have lineFeed : Blank ['\n'] := fun c mem => List.mem_singleton.mp mem ▸ by decide
  have line : source.body ++ '\n' :: '}' :: later = (source.body ++ ['\n']) ++ '}' :: later := by
    simp
  have inside : (source.body ++ '\n' :: '}' :: later).take (source.body.length + 1) =
      source.body ++ ['\n'] := by
    rw [line]
    exact List.take_left' (by simp)
  have body : trim (source.body ++ ['\n']) = source.body :=
    trim_between blank_nil source.trimmed lineFeed
  simp only [Declaration.handler, Declaration.body, blockEnd_behind closes, Option.map_some, inside,
    body, Source.handler]

theorem handlers_of_allFrom (sources : List Source) {previous : Option Char}
    (starts : atWordStart previous = true) :
    (Declaration.allFrom 0 previous (sources.flatMap Source.text)).filterMap Declaration.handler =
      sources.map Source.handler := by
  induction sources generalizing previous with
  | nil => rfl
  | cons source later ih =>
    have lineFeed : atWordStart (some '\n') = true := by decide
    rw [List.flatMap_cons, Declaration.allFrom_text source starts,
      List.filterMap_cons_some (handler_of_source source _), ih lineFeed, List.map_cons]

/-- Reading a script that is written out of handlers gives the map of these handlers and nothing
else: each name where it was written first, with the body that was written for it last. -/
theorem handlers_written (sources : List Source) :
    handlers (written sources) = Entries.ofPairs (sources.map Source.handler) ∧
      Entries.keys (handlers (written sources)) =
        (sources.map fun source => String.ofList source.name.val).eraseDups ∧
      ∀ name,
        Entries.find? (handlers (written sources)) name =
          (sources.map Source.handler).reverse.lookup name := by
  have read : handlers (written sources) = Entries.ofPairs (sources.map Source.handler) := by
    rw [handlers, written, String.toList_ofList, Declaration.all,
      handlers_of_allFrom sources (by decide)]
  have names : (sources.map Source.handler).map Prod.fst =
      sources.map fun source => String.ofList source.name.val := List.map_map
  refine ⟨read, ?_, fun name => ?_⟩
  · rw [read, Entries.keys_ofPairs, names]
  · rw [read, Entries.find?_ofPairs]

def goName : Identifier := ⟨"go".toList, by decide +kernel⟩

def repeatedSources : List Source :=
  [ { binding := .assigned []
      name := goName
      parameters := "obj: Button, e".toList
      body := "first();".toList
      oneList := by decide
      trimmed := by decide +kernel
      noFunction := by decide
      closes := by decide +kernel },
    { binding := .named
      name := ⟨"on_größe$".toList, by decide +kernel⟩
      parameters := "function this.go( \x7b".toList
      body := []
      oneList := by decide
      trimmed := by decide +kernel
      noFunction := by decide
      closes := by decide +kernel },
    { binding := .assigned [⟨"form".toList, by decide +kernel⟩, goName]
      name := goName
      parameters := []
      body := "if (a) \x7b this.b = '\x7d'; \x7d // \x7d this.c =".toList
      oneList := by decide
      trimmed := by decide +kernel
      noFunction := by decide
      closes := by decide +kernel } ]

theorem handlers_of_repeatedSources :
    handlers (written repeatedSources) =
      [("go", "if (a) \x7b this.b = '\x7d'; \x7d // \x7d this.c ="), ("on_größe$", "")] := by
  rw [(handlers_written repeatedSources).1]
  decide +kernel

end Formwright.Script
