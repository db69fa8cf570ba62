import Formwright.Proofs.Script.Modes
import Mathlib.Data.Nat.Find
import Mathlib.Order.Bounds.Basic

/-!
A script cut into code, strings and comments. The lexer looks at the next two characters and tells
of each character where it stands. The brace that closes a block is the first one in code with
which one brace more has been closed than opened.
-/

namespace Formwright.Script

inductive Region
  | code
  | string (quote : Quote)
  | lineComment
  | blockComment
deriving DecidableEq

namespace Region

def ofCode (c : Char) : Region :=
  if quoted : isQuote c = true then string ⟨c, quoted⟩ else code

/-- The characters of a text with the regions in which they stand. What begins a comment stands in
code, what ends one in the comment, and so do the quotes of a string. -/
def lex : Region → List Char → List (Region × Char)
  | _, [] => []
  | .code, '/' :: '/' :: rest => (.code, '/') :: (.code, '/') :: lex .lineComment rest
  | .code, '/' :: '*' :: rest => (.code, '/') :: (.code, '*') :: lex .blockComment rest
  | .code, c :: rest => (.code, c) :: lex (ofCode c) rest
  | .string quote, '\\' :: c :: rest =>
    (.string quote, '\\') :: (.string quote, c) :: lex (.string quote) rest
  | .string quote, c :: rest =>
    (.string quote, c) :: lex (if c = quote.val then .code else .string quote) rest
  | .lineComment, c :: rest =>
    (.lineComment, c) :: lex (if c = '\n' then .code else .lineComment) rest
  | .blockComment, '*' :: '/' :: rest =>
    (.blockComment, '*') :: (.blockComment, '/') :: lex .code rest
  | .blockComment, c :: rest => (.blockComment, c) :: lex .blockComment rest

/-- The slash of what begins a comment does not end it. -/
example : (code.lex ['/', '*', '/', '}', '*', '/', '}']).filter (·.2 = '}') =
    [(.blockComment, '}'), (.code, '}')] := by
  decide

theorem map_lex (region : Region) (text : List Char) :
    (region.lex text).map Prod.snd = text := by
  fun_induction lex region text <;> simp_all

def mode : Region → Mode
  | code => .code
  | string quote => .string quote
  | lineComment => .lineComment
  | blockComment => .blockComment

end Region

/-- The places of braces with which one brace more has been closed in code than opened, apart from
`depth` others that were open before. -/
def closings (depth : Nat) (read : List (Region × Char)) : Set Nat :=
  { place | read[place]? = some (.code, '}') ∧
    (read.take (place + 1)).count (.code, '}') =
      (read.take (place + 1)).count (.code, '{') + depth + 1 }

theorem mem_closings {depth place : Nat} {read : List (Region × Char)} :
    place ∈ closings depth read ↔ read[place]? = some (.code, '}') ∧
      (read.take (place + 1)).count (.code, '}') =
        (read.take (place + 1)).count (.code, '{') + depth + 1 := Iff.rfl

/-- Behind a place that does not count the least is the least of what follows. -/
theorem isLeast_behind {places later : Set Nat} (notHere : 0 ∉ places)
    (behind : ∀ place, place + 1 ∈ places ↔ place ∈ later) (place : Nat) :
    IsLeast places place ↔ ∃ before, IsLeast later before ∧ before + 1 = place := by
  constructor
  · rintro ⟨here, least⟩
    cases place with
    | zero => exact absurd here notHere
    | succ before =>
      refine ⟨before, ⟨(behind before).mp here, fun other there => ?_⟩, rfl⟩
      exact Nat.le_of_succ_le_succ (least ((behind other).mpr there))
  · rintro ⟨before, ⟨here, least⟩, rfl⟩
    refine ⟨(behind before).mpr here, fun other there => ?_⟩
    cases other with
    | zero => exact absurd there notHere
    | succ other => exact Nat.succ_le_succ (least ((behind other).mp there))

namespace Mode

def closingPlace (mode : Mode) (depth : Nat) (text : List Char) : Option Nat :=
  (mode.closing depth text).map fun rest => text.length - rest.length

theorem blockEnd_eq (text : List Char) : blockEnd text = code.closingPlace 0 text := by
  rw [blockEnd, closingBrace_eq_closing, closingPlace]

theorem closing_extends {mode : Mode} {depth : Nat} {text rest : List Char}
    (found : mode.closing depth text = some rest) (behind : List Char) :
    mode.closing depth (text ++ behind) = some (rest ++ behind) := by
  rw [closing_append]
  cases level : nesting depth (mode.braces text) with
  | none => rw [found, Option.map_some]
  | some inner =>
    -- a block that is still open at the end of the text has not been closed
    have whole := closing_append mode depth text []
    rw [level, List.append_nil, found] at whole
    cases whole

theorem closingPlace_step {mode after : Mode} {depth inner : Nat} {c : Char} {rest : List Char}
    (step : mode.closing depth (c :: rest) = after.closing inner rest) :
    mode.closingPlace depth (c :: rest) = (after.closingPlace inner rest).map (· + 1) := by
  rw [closingPlace, step, closingPlace, Option.map_map]
  cases found : after.closing inner rest with
  | none => rfl
  | some left =>
    obtain ⟨inside, later, -, split, -⟩ := closing_split found
    have length : rest.length = inside.length + left.length := by
      rw [split, List.length_append]
    simp only [Option.map_some, Function.comp_apply, List.length_cons, Option.some.injEq]
    omega

/-- How code goes on behind a character that is no brace and begins no comment. -/
theorem closing_beginning {c : Char} {rest : List Char} (noOpen : c ≠ '{') (noClose : c ≠ '}')
    (noLine : c = '/' → rest.head? ≠ some '/') (noBlock : c = '/' → rest.head? ≠ some '*')
    (depth : Nat) :
    code.closing depth (c :: rest) = (Region.ofCode c).mode.closing depth rest := by
  rw [closing_code noOpen noClose, ofCode, Region.ofCode]
  by_cases quoted : isQuote c = true
  · rw [dif_pos quoted, dif_pos quoted]
    rfl
  · rw [dif_neg quoted, dif_neg quoted]
    split
    next slash => exact closing_slash depth rest (noLine slash) (noBlock slash)
    next => rfl

def Agrees (mode : Mode) (text : List Char) (read : List (Region × Char)) : Prop :=
  ∀ depth place, mode.closingPlace depth text = some place ↔ IsLeast (closings depth read) place

variable {mode after : Mode} {c : Char} {rest : List Char} {region : Region}
  {read : List (Region × Char)}

theorem agrees_nil (mode : Mode) : mode.Agrees [] [] := by
  intro depth place
  constructor
  · intro found
    cases found
  · rintro ⟨⟨here, -⟩, -⟩
    cases here

theorem agrees_step {depth inner : Nat}
    (step : mode.closing depth (c :: rest) = after.closing inner rest)
    (notHere : 0 ∉ closings depth ((region, c) :: read))
    (behind : ∀ place, place + 1 ∈ closings depth ((region, c) :: read) ↔
      place ∈ closings inner read)
    (agrees : after.Agrees rest read) (place : Nat) :
    mode.closingPlace depth (c :: rest) = some place ↔
      IsLeast (closings depth ((region, c) :: read)) place := by
  rw [closingPlace_step step, isLeast_behind notHere behind, Option.map_eq_some_iff]
  simp only [agrees inner]

/-- What is no brace in code is passed. -/
theorem Agrees.skip (other : region = .code → c ≠ '{' ∧ c ≠ '}')
    (step : ∀ depth, mode.closing depth (c :: rest) = after.closing depth rest)
    (agrees : after.Agrees rest read) : mode.Agrees (c :: rest) ((region, c) :: read) := by
  have noOpen : (region, c) ≠ (.code, '{') := fun same =>
    (other (Prod.mk.inj same).1).1 (Prod.mk.inj same).2
  have noClose : (region, c) ≠ (.code, '}') := fun same =>
    (other (Prod.mk.inj same).1).2 (Prod.mk.inj same).2
  intro depth
  refine agrees_step (step depth) ?_ (fun place => ?_) agrees
  · rintro ⟨here, -⟩
    exact noClose (Option.some.inj here)
  · simp only [mem_closings, List.getElem?_cons_succ, List.take_succ_cons,
      List.count_cons_of_ne noOpen, List.count_cons_of_ne noClose]

theorem Agrees.opened (agrees : code.Agrees rest read) :
    code.Agrees ('{' :: rest) ((.code, '{') :: read) := by
  intro depth
  refine agrees_step (closing_open rfl depth rest) ?_ (fun place => ?_) agrees
  · rintro ⟨here, -⟩
    exact absurd (Option.some.inj here) (by decide)
  · have other : (Region.code, '{') ≠ (.code, '}') := by decide
    rw [mem_closings, mem_closings, List.getElem?_cons_succ, List.take_succ_cons,
      List.count_cons_self, List.count_cons_of_ne other]
    exact and_congr_right fun _ => by omega

theorem Agrees.closed (agrees : code.Agrees rest read) :
    code.Agrees ('}' :: rest) ((.code, '}') :: read) := by
  have other : (Region.code, '}') ≠ (.code, '{') := by decide
  intro depth
  cases depth with
  | zero =>
    have first : IsLeast (closings 0 ((.code, '}') :: read)) 0 := by
      refine ⟨⟨rfl, ?_⟩, fun other _ => Nat.zero_le other⟩
      simp [List.count_cons_of_ne other]
    intro place
    have found : code.closingPlace 0 ('}' :: rest) = some 0 := by
      rw [closingPlace, closing_close rfl]
      simp
    rw [found, Option.some.injEq]
    exact ⟨fun same => same ▸ first, first.unique⟩
  | succ depth =>
    refine agrees_step (closing_close rfl (depth + 1) rest) ?_ (fun place => ?_) agrees
    · rintro ⟨-, counts⟩
      simp [List.count_cons_of_ne other] at counts
    · rw [mem_closings, mem_closings, List.getElem?_cons_succ, List.take_succ_cons,
        List.count_cons_self, List.count_cons_of_ne other]
      exact and_congr_right fun _ => by omega

end Mode

namespace Region

/-- Where the lexer looks ahead the search takes two steps. -/
theorem agrees_lex (region : Region) (text : List Char) :
    region.mode.Agrees text (region.lex text) := by
  fun_induction lex region text with
  | case1 region => exact Mode.agrees_nil region.mode
  | case2 rest ih =>
    have second : Mode.Agrees .slash ('/' :: rest) ((.code, '/') :: lex .lineComment rest) :=
      Mode.Agrees.skip (fun _ => by decide) (fun _ => rfl) ih
    exact second.skip (fun _ => by decide) (fun _ => rfl)
  | case3 rest ih =>
    have second : Mode.Agrees .slash ('*' :: rest) ((.code, '*') :: lex .blockComment rest) :=
      Mode.Agrees.skip (fun _ => by decide) (fun _ => rfl) ih
    exact second.skip (fun _ => by decide) (fun _ => rfl)
  | case4 c rest noLine noBlock ih =>
    by_cases opening : c = '{'
    · subst opening
      exact Mode.Agrees.opened ih
    · by_cases closing : c = '}'
      · subst closing
        exact Mode.Agrees.closed ih
      · exact ih.skip (fun _ => ⟨opening, closing⟩) fun depth =>
          Mode.closing_beginning opening closing
            (fun slash start => by
              obtain ⟨rest, rfl⟩ := List.head?_eq_some_iff.mp start
              exact noLine rest slash rfl)
            (fun slash start => by
              obtain ⟨rest, rfl⟩ := List.head?_eq_some_iff.mp start
              exact noBlock rest slash rfl) depth
  | case5 quote c rest ih =>
    have second : Mode.Agrees (.escape quote) (c :: rest)
        ((.string quote, c) :: lex (.string quote) rest) :=
      Mode.Agrees.skip (by rintro ⟨⟩) (fun _ => Mode.closing_outside rfl _ c rest) ih
    refine second.skip (by rintro ⟨⟩) fun depth => ?_
    have other : '\\' ≠ quote.val := fun same => absurd (same ▸ quote.property) (by decide)
    rw [mode, Mode.closing_outside rfl, Mode.next, if_neg other, if_pos rfl]
  | case6 quote c rest single ih =>
    refine ih.skip (by rintro ⟨⟩) fun depth => ?_
    rw [mode, Mode.closing_outside rfl, Mode.next]
    by_cases ends : c = quote.val
    · rw [if_pos ends, if_pos ends]
      rfl
    · rw [if_neg ends, if_neg ends]
      split
      next escape =>
        -- a backslash at the end of the text
        cases rest with
        | nil => rfl
        | cons d rest => exact (single d rest escape rfl).elim
      next => rfl
  | case7 c rest ih =>
    refine ih.skip (by rintro ⟨⟩) fun depth => ?_
    rw [mode, Mode.closing_outside rfl, Mode.next]
    split <;> rfl
  | case8 rest ih =>
    have second : Mode.Agrees .star ('/' :: rest) ((.blockComment, '/') :: lex .code rest) :=
      Mode.Agrees.skip (by rintro ⟨⟩) (fun _ => rfl) ih
    exact second.skip (by rintro ⟨⟩) fun _ => rfl
  | case9 c rest goesOn ih =>
    refine ih.skip (by rintro ⟨⟩) fun depth => ?_
    rw [mode, Mode.closing_outside rfl, Mode.next]
    split
    next star =>
      cases rest with
      | nil => rfl
      | cons d rest =>
        have noEnd : d ≠ '/' := fun same => goesOn rest star (same ▸ rfl)
        rw [Mode.closing_star, if_neg noEnd]
    next => rfl

end Region

theorem blockEnd_eq_some {text : List Char} {place : Nat} :
    blockEnd text = some place ↔ IsLeast (closings 0 (Region.code.lex text)) place := by
  rw [Mode.blockEnd_eq]
  exact Region.agrees_lex .code text 0 place

theorem blockEnd_eq_none {text : List Char} :
    blockEnd text = none ↔ closings 0 (Region.code.lex text) = ∅ := by
  rw [Set.eq_empty_iff_forall_notMem]
  constructor
  · intro none place here
    classical
    have nonempty : ∃ place, place ∈ closings 0 (Region.code.lex text) := ⟨place, here⟩
    have least : IsLeast (closings 0 (Region.code.lex text)) (Nat.find nonempty) :=
      ⟨Nat.find_spec nonempty, fun _ there => Nat.find_min' nonempty there⟩
    rw [blockEnd_eq_some.mpr least] at none
    cases none
  · intro nowhere
    cases found : blockEnd text with
    | none => rfl
    | some place => exact absurd (blockEnd_eq_some.mp found).1 (nowhere place)

/-- The end of a block is a brace, and what comes behind it does not matter. -/
theorem blockEnd_split {text : List Char} {place : Nat} (ends : blockEnd text = some place) :
    ∃ inside later, text = inside ++ '}' :: later ∧ place = inside.length ∧
      ∀ behind, blockEnd (inside ++ '}' :: behind) = some inside.length := by
  rw [Mode.blockEnd_eq, Mode.closingPlace, Option.map_eq_some_iff] at ends
  obtain ⟨rest, found, rfl⟩ := ends
  obtain ⟨inside, later, rfl, split, closes⟩ := Mode.closing_split found
  refine ⟨inside, later, split, ?_, fun behind => ?_⟩
  · rw [split, List.length_append, Nat.add_sub_cancel]
  · have extended := Mode.closing_extends closes behind
    rw [List.append_assoc] at extended
    rw [Mode.blockEnd_eq, Mode.closingPlace]
    exact (congrArg _ extended).trans (by simp)

end Formwright.Script
