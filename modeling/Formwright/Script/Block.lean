/-!
Finding the brace that closes a block of a script. Braces in strings and comments do not count.
-/

namespace Formwright.Script

/-- What follows a string whose opening quote has been passed. A backslash takes the character
after it along. -/
def afterString (quote : Char) : List Char → List Char
  | [] => []
  | c :: rest =>
    if c = quote then rest
    else if c = '\\' then
      match rest with
      | [] => []
      | _ :: later => afterString quote later
    else afterString quote rest

def afterLineComment : List Char → List Char
  | [] => []
  | c :: rest => if c = '\n' then rest else afterLineComment rest

def afterBlockComment : List Char → List Char
  | [] => []
  | c :: rest =>
    match rest with
    | '/' :: later => if c = '*' then later else afterBlockComment rest
    | _ => afterBlockComment rest

def isQuote (c : Char) : Bool := c = '"' || c = '\'' || c = '\x60'

theorem length_afterString_le (quote : Char) (text : List Char) :
    (afterString quote text).length ≤ text.length := by
  fun_induction afterString quote text <;>
    simp only [List.length_cons, List.length_nil] at * <;> omega

theorem length_afterLineComment_le (text : List Char) :
    (afterLineComment text).length ≤ text.length := by
  fun_induction afterLineComment text <;>
    simp only [List.length_cons, List.length_nil] at * <;> omega

theorem length_afterBlockComment_le (text : List Char) :
    (afterBlockComment text).length ≤ text.length := by
  fun_induction afterBlockComment text <;>
    simp only [List.length_cons, List.length_nil] at * <;> omega

/-- The text from the brace that closes the innermost of `depth + 1` open blocks on, that brace
being the first character. -/
def closingBrace (depth : Nat) : List Char → Option (List Char)
  | [] => none
  | c :: rest =>
    if c = '{' then closingBrace (depth + 1) rest
    else if c = '}' then
      match depth with
      | 0 => some (c :: rest)
      | outer + 1 => closingBrace outer rest
    else if isQuote c then closingBrace depth (afterString c rest)
    else if c = '/' && rest.head? == some '/' then closingBrace depth (afterLineComment rest)
    else if c = '/' && rest.head? == some '*' then closingBrace depth (afterBlockComment rest.tail)
    else closingBrace depth rest
termination_by text => text.length
decreasing_by
  all_goals simp only [List.length_cons]
  all_goals first
    | omega
    | exact Nat.lt_succ_of_le (length_afterString_le _ _)
    | exact Nat.lt_succ_of_le (length_afterLineComment_le _)
    | exact Nat.lt_succ_of_le (Nat.le_trans (length_afterBlockComment_le _) (by simp))

def blockEnd (text : List Char) : Option Nat :=
  (closingBrace 0 text).map fun rest => text.length - rest.length

end Formwright.Script
