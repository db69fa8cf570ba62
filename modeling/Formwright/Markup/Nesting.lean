import Formwright.Text.Substitution

/-!
How deep the tags of a document nest, found without reading it as a tree.
-/

namespace Formwright.Markup

def afterText (terminator : List Char) : List Char → List Char
  | [] => []
  | c :: rest =>
    if terminator.isPrefixOf (c :: rest) then (c :: rest).drop terminator.length
    else afterText terminator rest

/-- Goes to the `>` that ends a start tag; quoted values may hold others. Gives the character
before it and what follows it, and none if the tag does not end. -/
def endOfTag (quote : Option Char) (previous : Char) : List Char → Option (Char × List Char)
  | [] => none
  | c :: rest =>
    match quote with
    | some q => endOfTag (if c = q then none else some q) c rest
    | none =>
      if c = '>' then some (previous, rest)
      else endOfTag (if c = '"' || c = '\'' then some c else none) c rest

theorem length_afterText_le (terminator text : List Char) :
    (afterText terminator text).length ≤ text.length := by
  induction text with
  | nil => simp [afterText]
  | cons c rest ih =>
    unfold afterText
    split
    · simp
    · simp only [List.length_cons]; omega

theorem length_endOfTag_lt {quote : Option Char} {previous last : Char} {text rest : List Char}
    (found : endOfTag quote previous text = some (last, rest)) : rest.length < text.length := by
  induction text generalizing quote previous with
  | nil => simp [endOfTag] at found
  | cons c later ih =>
    unfold endOfTag at found
    split at found
    · have := ih found; simp only [List.length_cons]; omega
    · split at found
      · simp only [Option.some.injEq, Prod.mk.injEq] at found
        simp [found.2]
      · have := ih found; simp only [List.length_cons]; omega

/-- Whether more than `limit` tags are open at once somewhere in the rest of a document, when
`depth` are open before it. Comments, character data, instructions and declarations do not nest. -/
def exceedsDepth (limit depth : Nat) : List Char → Bool
  | [] => false
  | c :: rest =>
    if c != '<' then exceedsDepth limit depth rest
    else if "!--".toList.isPrefixOf rest then
      exceedsDepth limit depth (afterText "-->".toList rest)
    else if "![CDATA[".toList.isPrefixOf rest then
      exceedsDepth limit depth (afterText "]]>".toList rest)
    else if rest.head? == some '?' then exceedsDepth limit depth (afterText "?>".toList rest)
    else if rest.head? == some '!' then exceedsDepth limit depth (afterText ['>'] rest)
    else if rest.head? == some '/' then exceedsDepth limit (depth - 1) (afterText ['>'] rest)
    else
      match found : endOfTag none c rest with
      | none => false
      | some ('/', later) => exceedsDepth limit depth later
      | some (_, later) => limit < depth + 1 || exceedsDepth limit (depth + 1) later
termination_by text => text.length
decreasing_by
  all_goals simp only [List.length_cons]
  all_goals first
    | omega
    | exact Nat.lt_succ_of_le (length_afterText_le _ _)
    | exact Nat.lt_succ_of_lt (length_endOfTag_lt found)

def nestsDeeperThan (limit : Nat) (document : List Char) : Bool := exceedsDepth limit 0 document

end Formwright.Markup
