/-!
Finding a text inside another, and replacing the matches of a pattern from left to right. Matches
do not overlap, and a pattern may look at the character before it, replaced or not.
-/

namespace Formwright.Text

def afterStart : List Char → List Char → Option (List Char)
  | [], text => some text
  | _ :: _, [] => none
  | s :: start, c :: text => if s = c then afterStart start text else none

def occursIn (needle : List Char) : List Char → Bool
  | [] => needle.isEmpty
  | c :: rest => needle.isPrefixOf (c :: rest) || occursIn needle rest

/-- Given the character before and the text from here, the length of a match that starts here. -/
abbrev Matcher := Option Char → List Char → Option Nat

/-- The first `skip` characters belong to a match already replaced. An empty match is none. -/
def replaceMatches (find : Matcher) (replacement : List Char) :
    Nat → Option Char → List Char → List Char
  | _, _, [] => []
  | skip + 1, _, c :: rest => replaceMatches find replacement skip (some c) rest
  | 0, previous, c :: rest =>
    match find previous (c :: rest) with
    | some (more + 1) => replacement ++ replaceMatches find replacement more (some c) rest
    | _ => c :: replaceMatches find replacement 0 (some c) rest

def replaceAll (old new : List Char) (text : List Char) : List Char :=
  let find : Matcher := fun _ rest => if old.isPrefixOf rest then some old.length else none
  replaceMatches find new 0 none text

end Formwright.Text
