import CodeReview.Json.Basic
import CodeReview.Text.Quoted

/-! # Values inside messages

    How a value is shown where a message quotes it: texts in quotes,
    brackets and braces around lists and mappings, and capitalised
    constants. -/

namespace CodeReview.Json

mutual

/-- A value as a message shows it. -/
def shown : Json → String
  | null => "None"
  | bool true => "True"
  | bool false => "False"
  | int n => toString n
  | real x => x.toText
  | str s => Text.quote s
  | arr items => "[" ++ String.intercalate ", " (shownItems items) ++ "]"
  | obj members =>
      "\x7b" ++ String.intercalate ", " (shownMembers members) ++ "\x7d"

/-- The items of a list as a message shows them. -/
def shownItems : List Json → List String
  | [] => []
  | item :: items => shown item :: shownItems items

/-- The members of a mapping as a message shows them. -/
def shownMembers : List (String × Json) → List String
  | [] => []
  | (name, value) :: members =>
      (Text.quote name ++ ": " ++ shown value) :: shownMembers members

end

end CodeReview.Json
