import CodeReview.Floating

/-! # JSON values

    A value keeps the order of an object's members, and tells an integer
    from a number that was written with a point or an exponent. -/

namespace CodeReview

/-- A JSON value. -/
inductive Json where
  | null
  | bool (b : Bool)
  | int (n : Int)
  | real (x : Floating)
  | str (s : String)
  | arr (items : List Json)
  | obj (members : List (String × Json))

namespace Json

/-- The member of an object with a name; the last one, if several have
    it. -/
def member? (value : Json) (name : String) : Option Json :=
  match value with
  | obj members => members.reverse.lookup name
  | _ => none

mutual

/-- The integers in a value, in order. -/
def integers : Json → List Int
  | int n => [n]
  | arr items => integersOfItems items
  | obj members => integersOfMembers members
  | _ => []

/-- The integers in some items. -/
def integersOfItems : List Json → List Int
  | [] => []
  | item :: items => integers item ++ integersOfItems items

/-- The integers in some members. -/
def integersOfMembers : List (String × Json) → List Int
  | [] => []
  | (_, value) :: members => integers value ++ integersOfMembers members

end

/-- A natural number as a value. -/
def ofNat (n : Nat) : Json := int n

/-- Texts as an array. -/
def ofStrings (ss : List String) : Json := arr (ss.map str)

/-- A value, or null in place of nothing. -/
def ofOption {α : Type} (f : α → Json) : Option α → Json
  | none => null
  | some a => f a

end Json

end CodeReview
