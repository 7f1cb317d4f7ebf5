import CodeReview.Text.Quoted
import CodeReview.Text.Word

/-! # Repository names

    A repository is named by its owner and its project, with a slash
    between them.  One newline behind the name is let through. -/

namespace CodeReview

namespace Repository

/-- A character of the name of an owner or a project. -/
def isNameChar (c : Char) : Bool := Text.isWord c || c == '.' || c == '-'

/-- The name of an owner or a project. -/
def isName (text : Text) : Bool := !text.isEmpty && text.all isNameChar

/-- A text without a newline at its end. -/
def dropNewline (text : Text) : Text :=
  if text.getLast? = some '\n' then text.dropLast else text

/-- Whether a text names a repository. -/
def isValid (text : Text) : Bool :=
  match Text.splitOn '/' (dropNewline text) with
  | [owner, project] => isName owner && isName project
  | _ => false

end Repository

/-- A text that names no repository. -/
structure RepositoryError where
  name : String
deriving DecidableEq, Repr

/-- The wording of the error. -/
def RepositoryError.message (e : RepositoryError) : String :=
  s!"Invalid repo format: {Text.quote e.name}. "
    ++ "Expected 'owner/repo' (e.g. 'rails/rails')."

/-- The name of a repository, if it is one. -/
def Repository.check (name : String) : Except RepositoryError String :=
  if isValid name.toList then .ok name else .error ⟨name⟩

/-- A valid name is accepted as it is, and nothing else is. -/
theorem Repository.check_eq_ok_iff {name result : String} :
    check name = .ok result ↔ isValid name.toList = true ∧ result = name := by
  by_cases h : isValid name.toList = true
  · simp only [check, h, if_true, Except.ok.injEq, true_and]
    exact eq_comm
  · simp [check, h]

end CodeReview
