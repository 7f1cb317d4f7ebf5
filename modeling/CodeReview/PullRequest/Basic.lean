import CodeReview.Config.Environment
import CodeReview.Repository

/-! # Pull requests

    A pull request is a number in a repository; working with it takes an
    access token from the environment, and requests that may fail. -/

namespace CodeReview

/-- A pull request. -/
structure PullRequest where
  repository : String
  number : Int
deriving DecidableEq, Repr

/-- Why a pull request cannot be worked with at all. -/
inductive AccessDenied where
  | repository (e : RepositoryError)
  | missingToken
deriving DecidableEq, Repr

/-- The wording of the reason. -/
def AccessDenied.message : AccessDenied → String
  | .repository e => e.message
  | .missingToken => "GITHUB_TOKEN not found. Set it in .env file.\n"
      ++ "Get your token at: https://github.com/settings/tokens"

/-- How a request fails before there is an answer. -/
inductive HttpFaultKind where
  | connection
  | proxy
  | encryption
  | connectTimeout
  | readTimeout
  | timeout
  /-- The request itself is malformed. -/
  | malformed (name : String)
  /-- Anything else. -/
  | other (name : String)
deriving DecidableEq, Repr

/-- A request that failed before there was an answer. -/
structure HttpFault where
  kind : HttpFaultKind
  message : String
deriving DecidableEq, Repr

/-- Whether a failure may pass: the connection failed, or the answer was
    late. -/
def HttpFault.mayPass (fault : HttpFault) : Bool :=
  match fault.kind with
  | .malformed _ => false
  | .other _ => false
  | _ => true

namespace PullRequest

/-- The access token of an environment; an empty one is none. -/
def token? (environment : Environment) : Option String :=
  (environment.lookup "GITHUB_TOKEN").filter (· != "")

/-- The token to work with a pull request, if its repository is well
    named. -/
def access (environment : Environment) (pull : PullRequest) :
    Except AccessDenied String := do
  let _ ← (Repository.check pull.repository).mapError .repository
  match token? environment with
  | some token => return token
  | none => throw .missingToken

end PullRequest

end CodeReview
