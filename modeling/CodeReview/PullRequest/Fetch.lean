import CodeReview.PullRequest.Basic
import CodeReview.Retry

/-! # Fetching the diff of a pull request

    The diff is requested from the server; a failed connection or a late
    answer is tried again.  The server is the sequence of its replies. -/

namespace CodeReview

/-- The answer of a server. -/
structure HttpResponse where
  status : Int
  text : Text
  reason : String
deriving DecidableEq, Repr

/-- What comes of a request. -/
inductive HttpReply where
  | response (r : HttpResponse)
  | fault (f : HttpFault)
deriving DecidableEq, Repr

/-- Why there is no diff. -/
inductive FetchError where
  | denied (e : AccessDenied)
  | notFound (pull : PullRequest)
  | forbidden (pull : PullRequest) (status : Int)
  | rejected (response : HttpResponse) (url : String)
  | fault (f : HttpFault)
  | retry (f : RetryFault)
deriving DecidableEq, Repr

namespace FetchError

/-- Whether trying again can help. -/
def mayPass : FetchError → Bool
  | .fault f => f.mayPass
  | _ => false

/-- The side that a status blames. -/
def blame (status : Int) : String := if status < 500 then "Client" else "Server"

/-- The wording of an error. -/
def message : FetchError → String
  | .denied e => e.message
  | .notFound pull => s!"PR #{pull.number} not found in {pull.repository}"
  | .forbidden pull status => s!"Access denied to {pull.repository} (HTTP {status})"
  | .rejected r url =>
      s!"GitHub API error: {r.status} {blame r.status} Error: {r.reason} for url: {url}"
  | .fault f => f.message
  | .retry f => f.message

end FetchError

namespace PullRequest

/-- The address of a pull request. -/
def url (pull : PullRequest) : String :=
  s!"https://api.github.com/repos/{pull.repository}/pulls/{pull.number}"

/-- The request for the diff. -/
def diffRequest (pull : PullRequest) (token : String) : HttpRequest where
  url := pull.url
  headers := [("Authorization", s!"token {token}"),
    ("Accept", "application/vnd.github.v3.diff")]
  timeout := 30

/-- The diff in a reply, if the reply is a success. -/
def diffOf (pull : PullRequest) : HttpReply → Except FetchError Text
  | .fault f => .error (.fault f)
  | .response r =>
      if r.status = 404 then .error (.notFound pull)
      else if r.status = 401 ∨ r.status = 403 then .error (.forbidden pull r.status)
      else if 400 ≤ r.status ∧ r.status < 600 then .error (.rejected r pull.url)
      else .ok r.text

/-- How patiently a diff is requested. -/
def fetchPolicy : RetryPolicy := {}

/-- Requests the diff once. -/
def requestDiff (pull : PullRequest) (token : String) (reply : HttpReply) :
    Traced (Except FetchError Text) := do
  Traced.perform (.get (pull.diffRequest token))
  return pull.diffOf reply

/-- Fetches the diff of a pull request from a server that gives some
    replies, one to each request. -/
def fetchDiff (environment : Environment) (replies : Nat → HttpReply)
    (pull : PullRequest) : ExceptT FetchError Traced Text := do
  let token ← MonadExcept.ofExcept ((pull.access environment).mapError .denied)
  let text ← fetchPolicy.perform FetchError.mayPass
    (fetchPolicy.pauseEntry "fetch_raw_diff" FetchError.message) .retry
    fun n => pull.requestDiff token (replies n)
  ExceptT.lift (Traced.emit .debug
    s!"Fetched {text.length} bytes of diff for {pull.repository}#{pull.number}")
  return text

end PullRequest

end CodeReview
