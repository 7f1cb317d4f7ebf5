import CodeReview.Json.Printer
import CodeReview.Json.Shown
import CodeReview.PullRequest.Basic
import CodeReview.Trace

/-! # Comments on a pull request

    A comment is posted, or an earlier one that starts with a mark is
    edited in its place, so that later runs keep a single comment. -/

namespace CodeReview

/-- A comment on a pull request; its body may be missing. -/
structure Comment where
  id : Int
  body : Option String
deriving DecidableEq, Repr

/-- The steps of posting that can fail. -/
inductive PostStep where
  | openRepository
  | openPull
  | listComments
  | editComment
  | createComment
deriving DecidableEq, Repr

/-- A refusal by the server. -/
structure Refusal where
  status : Int
  data : Json := .null
  message : String := ""

namespace Refusal

/-- The data of a refusal as text behind a blank, if there are any. -/
def dataText : Json → String
  | .null => ""
  | data => " " ++ data.render .ascii

/-- The full text of a refusal. -/
def text (r : Refusal) : String :=
  (if r.message = "" then toString r.status else s!"{r.message}: {r.status}")
    ++ dataText r.data

/-- What to tell about a refusal: the message in its data, if there is one,
    else its full text. -/
def reason (r : Refusal) : String :=
  match r.data.member? "message" with
  | some (.str s) => s
  | some value => value.shown
  | none => r.text

end Refusal

/-- The server that keeps the comments: those that are there, the number of
    the next one, a step that it refuses, and one whose request does not
    come through. -/
structure CommentServer where
  comments : List Comment := []
  newId : Int := 1
  refusal : Option (PostStep × Refusal) := none
  lost : Option (PostStep × HttpFault) := none

/-- Why a comment is not posted. -/
inductive PostError where
  | denied (e : AccessDenied)
  | refused (r : Refusal)
  | lost (f : HttpFault)

/-- The wording of an error. -/
def PostError.message : PostError → String
  | .denied e => e.message
  | .refused r => s!"Failed to post comment: {r.reason}"
  | .lost f => f.message

/-- What posting does to the comments. -/
inductive PostAction where
  | edit (id : Int)
  | create
deriving DecidableEq, Repr

namespace PostAction

/-- Whether a comment starts with a mark. -/
def isMarked (marker : String) (comment : Comment) : Bool :=
  marker.toList.isPrefixOf (comment.body.getD "").toList

/-- Edits the first comment with a mark, or creates one if there is none or
    no mark is asked for. -/
def choose (marker : String) (comments : List Comment) : PostAction :=
  if marker = "" then .create
  else
    match comments.find? (isMarked marker) with
    | some comment => .edit comment.id
    | none => .create

end PostAction

/-- A comment to be posted; with a mark, one that starts with it is
    edited. -/
structure PostRequest where
  pull : PullRequest
  body : String
  marker : String := ""
deriving DecidableEq, Repr

namespace CommentServer

/-- What is wrong with a step: its request does not come through, or the
    server refuses it. -/
def objection? (server : CommentServer) (step : PostStep) : Option PostError :=
  ((server.lost.filter (·.1 = step)).map fun lost => .lost lost.2).or
    ((server.refusal.filter (·.1 = step)).map fun refused => .refused refused.2)

/-- What comes of a step. -/
def answer (server : CommentServer) (step : PostStep) : Except PostError Unit :=
  match server.objection? step with
  | none => .ok ()
  | some e => .error e

/-- Takes a step, whatever comes of it. -/
def perform (server : CommentServer) (step : PostStep) (event : Event) :
    ExceptT PostError Traced Unit := do
  ExceptT.lift (Traced.perform event)
  MonadExcept.ofExcept (server.answer step)

/-- Edits or creates the comment. -/
def finish (server : CommentServer) (request : PostRequest) :
    ExceptT PostError Traced Int := do
  match PostAction.choose request.marker server.comments with
  | .edit id =>
      server.perform .editComment (.editComment id request.body)
      ExceptT.lift (Traced.emit .info s!"Updated comment {id} on PR #{request.pull.number}")
      return id
  | .create =>
      server.perform .createComment (.createComment request.body)
      ExceptT.lift (Traced.emit .info
        s!"Posted comment {server.newId} on PR #{request.pull.number}")
      return server.newId

/-- Posts a comment and gives its number.  The connection is opened unless
    it is open already. -/
def post (server : CommentServer) (environment : Environment) (connected : Bool)
    (request : PostRequest) : ExceptT PostError Traced Int := do
  let token ← MonadExcept.ofExcept ((request.pull.access environment).mapError .denied)
  if !connected then ExceptT.lift (Traced.perform (.connect token))
  server.perform .openRepository (.openRepository request.pull.repository)
  server.perform .openPull (.openPull request.pull.number)
  if request.marker != "" then server.perform .listComments .listComments
  server.finish request

/-- Posts comments one after the other over one connection. -/
def postAll (server : CommentServer) (environment : Environment) (connected : Bool) :
    List PostRequest → Traced (List (Except PostError Int))
  | [] => pure []
  | request :: rest => do
      let outcome ← (server.post environment connected request).run
      let connected := connected || (request.pull.access environment).isOk
      let outcomes ← postAll server environment connected rest
      return outcome :: outcomes

end CommentServer

end CodeReview
