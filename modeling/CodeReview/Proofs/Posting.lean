import CodeReview.Proofs.Outcome
import CodeReview.PullRequest.Comment

/-! # Posting under every server

    Which steps posting a comment takes depends on its mark and on the
    comments that are there, but not on its body (`outcome_post`).  The
    first step that fails says why a comment is not posted
    (`post?_eq_error_iff`). -/

namespace CodeReview

/-- Whether an error is explained to whoever asked: all are, but for a
    request that does not come through without being malformed. -/
def PostError.IsExplained : PostError → Prop
  | .lost f => ∃ name, f.kind = .malformed name
  | _ => True

namespace CommentServer

@[simp] theorem outcome_perform (server : CommentServer) (step : PostStep)
    (event : Event) :
    outcome (server.perform step event) = server.answer step := by
  rw [perform, outcome_bind, outcome_lift]
  exact outcome_ofExcept _

/-- The last step of posting. -/
def lastStep : PostAction → PostStep
  | .edit _ => .editComment
  | .create => .createComment

/-- The steps of posting a comment with a mark. -/
def steps (server : CommentServer) (marker : String) : List PostStep :=
  [.openRepository, .openPull]
    ++ (if marker = "" then [] else [.listComments])
    ++ [lastStep (PostAction.choose marker server.comments)]

/-- The number of the comment that is edited or created. -/
def commentId (server : CommentServer) : PostAction → Int
  | .edit id => id
  | .create => server.newId

theorem outcome_finish (server : CommentServer) (request : PostRequest) :
    outcome (server.finish request) = do
      let action := PostAction.choose request.marker server.comments
      server.answer (lastStep action)
      return server.commentId action := by
  rw [finish]
  cases PostAction.choose request.marker server.comments with
  | edit id => simp only [outcome_bind, outcome_perform, outcome_lift]; rfl
  | create => simp only [outcome_bind, outcome_perform, outcome_lift]; rfl

/-- Posting a comment with a mark, without the log. -/
def post? (server : CommentServer) (environment : Environment)
    (pull : PullRequest) (marker : String) : Except PostError Int := do
  let _ ← (pull.access environment).mapError .denied
  (server.steps marker).forM server.answer
  return server.commentId (PostAction.choose marker server.comments)

/-- **POSTING**: whether a comment is posted, and under which number, does
    not depend on its body. -/
theorem outcome_post (server : CommentServer) (environment : Environment)
    (connected : Bool) (request : PostRequest) :
    outcome (server.post environment connected request)
      = server.post? environment request.pull request.marker := by
  cases connected <;> by_cases hmarker : request.marker = "" <;>
    simp [post, post?, steps, hmarker, outcome_finish]
  -- what remains is a connection that is opened and yields nothing
  all_goals rfl

/-- Steps come to the first objection to one of them. -/
theorem forM_answer (server : CommentServer) (steps : List PostStep) :
    steps.forM server.answer
      = match steps.findSome? server.objection? with
        | none => .ok ()
        | some e => .error e := by
  induction steps with
  | nil => rfl
  | cons step steps ih =>
      show (server.answer step >>= fun _ => steps.forM server.answer) = _
      rw [answer, List.findSome?_cons]
      cases server.objection? step with
      | none => exact ih
      | some e => rfl

/-- **OBJECTIONS**: a comment is not posted if there is no access to the
    pull request, or for the first objection to one of the steps. -/
theorem post?_eq_error_iff {server : CommentServer} {environment : Environment}
    {pull : PullRequest} {marker : String} {e : PostError} :
    server.post? environment pull marker = .error e
      ↔ (∃ denied, pull.access environment = .error denied ∧ e = .denied denied)
        ∨ (∃ token, pull.access environment = .ok token)
          ∧ (server.steps marker).findSome? server.objection? = some e := by
  rw [post?, forM_answer]
  -- access comes first; after that the first step that meets an objection
  -- decides
  cases pull.access environment with
  | error denied =>
      constructor
      · intro h
        exact .inl ⟨denied, rfl, (Except.error.inj h).symm⟩
      · rintro (⟨_, hdenied, rfl⟩ | ⟨⟨_, htoken⟩, _⟩)
        · cases hdenied
          rfl
        · exact nomatch htoken
  | ok token =>
      cases (server.steps marker).findSome? server.objection? with
      | none =>
          refine iff_of_false nofun ?_
          rintro (⟨_, hdenied, _⟩ | ⟨_, hnone⟩)
          · exact nomatch hdenied
          · exact nomatch hnone
      | some objection =>
          constructor
          · intro h
            exact .inr ⟨⟨token, rfl⟩, congrArg some (Except.error.inj h)⟩
          · rintro (⟨_, hdenied, _⟩ | ⟨_, hsome⟩)
            · exact nomatch hdenied
            · cases hsome
              rfl

end CommentServer

end CodeReview
