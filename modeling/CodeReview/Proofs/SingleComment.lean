import CodeReview.Proofs.Posting
import CodeReview.Report.Basic
import Mathlib.Data.List.Nodup

/-! # A single comment

    Runs that post the review of a pull request one after the other.  The
    server keeps the comments and reacts to what a run does to it.  The
    first run edits the first comment with the mark, or creates one; its
    body starts with the mark again, so every later run finds that comment
    and edits it. -/

namespace CodeReview

namespace CommentServer

/-- The comments after a run did something: an edit gives the comment with
    its number another body, and a new comment comes last, under the number
    that the server has ready. -/
def react (newId : Int) (comments : List Comment) : Event → List Comment
  | .editComment id body =>
      comments.map fun c => if c.id = id then { c with body := some body } else c
  | .createComment body => comments ++ [⟨newId, some body⟩]
  | _ => comments

/-- What an action does to the server. -/
def writing (body : String) : PostAction → Event
  | .edit id => .editComment id body
  | .create => .createComment body

variable {server : CommentServer}

/-- Whether every step that is taken succeeds. -/
def Willing (server : CommentServer) : Prop :=
  ∀ step, server.objection? step = none

/-- A server that refuses nothing and loses no request is willing. -/
theorem willing_of_none (hrefusal : server.refusal = none)
    (hlost : server.lost = none) : server.Willing := by
  intro step
  rw [objection?, hrefusal, hlost]
  rfl

/-- A willing server lets every step succeed. -/
theorem answer_of_willing (h : server.Willing) (step : PostStep) :
    server.answer step = .ok () := by
  rw [answer, h step]

/-- A step is taken, whatever comes of it. -/
theorem doings_perform (server : CommentServer) (step : PostStep)
    (event : Event) : doings (server.perform step event) = [event] := by
  rw [perform, doings_bind_of_ok (outcome_lift _), doings_lift,
    doings_ofExcept]
  rfl

/-- The last step of posting edits or creates, as the comments on the server
    ask for, whatever comes of it. -/
theorem doings_finish (server : CommentServer) (request : PostRequest) :
    doings (server.finish request)
      = [writing request.body
          (PostAction.choose request.marker server.comments)] := by
  rw [finish]
  cases PostAction.choose request.marker server.comments with
  | edit id =>
      rw [doings_bind_of_silent fun _ => rfl, doings_perform]
      rfl
  | create =>
      rw [doings_bind_of_silent fun _ => rfl, doings_perform]
      rfl

/-- What a step does reaches the comments before anything behind it does. -/
theorem foldl_react_perform {α : Type} (h : server.Willing)
    (step : PostStep) (event : Event) (rest : Unit → ExceptT PostError Traced α)
    (newId : Int) (comments : List Comment) :
    (doings (server.perform step event >>= rest)).foldl (react newId) comments
      = (doings (rest ())).foldl (react newId) (react newId comments event) := by
  rw [doings_bind_of_ok ((outcome_perform ..).trans (answer_of_willing h _)),
    doings_perform]
  rfl

/-- Only the last step of posting changes the comments. -/
theorem foldl_react_post (h : server.Willing) {environment : Environment}
    {request : PostRequest} {token : String}
    (haccess : request.pull.access environment = .ok token) (connected : Bool)
    (newId : Int) (comments : List Comment) :
    (doings (server.post environment connected request)).foldl (react newId)
        comments
      = react newId comments (writing request.body
          (PostAction.choose request.marker server.comments)) := by
  have htoken : outcome (MonadExcept.ofExcept
      ((request.pull.access environment).mapError PostError.denied)
      : ExceptT PostError Traced String) = .ok token := by
    rw [outcome_ofExcept, haccess]
    rfl
  -- all steps but the last leave the comments as they are
  have hsteps : (doings (do
      server.perform .openRepository (.openRepository request.pull.repository)
      server.perform .openPull (.openPull request.pull.number)
      if request.marker != "" then server.perform .listComments .listComments
      server.finish request)).foldl (react newId) comments
      = react newId comments (writing request.body
          (PostAction.choose request.marker server.comments)) := by
    rw [foldl_react_perform h, foldl_react_perform h]
    split
    · rw [foldl_react_perform h, doings_finish]
      rfl
    · rw [doings_finish]
      rfl
  -- to connect first adds a step that does not reach the comments
  rw [post, doings_bind_of_ok htoken, doings_ofExcept, List.nil_append]
  cases connected with
  | false =>
      rw [if_pos (by rfl), doings_bind_of_ok (outcome_lift _), doings_lift,
        List.foldl_append]
      exact hsteps
  | true => exact hsteps

/-- On a willing server a run that is let in returns the number of the
    comment that it wrote. -/
theorem post?_of_willing (h : server.Willing) {environment : Environment}
    {pull : PullRequest} {token : String}
    (haccess : pull.access environment = .ok token) (marker : String) :
    server.post? environment pull marker
      = .ok (server.commentId (PostAction.choose marker server.comments)) := by
  have hnone : (server.steps marker).findSome? server.objection? = none :=
    List.findSome?_eq_none_iff.mpr fun step _ => h step
  rw [post?, haccess, forM_answer, hnone]
  rfl

end CommentServer

/-! ## Marks -/

/-- The mark of a pull request is not empty, so comments without it can be
    told apart. -/
theorem Report.marker_ne_empty (pr : Int) : marker pr ≠ "" := by
  unfold marker
  intro h
  have hchars := congrArg String.toList h
  rw [String.toList_append, String.toList_append, String.toList_empty,
    List.append_eq_nil_iff, List.append_eq_nil_iff] at hchars
  exact absurd hchars.1.1 (by decide)

/-- The comment on a pull request starts with its mark. -/
theorem Report.isMarked_comment {result : ReviewResult} {pr limit : Int}
    {body : String} (h : comment result (some pr) limit = .ok body) (id : Int) :
    PostAction.isMarked (marker pr) ⟨id, some body⟩ = true := by
  rw [comment] at h
  cases hmarkdown : markdown result limit with
  | error e =>
      rw [hmarkdown] at h
      exact nomatch h
  | ok text =>
      rw [hmarkdown] at h
      have hbody : marker pr ++ "\n" ++ text = body := Except.ok.inj h
      rw [PostAction.isMarked, List.isPrefixOf_iff_prefix, ← hbody,
        Option.getD_some, String.toList_append, String.toList_append,
        List.append_assoc]
      exact List.prefix_append _ _

namespace PostAction

variable {marker : String} {before after : List Comment} {c : Comment}

/-- The first marked comment is the one with none before it. -/
theorem find?_isMarked (hbefore : ∀ x ∈ before, isMarked marker x = false)
    (hc : isMarked marker c = true) :
    (before ++ c :: after).find? (isMarked marker) = some c := by
  have hnone : before.find? (isMarked marker) = none := by
    rw [List.find?_eq_none]
    intro x hx
    rw [hbefore x hx]
    exact Bool.false_ne_true
  rw [List.find?_append, hnone, List.find?_cons_of_pos hc]
  rfl

/-- A marked comment counts once more than those behind it. -/
theorem countP_isMarked (hbefore : ∀ x ∈ before, isMarked marker x = false)
    (hc : isMarked marker c = true) :
    (before ++ c :: after).countP (isMarked marker)
      = after.countP (isMarked marker) + 1 := by
  have hnone : before.countP (isMarked marker) = 0 :=
    List.countP_eq_zero.mpr fun x hx => Bool.eq_false_iff.mp (hbefore x hx)
  rw [List.countP_append, hnone, Nat.zero_add, List.countP_cons_of_pos hc]

/-- Where there is a marked comment, the first is edited. -/
theorem choose_of_marked (hmarker : marker ≠ "")
    (hbefore : ∀ x ∈ before, isMarked marker x = false)
    (hc : isMarked marker c = true) :
    choose marker (before ++ c :: after) = .edit c.id := by
  rw [choose, if_neg hmarker, find?_isMarked hbefore hc]

/-- Where no comment is marked, one is created. -/
theorem choose_of_unmarked {comments : List Comment}
    (h : comments.find? (isMarked marker) = none) :
    choose marker comments = .create := by
  rw [choose, h]
  exact ite_self _

end PostAction

/-- With distinct numbers, an edit changes one comment. -/
theorem CommentServer.react_edit {before after : List Comment} {c : Comment}
    (hids : ((before ++ c :: after).map Comment.id).Nodup) (newId : Int)
    (body : String) :
    react newId (before ++ c :: after) (.editComment c.id body)
      = before ++ ⟨c.id, some body⟩ :: after := by
  rw [List.map_append, List.map_cons, List.nodup_middle, List.nodup_cons,
    List.mem_append] at hids
  have hkeep {xs : List Comment} (h : c.id ∉ xs.map Comment.id) :
      (xs.map fun x => if x.id = c.id then { x with body := some body } else x)
        = xs := by
    refine (List.map_congr_left ?_).trans (List.map_id xs)
    intro x hx
    exact if_neg fun (heq : x.id = c.id) => h (heq ▸ List.mem_map_of_mem hx)
  rw [react, List.map_append, List.map_cons, if_pos rfl,
    hkeep fun h => hids.1 (.inl h), hkeep fun h => hids.1 (.inr h)]

/-! ## Runs -/

/-- A run that posts the review of a pull request: what it reports, the
    environment that lets it in, and the number that the server has ready
    for a new comment. -/
structure PostRun (pull : PullRequest) where
  result : ReviewResult
  limit : Int
  body : String
  rendered : Report.comment result (some pull.number) limit = .ok body
  environment : Environment
  token : String
  granted : pull.access environment = .ok token
  connected : Bool := false
  newId : Int

namespace PostRun

variable {pull : PullRequest}

/-- Posts the report of a run to the comments that are there. -/
def post (run : PostRun pull) (comments : List Comment) :
    ExceptT PostError Traced Int :=
  CommentServer.post { comments, newId := run.newId } run.environment
    run.connected
    { pull, body := run.body, marker := Report.marker pull.number }

/-- The comments after a run. -/
def after (run : PostRun pull) (comments : List Comment) : List Comment :=
  (doings (run.post comments)).foldl (CommentServer.react run.newId) comments

/-- The comments after some runs, and what each of them returned. -/
def postAll : List Comment → List (PostRun pull) →
    List Comment × List (Except PostError Int)
  | comments, [] => (comments, [])
  | comments, run :: runs =>
      let rest := postAll (run.after comments) runs
      (rest.1, outcome (run.post comments) :: rest.2)

/-- A run does one thing to the comments: it writes its report. -/
theorem after_eq (run : PostRun pull) (comments : List Comment) :
    run.after comments
      = CommentServer.react run.newId comments (CommentServer.writing run.body
          (PostAction.choose (Report.marker pull.number) comments)) := by
  have h := @CommentServer.foldl_react_post
    { comments, newId := run.newId }
    (CommentServer.willing_of_none rfl rfl) run.environment
    { pull, body := run.body, marker := Report.marker pull.number } run.token
    run.granted run.connected run.newId comments
  exact h

/-- A run returns the number of the comment that it wrote. -/
theorem outcome_eq (run : PostRun pull) (comments : List Comment) :
    outcome (run.post comments)
      = .ok (CommentServer.commentId { comments, newId := run.newId }
          (PostAction.choose (Report.marker pull.number) comments)) := by
  rw [post, CommentServer.outcome_post,
    CommentServer.post?_of_willing
      (CommentServer.willing_of_none rfl rfl) run.granted]

/-- Every report starts with the mark, so the comment it is in is marked. -/
theorem isMarked_body (run : PostRun pull) (id : Int) :
    PostAction.isMarked (Report.marker pull.number) ⟨id, some run.body⟩ = true :=
  Report.isMarked_comment run.rendered id

variable {before rest : List Comment} {c : Comment}

/-- A run edits the first comment with the mark. -/
theorem step_of_marked (run : PostRun pull)
    (hids : ((before ++ c :: rest).map Comment.id).Nodup)
    (hbefore : ∀ x ∈ before,
      PostAction.isMarked (Report.marker pull.number) x = false)
    (hc : PostAction.isMarked (Report.marker pull.number) c = true) :
    run.after (before ++ c :: rest) = before ++ ⟨c.id, some run.body⟩ :: rest
      ∧ outcome (run.post (before ++ c :: rest)) = .ok c.id := by
  have hchoose : PostAction.choose (Report.marker pull.number)
      (before ++ c :: rest) = .edit c.id :=
    PostAction.choose_of_marked (Report.marker_ne_empty pull.number) hbefore hc
  rw [after_eq, outcome_eq, hchoose]
  exact ⟨CommentServer.react_edit hids run.newId run.body, rfl⟩

/-- Without a marked comment, a run creates one. -/
theorem step_of_unmarked (run : PostRun pull) {comments : List Comment}
    (h : comments.find? (PostAction.isMarked (Report.marker pull.number)) = none) :
    run.after comments = comments ++ [⟨run.newId, some run.body⟩]
      ∧ outcome (run.post comments) = .ok run.newId := by
  rw [after_eq, outcome_eq, PostAction.choose_of_unmarked h]
  exact ⟨rfl, rfl⟩

/-- Runs edit the same comment, one after the other. -/
theorem postAll_of_marked (run : PostRun pull) (runs : List (PostRun pull))
    (hids : ((before ++ c :: rest).map Comment.id).Nodup)
    (hbefore : ∀ x ∈ before,
      PostAction.isMarked (Report.marker pull.number) x = false)
    (hc : PostAction.isMarked (Report.marker pull.number) c = true) :
    postAll (before ++ c :: rest) (run :: runs)
      = (before
          ++ ⟨c.id, some ((run :: runs).getLast (List.cons_ne_nil _ _)).body⟩
          :: rest,
        List.replicate (runs.length + 1) (.ok c.id)) := by
  induction runs generalizing run c with
  | nil =>
      obtain ⟨hafter, houtcome⟩ := step_of_marked run hids hbefore hc
      rw [postAll, postAll, hafter, houtcome]
      rfl
  | cons next runs ih =>
      obtain ⟨hafter, houtcome⟩ := step_of_marked run hids hbefore hc
      have hids' : ((before ++ ⟨c.id, some run.body⟩ :: rest).map
          Comment.id).Nodup := by
        rw [List.map_append, List.map_cons] at hids ⊢
        exact hids
      -- what was posted starts with the mark, so the next run finds it again
      rw [postAll, hafter, houtcome, ih next hids' (run.isMarked_body c.id)]
      rfl

/-- The comment that the first run creates is edited by the others. -/
theorem postAll_of_unmarked (run : PostRun pull) (runs : List (PostRun pull))
    {comments : List Comment} (hids : (comments.map Comment.id).Nodup)
    (hfresh : run.newId ∉ comments.map Comment.id)
    (h : comments.find? (PostAction.isMarked (Report.marker pull.number)) = none) :
    postAll comments (run :: runs)
      = (comments
          ++ [⟨run.newId,
            some ((run :: runs).getLast (List.cons_ne_nil _ _)).body⟩],
        List.replicate (runs.length + 1) (.ok run.newId)) := by
  obtain ⟨hafter, houtcome⟩ := step_of_unmarked run h
  rw [postAll, hafter, houtcome]
  cases runs with
  | nil => rfl
  | cons next runs =>
      -- the new comment has a number of its own and is the first with the
      -- mark, so the later runs edit it
      have hids' : ((comments ++ [Comment.mk run.newId (some run.body)]).map
          Comment.id).Nodup := by
        rw [List.map_append]
        exact List.concat_eq_append ▸ hids.concat hfresh
      have hbefore : ∀ x ∈ comments,
          PostAction.isMarked (Report.marker pull.number) x = false := by
        intro x hx
        exact Bool.eq_false_iff.mpr (List.find?_eq_none.mp h x hx)
      rw [postAll_of_marked next runs hids' hbefore
        (run.isMarked_body run.newId)]
      rfl

/-- **SINGLE COMMENT**: after runs that post the review of a pull request
    there is one comment with its mark, or as many as there were.  The first
    of them holds what the last run reported, and every run returned its
    number.  No other comment changes, and none changes its place. -/
theorem postAll_keeps_single {comments : List Comment}
    (hids : (comments.map Comment.id).Nodup) {runs : List (PostRun pull)}
    (hruns : runs ≠ [])
    (hfresh : ∀ run ∈ runs, run.newId ∉ comments.map Comment.id) :
    let isReview := PostAction.isMarked (Report.marker pull.number)
    let posted := postAll comments runs
    posted.1.countP isReview = max (comments.countP isReview) 1
      ∧ ∃ id,
        posted.1.find? isReview = some ⟨id, some (runs.getLast hruns).body⟩
        ∧ posted.2 = List.replicate runs.length (.ok id)
        ∧ posted.1.filter (·.id ≠ id) = comments.filter (·.id ≠ id)
        ∧ posted.1.map Comment.id = comments.map Comment.id
            ++ if comments.countP isReview = 0 then [id] else [] := by
  intro isReview posted
  -- the first run finds a marked comment or makes one; all later runs edit
  -- that one
  obtain ⟨run, runs, rfl⟩ := List.exists_cons_of_ne_nil hruns
  have hlast := ((run :: runs).getLast hruns).isMarked_body
  cases hfind : comments.find? isReview with
  | none =>
      have hnone : ∀ x ∈ comments, isReview x = false := fun x hx =>
        Bool.eq_false_iff.mpr (List.find?_eq_none.mp hfind x hx)
      have hcount : comments.countP isReview = 0 :=
        List.countP_eq_zero.mpr (List.find?_eq_none.mp hfind)
      have hposted : posted = _ := postAll_of_unmarked run runs hids
        (hfresh run List.mem_cons_self) hfind
      -- no marked comment was there, so the new one is the only one
      rw [hposted, hcount]
      refine ⟨PostAction.countP_isMarked hnone (hlast run.newId), run.newId,
        PostAction.find?_isMarked hnone (hlast run.newId), rfl, ?_, ?_⟩
      · simp
      · simp
  | some c =>
      obtain ⟨hc, before, rest, rfl, hbefore⟩ :=
        List.find?_eq_some_iff_append.mp hfind
      have hnone : ∀ x ∈ before, isReview x = false := fun x hx =>
        Bool.not_eq_eq_eq_not.mp (hbefore x hx)
      have hcount : (before ++ c :: rest).countP isReview
          = rest.countP isReview + 1 := PostAction.countP_isMarked hnone hc
      have hposted : posted = _ := postAll_of_marked run runs hids hnone hc
      -- the first marked comment is rewritten; marked ones behind it stay
      rw [hposted, hcount]
      refine ⟨?_, c.id, PostAction.find?_isMarked hnone (hlast c.id), rfl, ?_, ?_⟩
      · rw [PostAction.countP_isMarked hnone (hlast c.id)]
        exact (Nat.max_eq_left (Nat.succ_pos _)).symm
      · simp
      · simp

/-- A run that found nothing. -/
def calm : PostRun ⟨"acme/shop", 5⟩ where
  result := .empty
  limit := 5
  body := "<!-- Automated review for PR #5 -->\n# Automated Code Review 🤖\n\n"
    ++ "## Overall Impression\nEverything looks solid! No major issues found. 🎉\n\n"
    ++ "---\n*Generated by RuleLens 🤖*"
  rendered := by decide +kernel
  environment := [("GITHUB_TOKEN", "secret")]
  token := "secret"
  granted := by decide +kernel
  newId := 12

/-- A later run that found something to praise. -/
def praising : PostRun ⟨"acme/shop", 5⟩ where
  result := { ReviewResult.empty with positives := ["Short methods."] }
  limit := 5
  body := "<!-- Automated review for PR #5 -->\n# Automated Code Review 🤖\n\n"
    ++ "## Overall Impression\nHey there! Thanks for the PR. Short methods.\n\n"
    ++ "Everything looks solid! No major issues found. 🎉\n\n"
    ++ "---\n*Generated by RuleLens 🤖*"
  rendered := by decide +kernel
  environment := [("GITHUB_TOKEN", "secret")]
  token := "secret"
  granted := by decide +kernel
  newId := 20

/-- The first run adds a comment, and the second one edits it. -/
theorem postAll_calm_praising :
    let comments : List Comment := [⟨3, some "LGTM"⟩, ⟨4, none⟩]
    let isReview := PostAction.isMarked (Report.marker 5)
    let posted := postAll comments [calm, praising]
    (posted.1.countP isReview = max (comments.countP isReview) 1
      ∧ ∃ id,
        posted.1.find? isReview = some ⟨id, some praising.body⟩
        ∧ posted.2 = List.replicate 2 (.ok id)
        ∧ posted.1.filter (·.id ≠ id) = comments.filter (·.id ≠ id)
        ∧ posted.1.map Comment.id = comments.map Comment.id
            ++ if comments.countP isReview = 0 then [id] else [])
    ∧ posted.1 = comments ++ [⟨12, some praising.body⟩] := by
  intro comments isReview posted
  refine ⟨?_, ?_⟩
  · exact @postAll_keeps_single ⟨"acme/shop", 5⟩ comments (by decide)
      [calm, praising] (List.cons_ne_nil _ _) (by decide)
  · exact congrArg Prod.fst (postAll_of_unmarked calm [praising] (by decide)
      (by decide) (by decide +kernel))

end PostRun

end CodeReview
