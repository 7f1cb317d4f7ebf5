import CodeReview.Proofs.Fetching
import CodeReview.Proofs.NormalPath
import CodeReview.Proofs.Stretches

/-! # Repository names and the addresses made of them

    A repository is named by an owner and a project with a slash between
    them (`IsSlug`), in letters that are no blanks and no slashes.  The end
    of a name is asked for by an edge that is also there in front of a last
    newline (`isValid_eq_startsIn`), so each name is accepted once more
    with a newline behind it (`isValid_iff`).  A name is pasted into the
    address of a request as it is, with that newline and no other blank
    (`filter_isBlank_url`). -/

namespace CodeReview

open Pattern

namespace Repository

/-! ## The grammar -/

/-- The name of an owner or a project. -/
structure IsName (name : Text) : Prop where
  nonempty : name ≠ []
  chars : ∀ c ∈ name, Text.isWord c = true ∨ c = '.' ∨ c = '-'

/-- The name of a repository: an owner, a slash and a project. -/
def IsSlug (text : Text) : Prop :=
  ∃ owner project, text = owner ++ '/' :: project
    ∧ IsName owner ∧ IsName project

/-- The characters of a name, as the test and as the grammar have them. -/
theorem isNameChar_iff {c : Char} :
    isNameChar c = true ↔ Text.isWord c = true ∨ c = '.' ∨ c = '-' := by
  simp only [isNameChar, Bool.or_eq_true, beq_iff_eq, or_assoc]

/-- The test of a name is its grammar. -/
theorem isName_iff {name : Text} : isName name = true ↔ IsName name := by
  rw [isName, Bool.and_eq_true, Bool.not_eq_true', List.isEmpty_eq_false_iff,
    List.all_eq_true]
  simp only [isNameChar_iff]
  exact ⟨fun h => ⟨h.1, h.2⟩, fun h => ⟨h.nonempty, h.chars⟩⟩

/-- What is neither a slash nor a blank in names. -/
theorem IsName.slash_not_mem {name : Text} (h : IsName name) : '/' ∉ name := by
  intro hmem
  have hslash := h.chars '/' hmem
  revert hslash
  decide +kernel

/-- No character of a name is blank. -/
theorem IsName.isBlank_of_mem {name : Text} (h : IsName name) {c : Char}
    (hc : c ∈ name) : Text.isBlank c = false := by
  rw [Bool.eq_false_iff]
  intro hblank
  rcases h.chars c hc with hword | rfl | rfl
  · exact nomatch hword.symm.trans (Text.isWord_of_isBlank hblank)
  · revert hblank
    decide +kernel
  · revert hblank
    decide +kernel

variable {slug : Text}

/-- No character of a repository's name is blank, the slash included. -/
theorem IsSlug.isBlank_of_mem (h : IsSlug slug) {c : Char} (hc : c ∈ slug) :
    Text.isBlank c = false := by
  obtain ⟨owner, project, rfl, howner, hproject⟩ := h
  rcases List.mem_append.mp hc with hc | hc
  · exact howner.isBlank_of_mem hc
  · rcases List.mem_cons.mp hc with rfl | hc
    · decide +kernel
    · exact hproject.isBlank_of_mem hc

/-- A repository's name is one line. -/
theorem IsSlug.newline_not_mem (h : IsSlug slug) : '\n' ∉ slug := by
  intro hmem
  have hblank := h.isBlank_of_mem hmem
  revert hblank
  decide +kernel

/-- A repository's name has one slash, since neither of its parts has
    any. -/
theorem IsSlug.count_slash (h : IsSlug slug) : slug.count '/' = 1 := by
  obtain ⟨owner, project, rfl, howner, hproject⟩ := h
  rw [List.count_append, List.count_cons_self,
    List.count_eq_zero_of_not_mem howner.slash_not_mem,
    List.count_eq_zero_of_not_mem hproject.slash_not_mem]

/-- A text that splits into two names at its slashes is a slug. -/
theorem isSlug_iff {text : Text} :
    IsSlug text ↔ ∃ owner project, Text.splitOn '/' text = [owner, project]
      ∧ isName owner = true ∧ isName project = true := by
  constructor
  · rintro ⟨owner, project, rfl, howner, hproject⟩
    refine ⟨owner, project, ?_, isName_iff.mpr howner, isName_iff.mpr hproject⟩
    rw [Text.splitOn_append_cons howner.slash_not_mem,
      Text.splitOn_of_not_mem hproject.slash_not_mem]
  · rintro ⟨owner, project, hsplit, howner, hproject⟩
    refine ⟨owner, project, ?_, isName_iff.mp howner, isName_iff.mp hproject⟩
    rw [← Text.join_splitOn '/' text, hsplit]
    simp [Text.join]

/-- A text is accepted if it is a repository's name without its last
    newline. -/
theorem isValid_eq_true_iff {text : Text} :
    isValid text = true ↔ IsSlug (dropNewline text) := by
  rw [isSlug_iff, isValid]
  split
  · rename_i owner project hsplit
    rw [hsplit, Bool.and_eq_true]
    constructor
    · intro h
      exact ⟨owner, project, rfl, h⟩
    · rintro ⟨_, _, hsame, h⟩
      cases hsame
      exact h
  · rename_i hno
    exact iff_of_false Bool.false_ne_true
      fun ⟨owner, project, hsplit, _⟩ => hno owner project hsplit

/-- One newline at the end is dropped. -/
theorem dropNewline_append_newline (front : Text) :
    dropNewline (front ++ ['\n']) = front := by
  rw [dropNewline, if_pos (List.getLast?_concat ..), List.dropLast_concat]

/-- Where there is no newline, nothing is dropped. -/
theorem dropNewline_of_not_mem {text : Text} (h : '\n' ∉ text) :
    dropNewline text = text :=
  if_neg fun hlast => h (List.mem_of_getLast? hlast)

/-- What is accepted: a slug, with or without a newline behind it. -/
theorem isValid_iff {text : Text} :
    isValid text = true
      ↔ IsSlug text ∨ ∃ slug, IsSlug slug ∧ text = slug ++ ['\n'] := by
  rw [isValid_eq_true_iff]
  constructor
  · intro h
    by_cases hlast : text.getLast? = some '\n'
    · obtain ⟨front, rfl⟩ := List.getLast?_eq_some_iff.mp hlast
      rw [dropNewline_append_newline] at h
      exact .inr ⟨front, h, rfl⟩
    · rw [dropNewline, if_neg hlast] at h
      exact .inl h
  · rintro (h | ⟨slug, h, rfl⟩)
    · rwa [dropNewline_of_not_mem h.newline_not_mem]
    · rwa [dropNewline_append_newline]

/-- The grammar as a pattern that is anchored at both ends. -/
def namePattern : Pattern :=
  edge .textStart ++ (many1 (one isNameChar) ++ char '/' ++ many1 (one isNameChar))
    ++ edge .textEnd

/-- The pattern for one part of the name reads the names of the grammar. -/
theorem reads_name :
    (many1 (one isNameChar)).Reads IsName := by
  refine (reads_many1 isNameChar).congr fun w => ?_
  simp only [isNameChar_iff]
  exact ⟨fun h => ⟨h.1, h.2⟩, fun h => ⟨h.nonempty, h.chars⟩⟩

/-- What is accepted is what the anchored pattern matches. -/
theorem isValid_eq_startsIn (text : Text) :
    isValid text = namePattern.startsIn text := by
  have hreads : (many1 (one isNameChar) ++ char '/'
      ++ many1 (one isNameChar)).Reads IsSlug := by
    refine (reads_seq (reads_seq reads_name (reads_char '/'))
      reads_name).congr fun w => ?_
    constructor
    · rintro ⟨_, project, rfl, ⟨owner, _, rfl, howner, rfl⟩, hproject⟩
      exact ⟨owner, project, List.append_assoc _ _ _, howner, hproject⟩
    · rintro ⟨owner, project, rfl, howner, hproject⟩
      exact ⟨owner ++ ['/'], project, (List.append_assoc owner ['/'] project).symm,
        ⟨owner, ['/'], rfl, howner, rfl⟩, hproject⟩
  rw [Bool.eq_iff_iff, isValid_iff, namePattern, hreads.startsIn_anchored_iff]

end Repository

/-! ## Addresses -/

namespace PullRequest

open Repository

/-- A blank is no digit, so it does not come from a number. -/
theorem isDigit_of_isBlank {c : Char} (h : Text.isBlank c = true) :
    c.isDigit = false :=
  Text.of_isBlank (P := fun c => c.isDigit = false) (by decide +kernel) h

/-- A whole number is written without blanks. -/
theorem isBlank_of_mem_toString {n : Int} {c : Char}
    (hc : c ∈ (toString n).toList) : Text.isBlank c = false := by
  have hdigit : ∀ m : Nat, ∀ c ∈ (toString m).toList,
      Text.isBlank c = false := by
    intro m c hc
    have hdigits : (toString m).toList = Nat.toDigits 10 m := Nat.toList_repr
    rw [hdigits] at hc
    have hdigit := Nat.isDigit_of_mem_toDigits (by decide) (by decide) hc
    rw [Bool.eq_false_iff]
    intro hblank
    exact nomatch hdigit.symm.trans (isDigit_of_isBlank hblank)
  cases n with
  | ofNat m => exact hdigit m c hc
  | negSucc m =>
      have hminus : (toString (Int.negSucc m)).toList
          = '-' :: (toString (m + 1)).toList := String.toList_append
      rw [hminus] at hc
      rcases List.mem_cons.mp hc with rfl | hc
      · decide +kernel
      · exact hdigit _ c hc

/-- The address of a pull request: its host, the repository's name as it is,
    and its number. -/
theorem toList_url (pull : PullRequest) :
    pull.url.toList = "https://api.github.com/repos/".toList
      ++ pull.repository.toList ++ "/pulls/".toList
      ++ (toString pull.number).toList := by
  rw [← String.toList_append, ← String.toList_append, ← String.toList_append]
  rfl

/-- The address of a pull request has the blanks of the name of its
    repository. -/
theorem filter_isBlank_url (pull : PullRequest) :
    pull.url.toList.filter Text.isBlank
      = pull.repository.toList.filter Text.isBlank := by
  have hfront : "https://api.github.com/repos/".toList.filter Text.isBlank
      = [] := by decide +kernel
  have hmiddle : "/pulls/".toList.filter Text.isBlank = [] := by decide +kernel
  have hnumber : (toString pull.number).toList.filter Text.isBlank = [] :=
    List.filter_eq_nil_iff.mpr fun c hc =>
      Bool.eq_false_iff.mp (isBlank_of_mem_toString hc)
  rw [toList_url, List.filter_append, List.filter_append, List.filter_append,
    hfront, hmiddle, hnumber, List.nil_append, List.append_nil, List.append_nil]

/-- The requests for a diff: where the name of the repository is accepted
    and there is a token, the one for its address; otherwise none. -/
theorem get_mem_doings_fetchDiff_iff {environment : Environment}
    {replies : Nat → HttpReply} {pull : PullRequest} {request : HttpRequest} :
    .get request ∈ doings (pull.fetchDiff environment replies)
      ↔ ∃ token, pull.access environment = .ok token
        ∧ request = pull.diffRequest token := by
  cases haccess : pull.access environment with
  | error e =>
      refine iff_of_false ?_ fun ⟨_, h, _⟩ => nomatch h
      have hnone := (fetchDiff_of_denied haccess replies).2
      intro hmem
      exact List.countP_eq_zero.mp hnone _ hmem rfl
  | ok token =>
      rw [doings_fetchDiff_of_access haccess, fetchEvents]
      simp

end PullRequest

namespace Repository

/-- The blanks of an accepted name. -/
theorem filter_isBlank_of_isValid {text : Text}
    (hvalid : isValid text = true) :
    text.filter Text.isBlank
      = if text.getLast? = some '\n' then ['\n'] else [] := by
  have hslug : ∀ slug, IsSlug slug → slug.filter Text.isBlank = [] :=
    fun slug hslug => List.filter_eq_nil_iff.mpr fun c hc =>
      Bool.eq_false_iff.mp (hslug.isBlank_of_mem hc)
  rcases isValid_iff.mp hvalid with h | ⟨slug, h, rfl⟩
  · rw [hslug text h, if_neg]
    exact fun hlast => h.newline_not_mem (List.mem_of_getLast? hlast)
  · rw [List.filter_append, hslug slug h, if_pos (List.getLast?_concat ..)]
    decide +kernel

/-- An accepted name has one slash, with a newline behind it or not. -/
theorem count_slash_of_isValid {text : Text} (hvalid : isValid text = true) :
    text.count '/' = 1 := by
  rcases isValid_iff.mp hvalid with h | ⟨slug, h, rfl⟩
  · exact h.count_slash
  · rw [List.count_append, h.count_slash]
    rfl

/-- **REPOSITORY NAMES**: a name is accepted, as it is, if it is an owner
    and a project with a slash between them, or that with one newline behind
    it; all others are refused.  A diff is only requested of a repository
    with an accepted name, which has one slash; the address has no blank but
    the newline at the end of the name. -/
theorem check_exact (name : String) :
    (check name = .ok name
      ↔ IsSlug name.toList ∨ ∃ slug, IsSlug slug ∧ name.toList = slug ++ ['\n'])
    ∧ (check name = .ok name ∨ check name = .error ⟨name⟩)
    ∧ ∀ environment replies number request,
      .get request ∈ doings
        (PullRequest.fetchDiff environment replies ⟨name, number⟩) →
      check name = .ok name
        ∧ request.url = PullRequest.url ⟨name, number⟩
        ∧ name.toList.count '/' = 1
        ∧ request.url.toList.filter Text.isBlank
          = if name.toList.getLast? = some '\n' then ['\n'] else [] := by
  have hok : check name = .ok name ↔ isValid name.toList = true := by
    rw [check_eq_ok_iff, and_iff_left rfl]
  refine ⟨hok.trans isValid_iff, ?_, ?_⟩
  · rw [check]
    split
    · exact .inl rfl
    · exact .inr rfl
  · intro environment replies number request hrequest
    obtain ⟨token, haccess, rfl⟩ :=
      PullRequest.get_mem_doings_fetchDiff_iff.mp hrequest
    -- a request is made only with access, and access asks for the name
    -- first
    have hvalid : isValid name.toList = true := by
      rw [← Bool.not_eq_false]
      intro hinvalid
      rw [PullRequest.access, check, hinvalid] at haccess
      cases haccess
    refine ⟨hok.mpr hvalid, rfl, count_slash_of_isValid hvalid, ?_⟩
    exact (PullRequest.filter_isBlank_url _).trans
      (filter_isBlank_of_isValid hvalid)

/-- A newline behind the name is accepted, and gets into the address. -/
theorem check_newline :
    check "acme/shop\n" = .ok "acme/shop\n"
      ∧ ¬ IsSlug "acme/shop\n".toList
      ∧ .get ⟨"https://api.github.com/repos/acme/shop\n/pulls/8",
          [("Authorization", "token secret"),
            ("Accept", "application/vnd.github.v3.diff")], 30⟩
        ∈ doings (PullRequest.fetchDiff [("GITHUB_TOKEN", "secret")]
          (fun _ => .response ⟨200, [], "OK"⟩) ⟨"acme/shop\n", 8⟩) := by
  have hvalid : isValid "acme/shop\n".toList = true := by decide +kernel
  have hcheck : check "acme/shop\n" = .ok "acme/shop\n" :=
    check_eq_ok_iff.mpr ⟨hvalid, rfl⟩
  refine ⟨hcheck, fun h => h.newline_not_mem (by decide +kernel), ?_⟩
  rw [PullRequest.get_mem_doings_fetchDiff_iff]
  refine ⟨"secret", ?_, by decide +kernel⟩
  rw [PullRequest.access, hcheck]
  rfl

end Repository

end CodeReview
