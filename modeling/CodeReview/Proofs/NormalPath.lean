import CodeReview.Path
import CodeReview.Proofs.Lines

/-! # Paths in normal form

    Reading the text of a path that was read gives the same path
    (`parse_posix_parse`), so that the paths of a batch are compared by
    their texts. -/

namespace CodeReview

namespace Text

/-- A text without separators is one piece. -/
theorem splitOn_of_not_mem {sep : Char} {piece : Text} (h : sep ∉ piece) :
    splitOn sep piece = [piece] := by
  induction piece with
  | nil => rfl
  | cons c piece ih =>
      rw [List.mem_cons, not_or] at h
      rw [splitOn, if_neg (Ne.symm h.1), ih h.2]

/-- Pieces without the separator are found again behind it. -/
theorem splitOn_join {sep : Char} {pieces : List Text} (hne : pieces ≠ [])
    (h : ∀ piece ∈ pieces, sep ∉ piece) :
    splitOn sep (join [sep] pieces) = pieces := by
  induction pieces with
  | nil => exact absurd rfl hne
  | cons piece pieces ih =>
      have hpiece := h piece List.mem_cons_self
      cases pieces with
      | nil => exact splitOn_of_not_mem hpiece
      | cons next pieces =>
          rw [join_cons _ _ (List.cons_ne_nil next pieces),
            List.append_assoc, List.singleton_append,
            splitOn_append_cons hpiece, ih (List.cons_ne_nil next pieces)]
          intro other hother
          exact h other (List.mem_cons_of_mem _ hother)

/-- No piece holds a separator. -/
theorem not_mem_of_mem_splitOn {sep : Char} {text : Text} :
    ∀ piece ∈ splitOn sep text, sep ∉ piece := by
  induction text with
  | nil =>
      intro piece hpiece
      rw [List.mem_singleton.mp hpiece]
      exact List.not_mem_nil
  | cons c rest ih =>
      by_cases hc : c = sep
      · rw [splitOn, if_pos hc]
        exact List.forall_mem_cons.mpr ⟨List.not_mem_nil, ih⟩
      · rw [splitOn, if_neg hc]
        split
        · rename_i hnil
          exact absurd hnil (splitOn_ne_nil sep rest)
        · rename_i piece pieces hsplit
          rw [hsplit, List.forall_mem_cons] at ih
          refine List.forall_mem_cons.mpr ⟨?_, ih.2⟩
          rw [List.mem_cons, not_or]
          exact ⟨Ne.symm hc, ih.1⟩

end Text

namespace Path

open Text

/-- Whether a piece can be a component of a path that was read. -/
structure Proper (piece : Text) : Prop where
  is_component : isComponent piece = true
  no_slash : '/' ∉ piece

/-- The components of a path that was read are proper names: not empty, not
    a dot, and without a slash. -/
theorem proper_of_mem_parse {s : String} :
    ∀ name ∈ (parse s).components, Proper name.toList := by
  intro name hname
  obtain ⟨piece, hpiece, rfl⟩ := List.mem_map.mp hname
  obtain ⟨hsplit, hcomponent⟩ := List.mem_filter.mp hpiece
  rw [String.toList_ofList]
  exact ⟨hcomponent, not_mem_of_mem_splitOn piece hsplit⟩

/-- How many slashes a root is written with. -/
def slashes : PathRoot → Nat
  | .relative => 0
  | .slash => 1
  | .doubleSlash => 2

/-- A root is written by its slashes. -/
theorem text_eq_replicate (root : PathRoot) :
    root.text.toList = List.replicate (slashes root) '/' := by
  cases root <;> decide

/-- A root is read back from its slashes. -/
theorem rootOf_slashes (root : PathRoot) : rootOf (slashes root) = root := by
  cases root <;> rfl

/-- Leading slashes separate no components. -/
theorem filter_splitOn_replicate (n : Nat) (text : Text) :
    (splitOn '/' (List.replicate n '/' ++ text)).filter isComponent
      = (splitOn '/' text).filter isComponent := by
  induction n with
  | zero => rfl
  | succ n ih =>
      rw [List.replicate_succ, List.cons_append, splitOn, if_pos rfl,
        List.filter_cons_of_neg (by decide), ih]

/-- Proper names joined by slashes are cut apart again. -/
theorem filter_splitOn_join {pieces : List Text}
    (h : ∀ piece ∈ pieces, Proper piece) :
    (splitOn '/' (join ['/'] pieces)).filter isComponent = pieces := by
  cases pieces with
  | nil => rfl
  | cons piece pieces =>
      rw [splitOn_join (List.cons_ne_nil _ _) fun p hp => (h p hp).no_slash]
      exact List.filter_eq_self.mpr fun p hp => (h p hp).is_component

/-- What follows the root does not start with a slash. -/
theorem takeWhile_join {pieces : List Text}
    (h : ∀ piece ∈ pieces, Proper piece) :
    (join ['/'] pieces).takeWhile (· == '/') = [] := by
  cases pieces with
  | nil => rfl
  | cons piece pieces =>
      -- the first component is not empty and starts with no slash
      obtain ⟨hcomponent, hslash⟩ := h piece List.mem_cons_self
      cases piece with
      | nil => exact nomatch hcomponent
      | cons c piece =>
          rw [List.mem_cons, not_or] at hslash
          have hc : (c == '/') = false := beq_false_of_ne (Ne.symm hslash.1)
          have hjoin : ∃ rest, join ['/'] ((c :: piece) :: pieces) = c :: rest := by
            cases pieces with
            | nil => exact ⟨piece, rfl⟩
            | cons next pieces => exact ⟨_, rfl⟩
          obtain ⟨rest, hrest⟩ := hjoin
          rw [hrest, List.takeWhile_cons, hc]
          rfl

/-- The slashes in front are counted up to the first component. -/
theorem takeWhile_replicate_append {n : Nat} {text : Text}
    (h : text.takeWhile (· == '/') = []) :
    ((List.replicate n '/' ++ text).takeWhile (· == '/')).length = n := by
  induction n with
  | zero => rw [List.replicate_zero, List.nil_append, h, List.length_nil]
  | succ n ih =>
      rw [List.replicate_succ, List.cons_append, List.takeWhile_cons_of_pos rfl,
        List.length_cons, ih]

/-- Slashes and proper components are read back. -/
theorem parse_text {root : PathRoot} {components : List String}
    (h : ∀ name ∈ components, Proper name.toList) :
    parse (String.ofList
        (root.text.toList ++ join ['/'] (components.map String.toList)))
      = ⟨root, components⟩ := by
  have hpieces : ∀ piece ∈ components.map String.toList, Proper piece := by
    intro piece hpiece
    obtain ⟨name, hname, rfl⟩ := List.mem_map.mp hpiece
    exact h name hname
  rw [parse, String.toList_ofList, text_eq_replicate,
    takeWhile_replicate_append (takeWhile_join hpieces),
    filter_splitOn_replicate, filter_splitOn_join hpieces, rootOf_slashes,
    List.map_map]
  congr 1
  exact List.map_congr_left (fun name _ => String.ofList_toList) |>.trans
    (List.map_id _)

/-- The text of a path with proper components is read as that path. -/
theorem parse_posix {path : Path}
    (h : ∀ name ∈ path.components, Proper name.toList) :
    parse path.posix = path := by
  obtain ⟨root, components⟩ := path
  rw [posix, toText]
  split
  · -- the empty relative path, written as a dot that is no component
    rename_i hroot hcomponents
    have hroot' : root = .relative := hroot
    have hcomponents' : components = [] := hcomponents
    rw [hroot', hcomponents']
    decide
  · exact parse_text h

/-- **NORMAL PATHS**: the text of a path that was read is read as the same
    path. -/
theorem parse_posix_parse (s : String) : parse (parse s).posix = parse s :=
  parse_posix proper_of_mem_parse

end Path

end CodeReview
