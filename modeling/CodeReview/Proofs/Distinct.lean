import CodeReview.Result.Aggregate
import Mathlib.Data.List.Induction

/-! # The first finding of each key

    `Finding.distinct` says on plain lists what an aggregator keeps: of
    findings with one key the first.  Which keys are asked for commutes
    with it, so it can be taken part by part; `Aggregator.kept_add` states
    that adding findings one at a time comes to the same. -/

namespace CodeReview

/-! ## Lists without copies -/

section Copies

variable {α : Type} [BEq α] [LawfulBEq α]

/-- A copy at the end is dropped. -/
theorem eraseDups_concat_of_mem {xs : List α} {x : α} (h : x ∈ xs) :
    (xs ++ [x]).eraseDups = xs.eraseDups := by
  have hgone : ([x].removeAll xs).eraseDups = [] := by
    simp [List.removeAll, h]
  rw [List.eraseDups_append, hgone, List.append_nil]

/-- What is new at the end is kept. -/
theorem eraseDups_concat_of_not_mem {xs : List α} {x : α} (h : x ∉ xs) :
    (xs ++ [x]).eraseDups = xs.eraseDups ++ [x] := by
  have hstays : ([x].removeAll xs).eraseDups = [x] := by
    simp [List.removeAll, h, List.eraseDups_cons]
  rw [List.eraseDups_append, hstays]

/-- Without copies nothing comes twice. -/
theorem nodup_eraseDups (xs : List α) : xs.eraseDups.Nodup := by
  induction xs using List.reverseRecOn with
  | nil => exact List.nodup_nil
  | append_singleton xs x ih =>
      by_cases hx : x ∈ xs
      · rw [eraseDups_concat_of_mem hx]
        exact ih
      · rw [eraseDups_concat_of_not_mem hx]
        refine List.nodup_append.mpr ⟨ih, List.pairwise_singleton _ x, ?_⟩
        intro y hy z hz heq
        rw [List.mem_singleton.mp hz] at heq
        exact hx (heq ▸ List.mem_eraseDups.mp hy)

/-- Where nothing comes twice, nothing is dropped. -/
theorem eraseDups_eq_self {xs : List α} (h : xs.Nodup) :
    xs.eraseDups = xs := by
  induction xs using List.reverseRecOn with
  | nil => rfl
  | append_singleton xs x ih =>
      have hx : x ∉ xs := fun hmem =>
        (List.nodup_append.mp h).2.2 x hmem x List.mem_cons_self rfl
      rw [eraseDups_concat_of_not_mem hx, ih (List.nodup_append.mp h).1]

/-- Whether copies were dropped in front does not matter for what
    follows. -/
theorem eraseDups_append_congr {xs ys : List α}
    (h : xs.eraseDups = ys.eraseDups) (zs : List α) :
    (xs ++ zs).eraseDups = (ys ++ zs).eraseDups := by
  have hmem (x : α) : x ∈ xs ↔ x ∈ ys := by
    rw [← List.mem_eraseDups, h, List.mem_eraseDups]
  have hnew : zs.removeAll xs = zs.removeAll ys := by
    refine List.filter_congr ?_
    intro z _
    rw [Bool.eq_iff_iff]
    simp [hmem]
  rw [List.eraseDups_append, List.eraseDups_append, h, hnew]

/-- A part can be freed of copies first. -/
theorem eraseDups_append_eraseDups (xs ys : List α) :
    (xs ++ ys.eraseDups).eraseDups = (xs ++ ys).eraseDups := by
  induction ys using List.reverseRecOn with
  | nil => rfl
  | append_singleton ys y ih =>
      rw [← List.append_assoc]
      by_cases hy : y ∈ ys
      · rw [eraseDups_concat_of_mem hy, ih,
          eraseDups_concat_of_mem (List.mem_append_right xs hy)]
      · rw [eraseDups_concat_of_not_mem hy, ← List.append_assoc,
          eraseDups_append_congr ih]

/-- What is there already adds nothing. -/
theorem eraseDups_append_of_subset {xs ys : List α} (h : ys ⊆ xs) :
    (xs ++ ys).eraseDups = xs.eraseDups := by
  have hnone : ys.removeAll xs = [] := by
    refine List.filter_eq_nil_iff.mpr ?_
    intro y hy
    simp [h hy]
  rw [List.eraseDups_append, hnone]
  exact List.append_nil _

end Copies

/-! ## Findings of different keys -/

namespace Finding

/-- The first finding of each key, in order. -/
def distinct : List Finding → List Finding
  | [] => []
  | f :: rest => f :: (distinct rest).filter fun g => g.key ≠ f.key

/-- The first finding of a key is kept, and the later ones are dropped. -/
theorem distinct_cons (f : Finding) (rest : List Finding) :
    distinct (f :: rest)
      = f :: (distinct rest).filter fun g => g.key ≠ f.key := rfl

/-- The findings that are kept stay in their order. -/
theorem distinct_sublist (findings : List Finding) :
    (distinct findings).Sublist findings := by
  induction findings with
  | nil => exact List.Sublist.refl _
  | cons f rest ih =>
      rw [distinct_cons]
      exact (List.filter_sublist.trans ih).cons_cons f

/-- No key is lost. -/
theorem mem_keys_distinct {findings : List Finding} {key : Key} :
    key ∈ (distinct findings).map Finding.key
      ↔ key ∈ findings.map Finding.key := by
  induction findings with
  | nil => exact Iff.rfl
  | cons f rest ih =>
      rw [distinct_cons, List.map_cons, List.map_cons, List.mem_cons,
        List.mem_cons, ← ih]
      by_cases hkey : key = f.key
      · exact iff_of_true (Or.inl hkey) (Or.inl hkey)
      · refine or_congr_right ?_
        constructor
        · intro h
          obtain ⟨g, hg, rfl⟩ := List.mem_map.mp h
          exact List.mem_map.mpr ⟨g, (List.mem_filter.mp hg).1, rfl⟩
        · intro h
          obtain ⟨g, hg, rfl⟩ := List.mem_map.mp h
          exact List.mem_map.mpr
            ⟨g, List.mem_filter.mpr ⟨hg, decide_eq_true hkey⟩, rfl⟩

/-- Where keys determine findings, every finding is kept. -/
theorem mem_distinct_iff {findings : List Finding} {f : Finding}
    (h : ∀ f ∈ findings, ∀ g ∈ findings, f.key = g.key → f = g) :
    f ∈ distinct findings ↔ f ∈ findings := by
  refine ⟨fun hf => (distinct_sublist findings).mem hf, ?_⟩
  intro hf
  obtain ⟨g, hg, hkey⟩ := List.mem_map.mp
    (mem_keys_distinct.mpr (List.mem_map.mpr ⟨f, hf, rfl⟩))
  have heq : g = f := h g ((distinct_sublist findings).mem hg) f hf hkey
  exact heq ▸ hg

/-- No key is kept twice. -/
theorem nodup_keys_distinct (findings : List Finding) :
    ((distinct findings).map Finding.key).Nodup := by
  induction findings with
  | nil => exact List.nodup_nil
  | cons f rest ih =>
      rw [distinct_cons, List.map_cons, List.nodup_cons]
      constructor
      · intro h
        obtain ⟨g, hg, hkey⟩ := List.mem_map.mp h
        exact of_decide_eq_true (List.mem_filter.mp hg).2 hkey
      · exact (List.filter_sublist.map Finding.key).nodup ih

/-- Where no key is repeated, all findings are kept. -/
theorem distinct_eq_self {findings : List Finding}
    (h : (findings.map Finding.key).Nodup) : distinct findings = findings := by
  induction findings with
  | nil => rfl
  | cons f rest ih =>
      rw [List.map_cons, List.nodup_cons] at h
      rw [distinct_cons, ih h.2, List.filter_eq_self.mpr]
      intro g hg
      exact decide_eq_true fun hkey =>
        h.1 (List.mem_map.mpr ⟨g, hg, hkey⟩)

/-- Of two lists one after the other, the second adds its new keys. -/
theorem distinct_append (xs ys : List Finding) :
    distinct (xs ++ ys)
      = distinct xs
        ++ (distinct ys).filter fun f => f.key ∉ xs.map Finding.key := by
  induction xs with
  | nil =>
      show distinct ys = [] ++ (distinct ys).filter fun _ => decide (¬ False)
      rw [List.filter_eq_self.mpr (fun _ _ => by decide)]
      rfl
  | cons f rest ih =>
      rw [List.cons_append, distinct_cons, distinct_cons, ih,
        List.filter_append, List.filter_filter, List.cons_append]
      congr 2
      refine List.filter_congr ?_
      intro g _
      rw [List.map_cons, ← Bool.decide_and, decide_eq_decide, List.mem_cons,
        not_or]

/-- Findings that are there already add nothing. -/
theorem distinct_append_self (findings : List Finding) :
    distinct (findings ++ findings) = distinct findings := by
  have hnone : (distinct findings).filter
      (fun f => f.key ∉ findings.map Finding.key) = [] := by
    refine List.filter_eq_nil_iff.mpr ?_
    intro f hf hnew
    refine of_decide_eq_true hnew (List.mem_map.mpr ⟨f, ?_, rfl⟩)
    exact (distinct_sublist findings).subset hf
  rw [distinct_append, hnone, List.append_nil]

/-- Where findings of one key are kept or lost together, it does not matter
    whether they are lost before or after copies are dropped. -/
theorem distinct_filter {findings : List Finding}
    {keep : Finding → Bool}
    (h : ∀ f ∈ findings, ∀ g ∈ findings, f.key = g.key → keep f = keep g) :
    distinct (findings.filter keep) = (distinct findings).filter keep := by
  induction findings with
  | nil => rfl
  | cons f rest ih =>
      have hrest := ih fun g hg g' hg' =>
        h g (List.mem_cons_of_mem f hg) g' (List.mem_cons_of_mem f hg')
      cases hkeep : keep f with
      | true =>
          rw [List.filter_cons_of_pos hkeep, distinct_cons, distinct_cons,
            List.filter_cons_of_pos hkeep, hrest, List.filter_filter,
            List.filter_filter]
          simp only [Bool.and_comm]
      | false =>
          have hlost : ¬ keep f = true := by rw [hkeep]; exact Bool.noConfusion
          rw [List.filter_cons_of_neg hlost, distinct_cons,
            List.filter_cons_of_neg hlost, hrest, List.filter_filter]
          refine List.filter_congr ?_
          intro g hg
          -- a copy of what is lost is lost as well
          by_cases hkey : g.key = f.key
          · have hg' := List.mem_cons_of_mem f ((distinct_sublist rest).mem hg)
            rw [h g hg' f List.mem_cons_self hkey, hkeep]
            rfl
          · rw [decide_eq_true hkey, Bool.and_true]

/-- Parts can be made distinct first. -/
theorem distinct_flatMap_distinct {α : Type} (part : α → List Finding)
    (xs : List α) :
    distinct (xs.flatMap fun x => distinct (part x))
      = distinct (xs.flatMap part) := by
  induction xs with
  | nil => rfl
  | cons x xs ih =>
      rw [List.flatMap_cons, List.flatMap_cons, distinct_append,
        distinct_append, ih, distinct_eq_self (nodup_keys_distinct (part x))]
      congr 1
      refine List.filter_congr ?_
      intro g _
      rw [decide_eq_decide, mem_keys_distinct]

/-- A part that is taken again adds nothing: all of its keys are there. -/
theorem distinct_flatMap_eraseDups {α : Type} [BEq α] [LawfulBEq α]
    (part : α → List Finding) (xs : List α) :
    distinct (xs.eraseDups.flatMap part) = distinct (xs.flatMap part) := by
  induction xs using List.reverseRecOn with
  | nil => rfl
  | append_singleton xs x ih =>
      have hkeys (key : Key) :
          key ∈ (xs.eraseDups.flatMap part).map Finding.key
            ↔ key ∈ (xs.flatMap part).map Finding.key := by
        rw [← mem_keys_distinct, ih, mem_keys_distinct]
      rw [List.flatMap_append, distinct_append, List.flatMap_singleton]
      by_cases hx : x ∈ xs
      · -- taken before: each of its keys is among those of `xs`
        rw [eraseDups_concat_of_mem hx, ih, List.filter_eq_nil_iff.mpr,
          List.append_nil]
        intro f hf hnew
        refine of_decide_eq_true hnew (List.mem_map.mpr ⟨f, ?_, rfl⟩)
        exact List.mem_flatMap.mpr ⟨x, hx, (distinct_sublist _).subset hf⟩
      · rw [eraseDups_concat_of_not_mem hx, List.flatMap_append,
          distinct_append, ih, List.flatMap_singleton]
        simp only [hkeys]

end Finding

namespace Aggregator

open Finding

/-- Looking for a key in what was kept is a search among its keys. -/
theorem hasKey_eq_decide (a : Aggregator) (key : Key) :
    a.hasKey key = decide (key ∈ a.kept.map Finding.key) := by
  exact List.contains_eq_mem key _

/-- **WHAT IS KEPT**: adding findings one at a time keeps the first of each
    key that was not there. -/
theorem kept_add (a : Aggregator) (findings : List Finding) :
    (a.add findings).kept
      = a.kept
        ++ (distinct findings).filter fun f =>
            f.key ∉ a.kept.map Finding.key := by
  induction findings generalizing a with
  | nil => exact (List.append_nil a.kept).symm
  | cons f rest ih =>
      show ((a.addOne f).add rest).kept = _
      rw [ih, distinct_cons]
      by_cases hkey : f.key ∈ a.kept.map Finding.key
      · -- a copy: it is dropped, and so are its own copies
        have hadd : (a.addOne f).kept = a.kept := by
          rw [addOne, hasKey_eq_decide, if_pos (decide_eq_true hkey)]
        rw [hadd, List.filter_cons_of_neg (by simpa using hkey),
          List.filter_filter]
        congr 1
        refine List.filter_congr ?_
        intro g _
        by_cases hg : g.key = f.key
        · rw [hg, decide_eq_false (not_not_intro hkey)]
          rfl
        · rw [decide_eq_true hg, Bool.and_true]
      · -- a new key: its later copies are what `distinct` drops
        have hadd : (a.addOne f).kept = a.kept ++ [f] := by
          rw [addOne, hasKey_eq_decide, if_neg (by simpa using hkey)]
        rw [hadd, List.filter_cons_of_pos (by simpa using hkey),
          List.filter_filter, List.append_assoc, List.singleton_append]
        congr 2
        refine List.filter_congr ?_
        intro g _
        rw [List.map_append, ← Bool.decide_and, decide_eq_decide,
          List.mem_append, not_or, List.map_singleton, List.mem_singleton]

/-- Adding list after list is adding all of them at once. -/
theorem foldl_add {α : Type} (findings : α → List Finding) (xs : List α)
    (a : Aggregator) :
    xs.foldl (fun a x => a.add (findings x)) a = a.add (xs.flatMap findings) :=
  (List.foldl_flatMap).symm

/-- A new aggregator keeps the first finding of each key. -/
theorem kept_add_empty (findings : List Finding) :
    (({} : Aggregator).add findings).kept = distinct findings := by
  rw [kept_add]
  exact List.filter_eq_self.mpr fun _ _ => decide_eq_true List.not_mem_nil

end Aggregator

end CodeReview
