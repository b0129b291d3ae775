import Mathlib.Data.List.DropRight

/-!
# Trimming

What is left of a list without the elements of a kind at its two ends.
-/

namespace Trim
open List

variable {α : Type} (p : α → Bool)

def trimBy (text : List α) : List α := (text.dropWhile p).rdropWhile p

variable {p}

theorem exists_margins (text : List α) : ∃ before after,
    text = before ++ trimBy p text ++ after ∧ ∀ c ∈ before ++ after, p c = true := by
  refine ⟨text.takeWhile p, (text.dropWhile p).rtakeWhile p, ?_, ?_⟩
  · have hright : (text.dropWhile p).rdropWhile p ++ (text.dropWhile p).rtakeWhile p =
        text.dropWhile p := rdropWhile_append_rtakeWhile ..
    rw [trimBy, append_assoc, hright, takeWhile_append_dropWhile]
  · intro c hc
    rcases mem_append.mp hc with hc | hc
    · exact mem_takeWhile_imp hc
    · exact mem_rtakeWhile_imp hc

theorem rdropWhile_append_margin {text after : List α} (h : ∀ c ∈ after, p c = true) :
    (text ++ after).rdropWhile p = text.rdropWhile p := by
  induction after using reverseRecOn with
  | nil => rw [append_nil]
  | append_singleton after c ih =>
    rw [← append_assoc, rdropWhile_concat_pos _ _ _ (h c (by simp))]
    exact ih fun d hd => h d (mem_append_left _ hd)

theorem rdropWhile_append_cons {c : α} (hc : p c = false) (text body : List α) :
    (text ++ c :: body).rdropWhile p = text ++ c :: body.rdropWhile p := by
  have hnot : ¬ p c = true := by
    rw [hc]
    exact Bool.false_ne_true
  induction body using reverseRecOn with
  | nil => exact rdropWhile_concat_neg _ _ _ hnot
  | append_singleton body d ih =>
    have happend : text ++ c :: (body ++ [d]) = (text ++ c :: body) ++ [d] := by simp
    rw [happend, rdropWhile_concat, rdropWhile_concat, ih]
    split
    · rfl
    · exact happend.symm

theorem trimBy_margins {c : α} (hc : p c = false) {before after : List α}
    (h : ∀ d ∈ before ++ after, p d = true) (body : List α) :
    trimBy p (before ++ c :: body ++ after) = c :: body.rdropWhile p := by
  have hnot : ¬ p c = true := by
    rw [hc]
    exact Bool.false_ne_true
  have hbefore : ∀ d ∈ before, p d = true := fun d hd => h d (mem_append_left _ hd)
  have hafter : ∀ d ∈ after, p d = true := fun d hd => h d (mem_append_right _ hd)
  have hdrop : (before ++ (c :: body ++ after)).dropWhile p = c :: body ++ after := by
    rw [dropWhile_append_of_pos hbefore]
    exact dropWhile_cons_of_neg hnot
  rw [trimBy, append_assoc, hdrop, rdropWhile_append_margin hafter]
  exact rdropWhile_append_cons hc [] body

theorem rdropWhile_eq_self {text : List α} (h : ∀ c ∈ text, p c = false) :
    text.rdropWhile p = text := by
  rw [rdropWhile_eq_self_iff]
  intro hne hlast
  rw [h _ (getLast_mem hne)] at hlast
  cases hlast

theorem trimBy_eq_self {text : List α} (hfirst : ∀ c ∈ text.head?, p c = false)
    (hlast : ∀ c ∈ text.getLast?, p c = false) : trimBy p text = text := by
  cases text with
  | nil => rfl
  | cons c body =>
    have hc : ¬ p c = true := by
      rw [hfirst c rfl]
      exact Bool.false_ne_true
    rw [trimBy, dropWhile_cons_of_neg hc, rdropWhile_eq_self_iff]
    intro hne hwhite
    rw [hlast _ (getLast?_eq_some_getLast hne)] at hwhite
    cases hwhite

theorem trimBy_trimBy (text : List α) : trimBy p (trimBy p text) = trimBy p text := by
  cases hdrop : text.dropWhile p with
  | nil =>
    have hnil : trimBy p text = [] := by
      rw [trimBy, hdrop]
      rfl
    rw [hnil]
    rfl
  | cons c body =>
    have hc : p c = false := by
      have hhead := head?_dropWhile_not p text
      rw [hdrop] at hhead
      simpa using hhead
    have hself : trimBy p text = c :: body.rdropWhile p := by
      rw [trimBy, hdrop]
      exact rdropWhile_append_cons hc [] body
    have hagain : trimBy p ([] ++ c :: body.rdropWhile p ++ []) =
        c :: (body.rdropWhile p).rdropWhile p :=
      trimBy_margins hc (fun _ h => absurd h not_mem_nil) _
    rw [nil_append, append_nil, rdropWhile_idempotent] at hagain
    rw [hself]
    exact hagain

theorem trimBy_rdropWhile {gap body : List α} (hgap : ∀ c ∈ gap, p c = true)
    (hbody : ∀ c ∈ body, p c = false) : trimBy p ((gap ++ body).rdropWhile p) = body := by
  cases body with
  | nil =>
    have hnil : ([] ++ gap).rdropWhile p = [].rdropWhile p := rdropWhile_append_margin hgap
    rw [append_nil, ← nil_append gap, hnil]
    rfl
  | cons c body =>
    have hc : p c = false := hbody c mem_cons_self
    have hself : body.rdropWhile p = body :=
      rdropWhile_eq_self fun d hd => hbody d (mem_cons_of_mem _ hd)
    have hmargins : ∀ d ∈ gap ++ [], p d = true := by
      intro d hd
      rw [append_nil] at hd
      exact hgap d hd
    have htrim := trimBy_margins hc hmargins body
    rw [append_nil, hself] at htrim
    rw [rdropWhile_append_cons hc, hself]
    exact htrim

theorem filter_eq_nil_of_margin {q : α → Bool} (hq : ∀ c, q c = true → p c = false)
    {text : List α} (h : ∀ c ∈ text, p c = true) : text.filter q = [] := by
  rw [filter_eq_nil_iff]
  intro c hc hqc
  have hp := hq c hqc
  rw [h c hc] at hp
  cases hp

theorem filter_margins {q : α → Bool} (hq : ∀ c, q c = true → p c = false) {before after : List α}
    (h : ∀ c ∈ before ++ after, p c = true) (body : List α) :
    (before ++ body ++ after).filter q = body.filter q := by
  have hbefore := filter_eq_nil_of_margin hq fun c hc => h c (mem_append_left _ hc)
  have hafter := filter_eq_nil_of_margin hq fun c hc => h c (mem_append_right _ hc)
  rw [filter_append, filter_append, hbefore, hafter, nil_append, append_nil]

end Trim
