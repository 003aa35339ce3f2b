import Mathlib.Data.List.Basic
import Mathlib.Data.List.TakeWhile

/-!
Lines of a text, over an arbitrary alphabet with a separator.

`strtok` with a single separator returns the parts of a text between
separators and skips the empty ones; `tokens` is the list of all its
results. A program that writes every line with a separator behind it
produces `unlines`. The two are inverse to each other but for the empty
lines, which is what `tokens_unlines` says.
-/

namespace LinuxMiniProjects.Tokens

def unlines {α : Type*} (sep : α) (ls : List (List α)) : List α := ls.flatMap fun l => l ++ [sep]

@[simp] theorem unlines_nil {α : Type*} (sep : α) : unlines sep [] = [] := rfl

@[simp] theorem unlines_cons {α : Type*} (sep : α) (l : List α) (ls : List (List α)) :
    unlines sep (l :: ls) = l ++ sep :: unlines sep ls := by
  simp [unlines]

theorem unlines_append {α : Type*} (sep : α) (ls ms : List (List α)) :
    unlines sep (ls ++ ms) = unlines sep ls ++ unlines sep ms :=
  List.flatMap_append

variable {α : Type*} [DecidableEq α] {sep : α}

def tokens (sep : α) (t : List α) : List (List α) := (t.splitOn sep).filter fun l => l ≠ []

@[simp] theorem tokens_nil : tokens sep [] = [] := by
  simp [tokens]

theorem tokens_append_cons {l : List α} (h : sep ∉ l) (t : List α) :
    tokens sep (l ++ sep :: t) = (if l = [] then [] else [l]) ++ tokens sep t := by
  unfold tokens
  rw [List.splitOn_append_cons_self_of_not_mem h, List.filter_cons]
  by_cases hl : l = [] <;> simp [hl]

theorem tokens_of_not_mem {l : List α} (h : sep ∉ l) :
    tokens sep l = if l = [] then [] else [l] := by
  unfold tokens
  rw [List.splitOn_eq_singleton h]
  by_cases hl : l = [] <;> simp [hl]

theorem tokens_append_sep (t t' : List α) :
    tokens sep (t ++ sep :: t') = tokens sep t ++ tokens sep t' := by
  unfold tokens
  rw [List.splitOn_append_cons_self, List.filter_append]

theorem tokens_append_of_seps {t : List α} (ht : ∀ c ∈ t, c = sep) (t' : List α) :
    tokens sep (t ++ t') = tokens sep t' := by
  induction t with
  | nil => rfl
  | cons c t ih =>
      rw [List.forall_mem_cons] at ht
      obtain ⟨rfl, ht⟩ := ht
      have hcons : tokens c ([] ++ c :: (t ++ t')) = tokens c [] ++ tokens c (t ++ t') :=
        tokens_append_sep [] (t ++ t')
      rwa [List.nil_append, tokens_nil, List.nil_append, ih ht] at hcons

theorem exists_append_of_seps (sep : α) (t : List α) :
    ∃ front rest, t = front ++ rest ∧ (t.takeWhile (· = sep)).length = front.length ∧
      (∀ c ∈ front, c = sep) ∧ rest.head? ≠ some sep := by
  refine ⟨t.takeWhile (· = sep), t.dropWhile (· = sep),
    (List.takeWhile_append_dropWhile ..).symm, rfl, fun c hc => ?_, fun hhead => ?_⟩
  · simpa using List.mem_takeWhile_imp hc
  · have hnot := List.head?_dropWhile_not (fun c => decide (c = sep)) t
    rw [hhead] at hnot
    simp at hnot

theorem exists_append_of_token (sep : α) (t : List α) :
    ∃ token rest, t = token ++ rest ∧ (t.takeWhile (· ≠ sep)).length = token.length ∧
      sep ∉ token ∧ (rest = [] ∨ ∃ r, rest = sep :: r) := by
  refine ⟨t.takeWhile (· ≠ sep), t.dropWhile (· ≠ sep),
    (List.takeWhile_append_dropWhile ..).symm, rfl, fun hmem => ?_, ?_⟩
  · simpa using List.mem_takeWhile_imp hmem
  · cases hdrop : t.dropWhile (· ≠ sep) with
    | nil => exact .inl rfl
    | cons c r =>
        have hnot := List.head?_dropWhile_not (fun c => decide (c ≠ sep)) t
        rw [hdrop] at hnot
        exact .inr ⟨r, by simpa using hnot⟩

theorem tokens_unlines {ls : List (List α)} (h : ∀ l ∈ ls, sep ∉ l) :
    tokens sep (unlines sep ls) = ls.filter fun l => l ≠ [] := by
  induction ls with
  | nil => simp
  | cons l ls ih =>
      have hl : sep ∉ l := h l (by simp)
      have hls : ∀ m ∈ ls, sep ∉ m := fun m hm => h m (by simp [hm])
      rw [unlines_cons, tokens_append_cons hl, ih hls, List.filter_cons]
      by_cases hnil : l = [] <;> simp [hnil]

theorem length_le_of_mem_tokens {l t : List α} (h : l ∈ tokens sep t) : l.length ≤ t.length := by
  induction hn : t.length using Nat.strongRecOn generalizing t with
  | ind n ih =>
      subst hn
      by_cases hsep : sep ∈ t
      · obtain ⟨m, t', rfl, hm⟩ := List.eq_append_cons_of_mem hsep
        rw [tokens_append_cons hm, List.mem_append] at h
        rw [List.length_append, List.length_cons]
        rcases h with h | h
        · obtain rfl : l = m := by
            split at h
            · cases h
            · exact List.mem_singleton.mp h
          omega
        · have hle := ih t'.length (by rw [List.length_append, List.length_cons]; omega) h rfl
          omega
      · rw [tokens_of_not_mem hsep] at h
        split at h
        · cases h
        · exact Nat.le_of_eq (congrArg List.length (List.mem_singleton.mp h))

theorem length_tokens_le (t : List α) : (tokens sep t).length ≤ t.length := by
  induction hn : t.length using Nat.strongRecOn generalizing t with
  | ind n ih =>
      subst hn
      by_cases hsep : sep ∈ t
      · obtain ⟨l, t', rfl, hl⟩ := List.eq_append_cons_of_mem hsep
        have hle := ih t'.length (by rw [List.length_append, List.length_cons]; omega) t' rfl
        rw [tokens_append_cons hl, List.length_append, List.length_append, List.length_cons]
        split
        · rw [List.length_nil]
          omega
        · rw [List.length_singleton]
          omega
      · rw [tokens_of_not_mem hsep]
        split
        · exact Nat.zero_le _
        next hne => exact List.length_pos_of_ne_nil hne

theorem not_mem_of_mem_splitOn {l t : List α} (h : l ∈ t.splitOn sep) : sep ∉ l := by
  induction t generalizing l with
  | nil =>
      obtain rfl : l = [] := by simpa using h
      exact List.not_mem_nil
  | cons c t ih =>
      rw [List.splitOn_cons_eq_if_modifyHead] at h
      split at h
      next =>
        rcases List.mem_cons.mp h with rfl | h
        · exact List.not_mem_nil
        · exact ih h
      next hc =>
        -- the first part grows by a character that is not the separator
        cases hparts : t.splitOn sep with
        | nil => exact absurd hparts (List.splitOn_ne_nil _ _)
        | cons m ms =>
            rw [hparts] at h ih
            rcases List.mem_cons.mp h with rfl | h
            · rw [List.mem_cons, not_or]
              exact ⟨fun hsep => hc (by simp [hsep]), ih (by simp)⟩
            · exact ih (by simp [h])

theorem mem_of_mem_splitOn {l t : List α} {c : α} (h : l ∈ t.splitOn sep) (hc : c ∈ l) :
    c ∈ t := by
  induction t generalizing l with
  | nil =>
      obtain rfl : l = [] := by simpa using h
      exact hc
  | cons d t ih =>
      rw [List.splitOn_cons_eq_if_modifyHead] at h
      split at h
      next =>
        rcases List.mem_cons.mp h with rfl | h
        · cases hc
        · exact List.mem_cons_of_mem d (ih h hc)
      next =>
        cases hparts : t.splitOn sep with
        | nil => exact absurd hparts (List.splitOn_ne_nil _ _)
        | cons m ms =>
            rw [hparts] at h ih
            rcases List.mem_cons.mp h with rfl | h
            · rcases List.mem_cons.mp hc with rfl | hc
              · exact List.mem_cons_self
              · exact List.mem_cons_of_mem d (ih (by simp) hc)
            · exact List.mem_cons_of_mem d (ih (by simp [h]) hc)

theorem mem_of_mem_tokens {l t : List α} {c : α} (h : l ∈ tokens sep t) (hc : c ∈ l) : c ∈ t :=
  mem_of_mem_splitOn (List.mem_of_mem_filter h) hc

theorem not_mem_of_mem_tokens {l t : List α} (h : l ∈ tokens sep t) : sep ∉ l :=
  not_mem_of_mem_splitOn (List.mem_of_mem_filter h)

end LinuxMiniProjects.Tokens
