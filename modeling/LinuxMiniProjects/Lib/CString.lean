import Mathlib.Data.List.TakeWhile
import LinuxMiniProjects.Lib.Tokens

/-!
Strings in a buffer, as the functions of `string.h` see them.

A buffer is a list of characters, and a pointer into it is an index. The
string at a pointer goes up to the first zero, so a program cuts a string
by storing a zero into it. `strtok` does that with every separator it
comes to. Programs of this kind are hard to follow because all their
strings share one buffer; the lemmas of this file say what a store does to
the string it is made in, and that it leaves the strings behind it alone.

What lies behind the end of the buffer is taken for a zero. A program
whose strings end in the buffer never gets there.
-/

namespace LinuxMiniProjects.CString

open Tokens

section Definitions

variable {α : Type*} [Zero α] [DecidableEq α]

def charAt (buf : List α) (p : ℕ) : α := buf.getD p 0

def strAt (buf : List α) (p : ℕ) : List α := (buf.drop p).takeWhile (· ≠ 0)

def strlen (buf : List α) (p : ℕ) : ℕ := (strAt buf p).length

def strchr (buf : List α) (p : ℕ) (c : α) : Option ℕ :=
  if c ∈ strAt buf p then some (p + (strAt buf p).idxOf c) else none

def strspn (buf : List α) (p : ℕ) (sep : α) : ℕ := ((strAt buf p).takeWhile (· = sep)).length

def strcspn (buf : List α) (p : ℕ) (sep : α) : ℕ := ((strAt buf p).takeWhile (· ≠ sep)).length

/-- The buffer after a call of `strtok_r`, what it has stored for the next
call, and its result. -/
structure Strtok (α : Type*) where
  buf : List α
  state : ℕ
  token : Option ℕ
  deriving DecidableEq, Repr

/-- `strtok_r` with one separator, on the string at `s`. -/
def strtokR (sep : α) (buf : List α) (s : ℕ) : Strtok α :=
  let s := s + strspn buf s sep
  if charAt buf s = 0 then ⟨buf, s, none⟩
  else
    let e := s + strcspn buf s sep
    if charAt buf e = 0 then ⟨buf, e, some s⟩ else ⟨buf.set e 0, e + 1, some s⟩

/-- The bytes at a pointer after `strncpy`: the first `n` characters of the
string, with zeros behind them if there are less. -/
def strncpy (dst src : List α) (n : ℕ) : List α :=
  src.take n ++ List.replicate (n - src.length) 0 ++ dst.drop n

end Definitions

variable {α : Type*} [Zero α] [DecidableEq α] {buf : List α} {p : ℕ} {x y : List α} {c : α}

/-! ### Parts of a string -/

theorem zero_not_mem_strAt (buf : List α) (p : ℕ) : 0 ∉ strAt buf p := by
  intro h
  have hne := List.mem_takeWhile_imp h
  simp at hne

theorem strAt_concat_zero (t : List α) : strAt (t ++ [0]) 0 = t.takeWhile (· ≠ 0) := by
  unfold strAt
  rw [List.drop_zero]
  induction t with
  | nil => simp
  | cons c t ih =>
      rw [List.cons_append, List.takeWhile_cons, List.takeWhile_cons, ih]

theorem strAt_add (h : strAt buf p = x ++ y) : strAt buf (p + x.length) = y := by
  unfold strAt at h ⊢
  rw [← List.drop_drop]
  generalize buf.drop p = l at h ⊢
  induction x generalizing l with
  | nil => exact h
  | cons c x ih =>
      cases l with
      | nil => cases h
      | cons d l =>
          rw [List.takeWhile_cons] at h
          split at h
          next => exact ih l (List.cons.inj h).2
          next => cases h

theorem getElem?_of_strAt (h : strAt buf p = x ++ c :: y) : buf[p + x.length]? = some c := by
  have hrest := strAt_add h
  unfold strAt at hrest
  rw [← List.head?_drop]
  cases hdrop : buf.drop (p + x.length) with
  | nil =>
      rw [hdrop] at hrest
      cases hrest
  | cons d l =>
      rw [hdrop, List.takeWhile_cons] at hrest
      split at hrest
      next => rw [(List.cons.inj hrest).1, List.head?_cons]
      next => cases hrest

theorem charAt_of_strAt (h : strAt buf p = x ++ c :: y) : charAt buf (p + x.length) = c := by
  rw [charAt, List.getD_eq_getElem?_getD, getElem?_of_strAt h, Option.getD_some]

theorem charAt_eq_zero_iff : charAt buf p = 0 ↔ strAt buf p = [] := by
  constructor
  · intro h
    cases hstr : strAt buf p with
    | nil => rfl
    | cons c y =>
        have hc : charAt buf p = c := charAt_of_strAt (x := []) hstr
        have hmem : c ∈ strAt buf p := by
          rw [hstr]
          exact List.mem_cons_self
        rw [← hc, h] at hmem
        exact absurd hmem (zero_not_mem_strAt buf p)
  · intro h
    unfold strAt at h
    rw [charAt, List.getD_eq_getElem?_getD, ← List.head?_drop]
    cases hdrop : buf.drop p with
    | nil => rfl
    | cons c y =>
        rw [hdrop, List.takeWhile_cons] at h
        split at h
        next => cases h
        next hc => simpa using hc

/-! ### Stores -/

theorem strAt_set_of_lt {i : ℕ} (h : i < p) (v : α) : strAt (buf.set i v) p = strAt buf p := by
  unfold strAt
  rw [List.drop_set_of_lt h]

theorem strAt_set_zero (h : strAt buf p = x ++ y) (hy : y ≠ []) :
    strAt (buf.set (p + x.length) 0) p = x := by
  obtain ⟨c, y, rfl⟩ := List.exists_cons_of_ne_nil hy
  unfold strAt at h ⊢
  rw [List.drop_set, if_neg (by omega), Nat.add_sub_cancel_left]
  generalize buf.drop p = l at h ⊢
  induction x generalizing l with
  | nil =>
      cases l with
      | nil => cases h
      | cons d l => simp
  | cons d x ih =>
      cases l with
      | nil => cases h
      | cons e l =>
          rw [List.takeWhile_cons] at h
          split at h
          next he =>
            obtain ⟨rfl, htail⟩ := List.cons.inj h
            rw [List.length_cons, List.set_cons_succ, List.takeWhile_cons, if_pos he, ih l htail]
          next => cases h

theorem set_set_of_strAt (h : strAt buf p = x ++ c :: y) (v : α) :
    (buf.set (p + x.length) v).set (p + x.length) c = buf := by
  rw [List.set_set]
  refine List.ext_getElem? fun i => ?_
  rw [List.getElem?_set]
  split
  next hi =>
    subst hi
    have hc := getElem?_of_strAt h
    split
    next => exact hc.symm
    next hlen =>
      rw [List.getElem?_eq_none (Nat.not_lt.mp hlen)] at hc
      cases hc
  next => rfl

omit [DecidableEq α] in
theorem strncpy_terminated (dst : List α) {src : List α} {n : ℕ} (h : src.length < n) :
    src ++ [0] <+: strncpy dst src n := by
  obtain ⟨k, hk⟩ := Nat.exists_eq_succ_of_ne_zero (Nat.sub_ne_zero_of_lt h)
  unfold strncpy
  rw [List.take_of_length_le (Nat.le_of_lt h), hk, List.replicate_succ, List.append_assoc]
  exact ⟨List.replicate k 0 ++ dst.drop n, by simp⟩

omit [DecidableEq α] in
/-- Among the first `n` bytes of a string that is not, there is no zero. -/
theorem strncpy_unterminated (dst : List α) {src str : List α} {n : ℕ} (h : n ≤ src.length)
    (hsrc : 0 ∉ src) (hstr : str.length < n) : ¬ str ++ [0] <+: strncpy dst src n := by
  rintro ⟨rest, hrest⟩
  have hlt : str.length < (src.take n).length := by
    rw [List.length_take]
    omega
  have hzero : (strncpy dst src n)[str.length]? = some 0 := by
    rw [← hrest]
    simp
  unfold strncpy at hzero
  rw [List.append_assoc, List.getElem?_append_left hlt] at hzero
  exact hsrc (List.mem_of_mem_take (List.mem_of_getElem? hzero))

/-! ### Searching -/

theorem strchr_of_strAt (h : strAt buf p = x ++ c :: y) (hx : c ∉ x) :
    strchr buf p c = some (p + x.length) := by
  unfold strchr
  rw [h, if_pos (by simp), List.idxOf_append_of_notMem hx, List.idxOf_cons_self, Nat.add_zero]

theorem strchr_eq_none (h : c ∉ strAt buf p) : strchr buf p c = none := if_neg h

/-! ### Tokens -/

/-- What a call of `strtok_r` promises. It has found no token; or it has
found the first one, which is a string of its own now, and has stored where
the string with the others is. -/
inductive Strtok.Yields (sep : α) (r : Strtok α) : List (List α) → Prop
  | nil (token : r.token = none) : Yields sep r []
  | cons {p : ℕ} {token rest : List α} (token_eq : r.token = some p)
      (str : strAt r.buf p = token) (state : strAt r.buf r.state = rest)
      (le : p + token.length ≤ r.state) : Yields sep r (token :: tokens sep rest)

theorem yields_strtokR (sep : α) (buf : List α) (s : ℕ) :
    (strtokR sep buf s).Yields sep (tokens sep (strAt buf s)) := by
  obtain ⟨front, t, hstr, hspn, hfront, hstart⟩ := exists_append_of_seps sep (strAt buf s)
  have hrest := strAt_add hstr
  rw [hstr, tokens_append_of_seps hfront]
  unfold strtokR strspn
  simp only [hspn]
  by_cases ht : t = []
  · subst ht
    rw [if_pos (charAt_eq_zero_iff.mpr hrest)]
    rw [tokens_nil]
    exact .nil rfl
  · rw [if_neg fun h => ht (hrest.symm.trans (charAt_eq_zero_iff.mp h))]
    -- the token, and what follows it
    obtain ⟨token, t', rfl, hcspn, htoken, hend⟩ := exists_append_of_token sep t
    have hne : token ≠ [] := by
      rintro rfl
      rcases hend with rfl | ⟨r, rfl⟩
      · exact ht rfl
      · exact hstart rfl
    have hafter := strAt_add hrest
    rw [strcspn, hrest, hcspn]
    rcases hend with rfl | ⟨r, rfl⟩
    · rw [if_pos (charAt_eq_zero_iff.mpr hafter)]
      have htokens : tokens sep (token ++ []) = token :: tokens sep [] := by
        rw [List.append_nil, tokens_of_not_mem htoken, if_neg hne, tokens_nil]
      rw [htokens]
      exact .cons rfl (hrest.trans (List.append_nil _)) hafter (Nat.le_refl _)
    · have hsep : charAt buf (s + front.length + token.length) ≠ 0 := by
        rw [Ne, charAt_eq_zero_iff, hafter]
        exact List.cons_ne_nil _ _
      rw [if_neg hsep]
      rw [tokens_append_cons htoken, if_neg hne, List.singleton_append]
      refine .cons rfl (strAt_set_zero hrest (by simp)) ?_ (Nat.le_succ _)
      rw [strAt_set_of_lt (Nat.lt_succ_self _)]
      exact strAt_add (x := [sep]) hafter

end LinuxMiniProjects.CString
