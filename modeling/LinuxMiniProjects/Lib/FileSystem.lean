import Mathlib.Data.List.Basic
import Mathlib.Logic.Function.Basic
import Mathlib.Tactic.Common

/-!
A file system as the calls of a program see it.

A directory maps names to inodes. An inode has contents, which is what the
next `read` returns, and what of it is on the disk; the two differ from a
`write` until an `fsync`. A descriptor stays with the inode it was opened
for, whatever becomes of the name. Locks are taken on inodes too, not on
names: that is all `flock` promises.

Names, processes and the alphabet of the contents are arbitrary types.
New inodes are numbered in order, so a number is never used for two
files. `Sane` says what is true of any directory without hard links.
-/

namespace LinuxMiniProjects.FileSystem

structure Inode (β : Type*) where
  data : List β
  disk : List β
  deriving DecidableEq, Repr

/-- Store `bs` at an offset; a gap in front of it is filled with zeros. -/
def writeAt {β : Type*} [Zero β] (data : List β) (offset : ℕ) (bs : List β) : List β :=
  data.take offset ++ List.replicate (offset - data.length) 0 ++ bs ++
    data.drop (offset + bs.length)

section WriteAt

variable {β : Type*} [Zero β] {data : List β} {offset : ℕ}

theorem take_writeAt (h : offset ≤ data.length) (bs : List β) :
    (writeAt data offset bs).take (offset + bs.length) = data.take offset ++ bs := by
  unfold writeAt
  rw [Nat.sub_eq_zero_of_le h, List.replicate_zero, List.append_nil]
  apply List.take_left'
  rw [List.length_append, List.length_take, Nat.min_eq_left h]

theorem length_writeAt (h : offset ≤ data.length) (bs : List β) :
    (writeAt data offset bs).length = max data.length (offset + bs.length) := by
  unfold writeAt
  simp only [List.length_append, List.length_take, List.length_replicate, List.length_drop]
  omega

theorem writeAt_overwritten (front bs old : List β) :
    writeAt (front ++ old.drop front.length) front.length bs =
      (front ++ bs) ++ old.drop (front ++ bs).length := by
  have hgap : front.length - (front ++ old.drop front.length).length = 0 := by
    rw [List.length_append]
    omega
  unfold writeAt
  rw [hgap, List.replicate_zero, List.append_nil, List.take_left, ← List.drop_drop,
    List.drop_left, List.drop_drop, List.length_append]

end WriteAt

/-- A file system with names `ν`, processes `ι` and contents over `β`. -/
structure FS (ν ι β : Type*) where
  /-- The directory. -/
  name : ν → Option ℕ
  inode : ℕ → Inode β
  /-- Who holds the exclusive lock on an inode. -/
  lock : ℕ → Option ι
  /-- The number of the next new inode. -/
  next : ℕ

namespace FS

variable {ν ι β : Type*}

/-! ### Contents -/

section Contents

def setData (fs : FS ν ι β) (n : ℕ) (data : List β) : FS ν ι β :=
  { fs with inode := Function.update fs.inode n { fs.inode n with data := data } }

def sync (fs : FS ν ι β) (n : ℕ) : FS ν ι β :=
  { fs with inode := Function.update fs.inode n { fs.inode n with disk := (fs.inode n).data } }

variable {fs : FS ν ι β} {n m : ℕ}

@[simp] theorem inode_setData_self (data : List β) :
    (fs.setData n data).inode n = { fs.inode n with data := data } := Function.update_self ..

theorem inode_setData_of_ne (h : m ≠ n) (data : List β) :
    (fs.setData n data).inode m = fs.inode m := Function.update_of_ne h ..

@[simp] theorem inode_sync_self :
    (fs.sync n).inode n = { fs.inode n with disk := (fs.inode n).data } := Function.update_self ..

theorem inode_sync_of_ne (h : m ≠ n) : (fs.sync n).inode m = fs.inode m :=
  Function.update_of_ne h ..

end Contents

/-! ### Locks -/

section Locks

variable [DecidableEq ι]

/-- `flock` with `LOCK_EX` succeeds. -/
def acquire (fs : FS ν ι β) (n : ℕ) (p : ι) : FS ν ι β :=
  { fs with lock := Function.update fs.lock n (some p) }

/-- `flock` with `LOCK_UN`, or the `close` of the descriptor. -/
def release (fs : FS ν ι β) (n : ℕ) (p : ι) : FS ν ι β :=
  { fs with lock := Function.update fs.lock n (if fs.lock n = some p then none else fs.lock n) }

theorem lock_release_of_ne {fs : FS ν ι β} {m : ℕ} {p q : ι} (h : fs.lock m = some q)
    (hne : q ≠ p) (n : ℕ) : (fs.release n p).lock m = some q := by
  unfold release
  by_cases hm : m = n
  · subst hm
    simp [h, hne]
  · simp [hm, h]

end Locks

/-! ### The directory -/

section Directory

variable [DecidableEq ν]

/-- `open` with `O_CREAT`: the inode of the name, or a new one without
contents. -/
def create (fs : FS ν ι β) (a : ν) : ℕ × FS ν ι β :=
  match fs.name a with
  | some n => (n, fs)
  | none => (fs.next, { fs with
      name := Function.update fs.name a (some fs.next)
      inode := Function.update fs.inode fs.next ⟨[], []⟩
      next := fs.next + 1 })

def unlink (fs : FS ν ι β) (a : ν) : FS ν ι β :=
  { fs with name := Function.update fs.name a none }

def rename (fs : FS ν ι β) (a b : ν) : FS ν ι β :=
  { fs with name := Function.update (Function.update fs.name b (fs.name a)) a none }

variable {fs : FS ν ι β} {a b : ν} {n m : ℕ}

theorem name_unlink_of_ne (h : b ≠ a) : (fs.unlink a).name b = fs.name b :=
  Function.update_of_ne h ..

theorem lock_create : (fs.create a).2.lock = fs.lock := by
  unfold create
  split <;> rfl

theorem name_create_of_ne (h : b ≠ a) : (fs.create a).2.name b = fs.name b := by
  unfold create
  split
  · rfl
  · exact Function.update_of_ne h ..

theorem name_create_self : (fs.create a).2.name a = some (fs.create a).1 := by
  unfold create
  split
  next h => exact h
  next => exact Function.update_self ..

theorem inode_create_of_lt (h : m < fs.next) : (fs.create a).2.inode m = fs.inode m := by
  unfold create
  split
  · rfl
  · exact Function.update_of_ne (Nat.ne_of_lt h) ..

theorem inode_create_self :
    (fs.create a).2.inode (fs.create a).1 = (fs.name a).elim ⟨[], []⟩ fs.inode := by
  unfold create
  cases fs.name a with
  | some n => rfl
  | none => exact Function.update_self ..

/-- No file has two names, and the names are of files that exist. -/
structure Sane (fs : FS ν ι β) : Prop where
  inj : ∀ a b n, fs.name a = some n → fs.name b = some n → a = b
  lt : ∀ a n, fs.name a = some n → n < fs.next

namespace Sane

theorem create (h : fs.Sane) (a : ν) : (fs.create a).2.Sane := by
  cases ha : fs.name a with
  | some n =>
      rw [show fs.create a = (n, fs) by simp [FS.create, ha]]
      exact h
  | none =>
      have hnumber : (fs.create a).1 = fs.next := by simp [FS.create, ha]
      have hnext : (fs.create a).2.next = fs.next + 1 := by simp [FS.create, ha]
      -- the new number is of no file that has a name
      have hnew : ∀ b, fs.name b ≠ some fs.next := fun b hb =>
        absurd (h.lt b fs.next hb) (Nat.lt_irrefl _)
      constructor
      · intro b c n hb hc
        by_cases hba : b = a <;> by_cases hca : c = a
        · rw [hba, hca]
        · rw [hba, name_create_self, hnumber] at hb
          rw [name_create_of_ne hca, ← hb] at hc
          exact absurd hc (hnew c)
        · rw [hca, name_create_self, hnumber] at hc
          rw [name_create_of_ne hba, ← hc] at hb
          exact absurd hb (hnew b)
        · rw [name_create_of_ne hba] at hb
          rw [name_create_of_ne hca] at hc
          exact h.inj b c n hb hc
      · intro b n hb
        rw [hnext]
        by_cases hba : b = a
        · rw [hba, name_create_self, hnumber, Option.some.injEq] at hb
          omega
        · rw [name_create_of_ne hba] at hb
          exact Nat.lt_succ_of_lt (h.lt b n hb)

theorem unlink (h : fs.Sane) (a : ν) : (fs.unlink a).Sane := by
  have hold : ∀ b n, (fs.unlink a).name b = some n → fs.name b = some n := by
    intro b n hb
    by_cases hba : b = a
    · subst hba
      simp [FS.unlink] at hb
    · rwa [name_unlink_of_ne hba] at hb
  exact ⟨fun b c n hb hc => h.inj b c n (hold b n hb) (hold c n hc),
    fun b n hb => h.lt b n (hold b n hb)⟩

theorem rename (h : fs.Sane) (hne : b ≠ a) : (fs.rename a b).Sane := by
  -- the name `b` stands for `a` now, and `a` for nothing
  have hold : ∀ c n, (fs.rename a b).name c = some n →
      c ≠ a ∧ fs.name (if c = b then a else c) = some n := by
    intro c n hc
    simp only [FS.rename] at hc
    by_cases hca : c = a
    · simp [hca] at hc
    · rw [Function.update_of_ne hca] at hc
      refine ⟨hca, ?_⟩
      by_cases hcb : c = b
      · subst hcb
        rw [Function.update_self] at hc
        rwa [if_pos rfl]
      · rw [Function.update_of_ne hcb] at hc
        rwa [if_neg hcb]
  constructor
  · intro c d n hc hd
    obtain ⟨hca, hc⟩ := hold c n hc
    obtain ⟨hda, hd⟩ := hold d n hd
    have heq := h.inj _ _ n hc hd
    split_ifs at heq with hcb hdb hdb
    · rw [hcb, hdb]
    · exact absurd heq.symm hda
    · exact absurd heq hca
    · exact heq
  · intro c n hc
    exact h.lt _ n (hold c n hc).2

end Sane

end Directory

end FS

end LinuxMiniProjects.FileSystem
