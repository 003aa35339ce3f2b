import Mathlib.Data.UInt
import LinuxMiniProjects.Lib.Bytes
import LinuxMiniProjects.Lib.FileSystem
import LinuxMiniProjects.Lib.Machine
import LinuxMiniProjects.SafeConfig.Text

/-!
`write_param_config` as a process, one system call at a time (`main.c`).

Any number of processes run the function on the same path, each with its
own parameter and value. A step of the system is a system call of one
process; what the call returns is decided outside and is part of the
step: whether `open` succeeds, how many bytes `write` takes, which `errno`
`rename` sets. Between two calls a process only computes, so this is all
another process, or a crash, can see.

The files are `path`, `path.tmp` and `path.bak`. The names are built in
buffers of 256 bytes, so this is right for paths of less than 252 bytes;
longer ones are cut off, and from 255 bytes on all three are the same
file.

A descriptor is the number of its inode. That `close` and `flock` with
`LOCK_UN` fail is of no consequence and is left out; so are the readers of
the file, which write nothing.
-/

namespace LinuxMiniProjects.SafeConfig

open FileSystem Machine
open Bytes (cString)

inductive Name
  | path
  | tmp
  | bak
  deriving DecidableEq, Repr

inductive Errno
  | eacces
  | ebadf
  | ebusy
  | eintr
  | einval
  | enolck
  | ewouldblock
  | other
  deriving DecidableEq, Repr

/-- How a run ends: `write_param_config` returns, or the process exits with
`EXIT_FAILURE`. -/
inductive Exit
  | returned (code : ℤ)
  | failure
  deriving DecidableEq, Repr

/-- The calls at the end of a run, whose results are not looked at. -/
inductive Cleanup
  | unlock
  | closeFd
  | closeTmp
  | closeBak
  | unlinkTmp
  | unlinkBak
  /-- `restore_file`. -/
  | restore
  deriving DecidableEq, Repr

/-- The call a process makes next, with the variables that are still
used. -/
inductive Pc
  | opening
  | locking (fd : ℕ)
  /-- `back_up_file`. -/
  | sizing (fd : ℕ)
  | openingBak (fd size : ℕ)
  | copying (fd bak offIn offOut remaining : ℕ)
  | closingBak (fd : ℕ)
  | reading (fd : ℕ)
  /-- The string in `buf` is `text`. -/
  | openingTmp (fd : ℕ) (text : Text)
  /-- `ops` are the calls of `write` that are left. -/
  | writing (fd tmp offset : ℕ) (ops : List WriteOp)
  | syncing (fd tmp : ℕ)
  | replacing (fd tmp : ℕ)
  | cleaning (fd : ℕ) (calls : List Cleanup) (exit : Exit)
  | done (exit : Exit)
  deriving DecidableEq, Repr

/-- What `read` comes to. If it fails in another way than with `EINTR`, the
process goes on with what was in `buf`. -/
inductive ReadRes
  | ok
  | eintr
  | failed (buf : Text)
  deriving DecidableEq, Repr

/-- A system call with what it comes to; `none` stands for success where
there is no number, and for failure where there is one. -/
inductive Event
  | open (ok : Bool)
  | flock (err : Option Errno)
  /-- The size is what stands in `stat` if the call fails. -/
  | fstat (err : Option (Errno × ℕ))
  | openBak (ok : Bool)
  | copy (count : Option ℕ)
  | closeBak
  | read (res : ReadRes)
  /-- With what lies behind the line buffer. -/
  | openTmp (ok : Bool) (stack : Text)
  | write (count : Option ℕ)
  | fsync (ok : Bool)
  | rename (err : Option Errno)
  | cleanup
  deriving DecidableEq, Repr

/-! ### The source -/

/-- What follows a call of `write` that fails; nothing, if it is the last
one. -/
def Part.onError : Part → Option (List Cleanup)
  | .setting => some [.closeFd, .closeTmp]
  | .line => some [.closeFd, .closeTmp, .unlinkTmp, .unlock]
  | .newline => some [.closeFd, .closeTmp]
  | .append => none

def Pc.write (fd tmp offset : ℕ) : List WriteOp → Pc
  | [] => .syncing fd tmp
  | op :: ops => .writing fd tmp offset (op :: ops)

/-- `safe_write_file`: the value it returns, if it does. -/
def safeWriteFile : Option Errno → Option ℤ
  | some .eacces => none
  | some .ebusy => none
  | _ => some 0

/-- What follows `safe_write_file`. -/
def Pc.commit (fd : ℕ) : Option ℤ → Pc
  | none => .cleaning fd [] .failure
  | some ret =>
      .cleaning fd ((if ret ≠ 0 then [.unlinkTmp, .restore] else [.unlinkBak]) ++
        [.closeTmp, .unlock, .closeFd]) (.returned 0)

variable {ι : Type*} [DecidableEq ι]

abbrev Files (ι : Type*) := FS Name ι UInt8

def Cleanup.run (fs : Files ι) (p : ι) (fd : ℕ) : Cleanup → Files ι
  | .unlock => fs.release fd p
  | .closeFd => fs.release fd p
  | .closeTmp => fs
  | .closeBak => fs
  | .unlinkTmp => fs.unlink .tmp
  | .unlinkBak => fs.unlink .bak
  | .restore => if fs.name .bak = none then fs else fs.rename .bak .path

/-- The number of bytes `copy_file_range` can copy. -/
def available (fs : Files ι) (fd offIn remaining : ℕ) : ℕ :=
  min remaining ((fs.inode fd).data.length - offIn)

/-- `copy_file_range` copies `n` bytes. It advances both offsets, and then
the process does so again. -/
def copyRange (fs : Files ι) (fd bak offIn offOut remaining n : ℕ) : Files ι × Pc :=
  (fs.setData bak (writeAt (fs.inode bak).data offOut (((fs.inode fd).data.drop offIn).take n)),
    if 0 < remaining - n then .copying fd bak (offIn + n + n) (offOut + n + n) (remaining - n)
    else .closingBak fd)

def call (s : Setting) (p : ι) (fs : Files ι) : Pc → Event → Option (Files ι × Pc)
  | .opening, .open true => (fs.name .path).map fun fd => (fs, .locking fd)
  | .opening, .open false => some (fs, .done .failure)
  | .locking fd, .flock none =>
      if fs.lock fd = none ∨ fs.lock fd = some p then some (fs.acquire fd p, .sizing fd) else none
  | .locking fd, .flock (some e) =>
      if e = .einval ∨ e = .enolck ∨ e = .ewouldblock then
        some (fs, .cleaning fd [.closeFd] .failure)
      -- any other error is passed over, and there is no lock
      else some (fs, .sizing fd)
  | .sizing fd, .fstat none => some (fs, .openingBak fd (fs.inode fd).data.length)
  | .sizing fd, .fstat (some (e, size)) =>
      if e = .eacces ∨ e = .ebadf then some (fs, .cleaning fd [] .failure)
      else some (fs, .openingBak fd size)
  | .openingBak fd size, .openBak true =>
      let (bak, fs) := fs.create .bak
      some (fs, .copying fd bak 0 0 size)
  | .openingBak fd _, .openBak false =>
      some (fs, .cleaning fd [.unlock, .closeFd] (.returned (-1)))
  | .copying fd bak offIn offOut remaining, .copy (some n) =>
      if n ≤ available fs fd offIn remaining ∧ (0 < available fs fd offIn remaining → 0 < n) then
        some (copyRange fs fd bak offIn offOut remaining n)
      else none
  | .copying fd _ _ _ _, .copy none => some (fs, .cleaning fd [.closeBak] .failure)
  | .closingBak fd, .closeBak => some (fs, .reading fd)
  | .reading fd, .read .ok =>
      let buf := (fs.inode fd).data.take (bufferSize - 1)
      if buf = [] then some (fs, .cleaning fd [.unlock] .failure)
      else some (fs, .openingTmp fd (cString buf))
  | .reading fd, .read .eintr => some (fs, .cleaning fd [.unlock, .closeFd] .failure)
  -- any other error is passed over too; `buf` is what lay in the buffer
  | .reading fd, .read (.failed buf) => some (fs, .openingTmp fd (cString buf))
  | .openingTmp fd text, .openTmp true stack =>
      let (tmp, fs) := fs.create .tmp
      some (fs, .write fd tmp 0 (s.writeOps stack text))
  | .openingTmp fd _, .openTmp false _ => some (fs, .cleaning fd [.unlock, .closeFd] .failure)
  | .writing fd tmp offset (op :: ops), .write (some n) =>
      if n ≤ op.bytes.length then
        some (fs.setData tmp (writeAt (fs.inode tmp).data offset (op.bytes.take n)),
          .write fd tmp (offset + n) ops)
      else none
  | .writing fd tmp offset (op :: ops), .write none =>
      match op.part.onError with
      | some calls => some (fs, .cleaning fd calls .failure)
      | none => some (fs, .write fd tmp offset ops)
  | .syncing fd tmp, .fsync true => some (fs.sync tmp, .replacing fd tmp)
  | .syncing fd _, .fsync false =>
      some (fs, .cleaning fd [.closeTmp, .unlinkTmp, .unlock, .closeFd] (.returned (-1)))
  | .replacing fd _, .rename none =>
      if fs.name .tmp = none then none
      else some (fs.rename .tmp .path, .commit fd (safeWriteFile none))
  | .replacing fd _, .rename (some e) => some (fs, .commit fd (safeWriteFile (some e)))
  | .cleaning fd (c :: calls) exit, .cleanup => some (c.run fs p fd, .cleaning fd calls exit)
  -- the process is gone, and its descriptors with it
  | .cleaning fd [] exit, .cleanup => some (fs.release fd p, .done exit)
  | _, _ => none

/-! ### The system -/

structure Sys (ι : Type*) where
  files : Files ι
  pc : ι → Pc

def Sys.step (settings : ι → Setting) (s : Sys ι) (l : ι × Event) : Option (Sys ι) :=
  (call (settings l.1) l.1 s.files (s.pc l.1) l.2).map fun r =>
    ⟨r.1, Function.update s.pc l.1 r.2⟩

def Sys.content (s : Sys ι) : Option Text :=
  (s.files.name .path).map fun n => (s.files.inode n).data

def Name.number : Name → ℕ
  | .path => 0
  | .tmp => 1
  | .bak => 2

/-- The system before any process has started. There may be files `path.tmp`
and `path.bak` from before. -/
def Sys.init (content : Text) (tmp bak : Option Text) : Sys ι where
  files :=
    { name := fun
        | .path => some Name.path.number
        | .tmp => tmp.map fun _ => Name.tmp.number
        | .bak => bak.map fun _ => Name.bak.number
      inode := fun
        | 0 => ⟨content, content⟩
        | 1 => ⟨tmp.getD [], tmp.getD []⟩
        | _ => ⟨bak.getD [], bak.getD []⟩
      lock := fun _ => none
      next := 3 }
  pc := fun _ => .opening

/-- The calls of a run up to the end, where `copy_file_range` copies all of
the `size` bytes at once and the calls of `write` take `counts` bytes. -/
def wholeRun (size : ℕ) (counts : List ℕ) : List Event :=
  [.open true, .flock none, .fstat none, .openBak true, .copy (some size), .closeBak, .read .ok,
    .openTmp true []] ++ counts.map (fun n => .write (some n)) ++ [.fsync true, .rename none] ++
    List.replicate 5 .cleanup

/-! ### What a call can do -/

def commitCalls : List Cleanup := [.unlinkBak, .closeTmp, .unlock, .closeFd]

inductive Move (s : Setting) (p : ι) (fs : Files ι) : Pc → Event → Files ι → Pc → Prop
  | opened {fd} (name : fs.name .path = some fd) :
      Move s p fs .opening (.open true) fs (.locking fd)
  | aborted : Move s p fs .opening (.open false) fs (.done .failure)
  | locked {fd} (free : fs.lock fd = none ∨ fs.lock fd = some p) :
      Move s p fs (.locking fd) (.flock none) (fs.acquire fd p) (.sizing fd)
  /-- The process goes on without the lock. -/
  | unlocked {fd e} (other : ¬ (e = .einval ∨ e = .enolck ∨ e = .ewouldblock)) :
      Move s p fs (.locking fd) (.flock (some e)) fs (.sizing fd)
  /-- A call has failed, and this was noticed. -/
  | stopped {pc e fd calls exit} (restore : .restore ∉ calls) (code : exit ≠ .returned 0) :
      Move s p fs pc e fs (.cleaning fd calls exit)
  | sized {fd e} (size : ℕ) : Move s p fs (.sizing fd) e fs (.openingBak fd size)
  | bakOpened {fd size} :
      Move s p fs (.openingBak fd size) (.openBak true) (fs.create .bak).2
        (.copying fd (fs.create .bak).1 0 0 size)
  | copied {fd bak offIn offOut remaining n} :
      Move s p fs (.copying fd bak offIn offOut remaining) (.copy (some n))
        (copyRange fs fd bak offIn offOut remaining n).1
        (copyRange fs fd bak offIn offOut remaining n).2
  | bakClosed {fd} : Move s p fs (.closingBak fd) .closeBak fs (.reading fd)
  | wasRead {fd} :
      Move s p fs (.reading fd) (.read .ok) fs
        (.openingTmp fd (cString ((fs.inode fd).data.take (bufferSize - 1))))
  | readIgnored {fd buf} :
      Move s p fs (.reading fd) (.read (.failed buf)) fs (.openingTmp fd (cString buf))
  | tmpOpened {fd text stack} :
      Move s p fs (.openingTmp fd text) (.openTmp true stack) (fs.create .tmp).2
        (.write fd (fs.create .tmp).1 0 (s.writeOps stack text))
  | wrote {fd tmp offset op ops n} :
      Move s p fs (.writing fd tmp offset (op :: ops)) (.write (some n))
        (fs.setData tmp (writeAt (fs.inode tmp).data offset (op.bytes.take n)))
        (.write fd tmp (offset + n) ops)
  | writeIgnored {fd tmp offset op ops} (part : op.part = .append) :
      Move s p fs (.writing fd tmp offset (op :: ops)) (.write none) fs (.write fd tmp offset ops)
  | synced {fd tmp} :
      Move s p fs (.syncing fd tmp) (.fsync true) (fs.sync tmp) (.replacing fd tmp)
  | renamed {fd tmp} :
      Move s p fs (.replacing fd tmp) (.rename none) (fs.rename .tmp .path)
        (.cleaning fd commitCalls (.returned 0))
  /-- `rename` has failed, and this is taken for success. -/
  | renameIgnored {fd tmp e} (other : ¬ (e = .eacces ∨ e = .ebusy)) :
      Move s p fs (.replacing fd tmp) (.rename (some e)) fs (.cleaning fd commitCalls (.returned 0))
  | cleaned {fd c calls exit} :
      Move s p fs (.cleaning fd (c :: calls) exit) .cleanup (c.run fs p fd)
        (.cleaning fd calls exit)
  | ended {fd exit} : Move s p fs (.cleaning fd [] exit) .cleanup (fs.release fd p) (.done exit)

theorem Move.of_eq {s : Setting} {p : ι} {fs fs₁ fs' : Files ι} {pc pc₁ pc' : Pc} {e : Event}
    (h : some (fs₁, pc₁) = some (fs', pc')) (hmove : Move s p fs pc e fs₁ pc₁) :
    Move s p fs pc e fs' pc' := by
  rw [Option.some.injEq, Prod.mk.injEq] at h
  obtain ⟨rfl, rfl⟩ := h
  exact hmove

theorem Part.restore_not_mem_onError {part : Part} {calls : List Cleanup}
    (h : part.onError = some calls) : .restore ∉ calls := by
  cases part with
  | setting | line | newline =>
      obtain rfl := Option.some.inj h
      decide
  | append => cases h

theorem Part.onError_eq_none {part : Part} (h : part.onError = none) : part = .append := by
  cases part with
  | append => rfl
  | setting => cases h
  | line => cases h
  | newline => cases h

theorem move_rename {s : Setting} {p : ι} {fs : Files ι} (fd tmp : ℕ) (e : Errno) :
    Move s p fs (.replacing fd tmp) (.rename (some e)) fs
      (.commit fd (safeWriteFile (some e))) := by
  cases e with
  | eacces | ebusy => exact .stopped (by simp) (by simp)
  | _ => exact .renameIgnored (by simp)

theorem call_move {s : Setting} {p : ι} {fs fs' : Files ι} {pc pc' : Pc} {e : Event}
    (h : call s p fs pc e = some (fs', pc')) : Move s p fs pc e fs' pc' := by
  unfold call at h
  split at h
  · obtain ⟨fd, hname, heq⟩ := Option.map_eq_some_iff.mp h
    exact .of_eq (congrArg some heq) (.opened hname)
  · exact .of_eq h .aborted
  · split at h
    next hfree => exact .of_eq h (.locked hfree)
    next => cases h
  · split at h
    next => exact .of_eq h (.stopped (by simp) (by simp))
    next hother => exact .of_eq h (.unlocked hother)
  · exact .of_eq h (.sized _)
  · split at h
    next => exact .of_eq h (.stopped (by simp) (by simp))
    next => exact .of_eq h (.sized _)
  · exact .of_eq h .bakOpened
  · exact .of_eq h (.stopped (by simp) (by simp))
  · split at h
    next => exact .of_eq h .copied
    next => cases h
  · exact .of_eq h (.stopped (by simp) (by simp))
  · exact .of_eq h .bakClosed
  · dsimp only at h
    split at h
    next => exact .of_eq h (.stopped (by simp) (by simp))
    next => exact .of_eq h .wasRead
  · exact .of_eq h (.stopped (by simp) (by simp))
  · exact .of_eq h .readIgnored
  · exact .of_eq h .tmpOpened
  · exact .of_eq h (.stopped (by simp) (by simp))
  · split at h
    next => exact .of_eq h .wrote
    next => cases h
  · split at h
    next hcalls => exact .of_eq h (.stopped (Part.restore_not_mem_onError hcalls) (by simp))
    next hpart => exact .of_eq h (.writeIgnored (Part.onError_eq_none hpart))
  · exact .of_eq h .synced
  · exact .of_eq h (.stopped (by simp) (by simp))
  · split at h
    next => cases h
    next => exact .of_eq h .renamed
  · exact .of_eq h (move_rename _ _ _)
  · exact .of_eq h .cleaned
  · exact .of_eq h .ended
  · cases h

theorem Sys.step_move {settings : ι → Setting} {s s' : Sys ι} {l : ι × Event}
    (h : s.step settings l = some s') :
    Move (settings l.1) l.1 s.files (s.pc l.1) l.2 s'.files (s'.pc l.1) ∧
      ∀ q, q ≠ l.1 → s'.pc q = s.pc q := by
  obtain ⟨r, hr, rfl⟩ := Option.map_eq_some_iff.mp h
  refine ⟨?_, fun q hq => Function.update_of_ne hq ..⟩
  dsimp only
  rw [Function.update_self]
  exact call_move hr

omit [DecidableEq ι] in
theorem sane_init (content : Text) (tmp bak : Option Text) :
    (Sys.init content tmp bak : Sys ι).files.Sane := by
  have hnumber : ∀ a n, (Sys.init content tmp bak : Sys ι).files.name a = some n →
      n = a.number := by
    intro a n h
    cases a with
    | path => exact (Option.some.inj h).symm
    | tmp | bak =>
        obtain ⟨_, -, rfl⟩ := Option.map_eq_some_iff.mp h
        rfl
  constructor
  · intro a b n ha hb
    have heq : a.number = b.number := (hnumber a n ha).symm.trans (hnumber b n hb)
    cases a <;> cases b <;> first | rfl | cases heq
  · intro a n ha
    rw [hnumber a n ha]
    show a.number < 3
    cases a <;> decide

end LinuxMiniProjects.SafeConfig
