import Mathlib.Data.List.TakeWhile
import LinuxMiniProjects.SafeConfig.Program

/-!
A write is atomic.

`path` is never written to. The new text goes to `path.tmp`, and the name
`path` is moved to it when it is complete and on the disk. So at any time,
and after a crash at any time, `path` has its old contents or the complete
new ones; and if `write_param_config` returns zero it has the new ones.

That is so if `path.tmp` is complete when it is moved, and the source does
not see to it. A `write` that takes a part of its bytes counts as a
success, and so does a `rename` that fails in most ways; if the last
`write` fails, there is a message and no more. `path.tmp` is not truncated
when it is opened, so the end of an older and longer one stays there. The
buffers cut off a file of more than 255 bytes and a line of more than 255.
`Fine` excludes these cases.
-/

namespace LinuxMiniProjects.SafeConfig

open FileSystem Machine Tokens
open Bytes (cString cString_of_notMem)

variable {ι : Type*}

/-- The file fits the buffer and is text; the line fits the line buffer;
an old `path.tmp` is not longer than the new text; a `write` takes all of
its bytes or fails, and the last one does not fail; and `rename` succeeds
or fails in one of the two ways the source knows. -/
def Fine (s : Setting) (fs : Files ι) : Pc → Event → Prop
  | .reading fd, .read .ok => (fs.inode fd).data.length < bufferSize ∧ 0 ∉ (fs.inode fd).data
  | .reading _, .read (.failed _) => False
  | .openingTmp _ text, .openTmp true _ =>
      s.Fits ∧ ∀ n ∈ fs.name .tmp, (fs.inode n).data.length ≤ (s.rewrite text).length
  | .writing _ _ _ (op :: _), .write (some n) => n = op.bytes.length
  | .writing _ _ _ (op :: _), .write none => op.part ≠ .append
  | .replacing _ _, .rename (some e) => e = .eacces ∨ e = .ebusy
  | _, _ => True

instance (s : Setting) (fs : Files ι) (pc : Pc) (e : Event) : Decidable (Fine s fs pc e) := by
  unfold Fine
  split <;> infer_instance

/-- `path` is the inode `n`, with the contents `t`, also on the disk. -/
structure At (fs : Files ι) (n : ℕ) (t : Text) : Prop where
  name : fs.name .path = some n
  inode : fs.inode n = ⟨t, t⟩

/-- `path.tmp` is the inode `tmp`. What was written to it up to `offset`,
together with what is still to be written, is the text `new`; there is
nothing in it behind that. -/
structure Draft (fs : Files ι) (new : Text) (tmp offset : ℕ) (ops : List WriteOp) : Prop where
  name : fs.name .tmp = some tmp
  text : (fs.inode tmp).data.take offset ++ (ops.flatMap fun op => op.bytes) = new
  offset_le : offset ≤ (fs.inode tmp).data.length
  length_le : (fs.inode tmp).data.length ≤ new.length

/-- How far a process has come while `path` is the inode `n` with the
contents `t`. -/
def Progress (s : Setting) (fs : Files ι) (n : ℕ) (t : Text) : Pc → Prop
  | .opening => True
  | .locking fd => fd = n
  | .sizing fd => fd = n
  | .openingBak fd _ => fd = n
  | .copying fd bak _ _ _ => fd = n ∧ bak ≠ n
  | .closingBak fd => fd = n
  | .reading fd => fd = n
  | .openingTmp fd text => fd = n ∧ text = t
  | .writing fd tmp offset ops => fd = n ∧ Draft fs (s.rewrite t) tmp offset ops
  | .syncing fd tmp => fd = n ∧ fs.name .tmp = some tmp ∧ (fs.inode tmp).data = s.rewrite t
  | .replacing fd tmp =>
      fd = n ∧ fs.name .tmp = some tmp ∧ fs.inode tmp = ⟨s.rewrite t, s.rewrite t⟩
  | .cleaning _ calls exit => .restore ∉ calls ∧ exit ≠ .returned 0
  | .done exit => exit ≠ .returned 0

section Drafts

variable {s : Setting} {fs : Files ι} {n : ℕ} {t : Text}

theorem cString_take_bufferSize (h : t.length < bufferSize) (hzero : 0 ∉ t) :
    cString (t.take (bufferSize - 1)) = t := by
  rw [List.take_of_length_le (by omega), cString_of_notMem hzero]

theorem Draft.data_eq {new : Text} {tmp offset : ℕ} (h : Draft fs new tmp offset []) :
    (fs.inode tmp).data = new := by
  have htake : (fs.inode tmp).data.take offset = new := by simpa using h.text
  have hlen := congrArg List.length htake
  rw [List.length_take, Nat.min_eq_left h.offset_le] at hlen
  have hle := h.length_le
  rwa [List.take_of_length_le (by omega)] at htake

theorem Draft.progress {tmp offset : ℕ} {ops : List WriteOp}
    (h : Draft fs (s.rewrite t) tmp offset ops) : Progress s fs n t (.write n tmp offset ops) := by
  cases ops with
  | nil => exact ⟨rfl, h.name, h.data_eq⟩
  | cons op ops => exact ⟨rfl, h⟩

theorem Draft.write {new : Text} {tmp offset : ℕ} {op : WriteOp} {ops : List WriteOp}
    (h : Draft fs new tmp offset (op :: ops)) :
    Draft (fs.setData tmp (writeAt (fs.inode tmp).data offset op.bytes)) new tmp
      (offset + op.bytes.length) ops := by
  have htake := take_writeAt h.offset_le op.bytes
  have hlength := length_writeAt h.offset_le op.bytes
  have htext : ((fs.inode tmp).data.take offset ++ op.bytes) ++
      (ops.flatMap fun op => op.bytes) = new := by
    rw [List.append_assoc, ← List.flatMap_cons]
    exact h.text
  have hlen := congrArg List.length htext
  simp only [List.length_append, List.length_take, Nat.min_eq_left h.offset_le] at hlen
  have hle := h.length_le
  refine ⟨h.name, ?_, ?_, ?_⟩
  · rw [FS.inode_setData_self]
    dsimp only
    rw [htake, htext]
  · rw [FS.inode_setData_self]
    dsimp only
    omega
  · rw [FS.inode_setData_self]
    dsimp only
    omega

theorem At.ne_of_name (h : At fs n t) (hsane : fs.Sane) {a : Name} {m : ℕ}
    (hname : fs.name a = some m) (ha : a ≠ .path) : m ≠ n := by
  rintro rfl
  exact ha (hsane.inj a .path m hname h.name)

theorem At.create (h : At fs n t) (hsane : fs.Sane) {a : Name} (ha : a ≠ .path) :
    At (fs.create a).2 n t := by
  refine ⟨?_, ?_⟩
  · rw [FS.name_create_of_ne ha.symm, h.name]
  · rw [FS.inode_create_of_lt (hsane.lt .path n h.name), h.inode]

theorem At.setData (h : At fs n t) {m : ℕ} (hm : m ≠ n) (data : Text) :
    At (fs.setData m data) n t :=
  ⟨h.name, by rw [FS.inode_setData_of_ne hm.symm, h.inode]⟩

theorem draft_create (hfits : s.Fits)
    (hleft : ∀ m ∈ fs.name .tmp, (fs.inode m).data.length ≤ (s.rewrite t).length) (stack : Text) :
    Draft (fs.create .tmp).2 (s.rewrite t) (fs.create .tmp).1 0 (s.writeOps stack t) := by
  refine ⟨FS.name_create_self, ?_, Nat.zero_le _, ?_⟩
  · rw [List.take_zero, List.nil_append, hfits.bytes_writeOps]
  · rw [FS.inode_create_self]
    cases hname : fs.name .tmp with
    | none => exact Nat.zero_le _
    | some m => exact hleft m hname

end Drafts

section Steps

variable [DecidableEq ι] {s : Setting} {p : ι} {fs fs' : Files ι} {pc pc' : Pc} {e : Event}
  {n : ℕ} {t : Text}

theorem At.run (h : At fs n t) {c : Cleanup} (hc : c ≠ .restore) (fd : ℕ) :
    At (c.run fs p fd) n t := by
  cases c with
  | unlock => exact ⟨h.name, h.inode⟩
  | closeFd => exact ⟨h.name, h.inode⟩
  | closeTmp => exact h
  | closeBak => exact h
  | unlinkTmp | unlinkBak => exact ⟨(FS.name_unlink_of_ne (by decide)).trans h.name, h.inode⟩
  | restore => exact absurd rfl hc

theorem sane_run (h : fs.Sane) {c : Cleanup} (fd : ℕ) : (c.run fs p fd).Sane := by
  cases c with
  | unlock => exact ⟨h.inj, h.lt⟩
  | closeFd => exact ⟨h.inj, h.lt⟩
  | closeTmp => exact h
  | closeBak => exact h
  | unlinkTmp => exact h.unlink .tmp
  | unlinkBak => exact h.unlink .bak
  | restore =>
      simp only [Cleanup.run]
      split
      · exact h
      · exact h.rename (show Name.path ≠ .bak by decide)

theorem Move.sane (hmove : Move s p fs pc e fs' pc') (h : fs.Sane) : fs'.Sane := by
  cases hmove with
  | locked free | copied | wrote | synced | ended => exact ⟨h.inj, h.lt⟩
  | bakOpened => exact h.create .bak
  | tmpOpened => exact h.create .tmp
  | renamed => exact h.rename (by decide)
  | cleaned => exact sane_run h _
  | _ => exact h

/-- **A step of a process.** While it works, `path` stays as it is, until
it is replaced by the complete new text. -/
theorem Move.progress (hmove : Move s p fs pc e fs' pc') (hfine : Fine s fs pc e)
    (hsane : fs.Sane) (hat : At fs n t) (h : Progress s fs n t pc) :
    At fs' n t ∧ Progress s fs' n t pc' ∨
      ∃ m, At fs' m (s.rewrite t) ∧ pc' = .cleaning n commitCalls (.returned 0) := by
  cases hmove with
  | opened name => exact .inl ⟨hat, Option.some.inj (name.symm.trans hat.name)⟩
  | aborted => exact .inl ⟨hat, by simp [Progress]⟩
  | locked free => exact .inl ⟨⟨hat.name, hat.inode⟩, h⟩
  | unlocked other | sized size | bakClosed => exact .inl ⟨hat, h⟩
  | stopped restore code => exact .inl ⟨hat, restore, code⟩
  | bakOpened =>
      -- the copy goes to a file that is not `path`
      have hat' := hat.create hsane (show Name.bak ≠ .path by decide)
      exact .inl ⟨hat', h, hat'.ne_of_name (hsane.create .bak) FS.name_create_self (by decide)⟩
  | copied =>
      obtain ⟨rfl, hbak⟩ := h
      refine .inl ⟨hat.setData hbak _, ?_⟩
      unfold copyRange
      dsimp only
      split
      · exact ⟨rfl, hbak⟩
      · rfl
  | wasRead =>
      obtain rfl : _ = n := h
      obtain ⟨hlen, hzero⟩ := hfine
      rw [hat.inode] at hlen hzero
      refine .inl ⟨hat, rfl, ?_⟩
      rw [hat.inode]
      exact cString_take_bufferSize hlen hzero
  | readIgnored => exact hfine.elim
  | tmpOpened =>
      obtain ⟨rfl, rfl⟩ := h
      obtain ⟨hfits, hleft⟩ := hfine
      exact .inl ⟨hat.create hsane (by decide), (draft_create hfits hleft _).progress⟩
  | wrote =>
      obtain ⟨rfl, hdraft⟩ := h
      obtain rfl : _ = _ := hfine
      rw [List.take_length]
      exact .inl ⟨hat.setData (hat.ne_of_name hsane hdraft.name (by decide)) _,
        hdraft.write.progress⟩
  | writeIgnored part => exact absurd part hfine
  | synced =>
      obtain ⟨rfl, hname, hdata⟩ := h
      have hne := hat.ne_of_name hsane hname (by decide)
      refine .inl ⟨⟨hat.name, by rw [FS.inode_sync_of_ne hne.symm, hat.inode]⟩, rfl, hname, ?_⟩
      rw [FS.inode_sync_self]
      simp only [hdata]
  | @renamed fd tmp =>
      -- the only step that changes `path`, and the draft is complete
      obtain ⟨rfl, hname, hinode⟩ := h
      refine .inr ⟨tmp, ⟨?_, hinode⟩, rfl⟩
      simpa [FS.rename] using hname
  | renameIgnored other => exact absurd hfine other
  | cleaned =>
      obtain ⟨hrestore, hcode⟩ := h
      rw [List.mem_cons, not_or] at hrestore
      exact .inl ⟨hat.run (Ne.symm hrestore.1) _, hrestore.2, hcode⟩
  | ended => exact .inl ⟨⟨hat.name, hat.inode⟩, h.2⟩

def Pc.After : Pc → Prop
  | .cleaning _ calls _ => .restore ∉ calls
  | .done _ => True
  | _ => False

theorem Move.after (hmove : Move s p fs pc e fs' pc') (h : pc.After) (hat : At fs n t) :
    At fs' n t ∧ pc'.After := by
  cases hmove with
  | stopped restore code => exact ⟨hat, restore⟩
  | cleaned =>
      have hrestore := List.mem_cons.not.mp h
      rw [not_or] at hrestore
      exact ⟨hat.run (Ne.symm hrestore.1) _, hrestore.2⟩
  | ended => exact ⟨⟨hat.name, hat.inode⟩, trivial⟩
  | _ => exact h.elim

end Steps

/-! ### Whole runs -/

/-- The old text, and the process is at work; or the new one, and it is
done. -/
def Atomic (s : Setting) (content : Text) (fs : Files ι) (pc : Pc) : Prop :=
  (∃ n, At fs n content ∧ Progress s fs n content pc) ∨
    ∃ n, At fs n (s.rewrite content) ∧ pc.After

theorem Move.atomic [DecidableEq ι] {s : Setting} {p : ι} {fs fs' : Files ι} {pc pc' : Pc}
    {e : Event} {content : Text} (hmove : Move s p fs pc e fs' pc') (hfine : Fine s fs pc e)
    (hsane : fs.Sane) (h : Atomic s content fs pc) : Atomic s content fs' pc' := by
  rcases h with ⟨n, hat, hprogress⟩ | ⟨n, hat, hafter⟩
  · rcases hmove.progress hfine hsane hat hprogress with ⟨hat', hprogress'⟩ | ⟨m, hat', rfl⟩
    · exact .inl ⟨n, hat', hprogress'⟩
    · exact .inr ⟨m, hat', by simp [Pc.After, commitCalls]⟩
  · obtain ⟨hat', hafter'⟩ := hmove.after hafter hat
    exact .inr ⟨n, hat', hafter'⟩

/-- **A write is atomic.** In every state of a run whose calls are fine, and
so after a crash at any time, `path` has its old contents or the complete
new ones, and has them on the disk; and when `write_param_config` has
returned zero, it has the new ones. -/
theorem write_is_atomic {content : Text} {tmp bak : Option Text} {setting : Setting}
    {s : Sys Unit}
    (h : Reachable (Sys.step fun _ => setting)
      (fun s l => Fine setting s.files (s.pc l.1) l.2) (Sys.init content tmp bak) s) :
    (∃ n, At s.files n content ∨ At s.files n (setting.rewrite content)) ∧
      (s.pc () = .done (.returned 0) → ∃ n, At s.files n (setting.rewrite content)) := by
  have hinit : Atomic setting content (Sys.init content tmp bak : Sys Unit).files .opening :=
    .inl ⟨0, ⟨rfl, rfl⟩, trivial⟩
  have hinv : s.files.Sane ∧ Atomic setting content s.files (s.pc ()) := by
    refine h.invariant (I := fun s => s.files.Sane ∧ Atomic setting content s.files (s.pc ()))
      ⟨sane_init content tmp bak, hinit⟩ ?_
    rintro s ⟨⟨⟩, e⟩ s' ⟨hsane, hatomic⟩ hfine hstep
    obtain ⟨hmove, -⟩ := Sys.step_move hstep
    exact ⟨hmove.sane hsane, hmove.atomic hfine hsane hatomic⟩
  rcases hinv.2 with ⟨n, hat, hprogress⟩ | ⟨n, hat, -⟩
  · refine ⟨⟨n, .inl hat⟩, fun hdone => ?_⟩
    rw [hdone] at hprogress
    exact absurd rfl hprogress
  · exact ⟨⟨n, .inr hat⟩, fun _ => ⟨n, hat⟩⟩

def twoLines : Text := [97, 61, 49, 10, 98, 61, 50, 10]

def setB : Setting := ⟨[98], [51]⟩

theorem write_is_atomic_twoLines :
    ∃ s : Sys Unit,
      Reachable (Sys.step fun _ => setB) (fun s l => Fine setB s.files (s.pc l.1) l.2)
        (Sys.init twoLines (some [99]) none) s ∧
      s.pc () = .done (.returned 0) ∧ s.content = some [97, 61, 49, 10, 98, 61, 51, 10] ∧
      ∃ n, At s.files n (setB.rewrite twoLines) := by
  have hrun : (runs (guarded (Sys.step fun _ => setB)
      fun s l => Fine setB s.files (s.pc l.1) l.2) (Sys.init twoLines (some [99]) none)
        ((wholeRun 8 [3, 1, 4]).map fun e => ((), e))).map (fun s => (s.pc (), s.content)) =
      some (.done (.returned 0), some [97, 61, 49, 10, 98, 61, 51, 10]) := by decide +kernel
  obtain ⟨s, hreach, hobs⟩ := Reachable.exists_of_runs hrun
  obtain ⟨hdone, hcontent⟩ := Prod.mk.inj hobs
  exact ⟨s, hreach, hdone, hcontent, (write_is_atomic hreach).2 hdone⟩

/-- The first `write` takes one byte of three. The rest of the line is
lost, and `write_param_config` returns zero. -/
theorem write_torn_twoLines :
    ∃ s : Sys Unit,
      Reachable (Sys.step fun _ => setB) (fun _ _ => True) (Sys.init twoLines none none) s ∧
      s.pc () = .done (.returned 0) ∧ s.content = some [97, 10, 98, 61, 51, 10] ∧
      s.content ≠ some twoLines ∧ s.content ≠ some (setB.rewrite twoLines) := by
  have hrun : (runs (guarded (Sys.step fun _ => setB) fun _ _ => True)
      (Sys.init twoLines none none)
        ((wholeRun 8 [1, 1, 4]).map fun e => ((), e))).map (fun s => (s.pc (), s.content)) =
      some (.done (.returned 0), some [97, 10, 98, 61, 51, 10]) := by decide +kernel
  obtain ⟨s, hreach, hobs⟩ := Reachable.exists_of_runs hrun
  obtain ⟨hdone, hcontent⟩ := Prod.mk.inj hobs
  refine ⟨s, hreach, hdone, hcontent, ?_, ?_⟩
  · rw [hcontent]
    decide
  · rw [hcontent]
    decide +kernel

end LinuxMiniProjects.SafeConfig
