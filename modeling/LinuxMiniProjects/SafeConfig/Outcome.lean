import LinuxMiniProjects.SafeConfig.Atomicity

/-!
What a write comes to if every call succeeds.

Such a run is determined by the file and by what else there is: what lies
behind the line buffer, and a file `path.tmp` from before. The run reads
the first 255 bytes, writes the new text over `path.tmp`, and moves it to
`path`. As `path.tmp` is opened without `O_TRUNC`, what the new text does
not cover of an old one becomes the end of the configuration. An old
`path.bak` does not matter.
-/

namespace LinuxMiniProjects.SafeConfig

open FileSystem Machine
open Bytes (cString)

/-- What the process sees of a file: its first 255 bytes, up to a zero. -/
def bufText (content : Text) : Text := cString (content.take (bufferSize - 1))

def Setting.written (s : Setting) (stack content : Text) : Text :=
  (s.writeOps stack (bufText content)).flatMap fun op => op.bytes

def Setting.result (s : Setting) (stack content old : Text) : Text :=
  s.written stack content ++ old.drop (s.written stack content).length

variable {ι : Type*}

def Pc.success (stack : Text) (fs : Files ι) : Pc → Option Event
  | .opening => some (.open true)
  | .locking _ => some (.flock none)
  | .sizing _ => some (.fstat none)
  | .openingBak _ _ => some (.openBak true)
  | .copying fd _ offIn _ remaining => some (.copy (some (available fs fd offIn remaining)))
  | .closingBak _ => some .closeBak
  | .reading _ => some (.read .ok)
  | .openingTmp _ _ => some (.openTmp true stack)
  | .writing _ _ _ [] => none
  | .writing _ _ _ (op :: _) => some (.write (some op.bytes.length))
  | .syncing _ _ => some (.fsync true)
  | .replacing _ _ => some (.rename none)
  | .cleaning _ _ _ => some .cleanup
  | .done _ => none

/-- `write_param_config` returns zero in the state `s'`, and every call up
to then has succeeded. -/
structure Succeeds (setting : Setting) (stack : Text) (s s' : Sys Unit) : Prop where
  reachable : Reachable (Sys.step fun _ => setting)
    (fun s l => (s.pc l.1).success stack s.files = some l.2) s s'
  done : s'.pc () = .done (.returned 0)

/-! ### The stages of a run -/

/-- Nothing has happened to `path`, which is the inode `n`, nor to the old
`path.tmp`. -/
structure Untouched (content old : Text) (n : ℕ) (fs : Files ι) : Prop where
  sane : fs.Sane
  path : At fs n content
  left : (fs.name .tmp).elim [] (fun m => (fs.inode m).data) = old

def Stage (s : Setting) (stack content old : Text) (n : ℕ) (fs : Files ι) : Pc → Prop
  | .opening => fs.lock n = none ∧ Untouched content old n fs
  | .locking fd => fd = n ∧ fs.lock n = none ∧ Untouched content old n fs
  | .sizing fd => fd = n ∧ Untouched content old n fs
  | .openingBak fd size => fd = n ∧ size = content.length ∧ Untouched content old n fs
  | .copying fd bak offIn _ remaining =>
      fd = n ∧ fs.name .bak = some bak ∧ offIn = 0 ∧ remaining = content.length ∧
        Untouched content old n fs
  | .closingBak fd => fd = n ∧ Untouched content old n fs
  | .reading fd => fd = n ∧ Untouched content old n fs
  | .openingTmp _ text => content ≠ [] ∧ text = bufText content ∧ Untouched content old n fs
  | .writing _ tmp offset ops =>
      content ≠ [] ∧ ops ≠ [] ∧ fs.name .tmp = some tmp ∧ ∃ front, offset = front.length ∧
        (fs.inode tmp).data = front ++ old.drop front.length ∧
        (front ++ ops.flatMap fun op => op.bytes) = s.written stack content
  | .syncing _ tmp =>
      content ≠ [] ∧ fs.name .tmp = some tmp ∧
        (fs.inode tmp).data = s.result stack content old
  | .replacing _ tmp =>
      content ≠ [] ∧ fs.name .tmp = some tmp ∧
        fs.inode tmp = ⟨s.result stack content old, s.result stack content old⟩
  | .cleaning _ calls exit =>
      .restore ∉ calls ∧ (content = [] ∧ exit = .failure ∨
        content ≠ [] ∧ exit = .returned 0 ∧ ∃ m, At fs m (s.result stack content old))
  | .done exit =>
      content = [] ∧ exit = .failure ∨
        content ≠ [] ∧ exit = .returned 0 ∧ ∃ m, At fs m (s.result stack content old)

/-- A bound for the number of calls to come; `k` is the number of calls of
`write`. -/
def Pc.rank (k : ℕ) : Pc → ℕ
  | .opening => k + 16
  | .locking _ => k + 15
  | .sizing _ => k + 14
  | .openingBak _ _ => k + 13
  | .copying _ _ _ _ _ => k + 12
  | .closingBak _ => k + 11
  | .reading _ => k + 10
  | .openingTmp _ _ => k + 9
  | .writing _ _ _ ops => ops.length + 8
  | .syncing _ _ => 8
  | .replacing _ _ => 7
  | .cleaning _ calls _ => calls.length + 1
  | .done _ => 0

section Stages

variable {s : Setting} {stack content old : Text} {n : ℕ} {fs : Files ι}

theorem Untouched.create_bak (h : Untouched content old n fs) :
    Untouched content old n (fs.create .bak).2 := by
  refine ⟨h.sane.create .bak, h.path.create h.sane (by decide), ?_⟩
  rw [FS.name_create_of_ne (by decide), ← h.left]
  cases htmp : fs.name .tmp with
  | none => rfl
  | some m =>
      rw [Option.elim_some, Option.elim_some, FS.inode_create_of_lt (h.sane.lt .tmp m htmp)]

theorem Untouched.setData_bak (h : Untouched content old n fs) {bak : ℕ}
    (hbak : fs.name .bak = some bak) (data : Text) :
    Untouched content old n (fs.setData bak data) := by
  refine ⟨⟨h.sane.inj, h.sane.lt⟩,
    h.path.setData (h.path.ne_of_name h.sane hbak (by decide)) data, ?_⟩
  rw [← h.left]
  show (fs.name .tmp).elim _ _ = _
  cases htmp : fs.name .tmp with
  | none => rfl
  | some m =>
      have hne : m ≠ bak := by
        rintro rfl
        cases h.sane.inj .tmp .bak m htmp hbak
      rw [Option.elim_some, Option.elim_some, FS.inode_setData_of_ne hne]

theorem Untouched.data_create_tmp (h : Untouched content old n fs) :
    ((fs.create .tmp).2.inode (fs.create .tmp).1).data = old := by
  rw [FS.inode_create_self, ← h.left]
  cases fs.name .tmp <;> rfl

theorem stage_write {fd tmp : ℕ} {front : Text} {ops : List WriteOp} (hcontent : content ≠ [])
    (hname : fs.name .tmp = some tmp)
    (hdata : (fs.inode tmp).data = front ++ old.drop front.length)
    (hops : (front ++ ops.flatMap fun op => op.bytes) = s.written stack content) :
    Stage s stack content old n fs (.write fd tmp front.length ops) := by
  cases ops with
  | nil =>
      rw [List.flatMap_nil, List.append_nil] at hops
      refine ⟨hcontent, hname, ?_⟩
      rw [hdata, hops, Setting.result]
  | cons op ops => exact ⟨hcontent, by simp, hname, front, rfl, hdata, hops⟩

theorem rank_write_le (k fd tmp offset : ℕ) (ops : List WriteOp) :
    (Pc.write fd tmp offset ops).rank k ≤ ops.length + 8 := by
  cases ops with
  | nil => exact Nat.le_refl 8
  | cons op ops => exact Nat.le_refl _

end Stages

section Steps

variable [DecidableEq ι] {s : Setting} {p : ι} {stack content old : Text} {n : ℕ}
  {fs : Files ι} {pc : Pc}

/-- **A call that succeeds.** There is always one until the run is over, and
it leads to the next stage. -/
theorem Stage.advance (h : Stage s stack content old n fs pc) (hpc : ∀ exit, pc ≠ .done exit) :
    ∃ e fs' pc', pc.success stack fs = some e ∧ call s p fs pc e = some (fs', pc') ∧
      Stage s stack content old n fs' pc' ∧
      pc'.rank (s.writeOps stack (bufText content)).length <
        pc.rank (s.writeOps stack (bufText content)).length := by
  cases pc with
  | opening =>
      obtain ⟨hlock, hfs⟩ := h
      refine ⟨_, fs, .locking n, rfl, ?_, ⟨rfl, hlock, hfs⟩, Nat.lt_succ_self _⟩
      rw [call, hfs.path.name, Option.map_some]
  | locking fd =>
      obtain ⟨rfl, hlock, hfs⟩ := h
      refine ⟨_, fs.acquire fd p, .sizing fd, rfl, ?_, ⟨rfl, ?_⟩, Nat.lt_succ_self _⟩
      · rw [call, if_pos (.inl hlock)]
      · exact ⟨⟨hfs.sane.inj, hfs.sane.lt⟩, ⟨hfs.path.name, hfs.path.inode⟩, hfs.left⟩
  | sizing fd =>
      obtain ⟨rfl, hfs⟩ := h
      refine ⟨_, fs, .openingBak fd _, rfl, rfl, ⟨rfl, ?_, hfs⟩, Nat.lt_succ_self _⟩
      rw [hfs.path.inode]
  | openingBak fd size =>
      obtain ⟨rfl, rfl, hfs⟩ := h
      exact ⟨_, (fs.create .bak).2, .copying fd (fs.create .bak).1 0 0 content.length, rfl, rfl,
        ⟨rfl, FS.name_create_self, rfl, rfl, hfs.create_bak⟩, Nat.lt_succ_self _⟩
  | copying fd bak offIn offOut remaining =>
      obtain ⟨rfl, hbak, rfl, rfl, hfs⟩ := h
      have havail : available fs fd 0 content.length = content.length := by
        rw [available, hfs.path.inode, Nat.sub_zero, Nat.min_self]
      refine ⟨_, (copyRange fs fd bak 0 offOut content.length content.length).1,
        .closingBak fd, rfl, ?_, ⟨rfl, hfs.setData_bak hbak _⟩, Nat.lt_succ_self _⟩
      rw [call, if_pos ⟨Nat.le_refl _, id⟩, havail, copyRange, Nat.sub_self,
        if_neg (Nat.lt_irrefl 0)]
  | closingBak fd =>
      obtain ⟨rfl, hfs⟩ := h
      exact ⟨_, fs, .reading fd, rfl, rfl, ⟨rfl, hfs⟩, Nat.lt_succ_self _⟩
  | reading fd =>
      obtain ⟨rfl, hfs⟩ := h
      by_cases hcontent : content = []
      · refine ⟨_, fs, .cleaning fd [.unlock] .failure, rfl, ?_,
          ⟨by decide, .inl ⟨hcontent, rfl⟩⟩, ?_⟩
        · simp [call, hfs.path.inode, hcontent]
        · show 2 < _ + 10
          omega
      · refine ⟨_, fs, .openingTmp fd (bufText content), rfl, ?_, ⟨hcontent, rfl, hfs⟩,
          Nat.lt_succ_self _⟩
        have hbuf : (fs.inode fd).data.take (bufferSize - 1) ≠ [] := by
          rw [hfs.path.inode, Ne, List.take_eq_nil_iff, not_or]
          exact ⟨by decide, hcontent⟩
        rw [call, if_neg hbuf, hfs.path.inode, bufText]
  | openingTmp fd text =>
      obtain ⟨hcontent, rfl, hfs⟩ := h
      refine ⟨_, (fs.create .tmp).2, _, rfl, rfl, ?_,
        Nat.lt_succ_of_le (rank_write_le _ _ _ _ _)⟩
      have hdata : ((fs.create .tmp).2.inode (fs.create .tmp).1).data =
          [] ++ old.drop ([] : Text).length := hfs.data_create_tmp
      exact stage_write hcontent FS.name_create_self hdata rfl
  | writing fd tmp offset ops =>
      obtain ⟨hcontent, hne, hname, front, rfl, hdata, hops⟩ := h
      cases ops with
      | nil => exact absurd rfl hne
      | cons op ops =>
          refine ⟨_, fs.setData tmp (writeAt (fs.inode tmp).data front.length op.bytes),
            .write fd tmp (front ++ op.bytes).length ops, rfl, ?_, ?_,
            Nat.lt_succ_of_le (rank_write_le _ _ _ _ _)⟩
          · rw [call, if_pos (Nat.le_refl _), List.take_length, List.length_append]
          · refine stage_write hcontent hname ?_ ?_
            · rw [FS.inode_setData_self, hdata, writeAt_overwritten]
            · rw [List.append_assoc, ← List.flatMap_cons, hops]
  | syncing fd tmp =>
      obtain ⟨hcontent, hname, hdata⟩ := h
      refine ⟨_, fs.sync tmp, .replacing fd tmp, rfl, rfl, ⟨hcontent, hname, ?_⟩,
        Nat.lt_succ_self _⟩
      rw [FS.inode_sync_self]
      simp only [hdata]
  | replacing fd tmp =>
      obtain ⟨hcontent, hname, hinode⟩ := h
      refine ⟨_, fs.rename .tmp .path, .cleaning fd commitCalls (.returned 0), rfl, ?_,
        ⟨by decide, .inr ⟨hcontent, rfl, tmp, ?_, hinode⟩⟩, show 5 < 7 by decide⟩
      · rw [call, hname, if_neg (by simp)]
        rfl
      · simpa [FS.rename] using hname
  | cleaning fd calls exit =>
      obtain ⟨hcalls, hexit⟩ := h
      cases calls with
      | nil =>
          refine ⟨_, fs.release fd p, .done exit, rfl, rfl, ?_, Nat.succ_pos _⟩
          obtain hfail | ⟨hcontent, hzero, m, hat⟩ := hexit
          · exact .inl hfail
          · exact .inr ⟨hcontent, hzero, m, hat.name, hat.inode⟩
      | cons c calls =>
          rw [List.mem_cons, not_or] at hcalls
          refine ⟨_, c.run fs p fd, .cleaning fd calls exit, rfl, rfl, ⟨hcalls.2, ?_⟩,
            Nat.lt_succ_self _⟩
          obtain hfail | ⟨hcontent, hzero, m, hat⟩ := hexit
          · exact .inl hfail
          · exact .inr ⟨hcontent, hzero, m, hat.run (Ne.symm hcalls.1) fd⟩
  | done exit => exact absurd rfl (hpc exit)

end Steps

/-! ### Whole runs -/

section Runs

variable {setting : Setting} {stack content : Text} {tmp bak : Option Text} {s : Sys Unit}

theorem stage_of_reachable
    (h : Reachable (Sys.step fun _ => setting)
      (fun s l => (s.pc l.1).success stack s.files = some l.2) (Sys.init content tmp bak) s) :
    Stage setting stack content (tmp.getD []) 0 s.files (s.pc ()) := by
  have hinit : Stage setting stack content (tmp.getD []) 0
      (Sys.init content tmp bak : Sys Unit).files .opening := by
    refine ⟨rfl, sane_init content tmp bak, ⟨rfl, rfl⟩, ?_⟩
    cases tmp <;> rfl
  refine h.invariant (I := fun s => Stage setting stack content (tmp.getD []) 0 s.files (s.pc ()))
    hinit ?_
  · rintro s ⟨⟨⟩, e⟩ s' hstage hok hstep
    dsimp only at hok
    have hpc : ∀ exit, s.pc () ≠ .done exit := by
      intro exit hdone
      rw [hdone] at hok
      cases hok
    obtain ⟨e', fs', pc', he', hcall, hstage', -⟩ := hstage.advance (p := ()) hpc
    -- there is only one call that succeeds, and it has one result
    obtain rfl : e' = e := Option.some.inj (he'.symm.trans hok)
    obtain ⟨r, hr, rfl⟩ := Option.map_eq_some_iff.mp hstep
    obtain rfl : (fs', pc') = r := Option.some.inj (hcall.symm.trans hr)
    exact hstage'

theorem Succeeds.content_eq (h : Succeeds setting stack (Sys.init content tmp bak) s) :
    s.content = some (setting.result stack content (tmp.getD [])) := by
  have hstage := stage_of_reachable h.reachable
  rw [h.done] at hstage
  obtain ⟨-, hfail⟩ | ⟨-, -, m, hat⟩ := hstage
  · cases hfail
  · rw [Sys.content, hat.name, Option.map_some, hat.inode]

theorem Succeeds.content_ne_nil (h : Succeeds setting stack (Sys.init content tmp bak) s) :
    content ≠ [] := by
  have hstage := stage_of_reachable h.reachable
  rw [h.done] at hstage
  obtain ⟨-, hfail⟩ | ⟨hcontent, -⟩ := hstage
  · cases hfail
  · exact hcontent

theorem exists_succeeds (setting : Setting) (stack : Text) (hcontent : content ≠ [])
    (tmp bak : Option Text) : ∃ s, Succeeds setting stack (Sys.init content tmp bak) s := by
  obtain ⟨s, hreach, exit, hdone⟩ : ∃ s, Reachable (Sys.step fun _ => setting)
      (fun s l => (s.pc l.1).success stack s.files = some l.2) (Sys.init content tmp bak) s ∧
      ∃ exit, s.pc () = .done exit := by
    let rank (s : Sys Unit) : ℕ := (s.pc ()).rank (setting.writeOps stack (bufText content)).length
    refine Reachable.exists_of_progress (r := rank) fun s hs hrest => ?_
    obtain ⟨e, fs', pc', he, hcall, -, hlt⟩ :=
      (stage_of_reachable hs).advance (p := ()) fun exit hdone => hrest ⟨exit, hdone⟩
    refine ⟨((), e), _, he, by rw [Sys.step, hcall]; rfl, ?_⟩
    exact hlt
  refine ⟨s, hreach, ?_⟩
  have hstage := stage_of_reachable hreach
  rw [hdone] at hstage
  obtain ⟨hempty, -⟩ | ⟨-, rfl, -⟩ := hstage
  · exact absurd hempty hcontent
  · exact hdone

/-- **Leftovers.** Two writes to the same file that find different files
`path.tmp` and `path.bak` give it the same contents exactly if the files
`path.tmp` are alike behind the length of the new text; or there are no
such writes, because the file is empty. -/
theorem same_content_iff_leftovers_alike (setting : Setting) (stack content : Text)
    (tmp₁ bak₁ tmp₂ bak₂ : Option Text) :
    (∀ s₁ s₂ : Sys Unit, Succeeds setting stack (Sys.init content tmp₁ bak₁) s₁ →
        Succeeds setting stack (Sys.init content tmp₂ bak₂) s₂ → s₁.content = s₂.content) ↔
      content = [] ∨ (tmp₁.getD []).drop (setting.written stack content).length =
        (tmp₂.getD []).drop (setting.written stack content).length := by
  constructor
  · intro hsame
    by_cases hcontent : content = []
    · exact .inl hcontent
    · obtain ⟨s₁, h₁⟩ := exists_succeeds setting stack hcontent tmp₁ bak₁
      obtain ⟨s₂, h₂⟩ := exists_succeeds setting stack hcontent tmp₂ bak₂
      have heq := hsame s₁ s₂ h₁ h₂
      rw [h₁.content_eq, h₂.content_eq, Option.some.injEq, Setting.result, Setting.result,
        List.append_cancel_left_eq] at heq
      exact .inr heq
  · rintro (hempty | halike) s₁ s₂ h₁ h₂
    · exact absurd hempty h₁.content_ne_nil
    · rw [h₁.content_eq, h₂.content_eq, Setting.result, Setting.result, halike]

theorem same_content_twoLines :
    ∀ s₁ s₂ : Sys Unit, Succeeds setB [] (Sys.init twoLines none none) s₁ →
      Succeeds setB [] (Sys.init twoLines (some [99]) (some twoLines)) s₂ →
      s₁.content = s₂.content :=
  (same_content_iff_leftovers_alike setB [] twoLines none none (some [99]) (some twoLines)).mpr
    (.inr (by decide +kernel))

/-- A `path.tmp` of twelve bytes. The new text has eight, and the other four
stay. -/
theorem leftover_twoLines :
    ∃ s₁ s₂ : Sys Unit, Succeeds setB [] (Sys.init twoLines none none) s₁ ∧
      Succeeds setB [] (Sys.init twoLines (some (List.replicate 12 120)) none) s₂ ∧
      s₁.content = some [97, 61, 49, 10, 98, 61, 51, 10] ∧
      s₂.content = some [97, 61, 49, 10, 98, 61, 51, 10, 120, 120, 120, 120] ∧
      s₁.content ≠ s₂.content := by
  have hcontent : twoLines ≠ [] := by decide
  obtain ⟨s₁, h₁⟩ := exists_succeeds setB [] hcontent none none
  obtain ⟨s₂, h₂⟩ := exists_succeeds setB [] hcontent (some (List.replicate 12 120)) none
  refine ⟨s₁, s₂, h₁, h₂, ?_, ?_, ?_⟩
  · rw [h₁.content_eq]
    decide +kernel
  · rw [h₂.content_eq]
    decide +kernel
  · rw [h₁.content_eq, h₂.content_eq]
    decide +kernel

end Runs

end LinuxMiniProjects.SafeConfig
