import LinuxMiniProjects.SafeConfig.Atomicity

/-!
The loop of `back_up_file` (`main.c`).

`copy_file_range` may copy less than it is asked for; the loop is there to
call it again. But it gets the addresses of the offsets and advances them
itself, and then the loop advances them once more. So after a call that
copied a part, the next one begins too far behind. The part in between is
never copied, `remaining` never gets to zero, and once the offset is at
the end of the file the loop goes round for ever.

The number of bytes goes through an `int`. And `path.bak` is opened
without `O_TRUNC`, so that the end of an older and longer one stays.
-/

namespace LinuxMiniProjects.SafeConfig

open FileSystem

def toInt (n : ℕ) : ℤ := (n + 2 ^ 31) % 2 ^ 32 - 2 ^ 31

structure Copy where
  offIn : ℕ
  offOut : ℕ
  remaining : ℤ
  bak : Text
  deriving DecidableEq, Repr

def Copy.start (content old : Text) : Copy := ⟨0, 0, content.length, old⟩

inductive Turn
  | again (c : Copy)
  /-- The function returns zero. -/
  | returned (bak : Text)
  /-- The process exits. -/
  | failed (bak : Text)
  deriving DecidableEq, Repr

def Copy.available (content : Text) (c : Copy) : ℕ :=
  min c.remaining.toNat (content.length - c.offIn)

/-- A turn of the loop in which `copy_file_range` copies `n` bytes. -/
def Copy.turn (content : Text) (c : Copy) (n : ℕ) : Turn :=
  let bak := writeAt c.bak c.offOut ((content.drop c.offIn).take n)
  let ret := toInt n
  if ret < 0 then .failed bak
  else if 0 < c.remaining - ret then
    .again ⟨c.offIn + n + ret.toNat, c.offOut + n + ret.toNat, c.remaining - ret, bak⟩
  else .returned bak

def Turn.bind (rest : Copy → Option Turn) : Turn → Option Turn
  | .again c => rest c
  | .returned bak => some (.returned bak)
  | .failed bak => some (.failed bak)

/-- The loop, for at most `fuel` turns; nothing if it takes more. In its turn
`k` a call copies `pattern k` bytes, as far as this is possible, but at
least one if there is one. -/
def backUpLoop (content : Text) (pattern : ℕ → ℕ) : ℕ → ℕ → Copy → Option Turn
  | 0, _, _ => none
  | fuel + 1, k, c =>
      (c.turn content (min (c.available content) (max 1 (pattern k)))).bind
        (backUpLoop content pattern fuel (k + 1))

/-- `back_up_file`, with what `path.bak` held before. -/
def backUpFile (content old : Text) (pattern : ℕ → ℕ) (fuel : ℕ) : Option Turn :=
  backUpLoop content pattern fuel 0 (Copy.start content old)

/-! ### The loop and the process -/

def Turn.next {ι : Type*} (fs : Files ι) (fd bak : ℕ) : Turn → Files ι × Pc
  | .again c => (fs.setData bak c.bak, .copying fd bak c.offIn c.offOut c.remaining.toNat)
  | .returned data => (fs.setData bak data, .closingBak fd)
  | .failed data => (fs.setData bak data, .cleaning fd [.closeBak] .failure)

theorem toInt_of_lt {n : ℕ} (h : n < 2 ^ 31) : toInt n = n := by
  unfold toInt
  omega

theorem lt_of_toInt_eq {n : ℕ} (h : toInt n = n) : n < 2 ^ 31 := by
  unfold toInt at h
  omega

theorem toInt_le (n : ℕ) : toInt n ≤ n := by
  unfold toInt
  omega

/-- The step of the process is a turn of the loop, for any number of bytes
that an `int` can hold. -/
theorem copyRange_eq_turn {ι : Type*} (fs : Files ι) (fd bak offIn offOut : ℕ)
    {remaining n : ℕ} (hle : n ≤ remaining) (hint : n < 2 ^ 31) :
    copyRange fs fd bak offIn offOut remaining n =
      (Copy.turn (fs.inode fd).data ⟨offIn, offOut, remaining, (fs.inode bak).data⟩ n).next
        fs fd bak := by
  unfold copyRange Copy.turn
  rw [toInt_of_lt hint]
  simp only [Int.toNat_natCast]
  rw [← Int.ofNat_sub hle]
  rw [if_neg (show ¬ (n : ℤ) < 0 by omega)]
  by_cases hrest : 0 < remaining - n
  · rw [if_pos hrest, if_pos (by omega)]
    rfl
  · rw [if_neg hrest, if_neg (by omega)]
    rfl

/-! ### Partial copies -/

section Loop

variable {content : Text} {pattern : ℕ → ℕ} {c : Copy}

/-- The loop has copied a part. It was told of `counted` bytes, not more
than it has copied, and they are less than the file has. -/
def Stuck (content : Text) (c : Copy) : Prop :=
  ∃ copied counted : ℕ, 0 < copied ∧ counted < content.length ∧ c.offIn = copied + counted ∧
    c.remaining = content.length - counted

/-- **A turn after a partial copy** does not get the loop to its end. -/
theorem Stuck.turn (h : Stuck content c) {n : ℕ} (hn : n ≤ c.available content) :
    (∃ bak, c.turn content n = .failed bak) ∨
      ∃ c', c.turn content n = .again c' ∧ Stuck content c' := by
  obtain ⟨copied, counted, hpos, hlt, hoff, hremaining⟩ := h
  unfold Copy.available at hn
  have hle := toInt_le n
  unfold Copy.turn
  by_cases hneg : toInt n < 0
  · exact .inl ⟨_, if_pos hneg⟩
  · obtain ⟨ret, hret⟩ := Int.eq_ofNat_of_zero_le (Int.not_lt.mp hneg)
    -- the bytes between the two offsets are out of reach
    have hrest : counted + ret < content.length := by omega
    refine .inr ⟨⟨c.offIn + n + ret, c.offOut + n + ret, c.remaining - ret,
      writeAt c.bak c.offOut ((content.drop c.offIn).take n)⟩, ?_,
      copied + n, counted + ret, ?_, hrest, ?_, ?_⟩
    · simp only [hret, Int.toNat_natCast]
      rw [if_neg (by omega), if_pos (by omega)]
    · omega
    · dsimp only
      omega
    · dsimp only
      omega

theorem Stuck.not_returned (h : Stuck content c) (fuel k : ℕ) (bak : Text) :
    backUpLoop content pattern fuel k c ≠ some (.returned bak) := by
  induction fuel generalizing k c with
  | zero => exact nofun
  | succ fuel ih =>
      rw [backUpLoop]
      obtain ⟨data, hturn⟩ | ⟨c', hturn, hstuck⟩ := h.turn (Nat.min_le_left _ _)
      · rw [hturn]
        simp [Turn.bind]
      · rw [hturn]
        exact ih hstuck (k + 1)

theorem available_start (content old : Text) :
    (Copy.start content old).available content = content.length := by
  show min (content.length : ℤ).toNat (content.length - 0) = _
  rw [Int.toNat_natCast, Nat.sub_zero, Nat.min_self]

theorem turn_start (content old : Text) (hint : content.length < 2 ^ 31) :
    (Copy.start content old).turn content content.length =
      .returned (content ++ old.drop content.length) := by
  have hbak : writeAt old 0 content = content ++ old.drop content.length :=
    writeAt_overwritten [] content old
  unfold Copy.turn Copy.start
  simp only [List.drop_zero, List.take_length]
  rw [toInt_of_lt hint, if_neg (by omega), if_neg (by omega), hbak]

theorem stuck_start (content old : Text) {n : ℕ} (hle : n ≤ content.length)
    (hpos : 0 < content.length → 0 < n) (hpart : n = content.length → ¬ n < 2 ^ 31) :
    (∃ bak, (Copy.start content old).turn content n = .failed bak) ∨
      ∃ c, (Copy.start content old).turn content n = .again c ∧ Stuck content c := by
  have hint := toInt_le n
  unfold Copy.turn Copy.start
  by_cases hneg : toInt n < 0
  · exact .inl ⟨_, if_pos hneg⟩
  · obtain ⟨ret, hret⟩ := Int.eq_ofNat_of_zero_le (Int.not_lt.mp hneg)
    have hrest : ret < content.length := by
      rcases Nat.lt_or_eq_of_le hle with hlt | heq
      · omega
      · have hne : toInt n ≠ n := fun h => hpart heq (lt_of_toInt_eq h)
        omega
    refine .inr ⟨⟨0 + n + ret, 0 + n + ret, content.length - ret,
      writeAt old 0 ((content.drop 0).take n)⟩, ?_, n, ret, hpos (by omega), hrest, ?_, rfl⟩
    · simp only [hret, Int.toNat_natCast]
      rw [if_neg (by omega), if_pos (by omega)]
    · dsimp only
      omega

/-- The function returns if its first call copies everything, and an `int`
can count that. -/
theorem backUpFile_returned_iff {old bak : Text} :
    (∃ fuel, backUpFile content old pattern fuel = some (.returned bak)) ↔
      content.length ≤ max 1 (pattern 0) ∧ content.length < 2 ^ 31 ∧
        bak = content ++ old.drop content.length := by
  have hloop : ∀ fuel, backUpFile content old pattern (fuel + 1) =
      ((Copy.start content old).turn content (min content.length (max 1 (pattern 0)))).bind
        (backUpLoop content pattern fuel 1) := by
    intro fuel
    rw [← available_start content old]
    rfl
  have hpos : 0 < content.length → 0 < min content.length (max 1 (pattern 0)) := by omega
  constructor
  · rintro ⟨fuel, h⟩
    cases fuel with
    | zero => cases h
    | succ fuel =>
        rw [hloop] at h
        by_cases hall : content.length ≤ max 1 (pattern 0) ∧ content.length < 2 ^ 31
        · rw [Nat.min_eq_left hall.1, turn_start content old hall.2] at h
          refine ⟨hall.1, hall.2, ?_⟩
          injection h with h
          injection h with h
          exact h.symm
        · obtain ⟨data, hturn⟩ | ⟨c, hturn, hstuck⟩ := stuck_start content old
            (Nat.min_le_left _ _) hpos (by omega)
          · rw [hturn] at h
            cases h
          · rw [hturn] at h
            exact absurd h (hstuck.not_returned fuel 1 bak)
  · rintro ⟨hall, hint, rfl⟩
    refine ⟨1, ?_⟩
    rw [hloop, Nat.min_eq_left hall, turn_start content old hint]
    rfl

end Loop

/-- **The backup is exact** if the first call copies all of the file, which
an `int` can count, and no longer `path.bak` was there. Otherwise it is
not: the loop does not return, or `path.bak` is too long. -/
theorem backup_exact_iff (content old : Text) (pattern : ℕ → ℕ) :
    (∃ fuel, backUpFile content old pattern fuel = some (.returned content)) ↔
      content.length ≤ max 1 (pattern 0) ∧ content.length < 2 ^ 31 ∧
        old.length ≤ content.length := by
  rw [backUpFile_returned_iff, List.self_eq_append_right, List.drop_eq_nil_iff]

theorem backup_twoLines :
    ∃ fuel, backUpFile twoLines [] (fun _ => 100) fuel = some (.returned twoLines) :=
  (backup_exact_iff twoLines [] fun _ => 100).mpr (by decide)

/-- Eight bytes, of which the first call copies six. The next one finds the
offset behind the end of the file, and so does every call after it. -/
theorem backup_pieces_not_returned :
    ¬ ∃ fuel bak, backUpFile twoLines [] (fun _ => 6) fuel = some (.returned bak) := by
  rintro ⟨fuel, bak, h⟩
  have hall := (backUpFile_returned_iff.mp ⟨fuel, h⟩).1
  exact absurd hall (by decide)

end LinuxMiniProjects.SafeConfig
