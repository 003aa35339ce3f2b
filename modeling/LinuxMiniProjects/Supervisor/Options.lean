import Mathlib.Data.List.Perm.Basic
import LinuxMiniProjects.Lib.Bytes

/-!
The command line of `process-supervisor` (`supervisor.c`).

The options come first, in any order, and the first word that is not one
of them is the command. The words behind it belong to the command, also if
they look like options. The number of restarts is an `int`, so what
`strtol` returns for it is cut to 32 bits; the time limit is a `long`.
-/

namespace LinuxMiniProjects.Supervisor

open Bytes (strtol)

abbrev Word := List UInt8

def timeoutWord : Word := Bytes.ofString "--timeout"
def restartWord : Word := Bytes.ofString "--restart"
def killGroupWord : Word := Bytes.ofString "-g"
def captureOutWord : Word := Bytes.ofString "-c"

structure Options where
  timeVal : ℤ
  restartVal : ℤ
  cmdIdx : ℤ
  killGroup : Bool
  captureOut : Bool
  deriving DecidableEq, Repr

def Options.init : Options := ⟨0, 0, -1, false, false⟩

def toInt (n : ℤ) : ℤ := (n + 2 ^ 31) % 2 ^ 32 - 2 ^ 31

/-- The loop from `argv[i]` on. Every turn takes at least one word, so `fuel`
does not run out before the words do if it is their number. -/
def optionLoop (argv : List Word) : ℕ → ℕ → Options → Options
  | 0, _, o => o
  | fuel + 1, i, o =>
      if i < argv.length then
        let word := argv.getD i []
        let next := argv.getD (i + 1) []
        if word = restartWord ∧ i + 1 < argv.length then
          optionLoop argv fuel (i + 2) { o with restartVal := toInt (strtol next) }
        else if word = timeoutWord ∧ i + 1 < argv.length then
          optionLoop argv fuel (i + 2) { o with timeVal := strtol next }
        else if word = killGroupWord then
          optionLoop argv fuel (i + 1) { o with killGroup := true }
        else if word = captureOutWord then
          optionLoop argv fuel (i + 1) { o with captureOut := true }
        else { o with cmdIdx := i }
      else o

/-- The options of a command line. The loop begins behind the name of the
program and a word that is not looked at. -/
def parseOptions (argv : List Word) : Options := optionLoop argv argv.length 2 .init

/-! ### Groups of words -/

inductive Group
  | restart (n : Word)
  | timeout (n : Word)
  | killGroup
  | captureOut
  deriving DecidableEq, Repr

inductive Kind
  | restart
  | timeout
  | killGroup
  | captureOut
  deriving DecidableEq, Repr

namespace Group

def kind : Group → Kind
  | restart _ => .restart
  | timeout _ => .timeout
  | killGroup => .killGroup
  | captureOut => .captureOut

def words : Group → List Word
  | restart n => [restartWord, n]
  | timeout n => [timeoutWord, n]
  | killGroup => [killGroupWord]
  | captureOut => [captureOutWord]

def apply (o : Options) : Group → Options
  | restart n => { o with restartVal := toInt (strtol n) }
  | timeout n => { o with timeVal := strtol n }
  | killGroup => { o with killGroup := true }
  | captureOut => { o with captureOut := true }

def restart? : Group → Option Word
  | restart n => some n
  | _ => none

def timeout? : Group → Option Word
  | timeout n => some n
  | _ => none

end Group

def IsCommand (word : Word) : Prop :=
  word ≠ restartWord ∧ word ≠ timeoutWord ∧ word ≠ killGroupWord ∧ word ≠ captureOutWord

instance (word : Word) : Decidable (IsCommand word) := inferInstanceAs (Decidable (_ ∧ _))

def commandLine (name verb : Word) (gs : List Group) (cmd : Word) (args : List Word) :
    List Word :=
  name :: verb :: (gs.flatMap Group.words ++ cmd :: args)

section Loop

variable (fuel : ℕ) (o : Options) (before : List Word)

theorem optionLoop_group (g : Group) {after : List Word} (hafter : after ≠ []) :
    optionLoop (before ++ (g.words ++ after)) (fuel + 1) before.length o =
      optionLoop (before ++ (g.words ++ after)) fuel (before ++ g.words).length (g.apply o) := by
  have hpos : 0 < after.length := List.length_pos_of_ne_nil hafter
  -- no option is another one
  have htimeout : timeoutWord ≠ restartWord := by decide
  have hkill : killGroupWord ≠ restartWord ∧ killGroupWord ≠ timeoutWord := by decide
  have hcapture : captureOutWord ≠ restartWord ∧ captureOutWord ≠ timeoutWord ∧
      captureOutWord ≠ killGroupWord := by decide
  cases g with
  | restart n => simp [optionLoop, Group.words, Group.apply]
  | timeout n => simp [optionLoop, Group.words, Group.apply, htimeout]
  | killGroup => simp [optionLoop, Group.words, Group.apply, hkill]
  | captureOut => simp [optionLoop, Group.words, Group.apply, hcapture]

theorem optionLoop_groups (gs : List Group) {after : List Word} (hafter : after ≠ []) :
    optionLoop (before ++ (gs.flatMap Group.words ++ after)) (gs.length + fuel)
        before.length o =
      optionLoop (before ++ (gs.flatMap Group.words ++ after)) fuel
        (before ++ gs.flatMap Group.words).length (gs.foldl Group.apply o) := by
  induction gs generalizing before o with
  | nil => simp
  | cons g gs ih =>
      have hrest : gs.flatMap Group.words ++ after ≠ [] := by simp [hafter]
      have hih := ih (g.apply o) (before ++ g.words)
      rw [List.flatMap_cons, List.append_assoc, List.length_cons, Nat.add_right_comm,
        optionLoop_group _ _ before g hrest]
      simpa only [List.append_assoc, List.foldl_cons] using hih

theorem optionLoop_command {cmd : Word} (h : IsCommand cmd) (args : List Word) :
    optionLoop (before ++ cmd :: args) (fuel + 1) before.length o =
      { o with cmdIdx := before.length } := by
  obtain ⟨h₁, h₂, h₃, h₄⟩ := h
  simp [optionLoop, h₁, h₂, h₃, h₄]

end Loop

theorem Group.length_words_pos (g : Group) : 0 < g.words.length := by
  cases g <;> exact Nat.succ_pos _

theorem length_le_length_flatMap_words (gs : List Group) :
    gs.length ≤ (gs.flatMap Group.words).length := by
  induction gs with
  | nil => exact Nat.le_refl _
  | cons g gs ih =>
      have hpos := g.length_words_pos
      rw [List.flatMap_cons, List.length_append, List.length_cons]
      omega

/-- The options of a command line are set in their order, and the command is
the first word behind them. -/
theorem parseOptions_commandLine (name verb : Word) (gs : List Group) {cmd : Word}
    (h : IsCommand cmd) (args : List Word) :
    parseOptions (commandLine name verb gs cmd args) =
      { gs.foldl Group.apply .init with cmdIdx := 2 + (gs.flatMap Group.words).length } := by
  have hlen := length_le_length_flatMap_words gs
  obtain ⟨fuel, hfuel⟩ : ∃ fuel, (commandLine name verb gs cmd args).length =
      gs.length + (fuel + 1) := by
    refine ⟨(commandLine name verb gs cmd args).length - gs.length - 1, ?_⟩
    simp only [commandLine, List.length_cons, List.length_append]
    omega
  have hgroups := optionLoop_groups (fuel + 1) .init [name, verb] gs (List.cons_ne_nil cmd args)
  have hcommand := optionLoop_command fuel (gs.foldl Group.apply .init)
    ([name, verb] ++ gs.flatMap Group.words) h args
  rw [List.append_assoc] at hcommand
  have hplace : (([name, verb] ++ gs.flatMap Group.words).length : ℤ) =
      2 + (gs.flatMap Group.words).length := by
    rw [List.length_append]
    rfl
  rw [parseOptions, hfuel, ← hplace, ← hcommand]
  exact hgroups

/-! ### What the options set -/

section Values

variable (gs : List Group) (o : Options)

theorem foldl_last {value : Options → ℤ} {word? : Group → Option Word} {number : Word → ℤ}
    (h : ∀ o g, value (Group.apply o g) = ((word? g).map number).getD (value o)) :
    value (gs.foldl Group.apply o) =
      ((gs.filterMap word?).getLast?.map number).getD (value o) := by
  induction gs using List.reverseRecOn with
  | nil => rfl
  | append_singleton gs g ih =>
      rw [List.foldl_concat, h, ih, List.filterMap_append]
      cases hword : word? g with
      | none => simp [hword]
      | some n => simp [hword]

theorem restartVal_foldl : (gs.foldl Group.apply o).restartVal =
    ((gs.filterMap Group.restart?).getLast?.map fun n => toInt (strtol n)).getD o.restartVal :=
  foldl_last gs o fun _ g => by cases g <;> rfl

theorem timeVal_foldl : (gs.foldl Group.apply o).timeVal =
    ((gs.filterMap Group.timeout?).getLast?.map strtol).getD o.timeVal :=
  foldl_last gs o fun _ g => by cases g <;> rfl

theorem foldl_flag {flag : Options → Bool} {g : Group}
    (h : ∀ o g', flag (Group.apply o g') = (decide (g = g') || flag o)) :
    flag (gs.foldl Group.apply o) = (decide (g ∈ gs) || flag o) := by
  induction gs generalizing o with
  | nil => rfl
  | cons g' gs ih =>
      rw [List.foldl_cons, ih, h, ← Bool.or_assoc, Bool.or_comm (decide (g ∈ gs)),
        ← Bool.decide_or, decide_eq_decide.mpr List.mem_cons.symm]

theorem killGroup_foldl :
    (gs.foldl Group.apply o).killGroup = (decide (.killGroup ∈ gs) || o.killGroup) :=
  foldl_flag gs o fun _ g => by cases g <;> rfl

theorem captureOut_foldl :
    (gs.foldl Group.apply o).captureOut = (decide (.captureOut ∈ gs) || o.captureOut) :=
  foldl_flag gs o fun _ g => by cases g <;> rfl

theorem Group.apply_comm {g g' : Group} (h : g.kind ≠ g'.kind) :
    Group.apply (Group.apply o g) g' = Group.apply (Group.apply o g') g := by
  cases g <;> cases g' <;> first | rfl | exact absurd rfl h

variable {gs}

theorem foldl_apply_of_perm {gs' : List Group} (hperm : gs'.Perm gs)
    (hkinds : (gs.map Group.kind).Nodup) :
    gs'.foldl Group.apply o = gs.foldl Group.apply o := by
  refine hperm.foldl_eq' (fun g hg g' hg' o => ?_) o
  by_cases hkind : g.kind = g'.kind
  · rw [List.inj_on_of_nodup_map hkinds (hperm.subset hg) (hperm.subset hg') hkind]
  · exact Group.apply_comm o hkind

end Values

/-- **The command line.** For any options in any order, any command that is
not the name of an option, and any arguments, the loop finds the command
with its arguments behind it. The last `--restart` and the last
`--timeout` count, the first as an `int`, and they are zero if not given;
the flags say which options are there. The order does not matter if no
option is given twice. -/
theorem parseOptions_spec (name verb : Word) (gs : List Group) {cmd : Word}
    (h : IsCommand cmd) (args : List Word) :
    let argv := commandLine name verb gs cmd args
    let o := parseOptions argv
    o.cmdIdx = 2 + (gs.flatMap Group.words).length ∧
      argv.drop o.cmdIdx.toNat = cmd :: args ∧
      o.restartVal =
        ((gs.filterMap Group.restart?).getLast?.map fun n => toInt (strtol n)).getD 0 ∧
      o.timeVal = ((gs.filterMap Group.timeout?).getLast?.map strtol).getD 0 ∧
      o.killGroup = decide (.killGroup ∈ gs) ∧ o.captureOut = decide (.captureOut ∈ gs) ∧
      ∀ gs' : List Group, gs'.Perm gs → (gs.map Group.kind).Nodup →
        parseOptions (commandLine name verb gs' cmd args) = o := by
  intro argv o
  have ho : o = { gs.foldl Group.apply .init with
      cmdIdx := 2 + (gs.flatMap Group.words).length } :=
    parseOptions_commandLine name verb gs h args
  have hidx : o.cmdIdx = 2 + (gs.flatMap Group.words).length := by rw [ho]
  refine ⟨hidx, ?_, ?_, ?_, ?_, ?_, fun gs' hperm hkinds => ?_⟩
  · have hplace : o.cmdIdx.toNat = ([name, verb] ++ gs.flatMap Group.words).length := by
      rw [hidx, List.length_append]
      simp only [List.length_cons, List.length_nil]
      omega
    rw [hplace]
    show (([name, verb] ++ (gs.flatMap Group.words ++ cmd :: args)).drop _) = _
    rw [← List.append_assoc, List.drop_left]
  · rw [ho]
    exact restartVal_foldl gs .init
  · rw [ho]
    exact timeVal_foldl gs .init
  · rw [ho]
    exact (killGroup_foldl gs .init).trans (Bool.or_false _)
  · rw [ho]
    exact (captureOut_foldl gs .init).trans (Bool.or_false _)
  · rw [ho, parseOptions_commandLine name verb gs' h args, foldl_apply_of_perm .init hperm hkinds,
      (hperm.flatMap_right Group.words).length_eq]

/-- `--timeout 3 --restart 5 -c --restart -g ls -g`. The second `--restart`
takes the word `-g` for its number, and the last `-g` belongs to `ls`. -/
theorem parseOptions_lookalikes :
    let gs : List Group := [.timeout [51], .restart [53], .captureOut, .restart killGroupWord]
    let cmd := Bytes.ofString "ls"
    IsCommand cmd ∧
      (let o := parseOptions (commandLine [] [] gs cmd [killGroupWord])
      o.cmdIdx = 9 ∧ o.restartVal = 0 ∧ o.timeVal = 3 ∧ o.killGroup = false ∧
        o.captureOut = true) := by
  intro gs cmd
  have hcmd : IsCommand cmd := by decide +kernel
  obtain ⟨hidx, -, hrestart, htime, hkill, hcapture, -⟩ :=
    parseOptions_spec [] [] gs hcmd [killGroupWord]
  refine ⟨hcmd, hidx, ?_, ?_, hkill, hcapture⟩
  · rw [hrestart]
    decide +kernel
  · rw [htime]
    decide +kernel

/-- With `--restart 4294967296` the worker is not restarted: `strtol` returns
the number, and nothing is left of it in an `int`. -/
theorem restartVal_truncated :
    let n := Bytes.ofString "4294967296"
    strtol n = 4294967296 ∧
      (parseOptions (commandLine [] [] [.restart n] (Bytes.ofString "ls") [])).restartVal = 0 := by
  decide +kernel

end LinuxMiniProjects.Supervisor
