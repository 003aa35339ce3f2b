import LinuxMiniProjects.SafeConfig.Buffer
import LinuxMiniProjects.SignalDaemon.Reload

/-!
The two readers of a configuration file.

The daemon has a copy of `read_param_config` of `safe-config-tool`. The
loop is the same, so both find the same parameters with the same values.
But where the tool prints the value, the daemon copies it with `strncpy`
into a buffer of its caller, and `strncpy` stores no zero behind a string
that fills the buffer. The value of a parameter has to be shorter than
the buffer; otherwise the caller goes on reading behind it.
-/

namespace LinuxMiniProjects.SignalDaemon

open SafeConfig CString

/-- `read_param_config` of the daemon on a file. `out` is the memory from
`out_value` on; the result is what is returned, and the memory after the
call. -/
def readParamConfig (param content out : Text) (maxLen : ℕ) : Option (ℤ × Text) :=
  if content = [] then some (-1, out)
  else
    let t := content.take (bufferSize - 1)
    (readLoop param (t.length + 1) (strtokR nl (bufferOf t) 0)).map fun found =>
      found.elim (0, out) fun r => (1, strncpy out (strAt r.1 r.2) maxLen)

/-- There is a string at the start of the memory, with its zero among the
first `maxLen` bytes. -/
def HoldsString (out : Text) (maxLen : ℕ) (str : Text) : Prop :=
  str.length < maxLen ∧ 0 ∉ str ∧ str ++ [0] <+: out

/-- The readers agree on a parameter. The daemon finds it if the tool prints
it, and what it leaves for its caller is a string: the printed value, or
the beginning of it. -/
def Agree (param content out : Text) (maxLen : ℕ) : Prop :=
  ∃ printed ret out', SafeConfig.readParamConfig param content = some printed ∧
    readParamConfig param content out maxLen = some (ret, out') ∧ (ret = 1 ↔ printed.isSome) ∧
    ∀ value ∈ printed, ∃ str, HoldsString out' maxLen str ∧
      (str = value ∨ str = value.take (maxLen - 1))

section Readers

variable {param content out : Text} {maxLen : ℕ}

theorem valueOf_visible_nil (param : Text) : valueOf param (visible []) = none := rfl

theorem printed_eq (param content : Text) :
    SafeConfig.readParamConfig param content = some (valueOf param (visible content)) := by
  unfold SafeConfig.readParamConfig
  split
  next h =>
    subst h
    rfl
  next => exact readParam_eq param _

theorem readParamConfig_eq (param content out : Text) (maxLen : ℕ) :
    ∃ ret, readParamConfig param content out maxLen = some (ret,
        (valueOf param (visible content)).elim out fun value => strncpy out value maxLen) ∧
      (ret = 1 ↔ (valueOf param (visible content)).isSome) := by
  unfold readParamConfig
  split
  next h =>
    subst h
    exact ⟨-1, rfl, by rw [valueOf_visible_nil]; decide⟩
  next =>
    have hfound := readParam_eq param (content.take (bufferSize - 1))
    unfold readParam at hfound
    obtain ⟨found, hloop, hvalue⟩ := Option.map_eq_some_iff.mp hfound
    rw [valueOf, visible, ← hvalue]
    dsimp only
    rw [hloop]
    cases found with
    | none => exact ⟨0, rfl, by decide⟩
    | some r => exact ⟨1, rfl, by simp⟩

theorem Agree.length_lt (h : Agree param content out maxLen) {value : Text}
    (hvalue : valueOf param (visible content) = some value) : value.length < maxLen := by
  obtain ⟨printed, ret, out', hprinted, hread, -, hholds⟩ := h
  obtain ⟨ret', hread', -⟩ := readParamConfig_eq param content out maxLen
  rw [printed_eq, Option.some.injEq] at hprinted
  rw [hread', Option.some.injEq, Prod.mk.injEq] at hread
  obtain ⟨-, rfl⟩ := hread
  obtain ⟨str, ⟨hlen, -, hstr⟩, -⟩ := hholds value (hprinted ▸ hvalue)
  rw [hvalue, Option.elim_some] at hstr
  refine Nat.lt_of_not_le fun hle => ?_
  exact strncpy_unterminated out hle (zero_notMem_of_valueOf hvalue) hlen hstr

theorem agree_of_length_lt
    (h : ∀ value ∈ valueOf param (visible content), value.length < maxLen) :
    Agree param content out maxLen := by
  obtain ⟨ret, hread, hret⟩ := readParamConfig_eq param content out maxLen
  refine ⟨_, ret, _, printed_eq param content, hread, hret,
    fun value hvalue => ⟨value, ?_, .inl rfl⟩⟩
  rw [Option.mem_def.mp hvalue]
  exact ⟨h value hvalue, zero_notMem_of_valueOf hvalue, strncpy_terminated out (h value hvalue)⟩

end Readers

/-- **The readers agree** on a parameter exactly if its value, if there is
one, is shorter than the buffer. Then `get_file_config` sets its
parameters as from the value that the tool prints. -/
theorem readers_agree_iff (content : Text) :
    (∀ param out maxLen, Agree param content out maxLen ↔
      ∀ value ∈ valueOf param (visible content), value.length < maxLen) ∧
    ∀ (c : Config) (p : Param) (val stack : Text), val.length = valSize →
      (∀ value ∈ valueOf p.key (visible content), value.length < valSize) →
      ∃ printed ret out, SafeConfig.readParamConfig p.key content = some printed ∧
        readParamConfig p.key content (val ++ stack) valSize = some (ret, out) ∧
        (if ret = 1 then c.set p out else c) = printed.elim c (c.set p) := by
  constructor
  · intro param out maxLen
    exact ⟨fun h value hvalue => h.length_lt hvalue, agree_of_length_lt⟩
  · intro c p val stack hval hshort
    obtain ⟨ret, hread, hret⟩ := readParamConfig_eq p.key content (val ++ stack) valSize
    refine ⟨_, ret, _, printed_eq p.key content, hread, ?_⟩
    cases hvalue : valueOf p.key (visible content) with
    | none =>
        rw [if_neg (by simp [hret, hvalue])]
        rfl
    | some value =>
        have hout : strncpy (val ++ stack) value valSize = outValue value stack := by
          rw [strncpy, outValue, List.drop_left' hval]
        rw [if_pos (hret.mpr (by rw [hvalue]; rfl)), Option.elim_some, Option.elim_some, hout,
          Config.set_outValue hvalue (.inr (hshort value hvalue))]

theorem readers_agree_delay :
    let content := Bytes.ofString "delay=500\n"
    Agree (Bytes.ofString "delay") content (List.replicate 64 255) 64 := by
  intro content
  refine ((readers_agree_iff content).1 _ _ _).mpr ?_
  decide +kernel

/-- A value of 64 bytes, so that there is no place for the zero. -/
theorem not_agree_delay :
    let content := Bytes.ofString "delay=" ++ List.replicate 64 49
    readParamConfig (Bytes.ofString "delay") content (List.replicate 70 50) 64 =
        some (1, List.replicate 64 49 ++ List.replicate 6 50) ∧
      ¬ Agree (Bytes.ofString "delay") content (List.replicate 70 50) 64 := by
  intro content
  refine ⟨by decide +kernel, fun h => ?_⟩
  have hvalue : valueOf (Bytes.ofString "delay") (visible content) =
      some (List.replicate 64 49) := by decide +kernel
  exact absurd (h.length_lt hvalue) (by simp)

end LinuxMiniProjects.SignalDaemon
