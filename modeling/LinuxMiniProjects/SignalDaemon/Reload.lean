import LinuxMiniProjects.Lib.Bytes
import LinuxMiniProjects.SafeConfig.Text

/-!
Reloading the configuration of the daemon.

`get_file_config` sets the three parameters to their defaults and then
looks each of them up in the file, with a call of `read_param_config` of
its own: the file is opened, locked and read three times. What is read is
at most 255 bytes, and the text ends at the first zero among them. The
lines are those of `safe-config-tool`, and the first assignment to a
parameter counts.

The file is replaced by others in one piece, so that what was opened does
not change. A reload goes one system call at a time; what a call returns
is in the label of the step.
-/

namespace LinuxMiniProjects.SignalDaemon

open SafeConfig Bytes

/-! ### Parameters -/

/-- `struct config`; `logLevel` without what lies behind its zero. -/
structure Config where
  sampleRate : ℤ
  wokerDelay : ℤ
  logLevel : Text
deriving DecidableEq, Repr

def Config.default : Config where
  sampleRate := 1000
  wokerDelay := 500
  logLevel := Bytes.ofString "INFO"

inductive Param
  | sampleRate
  | workerDelay
  | logLevel
deriving DecidableEq, Repr

def Param.key : Param → Text
  | sampleRate => Bytes.ofString "sample_rate"
  | workerDelay => Bytes.ofString "delay"
  | logLevel => Bytes.ofString "log_level"

/-! ### Looking up a parameter -/

def valSize : ℕ := 64

def logLevelSize : ℕ := 31

/-- What `read_param_config` sees of the file. -/
def visible (t : Text) : Text := cString (t.take (bufferSize - 1))

/-- The value in the first assignment to a parameter. -/
def valueOf (param t : Text) : Option Text :=
  ((assignments t).find? fun a => a.1 = param).map Prod.snd

def outValue (value stack : Text) : Text :=
  value.take valSize ++ List.replicate (valSize - value.length) 0 ++ stack

def Config.set (c : Config) (p : Param) (val : Text) : Config :=
  match p with
  | .sampleRate => { c with sampleRate := atoi val }
  | .workerDelay => { c with wokerDelay := atoi val }
  | .logLevel => { c with logLevel := cString (val.take logLevelSize) }

/-- The end of `read_param_config`, when the text has been read, and what
`get_file_config` does with the result. An empty file counts as an
error. -/
def Config.readParam (c : Config) (p : Param) (t stack : Text) : Config :=
  if t = [] then c
  else
    match valueOf p.key (visible t) with
    | some value => c.set p (outValue value stack)
    | none => c

/-! ### One system call at a time -/

inductive Stage
  | opening
  | locking (text : Text)
  | reading (text : Text)
deriving DecidableEq, Repr

/-- Where `get_file_config` is: the parameters that are still to be looked
up, the first of them now. `version` is the text that was opened first, a
history that no step reads. -/
structure Reload where
  todo : List Param
  stage : Stage
  version : Option Text
deriving DecidableEq, Repr

def Reload.start : Reload where
  todo := [.sampleRate, .workerDelay, .logLevel]
  stage := .opening
  version := none

inductive ReloadLabel
  | openFile (ok : Bool)
  | flock (ok : Bool)
  | read (ok : Bool) (stack : Text)
deriving DecidableEq, Repr

def Reload.next (r : Reload) : Reload := { r with todo := r.todo.tail, stage := .opening }

def Reload.opened (r : Reload) (t : Text) : Reload :=
  { r with stage := .locking t, version := r.version.or (some t) }

def reloadStep (file : Option Text) (c : Config) (r : Reload) (l : ReloadLabel) :
    Option (Config × Reload) :=
  match r.todo, r.stage, l with
  | _ :: _, .opening, .openFile true => file.map fun t => (c, r.opened t)
  | _ :: _, .opening, .openFile false => some (c, r.next)
  | _ :: _, .locking t, .flock true => some (c, { r with stage := .reading t })
  | _ :: _, .locking _, .flock false => some (c, r.next)
  | p :: _, .reading t, .read true stack => some (c.readParam p t stack, r.next)
  | _ :: _, .reading _, .read false _ => some (c, r.next)
  | _, _, _ => none

inductive ReloadStep (file : Option Text) (c : Config) (r : Reload) :
    ReloadLabel → Config × Reload → Prop
  | openFile {p rest t} (todo : r.todo = p :: rest) (stage : r.stage = .opening)
      (file_eq : file = some t) : ReloadStep file c r (.openFile true) (c, r.opened t)
  | openFailed {p rest} (todo : r.todo = p :: rest) (stage : r.stage = .opening) :
      ReloadStep file c r (.openFile false) (c, r.next)
  | flock {p rest t} (todo : r.todo = p :: rest) (stage : r.stage = .locking t) :
      ReloadStep file c r (.flock true) (c, { r with stage := .reading t })
  | flockFailed {p rest t} (todo : r.todo = p :: rest) (stage : r.stage = .locking t) :
      ReloadStep file c r (.flock false) (c, r.next)
  | read {p rest t stack} (todo : r.todo = p :: rest) (stage : r.stage = .reading t) :
      ReloadStep file c r (.read true stack) (c.readParam p t stack, r.next)
  | readFailed {p rest t stack} (todo : r.todo = p :: rest) (stage : r.stage = .reading t) :
      ReloadStep file c r (.read false stack) (c, r.next)

theorem reloadStep_inv {file : Option Text} {c : Config} {r : Reload} {l : ReloadLabel}
    {res : Config × Reload} (h : reloadStep file c r l = some res) : ReloadStep file c r l res := by
  unfold reloadStep at h
  split at h
  next todo stage =>
    obtain ⟨t, hfile, rfl⟩ := Option.map_eq_some_iff.mp h
    exact .openFile todo stage hfile
  next todo stage => exact Option.some.inj h ▸ .openFailed todo stage
  next todo stage => exact Option.some.inj h ▸ .flock todo stage
  next todo stage => exact Option.some.inj h ▸ .flockFailed todo stage
  next todo stage => exact Option.some.inj h ▸ .read todo stage
  next todo stage => exact Option.some.inj h ▸ .readFailed todo stage
  next => cases h

theorem ReloadStep.version_eq {file : Option Text} {c : Config} {r : Reload} {l : ReloadLabel}
    {res : Config × Reload} (h : ReloadStep file c r l res) :
    res.2.version = r.version ∨ ∃ t, file = some t ∧ res.2.version = some t := by
  cases h with
  | @openFile p rest t todo stage file_eq =>
      cases hversion : r.version with
      | none => exact .inr ⟨t, file_eq, by simp [Reload.opened, hversion]⟩
      | some t' => exact .inl (by simp [Reload.opened, hversion])
  | _ => exact .inl rfl

/-! ### The configuration of a text -/

def configOf (t : Text) : Config where
  sampleRate := ((valueOf Param.sampleRate.key t).map atoi).getD Config.default.sampleRate
  wokerDelay := ((valueOf Param.workerDelay.key t).map atoi).getD Config.default.wokerDelay
  logLevel :=
    ((valueOf Param.logLevel.key t).map (List.take logLevelSize)).getD Config.default.logLevel

def Short (t : Text) : Prop :=
  ∀ v ∈ (valueOf Param.sampleRate.key t).toList ++ (valueOf Param.workerDelay.key t).toList,
    v.length < valSize

instance (t : Text) : Decidable (Short t) := inferInstanceAs (Decidable (∀ _ ∈ _, _))

/-- A text that is read as a whole: it fits the buffer of
`read_param_config`, there is no zero in it, and its numbers fit `val`. -/
structure Plain (t : Text) : Prop where
  fits : t.length < bufferSize
  ended : (0 : UInt8) ∉ t
  short : Short t

instance (t : Text) : Decidable (Plain t) :=
  decidable_of_iff (t.length < bufferSize ∧ (0 : UInt8) ∉ t ∧ Short t)
    ⟨fun h => ⟨h.1, h.2.1, h.2.2⟩, fun h => ⟨h.fits, h.ended, h.short⟩⟩

theorem Plain.visible_eq {t : Text} (h : Plain t) : visible t = t := by
  unfold visible
  rw [List.take_of_length_le (Nat.le_sub_one_of_lt h.fits), cString_of_notMem h.ended]

theorem mem_of_assignment {token : Text} {a : Text × Text} (h : assignment token = some a)
    {c : UInt8} (hc : c ∈ a.2) : c ∈ token := by
  have hstrip : ∀ {c}, c ∈ stripCr token → c ∈ token := by
    intro c hc
    unfold stripCr at hc
    split at hc
    · exact List.mem_of_mem_dropLast hc
    · exact hc
  unfold assignment at h
  dsimp only at h
  split at h
  · cases h
  · split at h
    · obtain rfl := Option.some.inj h
      exact hstrip ((List.dropWhile_sublist _).mem (List.mem_of_mem_tail hc))
    · cases h

theorem zero_notMem_of_valueOf {param t v : Text} (h : valueOf param (visible t) = some v) :
    (0 : UInt8) ∉ v := by
  intro hzero
  obtain ⟨a, ha, rfl⟩ := Option.map_eq_some_iff.mp h
  obtain ⟨token, htoken, hassign⟩ := List.mem_filterMap.mp (List.mem_of_find?_eq_some ha)
  have hmem : (0 : UInt8) ∈ visible t :=
    Tokens.mem_of_mem_tokens htoken (mem_of_assignment hassign hzero)
  exact zero_notMem_cString _ hmem

theorem cString_outValue {v : Text} (hzero : (0 : UInt8) ∉ v) (hshort : v.length < valSize)
    (stack : Text) : cString (outValue v stack) = v := by
  obtain ⟨k, hk⟩ := Nat.exists_eq_succ_of_ne_zero (Nat.sub_pos_of_lt hshort).ne'
  unfold outValue
  rw [hk, List.take_of_length_le hshort.le, List.replicate_succ, List.append_assoc,
    List.cons_append, cString_append hzero]
  simp [cString]

/-- The first 31 bytes of `val` are those of the value in any case. -/
theorem cString_take_outValue {v : Text} (hzero : (0 : UInt8) ∉ v) (stack : Text) :
    cString ((outValue v stack).take logLevelSize) = v.take logLevelSize := by
  rw [cString_take]
  by_cases hshort : v.length < valSize
  · rw [cString_outValue hzero hshort]
  · -- there is no zero behind the value, but the first bytes are not affected
    have hlen : valSize ≤ v.length := Nat.le_of_not_lt hshort
    have hzero' : (0 : UInt8) ∉ v.take valSize := fun h => hzero (List.mem_of_mem_take h)
    have hle : logLevelSize ≤ (v.take valSize).length := by
      rw [List.length_take_of_le hlen]
      decide
    unfold outValue
    rw [Nat.sub_eq_zero_of_le hlen, List.replicate_zero, List.append_nil, cString_append hzero',
      List.take_append_of_le_length hle, List.take_take]
    rfl

theorem atoi_outValue {v : Text} (hzero : (0 : UInt8) ∉ v) (hshort : v.length < valSize)
    (stack : Text) : atoi (outValue v stack) = atoi v := by
  unfold atoi
  rw [cString_outValue hzero hshort, cString_of_notMem hzero]

/-- A parameter is set from `val` as from the value itself; a number has to
fit for that. -/
theorem Config.set_outValue {p : Param} {t v : Text} (h : valueOf p.key (visible t) = some v)
    (hshort : p = .logLevel ∨ v.length < valSize) (c : Config) (stack : Text) :
    c.set p (outValue v stack) = c.set p v := by
  have hzero := zero_notMem_of_valueOf h
  cases p with
  | sampleRate | workerDelay =>
      simp only [Config.set, atoi_outValue hzero (hshort.resolve_left Param.noConfusion)]
  | logLevel =>
      have htake : (0 : UInt8) ∉ v.take logLevelSize :=
        fun h => hzero (List.mem_of_mem_take h)
      simp only [Config.set, cString_take_outValue hzero, cString_of_notMem htake]

def Config.load (t : Text) (c : Config) (p : Param) : Config :=
  match valueOf p.key t with
  | some v => c.set p v
  | none => c

theorem Config.readParam_eq_load {t : Text} (h : Plain t) (c : Config) (p : Param)
    (stack : Text) : c.readParam p t stack = Config.load t c p := by
  unfold Config.readParam Config.load
  split
  next hempty =>
    have hnone : valueOf p.key t = none := by subst hempty; cases p <;> rfl
    rw [hnone]
  next =>
    rw [h.visible_eq]
    cases hv : valueOf p.key t with
    | none => rfl
    | some v =>
        refine Config.set_outValue (h.visible_eq.symm ▸ hv) ?_ c stack
        cases p with
        | sampleRate | workerDelay => exact .inr (h.short v (by simp [hv]))
        | logLevel => exact .inl rfl

theorem foldl_load_eq_configOf {t : Text} (h : Plain t) :
    Reload.start.todo.foldl (Config.load t) .default = configOf t := by
  have hlevel : ∀ v, valueOf Param.logLevel.key t = some v →
      cString (v.take logLevelSize) = v.take logLevelSize := fun v hv =>
    cString_of_notMem fun hzero =>
      zero_notMem_of_valueOf (h.visible_eq.symm ▸ hv) (List.mem_of_mem_take hzero)
  simp only [Reload.start, List.foldl_cons, List.foldl_nil, Config.load, configOf]
  cases hrate : valueOf Param.sampleRate.key t <;>
    cases hdelay : valueOf Param.workerDelay.key t <;>
    cases hlog : valueOf Param.logLevel.key t <;> simp_all [Config.set]

/-! ### A reload that meets one version -/

/-- **The condition** on the steps of a reload. No call fails, the file is
still the one that was opened first, and it is read as a whole. -/
def Reload.Steady (file : Option Text) (r : Reload) : ReloadLabel → Prop
  | .openFile ok =>
      ok = true ∧ (r.version = none ∨ r.version = file) ∧ Plain (file.getD [])
  | .flock ok => ok = true
  | .read ok _ => ok = true

instance (file : Option Text) (r : Reload) : (l : ReloadLabel) → Decidable (r.Steady file l)
  | .openFile _ => inferInstanceAs (Decidable (_ ∧ _ ∧ _))
  | .flock _ | .read _ _ => inferInstanceAs (Decidable (_ = _))

def Stage.Reads (t : Text) : Stage → Prop
  | opening => True
  | locking t' | reading t' => t' = t

/-- A reload has opened nothing yet, or it will end with the configuration
of the version that it opened first. -/
def Reload.Consistent (c : Config) (r : Reload) : Prop :=
  match r.version with
  | none => r = .start ∧ c = .default
  | some t =>
      r.stage.Reads t ∧ Plain t ∧ r.todo.foldl (Config.load t) c = configOf t

theorem Reload.Consistent.step {file : Option Text} {c c' : Config} {r r' : Reload}
    {l : ReloadLabel} (h : r.Consistent c) (hok : r.Steady file l)
    (hs : ReloadStep file c r l (c', r')) : r'.Consistent c' := by
  cases hs with
  | @openFile p rest t todo stage file_eq =>
      obtain ⟨-, hversion, hplain⟩ := hok
      rw [file_eq] at hversion hplain
      unfold Reload.Consistent at h
      split at h
      next hnone =>
        obtain ⟨rfl, rfl⟩ := h
        exact ⟨rfl, hplain, foldl_load_eq_configOf hplain⟩
      next t' hsome =>
        -- the version is the one that was opened first
        obtain rfl : t' = t := by simpa [hsome] using hversion
        have hopened : (r.opened t').version = some t' := by simp [Reload.opened, hsome]
        unfold Reload.Consistent
        rw [hopened]
        exact ⟨rfl, h.2⟩
  | @flock p rest t todo stage =>
      unfold Reload.Consistent at h ⊢
      split at h
      next hnone =>
        rw [h.1] at stage
        cases stage
      next t' hsome =>
        rw [stage] at h
        dsimp only
        rw [hsome]
        exact h
  | @read p rest t stack todo stage =>
      unfold Reload.Consistent at h ⊢
      split at h
      next hnone =>
        rw [h.1] at stage
        cases stage
      next t' hsome =>
        rw [stage] at h
        obtain ⟨rfl, hplain, hfold⟩ := h
        rw [todo, List.foldl_cons] at hfold
        have hversion : r.next.version = some t := hsome
        rw [hversion, Config.readParam_eq_load hplain]
        refine ⟨trivial, hplain, ?_⟩
        rw [show r.next.todo = rest by simp [Reload.next, todo]]
        exact hfold
  | openFailed todo stage => cases hok.1
  | flockFailed todo stage => cases hok
  | readFailed todo stage => cases hok

theorem Reload.Consistent.eq_configOf {c : Config} {r : Reload} (h : r.Consistent c)
    (hend : r.todo = []) : ∃ t, r.version = some t ∧ c = configOf t := by
  unfold Reload.Consistent at h
  split at h
  next hversion =>
    rw [h.1] at hend
    cases hend
  next t hversion =>
    rw [hend] at h
    exact ⟨t, hversion, h.2.2⟩

end LinuxMiniProjects.SignalDaemon
