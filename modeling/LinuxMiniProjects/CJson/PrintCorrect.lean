import LinuxMiniProjects.CJson.Text

/-!
The printer against the text it prints.

The statement about the functions of the printer, `Prints`, says that
there is no access outside of the buffer, that a call that succeeds has
put the text behind what was there, and when a call fails: a text needs
two bytes more than it has, one for the zero at its end and one that
`ensure` always adds.

The size of the buffer enters only through a limit, which is its size if
it must not grow, and `INT_MAX` if it may.
-/

namespace LinuxMiniProjects.CJson

open Bytes

variable {D : Type}

/-! ### The buffer -/

namespace PrintBuffer

def others (p : PrintBuffer) : ℤ := p.live - (if p.buffer.isSome then 1 else 0)

structure Keeps (p p' : PrintBuffer) : Prop where
  others : p'.others = p.others
  mallocs : p.mallocs = none → p'.mallocs = none
  noalloc : p.noalloc → p'.noalloc ∧ p'.buffer.map List.length = p.buffer.map List.length

theorem Keeps.refl (p : PrintBuffer) : p.Keeps p := ⟨rfl, id, fun h => ⟨h, rfl⟩⟩

theorem Keeps.trans {p p' p'' : PrintBuffer} (h : p.Keeps p') (h' : p'.Keeps p'') :
    p.Keeps p'' where
  others := h'.others.trans h.others
  mallocs := h'.mallocs ∘ h.mallocs
  noalloc hp := by
    obtain ⟨hn, hs⟩ := h.noalloc hp
    exact ⟨(h'.noalloc hn).1, (h'.noalloc hn).2.trans hs⟩

end PrintBuffer

/-- What a function of the printer does: it fails only if `C` does not hold,
or without memory, and if it succeeds it leaves `Post`. -/
inductive Prints (C : Prop) (Post : PrintBuffer → Prop) (p : PrintBuffer) : Out → Prop
  | fail {p'} (kept : p.Keeps p') (refused : p.mallocs = none → ¬ C) : Prints C Post p (.fail p')
  | ok {p'} (kept : p.Keeps p') (post : Post p') : Prints C Post p (.ok p')

namespace Prints

variable {C C' : Prop} {P P' : PrintBuffer → Prop} {p : PrintBuffer} {out : Out}
  {f : PrintBuffer → Out}

theorem mono (h : Prints C P p out) (hC : C' → C) (hP : ∀ p', P p' → P' p') :
    Prints C' P' p out := by
  cases h with
  | fail kept refused => exact .fail kept fun hm hc => refused hm (hC hc)
  | ok kept post => exact .ok kept (hP _ post)

theorem andThen (h : Prints C P p out) (hf : ∀ p', P p' → Prints C P' p' (f p')) :
    Prints C P' p (out.andThen f) := by
  cases h with
  | fail kept refused => exact .fail kept refused
  | @ok p' kept post =>
      have h' := hf p' post
      change Prints C P' p (f p')
      generalize f p' = out at h'
      cases h' with
      | fail kept' refused => exact .fail (kept.trans kept') fun hm => refused (kept.mallocs hm)
      | ok kept' post' => exact .ok (kept.trans kept') post'

end Prints

/-- What the printing takes place in: the limit for the size of the buffer,
whether the text is formatted, and the depth. -/
structure Context where
  limit : ℕ
  format : Bool
  depth : ℕ

structure Holds (cx : Context) (p : PrintBuffer) (buffer : List UInt8) : Prop where
  buffer_eq : p.buffer = some buffer
  format_eq : p.format = cx.format
  depth_eq : p.depth = cx.depth
  length_le : buffer.length ≤ cx.limit
  limit_le : cx.limit ≤ intMax
  fixed : p.noalloc → buffer.length = cx.limit
  growing : ¬ p.noalloc → cx.limit = intMax

/-- The text `done` stands in front of the offset, and `spare` bytes are left
behind it. -/
def Ready (cx : Context) (spare : ℕ) (done : List UInt8) (p : PrintBuffer) : Prop :=
  ∃ tail, Holds cx p (done ++ tail) ∧ p.offset = done.length ∧ spare ≤ tail.length

/-- The text `t` stands behind `done`, with a zero at its end; the offset is
somewhere in it. -/
def Shown (cx : Context) (done t : List UInt8) (p : PrintBuffer) : Prop :=
  ∃ tail, Holds cx p (done ++ t ++ 0 :: tail) ∧ 1 ≤ tail.length ∧
    ∃ k ≤ t.length, p.offset = done.length + k

/-- The text `done` stands in front of the offset, and a zero behind it. -/
def Ended (cx : Context) (done : List UInt8) (p : PrintBuffer) : Prop :=
  ∃ tail, Holds cx p (done ++ 0 :: tail) ∧ p.offset = done.length ∧ 1 ≤ tail.length

theorem Ended.ready {cx : Context} {done : List UInt8} {p : PrintBuffer} (h : Ended cx done p) :
    Ready cx 1 done p := by
  obtain ⟨tail, hbuffer, hoffset, -⟩ := h
  exact ⟨0 :: tail, hbuffer, hoffset, by simp⟩

section Pieces

variable {cx : Context} {junk : Junk} {p : PrintBuffer} {done t tail bytes : List UInt8}
  {needed spare n : ℕ}

theorem reallocate_prints {buffer : List UInt8} {newsize : ℕ} {C : Prop}
    (h : Holds cx p buffer) (hgrow : ¬ p.noalloc) (hle : newsize ≤ intMax) :
    Prints C (fun p' => ∃ tail, Holds cx p' (buffer ++ tail) ∧ p'.offset = p.offset ∧
      newsize ≤ buffer.length + tail.length) p (p.reallocate junk buffer newsize) := by
  have hsize : ∀ mallocs : Option ℕ, ∃ tail, Holds cx { p with
      buffer := some (buffer ++
        (List.range' buffer.length (newsize - buffer.length)).map (junk newsize))
      mallocs := mallocs } (buffer ++ tail) ∧ p.offset = p.offset ∧
      newsize ≤ buffer.length + tail.length := by
    intro mallocs
    refine ⟨_, ⟨rfl, h.format_eq, h.depth_eq, ?_, h.limit_le, fun hn => absurd hn hgrow,
      h.growing⟩, rfl, ?_⟩
    · have := h.length_le
      have := h.growing hgrow
      simp only [List.length_append, List.length_map, List.length_range']
      omega
    · simp only [List.length_map, List.length_range']
      omega
  unfold PrintBuffer.reallocate
  dsimp only
  split
  next hm =>
    refine .ok ⟨?_, fun _ => hm, fun hn => absurd hn hgrow⟩ ?_
    · simp [PrintBuffer.others, h.buffer_eq]
    · exact hm ▸ hsize none
  next hm =>
    refine .fail ⟨?_, fun hnone => ?_, fun hn => absurd hn hgrow⟩ fun hnone => ?_
    · simp [PrintBuffer.others, h.buffer_eq]
    · rw [hm] at hnone; cases hnone
    · rw [hm] at hnone; cases hnone
  next n hm =>
    refine .ok ⟨?_, fun hnone => ?_, fun hn => absurd hn hgrow⟩ (hsize (some n))
    · simp [PrintBuffer.others, h.buffer_eq]
    · rw [hm] at hnone; cases hnone

theorem ensure_prints (h : Ready cx 1 done p) :
    Prints (done.length + needed + 1 ≤ cx.limit) (Ready cx (needed + 1) done) p
      (p.ensure junk needed) := by
  obtain ⟨tail, hbuffer, hoffset, hspare⟩ := h
  have hlen : (done ++ tail).length = done.length + tail.length := List.length_append
  have hle := hbuffer.length_le
  have hlimit := hbuffer.limit_le
  unfold PrintBuffer.ensure
  rw [hbuffer.buffer_eq]
  dsimp only
  rw [if_neg (by rw [hoffset, hlen]; omega), hlen, hoffset]
  split
  next hlarge => exact .fail (.refl p) fun _ hc => by omega
  next hsmall =>
  split
  next hfits => exact .ok (.refl p) ⟨tail, hbuffer, hoffset, by omega⟩
  next hfull =>
  split
  next hnoalloc =>
    have := hbuffer.fixed hnoalloc
    exact .fail (.refl p) fun _ hc => by omega
  next hgrow =>
    have hrealloc : ∀ newsize, needed + (done.length + 1) ≤ newsize → newsize ≤ intMax →
        Prints (done.length + needed + 1 ≤ cx.limit) (Ready cx (needed + 1) done) p
          (p.reallocate junk (done ++ tail) newsize) := by
      intro newsize hnew hmax
      refine (reallocate_prints hbuffer hgrow hmax).mono id ?_
      rintro p' ⟨tail', hbuffer', hoffset', hsize⟩
      refine ⟨tail ++ tail', List.append_assoc .. ▸ hbuffer', hoffset'.trans hoffset, ?_⟩
      rw [List.length_append]
      omega
    split
    next hhalf =>
      split
      next hmax => exact hrealloc intMax hmax le_rfl
      next hmax => exact .fail (.refl p) fun _ hc => by omega
    next hhalf => exact hrealloc _ (by omega) (by unfold intMax at *; omega)

theorem write_eq (bytes : List UInt8) (h : Holds cx p (done ++ tail))
    (hlen : bytes.length ≤ tail.length) :
    ∃ p' tail', p.write done.length bytes = .ok p' ∧ p.Keeps p' ∧ p'.offset = p.offset ∧
      Holds cx p' (done ++ bytes ++ tail') ∧ tail.length = bytes.length + tail'.length := by
  have hbuffer : (done ++ tail).take done.length ++ bytes ++
      (done ++ tail).drop (done.length + bytes.length) =
      done ++ bytes ++ tail.drop bytes.length := by
    rw [List.take_left, ← List.drop_drop, List.drop_left]
  have hlength : (done ++ bytes ++ tail.drop bytes.length).length = (done ++ tail).length := by
    simp only [List.length_append, List.length_drop]
    omega
  refine ⟨{ p with buffer := some (done ++ bytes ++ tail.drop bytes.length) },
    tail.drop bytes.length, ?_, ?_, rfl, ?_, ?_⟩
  · unfold PrintBuffer.write
    rw [h.buffer_eq]
    dsimp only
    rw [if_pos (by rw [List.length_append]; omega), hbuffer]
  · refine ⟨by simp [PrintBuffer.others, h.buffer_eq], id, fun hn => ⟨hn, ?_⟩⟩
    rw [h.buffer_eq, Option.map_some, Option.map_some, hlength]
  · exact ⟨rfl, h.format_eq, h.depth_eq, hlength ▸ h.length_le, h.limit_le,
      fun hn => hlength ▸ h.fixed hn, h.growing⟩
  · rw [List.length_drop]
    omega

theorem Holds.advance {buffer : List UInt8} (h : Holds cx p buffer) :
    Holds cx (p.advance n) buffer :=
  ⟨h.buffer_eq, h.format_eq, h.depth_eq, h.length_le, h.limit_le, h.fixed, h.growing⟩

theorem emit_prints (h : Ready cx 1 done p) (hlen : bytes.length ≤ needed) :
    Prints (done.length + needed + 1 ≤ cx.limit)
      (fun p' => ∃ tail, Holds cx p' (done ++ bytes ++ tail) ∧ p'.offset = done.length + n ∧
        needed + 1 ≤ bytes.length + tail.length) p (p.emit junk needed bytes n) := by
  refine (ensure_prints h).andThen ?_
  rintro p₁ ⟨tail, hbuffer, hoffset, hspare⟩
  obtain ⟨p₂, tail₂, hwrite, hkeeps, hoffset₂, hbuffer₂, hlen₂⟩ :=
    write_eq bytes hbuffer (by omega)
  rw [hoffset, hwrite]
  refine .ok ⟨hkeeps.others, hkeeps.mallocs, hkeeps.noalloc⟩
    ⟨tail₂, hbuffer₂.advance, ?_, by omega⟩
  change p₂.offset + n = _
  rw [hoffset₂, hoffset]

theorem emit_ready (h : Ready cx 1 done p) (hlen : t.length ≤ needed) :
    Prints (done.length + needed + 1 ≤ cx.limit) (Ready cx 1 (done ++ t)) p
      (p.emit junk needed t t.length) := by
  refine (emit_prints h hlen).mono id ?_
  rintro p' ⟨tail, hbuffer, hoffset, hspare⟩
  exact ⟨tail, hbuffer, hoffset.trans List.length_append.symm, by omega⟩

theorem emit_zero_ready (h : Ready cx 1 done p) :
    Prints (done.length + t.length + 2 ≤ cx.limit) (Ready cx 1 (done ++ t)) p
      (p.emit junk (t.length + 1) (t ++ [0]) t.length) := by
  refine (emit_prints h (by simp)).mono (by omega) ?_
  rintro p' ⟨tail, hbuffer, hoffset, hspare⟩
  refine ⟨0 :: tail, ?_, hoffset.trans List.length_append.symm, by simp⟩
  simpa [List.append_assoc] using hbuffer

theorem emit_shown (h : Ready cx 1 done p) (hn : n ≤ t.length) :
    Prints (done.length + t.length + 2 ≤ cx.limit) (Shown cx done t) p
      (p.emit junk (t.length + 1) (t ++ [0]) n) := by
  refine (emit_prints h (by simp)).mono (by omega) ?_
  rintro p' ⟨tail, hbuffer, hoffset, hspare⟩
  refine ⟨tail, by simpa [List.append_assoc] using hbuffer, ?_, n, hn, hoffset⟩
  simp only [List.length_append, List.length_singleton] at hspare
  omega

theorem updateOffset_prints {C : Prop} (h : Shown cx done t p) (ht : 0 ∉ t) :
    Prints C (Ended cx (done ++ t)) p p.updateOffset := by
  obtain ⟨tail, hbuffer, hspare, k, hk, hoffset⟩ := h
  have hdrop : (done ++ t ++ 0 :: tail).drop p.offset = t.drop k ++ 0 :: tail := by
    rw [hoffset, List.append_assoc, ← List.drop_drop, List.drop_left,
      List.drop_append_of_le_length hk]
  have hstring : cString (t.drop k ++ 0 :: tail) = t.drop k := by
    rw [cString, List.takeWhile_append_of_pos, List.takeWhile_cons]
    · simp
    · intro b hb
      exact decide_eq_true (ne_of_mem_of_not_mem (List.mem_of_mem_drop hb) ht)
  unfold PrintBuffer.updateOffset
  rw [hbuffer.buffer_eq]
  dsimp only
  rw [hdrop, if_pos (by simp), hstring]
  refine .ok ⟨rfl, id, fun hn => ⟨hn, rfl⟩⟩ ⟨tail, hbuffer.advance, ?_, hspare⟩
  change p.offset + (t.drop k).length = _
  rw [List.length_drop, List.length_append]
  omega

end Pieces

/-! ### Strings -/

section Strings

variable {cx : Context} {junk : Junk} {p : PrintBuffer} {done : List UInt8}

theorem flatMap_escaped_of_sum_eq_zero {input : List UInt8}
    (h : (input.map escapeCharacters).sum = 0) : input.flatMap escaped = input := by
  induction input with
  | nil => rfl
  | cons c input ih =>
      rw [List.map_cons, List.sum_cons, Nat.add_eq_zero_iff] at h
      have hlen := length_escaped c
      rw [h.1] at hlen
      rw [List.flatMap_cons, ih h.2]
      rcases escaped_cases c with ⟨-, -, he⟩ | ⟨-, ⟨letter, -, he⟩ | ⟨-, -, he⟩⟩
      · rw [he]
        rfl
      · rw [he] at hlen
        cases hlen
      · rw [he] at hlen
        cases hlen

/-- One turn of the loop. What `sprintf` puts behind the character is still
within the buffer. -/
theorem escapeLoop_cons (c : UInt8) (input : List UInt8) {w tail : List UInt8}
    (h : Holds cx p (w ++ tail)) (hroom : (escaped c).length + 1 ≤ tail.length) :
    ∃ p' tail', escapeLoop p w.length (c :: input) =
        escapeLoop p' (w ++ escaped c).length input ∧
      p.Keeps p' ∧ p'.offset = p.offset ∧ Holds cx p' (w ++ escaped c ++ tail') ∧
      tail.length = (escaped c).length + tail'.length := by
  rw [escapeLoop, List.length_append]
  rcases escaped_cases c with ⟨hplain, -, he⟩ |
    ⟨hplain, ⟨letter, hletter, he⟩ | ⟨-, hletter, he⟩⟩
  · have hlength : (escaped c).length = 1 := by rw [he]; rfl
    obtain ⟨p₁, tail₁, hwrite, hkeeps, hoffset, hbuffer, hlen⟩ :=
      write_eq [c] h (by rw [List.length_singleton]; omega)
    rw [if_pos hplain, hwrite, hlength, he]
    exact ⟨p₁, tail₁, rfl, hkeeps, hoffset, hbuffer, hlen⟩
  · have hlength : (escaped c).length = 2 := by rw [he]; rfl
    obtain ⟨p₁, tail₁, hwrite, hkeeps, hoffset, hbuffer, hlen⟩ :=
      write_eq [backslash] h (by rw [List.length_singleton]; omega)
    rw [List.length_singleton] at hlen
    obtain ⟨p₂, tail₂, hwrite₂, hkeeps₂, hoffset₂, hbuffer₂, hlen₂⟩ :=
      write_eq [letter] hbuffer (by rw [List.length_singleton]; omega)
    rw [List.length_append, List.length_singleton] at hwrite₂
    rw [List.length_singleton] at hlen₂
    rw [if_neg hplain, hwrite, hletter, Out.andThen]
    dsimp only
    rw [hwrite₂, hlength, he]
    refine ⟨p₂, tail₂, rfl, hkeeps.trans hkeeps₂, hoffset₂.trans hoffset, ?_, by omega⟩
    simpa [List.append_assoc] using hbuffer₂
  · have hlength : (escaped c).length = 6 := by rw [he]; rfl
    have hescape : (utf16Escape c ++ [0]).length = 6 := rfl
    obtain ⟨p₁, tail₁, hwrite, hkeeps, hoffset, hbuffer, hlen⟩ :=
      write_eq [backslash] h (by rw [List.length_singleton]; omega)
    rw [List.length_singleton] at hlen
    obtain ⟨p₂, tail₂, hwrite₂, hkeeps₂, hoffset₂, hbuffer₂, hlen₂⟩ :=
      write_eq (utf16Escape c ++ [0]) hbuffer (by omega)
    rw [List.length_append, List.length_singleton] at hwrite₂
    rw [if_neg hplain, hwrite, hletter, Out.andThen]
    dsimp only
    rw [hwrite₂, hlength, he]
    -- The zero is the first byte behind the character.
    refine ⟨p₂, 0 :: tail₂, rfl, hkeeps.trans hkeeps₂, hoffset₂.trans hoffset, ?_, ?_⟩
    · simpa [List.append_assoc] using hbuffer₂
    · rw [List.length_cons]
      omega

theorem escapeLoop_eq (input : List UInt8) {w tail : List UInt8} (h : Holds cx p (w ++ tail))
    (hroom : (input.flatMap escaped).length + 1 ≤ tail.length) :
    ∃ p' tail', escapeLoop p w.length input = .ok p' ∧ p.Keeps p' ∧ p'.offset = p.offset ∧
      Holds cx p' (w ++ input.flatMap escaped ++ tail') ∧
      tail.length = (input.flatMap escaped).length + tail'.length := by
  induction input generalizing p w tail with
  | nil => exact ⟨p, tail, rfl, .refl p, rfl, by simpa using h, by simp⟩
  | cons c input ih =>
      rw [List.flatMap_cons, List.length_append] at hroom ⊢
      obtain ⟨p₁, tail₁, hloop, hkeeps, hoffset, hbuffer, hlen⟩ :=
        escapeLoop_cons c input h (by omega)
      obtain ⟨p₂, tail₂, hloop₂, hkeeps₂, hoffset₂, hbuffer₂, hlen₂⟩ := ih hbuffer (by omega)
      refine ⟨p₂, tail₂, hloop.trans hloop₂, hkeeps.trans hkeeps₂, hoffset₂.trans hoffset, ?_,
        by omega⟩
      rwa [← List.append_assoc w]

theorem printString_prints (s : List UInt8) (h : Ready cx 1 done p) :
    Prints (done.length + (literal s).length + 2 ≤ cx.limit) (Shown cx done (literal s)) p
      (printString junk s p) := by
  have hlength := length_literal s
  refine ((ensure_prints h).mono (by omega) fun _ => id).andThen ?_
  rintro p₁ ⟨tail, hbuffer, hoffset, hspare⟩
  split
  next hzero =>
    have hbytes : quote :: cString s ++ [quote, 0] = literal s ++ [0] := by
      rw [literal, flatMap_escaped_of_sum_eq_zero hzero]
      simp
    obtain ⟨p₂, tail₂, hwrite, hkeeps, hoffset₂, hbuffer₂, hlen⟩ :=
      write_eq (literal s ++ [0]) hbuffer (by simp; omega)
    rw [hoffset, hbytes, hwrite]
    refine .ok hkeeps ⟨tail₂, by simpa [List.append_assoc] using hbuffer₂, ?_,
      0, Nat.zero_le _, hoffset₂.trans hoffset⟩
    rw [List.length_append, List.length_singleton] at hlen
    omega
  next hpos =>
    obtain ⟨p₂, tail₂, hwrite₂, hkeeps₂, hoffset₂, hbuffer₂, hlen₂⟩ :=
      write_eq [quote] hbuffer (by rw [List.length_singleton]; omega)
    have hinput : ((cString s).flatMap escaped).length + 2 = (literal s).length := by
      simp [literal]
    rw [List.length_singleton] at hlen₂
    obtain ⟨p₃, tail₃, hloop, hkeeps₃, hoffset₃, hbuffer₃, hlen₃⟩ :=
      escapeLoop_eq (cString s) hbuffer₂ (by omega)
    obtain ⟨p₄, tail₄, hwrite₄, hkeeps₄, hoffset₄, hbuffer₄, hlen₄⟩ :=
      write_eq [quote, 0] hbuffer₃ (by simp only [List.length_cons, List.length_nil]; omega)
    rw [List.length_append, List.length_singleton] at hloop
    have hpointer : (done ++ [quote] ++ (cString s).flatMap escaped).length =
        done.length + ((cString s).length +
          ((cString s).map escapeCharacters).sum) + 1 := by
      simp only [List.length_append, List.length_singleton]
      omega
    rw [hpointer] at hwrite₄
    rw [hoffset, hwrite₂, Out.andThen, hoffset₂, hoffset, hloop, Out.andThen, hoffset₃, hoffset₂,
      hoffset, hwrite₄]
    refine .ok (hkeeps₂.trans (hkeeps₃.trans hkeeps₄)) ⟨tail₄, ?_, ?_, 0, Nat.zero_le _, ?_⟩
    · simpa [literal, List.append_assoc] using hbuffer₄
    · simp only [List.length_cons, List.length_nil] at hlen₄
      omega
    · rw [hoffset₄, hoffset₃, hoffset₂, hoffset, Nat.add_zero]

end Strings

/-! ### Values -/

def Context.deeper (cx : Context) : Context := { cx with depth := cx.depth + 1 }

@[simp] theorem Context.deeper_limit (cx : Context) : cx.deeper.limit = cx.limit := rfl

@[simp] theorem Context.deeper_format (cx : Context) : cx.deeper.format = cx.format := rfl

@[simp] theorem Context.deeper_depth (cx : Context) : cx.deeper.depth = cx.depth + 1 := rfl

theorem Ready.deeper {cx : Context} {n : ℕ} {done : List UInt8} {p : PrintBuffer}
    (h : Ready cx n done p) : Ready cx.deeper n done { p with depth := p.depth + 1 } := by
  obtain ⟨tail, hbuffer, hoffset, hspare⟩ := h
  exact ⟨tail, ⟨hbuffer.buffer_eq, hbuffer.format_eq, congrArg (· + 1) hbuffer.depth_eq,
    hbuffer.length_le, hbuffer.limit_le, hbuffer.fixed, hbuffer.growing⟩, hoffset, hspare⟩

theorem Shown.back {cx : Context} {done t t' : List UInt8} {p : PrintBuffer}
    (h : Shown cx.deeper (done ++ t) t' p) :
    Shown cx done (t ++ t') { p with depth := p.depth - 1 } := by
  obtain ⟨tail, hbuffer, hspare, k, hk, hoffset⟩ := h
  rw [List.append_assoc done] at hbuffer
  refine ⟨tail, ⟨hbuffer.buffer_eq, hbuffer.format_eq, ?_, hbuffer.length_le, hbuffer.limit_le,
    hbuffer.fixed, hbuffer.growing⟩, hspare, t.length + k, ?_, ?_⟩
  · change p.depth - 1 = cx.depth
    rw [hbuffer.depth_eq]
    rfl
  · rw [List.length_append]
    omega
  · rw [List.length_append] at hoffset
    exact hoffset.trans (Nat.add_assoc ..)

theorem Ready.format_eq {cx : Context} {n : ℕ} {done : List UInt8} {p : PrintBuffer}
    (h : Ready cx n done p) : p.format = cx.format := by
  obtain ⟨tail, hbuffer, -⟩ := h
  exact hbuffer.format_eq

theorem Ready.depth_eq {cx : Context} {n : ℕ} {done : List UInt8} {p : PrintBuffer}
    (h : Ready cx n done p) : p.depth = cx.depth := by
  obtain ⟨tail, hbuffer, -⟩ := h
  exact hbuffer.depth_eq

theorem Prints.ended {F : Doubles D} (hF : F.Lawful) {cx : Context} {p : PrintBuffer}
    {done : List UInt8} {C Q : Prop} {v : Item D} {out : Out}
    (h : Prints C (fun p' => Shown cx done (text F cx.format cx.depth v) p' ∧ Q) p out) :
    Prints C (fun p' => Ended cx (done ++ text F cx.format cx.depth v) p' ∧ Q) p
      (out.andThen PrintBuffer.updateOffset) := by
  refine h.andThen ?_
  rintro p' ⟨hshown, hq⟩
  exact (updateOffset_prints hshown (zero_notMem_text hF _ _ v)).mono id fun _ hp => ⟨hp, hq⟩

theorem Out.andThen_assoc (out : Out) (f g : PrintBuffer → Out) :
    (out.andThen f).andThen g = out.andThen fun p => (f p).andThen g := by
  cases out <;> rfl

theorem Prints.of_depth {C : Prop} {P : PrintBuffer → Prop} {p : PrintBuffer} {out : Out} (d : ℕ)
    (h : Prints C P { p with depth := d } out) : Prints C P p out := by
  cases h with
  | fail kept refused => exact .fail ⟨kept.others, kept.mallocs, kept.noalloc⟩ refused
  | ok kept post => exact .ok ⟨kept.others, kept.mallocs, kept.noalloc⟩ post

theorem Prints.close {cx : Context} {done t t' : List UInt8} {p : PrintBuffer} {C Q : Prop}
    {out : Out} (h : Prints C (Shown cx.deeper (done ++ t) t') p out) (hq : Q) :
    Prints C (fun p' => Shown cx done (t ++ t') p' ∧ Q) p
      (out.andThen fun p => .ok { p with depth := p.depth - 1 }) := by
  refine h.andThen fun p' hshown => ?_
  exact .ok ⟨rfl, id, fun hn => ⟨hn, rfl⟩⟩ ⟨hshown.back, hq⟩

theorem printIndent_prints {cx : Context} {junk : Junk} {p : PrintBuffer} {done : List UInt8}
    (h : Ready cx 1 done p) :
    Prints (done.length + (indent cx.format cx.depth).length + 1 ≤ cx.limit)
      (Ready cx 1 (done ++ indent cx.format cx.depth)) p (printIndent junk p) := by
  unfold printIndent indent
  rw [h.format_eq, h.depth_eq]
  split
  next =>
    have hlen : (List.replicate cx.depth (9 : UInt8)).length = cx.depth := List.length_replicate
    have hready : Prints _ _ p (p.emit junk _ (List.replicate cx.depth 9) _) :=
      emit_ready h le_rfl
    rw [hlen] at hready ⊢
    exact hready
  next =>
    rw [List.append_nil]
    exact .ok (.refl p) h

theorem printCloseBrace_prints {cx : Context} {junk : Junk} {p : PrintBuffer} {done : List UInt8}
    (h : Ready cx.deeper 1 done p) :
    Prints (done.length + (indent cx.format cx.depth ++ [125]).length + 2 ≤ cx.limit)
      (Shown cx.deeper done (indent cx.format cx.depth ++ [125])) p (printCloseBrace junk p) := by
  unfold printCloseBrace
  rw [h.format_eq, h.depth_eq]
  have hshown : Prints _ _ p (p.emit junk _ (indent cx.format cx.depth ++ [125] ++ [0]) 0) :=
    emit_shown h (Nat.zero_le _)
  have hneeded : (if cx.format then cx.depth + 1 + 1 else 2) =
      (indent cx.format cx.depth ++ [125]).length + 1 := by
    cases hformat : cx.format <;> simp [indent]
  change Prints _ _ p (p.emit junk (if cx.format then cx.depth + 1 + 1 else 2)
    (indent cx.format cx.depth ++ [125, 0]) 0)
  rw [hneeded]
  rwa [List.append_assoc] at hshown

mutual

theorem printValue_prints {F : Doubles D} (hF : F.Lawful) (junk : Junk) :
    (v : Item D) → ∀ {cx : Context} {p : PrintBuffer} {done : List UInt8}, Ready cx 1 done p →
      cx.depth ≤ nestingLimit →
      Prints (done.length + (text F cx.format cx.depth v).length + 2 ≤ cx.limit ∧
          cx.depth + v.nesting ≤ nestingLimit)
        (fun p' => Shown cx done (text F cx.format cx.depth v) p' ∧
          cx.depth + v.nesting ≤ nestingLimit) p (printValue F junk v p)
  | .null, cx, p, done, h, hdepth => by
      rw [text, printValue]
      exact (emit_shown h (Nat.zero_le _)).mono And.left fun _ hp => ⟨hp, hdepth⟩
  | .bool false, cx, p, done, h, hdepth => by
      rw [text, printValue]
      exact (emit_shown h (Nat.zero_le _)).mono And.left fun _ hp => ⟨hp, hdepth⟩
  | .bool true, cx, p, done, h, hdepth => by
      rw [text, printValue]
      exact (emit_shown h (Nat.zero_le _)).mono And.left fun _ hp => ⟨hp, hdepth⟩
  | .number d, cx, p, done, h, hdepth => by
      have hshort := (isNumberText_numberText hF d).1
      rw [text, printValue, printNumber, if_neg (by omega)]
      exact (emit_shown h le_rfl).mono And.left fun _ hp => ⟨hp, hdepth⟩
  | .string s, cx, p, done, h, hdepth => by
      rw [text, printValue]
      exact (printString_prints s h).mono And.left fun _ hp => ⟨hp, hdepth⟩
  | .array vs, cx, p, done, h, hdepth => by
      rw [printValue, h.depth_eq, Item.nesting, text]
      have hlen : (91 :: (textElements F cx.format (cx.depth + 1) vs ++ [93])).length =
          (textElements F cx.format (cx.depth + 1) vs).length + 2 := by simp
      rw [hlen]
      split
      next hdeep => exact .fail (.refl p) fun _ hc => by omega
      next hshallow =>
      refine ((emit_ready (t := [91]) h le_rfl).mono (by simp; omega) fun _ => id).andThen ?_
      intro p₁ h₁
      have helements := printElements_prints hF junk vs h₁.deeper (Nat.succ_le_of_lt (by omega))
      simp only [Context.deeper_limit, Context.deeper_format, Context.deeper_depth,
        List.length_append, List.length_singleton] at helements
      refine .of_depth (p₁.depth + 1) ((helements.mono (by omega) fun _ => id).andThen ?_)
      rintro p₂ ⟨h₂, hnesting⟩
      have hclose : Prints _ _ p₂ (p₂.emit junk 2 [93, 0] 0) :=
        emit_shown (t := [93]) h₂ (Nat.zero_le _)
      rw [List.append_assoc done] at hclose
      refine (hclose.mono ?_ fun _ => id).close (by omega)
      simp
      omega
  | .object ms, cx, p, done, h, hdepth => by
      have hbrace : p.format = cx.format := h.format_eq
      rw [printValue, h.depth_eq, Item.nesting, text, hbrace]
      simp only [List.length_append]
      split
      next hdeep => exact .fail (.refl p) fun _ hc => by omega
      next hshallow =>
      refine ((emit_ready (t := openBrace cx.format) h (Nat.le_succ _)).mono (by simp; omega)
        fun _ => id).andThen ?_
      intro p₁ h₁
      have hmembers := printMembers_prints hF junk ms h₁.deeper (Nat.succ_le_of_lt (by omega))
      simp only [Context.deeper_limit, Context.deeper_format, Context.deeper_depth,
        List.length_append] at hmembers
      refine .of_depth (p₁.depth + 1) ((hmembers.mono (by omega) fun _ => id).andThen ?_)
      rintro p₂ ⟨h₂, hnesting⟩
      have hclose : Prints _ _ p₂ (printCloseBrace junk p₂) := printCloseBrace_prints h₂
      rw [List.append_assoc done] at hclose
      rw [← List.append_assoc (openBrace cx.format)]
      refine (hclose.mono ?_ fun _ => id).close (by omega)
      simp only [List.length_append]
      omega

theorem printElements_prints {F : Doubles D} (hF : F.Lawful) (junk : Junk) :
    (vs : List (Item D)) → ∀ {cx : Context} {p : PrintBuffer} {done : List UInt8},
      Ready cx 1 done p → cx.depth ≤ nestingLimit →
      Prints (done.length + (textElements F cx.format cx.depth vs).length + 2 ≤ cx.limit ∧
          cx.depth + Item.nestingOfItems vs ≤ nestingLimit)
        (fun p' => Ready cx 1 (done ++ textElements F cx.format cx.depth vs) p' ∧
          cx.depth + Item.nestingOfItems vs ≤ nestingLimit) p (printElements F junk vs p)
  | [], cx, p, done, h, hdepth => by
      rw [printElements, textElements, List.append_nil]
      exact .ok (.refl p) ⟨h, hdepth⟩
  | v :: vs, cx, p, done, h, hdepth => by
      rw [printElements, textElements, Item.nestingOfItems, ← Out.andThen_assoc]
      simp only [List.length_append]
      refine (((printValue_prints hF junk v h hdepth).mono (by omega) fun _ => id).ended
        hF).andThen ?_
      rintro p₁ ⟨hended, hnesting⟩
      have h₁ := hended.ready
      have hseparator : Prints (done.length + ((text F cx.format cx.depth v).length +
            ((if vs.isEmpty then [] else elementSeparator cx.format).length)) + 2 ≤ cx.limit)
          (Ready cx 1 (done ++ text F cx.format cx.depth v ++
            if vs.isEmpty then [] else elementSeparator cx.format)) p₁
          (if vs.isEmpty then .ok p₁
            else p₁.emit junk ((elementSeparator p₁.format).length + 1)
              (elementSeparator p₁.format ++ [0]) (elementSeparator p₁.format).length) := by
        rw [h₁.format_eq]
        split
        next =>
          rw [List.append_nil]
          exact .ok (.refl p₁) h₁
        next =>
          refine (emit_zero_ready h₁).mono ?_ fun _ => id
          rw [List.length_append]
          omega
      refine (hseparator.mono (by omega) fun _ => id).andThen ?_
      intro p₂ h₂
      have helements := printElements_prints hF junk vs h₂ hdepth
      simp only [List.length_append, List.append_assoc] at helements
      exact helements.mono (by omega) fun p' hp => ⟨hp.1, by omega⟩

theorem printMembers_prints {F : Doubles D} (hF : F.Lawful) (junk : Junk) :
    (ms : List (List UInt8 × Item D)) → ∀ {cx : Context} {p : PrintBuffer} {done : List UInt8},
      Ready cx 1 done p → cx.depth ≤ nestingLimit →
      Prints (done.length + (textMembers F cx.format cx.depth ms).length + 2 ≤ cx.limit ∧
          cx.depth + Item.nestingOfFields ms ≤ nestingLimit)
        (fun p' => Ready cx 1 (done ++ textMembers F cx.format cx.depth ms) p' ∧
          cx.depth + Item.nestingOfFields ms ≤ nestingLimit) p (printMembers F junk ms p)
  | [], cx, p, done, h, hdepth => by
      rw [printMembers, textMembers, List.append_nil]
      exact .ok (.refl p) ⟨h, hdepth⟩
  | (name, v) :: ms, cx, p, done, h, hdepth => by
      rw [printMembers, textMembers, Item.nestingOfFields]
      simp only [List.length_append]
      refine ((printIndent_prints h).mono (by omega) fun _ => id).andThen ?_
      intro p₁ h₁
      rw [← Out.andThen_assoc]
      refine (((printString_prints name h₁).mono ?_ fun _ => id).andThen fun p' hp =>
        updateOffset_prints hp (zero_notMem_literal name)).andThen ?_
      · rw [List.length_append]
        omega
      intro p₂ hname
      have h₂ := hname.ready
      rw [h₂.format_eq]
      refine ((emit_ready h₂ le_rfl).mono ?_ fun _ => id).andThen ?_
      · simp only [List.length_append]
        omega
      intro p₃ h₃
      rw [← Out.andThen_assoc]
      refine (((printValue_prints hF junk v h₃ hdepth).mono ?_ fun _ => id).ended
        hF).andThen ?_
      · simp only [List.length_append]
        omega
      rintro p₄ ⟨hended, hnesting⟩
      have h₄ := hended.ready
      rw [h₄.format_eq]
      refine ((emit_zero_ready h₄).mono ?_ fun _ => id).andThen ?_
      · simp only [List.length_append]
        omega
      intro p₅ h₅
      have hmembers := printMembers_prints hF junk ms h₅ hdepth
      simp only [List.length_append, List.append_assoc] at hmembers
      exact hmembers.mono (by omega) fun p' hp => ⟨hp.1, by omega⟩

end

/-! ### The entry points -/

def Fits (F : Doubles D) (format : Bool) (limit : ℕ) (v : Item D) : Prop :=
  (text F format 0 v).length + 2 ≤ limit ∧ v.nesting ≤ nestingLimit

instance (F : Doubles D) (format : Bool) (limit : ℕ) (v : Item D) :
    Decidable (Fits F format limit v) := inferInstanceAs (Decidable (_ ∧ _))

theorem printValue_nil {F : Doubles D} (hF : F.Lawful) (junk : Junk) (v : Item D)
    {p : PrintBuffer} (hbuffer : p.buffer = some []) (hnoalloc : p.noalloc) :
    printValue F junk v p = .fail p := by
  have hensure : ∀ needed, p.ensure junk needed = .fail p := by
    intro needed
    simp [PrintBuffer.ensure, hbuffer, hnoalloc]
  have hemit : ∀ needed bytes n, p.emit junk needed bytes n = .fail p := by
    intro needed bytes n
    rw [PrintBuffer.emit, hensure, Out.andThen]
  cases v with
  | null => rw [printValue, printWord, hemit]
  | bool b => cases b <;> rw [printValue, printWord, hemit]
  | number d =>
      have := (isNumberText_numberText hF d).1
      rw [printValue, printNumber, if_neg (by omega), hemit]
  | string s => rw [printValue, printString, hensure, Out.andThen]
  | array vs => rw [printValue, hemit, Out.andThen, ite_self]
  | object ms => simp only [printValue, hemit, Out.andThen, ite_self]

theorem Shown.cString_eq {cx : Context} {t : List UInt8} {p : PrintBuffer} {buffer : List UInt8}
    (h : Shown cx [] t p) (hbuffer : p.buffer = some buffer) (ht : 0 ∉ t) :
    cString buffer = t ∧ t.length + 2 ≤ buffer.length := by
  obtain ⟨tail, hholds, hspare, -⟩ := h
  rw [hholds.buffer_eq, Option.some.injEq] at hbuffer
  subst hbuffer
  constructor
  · rw [cString, List.nil_append, List.takeWhile_append_of_pos, List.takeWhile_cons]
    · simp
    · intro b hb
      exact decide_eq_true (ne_of_mem_of_not_mem hb ht)
  · simp only [List.nil_append, List.length_append, List.length_cons]
    omega

/-- `cJSON_PrintPreallocated` succeeds if there are two bytes more than the
text has, and only then. -/
theorem printPreallocated_eq {F : Doubles D} (hF : F.Lawful) (junk : Junk) (v : Item D)
    {buffer : List UInt8} (hlen : buffer.length ≤ intMax) (format : Bool) :
    ∃ buffer', buffer'.length = buffer.length ∧
      printPreallocated F junk v buffer format =
        some (decide (Fits F format buffer.length v), buffer') ∧
      (Fits F format buffer.length v → cString buffer' = text F format 0 v) := by
  unfold printPreallocated
  cases buffer with
  | nil =>
      have hfits : ¬ Fits F format 0 v := fun h => Nat.not_succ_le_zero _ h.1
      rw [printValue_nil hF junk v rfl rfl]
      exact ⟨[], rfl, congrArg some (congrArg (·, []) (decide_eq_false hfits).symm),
        fun h => absurd h hfits⟩
  | cons b tail =>
      have hready : Ready ⟨(b :: tail).length, format, 0⟩ 1 []
          ⟨some (b :: tail), 0, 0, true, format, none, 0⟩ :=
        ⟨b :: tail, ⟨rfl, rfl, rfl, le_rfl, hlen, fun _ => rfl, fun h => absurd rfl h⟩, rfl,
          Nat.succ_pos _⟩
      have hprints := printValue_prints hF junk v hready (Nat.zero_le _)
      generalize printValue F junk v _ = out at hprints
      simp only [List.length_nil, Nat.zero_add] at hprints
      cases hprints with
      | @fail p' kept refused =>
          have hlength := (kept.noalloc rfl).2
          obtain ⟨b', hb', hlen'⟩ := Option.map_eq_some_iff.mp hlength
          have hfits : ¬ Fits F format (b :: tail).length v := refused rfl
          refine ⟨b', hlen', ?_, fun h => absurd h hfits⟩
          rw [decide_eq_false hfits]
          exact congrArg (Option.map fun b => (false, b)) hb'
      | @ok p' kept post =>
          have hlength := (kept.noalloc rfl).2
          obtain ⟨b', hb', hlen'⟩ := Option.map_eq_some_iff.mp hlength
          obtain ⟨htext, hroom⟩ := post.1.cString_eq hb' (zero_notMem_text hF _ _ v)
          have hfits : Fits F format (b :: tail).length v := ⟨hlen' ▸ hroom, post.2⟩
          refine ⟨b', hlen', ?_, fun _ => htext⟩
          rw [decide_eq_true hfits]
          exact congrArg (Option.map fun b => (true, b)) hb'

structure Rendered.Sound (F : Doubles D) (mallocs : Option ℕ) (live : ℤ) (format : Bool)
    (v : Item D) (r : Rendered) : Prop where
  live_eq : r.live = live + (if r.text.isSome then 1 else 0)
  text_eq : ∀ t, r.text = some t → t = CJson.text F format 0 v ++ [0] ∧ Fits F format intMax v
  complete : mallocs = none → Fits F format intMax v → r.text.isSome

theorem printFailed_sound {F : Doubles D} {mallocs : Option ℕ} {live : ℤ} {format : Bool}
    {v : Item D} {p : PrintBuffer} (hothers : p.others = live)
    (hfits : mallocs = none → ¬ Fits F format intMax v) :
    (printFailed p).Sound F mallocs live format v := by
  refine ⟨?_, nofun, fun hm h => absurd h (hfits hm)⟩
  rw [← hothers]
  unfold printFailed PrintBuffer.others
  split <;> simp

theorem printBuffered_eq {F : Doubles D} (hF : F.Lawful) (junk : Junk) (mallocs : Option ℕ)
    (live : ℤ) (format : Bool) (v : Item D) :
    ∃ r, printBuffered F junk v (defaultBuffer junk mallocs live format) = some r ∧
      r.Sound F mallocs live format v := by
  have hsize : ((List.range 256).map (junk 256)).length = 256 := by
    rw [List.length_map, List.length_range]
  have hready : Ready ⟨intMax, format, 0⟩ 1 [] (defaultBuffer junk mallocs live format) := by
    refine ⟨(List.range 256).map (junk 256), ⟨rfl, rfl, rfl, ?_, le_rfl, nofun, fun _ => rfl⟩,
      rfl, ?_⟩
    · rw [List.nil_append, hsize]
      exact (by decide : 256 ≤ intMax)
    · rw [hsize]
      decide
  have hothers : (defaultBuffer junk mallocs live format).others = live := by
    rw [PrintBuffer.others, defaultBuffer, Option.isSome_some, if_pos rfl, add_sub_cancel_right]
  have hprints := (printValue_prints hF junk v hready (Nat.zero_le _)).ended hF
  simp only [List.length_nil, Nat.zero_add, List.nil_append] at hprints
  unfold printBuffered
  generalize (printValue F junk v _).andThen PrintBuffer.updateOffset = out at hprints
  cases hprints with
  | fail kept refused =>
      exact ⟨_, rfl, printFailed_sound (kept.others.trans hothers) fun hm => refused hm⟩
  | @ok p kept post =>
      obtain ⟨⟨tail, hholds, hoffset, hspare⟩, hnesting⟩ := post
      have hlive : p.live = live + 1 := by
        have := kept.others.trans hothers
        rw [PrintBuffer.others, hholds.buffer_eq, Option.isSome_some, if_pos rfl] at this
        omega
      have htext : (text F format 0 v ++ 0 :: tail).take (p.offset + 1) =
          text F format 0 v ++ [0] := by
        rw [hoffset, List.take_append, List.take_of_length_le (Nat.le_succ _),
          Nat.add_sub_cancel_left]
        rfl
      dsimp only
      rw [hholds.buffer_eq]
      refine ⟨_, rfl, ?_⟩
      unfold finishPrint
      split
      next hzero =>
        refine printFailed_sound (kept.others.trans hothers) fun hm => ?_
        rw [kept.mallocs hm] at hzero
        cases hzero
      next =>
        refine ⟨hlive, ?_, fun _ _ => rfl⟩
        rintro t ht
        cases ht
        refine ⟨htext, ?_, by omega⟩
        have hle : (text F format 0 v ++ 0 :: tail).length ≤ intMax := hholds.length_le
        rw [List.length_append, List.length_cons] at hle
        omega

/-- `print` returns the text, unless it is too long or there is no memory,
and the only block it leaves is that of the text. -/
theorem print_eq {F : Doubles D} (hF : F.Lawful) (junk : Junk) (mallocs : Option ℕ) (live : ℤ)
    (format : Bool) (v : Item D) :
    ∃ r, print F junk mallocs live format v = some r ∧ r.Sound F mallocs live format v := by
  unfold print
  split
  next => exact printBuffered_eq hF junk none live format v
  next => exact ⟨_, rfl, (add_zero live).symm, nofun, nofun⟩
  next n =>
    obtain ⟨r, hr, hsound⟩ := printBuffered_eq hF junk (some n) live format v
    exact ⟨r, hr, hsound.live_eq, hsound.text_eq, nofun⟩

def sample : Item ℤ := .object [(ofString "a", .array [.number (-12), .null, .string [9]])]

/-- **Memory of the printer.** At whatever call the allocator fails, the
printer writes nothing outside of its buffer. It leaves one block if it
returns a text, and none otherwise, and a text is that of the item. -/
theorem print_memory_safe {F : Doubles D} (hF : F.Lawful) (junk : Junk) (mallocs : Option ℕ)
    (live : ℤ) (format : Bool) (v : Item D) :
    ∃ r, print F junk mallocs live format v = some r ∧
      r.live = live + (if r.text.isSome then 1 else 0) ∧
      ∀ t, r.text = some t → t = text F format 0 v ++ [0] := by
  obtain ⟨r, hr, hsound⟩ := print_eq hF junk mallocs live format v
  exact ⟨r, hr, hsound.live_eq, fun t ht => (hsound.text_eq t ht).1⟩

theorem print_memory_safe_sample :
    ∃ r, print integers (fun _ _ => 7) (some 1) 0 true sample = some r ∧
      r.live = 0 + (if r.text.isSome then 1 else 0) ∧
      ∀ t, r.text = some t → t = text integers true 0 sample ++ [0] :=
  print_memory_safe integers_lawful _ _ _ _ _

/-- **The two printers agree.** `cJSON_PrintPreallocated` succeeds exactly
if the text that `cJSON_Print` returns leaves two bytes of the buffer, and
then the buffer holds this text. It never writes outside of the buffer. -/
theorem printPreallocated_agrees {F : Doubles D} (hF : F.Lawful) (junk : Junk) (v : Item D)
    {buffer : List UInt8} (hlen : buffer.length ≤ intMax) (format : Bool) :
    ∃ r ok buffer', print F junk none 0 format v = some r ∧
      printPreallocated F junk v buffer format = some (ok, buffer') ∧
      buffer'.length = buffer.length ∧
      (ok = true ↔ ∃ t, r.text = some (t ++ [0]) ∧ t.length + 2 ≤ buffer.length) ∧
      (ok = true → r.text = some (cString buffer' ++ [0])) := by
  obtain ⟨r, hr, hsound⟩ := print_eq hF junk none 0 format v
  obtain ⟨buffer', hlen', hprint, htext⟩ := printPreallocated_eq hF junk v hlen format
  -- What fits the buffer fits any buffer that `print` may need.
  have hprinted : Fits F format buffer.length v → r.text = some (text F format 0 v ++ [0]) := by
    intro hfits
    obtain ⟨t, ht⟩ := Option.isSome_iff_exists.mp
      (hsound.complete rfl ⟨hfits.1.trans hlen, hfits.2⟩)
    rw [ht, (hsound.text_eq t ht).1]
  refine ⟨r, _, buffer', hr, hprint, hlen', ?_, ?_⟩
  · rw [decide_eq_true_iff]
    constructor
    · exact fun hfits => ⟨_, hprinted hfits, hfits.1⟩
    · rintro ⟨t, ht, hle⟩
      obtain ⟨heq, hfits⟩ := hsound.text_eq _ ht
      rw [List.append_left_injective _ heq] at hle
      exact ⟨hle, hfits.2⟩
  · intro hok
    have hfits := of_decide_eq_true hok
    rw [htext hfits, hprinted hfits]

theorem printPreallocated_agrees_sample :
    ∃ r ok buffer', print integers (fun _ _ => 7) none 0 false sample = some r ∧
      printPreallocated integers (fun _ _ => 7) sample (List.replicate 30 7) false =
        some (ok, buffer') ∧
      buffer'.length = 30 ∧
      (ok = true ↔ ∃ t, r.text = some (t ++ [0]) ∧ t.length + 2 ≤ 30) ∧
      (ok = true → r.text = some (cString buffer' ++ [0])) :=
  printPreallocated_agrees integers_lawful _ sample (by decide : (List.replicate 30 7).length ≤ _)
    false

end LinuxMiniProjects.CJson
