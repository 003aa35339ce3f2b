import LinuxMiniProjects.ControlPlane.ReadStage

/-!
The round trip: what `read_stage` makes of the bytes that the two sending
functions produce.

A frame says how long it is, so two streams of frames that are equal as
bytes are equal frame by frame (`frame_append_inj`). A call of the parser
takes a frame off the front of the stream, or waits; by induction over the
calls the messages it delivers are those that were sent. The parser
reuses one buffer for all messages, so what it delivers agrees with what
was sent in the header and in as many bytes of the payload as the header
says, and in nothing else.
-/

namespace LinuxMiniProjects.ControlPlane

open Bytes Socket Machine

/-! ### Frames -/

structure MessageControl.Agrees (m m' : MessageControl) : Prop where
  header : slice m.header 0 headerSize = slice m'.header 0 headerSize
  payload : slice m.message 0 m.length.toNat = slice m'.message 0 m.length.toNat

structure MessageControl.Sound (m : MessageControl) : Prop where
  lengthOk : m.LengthOk
  checksumOk : m.ChecksumOk

theorem sound_buildMessage (payload : List UInt8) (cmd pri : UInt32) (numPacket : UInt64) :
    (buildMessage payload cmd pri numPacket).Sound :=
  ⟨lengthOk_buildMessage payload cmd pri numPacket,
    checksumOk_buildMessage payload cmd pri numPacket⟩

theorem header_eq_of_append_eq {m m' : MessageControl} {U V : List UInt8}
    (h : slice m.header 0 headerSize ++ U = m'.frame ++ V) :
    slice m.header 0 headerSize = slice m'.header 0 headerSize := by
  simp only [MessageControl.frame, List.append_assoc] at h
  exact (List.append_inj h (by simp)).1

theorem frame_append_inj {m m' : MessageControl} {U V : List UInt8}
    (h : m.frame ++ U = m'.frame ++ V) :
    m.Agrees m' ∧ slice m.checksum 0 checksumSize = slice m'.checksum 0 checksumSize ∧ U = V := by
  have hheader : slice m.header 0 headerSize = slice m'.header 0 headerSize :=
    header_eq_of_append_eq (by simpa only [MessageControl.frame, List.append_assoc] using h)
  have hlength := MessageControl.length_congr hheader
  simp only [MessageControl.frame, List.append_assoc, hheader, hlength] at h
  obtain ⟨hpayload, hrest⟩ := List.append_inj (List.append_cancel_left h) (by simp)
  obtain ⟨hchecksum, hU⟩ := List.append_inj hrest (by simp)
  exact ⟨⟨hheader, by rw [hlength, hpayload]⟩, hchecksum, hU⟩

theorem MessageControl.Agrees.lengthOk {m m' : MessageControl} (h : m.Agrees m')
    (hok : m'.LengthOk) : m.LengthOk := by
  rwa [LengthOk, length_congr h.header]

theorem MessageControl.Agrees.checksumOk_iff {m m' : MessageControl} (h : m.Agrees m')
    (hchecksum : slice m.checksum 0 checksumSize = slice m'.checksum 0 checksumSize)
    (hok : m'.LengthOk) : m.ChecksumOk ↔ m'.ChecksumOk := by
  rw [ChecksumOk, ChecksumOk, getLe32_congr hchecksum,
    calculateChecksum_congr (h.lengthOk hok) h.header h.payload]

theorem MessageControl.frame_ne_nil (m : MessageControl) : m.frame ≠ [] := by
  intro h
  have := congrArg List.length h
  rw [length_frame] at this
  simp [headerSize] at this

theorem Inbox.Valid.received_ne_frame {i : Inbox} (h : i.Valid) (m : MessageControl)
    (V : List UInt8) : i.received ≠ m.frame ++ V := by
  intro heq
  have hlen := congrArg List.length heq
  rw [List.length_append, m.length_frame] at hlen
  obtain ⟨stage, message, bytesRead⟩ := i
  cases stage with
  | readHeader =>
      have hlt : bytesRead < headerSize := h
      simp only [Inbox.received, length_slice] at hlen
      omega
  | readPayload =>
      have hheader : slice message.header 0 headerSize = slice m.header 0 headerSize :=
        header_eq_of_append_eq heq
      have hlt : bytesRead < message.length.toNat := h.2
      rw [MessageControl.length_congr hheader] at hlt
      simp only [Inbox.received, List.length_append, length_slice] at hlen
      omega
  | readChecksum =>
      have hheader : slice message.header 0 headerSize = slice m.header 0 headerSize :=
        header_eq_of_append_eq (by simpa only [Inbox.received, List.append_assoc] using heq)
      have hlt : bytesRead < checksumSize := h.2
      simp only [Inbox.received, List.length_append, length_slice,
        MessageControl.length_congr hheader] at hlen
      omega

theorem Inbox.eq_start_of_received_eq_nil {i : Inbox} (h : i.received = []) :
    i.stage = .readHeader ∧ i.bytesRead = 0 := by
  have hlen := congrArg List.length h
  obtain ⟨stage, message, bytesRead⟩ := i
  cases stage with
  | readHeader => exact ⟨rfl, by simpa [Inbox.received] using hlen⟩
  | readPayload | readChecksum => simp [Inbox.received, headerSize] at hlen

/-! ### Calls -/

/-- A call of `read_stage`: what it returns, and the message in the buffer
of the client then. -/
def readCall (s : Client × List Item) (_ : Unit) :
    (ℤ × MessageControl) × (Client × List Item) :=
  let out := readStage s.1 s.2
  ((out.1, out.2.1.inbox.message), out.2)

def delivered (outs : List (ℤ × MessageControl)) : List MessageControl :=
  outs.filterMap fun out => if out.1 = 1 then some out.2 else none

theorem delivered_cons (out : ℤ × MessageControl) (outs : List (ℤ × MessageControl)) :
    delivered (out :: outs) = if out.1 = 1 then out.2 :: delivered outs else delivered outs := by
  unfold delivered
  split <;> simp [*]

structure Expects (s : Client × List Item) (ms : List MessageControl) : Prop where
  opened : s.1.pendingClose = false
  valid : s.1.inbox.Valid
  quiet : Quiet s.2
  stream : s.1.inbox.received ++ bytes s.2 = ms.flatMap MessageControl.frame

theorem Expects.reads {s : Client × List Item} {ms : List MessageControl} (h : Expects s ms) :
    Reads s.1 (ms.flatMap MessageControl.frame) (readStage s.1 s.2) := by
  rw [← h.stream]
  exact (readStage_spec h.opened h.valid h.quiet).1

/-- A call at a frame waits for the rest of it, or takes it and compares the
checksums. -/
theorem Expects.call_cons {s : Client × List Item} {m : MessageControl} {ms : List MessageControl}
    (h : Expects s (m :: ms)) (hok : m.LengthOk) :
    (readCall s ()).1.1 = 0 ∧ Expects (readCall s ()).2 (m :: ms) ∨
    ((readCall s ()).1.1 = 1 ∧ m.ChecksumOk ∨ (readCall s ()).1.1 = 2 ∧ ¬ m.ChecksumOk) ∧
      (readCall s ()).1.2.Agrees m ∧ Expects (readCall s ()).2 ms := by
  have hreads := h.reads
  simp only [readCall]
  generalize readStage s.1 s.2 = out at hreads
  cases hreads with
  | wait valid quiet stream => exact .inl ⟨rfl, h.opened, valid, quiet, stream.symm⟩
  | close stream bad =>
      -- The header is that of a message, so its length is in range.
      rw [List.flatMap_cons] at stream
      refine absurd ?_ bad
      rw [MessageControl.LengthOk, MessageControl.length_congr (header_eq_of_append_eq stream.symm)]
      exact hok
  | @accept i items stage bytesRead lengthOk quiet stream checksum =>
      rw [List.flatMap_cons] at stream
      obtain ⟨hagrees, hchecksum, hrest⟩ := frame_append_inj stream.symm
      refine .inr ⟨.inl ⟨rfl, (hagrees.checksumOk_iff hchecksum hok).mp checksum⟩, hagrees,
        h.opened, ?_, quiet, ?_⟩
      · simp [Inbox.Valid, stage, bytesRead, headerSize]
      · simp [Inbox.received, stage, bytesRead, hrest]
  | @reject i items stage bytesRead lengthOk quiet stream checksum =>
      rw [List.flatMap_cons] at stream
      obtain ⟨hagrees, hchecksum, hrest⟩ := frame_append_inj stream.symm
      refine .inr ⟨.inr ⟨rfl, (hagrees.checksumOk_iff hchecksum hok).not.mp checksum⟩, hagrees,
        h.opened, ?_, quiet, ?_⟩
      · simp [Inbox.Valid, stage, bytesRead, headerSize]
      · simp [Inbox.received, stage, bytesRead, hrest]

theorem Expects.call_nil {s : Client × List Item} (h : Expects s []) :
    (readCall s ()).1.1 = 0 ∧ Expects (readCall s ()).2 [] := by
  have hreads := h.reads
  simp only [readCall]
  generalize readStage s.1 s.2 = out at hreads
  cases hreads with
  | wait valid quiet stream => exact ⟨rfl, h.opened, valid, quiet, stream.symm⟩
  | close stream bad =>
      have hlen := congrArg List.length stream
      simp only [List.flatMap_nil, List.length_nil, List.length_append, length_slice,
        headerSize] at hlen
      omega
  | @accept i items stage bytesRead lengthOk quiet stream checksum
  | @reject i items stage bytesRead lengthOk quiet stream checksum =>
      exact absurd (List.append_eq_nil_iff.mp stream.symm).1 i.message.frame_ne_nil

theorem Expects.call {s : Client × List Item} {ms : List MessageControl} (h : Expects s ms)
    (hms : ∀ m ∈ ms, m.Sound) :
    (readCall s ()).1.1 = 0 ∧ Expects (readCall s ()).2 ms ∨
    ∃ m rest, ms = m :: rest ∧ (readCall s ()).1.1 = 1 ∧ (readCall s ()).1.2.Agrees m ∧
      Expects (readCall s ()).2 rest := by
  cases ms with
  | nil => exact .inl h.call_nil
  | cons m rest =>
      have hsound := hms m List.mem_cons_self
      rcases h.call_cons hsound.lengthOk with hwait | ⟨⟨hret, -⟩ | ⟨-, hbad⟩, hagrees, hrest⟩
      · exact .inl hwait
      · exact .inr ⟨m, rest, rfl, hret, hagrees, hrest⟩
      · exact absurd hsound.checksumOk hbad

theorem Expects.run {s : Client × List Item} {ms : List MessageControl} (h : Expects s ms)
    (hms : ∀ m ∈ ms, m.Sound) (calls : List Unit) :
    ∃ done rest, ms = done ++ rest ∧
      List.Forall₂ MessageControl.Agrees
        (delivered (trace readCall s calls)) done ∧
      (∀ out ∈ trace readCall s calls, out.1 = 0 ∨ out.1 = 1) ∧
      Expects (exec readCall s calls) rest := by
  induction calls generalizing s ms with
  | nil => exact ⟨[], ms, rfl, .nil, by simp [trace], h⟩
  | cons call calls ih =>
      simp only [trace, exec, delivered_cons, List.forall_mem_cons]
      rcases h.call hms with ⟨hret, hnext⟩ | ⟨m, rest, rfl, hret, hagrees, hnext⟩
      · obtain ⟨done, rest, rfl, hdone, hrets, hend⟩ := ih hnext hms
        refine ⟨done, rest, rfl, ?_, ⟨.inl hret, hrets⟩, hend⟩
        rw [if_neg (by rw [hret]; decide)]
        exact hdone
      · obtain ⟨done, rest, rfl, hdone, hrets, hend⟩ :=
          ih hnext fun m hm => hms m (List.mem_cons_of_mem _ hm)
        refine ⟨m :: done, rest, rfl, ?_, ⟨.inr hret, hrets⟩, hend⟩
        rw [if_pos hret]
        exact .cons hagrees hdone

theorem Expects.drain {s : Client × List Item} {ms : List MessageControl} (h : Expects s ms)
    (hms : ∀ m ∈ ms, m.Sound) {calls : List Unit} (hcalls : weight s.2 ≤ calls.length) :
    (exec readCall s calls).2 = [] := by
  induction calls generalizing s ms with
  | nil => exact eq_nil_of_weight_eq_zero (Nat.le_zero.mp hcalls)
  | cons call calls ih =>
      have hless := (readStage_spec h.opened h.valid h.quiet).2
      obtain ⟨ms', hms', hnext⟩ : ∃ ms', (∀ m ∈ ms', m.Sound) ∧ Expects (readCall s ()).2 ms' := by
        rcases h.call hms with ⟨-, hnext⟩ | ⟨m, rest, rfl, -, -, hnext⟩
        · exact ⟨ms, hms, hnext⟩
        · exact ⟨rest, fun m hm => hms m (List.mem_cons_of_mem _ hm), hnext⟩
      refine ih hnext hms' ?_
      rw [List.length_cons] at hcalls
      show weight (readStage s.1 s.2).2.2 ≤ calls.length
      rcases hless with hless | ⟨-, hnil⟩
      · omega
      · simp [hnil, weight]

/-- **The round trip.** Messages of `build_message` are sent by either of
the two functions, and their bytes arrive in any pieces, with `EINTR` and
`EAGAIN` anywhere in between. Then calls of `read_stage`, once there were
enough of them, have returned `1` once for each message, in order, and
otherwise `0`, and the parser is at the start of a frame. -/
theorem control_round_trip {c : Client} {items : List Item} {ms : List MessageControl}
    {wires : List (List UInt8)}
    (hbuilt : ∀ m ∈ ms, ∃ payload cmd pri numPacket, m = buildMessage payload cmd pri numPacket)
    (hsent : List.Forall₂ Serialised ms wires) (hquiet : Quiet items)
    (hbytes : bytes items = wires.flatten) (hopen : c.pendingClose = false)
    (hstage : c.inbox.stage = .readHeader) (hread : c.inbox.bytesRead = 0) :
    ∃ n, ∀ calls : List Unit, n ≤ calls.length →
      List.Forall₂ MessageControl.Agrees
        (delivered (trace readCall (c, items) calls)) ms ∧
      (∀ out ∈ trace readCall (c, items) calls, out.1 = 0 ∨ out.1 = 1) ∧
      (exec readCall (c, items) calls).1.inbox.stage = .readHeader ∧
      (exec readCall (c, items) calls).1.inbox.bytesRead = 0 := by
  have hsound : ∀ m ∈ ms, m.Sound := by
    intro m hm
    obtain ⟨payload, cmd, pri, numPacket, rfl⟩ := hbuilt m hm
    exact sound_buildMessage payload cmd pri numPacket
  have hframes : wires.flatten = ms.flatMap MessageControl.frame := by
    clear hbytes hbuilt
    induction hsent with
    | nil => rfl
    | cons hser _ ih =>
        rw [List.flatten_cons, List.flatMap_cons,
          hser.eq_frame (hsound _ List.mem_cons_self).lengthOk,
          ih fun m hm => hsound m (List.mem_cons_of_mem _ hm)]
  have hexpects : Expects (c, items) ms := by
    refine ⟨hopen, ?_, hquiet, ?_⟩
    · simp [Inbox.Valid, hstage, hread, headerSize]
    · simp [Inbox.received, hstage, hread, hbytes, hframes]
  refine ⟨weight items, fun calls hcalls => ?_⟩
  obtain ⟨done, rest, rfl, hdone, hrets, hend⟩ := hexpects.run hsound calls
  have hnil := hexpects.drain hsound hcalls
  have hstream := hend.stream
  rw [hnil, bytes_nil, List.append_nil] at hstream
  cases rest with
  | nil =>
      rw [List.append_nil]
      exact ⟨hdone, hrets, Inbox.eq_start_of_received_eq_nil hstream⟩
  | cons m rest => exact absurd hstream (hend.valid.received_ne_frame m _)

def drip (bs : List UInt8) : List Item := bs.flatMap fun b => [.eintr, .chunk b [], .eagain]

theorem bytes_drip (bs : List UInt8) : bytes (drip bs) = bs := by
  induction bs with
  | nil => rfl
  | cons b bs ih =>
      show bytes ([.eintr, .chunk b [], .eagain] ++ drip bs) = b :: bs
      rw [bytes_append, ih]
      rfl

theorem quiet_drip (bs : List UInt8) : Quiet (drip bs) := by
  constructor <;> simp [drip]

def twoMessages : List MessageControl :=
  [buildMessage (ascii "on") Command.setStatus.code 2 7, buildMessage [] Command.getStatus.code 0 8]

/-- The first message is sent by `send_framed_message`, the second by two
calls of `send_message_chunk`. -/
theorem control_round_trip_drip :
    ∃ wires, List.Forall₂ Serialised twoMessages wires ∧
      ∃ n, ∀ calls : List Unit, n ≤ calls.length →
        List.Forall₂ MessageControl.Agrees
          (delivered (trace readCall (initClient 1 1, drip wires.flatten) calls)) twoMessages ∧
        (∀ out ∈ trace readCall (initClient 1 1, drip wires.flatten) calls,
          out.1 = 0 ∨ out.1 = 1) ∧
        (exec readCall (initClient 1 1, drip wires.flatten) calls).1.inbox.stage = .readHeader ∧
        (exec readCall (initClient 1 1, drip wires.flatten) calls).1.inbox.bytesRead = 0 := by
  have hfirst : (sendFramedMessage (buildMessage (ascii "on") Command.setStatus.code 2 7)
      [.sent 5, .eintr, .sent 25]).1 = some 0 := by decide +kernel
  have hblocked : (sendMessageChunk ⟨buildMessage [] Command.getStatus.code 0 8, fun _ => 0, 0⟩
      [.sent 3, .eagain]).1 = some 0 := by decide +kernel
  have hlast : (sendMessageChunk (sendMessageChunk
      ⟨buildMessage [] Command.getStatus.code 0 8, fun _ => 0, 0⟩ [.sent 3, .eagain]).2.1
      [.sent 25]).1 = some 1 := by decide +kernel
  refine ⟨_, .cons (.framed hfirst)
    (.cons (.chunks (.blocked hblocked (.finished hlast))) .nil), ?_⟩
  refine control_round_trip ?_ (.cons (.framed hfirst)
    (.cons (.chunks (.blocked hblocked (.finished hlast))) .nil)) (quiet_drip _) (bytes_drip _)
    rfl rfl rfl
  intro m hm
  rcases List.mem_cons.mp hm with rfl | hm
  · exact ⟨_, _, _, _, rfl⟩
  · exact ⟨_, _, _, _, List.mem_singleton.mp hm⟩

end LinuxMiniProjects.ControlPlane
