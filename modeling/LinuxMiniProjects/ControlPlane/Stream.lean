import LinuxMiniProjects.ControlPlane.Framing
import LinuxMiniProjects.ControlPlane.System

/-!
The bytes that a client is sent.

Two threads write to a client. The IO thread sends the messages of the
ring, one after the other, and comes back to a message that the socket did
not take as a whole. The signal thread sends one message of its own
without the lock of the client, and does not come back. The stream is one
of frames as long as they do not come between each other's parts, and as
long as `queue_client` does not drop a message of which a part was sent;
nothing in the code sees to either.

`Outbox` is all that matters for the stream of one client, and
`Outbox.Move` is what the steps of the threads do to it.
-/

namespace LinuxMiniProjects.ControlPlane

open Bytes Socket Machine

def WellFramed (bs : List UInt8) : Prop :=
  ∃ (ms : List MessageControl) (m : MessageControl) (part : List UInt8),
    (∀ m ∈ ms, m.Sound) ∧ m.Sound ∧ bs = ms.flatMap MessageControl.frame ++ part ∧
      part <+: m.frame ∧ part ≠ m.frame

theorem WellFramed.header {bs : List UInt8} (h : WellFramed bs) (hlen : headerSize ≤ bs.length) :
    ∃ m : MessageControl, m.LengthOk ∧ slice m.header 0 headerSize = bs.take headerSize := by
  obtain ⟨ms, m, part, hms, hm, rfl, ⟨rest, hrest⟩, -⟩ := h
  have hfront : ∀ (m : MessageControl) (U : List UInt8),
      (m.frame ++ U).take headerSize = slice m.header 0 headerSize := by
    intro m U
    rw [MessageControl.frame, List.append_assoc, List.append_assoc, List.take_left']
    simp
  cases ms with
  | nil =>
      refine ⟨m, hm.lengthOk, ?_⟩
      have htake := hfront m []
      rw [List.append_nil, ← hrest] at htake
      rw [← htake]
      simp only [List.flatMap_nil, List.nil_append] at hlen ⊢
      exact List.take_append_of_le_length hlen
  | cons m' ms =>
      refine ⟨m', (hms m' (by simp)).lengthOk, ?_⟩
      rw [List.flatMap_cons, List.append_assoc, hfront]

/-! ### The ring -/

def startedBytes (q : RingBuf Outgoing) : ℕ := if q.count = 0 then 0 else q.front.bytesSent

/-- A ring of messages in which only the oldest one has been started. -/
structure SendRing (q : RingBuf Outgoing) : Prop where
  valid : q.Valid numPacketToSend
  entry : ∀ o ∈ q.contents numPacketToSend, o.msg.Sound ∧ o.Valid
  fresh : ∀ o ∈ (q.contents numPacketToSend).tail, o.bytesSent = 0

theorem Outgoing.Valid.of_fresh {o : Outgoing} (h : o.bytesSent = 0) : o.Valid :=
  ⟨by simp [h, total, headerSize], fun h0 => absurd h h0⟩

section Ring

variable {q : RingBuf Outgoing}

theorem SendRing.front (h : SendRing q) (hpos : 0 < q.count) : q.front.msg.Sound ∧ q.front.Valid :=
  h.entry _ (by rw [h.valid.contents_eq_cons hpos]; exact List.mem_cons_self)

theorem SendRing.pop (h : SendRing q) (hpos : 0 < q.count) : SendRing (q.pop numPacketToSend) := by
  have hcons := h.valid.contents_eq_cons hpos
  refine ⟨h.valid.pop hpos, fun o ho => h.entry o ?_, fun o ho => h.fresh o ?_⟩
  · rw [hcons]
    exact List.mem_cons_of_mem _ ho
  · rw [hcons]
    exact List.mem_of_mem_tail ho

theorem SendRing.startedBytes_pop (h : SendRing q) (hpos : 0 < q.count) :
    startedBytes (q.pop numPacketToSend) = 0 := by
  unfold startedBytes
  split
  · rfl
  next hne =>
    have hcons := (h.valid.pop hpos).contents_eq_cons (Nat.pos_of_ne_zero hne)
    refine h.fresh _ ?_
    rw [h.valid.contents_eq_cons hpos, List.tail_cons, hcons]
    exact List.mem_cons_self

theorem SendRing.setFront (h : SendRing q) (hpos : 0 < q.count) {o : Outgoing}
    (ho : o.msg.Sound ∧ o.Valid) : SendRing (q.setFront o) := by
  have hcons := h.valid.contents_eq_cons hpos
  have hset := h.valid.contents_setFront hpos o
  refine ⟨h.valid.setFront o, fun o' ho' => ?_, fun o' ho' => h.fresh o' ?_⟩
  · rw [hset, List.mem_cons] at ho'
    rcases ho' with rfl | ho'
    · exact ho
    · exact h.entry o' (by rw [hcons]; exact List.mem_cons_of_mem _ ho')
  · rw [hset, List.tail_cons] at ho'
    rw [hcons]
    exact ho'

theorem SendRing.push (h : SendRing q) (hlt : q.count < numPacketToSend) {o : Outgoing}
    (ho : o.msg.Sound) (h0 : o.bytesSent = 0) : SendRing (q.push numPacketToSend o) := by
  have hpush := h.valid.contents_push hlt o
  refine ⟨h.valid.push hlt o, fun o' ho' => ?_, fun o' ho' => ?_⟩
  · rw [hpush, List.mem_append, List.mem_singleton] at ho'
    rcases ho' with ho' | rfl
    · exact h.entry o' ho'
    · exact ⟨ho, .of_fresh h0⟩
  · rw [hpush] at ho'
    cases hq : q.contents numPacketToSend with
    | nil => simp [hq] at ho'
    | cons o₁ os =>
        simp only [hq, List.cons_append, List.tail_cons, List.mem_append,
          List.mem_singleton] at ho'
        rcases ho' with ho' | rfl
        · exact h.fresh o' (by rw [hq]; exact ho')
        · exact h0

theorem SendRing.front_push (h : SendRing q) (hpos : 0 < q.count)
    (hlt : q.count < numPacketToSend) (o : Outgoing) :
    (q.push numPacketToSend o).front = q.front := by
  have hpush := (h.valid.push hlt o).contents_eq_cons (Nat.succ_pos _)
  rw [h.valid.contents_push hlt o, h.valid.contents_eq_cons hpos, List.cons_append] at hpush
  exact (List.cons.inj hpush).1.symm

theorem SendRing.front_push_of_empty (h : SendRing q) (hcount : q.count = 0) (o : Outgoing) :
    (q.push numPacketToSend o).front = o := by
  have hlt : q.count < numPacketToSend := by simp [hcount, numPacketToSend]
  have hpush := (h.valid.push hlt o).contents_eq_cons (Nat.succ_pos _)
  rw [h.valid.contents_push hlt o, RingBuf.contents_eq_nil.mpr hcount, List.nil_append] at hpush
  exact (List.cons.inj hpush).1.symm

theorem SendRing.startedBytes_push (h : SendRing q) (hlt : q.count < numPacketToSend)
    {o : Outgoing} (h0 : o.bytesSent = 0) :
    startedBytes (q.push numPacketToSend o) = startedBytes q := by
  have hne : (q.push numPacketToSend o).count ≠ 0 := Nat.succ_ne_zero _
  rw [startedBytes, if_neg hne, startedBytes]
  split
  next hcount => rw [h.front_push_of_empty hcount, h0]
  next hcount => rw [h.front_push (Nat.pos_of_ne_zero hcount) hlt]

/-- What `queue_client` does to the ring. -/
def enterRing (q : RingBuf Outgoing) (m : MessageControl) : RingBuf Outgoing :=
  let q := dropOldest q
  q.push numPacketToSend { q.cells q.head with msg := m, bytesSent := 0 }

/-- `queue_client` does not drop a message of which a part was sent. -/
def DropsNothingStarted (q : RingBuf Outgoing) : Prop :=
  q.count = numPacketToSend → q.front.bytesSent = 0

theorem SendRing.enter (h : SendRing q) (hdrop : DropsNothingStarted q) {m : MessageControl}
    (hm : m.Sound) :
    SendRing (enterRing q m) ∧ startedBytes (enterRing q m) = startedBytes q ∧
      (0 < startedBytes q → (enterRing q m).front = q.front) := by
  unfold enterRing dropOldest
  by_cases hfull : q.count = numPacketToSend
  · have hpos : 0 < q.count := by simp [hfull, numPacketToSend]
    have hlt : (q.pop numPacketToSend).count < numPacketToSend := by
      show q.count - 1 < numPacketToSend
      omega
    have hzero : startedBytes q = 0 := by
      rw [startedBytes, if_neg hpos.ne', hdrop hfull]
    rw [if_pos hfull]
    refine ⟨(h.pop hpos).push hlt hm rfl, ?_, fun hstarted => ?_⟩
    · rw [(h.pop hpos).startedBytes_push hlt rfl, h.startedBytes_pop hpos, hzero]
    · omega
  · have hlt : q.count < numPacketToSend := lt_of_le_of_ne h.valid.count hfull
    rw [if_neg hfull]
    refine ⟨h.push hlt hm rfl, h.startedBytes_push hlt rfl, fun hstarted => ?_⟩
    refine h.front_push (Nat.pos_of_ne_zero fun hcount => ?_) hlt _
    simp [startedBytes, hcount] at hstarted

end Ring

/-! ### The outgoing side of a client -/

def shutdownWire : List UInt8 := framedWire serverShuttingDown

/-- The signal thread has sent `n` bytes, and that is a part of its
message. -/
def FarewellOpen (n : ℕ) : Prop := 0 < n ∧ n < shutdownWire.length

instance (n : ℕ) : Decidable (FarewellOpen n) := inferInstanceAs (Decidable (_ ∧ _))

def farewellPart (n : ℕ) : List UInt8 :=
  if n < shutdownWire.length then shutdownWire.take n else []

theorem farewellPart_eq_nil {n : ℕ} (h : ¬ FarewellOpen n) : farewellPart n = [] := by
  unfold farewellPart
  split
  next hlt =>
    have h0 : n = 0 := by
      by_contra hne
      exact h ⟨Nat.pos_of_ne_zero hne, hlt⟩
    rw [h0, List.take_zero]
  next => rfl

theorem shutdownWire_eq : shutdownWire = serverShuttingDown.frame :=
  framedWire_eq_frame (lengthOk_buildMessage _ _ _ _)

/-- The outgoing side of a client: its ring, how far the IO thread is with
the oldest message if it is in `send_message_chunk`, the bytes that were
accepted, and how many of them are of the signal thread. -/
structure Outbox where
  queue : RingBuf Outgoing
  offset : Option ℕ
  sent : List UInt8
  farewell : ℕ

namespace Outbox

def progress (b : Outbox) : ℕ := b.offset.getD (startedBytes b.queue)

/-- A `send` in the loop of `send_message_chunk`. -/
def chunk (b : Outbox) (offset : ℕ) (res : SendRes) : Outbox :=
  let o := b.queue.front
  let sent := b.sent ++ slice o.wireBuf offset (res.accepted (o.total - offset))
  match chunkTurn o.total offset res with
  | .again offset => { b with sent, offset := some offset }
  | .blocked offset =>
      { b with sent, queue := b.queue.setFront { o with bytesSent := offset }, offset := none }
  | .failed | .finished => { b with sent, queue := b.queue.pop numPacketToSend, offset := none }

def sayFarewell (b : Outbox) (n : ℕ) : Outbox :=
  { b with
    sent := b.sent ++ (shutdownWire.drop b.farewell).take n
    farewell := b.farewell + n }

/-- What happens to the outgoing side of a client, if nothing goes
wrong. -/
inductive Move (b : Outbox) : Outbox → Prop
  | stay : b.Move b
  | accept {connectionId generation} :
      b.Move ⟨(initClient connectionId generation).sendQueue, none, [], 0⟩
  | queue {m} (idle : b.offset = none) (sound : m.Sound) (drop : DropsNothingStarted b.queue) :
      b.Move { b with queue := enterRing b.queue m }
  | start (idle : b.offset = none) (pos : 0 < b.queue.count) :
      b.Move { b with
        queue := b.queue.setFront b.queue.front.prepare
        offset := some b.queue.front.bytesSent }
  | sent {offset n} (loop : b.offset = some offset) (pos : 0 < n)
      (alone : ¬ FarewellOpen b.farewell) :
      b.Move (b.chunk offset (.sent n))
  | eintr {offset} (loop : b.offset = some offset) : b.Move (b.chunk offset .eintr)
  | eagain {offset} (loop : b.offset = some offset) : b.Move (b.chunk offset .eagain)
  | farewell {n} (le : b.farewell + n ≤ shutdownWire.length) (alone : n = 0 ∨ b.progress = 0) :
      b.Move (b.sayFarewell n)

/-- In the loop of `send_message_chunk` the copy for the wire is there, and
something remains to be sent. -/
def LoopOk (b : Outbox) : Prop :=
  ∀ offset, b.offset = some offset → 0 < b.queue.count ∧ offset < b.queue.front.total ∧
    slice b.queue.front.wireBuf 0 b.queue.front.total = b.queue.front.msg.frame

/-- What was sent are frames, then a part of the oldest message or a part of
the message of the signal thread. -/
structure Inv (b : Outbox) : Prop where
  ring : SendRing b.queue
  loop : b.LoopOk
  apart : b.progress = 0 ∨ ¬ FarewellOpen b.farewell
  stream : ∃ ms : List MessageControl, (∀ m ∈ ms, m.Sound) ∧
    b.sent = ms.flatMap MessageControl.frame ++
      (b.queue.front.msg.frame.take b.progress ++ farewellPart b.farewell)

variable {b b' : Outbox}

theorem Inv.progress_lt (h : b.Inv) (hpos : 0 < b.progress) :
    b.queue.front.msg.Sound ∧ b.progress < b.queue.front.msg.frame.length := by
  rw [MessageControl.length_frame, ← Outgoing.total]
  unfold progress at hpos ⊢
  cases hoff : b.offset with
  | none =>
      simp only [hoff, Option.getD_none, startedBytes] at hpos ⊢
      split at hpos
      next => omega
      next hcount =>
        rw [if_neg hcount]
        have hfront := h.ring.front (Nat.pos_of_ne_zero hcount)
        exact ⟨hfront.1, hfront.2.lt⟩
  | some offset =>
      obtain ⟨hcount, hlt, -⟩ := h.loop offset hoff
      exact ⟨(h.ring.front hcount).1, hlt⟩

theorem Inv.wellFramed (h : b.Inv) : WellFramed b.sent := by
  obtain ⟨ms, hms, hsent⟩ := h.stream
  by_cases hpos : 0 < b.progress
  · have hopen : ¬ FarewellOpen b.farewell := h.apart.resolve_left hpos.ne'
    obtain ⟨hsound, hlt⟩ := h.progress_lt hpos
    refine ⟨ms, b.queue.front.msg, b.queue.front.msg.frame.take b.progress, hms, hsound, ?_,
      List.take_prefix _ _, fun heq => ?_⟩
    · rw [hsent, farewellPart_eq_nil hopen, List.append_nil]
    · have hlength := congrArg List.length heq
      rw [List.length_take] at hlength
      omega
  · have hzero : b.progress = 0 := by omega
    refine ⟨ms, serverShuttingDown, farewellPart b.farewell, hms, sound_buildMessage _ _ _ _,
      ?_, ?_, ?_⟩
    · rw [hsent, hzero, List.take_zero, List.nil_append]
    · unfold farewellPart
      rw [← shutdownWire_eq]
      split
      · exact List.take_prefix _ _
      · exact List.nil_prefix
    · rw [← shutdownWire_eq]
      intro heq
      have hlength := congrArg List.length heq
      unfold farewellPart at hlength
      split at hlength
      next hlt =>
        rw [List.length_take] at hlength
        omega
      next =>
        have : shutdownWire.length ≠ 0 := by
          rw [shutdownWire_eq, MessageControl.length_frame]
          simp [headerSize]
        exact this hlength.symm

/-- The invariant when no byte is sent and the message that is being sent
remains. -/
theorem Inv.keep (h : b.Inv) (hring : SendRing b'.queue) (hloop : b'.LoopOk)
    (hsent : b'.sent = b.sent) (hfarewell : b'.farewell = b.farewell)
    (hprogress : b'.progress = b.progress)
    (hmsg : 0 < b.progress → b'.queue.front.msg = b.queue.front.msg) : b'.Inv := by
  obtain ⟨ms, hms, hstream⟩ := h.stream
  refine ⟨hring, hloop, ?_, ms, hms, ?_⟩
  · rw [hprogress, hfarewell]
    exact h.apart
  · rw [hsent, hstream, hprogress, hfarewell]
    by_cases hpos : 0 < b.progress
    · rw [hmsg hpos]
    · rw [Nat.eq_zero_of_not_pos hpos, List.take_zero, List.take_zero]

theorem LoopOk.of_idle (h : b.offset = none) : b.LoopOk := by
  intro offset hoff
  rw [h] at hoff
  cases hoff

theorem progress_of_idle (h : b.offset = none) : b.progress = startedBytes b.queue := by
  rw [progress, h, Option.getD_none]

theorem progress_of_loop {offset : ℕ} (h : b.offset = some offset) : b.progress = offset := by
  rw [progress, h, Option.getD_some]

theorem Inv.accept {connectionId generation : UInt64} :
    Inv ⟨(initClient connectionId generation).sendQueue, none, [], 0⟩ := by
  refine ⟨⟨⟨rfl, by simp [initClient, numPacketToSend], Nat.zero_le _⟩, ?_, ?_⟩, .of_idle rfl,
    .inl rfl, [], by simp, ?_⟩
  · intro o ho
    cases ho
  · intro o ho
    cases ho
  · simp [progress, startedBytes, initClient, farewellPart]

theorem Inv.queue (h : b.Inv) {m : MessageControl} (hidle : b.offset = none) (hm : m.Sound)
    (hdrop : DropsNothingStarted b.queue) :
    ({ b with queue := enterRing b.queue m } : Outbox).Inv := by
  obtain ⟨hring, hstarted, hfront⟩ := h.ring.enter hdrop hm
  refine h.keep hring (.of_idle hidle) rfl rfl ?_ fun hpos => ?_
  · rw [progress_of_idle hidle, ← hstarted]
    exact progress_of_idle hidle
  · rw [progress_of_idle hidle] at hpos
    exact congrArg Outgoing.msg (hfront hpos)

theorem Inv.start (h : b.Inv) (hidle : b.offset = none) (hpos : 0 < b.queue.count) :
    ({ b with
      queue := b.queue.setFront b.queue.front.prepare
      offset := some b.queue.front.bytesSent } : Outbox).Inv := by
  have hfront := h.ring.front hpos
  have hset : (b.queue.setFront b.queue.front.prepare).front = b.queue.front.prepare :=
    Function.update_self ..
  have hprepared := hfront.2.slice_prepare
  refine h.keep (h.ring.setFront hpos ⟨?_, ?_, fun _ => ?_⟩) ?_ rfl rfl ?_ fun _ => ?_
  · simpa using hfront.1
  · simpa using hfront.2.lt
  · simpa using hprepared
  · intro offset hoff
    obtain rfl : b.queue.front.bytesSent = offset := Option.some.inj hoff
    refine ⟨hpos, ?_, ?_⟩
    · rw [hset, Outgoing.prepare_total]
      exact hfront.2.lt
    · rw [hset, hprepared, Outgoing.prepare_msg]
  · rw [progress_of_idle hidle, startedBytes, if_neg hpos.ne']
    rfl
  · rw [hset, Outgoing.prepare_msg]

theorem Inv.eintr (h : b.Inv) {offset : ℕ} (hloop : b.offset = some offset) :
    (b.chunk offset .eintr).Inv := by
  have hchunk : b.chunk offset .eintr = b := by
    simp only [chunk, chunkTurn, SendRes.accepted, slice_zero, List.append_nil, ← hloop]
  rw [hchunk]
  exact h

theorem Inv.eagain (h : b.Inv) {offset : ℕ} (hloop : b.offset = some offset) :
    (b.chunk offset .eagain).Inv := by
  obtain ⟨hpos, hlt, hcopy⟩ := h.loop offset hloop
  have hset : (b.queue.setFront { b.queue.front with bytesSent := offset }).front =
      { b.queue.front with bytesSent := offset } := Function.update_self ..
  refine h.keep (h.ring.setFront hpos ⟨(h.ring.front hpos).1, hlt, fun _ => hcopy⟩)
    (.of_idle rfl) (by simp [chunk, chunkTurn, SendRes.accepted]) rfl ?_ fun _ => ?_
  · rw [progress_of_loop hloop]
    show startedBytes (b.queue.setFront { b.queue.front with bytesSent := offset }) = offset
    rw [startedBytes, if_neg (show (b.queue.setFront _).count ≠ 0 from hpos.ne'), hset]
  · show (b.queue.setFront { b.queue.front with bytesSent := offset }).front.msg = _
    rw [hset]

theorem Inv.sent (h : b.Inv) {offset n : ℕ} (hloop : b.offset = some offset) (hn : 0 < n)
    (halone : ¬ FarewellOpen b.farewell) : (b.chunk offset (.sent n)).Inv := by
  obtain ⟨hpos, hlt, hcopy⟩ := h.loop offset hloop
  obtain ⟨ms, hms, hstream⟩ := h.stream
  have hlength : b.queue.front.msg.frame.length = b.queue.front.total := by
    rw [MessageControl.length_frame, Outgoing.total]
  rw [progress_of_loop hloop, farewellPart_eq_nil halone, List.append_nil] at hstream
  -- what is sent is the next part of the frame
  have hslice : ∀ k, offset + k ≤ b.queue.front.total →
      b.queue.front.msg.frame.take offset ++ slice b.queue.front.wireBuf offset k =
        b.queue.front.msg.frame.take (offset + k) := by
    intro k hk
    rw [slice_eq_take_drop _ hk, hcopy, List.take_add]
  simp only [chunk, chunkTurn, SendRes.accepted]
  generalize hsent : min n (b.queue.front.total - offset) = sent
  have hne : sent ≠ 0 := by omega
  by_cases hmore : offset + sent < b.queue.front.total
  · -- the loop goes on with the rest of the message
    simp only [hne, hmore, if_false, if_true]
    refine ⟨h.ring, fun offset' hoff => ?_, .inr halone, ms, hms, ?_⟩
    · obtain rfl : offset + sent = offset' := Option.some.inj hoff
      exact ⟨hpos, hmore, hcopy⟩
    · rw [farewellPart_eq_nil halone, List.append_nil, hstream, List.append_assoc,
        hslice sent hmore.le]
      rfl
  · -- the message is complete and leaves the ring
    simp only [hne, hmore, if_false]
    have hall : offset + sent = b.queue.front.total := by omega
    refine ⟨h.ring.pop hpos, .of_idle rfl, .inr halone, ms ++ [b.queue.front.msg], ?_, ?_⟩
    · exact List.forall_mem_append.mpr
        ⟨hms, List.forall_mem_singleton.mpr (h.ring.front hpos).1⟩
    · rw [farewellPart_eq_nil halone, List.append_nil, progress_of_idle rfl,
        h.ring.startedBytes_pop hpos, List.take_zero, List.append_nil, hstream, List.append_assoc,
        hslice sent hall.le, hall, ← hlength, List.take_length]
      simp

theorem Inv.farewell (h : b.Inv) {n : ℕ} (hle : b.farewell + n ≤ shutdownWire.length)
    (halone : n = 0 ∨ b.progress = 0) : (b.sayFarewell n).Inv := by
  by_cases hn : n = 0
  · have hsame : b.sayFarewell n = b := by
      simp [sayFarewell, hn]
    rw [hsame]
    exact h
  replace halone : b.progress = 0 := halone.resolve_left hn
  obtain ⟨ms, hms, hstream⟩ := h.stream
  rw [halone, List.take_zero, List.nil_append] at hstream
  have hpart : farewellPart b.farewell = shutdownWire.take b.farewell := if_pos (by omega)
  have hfarewell : (b.sayFarewell n).farewell = b.farewell + n := rfl
  have hsent : (b.sayFarewell n).sent =
      ms.flatMap MessageControl.frame ++ shutdownWire.take (b.farewell + n) := by
    rw [sayFarewell, hstream, hpart, List.append_assoc, ← List.take_add]
  by_cases hmore : b.farewell + n < shutdownWire.length
  · refine ⟨h.ring, h.loop, .inl halone, ms, hms, ?_⟩
    rw [hsent, show (b.sayFarewell n).progress = 0 from halone, List.take_zero, List.nil_append,
      hfarewell, farewellPart, if_pos hmore]
  · refine ⟨h.ring, h.loop, .inl halone, ms ++ [serverShuttingDown], ?_, ?_⟩
    · exact List.forall_mem_append.mpr
        ⟨hms, List.forall_mem_singleton.mpr (sound_buildMessage _ _ _ _)⟩
    · rw [hsent, show (b.sayFarewell n).progress = 0 from halone, List.take_zero, List.nil_append,
        hfarewell, farewellPart, if_neg hmore, List.take_of_length_le (by omega), shutdownWire_eq]
      simp

theorem Inv.move (h : b.Inv) (hmove : b.Move b') : b'.Inv := by
  cases hmove with
  | stay => exact h
  | accept => exact .accept
  | queue idle sound drop => exact h.queue idle sound drop
  | start idle pos => exact h.start idle pos
  | sent loop pos alone => exact h.sent loop pos alone
  | eintr loop => exact h.eintr loop
  | eagain loop => exact h.eagain loop
  | farewell le alone => exact h.farewell le alone

end Outbox

/-! ### The steps of the threads -/

def IoPc.offset (fd : ℕ) : IoPc → Option ℕ
  | sending _ fd' offset _ => if fd' = fd then some offset else none
  | _ => none

def SigPc.client : SigPc → Option ℕ
  | sending fd _ => some fd
  | _ => none

def Sys.outbox (s : Sys) (fd : ℕ) : Outbox :=
  ⟨(s.clients fd).sendQueue, s.io.offset fd, s.sent fd, s.farewell fd⟩

/-- The next step of `process_task` queues a reply. -/
def TaskStage.queues (m : MessageControl) : TaskStage → Bool
  | acting =>
      match Command.ofCode m.cmd with
      | some .getStatus | some .setStatus | some .getData | some .getConfig | some .setConfig
      | some .sendControl => true
      | some .identify => tokenLength m == 0
      | _ => false
  | denied | replying _ _ => true
  | _ => false

/-- The client on which a step calls `queue_client`. -/
def Sys.queuesOn (s : Sys) : Label → Option ℕ
  | .io .next =>
      match s.io with
      | .nacking fd _ => some fd
      | .busy task _ => some task.fd
      | _ => none
  | .process w =>
      match s.sched.worker w with
      | .busy task => if (s.stage w).queues task.message then some task.fd else none
      | _ => none
  | _ => none

/-- A `send` did not fail, and if it sent something then `alone` held. -/
def SendFine (alone : Prop) : SendRes → Prop
  | .sent n => 0 < n ∧ alone
  | .eintr | .eagain => True
  | .error => False

instance (alone : Prop) [Decidable alone] : (res : SendRes) → Decidable (SendFine alone res)
  | .sent _ => inferInstanceAs (Decidable (_ ∧ _))
  | .eintr | .eagain => instDecidableTrue
  | .error => instDecidableFalse

def Label.ioSend : Label → Option SendRes
  | .io (.send res) => some res
  | _ => none

def Label.sigSend : Label → Option SendRes
  | .sig (.send res) => some res
  | _ => none

/-- A step leaves the stream of a client alone: `queue_client` does not drop
a message of which a part was sent, no `send` fails, the IO thread sends
when the signal thread has sent none or all of its message, and the signal
thread sends when no message of the ring was sent in part. -/
def Sys.Undisturbed (fd : ℕ) (s : Sys) (l : Label) : Prop :=
  (s.queuesOn l = some fd → DropsNothingStarted (s.clients fd).sendQueue) ∧
  ((s.io.offset fd).isSome = true →
    ∀ res ∈ l.ioSend, SendFine (¬ FarewellOpen (s.farewell fd)) res) ∧
  (s.sig.client = some fd → ∀ res ∈ l.sigSend, SendFine ((s.outbox fd).progress = 0) res)

instance (q : RingBuf Outgoing) : Decidable (DropsNothingStarted q) :=
  inferInstanceAs (Decidable (_ → _))

instance (fd : ℕ) (s : Sys) (l : Label) : Decidable (s.Undisturbed fd l) :=
  inferInstanceAs (Decidable (_ ∧ _ ∧ _))

/-! ### The signal thread and its account -/

def SigPc.before (fd : ℕ) : SigPc → Prop
  | idle => True
  | next fd' => fd' ≤ fd
  | sending fd' _ => fd' < fd
  | _ => False

/-- What the signal thread has sent. A connection to which it is sending is
not closed, because `server_lock` is taken. -/
structure Sys.Farewells (s : Sys) : Prop where
  exclusive : s.io.locksServer = true → s.sig.locksServer = false
  unsaid : ∀ fd, s.sig.before fd → s.farewell fd = 0
  saying : ∀ fd sentTotal, s.sig = .sending fd sentTotal → s.farewell fd = sentTotal ∧
    sentTotal < shutdownWire.length ∧ (0 < sentTotal → s.isOpen fd = true)

section Farewells

variable {s s' : Sys}

theorem Sys.Farewells.init : Sys.init.Farewells where
  exclusive := by simp [Sys.init, IoPc.locksServer]
  unsaid fd _ := rfl
  saying fd sentTotal h := by cases h

theorem Sys.Farewells.of_eq (h : s.Farewells) (hsig : s'.sig = s.sig)
    (hlock : s'.io.locksServer = true → s.sig.locksServer = false)
    (hfarewell : s'.farewell = s.farewell) (hopen : s'.isOpen = s.isOpen) : s'.Farewells where
  exclusive := by rwa [hsig]
  unsaid := by
    rw [hsig, hfarewell]
    exact h.unsaid
  saying := by
    rw [hsig, hfarewell, hopen]
    exact h.saying

theorem Sys.Farewells.accept (h : s.Farewells) {events rest : List EpollEvent} {fd : ℕ}
    {registered : Bool} (hpc : s.io = .accepting events rest) (hclosed : s.isOpen fd = false) :
    (s.accept fd registered).Farewells := by
  unfold Sys.accept
  split
  · exact h
  · refine ⟨?_, fun fd' hbefore => ?_, fun fd' sentTotal hsig => ?_⟩
    · simp [Sys.setClient, hpc, IoPc.locksServer]
    · by_cases hfd : fd' = fd
      · subst hfd
        exact Function.update_self ..
      · exact (Function.update_of_ne hfd _ _).trans (h.unsaid fd' hbefore)
    · obtain ⟨hsaid, hlt, hopen⟩ := h.saying fd' sentTotal hsig
      by_cases hfd : fd' = fd
      · -- the descriptor was closed, so that nothing was sent
        subst hfd
        have h0 : sentTotal = 0 := by
          by_contra hne
          have := hopen (Nat.pos_of_ne_zero hne)
          simp [hclosed] at this
        subst h0
        exact ⟨Function.update_self .., hlt, fun hpos => absurd hpos (lt_irrefl 0)⟩
      · exact ⟨(Function.update_of_ne hfd _ _).trans hsaid, hlt, fun hpos =>
          (Function.update_of_ne hfd _ _).trans (hopen hpos)⟩

theorem Sys.Farewells.silent (h : s.Farewells) (hio : s'.io = s.io)
    (hlock : s'.sig.locksServer = true → s.io.locksServer = false)
    (hbefore : ∀ fd, s'.sig.before fd → s.sig.before fd)
    (hsaying : ∀ fd sentTotal, s'.sig = .sending fd sentTotal → sentTotal = 0 ∧ s.sig.before fd)
    (hfarewell : s'.farewell = s.farewell) : s'.Farewells where
  exclusive := by
    intro hlocked
    rw [hio] at hlocked
    by_contra hsig
    rw [hlock (by simpa using hsig)] at hlocked
    cases hlocked
  unsaid fd hfd := by
    rw [hfarewell]
    exact h.unsaid fd (hbefore fd hfd)
  saying fd sentTotal hsig := by
    obtain ⟨rfl, hfd⟩ := hsaying fd sentTotal hsig
    rw [hfarewell]
    exact ⟨h.unsaid fd hfd, by decide +kernel, fun hpos => absurd hpos (lt_irrefl 0)⟩

theorem framedTurn_again {size sentTotal k : ℕ} {res : SendRes} (hlt : sentTotal < size)
    (h : framedTurn size sentTotal res = .again k) :
    k = sentTotal + res.accepted (size - sentTotal) ∧ k < size := by
  cases res with
  | sent n =>
      simp only [framedTurn] at h
      split at h
      next => cases h
      next =>
        split at h
        next hmore =>
          cases h
          exact ⟨rfl, hmore⟩
        next => cases h
  | eintr =>
      cases h
      exact ⟨rfl, hlt⟩
  | eagain => cases h
  | error => cases h

theorem Sys.Farewells.sendFarewell (h : s.Farewells) {fd sentTotal : ℕ} {res : SendRes}
    (hpc : s.sig = .sending fd sentTotal) (hok : sendOk (s.isOpen fd) res = true) :
    (s.sendFarewell fd sentTotal res).Farewells := by
  obtain ⟨hsaid, hlt, hopen⟩ := h.saying fd sentTotal hpc
  have hfree : s.io.locksServer = true → False := by
    intro hlocked
    have := h.exclusive hlocked
    simp [hpc, SigPc.locksServer] at this
  have hlater : ∀ fd', fd < fd' → ∀ n, Function.update s.farewell fd n fd' = 0 := by
    intro fd' hfd n
    rw [Function.update_of_ne hfd.ne']
    exact h.unsaid fd' (by rw [hpc]; exact hfd)
  unfold Sys.sendFarewell
  dsimp only
  split
  next k hturn =>
    obtain ⟨rfl, hk⟩ := framedTurn_again hlt hturn
    refine ⟨fun hlocked => (hfree hlocked).elim, fun fd' hfd => hlater fd' hfd _, ?_⟩
    intro fd' st hsig
    obtain ⟨rfl, rfl⟩ := SigPc.sending.inj hsig
    refine ⟨?_, hk, fun hpos => ?_⟩
    · exact (Function.update_self ..).trans (congrArg (· + _) hsaid)
    · cases res with
      | sent n => exact hok
      | eintr => exact hok
      | eagain => exact hok
      | error => exact hopen (by simpa [SendRes.accepted] using hpos)
  next hturn =>
    refine ⟨fun hlocked => (hfree hlocked).elim, fun fd' hfd => hlater fd' hfd _, ?_⟩
    intro fd' st hsig
    cases hsig

theorem Sys.Farewells.reapClose (h : s.Farewells) {fd : ℕ} (hpc : s.io = .closing fd) :
    (s.reapClose fd).Farewells := by
  have hfree : s.sig.locksServer = false := h.exclusive (by rw [hpc]; rfl)
  refine ⟨fun _ => hfree, h.unsaid, fun fd' sentTotal hsig => ?_⟩
  rw [show s.sig = .sending fd' sentTotal from hsig] at hfree
  cases hfree

theorem Sys.Farewells.ioStep (h : s.Farewells) {l : IoLabel} (hs : s.IoStep l s') :
    s'.Farewells := by
  have hkeep : ∀ io : IoPc, (io.locksServer = true → s.sig.locksServer = false) →
      (s.goto io).Farewells := fun io hlock => h.of_eq rfl hlock rfl rfl
  have hheld : s.io.locksServer = true → ∀ io : IoPc, (s.goto io).Farewells :=
    fun hlocked io => hkeep io fun _ => h.exclusive hlocked
  cases hs with
  | top pc free => exact hkeep _ fun _ => free
  | polled pc free | readLock pc free | reapLock pc free => exact hkeep _ fun _ => free
  | @dispatch events e rest pc =>
      obtain ⟨io, hio, heq⟩ | ⟨fd, mark, io, -, hio, heq⟩ := s.dispatch_cases events e rest
      · rw [heq]
        rcases hio with rfl | rfl <;> exact hkeep _ (by simp [IoPc.locksServer])
      · rw [heq]
        refine h.of_eq rfl ?_ rfl rfl
        rcases hio with rfl | rfl <;> simp [Sys.goto, IoPc.locksServer]
  | accept pc closed => exact h.accept pc closed
  | writable pc =>
      unfold Sys.writable
      dsimp only
      split
      · exact hkeep _ (by simp [IoPc.locksServer])
      · exact h.of_eq rfl (by simp [Sys.goto, IoPc.locksServer]) rfl rfl
  | @sendChunk events fd offset rest res pc ok =>
      obtain ⟨bs, k, heq⟩ | ⟨bs, c, heq⟩ := s.sendChunk_cases events fd offset rest res
      · rw [heq]
        exact h.of_eq rfl (by simp [Sys.goto, IoPc.locksServer]) rfl rfl
      · rw [heq]
        exact h.of_eq rfl (by simp [Sys.goto, IoPc.locksServer]) rfl rfl
  | @readable e rest pc =>
      obtain ⟨io, -, heq⟩ := s.readable_goto e rest
      rw [heq]
      exact hheld (by rw [pc]; rfl) _
  | enqueue pc eq =>
      have hlocked : s.io.locksServer = true := by rw [pc]; rfl
      obtain ⟨sched, io, -, rfl⟩ := Sys.enqueue_cases eq
      exact h.of_eq rfl (fun _ => h.exclusive hlocked) rfl rfl
  | recv pc | nack pc | refused pc | busy pc =>
      exact h.of_eq rfl (fun _ => h.exclusive (by rw [pc]; rfl)) rfl rfl
  | @reapCheck fd pc marked =>
      obtain ⟨io, -, heq⟩ := s.reapCheck_goto fd
      rw [heq]
      exact hheld (by rw [pc]; rfl) _
  | reapClose pc => exact h.reapClose pc
  | readClosing pc | scan pc | reaped pc => exact hheld (by rw [pc]; rfl) _
  | timeout pc | poll pc | pollEintr pc | pollError pc | dispatched pc | acceptNone pc
  | readDone pc =>
      exact hkeep _ (by simp [IoPc.locksServer])

theorem Sys.Farewells.step (h : s.Farewells) {l : Label} (hs : s.Step l s') : s'.Farewells := by
  cases hs with
  | io step => exact h.ioStep step
  | lock start | wake waiting => exact h.of_eq rfl h.exclusive rfl rfl
  | @process w task busy free =>
      obtain ⟨hio, hsig, hopen, hfarewell, -⟩ := (s.process_inv w task).frame
      exact h.of_eq hsig (by rw [hio]; exact h.exclusive) hfarewell hopen
  | sig step =>
      have hfree : s.sig.locksServer = true → s.io.locksServer = false := by
        intro hlocked
        by_contra hio
        rw [h.exclusive (by simpa using hio)] at hlocked
        cases hlocked
      cases step with
      | start pc free =>
          refine h.silent rfl (fun _ => free) (fun fd _ => ?_) (fun fd st hsig => ?_) rfl
          · rw [pc]
            trivial
          · cases hsig
      | scan pc lt =>
          refine h.silent rfl (fun _ => ?_) (fun fd hbefore => ?_) (fun fd st hsig => ?_) rfl
          · exact hfree (by rw [pc]; rfl)
          · rw [pc]
            exact lt.le.trans hbefore
          · cases hsig
      | flag pc | broadcast pc =>
          refine h.silent rfl (fun hlocked => ?_) (fun fd hbefore => ?_) (fun fd st hsig => ?_) rfl
          · cases hlocked
          · cases hbefore
          · cases hsig
      | @send fd pc on =>
          refine h.silent rfl (fun _ => ?_) (fun fd hbefore => ?_) (fun fd st hsig => ?_) rfl
          · exact hfree (by rw [pc]; rfl)
          · rw [pc]
            exact hbefore.le
          · obtain ⟨rfl, rfl⟩ := SigPc.sending.inj hsig
            exact ⟨rfl, by rw [pc]; exact le_rfl⟩
      | sendFarewell pc ok => exact h.sendFarewell pc ok

end Farewells

/-! ### Every step is a move -/

section Moves

variable {s s' : Sys} {fd : ℕ}

theorem Sys.move_of_eq (h : s'.outbox fd = s.outbox fd) : (s.outbox fd).Move (s'.outbox fd) :=
  h ▸ .stay

theorem Sys.sendQueue_setClient {fd' : ℕ} {c : Client}
    (h : c.sendQueue = (s.clients fd').sendQueue) (fd : ℕ) :
    ((s.setClient fd' c).clients fd).sendQueue = (s.clients fd).sendQueue := by
  by_cases hfd : fd = fd'
  · subst hfd
    rw [← h]
    exact congrArg Client.sendQueue (Function.update_self ..)
  · exact congrArg Client.sendQueue (Function.update_of_ne hfd _ _)

theorem Sys.outbox_goto_setClient {fd' : ℕ} {c : Client} {io : IoPc}
    (h : c.sendQueue = (s.clients fd').sendQueue) (hidle : s.io.offset fd = none)
    (hio : io.offset fd = none) : ((s.setClient fd' c).goto io).outbox fd = s.outbox fd := by
  simp only [Sys.outbox, Outbox.mk.injEq]
  exact ⟨Sys.sendQueue_setClient h fd, hio.trans hidle.symm, rfl, rfl⟩

theorem Sys.outbox_goto {io : IoPc} (hidle : s.io.offset fd = none) (hio : io.offset fd = none) :
    (s.goto io).outbox fd = s.outbox fd := by
  simp only [Sys.outbox, Sys.goto, hidle, hio]

theorem Sys.move_queue {fd' : ℕ} {c : Client} {m : MessageControl}
    (hclients : s'.clients = Function.update s.clients fd' c)
    (hqueue : c.sendQueue = enterRing (s.clients fd').sendQueue m)
    (hio : s'.io.offset fd = s.io.offset fd) (hsent : s'.sent = s.sent)
    (hfarewell : s'.farewell = s.farewell) (hm : m.Sound)
    (hidle : fd' = fd → s.io.offset fd = none)
    (hdrop : fd' = fd → DropsNothingStarted (s.clients fd).sendQueue) :
    (s.outbox fd).Move (s'.outbox fd) := by
  by_cases hfd : fd' = fd
  · have hmove : (s.outbox fd).Move { s.outbox fd with queue := enterRing _ m } :=
      .queue (hidle hfd) hm (hdrop hfd)
    have heq : s'.outbox fd = { s.outbox fd with queue := enterRing (s.outbox fd).queue m } := by
      subst hfd
      simp only [Sys.outbox, hclients, hio, hsent, hfarewell, Function.update_self, hqueue]
    rw [heq]
    exact hmove
  · refine Sys.move_of_eq ?_
    simp only [Sys.outbox, hclients, hio, hsent, hfarewell, Function.update_of_ne (Ne.symm hfd)]

theorem Sys.outbox_sendChunk {events rest : List EpollEvent} {offset : ℕ} {res : SendRes} :
    (s.sendChunk events fd offset rest res).outbox fd = (s.outbox fd).chunk offset res := by
  unfold Sys.sendChunk Outbox.chunk Sys.outbox
  dsimp only
  split <;> simp [Sys.goto, Sys.setClient, Sys.emit, advanceSendQueue, IoPc.offset, *]

theorem Sys.outbox_sendChunk_of_ne {events rest : List EpollEvent} {fd' offset : ℕ}
    {res : SendRes} (hfd : fd' ≠ fd) (hidle : s.io.offset fd = none) :
    (s.sendChunk events fd' offset rest res).outbox fd = s.outbox fd := by
  obtain ⟨bs, k, heq⟩ | ⟨bs, c, heq⟩ := s.sendChunk_cases events fd' offset rest res
  · rw [heq, Sys.outbox, Sys.outbox, hidle]
    simp [Sys.goto, Sys.emit, IoPc.offset, hfd, hfd.symm]
  · rw [heq, Sys.outbox, Sys.outbox, hidle]
    simp [Sys.goto, Sys.setClient, Sys.emit, IoPc.offset, hfd.symm]

theorem Sys.move_sendChunk {events rest : List EpollEvent} {fd' offset : ℕ} {res : SendRes}
    (hpc : s.io = .sending events fd' offset rest)
    (hok : (s.io.offset fd).isSome = true → SendFine (¬ FarewellOpen (s.farewell fd)) res) :
    (s.outbox fd).Move ((s.sendChunk events fd' offset rest res).outbox fd) := by
  by_cases hfd : fd' = fd
  · subst hfd
    have hloop : s.io.offset fd' = some offset := by simp [hpc, IoPc.offset]
    have hfine := hok (by rw [hloop]; rfl)
    rw [Sys.outbox_sendChunk]
    cases res with
    | sent n => exact .sent hloop hfine.1 hfine.2
    | eintr => exact .eintr hloop
    | eagain => exact .eagain hloop
    | error => exact hfine.elim
  · exact Sys.move_of_eq (Sys.outbox_sendChunk_of_ne hfd (by simp [hpc, IoPc.offset, hfd]))

theorem Sys.move_accept {events rest : List EpollEvent} {fd' : ℕ} {registered : Bool}
    (hpc : s.io = .accepting events rest) :
    (s.outbox fd).Move ((s.accept fd' registered).outbox fd) := by
  unfold Sys.accept
  split
  · exact .stay
  · by_cases hfd : fd = fd'
    · subst hfd
      simp only [Sys.outbox, Sys.setClient, hpc, Function.update_self]
      exact .accept
    · refine Sys.move_of_eq ?_
      simp [Sys.outbox, Sys.setClient, hfd]

theorem Sys.move_writable {events rest : List EpollEvent} {fd' : ℕ}
    (hpc : s.io = .writable events fd' rest) :
    (s.outbox fd).Move ((s.writable events fd' rest).outbox fd) := by
  have hidle : s.io.offset fd = none := by rw [hpc]; rfl
  unfold Sys.writable
  dsimp only
  split
  next => exact Sys.move_of_eq (Sys.outbox_goto hidle rfl)
  next hcount =>
    by_cases hfd : fd' = fd
    · subst hfd
      have hmove := Outbox.Move.start (b := s.outbox fd') hidle (Nat.pos_of_ne_zero hcount)
      simpa [Sys.outbox, Sys.goto, Sys.setClient, IoPc.offset] using hmove
    · refine Sys.move_of_eq ?_
      simp only [Sys.outbox, hidle]
      simp [Sys.goto, Sys.setClient, IoPc.offset, hfd, Ne.symm hfd]

theorem Client.readTurn_sendQueue (c : Client) (res : RecvRes) :
    (c.readTurn res).2.sendQueue = c.sendQueue := by
  unfold Client.readTurn
  split <;> rfl

theorem Sys.move_ioStep {l : IoLabel} (hs : s.IoStep l s') (hok : s.Undisturbed fd (.io l)) :
    (s.outbox fd).Move (s'.outbox fd) := by
  have hgoto : s.io.offset fd = none → ∀ io : IoPc, io.offset fd = none →
      (s.outbox fd).Move ((s.goto io).outbox fd) :=
    fun hidle io hio => Sys.move_of_eq (Sys.outbox_goto hidle hio)
  cases hs with
  | top pc free => exact hgoto (by rw [pc]; rfl) _ (by split <;> rfl)
  | @dispatch events e rest pc =>
      have hidle : s.io.offset fd = none := by rw [pc]; rfl
      obtain ⟨io, hio, heq⟩ | ⟨fd', mark, io, -, hio, heq⟩ := s.dispatch_cases events e rest
      · rw [heq]
        exact hgoto hidle _ (by rcases hio with rfl | rfl <;> rfl)
      · rw [heq]
        exact Sys.move_of_eq (Sys.outbox_goto_setClient rfl hidle
          (by rcases hio with rfl | rfl <;> rfl))
  | accept pc closed => exact Sys.move_accept pc
  | writable pc => exact Sys.move_writable pc
  | @sendChunk events fd' offset rest res pc ok =>
      exact Sys.move_sendChunk pc fun hloop => hok.2.1 hloop res rfl
  | @readable e rest pc =>
      obtain ⟨io, hio, heq⟩ := s.readable_goto e rest
      rw [heq]
      exact hgoto (by rw [pc]; rfl) _ (by rcases hio with rfl | ⟨_, rfl⟩ <;> rfl)
  | @recv fd' rest res pc unmarked ok =>
      refine Sys.move_of_eq (Sys.outbox_goto_setClient ?_ (by rw [pc]; rfl) ?_)
      · exact Client.readTurn_sendQueue _ _
      · split
        · rfl
        · split
          · rfl
          · split <;> rfl
  | nack pc | busy pc =>
      have hidle : s.io.offset fd = none := by rw [pc]; rfl
      refine Sys.move_queue rfl rfl hidle.symm rfl rfl (sound_buildMessage _ _ _ _)
        (fun _ => hidle) fun hfd => hok.1 ?_
      simp only [Sys.queuesOn, pc, hfd]
  | enqueue pc eq =>
      obtain ⟨sched, io, hio, rfl⟩ := Sys.enqueue_cases eq
      refine Sys.move_of_eq (Sys.outbox_goto (s := { s with sched }) ?_ ?_)
      · show s.io.offset fd = none
        rw [pc]
        rfl
      · rcases hio with rfl | rfl <;> rfl
  | refused pc => exact Sys.move_of_eq (Sys.outbox_goto_setClient rfl (by rw [pc]; rfl) rfl)
  | @reapCheck fd' pc marked =>
      obtain ⟨io, hio, heq⟩ := s.reapCheck_goto fd'
      rw [heq]
      exact hgoto (by rw [pc]; rfl) _ (by rcases hio with rfl | rfl <;> rfl)
  | @reapClose fd' pc =>
      refine Sys.move_of_eq (Outbox.mk.injEq .. ▸ ⟨?_, ?_, rfl, rfl⟩)
      · exact Sys.sendQueue_setClient (by rfl) fd
      · rw [pc]
        rfl
  | timeout pc | poll pc | pollEintr pc | pollError pc | polled pc | dispatched pc
  | acceptNone pc | readLock pc | readDone pc | readClosing pc | reapLock pc | scan pc
  | reaped pc =>
      exact hgoto (by rw [pc]; rfl) _ rfl

theorem TaskStage.locksClient_of_queues {m : MessageControl} {stage : TaskStage}
    (h : stage.queues m = true) : stage.locksClient m = true := by
  cases stage with
  | acting =>
      simp only [queues, locksClient] at h ⊢
      split at h <;> simp_all
  | denied => rfl
  | replying i wasResumed => rfl
  | checking => cases h
  | naming i wasResumed => cases h
  | finishing => cases h

theorem IoPc.offset_of_locksClient {io : IoPc} (h : io.locksClient ≠ some fd) :
    io.offset fd = none := by
  cases io with
  | sending events fd' k rest =>
      have hfd : fd' ≠ fd := fun heq => h (congrArg some heq)
      simp only [offset, hfd, if_false]
  | _ => rfl

/-- A worker leaves the connection and the parser of a client alone. -/
structure Client.Edited (c c' : Client) : Prop where
  fd : c'.fd = c.fd
  connected : c'.connected = c.connected
  inbox : c'.inbox = c.inbox
  marked : c.pendingClose = true → c'.pendingClose = true

theorem TaskStage.queues_acting (m : MessageControl) :
    TaskStage.acting.queues m = (directReply m).isSome := by
  simp only [queues, directReply]
  cases Command.ofCode m.cmd with
  | none => rfl
  | some cmd =>
      cases cmd with
      | identify => by_cases h0 : tokenLength m = 0 <;> simp [h0]
      | _ => rfl

theorem sound_directReply {m reply : MessageControl} (h : directReply m = some reply) :
    reply.Sound := by
  simp only [directReply] at h
  split at h
  case h_7 =>
    rw [Option.ite_none_right_eq_some] at h
    exact Option.some.inj h.2 ▸ sound_buildMessage _ _ _ _
  case h_8 => cases h
  all_goals exact Option.some.inj h ▸ sound_buildMessage _ _ _ _

/-- What a step of `process_task` does to the clients: it changes that of
the task, and the ring of it only if it queues a reply. -/
theorem Sys.ProcessStep.clients {w : Fin 4} {task : Task} (h : s.ProcessStep w task s') :
    ∃ c, s'.clients = Function.update s.clients task.fd c ∧ (s.clients task.fd).Edited c ∧
      (c.sendQueue = (s.clients task.fd).sendQueue ∨
        (s.stage w).queues task.message = true ∧ ∃ m : MessageControl, m.Sound ∧
          c.sendQueue = enterRing (s.clients task.fd).sendQueue m) := by
  have hself : s.clients = Function.update s.clients task.fd (s.clients task.fd) :=
    (Function.update_eq_self task.fd s.clients).symm
  cases h with
  | check stage | pass stage | lookup stage =>
      exact ⟨_, hself, ⟨rfl, rfl, rfl, id⟩, .inl rfl⟩
  | answer stage reply =>
      refine ⟨_, rfl, ⟨rfl, rfl, rfl, id⟩, .inr ⟨?_, _, sound_directReply reply, rfl⟩⟩
      rw [stage, TaskStage.queues_acting, reply]
      rfl
  | mark stage => exact ⟨_, rfl, ⟨rfl, rfl, rfl, fun _ => rfl⟩, .inl rfl⟩
  | name stage => exact ⟨_, rfl, ⟨rfl, rfl, rfl, id⟩, .inl rfl⟩
  | deny stage | reply stage =>
      refine ⟨_, rfl, ⟨rfl, rfl, rfl, id⟩, .inr ⟨?_, _, sound_buildMessage _ _ _ _, rfl⟩⟩
      rw [stage]
      rfl
  | finish stage =>
      refine ⟨_, rfl, ?_, .inl ?_⟩
      · unfold finishTask
        split <;> exact ⟨rfl, rfl, rfl, id⟩
      · unfold finishTask
        split <;> rfl

theorem Sys.move_process {w : Fin 4} {task : Task} (hbusy : s.sched.worker w = .busy task)
    (hfree : (s.stage w).locksClient task.message = true → s.io.locksClient ≠ some task.fd)
    (hok : s.Undisturbed fd (.process w)) :
    (s.outbox fd).Move ((s.process w task).outbox fd) := by
  obtain ⟨hio, -, -, hfarewell, hsent, -⟩ := (s.process_inv w task).frame
  obtain ⟨c, hclients, -, hsame | ⟨hqueues, m, hm, hqueue⟩⟩ := (s.process_inv w task).clients
  · refine Sys.move_of_eq ?_
    simp only [Sys.outbox, hio, hfarewell, hsent, hclients]
    rw [show (Function.update s.clients task.fd c fd).sendQueue = _ from
      Sys.sendQueue_setClient hsame fd]
  · refine Sys.move_queue hclients hqueue (by rw [hio]) hsent hfarewell hm (fun hfd => ?_)
      fun hfd => ?_
    · rw [← hfd]
      exact IoPc.offset_of_locksClient (hfree (TaskStage.locksClient_of_queues hqueues))
    · exact hok.1 (by simp only [Sys.queuesOn, hbusy, hqueues, if_true, hfd])

theorem Sys.move_sendFarewell (h : s.Farewells) {fd' sentTotal : ℕ} {res : SendRes}
    (hpc : s.sig = .sending fd' sentTotal)
    (hok : s.sig.client = some fd → SendFine ((s.outbox fd).progress = 0) res) :
    (s.outbox fd).Move ((s.sendFarewell fd' sentTotal res).outbox fd) := by
  obtain ⟨hsaid, hlt, -⟩ := h.saying fd' sentTotal hpc
  have hframe : (s.sendFarewell fd' sentTotal res).clients = s.clients ∧
      (s.sendFarewell fd' sentTotal res).io = s.io ∧
      (s.sendFarewell fd' sentTotal res).sent = Function.update s.sent fd' (s.sent fd' ++
        (shutdownWire.drop sentTotal).take (res.accepted (shutdownWire.length - sentTotal))) ∧
      (s.sendFarewell fd' sentTotal res).farewell = Function.update s.farewell fd'
        (s.farewell fd' + res.accepted (shutdownWire.length - sentTotal)) := by
    unfold Sys.sendFarewell
    dsimp only
    split <;> exact ⟨rfl, rfl, rfl, rfl⟩
  obtain ⟨hclients, hio, hsent, hfarewell⟩ := hframe
  have hle := res.accepted_le (shutdownWire.length - sentTotal)
  have halone : fd' = fd → res.accepted (shutdownWire.length - sentTotal) = 0 ∨
      (s.outbox fd).progress = 0 := by
    intro hfd
    have hfine := hok (by rw [hpc, hfd]; rfl)
    cases res with
    | sent n => exact .inr hfine.2
    | eintr | eagain | error => exact .inl rfl
  generalize res.accepted (shutdownWire.length - sentTotal) = n at hsent hfarewell hle halone
  by_cases hfd : fd' = fd
  · subst hfd
    have heq : (s.sendFarewell fd' sentTotal res).outbox fd' = (s.outbox fd').sayFarewell n := by
      simp only [Sys.outbox, Outbox.sayFarewell, hclients, hio, hsent, hfarewell,
        Function.update_self, hsaid]
    rw [heq]
    exact .farewell (by show s.farewell fd' + n ≤ _; omega) (halone rfl)
  · refine Sys.move_of_eq ?_
    simp only [Sys.outbox, hclients, hio, hsent, hfarewell, Function.update_of_ne (Ne.symm hfd)]


theorem Sys.move_step (h : s.Farewells) {l : Label} (hs : s.Step l s')
    (hok : s.Undisturbed fd l) : (s.outbox fd).Move (s'.outbox fd) := by
  cases hs with
  | io step => exact Sys.move_ioStep step hok
  | lock start => exact .stay
  | wake waiting => exact .stay
  | process busy free => exact Sys.move_process busy free hok
  | sig step =>
      cases step with
      | @sendFarewell fd' sentTotal res pc ok =>
          exact Sys.move_sendFarewell h pc fun hclient => hok.2.2 hclient res rfl
      | _ => exact .stay

end Moves

/-- **The stream of a client.** In every run that leaves the stream of a
client alone, what was sent to it are complete frames and then the
beginning of at most one. -/
theorem stream_well_framed {fd : ℕ} {s : Sys}
    (hs : Reachable Sys.step (Sys.Undisturbed fd) Sys.init s) : WellFramed (s.sent fd) := by
  have h : s.Farewells ∧ (s.outbox fd).Inv := by
    refine hs.invariant (I := fun s => s.Farewells ∧ (s.outbox fd).Inv) ⟨.init, .accept⟩
      fun s l s' h hok hstep => ?_
    have hs := Sys.step_inv hstep
    exact ⟨h.1.step hs, h.2.move (Sys.move_step h.1 hs hok)⟩
  exact h.2.wellFramed

/-- A client sends a message with a wrong checksum, is told so in two
parts, and then that the server shuts down. -/
def nackThenShutdown : List Label :=
  acceptOn 5 ++ readableOn 5 ++
    recvFrame { buildMessage [] Command.getStatus.code 0 7 with checksum := fun _ => 0 } ++
    [.io .next] ++ throughReap ++ sendOn 5 [.sent 14, .eagain] ++ throughRead 1 ++
    sendOn 5 [.sent 18] ++ shutdownOn 5 [.sent 40, .eintr, .sent 8]

theorem stream_well_framed_nackThenShutdown :
    ∃ s : Sys, Reachable Sys.step (Sys.Undisturbed 5) Sys.init s ∧
      s.sent 5 = (buildNack 7).frame ++ serverShuttingDown.frame ∧ WellFramed (s.sent 5) := by
  have hrun : (runs (guarded Sys.step (Sys.Undisturbed 5)) Sys.init nackThenShutdown).map
      (fun s => s.sent 5) = some ((buildNack 7).frame ++ serverShuttingDown.frame) := by
    decide +kernel
  obtain ⟨s, hreach, hsent⟩ := Reachable.exists_of_runs hrun
  exact ⟨s, hreach, hsent, stream_well_framed hreach⟩

def Label.NoSendError (l : Label) : Prop :=
  (∀ res ∈ l.ioSend, SendFine True res) ∧ ∀ res ∈ l.sigSend, SendFine True res

instance (l : Label) : Decidable l.NoSendError := inferInstanceAs (Decidable (_ ∧ _))

def shutdownInNack : List Label :=
  acceptOn 5 ++ readableOn 5 ++
    recvFrame { buildMessage [] Command.getStatus.code 0 7 with checksum := fun _ => 0 } ++
    [.io .next] ++ throughReap ++ sendOn 5 [.sent 14, .eagain] ++ shutdownOn 5 [.sent 48]

/-- The client gets 14 bytes of the one message and then the other message,
so that the first header it sees has the length 131072. -/
theorem stream_broken_shutdownInNack :
    ∃ s : Sys, Reachable Sys.step (fun _ l => l.NoSendError) Sys.init s ∧
      s.sent 5 = (buildNack 7).frame.take 14 ++ serverShuttingDown.frame ∧
      ¬ WellFramed (s.sent 5) := by
  have hrun : (runs (guarded Sys.step fun _ l => l.NoSendError) Sys.init shutdownInNack).map
      (fun s => s.sent 5) = some ((buildNack 7).frame.take 14 ++ serverShuttingDown.frame) := by
    decide +kernel
  obtain ⟨s, hreach, hsent⟩ := Reachable.exists_of_runs hrun
  refine ⟨s, hreach, hsent, fun hframed => ?_⟩
  obtain ⟨m, hok, hheader⟩ := hframed.header (by rw [hsent]; decide +kernel)
  let bs := (buildNack 7).frame.take 14 ++ serverShuttingDown.frame
  have hlength : m.length = MessageControl.length ⟨ofList bs, fun _ => 0, fun _ => 0⟩ := by
    refine MessageControl.length_congr ?_
    rw [hheader, hsent]
    decide +kernel
  have hvalue : MessageControl.length ⟨ofList bs, fun _ => 0, fun _ => 0⟩ = 131072 := by
    decide +kernel
  have hle := hok.2
  rw [hlength, hvalue] at hle
  exact absurd hle (by decide)

end LinuxMiniProjects.ControlPlane
