import LinuxMiniProjects.ControlPlane.Stream

/-!
Edge-triggered events.

The clients are registered with `EPOLLET`. `epoll_wait` then reports a
client once when it is registered, when bytes arrive and when its socket
is no longer full, and not again for what was there before. So whoever is
told about a client has to read all that is there and to send all that
fits, and whoever has something new to send has to know that the client
will be reported.

`EdgeSys` is the server with the sockets of its clients: the bytes that
have not been read, the room for bytes to send, and whether an event is
due. Here the results of `recv`, `send` and `epoll_wait` are no longer
free; they are those of the sockets.
-/

namespace LinuxMiniProjects.ControlPlane

open Bytes Socket Machine

/-! ### Frames in a stream -/

def frameAt (bs : List UInt8) : Option (List UInt8) :=
  let m : MessageControl := ⟨ofList bs, ofList [], ofList []⟩
  let size := headerSize + m.length.toNat + checksumSize
  if m.LengthOk ∧ size ≤ bs.length then some (bs.drop size) else none

theorem frameAt_frame_append {m : MessageControl} (hok : m.LengthOk) (rest : List UInt8) :
    frameAt (m.frame ++ rest) = some rest := by
  have hheader : slice (ofList (m.frame ++ rest)) 0 headerSize = slice m.header 0 headerSize := by
    have h := slice_ofList_append [] (slice m.header 0 headerSize)
      (slice m.message 0 m.length.toNat ++ slice m.checksum 0 checksumSize ++ rest)
    simpa [MessageControl.frame] using h
  have hlength : MessageControl.length ⟨ofList (m.frame ++ rest), ofList [], ofList []⟩ =
      m.length := MessageControl.length_congr hheader
  have hsize := m.length_frame
  simp only [frameAt, MessageControl.LengthOk, hlength]
  rw [if_pos ⟨hok, by rw [List.length_append]; omega⟩, ← hsize, List.drop_left]

theorem frameAt_eq_some {bs rest : List UInt8} (h : frameAt bs = some rest) :
    ∃ m : MessageControl, m.LengthOk ∧ bs = m.frame ++ rest := by
  simp only [frameAt, Option.ite_none_right_eq_some, Option.some.injEq] at h
  obtain ⟨⟨hok, hsize⟩, rfl⟩ := h
  generalize hlen : MessageControl.length ⟨ofList bs, ofList [], ofList []⟩ = len at hok hsize ⊢
  let m : MessageControl := ⟨ofList bs, fun i => ofList bs (headerSize + i),
    fun i => ofList bs (headerSize + len.toNat + i)⟩
  have hm : m.length = len := hlen
  refine ⟨m, hok, ?_⟩
  have hmessage : slice m.message 0 len.toNat = slice (ofList bs) headerSize len.toNat :=
    slice_congr fun i _ => by simp [m]
  have hchecksum : slice m.checksum 0 checksumSize =
      slice (ofList bs) (headerSize + len.toNat) checksumSize :=
    slice_congr fun i _ => by simp [m]
  have hframe : m.frame = slice (ofList bs) 0 (headerSize + len.toNat + checksumSize) := by
    rw [slice_add, slice_add, Nat.zero_add, Nat.zero_add, MessageControl.frame, hm, hmessage,
      hchecksum]
  have htake : m.frame = bs.take (headerSize + len.toNat + checksumSize) := by
    rw [hframe, slice_eq_take_drop _ (show 0 + _ ≤ bs.length by omega), slice_ofList,
      List.drop_zero]
  rw [htake, List.take_append_drop]

def AtMostOneFrame (bs : List UInt8) : Prop := ∀ rest ∈ frameAt bs, frameAt rest = none

instance (bs : List UInt8) : Decidable (AtMostOneFrame bs) :=
  inferInstanceAs (Decidable (∀ rest ∈ frameAt bs, frameAt rest = none))

theorem AtMostOneFrame.of_none {bs : List UInt8} (h : frameAt bs = none) : AtMostOneFrame bs := by
  intro rest hrest
  rw [h] at hrest
  cases hrest

theorem Inbox.Valid.frameAt_received {i : Inbox} (h : i.Valid) : frameAt i.received = none := by
  cases hframe : frameAt i.received with
  | none => rfl
  | some rest =>
      obtain ⟨m, -, heq⟩ := frameAt_eq_some hframe
      exact absurd heq (h.received_ne_frame m rest)

/-! ### Sockets -/

/-- The socket of a client: the bytes that were not read yet, the room for
bytes to send, and whether an event is due for either. -/
structure Sock where
  unread : List UInt8
  room : ℕ
  edgeIn : Bool
  edgeOut : Bool

namespace Sock

def Pending (k : Sock) : Prop := k.edgeIn = true ∧ k.unread ≠ [] ∨ k.edgeOut = true ∧ 0 < k.room

/-- `epoll_wait` can report these events. It reports nothing that is not the
case, and all that is due. -/
def reportOk (k : Sock) (mask : Mask) : Bool :=
  (mask.hangup || (k.edgeIn || k.edgeOut) && (!mask.epollin || !k.unread.isEmpty) &&
    (!mask.epollout || decide (0 < k.room))) &&
  (!k.edgeIn || k.unread.isEmpty || mask.epollin) &&
  (!k.edgeOut || decide (k.room = 0) || mask.epollout)

def recvOk (k : Sock) (remaining : ℕ) : RecvRes → Bool
  | .data b bs => b :: bs == k.unread.take remaining
  | .eagain | .eof => k.unread.isEmpty
  | .eintr | .error => true

def sendOk (k : Sock) (remaining : ℕ) : SendRes → Bool
  | .sent n => decide (0 < min n remaining ∧ min n remaining ≤ k.room)
  | .eagain => decide (k.room = 0)
  | .eintr | .error => true

def reported (k : Sock) : Sock := { k with edgeIn := false, edgeOut := false }

def received (k : Sock) : RecvRes → Sock
  | .data _ bs => { k with unread := k.unread.drop (bs.length + 1) }
  | _ => k

def filled (k : Sock) (n : ℕ) : Sock := { k with room := k.room - n }

def arrive (k : Sock) (b : UInt8) (bs : List UInt8) : Sock :=
  { k with unread := k.unread ++ b :: bs, edgeIn := true }

def drain (k : Sock) (n : ℕ) : Sock :=
  { k with room := k.room + n, edgeOut := k.edgeOut || decide (k.room = 0 ∧ 0 < n) }

end Sock

/-! ### The server with its sockets -/

structure EdgeSys where
  sys : Sys
  sock : ℕ → Sock

inductive EdgeLabel
  | sys (l : Label)
  | arrive (fd : ℕ) (b : UInt8) (bs : List UInt8)
  | drain (fd n : ℕ)

def EpollEvent.isOf (fd : ℕ) : EpollEvent → Bool
  | listen _ => false
  | client fd' _ => fd' == fd

def noSock : Sock := ⟨[], 0, false, false⟩

namespace EdgeSys

def init : EdgeSys := ⟨Sys.init, fun _ => noSock⟩

def allows (e : EdgeSys) : Label → Bool
  | .io (.poll events) => events.all fun event =>
      match event with
      | .listen _ => true
      | .client fd mask => (e.sock fd).reportOk mask
  | .io (.recv res) =>
      match e.sys.io with
      | .reading fd _ => (e.sock fd).recvOk (e.sys.clients fd).inbox.remaining res
      | _ => true
  | .io (.send res) =>
      match e.sys.io with
      | .sending _ fd offset _ =>
          (e.sock fd).sendOk ((e.sys.clients fd).sendQueue.front.total - offset) res
      | _ => true
  | .sig (.send res) =>
      match e.sys.sig with
      | .sending fd sentTotal => (e.sock fd).sendOk (shutdownWire.length - sentTotal) res
      | _ => true
  | _ => true

/-- The sockets after a step of the server. A socket is registered with room
for `sndbuf` bytes, and both events are due. -/
def sockAfter (sndbuf : ℕ) (e : EdgeSys) : Label → ℕ → Sock
  | .io (.poll events) => fun fd =>
      if events.any (EpollEvent.isOf fd) then (e.sock fd).reported else e.sock fd
  | .io (.accept fd registered) =>
      if fdSetsize ≤ fd then e.sock
      else Function.update e.sock fd (if registered then ⟨[], sndbuf, true, true⟩ else noSock)
  | .io (.recv res) =>
      match e.sys.io with
      | .reading fd _ => Function.update e.sock fd ((e.sock fd).received res)
      | _ => e.sock
  | .io (.send res) =>
      match e.sys.io with
      | .sending _ fd offset _ => Function.update e.sock fd ((e.sock fd).filled
          (res.accepted ((e.sys.clients fd).sendQueue.front.total - offset)))
      | _ => e.sock
  | .sig (.send res) =>
      match e.sys.sig with
      | .sending fd sentTotal => Function.update e.sock fd ((e.sock fd).filled
          (res.accepted (shutdownWire.length - sentTotal)))
      | _ => e.sock
  | _ => e.sock

def step (sndbuf : ℕ) (e : EdgeSys) : EdgeLabel → Option EdgeSys
  | .sys l =>
      if e.allows l then (e.sys.step l).map fun s => ⟨s, e.sockAfter sndbuf l⟩ else none
  | .arrive fd b bs =>
      if e.sys.isOpen fd then
        some { e with sock := Function.update e.sock fd ((e.sock fd).arrive b bs) }
      else none
  | .drain fd n =>
      if e.sys.isOpen fd then
        some { e with sock := Function.update e.sock fd ((e.sock fd).drain n) }
      else none

end EdgeSys

/-! ### What is still to be done -/

def EpollEvent.readsOn (fd : ℕ) : EpollEvent → Bool
  | listen _ => false
  | client fd' mask => fd' == fd && mask.epollin

def EpollEvent.writesOn (fd : ℕ) : EpollEvent → Bool
  | listen _ => false
  | client fd' mask => fd' == fd && mask.epollout

/-- Among the events that the IO thread has to handle there is one to read
from the client. -/
def IoPc.toRead (fd : ℕ) : IoPc → Bool
  | polled events | dispatch events _ | accepting events _ | writable events _ _
  | sending events _ _ _ | readLock events => events.any (EpollEvent.readsOn fd)
  | readable rest | nacking _ rest | holding _ rest | refused _ rest | busy _ rest =>
      rest.any (EpollEvent.readsOn fd)
  | reading fd' rest => fd' == fd || rest.any (EpollEvent.readsOn fd)
  | _ => false

def IoPc.toWrite (fd : ℕ) : IoPc → Bool
  | polled events => events.any (EpollEvent.writesOn fd)
  | dispatch _ rest | accepting _ rest => rest.any (EpollEvent.writesOn fd)
  | writable _ fd' rest | sending _ fd' _ rest => fd' == fd || rest.any (EpollEvent.writesOn fd)
  | _ => false

def Sys.live (s : Sys) (fd : ℕ) : Bool := (s.clients fd).isOn fd && !(s.clients fd).pendingClose

def EdgeSys.stream (e : EdgeSys) (fd : ℕ) : List UInt8 :=
  (e.sys.clients fd).inbox.received ++ (e.sock fd).unread

/-- **The condition.** Bytes do not arrive such that two frames wait to be
read. A message is queued when the socket is full, or when an event to send
is due or has not been handled. A message is sent to its end when it is the
only one, or when it fills the socket, or when an event to send is due. -/
def EdgeSys.Gentle (fd : ℕ) (e : EdgeSys) : EdgeLabel → Prop
  | .arrive fd' b bs => fd' = fd → AtMostOneFrame (e.stream fd ++ b :: bs)
  | .drain _ _ => True
  | .sys l =>
      (e.sys.queuesOn l = some fd →
        (e.sock fd).edgeOut = true ∨ e.sys.io.toWrite fd = true ∨ (e.sock fd).room = 0) ∧
      ∀ res ∈ l.ioSend, ∀ offset ∈ e.sys.io.offset fd,
        chunkTurn (e.sys.clients fd).sendQueue.front.total offset res = .finished →
          (e.sys.clients fd).sendQueue.count = 1 ∨ (e.sock fd).edgeOut = true ∨
            (e.sock fd).room = (e.sys.clients fd).sendQueue.front.total - offset

instance (fd : ℕ) (e : EdgeSys) : (l : EdgeLabel) → Decidable (e.Gentle fd l)
  | .arrive _ _ _ => inferInstanceAs (Decidable (_ → _))
  | .drain _ _ => instDecidableTrue
  | .sys _ => inferInstanceAs (Decidable (_ ∧ _))

/-! ### The invariant -/

/-- The client is served: what is left to be read or to be sent is due, or
will be handled, or has to wait. -/
structure EdgeSys.Served (e : EdgeSys) (fd : ℕ) : Prop where
  valid : (e.sys.clients fd).inbox.Valid
  single : AtMostOneFrame (e.stream fd)
  read : (e.sock fd).edgeIn = true ∨ e.sys.io.toRead fd = true ∨ frameAt (e.stream fd) = none
  write : (e.sock fd).edgeOut = true ∨ e.sys.io.toWrite fd = true ∨
    (e.sys.clients fd).sendQueue.count = 0 ∨ (e.sock fd).room = 0

/-- A step that is none of reading, sending or queueing for the client. -/
structure Sys.Calm (fd : ℕ) (s s' : Sys) : Prop where
  live : s'.live fd = true → s.live fd = true
  inbox : (s'.clients fd).inbox = (s.clients fd).inbox
  count : (s'.clients fd).sendQueue.count = (s.clients fd).sendQueue.count
  read : s'.live fd = true → s.io.toRead fd = true → s'.io.toRead fd = true
  write : s'.live fd = true → s.io.toWrite fd = true →
    s'.io.toWrite fd = true ∨ (s.clients fd).sendQueue.count = 0

theorem Client.Edited.live {c c' : Client} {fd : ℕ} (h : c.Edited c')
    (hlive : (c'.isOn fd && !c'.pendingClose) = true) : (c.isOn fd && !c.pendingClose) = true := by
  simp only [Client.isOn, h.fd, h.connected, Bool.and_eq_true, Bool.not_eq_true'] at hlive ⊢
  refine ⟨hlive.1, ?_⟩
  by_contra hmarked
  rw [h.marked (by simpa using hmarked)] at hlive
  exact Bool.false_ne_true hlive.2.symm

section Served

variable {e e' : EdgeSys} {fd : ℕ}

theorem EdgeSys.Served.write_of_idle (h : e.Served fd) (hidle : e.sys.io.toWrite fd = false) :
    (e.sock fd).edgeOut = true ∨ (e.sys.clients fd).sendQueue.count = 0 ∨
      (e.sock fd).room = 0 := by
  simpa [hidle] using h.write

theorem EdgeSys.Served.of_unread (h : e.Served fd)
    (hinbox : (e'.sys.clients fd).inbox = (e.sys.clients fd).inbox)
    (hunread : (e'.sock fd).unread = (e.sock fd).unread)
    (hread : (e.sock fd).edgeIn = true ∨ e.sys.io.toRead fd = true →
      (e'.sock fd).edgeIn = true ∨ e'.sys.io.toRead fd = true ∨ (e'.sock fd).unread = [])
    (hwrite : (e'.sock fd).edgeOut = true ∨ e'.sys.io.toWrite fd = true ∨
      (e'.sys.clients fd).sendQueue.count = 0 ∨ (e'.sock fd).room = 0) : e'.Served fd := by
  have hstream : e'.stream fd = e.stream fd := by
    rw [stream, stream, hinbox, hunread]
  have hvalid : (e'.sys.clients fd).inbox.Valid := by
    rw [hinbox]
    exact h.valid
  have hdue : (e'.sock fd).edgeIn = true ∨ e'.sys.io.toRead fd = true ∨
      (e'.sock fd).unread = [] → (e'.sock fd).edgeIn = true ∨ e'.sys.io.toRead fd = true ∨
        frameAt (e'.stream fd) = none := by
    rintro (hin | hread | hempty)
    · exact .inl hin
    · exact .inr (.inl hread)
    · rw [stream, hempty, List.append_nil]
      exact .inr (.inr hvalid.frameAt_received)
  refine ⟨hvalid, ?_, ?_, hwrite⟩
  · rw [hstream]
    exact h.single
  · rcases h.read with hin | hread' | hnone
    · exact hdue (hread (.inl hin))
    · exact hdue (hread (.inr hread'))
    · rw [hstream]
      exact .inr (.inr hnone)

theorem EdgeSys.Served.calm (h : e.Served fd) (hcalm : e.sys.Calm fd e'.sys)
    (hlive : e'.sys.live fd = true) (hsock : e'.sock fd = e.sock fd) : e'.Served fd := by
  refine h.of_unread hcalm.inbox (by rw [hsock]) ?_ ?_
  · rw [hsock]
    rintro (hin | hread)
    · exact .inl hin
    · exact .inr (.inl (hcalm.read hlive hread))
  · rw [hsock, hcalm.count]
    rcases h.write with hout | hwrite | hrest
    · exact .inl hout
    · rcases hcalm.write hlive hwrite with hwrite | hcount
      · exact .inr (.inl hwrite)
      · exact .inr (.inr (.inl hcount))
    · exact .inr (.inr hrest)

end Served

section Calm

variable {s s' : Sys} {fd : ℕ}

theorem Sys.Calm.of_clients (hclients : s'.clients fd = s.clients fd)
    (hread : s.io.toRead fd = true → s'.io.toRead fd = true)
    (hwrite : s.io.toWrite fd = true → s'.io.toWrite fd = true) : s.Calm fd s' where
  live := by simp only [Sys.live, hclients, imp_self]
  inbox := by rw [hclients]
  count := by rw [hclients]
  read _ := hread
  write _ h := .inl (hwrite h)

/-- The client of another descriptor changes, or something that does not
matter here. -/
theorem Sys.Calm.edit {fd' : ℕ} {c : Client}
    (hclients : s'.clients = Function.update s.clients fd' c)
    (hedit : (s.clients fd').Edited c)
    (hcount : c.sendQueue.count = (s.clients fd').sendQueue.count)
    (hread : s.io.toRead fd = true → s'.io.toRead fd = true)
    (hwrite : s.io.toWrite fd = true → s'.io.toWrite fd = true) : s.Calm fd s' := by
  by_cases hfd : fd = fd'
  · subst hfd
    have hc : s'.clients fd = c := by
      rw [hclients, Function.update_self]
    refine ⟨?_, ?_, ?_, fun _ => hread, fun _ h => .inl (hwrite h)⟩
    · rw [Sys.live, Sys.live, hc]
      exact hedit.live
    · rw [hc, hedit.inbox]
    · rw [hc, hcount]
  · exact .of_clients (by rw [hclients, Function.update_of_ne hfd]) hread hwrite

theorem Sys.Calm.goto {io : IoPc} (hread : s.io.toRead fd = true → io.toRead fd = true)
    (hwrite : s.io.toWrite fd = true → io.toWrite fd = true) : s.Calm fd (s.goto io) :=
  .of_clients rfl hread hwrite

theorem Sys.Calm.drop {fd' : ℕ} {io : IoPc} (hoff : (s.clients fd').isOn fd' = false)
    (hread : fd' ≠ fd → s.io.toRead fd = true → io.toRead fd = true)
    (hwrite : fd' ≠ fd → s.io.toWrite fd = true → io.toWrite fd = true) :
    s.Calm fd (s.goto io) := by
  have hne : (s.goto io).live fd = true → fd' ≠ fd := by
    rintro hlive rfl
    simp [Sys.live, Sys.goto, hoff] at hlive
  exact ⟨id, rfl, rfl, fun hlive => hread (hne hlive), fun hlive h => .inl (hwrite (hne hlive) h)⟩

theorem Sys.Calm.dispatch {events rest : List EpollEvent} {event : EpollEvent}
    (hpc : s.io = .dispatch events (event :: rest)) :
    s.Calm fd (s.dispatch events event rest) := by
  cases event with
  | listen epollin =>
      cases epollin <;>
        exact .goto (by simp [hpc, IoPc.toRead]) (by simp [hpc, IoPc.toWrite, EpollEvent.writesOn])
  | client fd' mask =>
      unfold Sys.dispatch
      dsimp only
      split
      next hon =>
        refine .edit rfl ⟨rfl, rfl, rfl, fun hmarked => by simp [hmarked]⟩ rfl ?_ ?_
        · rw [hpc]
          simp only [Sys.goto]
          split <;> exact id
        · rw [hpc]
          simp only [Sys.goto]
          split
          next hout => simp [IoPc.toWrite, EpollEvent.writesOn, hout]
          next hout => simp [IoPc.toWrite, EpollEvent.writesOn, hout]
      next hoff =>
        refine .drop (by simpa using hoff) (fun _ => ?_) fun hne => ?_
        · rw [hpc]
          exact id
        · rw [hpc]
          simp [IoPc.toWrite, EpollEvent.writesOn, hne]

theorem Sys.Calm.writable {events rest : List EpollEvent} {fd' : ℕ}
    (hpc : s.io = .writable events fd' rest) : s.Calm fd (s.writable events fd' rest) := by
  unfold Sys.writable
  dsimp only
  split
  next hcount =>
    refine ⟨id, rfl, rfl, fun _ => ?_, fun _ => ?_⟩
    · rw [hpc]
      exact id
    · rw [hpc]
      simp only [IoPc.toWrite, Sys.goto, Bool.or_eq_true, beq_iff_eq]
      rintro (rfl | hrest)
      · exact .inr hcount
      · exact .inl hrest
  next =>
    refine .edit rfl ⟨rfl, rfl, rfl, id⟩ rfl ?_ ?_
    · rw [hpc]
      exact id
    · rw [hpc]
      exact id

theorem Sys.Calm.readable {rest : List EpollEvent} {event : EpollEvent}
    (hpc : s.io = .readable (event :: rest)) : s.Calm fd (s.readable event rest) := by
  have hwrite : s.io.toWrite fd = false := by rw [hpc]; rfl
  obtain ⟨fd', mask, rfl, -, hin, heq⟩ | ⟨hpass, heq⟩ := s.readable_cases event rest
  · rw [heq]
    refine .goto ?_ (by simp [hwrite])
    simp [hpc, IoPc.toRead, EpollEvent.readsOn, hin]
  · rw [heq]
    cases event with
    | listen epollin =>
        refine .goto ?_ (by simp [hwrite])
        simp [hpc, IoPc.toRead, EpollEvent.readsOn]
    | client fd' mask =>
        cases hon : (s.clients fd').isOn fd' with
        | false =>
            refine .drop hon (fun hne => ?_) fun _ => by simp [hwrite]
            simp [hpc, IoPc.toRead, EpollEvent.readsOn, hne]
        | true =>
            refine .goto ?_ (by simp [hwrite])
            simp [hpc, IoPc.toRead, EpollEvent.readsOn, hpass fd' mask rfl hon]

theorem Sys.Calm.readClosing {fd' : ℕ} {rest : List EpollEvent} (hpc : s.io = .reading fd' rest)
    (hmarked : (s.clients fd').pendingClose = true) : s.Calm fd (s.goto (.readable rest)) := by
  refine ⟨id, rfl, rfl, fun hlive => ?_, fun _ => by simp [hpc, IoPc.toWrite]⟩
  have hne : fd' ≠ fd := by
    rintro rfl
    simp [Sys.live, Sys.goto, hmarked] at hlive
  simp [hpc, IoPc.toRead, Sys.goto, hne]

theorem Sys.Calm.enqueue {task : Task} {rest : List EpollEvent} {released : Option (Fin 4)}
    (hpc : s.io = .holding task rest) (h : s.enqueue task rest released = some s') :
    s.Calm fd s' := by
  have hread : s.io.toRead fd = rest.any (EpollEvent.readsOn fd) := by rw [hpc]; rfl
  have hwrite : s.io.toWrite fd = false := by rw [hpc]; rfl
  obtain ⟨sched, io, hio, rfl⟩ := Sys.enqueue_cases h
  refine .of_clients rfl ?_ (by simp [hwrite])
  rw [hread]
  rcases hio with rfl | rfl <;> exact id

theorem Sys.live_of_sendChunk {events rest : List EpollEvent} {offset : ℕ} {res : SendRes}
    (h : (s.sendChunk events fd offset rest res).live fd = true) : s.live fd = true := by
  unfold Sys.sendChunk at h
  dsimp only at h
  split at h
  next => exact h
  next => simpa [Sys.live, Sys.goto, Sys.setClient, Sys.emit, Client.isOn] using h
  next => simp [Sys.live, Sys.goto, Sys.setClient, advanceSendQueue] at h
  next => simpa [Sys.live, Sys.goto, Sys.setClient, Sys.emit, Client.isOn, advanceSendQueue] using h

theorem Client.readTurn_isOn (c : Client) (res : RecvRes) (fd : ℕ) :
    (c.readTurn res).2.isOn fd = c.isOn fd := by
  unfold Client.readTurn
  split <;> rfl

theorem Sys.Calm.reapCheck {fd' : ℕ} (hpc : s.io = .reap fd') : s.Calm fd (s.reapCheck fd') := by
  obtain ⟨-, heq⟩ | heq := s.reapCheck_cases fd'
  · rw [heq]
    exact .goto (by simp [hpc, IoPc.toRead]) (by simp [hpc, IoPc.toWrite])
  · rw [heq]
    exact .goto (by simp [hpc, IoPc.toRead]) (by simp [hpc, IoPc.toWrite])

theorem Sys.Calm.reapClose {fd' : ℕ} (hpc : s.io = .closing fd') : s.Calm fd (s.reapClose fd') := by
  by_cases hfd : fd = fd'
  · subst hfd
    have hc : (s.reapClose fd).live fd = false := by
      simp [Sys.live, Sys.reapClose, Sys.setClient, Client.isOn]
    refine ⟨by simp [hc], ?_, ?_, by simp [hc], by simp [hc]⟩
    · simp [Sys.reapClose, Sys.setClient]
    · simp [Sys.reapClose, Sys.setClient]
  · refine .of_clients (Function.update_of_ne hfd _ _) ?_ ?_
    · simp [hpc, IoPc.toRead]
    · simp [hpc, IoPc.toWrite]

end Calm

/-! ### Reading -/

/-- What a `recv` does to the parser, if `W` was to be read before and
`rest` is in the socket afterwards. -/
inductive Drains (W rest : List UInt8) : ReadTurn → Prop
  | again {i} (valid : i.Valid) (stream : W = i.received ++ rest) : Drains W rest (.again i)
  | wait {i} (valid : i.Valid) (stream : W = i.received ++ rest) (empty : rest = []) :
      Drains W rest (.wait i)
  | close {i} : Drains W rest (.close i)
  | frame {i ok} {m : MessageControl} (valid : i.Valid) (start : i.received = [])
      (lengthOk : m.LengthOk) (stream : W = m.frame ++ rest) : Drains W rest (.frame i ok)

theorem Inbox.lt_remaining_of_wait {i i' : Inbox} {bs : List UInt8}
    (h : i.receive bs = .wait i') : bs.length < i.remaining := by
  obtain ⟨stage, message, bytesRead⟩ := i
  cases stage with
  | readHeader =>
      simp only [receive, receiveHeader] at h
      split at h
      next hlt =>
        simp only [remaining]
        omega
      next =>
        split at h
        next => cases h
        next => cases h
  | readPayload =>
      simp only [receive, receivePayload] at h
      split at h
      next hlt =>
        have hlength : MessageControl.length
            { message with message := store message.message bytesRead bs } = message.length :=
          MessageControl.length_congr rfl
        rw [hlength] at hlt
        simp only [remaining]
        omega
      next => cases h
  | readChecksum =>
      simp only [receive, receiveChecksum] at h
      split at h
      next hlt =>
        simp only [remaining]
        omega
      next => cases h

theorem Sock.drains {k : Sock} {i : Inbox} {res : RecvRes} (hvalid : i.Valid)
    (hok : k.recvOk i.remaining res = true) :
    Drains (i.received ++ k.unread) (k.received res).unread (i.turn res) := by
  cases res with
  | data b bs =>
      have htaken : b :: bs = k.unread.take i.remaining := by simpa [recvOk] using hok
      have hsplit : k.unread = b :: bs ++ k.unread.drop (bs.length + 1) := by
        have hprefix : b :: bs <+: k.unread := htaken ▸ List.take_prefix _ _
        exact (List.prefix_iff_eq_append.mp hprefix).symm
      have hlen : (b :: bs).length = min i.remaining k.unread.length := by
        rw [htaken, List.length_take]
      have hparses := hvalid.receive (show (b :: bs).length ≤ i.remaining by omega)
      have hstream : i.received ++ k.unread =
          i.received ++ b :: bs ++ k.unread.drop (bs.length + 1) := by
        rw [List.append_assoc, ← hsplit]
      rw [hstream]
      simp only [Inbox.turn, received]
      generalize hturn : i.receive (b :: bs) = turn at hparses
      cases hparses with
      | again valid received => exact .again valid (by rw [received])
      | wait valid received =>
          have hlt := Inbox.lt_remaining_of_wait hturn
          refine .wait valid (by rw [received]) (List.drop_of_length_le ?_)
          rw [List.length_cons] at hlen hlt
          omega
      | close header bad => exact .close
      | @frame i' ok stage bytesRead lengthOk frame checksum =>
          refine .frame ?_ ?_ lengthOk (by rw [frame])
          · simp only [Inbox.Valid, stage, bytesRead]
            decide
          · simp only [Inbox.received, stage, bytesRead, slice_zero]
  | eintr => exact .again hvalid rfl
  | eagain => exact .wait hvalid rfl (List.isEmpty_iff.mp hok)
  | eof => exact .close
  | error => exact .close

section Steps

variable {e e' : EdgeSys} {fd : ℕ}

theorem EdgeSys.Served.write_recv (h : e.Served fd) {rest : List EpollEvent} {res : RecvRes}
    (hpc : e.sys.io = .reading fd rest)
    (hclient : e'.sys.clients fd = ((e.sys.clients fd).readTurn res).2)
    (hsock : e'.sock fd = (e.sock fd).received res) :
    (e'.sock fd).edgeOut = true ∨ e'.sys.io.toWrite fd = true ∨
      (e'.sys.clients fd).sendQueue.count = 0 ∨ (e'.sock fd).room = 0 := by
  have hidle : e.sys.io.toWrite fd = false := by
    rw [hpc]
    rfl
  have hcount := congrArg RingBuf.count ((e.sys.clients fd).readTurn_sendQueue res)
  have hsame : (e'.sock fd).edgeOut = (e.sock fd).edgeOut ∧
      (e'.sock fd).room = (e.sock fd).room := by
    rw [hsock]
    cases res <;> exact ⟨rfl, rfl⟩
  rw [hclient, hcount, hsame.1, hsame.2]
  rcases h.write_of_idle hidle with hout | hrest
  · exact .inl hout
  · exact .inr (.inr hrest)

theorem EdgeSys.Served.recv (h : e.Served fd) {rest : List EpollEvent} {res : RecvRes}
    (hpc : e.sys.io = .reading fd rest)
    (hok : (e.sock fd).recvOk (e.sys.clients fd).inbox.remaining res = true)
    (hsys : e'.sys = e.sys.recvTurn fd rest res)
    (hsock : e'.sock fd = (e.sock fd).received res) (hlive : e'.sys.live fd = true) :
    e'.Served fd := by
  have hdrains := Sock.drains h.valid hok
  have hsingle := h.single
  have hclient : e'.sys.clients fd = ((e.sys.clients fd).readTurn res).2 := by
    rw [hsys]
    exact Function.update_self ..
  have hio : e'.sys.io = (e.sys.recvTurn fd rest res).io := by rw [hsys]
  have hwrite := h.write_recv hpc hclient hsock
  rw [stream] at hsingle
  simp only [Sys.recvTurn, Sys.goto, Client.readTurn] at hio
  simp only [Sys.live, hclient, Client.readTurn] at hlive
  simp only [Client.readTurn] at hclient
  -- what became of the parser decides everything
  generalize (e.sys.clients fd).inbox.turn res = turn at hdrains hclient hio hlive
  rw [← hsock] at hdrains
  cases hdrains with
  | again valid stream =>
      rw [stream] at hsingle
      refine ⟨by rw [hclient]; exact valid, ?_, .inr (.inl ?_), hwrite⟩
      · rw [EdgeSys.stream, hclient]
        exact hsingle
      · rw [hio]
        simp [IoPc.toRead]
  | wait valid stream empty =>
      -- the socket is empty, and the parser is inside a frame
      rw [stream] at hsingle
      refine ⟨by rw [hclient]; exact valid, ?_, .inr (.inr ?_), hwrite⟩
      · rw [EdgeSys.stream, hclient]
        exact hsingle
      · rw [EdgeSys.stream, hclient, empty, List.append_nil]
        exact valid.frameAt_received
  | close => simp at hlive
  | @frame i ok m valid start lengthOk stream =>
      -- this was the only frame, and the event is not needed any more
      have hnone : frameAt (e'.sock fd).unread = none := by
        rw [stream] at hsingle
        exact hsingle _ (frameAt_frame_append lengthOk _)
      have hinbox : (e'.sys.clients fd).inbox = i := by
        rw [hclient]
        cases ok <;> rfl
      have hframe : frameAt (e'.stream fd) = none := by
        rw [EdgeSys.stream, hinbox, start, List.nil_append]
        exact hnone
      exact ⟨by rw [hinbox]; exact valid, .of_none hframe, .inr (.inr hframe), hwrite⟩

theorem Sys.Calm.recvTurn {s : Sys} {fd' : ℕ} {rest : List EpollEvent} {res : RecvRes}
    (hpc : s.io = .reading fd' rest) (hfd : fd ≠ fd') : s.Calm fd (s.recvTurn fd' rest res) := by
  refine .of_clients (Function.update_of_ne hfd _ _) ?_ ?_
  · intro hrest
    rw [hpc] at hrest
    simp only [IoPc.toRead, Bool.or_eq_true, beq_iff_eq, hfd.symm, false_or] at hrest
    simp only [Sys.recvTurn, Sys.goto]
    split
    · exact Bool.or_eq_true_iff.mpr (.inr hrest)
    · split
      · exact hrest
      · split <;> exact hrest
  · rw [hpc]
    exact fun h => absurd h Bool.false_ne_true

/-- What a turn of the loop of `send_message_chunk` says about its `send`. -/
inductive ChunkDone (total offset : ℕ) (res : SendRes) : ChunkTurn → Prop
  | again (k : ℕ) : ChunkDone total offset res (.again k)
  | blocked (eagain : res = .eagain) : ChunkDone total offset res (.blocked offset)
  | failed : ChunkDone total offset res .failed
  | finished (all : total - offset ≤ res.accepted (total - offset)) :
      ChunkDone total offset res .finished

theorem chunkTurn_cases {total offset : ℕ} {res : SendRes} {turn : ChunkTurn}
    (h : chunkTurn total offset res = turn) : ChunkDone total offset res turn := by
  subst h
  cases res with
  | sent n =>
      simp only [chunkTurn]
      split
      · exact .failed
      · split
        · exact .again _
        · exact .finished (by simp only [SendRes.accepted]; omega)
  | eintr => exact .again _
  | eagain => exact .blocked rfl
  | error => exact .failed

theorem EdgeSys.Served.sendChunk (h : e.Served fd) {events rest : List EpollEvent} {offset : ℕ}
    {res : SendRes} (hpc : e.sys.io = .sending events fd offset rest)
    (hok : (e.sock fd).sendOk ((e.sys.clients fd).sendQueue.front.total - offset) res = true)
    (hgentle : chunkTurn (e.sys.clients fd).sendQueue.front.total offset res = .finished →
      (e.sys.clients fd).sendQueue.count = 1 ∨ (e.sock fd).edgeOut = true ∨
        (e.sock fd).room = (e.sys.clients fd).sendQueue.front.total - offset)
    (hsys : e'.sys = e.sys.sendChunk events fd offset rest res)
    (hsock : e'.sock fd = (e.sock fd).filled
      (res.accepted ((e.sys.clients fd).sendQueue.front.total - offset)))
    (hlive : e'.sys.live fd = true) : e'.Served fd := by
  have hunread : (e'.sock fd).unread = (e.sock fd).unread := by rw [hsock]; rfl
  have hin : (e'.sock fd).edgeIn = (e.sock fd).edgeIn := by rw [hsock]; rfl
  have hread : ∀ io : IoPc, e'.sys.io = io → io.toRead fd = events.any (EpollEvent.readsOn fd) →
      (e.sock fd).edgeIn = true ∨ e.sys.io.toRead fd = true →
        (e'.sock fd).edgeIn = true ∨ e'.sys.io.toRead fd = true ∨ (e'.sock fd).unread = [] := by
    rintro io hio hevents (hedge | hto)
    · exact .inl (by rw [hin, hedge])
    · rw [hpc] at hto
      exact .inr (.inl (by rw [hio, hevents]; exact hto))
  unfold Sys.sendChunk at hsys
  dsimp only at hsys
  generalize hturn : chunkTurn (e.sys.clients fd).sendQueue.front.total offset res = turn
    at hsys hgentle
  have hdone := chunkTurn_cases hturn
  cases hdone with
  | again k =>
      refine h.of_unread (by rw [hsys]; rfl) hunread (hread _ (by rw [hsys]) rfl) ?_
      rw [hsys]
      exact .inr (.inl (by simp [Sys.goto, IoPc.toWrite]))
  | blocked eagain =>
      -- the socket is full, so there will be an event
      subst eagain
      refine h.of_unread ?_ hunread (hread _ (by rw [hsys]) rfl) ?_
      · rw [hsys]
        simp [Sys.goto, Sys.setClient]
      · rw [hsock]
        have hroom : (e.sock fd).room = 0 := by simpa [Sock.sendOk] using hok
        exact .inr (.inr (.inr (by simp [Sock.filled, hroom])))
  | failed =>
      -- the client is marked
      rw [hsys] at hlive
      simp [Sys.live, Sys.goto, Sys.setClient, advanceSendQueue] at hlive
  | finished all =>
      refine h.of_unread ?_ hunread (hread _ (by rw [hsys]) rfl) ?_
      · rw [hsys]
        simp [Sys.goto, Sys.setClient, advanceSendQueue]
      · rcases hgentle rfl with hcount | hout | hroom
        · refine .inr (.inr (.inl ?_))
          rw [hsys]
          simp [Sys.goto, Sys.setClient, advanceSendQueue, RingBuf.pop, hcount]
        · exact .inl (by rw [hsock]; exact hout)
        · refine .inr (.inr (.inr ?_))
          rw [hsock]
          simp [Sock.filled, hroom, all]

theorem Sys.Calm.sendChunk {s : Sys} {events rest : List EpollEvent} {fd' offset : ℕ}
    {res : SendRes} (hpc : s.io = .sending events fd' offset rest) (hfd : fd ≠ fd') :
    s.Calm fd (s.sendChunk events fd' offset rest res) := by
  have hread : s.io.toRead fd = events.any (EpollEvent.readsOn fd) := by
    rw [hpc]
    rfl
  have hwrite : s.io.toWrite fd = rest.any (EpollEvent.writesOn fd) := by
    simp [hpc, IoPc.toWrite, hfd.symm]
  obtain ⟨bs, k, heq⟩ | ⟨bs, c, heq⟩ := s.sendChunk_cases events fd' offset rest res
  · rw [heq]
    refine .of_clients rfl (by rw [hread]; exact id) ?_
    rw [hwrite]
    exact fun hto => Bool.or_eq_true_iff.mpr (.inr hto)
  · rw [heq]
    refine .of_clients (Function.update_of_ne hfd _ _) (by rw [hread]; exact id) ?_
    rw [hwrite]
    exact id

theorem EdgeSys.Served.poll (h : e.Served fd) {events : List EpollEvent}
    (hpc : e.sys.io = .wait) (hok : e.allows (.io (.poll events)) = true)
    (hclients : e'.sys.clients = e.sys.clients)
    (hread : e'.sys.io.toRead fd = events.any (EpollEvent.readsOn fd))
    (hwrite : e'.sys.io.toWrite fd = events.any (EpollEvent.writesOn fd))
    (hsock : e'.sock fd =
      if events.any (EpollEvent.isOf fd) then (e.sock fd).reported else e.sock fd) :
    e'.Served fd := by
  have hnoRead : e.sys.io.toRead fd = false := by rw [hpc]; rfl
  have hnoWrite : e.sys.io.toWrite fd = false := by rw [hpc]; rfl
  by_cases hof : events.any (EpollEvent.isOf fd) = true
  · rw [if_pos hof] at hsock
    obtain ⟨event, hmem, hevent⟩ := List.any_eq_true.mp hof
    cases event with
    | listen b => cases hevent
    | client fd' mask =>
        obtain rfl : fd' = fd := by simpa [EpollEvent.isOf] using hevent
        have hreport := List.all_eq_true.mp hok _ hmem
        simp only [Sock.reportOk, Bool.and_eq_true, Bool.or_eq_true, Bool.not_eq_true',
          List.isEmpty_iff, decide_eq_true_eq] at hreport
        obtain ⟨⟨-, hreadable⟩, hwritable⟩ := hreport
        refine h.of_unread (by rw [hclients]) (by rw [hsock]; rfl) ?_ ?_
        · rw [hnoRead, hread, hsock]
          rintro (hedge | hfalse)
          · rcases hreadable with (hno | hempty) | hin
            · rw [hno] at hedge
              cases hedge
            · exact .inr (.inr hempty)
            · refine .inr (.inl (List.any_eq_true.mpr ⟨_, hmem, ?_⟩))
              simp [EpollEvent.readsOn, hin]
          · cases hfalse
        · rw [hclients, hwrite, hsock]
          rcases h.write_of_idle hnoWrite with hedge | hrest
          · rcases hwritable with (hno | hfull) | hout
            · rw [hno] at hedge
              cases hedge
            · exact .inr (.inr (.inr hfull))
            · refine .inr (.inl (List.any_eq_true.mpr ⟨_, hmem, ?_⟩))
              simp [EpollEvent.writesOn, hout]
          · exact .inr (.inr hrest)
  · rw [if_neg hof] at hsock
    refine h.of_unread (by rw [hclients]) (by rw [hsock]) ?_ ?_
    · rw [hnoRead, hsock]
      rintro (hedge | hfalse)
      · exact .inl hedge
      · cases hfalse
    · rw [hclients, hsock]
      rcases h.write_of_idle hnoWrite with hedge | hrest
      · exact .inl hedge
      · exact .inr (.inr hrest)

theorem EdgeSys.Served.queue (h : e.Served fd) {fd' : ℕ} {c : Client}
    (hclients : e'.sys.clients = Function.update e.sys.clients fd' c)
    (hedit : (e.sys.clients fd').Edited c)
    (hread : e.sys.io.toRead fd = true → e'.sys.io.toRead fd = true)
    (hwrite : e.sys.io.toWrite fd = true → e'.sys.io.toWrite fd = true)
    (hsock : e'.sock fd = e.sock fd)
    (hgentle : fd' = fd →
      (e.sock fd).edgeOut = true ∨ e.sys.io.toWrite fd = true ∨ (e.sock fd).room = 0) :
    e'.Served fd := by
  have hdue : (e.sock fd).edgeIn = true ∨ e.sys.io.toRead fd = true →
      (e'.sock fd).edgeIn = true ∨ e'.sys.io.toRead fd = true ∨ (e'.sock fd).unread = [] := by
    rw [hsock]
    rintro (hin | hto)
    · exact .inl hin
    · exact .inr (.inl (hread hto))
  by_cases hfd : fd' = fd
  · subst hfd
    refine h.of_unread ?_ (by rw [hsock]) hdue ?_
    · rw [hclients, Function.update_self, hedit.inbox]
    · rw [hsock]
      rcases hgentle rfl with hout | hto | hroom
      · exact .inl hout
      · exact .inr (.inl (hwrite hto))
      · exact .inr (.inr (.inr hroom))
  · have hsame : e'.sys.clients fd = e.sys.clients fd := by
      rw [hclients, Function.update_of_ne (Ne.symm hfd)]
    refine h.of_unread (by rw [hsame]) (by rw [hsock]) hdue ?_
    rw [hsock, hsame]
    rcases h.write with hout | hto | hrest
    · exact .inl hout
    · exact .inr (.inl (hwrite hto))
    · exact .inr (.inr hrest)

theorem EdgeSys.Served.accept {c : Client} (hclient : e.sys.clients fd = c)
    (hinbox : c.inbox = (initClient 0 0).inbox)
    (hcount : c.sendQueue.count = 0) (hunread : (e.sock fd).unread = []) : e.Served fd := by
  have hstream : e.stream fd = [] := by
    rw [stream, hclient, hinbox, hunread]
    rfl
  have hnone : frameAt (e.stream fd) = none := by
    rw [hstream]
    decide +kernel
  refine ⟨?_, .of_none hnone, .inr (.inr hnone), .inr (.inr (.inl ?_))⟩
  · rw [hclient, hinbox]
    exact Nat.zero_lt_succ 23
  · rw [hclient, hcount]

theorem EdgeSys.Served.fill (h : e.Served fd) {n : ℕ}
    (hclients : e'.sys.clients = e.sys.clients) (hio : e'.sys.io = e.sys.io)
    (hsock : e'.sock fd = (e.sock fd).filled n) : e'.Served fd := by
  refine h.of_unread (by rw [hclients]) (by rw [hsock]; rfl) ?_ ?_
  · rw [hio, hsock]
    rintro (hin | hto)
    · exact .inl hin
    · exact .inr (.inl hto)
  · rw [hio, hclients, hsock]
    rcases h.write with hout | hto | hcount | hroom
    · exact .inl hout
    · exact .inr (.inl hto)
    · exact .inr (.inr (.inl hcount))
    · exact .inr (.inr (.inr (by simp [Sock.filled, hroom])))

theorem EdgeSys.Served.arrive (h : e.Served fd) {b : UInt8} {bs : List UInt8}
    (hone : AtMostOneFrame (e.stream fd ++ b :: bs)) (hsys : e'.sys = e.sys)
    (hsock : e'.sock fd = (e.sock fd).arrive b bs) : e'.Served fd := by
  have hstream : e'.stream fd = e.stream fd ++ b :: bs := by
    rw [stream, stream, hsys, hsock, List.append_assoc]
    rfl
  refine ⟨by rw [hsys]; exact h.valid, by rw [hstream]; exact hone, .inl (by rw [hsock]; rfl), ?_⟩
  rw [hsys, hsock]
  exact h.write

theorem EdgeSys.Served.drain (h : e.Served fd) {n : ℕ} (hsys : e'.sys = e.sys)
    (hsock : e'.sock fd = (e.sock fd).drain n) : e'.Served fd := by
  refine h.of_unread (by rw [hsys]) (by rw [hsock]; rfl) ?_ ?_
  · rw [hsys, hsock]
    rintro (hin | hto)
    · exact .inl hin
    · exact .inr (.inl hto)
  · rw [hsys, hsock]
    rcases h.write with hout | hto | hcount | hroom
    · exact .inl (by simp [Sock.drain, hout])
    · exact .inr (.inl hto)
    · exact .inr (.inr (.inl hcount))
    · by_cases hn : 0 < n
      · exact .inl (by simp [Sock.drain, hroom, hn])
      · exact .inr (.inr (.inr (by simp only [Sock.drain]; omega)))

end Steps

/-! ### Every step keeps the invariant -/

section Invariant

variable {e : EdgeSys} {s' : Sys} {fd sndbuf : ℕ}

def EdgeSys.Inv (fd : ℕ) (e : EdgeSys) : Prop := e.sys.live fd = true → e.Served fd

theorem EdgeSys.Inv.calm (h : e.Inv fd) {sock : ℕ → Sock} (hcalm : e.sys.Calm fd s')
    (hsock : sock fd = e.sock fd) : (⟨s', sock⟩ : EdgeSys).Inv fd := fun hlive =>
  (h (hcalm.live hlive)).calm hcalm hlive hsock

theorem EdgeSys.Inv.queue (h : e.Inv fd) {fd' : ℕ} {c : Client} {sock : ℕ → Sock}
    (hclients : s'.clients = Function.update e.sys.clients fd' c)
    (hedit : (e.sys.clients fd').Edited c)
    (hread : e.sys.io.toRead fd = true → s'.io.toRead fd = true)
    (hwrite : e.sys.io.toWrite fd = true → s'.io.toWrite fd = true)
    (hsock : sock fd = e.sock fd)
    (hgentle : fd' = fd →
      (e.sock fd).edgeOut = true ∨ e.sys.io.toWrite fd = true ∨ (e.sock fd).room = 0) :
    (⟨s', sock⟩ : EdgeSys).Inv fd := by
  intro hlive
  have hbefore : e.sys.live fd = true := by
    simp only [Sys.live, hclients] at hlive
    by_cases hfd : fd = fd'
    · subst hfd
      rw [Function.update_self] at hlive
      exact hedit.live hlive
    · rwa [Function.update_of_ne hfd] at hlive
  exact (h hbefore).queue hclients hedit hread hwrite hsock hgentle

theorem EdgeSys.Inv.accept (h : e.Inv fd) {fd' : ℕ} {registered : Bool} :
    (⟨e.sys.accept fd' registered,
      e.sockAfter sndbuf (.io (.accept fd' registered))⟩ : EdgeSys).Inv fd := by
  by_cases hsize : fdSetsize ≤ fd'
  · have hsys : e.sys.accept fd' registered = e.sys := if_pos hsize
    rw [hsys]
    exact h.calm (.of_clients rfl id id) (congrFun (if_pos hsize) fd)
  · have hclients : (e.sys.accept fd' registered).clients =
        Function.update e.sys.clients fd' { initClient (e.sys.nextClientId + 1)
          ((e.sys.clients fd').generation + 1) with fd := fd', connected := true } := by
      simp [Sys.accept, hsize, Sys.setClient]
    have hsock : e.sockAfter sndbuf (.io (.accept fd' registered)) = Function.update e.sock fd'
        (if registered then ⟨[], sndbuf, true, true⟩ else noSock) := if_neg hsize
    have hio : (e.sys.accept fd' registered).io = e.sys.io := by
      simp [Sys.accept, hsize, Sys.setClient]
    by_cases hfd : fd = fd'
    · subst hfd
      intro _
      have hclient := (congrFun hclients fd).trans (Function.update_self ..)
      refine EdgeSys.Served.accept hclient rfl rfl ?_
      show (e.sockAfter sndbuf (.io (.accept fd registered)) fd).unread = []
      rw [hsock, Function.update_self]
      split <;> rfl
    · refine h.calm (.of_clients ?_ ?_ ?_) ?_
      · rw [hclients, Function.update_of_ne hfd]
      · rw [hio]
        exact id
      · rw [hio]
        exact id
      · rw [hsock, Function.update_of_ne hfd]

theorem EdgeSys.Inv.recv (h : e.Inv fd) {fd' : ℕ} {rest : List EpollEvent} {res : RecvRes}
    (hpc : e.sys.io = .reading fd' rest) (hunmarked : (e.sys.clients fd').pendingClose = false)
    (hallow : e.allows (.io (.recv res)) = true) :
    (⟨e.sys.recvTurn fd' rest res, e.sockAfter sndbuf (.io (.recv res))⟩ : EdgeSys).Inv fd := by
  have hsock : e.sockAfter sndbuf (.io (.recv res)) =
      Function.update e.sock fd' ((e.sock fd').received res) := by
    simp only [sockAfter, hpc]
  by_cases hfd : fd = fd'
  · subst hfd
    intro hlive
    have hbefore : e.sys.live fd = true := by
      have hclient : (e.sys.recvTurn fd rest res).clients fd =
          ((e.sys.clients fd).readTurn res).2 := Function.update_self ..
      simp only [Sys.live, hclient, Client.readTurn_isOn, Bool.and_eq_true] at hlive
      simp only [Sys.live, hlive.1, hunmarked, Bool.not_false, Bool.and_self]
    refine (h hbefore).recv hpc ?_ rfl ?_ hlive
    · simpa only [allows, hpc] using hallow
    · rw [hsock]
      exact Function.update_self ..
  · exact h.calm (.recvTurn hpc hfd) (by rw [hsock, Function.update_of_ne hfd])

theorem EdgeSys.Inv.sendChunk (h : e.Inv fd) {events rest : List EpollEvent} {fd' offset : ℕ}
    {res : SendRes} (hpc : e.sys.io = .sending events fd' offset rest)
    (hallow : e.allows (.io (.send res)) = true)
    (hgentle : e.Gentle fd (.sys (.io (.send res)))) :
    (⟨e.sys.sendChunk events fd' offset rest res,
      e.sockAfter sndbuf (.io (.send res))⟩ : EdgeSys).Inv fd := by
  have hsock : e.sockAfter sndbuf (.io (.send res)) = Function.update e.sock fd'
      ((e.sock fd').filled (res.accepted
        ((e.sys.clients fd').sendQueue.front.total - offset))) := by
    simp only [sockAfter, hpc]
  by_cases hfd : fd = fd'
  · subst hfd
    intro hlive
    refine (h (Sys.live_of_sendChunk hlive)).sendChunk hpc ?_ ?_ rfl ?_ hlive
    · simpa only [allows, hpc] using hallow
    · exact hgentle.2 res rfl offset (by simp [hpc, IoPc.offset])
    · rw [hsock]
      exact Function.update_self ..
  · exact h.calm (.sendChunk hpc hfd) (by rw [hsock, Function.update_of_ne hfd])

theorem EdgeSys.Inv.ioStep (h : e.Inv fd) {l : IoLabel} (hs : e.sys.IoStep l s')
    (hallow : e.allows (.io l) = true) (hgentle : e.Gentle fd (.sys (.io l))) :
    (⟨s', e.sockAfter sndbuf (.io l)⟩ : EdgeSys).Inv fd := by
  have hgoto : ∀ {l : IoLabel} {io : IoPc}, e.sockAfter sndbuf (.io l) fd = e.sock fd →
      (e.sys.io.toRead fd = true → io.toRead fd = true) →
      (e.sys.io.toWrite fd = true → io.toWrite fd = true) →
      (⟨e.sys.goto io, e.sockAfter sndbuf (.io l)⟩ : EdgeSys).Inv fd :=
    fun hsock hread hwrite => h.calm (.goto hread hwrite) hsock
  cases hs with
  | top pc free | pollEintr pc | pollError pc | polled pc free | dispatched pc | acceptNone pc
  | readLock pc free | readDone pc | reapLock pc free | scan pc | reaped pc =>
      exact hgoto rfl (by simp [pc, IoPc.toRead]) (by simp [pc, IoPc.toWrite])
  | timeout pc =>
      exact fun hlive => (h hlive).poll pc hallow rfl rfl rfl rfl
  | poll pc => exact fun hlive => (h hlive).poll pc hallow rfl rfl rfl rfl
  | dispatch pc => exact h.calm (.dispatch pc) rfl
  | accept pc closed => exact h.accept
  | writable pc => exact h.calm (.writable pc) rfl
  | sendChunk pc ok => exact h.sendChunk pc hallow hgentle
  | readable pc => exact h.calm (.readable pc) rfl
  | readClosing pc marked => exact h.calm (.readClosing pc marked) rfl
  | recv pc unmarked ok => exact h.recv pc unmarked hallow
  | nack pc | busy pc =>
      refine h.queue rfl ⟨rfl, rfl, rfl, id⟩ ?_ ?_ rfl fun hfd => hgentle.1 ?_
      · simp [pc, IoPc.toRead, Sys.goto]
      · simp [pc, IoPc.toWrite]
      · simp only [Sys.queuesOn, pc, hfd]
  | enqueue pc eq => exact h.calm (.enqueue pc eq) rfl
  | refused pc =>
      refine h.calm (.edit rfl ⟨rfl, rfl, rfl, id⟩ rfl ?_ ?_) rfl
      · simp [pc, IoPc.toRead, Sys.goto]
      · simp [pc, IoPc.toWrite]
  | reapCheck pc marked => exact h.calm (.reapCheck pc) rfl
  | reapClose pc => exact h.calm (.reapClose pc) rfl

theorem EdgeSys.Inv.process (h : e.Inv fd) {w : Fin 4} {task : Task}
    (hbusy : e.sys.sched.worker w = .busy task)
    (hgentle : e.Gentle fd (.sys (.process w))) :
    (⟨e.sys.process w task, e.sock⟩ : EdgeSys).Inv fd := by
  obtain ⟨hio, -⟩ := (e.sys.process_inv w task).frame
  obtain ⟨c, hclients, hedit, hsame | ⟨hqueues, m, -, -⟩⟩ := (e.sys.process_inv w task).clients
  · exact h.calm (.edit hclients hedit (by rw [hsame]) (by rw [hio]; exact id)
      (by rw [hio]; exact id)) rfl
  · refine h.queue hclients hedit (by rw [hio]; exact id) (by rw [hio]; exact id) rfl
      fun hfd => hgentle.1 ?_
    simp only [Sys.queuesOn, hbusy, hqueues, if_true, hfd]

theorem EdgeSys.Inv.sendFarewell (h : e.Inv fd) {fd' sentTotal : ℕ} {res : SendRes}
    (hpc : e.sys.sig = .sending fd' sentTotal) :
    (⟨e.sys.sendFarewell fd' sentTotal res,
      e.sockAfter sndbuf (.sig (.send res))⟩ : EdgeSys).Inv fd := by
  have hsock : e.sockAfter sndbuf (.sig (.send res)) = Function.update e.sock fd'
      ((e.sock fd').filled (res.accepted (shutdownWire.length - sentTotal))) := by
    simp only [sockAfter, hpc]
  have hclients : (e.sys.sendFarewell fd' sentTotal res).clients = e.sys.clients := by
    unfold Sys.sendFarewell
    dsimp only
    split <;> rfl
  have hio : (e.sys.sendFarewell fd' sentTotal res).io = e.sys.io := by
    unfold Sys.sendFarewell
    dsimp only
    split <;> rfl
  by_cases hfd : fd = fd'
  · subst hfd
    intro hlive
    have hbefore : e.sys.live fd = true := by
      simpa only [Sys.live, hclients] using hlive
    exact (h hbefore).fill hclients hio (by rw [hsock]; exact Function.update_self ..)
  · exact h.calm (.of_clients (by rw [hclients]) (by rw [hio]; exact id) (by rw [hio]; exact id))
      (by rw [hsock, Function.update_of_ne hfd])

theorem EdgeSys.Inv.step (h : e.Inv fd) {l : EdgeLabel} {e' : EdgeSys} (hgentle : e.Gentle fd l)
    (hs : e.step sndbuf l = some e') : e'.Inv fd := by
  cases l with
  | sys l =>
      simp only [EdgeSys.step, Option.ite_none_right_eq_some, Option.map_eq_some_iff] at hs
      obtain ⟨hallow, s', hs, rfl⟩ := hs
      cases Sys.step_inv hs with
      | io step => exact h.ioStep step hallow hgentle
      | lock start | wake waiting => exact h.calm (.of_clients rfl id id) rfl
      | process busy free => exact h.process busy hgentle
      | sig step =>
          cases step with
          | sendFarewell pc ok => exact h.sendFarewell pc
          | _ => exact h.calm (.of_clients rfl id id) rfl
  | arrive fd' b bs =>
      simp only [EdgeSys.step, Option.ite_none_right_eq_some, Option.some.injEq] at hs
      obtain ⟨-, rfl⟩ := hs
      by_cases hfd : fd = fd'
      · subst hfd
        exact fun hlive => (h hlive).arrive (hgentle rfl) rfl (Function.update_self ..)
      · exact h.calm (.of_clients rfl id id) (Function.update_of_ne hfd _ _)
  | drain fd' n =>
      simp only [EdgeSys.step, Option.ite_none_right_eq_some, Option.some.injEq] at hs
      obtain ⟨-, rfl⟩ := hs
      by_cases hfd : fd = fd'
      · subst hfd
        exact fun hlive => (h hlive).drain rfl (Function.update_self ..)
      · exact h.calm (.of_clients rfl id id) (Function.update_of_ne hfd _ _)

end Invariant

/-- **No work is stranded.** In every run that meets the condition for a
client, when the IO thread is in `epoll_wait`, no event of the client is
due and the client is connected and not about to be closed, no whole frame
waits to be read, and no message waits while there is room for it. -/
theorem no_stranded_work {sndbuf fd : ℕ} {e : EdgeSys}
    (he : Reachable (EdgeSys.step sndbuf) (EdgeSys.Gentle fd) EdgeSys.init e)
    (hwait : e.sys.io = .wait) (hon : (e.sys.clients fd).isOn fd = true)
    (hopen : (e.sys.clients fd).pendingClose = false) (hpending : ¬ (e.sock fd).Pending) :
    (¬ ∃ (m : MessageControl) (rest : List UInt8), m.LengthOk ∧
      (e.sys.clients fd).inbox.received ++ (e.sock fd).unread = m.frame ++ rest) ∧
    ¬ (0 < (e.sys.clients fd).sendQueue.count ∧ 0 < (e.sock fd).room) := by
  have hinv : e.Inv fd := by
    refine he.invariant (fun hlive => ?_) fun e l e' h hgentle hs => h.step hgentle hs
    exact absurd hlive Bool.false_ne_true
  have h : e.Served fd := hinv (by simp [Sys.live, hon, hopen])
  have hread : e.sys.io.toRead fd = false := by rw [hwait]; rfl
  have hwrite : e.sys.io.toWrite fd = false := by rw [hwait]; rfl
  constructor
  · rintro ⟨m, rest, hok, hstream⟩
    have hframe : frameAt (e.stream fd) = some rest := by
      rw [EdgeSys.stream, hstream]
      exact frameAt_frame_append hok rest
    rcases h.read with hedge | hto | hnone
    · refine hpending (.inl ⟨hedge, fun hempty => ?_⟩)
      rw [hempty, List.append_nil] at hstream
      exact h.valid.received_ne_frame m rest hstream
    · rw [hread] at hto
      cases hto
    · rw [hframe] at hnone
      cases hnone
  · rintro ⟨hcount, hroom⟩
    rcases h.write with hedge | hto | hzero | hfull
    · exact hpending (.inr ⟨hedge, hroom⟩)
    · rw [hwrite] at hto
      cases hto
    · omega
    · omega

def statusFrame : MessageControl := buildMessage [] Command.getStatus.code 0 7

def serverSteps (ls : List Label) : List EdgeLabel := ls.map .sys

def arriveFrame (fd : ℕ) (m : MessageControl) : EdgeLabel :=
  .arrive fd (m.header 0) (m.frame.drop 1)

def IoPc.isWait : IoPc → Bool
  | wait => true
  | _ => false

theorem IoPc.isWait_iff {io : IoPc} : io.isWait = true ↔ io = .wait := by
  cases io <;> simp [isWait]

structure EdgeLook where
  waiting : Bool
  on : Bool
  marked : Bool
  edgeIn : Bool
  edgeOut : Bool
  received : List UInt8
  unread : List UInt8
  count : ℕ
  room : ℕ
deriving DecidableEq

def EdgeSys.look (e : EdgeSys) (fd : ℕ) : EdgeLook where
  waiting := e.sys.io.isWait
  on := (e.sys.clients fd).isOn fd
  marked := (e.sys.clients fd).pendingClose
  edgeIn := (e.sock fd).edgeIn
  edgeOut := (e.sock fd).edgeOut
  received := (e.sys.clients fd).inbox.received
  unread := (e.sock fd).unread
  count := (e.sys.clients fd).sendQueue.count
  room := (e.sock fd).room

/-- A request comes, its reply is queued while the socket is full, and it is
sent when there is room. -/
def replyWhenWritable : List EdgeLabel :=
  serverSteps (acceptOn 5) ++ [arriveFrame 5 statusFrame] ++
    serverSteps (readableOn 5 ++ recvFrame statusFrame ++ [.io (.enqueue none)] ++ throughReap ++
      [.lock firstWorker, .process firstWorker, .process firstWorker]) ++
    [.drain 5 100] ++ serverSteps (sendOn 5 [.sent 37] ++ throughRead 1)

theorem no_stranded_work_replyWhenWritable :
    ∃ e : EdgeSys, Reachable (EdgeSys.step 0) (EdgeSys.Gentle 5) EdgeSys.init e ∧
      e.look 5 = ⟨true, true, false, false, false, [], [], 0, 63⟩ ∧
      ¬ (0 < (e.sys.clients 5).sendQueue.count ∧ 0 < (e.sock 5).room) := by
  have hrun : (runs (guarded (EdgeSys.step 0) (EdgeSys.Gentle 5)) EdgeSys.init
      replyWhenWritable).map (fun e => e.look 5) =
        some ⟨true, true, false, false, false, [], [], 0, 63⟩ := by
    decide +kernel
  obtain ⟨e, hreach, hlook⟩ := Reachable.exists_of_runs hrun
  refine ⟨e, hreach, hlook, ?_⟩
  simp only [EdgeSys.look, EdgeLook.mk.injEq] at hlook
  obtain ⟨hwait, hon, hopen, hin, hout, -⟩ := hlook
  refine (no_stranded_work hreach (IoPc.isWait_iff.mp hwait) hon hopen ?_).2
  simp [Sock.Pending, hin, hout]

/-- A client sends two requests at once, and a worker replies to the
first. -/
def twoRequests : List EdgeLabel :=
  serverSteps (acceptOn 5) ++ [arriveFrame 5 statusFrame, arriveFrame 5 statusFrame] ++
    serverSteps ([.io (.poll [.client 5 ⟨true, true, false⟩]), .io .next, .io .next, .io .next,
        .io .next, .io .next, .io .next] ++ recvFrame statusFrame ++ [.io (.enqueue none)] ++
      throughReap ++ [.lock firstWorker, .process firstWorker, .process firstWorker])

/-- Then the IO thread is in `epoll_wait` and no event is due, while the
second request is in the socket and the reply to the first one in the ring
of a client that has room for it. -/
theorem work_stranded_twoRequests :
    ∃ e : EdgeSys, Reachable (EdgeSys.step 4096) (fun _ _ => True) EdgeSys.init e ∧
      e.sys.io = .wait ∧ (e.sys.clients 5).isOn 5 = true ∧
      (e.sys.clients 5).pendingClose = false ∧ ¬ (e.sock 5).Pending ∧
      (e.sys.clients 5).inbox.received = [] ∧ (e.sock 5).unread = statusFrame.frame ∧
      0 < (e.sys.clients 5).sendQueue.count ∧ 0 < (e.sock 5).room := by
  have hrun : (runs (guarded (EdgeSys.step 4096) fun _ _ => True) EdgeSys.init
      twoRequests).map (fun e => e.look 5) =
        some ⟨true, true, false, false, false, [], statusFrame.frame, 1, 4096⟩ := by
    decide +kernel
  obtain ⟨e, hreach, hlook⟩ := Reachable.exists_of_runs hrun
  simp only [EdgeSys.look, EdgeLook.mk.injEq] at hlook
  obtain ⟨hwait, hon, hopen, hin, hout, hreceived, hunread, hcount, hroom⟩ := hlook
  refine ⟨e, hreach, IoPc.isWait_iff.mp hwait, hon, hopen, ?_, hreceived, hunread, ?_, ?_⟩
  · simp [Sock.Pending, hin, hout]
  · omega
  · omega

end LinuxMiniProjects.ControlPlane
