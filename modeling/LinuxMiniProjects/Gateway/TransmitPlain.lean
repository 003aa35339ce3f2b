import LinuxMiniProjects.Lib.Socket
import LinuxMiniProjects.Gateway.Transmit

/-!
The transmit path without TLS (`send_data_to_client` and
`flush_message_from_queue` in `client.c`, compiled with `ENABLE_TLS` 0).

The helper returns one integer for everything: the number of bytes sent,
`-1` for an error, `-2` for a full socket, `1` for a close. The flush does
not keep these apart. A count is taken for the whole message, so what is
left of the message is freed with it; the test for an error comes before
the one for `-2`, so a full socket is an error and the message is freed,
too; and a single byte is taken for a close. What remains is the case in
which `send` accepts everything it is offered, in whatever pieces: then
the queue keeps the promise that `Transmit` states for it.
-/

namespace LinuxMiniProjects.Gateway

open LinkedList Machine Socket

/-! ### Sending -/

/-- The loop of `send_data_to_client`, with `sentTotal` of `len` bytes
accepted so far: the value returned, the number of bytes accepted in the
end, and the results of `send` that were not used. The results are a
script; the calls behind it accept all they are offered. -/
def plainSendLoop : List SendRes → (sentTotal len : ℕ) → ℤ × ℕ × List SendRes
  | [], sentTotal, len => (toInt (max sentTotal len), max sentTotal len, [])
  | w :: ws, sentTotal, len =>
      if len ≤ sentTotal then (toInt sentTotal, sentTotal, w :: ws)
      else
        match w with
        | .eintr => plainSendLoop ws sentTotal len
        | .eagain => (if 0 < toInt sentTotal then toInt sentTotal else -2, sentTotal, ws)
        | .error => (-1, sentTotal, ws)
        | .sent n =>
            if min n (len - sentTotal) = 0 then (1, sentTotal, ws)
            else plainSendLoop ws (sentTotal + min n (len - sentTotal)) len

def sendDataToClient (clientFd : ℤ) (script : List SendRes) (data : List UInt8) :
    ℤ × ℕ × List SendRes :=
  if clientFd < 0 then (-1, 0, script) else plainSendLoop script 0 data.length

/-- The client after a message of `len` bytes was sent, as the flush has
it. -/
def Client.deduct (client : Client) (len now : ℕ) : Client :=
  { client with
    lastActiveMs := now
    bytesNeedToSend := client.bytesNeedToSend - len }

/-- The loop of `flush_message_from_queue`, with the node `sendData`
unlinked. It takes a node off the queue in every turn, so that as many
turns are enough as there are nodes. -/
def plainFlushLoop (now : ℕ) (ep : Epoll) :
    ℕ → TxMem → Client → Option Addr → List SendRes → List UInt8 → Flush
  | _, m, client, none, _, sent => ⟨0, m, { client with lastActiveMs := now }, ep, sent⟩
  | 0, m, client, some _, _, sent => ⟨0, m, client, ep, sent⟩
  | turns + 1, m, client, some a, script, sent =>
      let data := (m a).val.data
      let (ret, n, script) := sendDataToClient client.fd script data
      let sent := sent ++ data.take n
      if ret < 0 then ⟨-1, m, client, ep, sent⟩
      else if ret = 1 then ⟨2, m, { client with alive := false }, ep, sent⟩
      else if ret = -2 then
        -- never reached, since `-2` is negative
        ⟨1, m.setLink a client.head, { client with
          head := some a
          tail := if client.tail = none then some a else client.tail }, ep, sent⟩
      else
        let (next, m, client) := dequeueMessage m (client.deduct data.length now)
        plainFlushLoop now ep turns m client next script sent

@[simp] theorem plainFlushLoop_none (now : ℕ) (ep : Epoll) (turns : ℕ) (m : TxMem)
    (client : Client) (script : List SendRes) (sent : List UInt8) :
    plainFlushLoop now ep turns m client none script sent =
      ⟨0, m, { client with lastActiveMs := now }, ep, sent⟩ := by
  cases turns <;> rfl

def flushMessageFromQueue (turns : ℕ) (m : TxMem) (client : Client) (ep : Epoll)
    (script : List SendRes) (now : ℕ) : Flush :=
  match dequeueMessage m client with
  | (none, _, _) => ⟨1, m, client, ep, []⟩
  | (some a, m, client) => plainFlushLoop now ep turns m client (some a) script []

/-! ### The stream of a connection -/

inductive PlainOp
  /-- `enqueue_message`, with the node `malloc` returns. -/
  | enqueue (a : Addr) (data : List UInt8)
  /-- `flush_message_from_queue`, with the results of `send`. -/
  | flush (turns : ℕ) (script : List SendRes) (now : ℕ)

def plainStep (s : TxState) : PlainOp → TxOut × TxState
  | .enqueue a data => txStep s (.enqueue a data)
  | .flush turns script now =>
      let f := flushMessageFromQueue turns s.mem s.client s.epoll script now
      (.flushed f.ret, { s with
        mem := f.mem
        client := f.client
        epoll := f.epoll
        accepted := s.accepted ++ f.sent })

/-- `malloc` does not return a node that is still queued, `send` is
benign, and the loop has as many turns as there are nodes. -/
def PlainOp.Legal (s : TxState) : PlainOp → Prop
  | .enqueue a data => (TxOp.enqueue a data).Legal s
  | .flush turns script _ =>
      (∀ w ∈ script, w.Benign) ∧ ∀ xs, Chain s.mem.links s.client.head xs → xs.length ≤ turns

def Sendable (data : List UInt8) : Prop := data.length ≠ 1 ∧ data.length < 2 ^ 31

def PlainOp.Unhindered : PlainOp → Prop
  | .enqueue _ data => Sendable data
  | .flush _ script _ => .eagain ∉ script

/-! ### What a flush does when the socket is never full -/

theorem plainSendLoop_spec {ws : List SendRes} (hws : ∀ w ∈ ws, w.Benign) (hfull : .eagain ∉ ws)
    {sentTotal len : ℕ} (hle : sentTotal ≤ len) :
    (plainSendLoop ws sentTotal len).1 = toInt len ∧
      (plainSendLoop ws sentTotal len).2.1 = len ∧
      (plainSendLoop ws sentTotal len).2.2 <:+ ws := by
  induction ws generalizing sentTotal with
  | nil => simp [plainSendLoop, Nat.max_eq_right hle]
  | cons w ws ih =>
      have hws' : ∀ w ∈ ws, w.Benign := fun w hw => hws w (List.mem_cons_of_mem _ hw)
      have hfull' : .eagain ∉ ws := fun h => hfull (List.mem_cons_of_mem _ h)
      by_cases hdone : len ≤ sentTotal
      · obtain rfl : sentTotal = len := by omega
        simp [plainSendLoop]
      cases w with
      | eintr =>
          obtain ⟨hret, hn, hsuffix⟩ := ih hws' hfull' hle
          simp only [plainSendLoop, if_neg hdone]
          exact ⟨hret, hn, hsuffix.trans (List.suffix_cons _ _)⟩
      | eagain => exact absurd List.mem_cons_self hfull
      | error => exact (hws _ List.mem_cons_self).elim
      | sent n =>
          have hpos : 0 < n := hws _ List.mem_cons_self
          obtain ⟨hret, hn, hsuffix⟩ := ih hws' hfull'
            (show sentTotal + min n (len - sentTotal) ≤ len by omega)
          simp only [plainSendLoop, if_neg hdone]
          rw [if_neg (by omega)]
          exact ⟨hret, hn, hsuffix.trans (List.suffix_cons _ _)⟩

theorem dequeueMessage_cons {m : TxMem} {client : Client} {a : Addr} {xs : List Addr}
    (h : Queue m.links client.head client.tail (a :: xs)) :
    dequeueMessage m client = (some a, m.setLink a none, client.unlink m a) ∧
      Queue (m.setLink a none).links (client.unlink m a).head (client.unlink m a).tail xs := by
  have hhead : client.head = some a := h.chain.1
  refine ⟨by rw [dequeueMessage, hhead, Client.unlink], ?_⟩
  rw [Mem.links_setLink]
  exact h.dequeue

def messageBytes (m : TxMem) (xs : List Addr) : List UInt8 := xs.flatMap fun a => (m a).val.data

@[simp] theorem messageBytes_cons (m : TxMem) (a : Addr) (xs : List Addr) :
    messageBytes m (a :: xs) = (m a).val.data ++ messageBytes m xs := rfl

@[simp] theorem messageBytes_setLink (m : TxMem) (a : Addr) (p : Option Addr) (xs : List Addr) :
    messageBytes (m.setLink a p) xs = messageBytes m xs := by
  simp [messageBytes]

/-- A flush that has sent `bytes` behind `sent` and has emptied the queue
of `client`. -/
structure Drained (client : Client) (sent bytes : List UInt8) (f : Flush) : Prop where
  ret : f.ret = 0
  head : f.client.head = none
  tail : f.client.tail = none
  fd : f.client.fd = client.fd
  count : f.client.bytesNeedToSend = client.bytesNeedToSend - bytes.length
  sent : f.sent = sent ++ bytes

theorem plainFlushLoop_succ (now : ℕ) (ep : Epoll) (turns : ℕ) {m : TxMem} {client : Client}
    {a : Addr} {script : List SendRes} (sent : List UInt8) (hfd : 0 ≤ client.fd)
    (hws : ∀ w ∈ script, w.Benign) (hfull : .eagain ∉ script) (hmsg : Sendable (m a).val.data) :
    ∃ script', script' <:+ script ∧
      plainFlushLoop now ep (turns + 1) m client (some a) script sent =
        let out := dequeueMessage m (client.deduct (m a).val.data.length now)
        plainFlushLoop now ep turns out.2.1 out.2.2 out.1 script' (sent ++ (m a).val.data) := by
  obtain ⟨hret, hn, hsuffix⟩ := plainSendLoop_spec hws hfull (Nat.zero_le (m a).val.data.length)
  have hcount : toInt (m a).val.data.length = (m a).val.data.length := toInt_of_lt hmsg.2
  have hone := hmsg.1
  refine ⟨_, hsuffix, ?_⟩
  simp only [plainFlushLoop, sendDataToClient, if_neg (not_lt.mpr hfd), hret, hn, hcount,
    List.take_length]
  rw [if_neg (by omega), if_neg (by omega), if_neg (by omega)]

/-- **The loop** sends the message in hand and all that are queued. -/
theorem plainFlushLoop_drained (now : ℕ) (ep : Epoll) {turns : ℕ} {m : TxMem} {client : Client}
    {a : Addr} {xs : List Addr} {script : List SendRes} (sent : List UInt8)
    (hq : Queue m.links client.head client.tail xs) (hturns : xs.length < turns)
    (hfd : 0 ≤ client.fd) (hws : ∀ w ∈ script, w.Benign) (hfull : .eagain ∉ script)
    (hmsg : ∀ b ∈ a :: xs, Sendable (m b).val.data) :
    Drained client sent (messageBytes m (a :: xs))
      (plainFlushLoop now ep turns m client (some a) script sent) := by
  induction xs generalizing turns m client a script sent with
  | nil =>
      obtain ⟨turns, rfl⟩ := Nat.exists_eq_succ_of_ne_zero (Nat.ne_zero_of_lt hturns)
      obtain ⟨script', -, hturn⟩ := plainFlushLoop_succ now ep turns sent hfd hws hfull
        (hmsg a List.mem_cons_self)
      have hhead : client.head = none := hq.chain
      have htail : client.tail = none := hq.last
      have hnone : dequeueMessage m (client.deduct (m a).val.data.length now) =
          (none, m, client.deduct (m a).val.data.length now) := by
        simp [dequeueMessage, Client.deduct, hhead]
      simp only [hturn, hnone, plainFlushLoop_none]
      exact ⟨rfl, hhead, htail, rfl, by simp [Client.deduct, messageBytes], by simp [messageBytes]⟩
  | cons b xs ih =>
      obtain ⟨turns, rfl⟩ := Nat.exists_eq_succ_of_ne_zero (Nat.ne_zero_of_lt hturns)
      obtain ⟨script', hsuffix, hturn⟩ := plainFlushLoop_succ now ep turns sent hfd hws hfull
        (hmsg a List.mem_cons_self)
      have hq' : Queue m.links (client.deduct (m a).val.data.length now).head
          (client.deduct (m a).val.data.length now).tail (b :: xs) := hq
      obtain ⟨hdequeue, hnext⟩ := dequeueMessage_cons hq'
      rw [hturn, hdequeue]
      obtain ⟨hret, hhead, htail, hfd', hcount, hsent⟩ := ih (sent ++ (m a).val.data) hnext
        (Nat.lt_of_succ_lt_succ hturns) hfd (fun w hw => hws w (hsuffix.subset hw))
        (fun h => hfull (hsuffix.subset h))
        (fun c hc => by
          rw [Mem.val_setLink]
          exact hmsg c (List.mem_cons_of_mem a hc))
      refine ⟨hret, hhead, htail, hfd', ?_, ?_⟩
      · rw [hcount, messageBytes_setLink, messageBytes_cons m a, List.length_append,
          ← Nat.sub_sub]
        rfl
      · rw [hsent, messageBytes_setLink, messageBytes_cons m a, List.append_assoc]

theorem flushMessageFromQueue_drained {m : TxMem} {client : Client} {a : Addr} {xs : List Addr}
    (hq : Queue m.links client.head client.tail (a :: xs)) {turns : ℕ}
    (hturns : (a :: xs).length ≤ turns) (hfd : 0 ≤ client.fd) {script : List SendRes}
    (hws : ∀ w ∈ script, w.Benign) (hfull : .eagain ∉ script)
    (hmsg : ∀ b ∈ a :: xs, Sendable (m b).val.data) (ep : Epoll) (now : ℕ) :
    Drained client [] (messageBytes m (a :: xs))
      (flushMessageFromQueue turns m client ep script now) := by
  obtain ⟨hdequeue, hnext⟩ := dequeueMessage_cons hq
  rw [flushMessageFromQueue, hdequeue]
  have hdrained := plainFlushLoop_drained now ep [] hnext hturns hfd hws hfull
    (fun b hb => by
      rw [Mem.val_setLink]
      exact hmsg b hb)
  rw [messageBytes_setLink] at hdrained
  exact ⟨hdrained.ret, hdrained.head, hdrained.tail, hdrained.fd, hdrained.count, hdrained.sent⟩

/-! ### Whole runs -/

/-- The queue of an open connection holds messages that can be sent. -/
structure TxState.Plain (s : TxState) (xs : List Addr) : Prop where
  queued : s.Queued xs
  fd : 0 ≤ s.client.fd
  sendable : ∀ a ∈ xs, Sendable (s.mem a).val.data

theorem TxState.Plain.messageBytes {s : TxState} {xs : List Addr} (h : s.Plain xs) :
    (xs.flatMap fun a => (s.mem a).val.rest) = Gateway.messageBytes s.mem xs := by
  refine List.flatMap_congr fun a ha => ?_
  rw [DataTransmit.rest, h.queued.offset a ha, List.drop_zero]

theorem TxState.Plain.enqueue {s : TxState} {xs : List Addr} (h : s.Plain xs) {a : Addr}
    (ha : a ∉ xs) {data : List UInt8} (hdata : Sendable data) :
    (plainStep s (.enqueue a data)).2.Plain (xs ++ [a]) where
  queued := h.queued.enqueue ha data
  fd := by
    have hsame := enqueueMessage_sameButTx s.mem s.client (some a) data
    simp only [plainStep, txStep]
    rw [hsame]
    exact h.fd
  sendable b hb := by
    simp only [plainStep, txStep, val_enqueueMessage]
    by_cases hba : b = a
    · subst hba
      simpa using hdata
    · rw [Mem.val_alloc_of_ne _ _ hba]
      exact h.sendable b (by simpa [hba] using hb)

theorem TxState.Plain.flush {s : TxState} {xs : List Addr} (h : s.Plain xs) {turns : ℕ}
    {script : List SendRes} (now : ℕ) (hl : (PlainOp.flush turns script now).Legal s)
    (hfull : .eagain ∉ script) :
    (plainStep s (.flush turns script now)).2.Plain [] ∧
      (plainStep s (.flush turns script now)).1 = .flushed (if xs = [] then 1 else 0) := by
  cases xs with
  | nil =>
      have hhead : s.client.head = none := h.queued.queue.chain
      have hflush : flushMessageFromQueue turns s.mem s.client s.epoll script now =
          ⟨1, s.mem, s.client, s.epoll, []⟩ := by
        simp [flushMessageFromQueue, dequeueMessage, hhead]
      simp only [plainStep, hflush, List.append_nil]
      exact ⟨h, rfl⟩
  | cons a xs =>
      have hdrained := flushMessageFromQueue_drained h.queued.queue
        (hl.2 (a :: xs) h.queued.queue.chain) h.fd hl.1 hfull h.sendable s.epoll now
      have hbytes := h.messageBytes
      refine ⟨⟨queued_nil hdrained.head hdrained.tail ?_ ?_, ?_, by simp⟩, ?_⟩
      · simp only [plainStep, hdrained.count, h.queued.bytes, hbytes, Nat.sub_self]
      · simp only [plainStep, hdrained.sent, h.queued.stream, hbytes, List.nil_append]
      · simp only [plainStep, hdrained.fd]
        exact h.fd
      · simp only [plainStep, hdrained.ret, reduceCtorEq, if_false]

theorem TxState.Plain.step {s : TxState} {xs : List Addr} (h : s.Plain xs) {op : PlainOp}
    (hl : op.Legal s) (hok : op.Unhindered) :
    (∃ ys, (plainStep s op).2.Plain ys) ∧
      ∀ ret, (plainStep s op).1 = .flushed ret → ret = 0 ∨ ret = 1 := by
  cases op with
  | enqueue a data =>
      refine ⟨⟨_, h.enqueue (hl xs h.queued.queue.chain) hok⟩, ?_⟩
      intro ret hret
      cases hret
  | flush turns script now =>
      obtain ⟨hnext, hout⟩ := h.flush now hl hok
      refine ⟨⟨[], hnext⟩, ?_⟩
      intro ret hret
      rw [hout] at hret
      cases hret
      split
      · exact .inr rfl
      · exact .inl rfl

/-- **The transmit path without TLS.** If the socket is never full and no
message is a single byte, then over every run the bytes accepted by `send`
are the first ones of what was enqueued, the rest is queued and counted,
and no flush reports an error or a close. -/
theorem plain_transmit_faithful {s : TxState} {ops : List PlainOp} (hs : s.Fresh)
    (hfd : 0 ≤ s.client.fd) (hl : Meets plainStep (fun s op => op.Legal s) s ops)
    (hok : ∀ op ∈ ops, op.Unhindered) :
    Always plainStep TxState.Faithful s ops ∧
      ∀ ret, .flushed ret ∈ trace plainStep s ops → ret = 0 ∨ ret = 1 := by
  have hinit : ∃ xs, s.Plain xs :=
    ⟨[], queued_nil hs.head hs.tail hs.bytes (by rw [hs.enqueued, hs.accepted]), hfd, by simp⟩
  clear hs hfd
  induction ops generalizing s with
  | nil =>
      obtain ⟨xs, h⟩ := hinit
      exact ⟨h.queued.faithful, by simp [trace]⟩
  | cons op ops ih =>
      obtain ⟨xs, h⟩ := hinit
      obtain ⟨hnext, hout⟩ := h.step hl.1 (hok op List.mem_cons_self)
      obtain ⟨halways, hrest⟩ := ih hl.2 (fun op' h' => hok op' (List.mem_cons_of_mem op h')) hnext
      refine ⟨⟨h.queued.faithful, halways⟩, ?_⟩
      intro ret hret
      rcases List.mem_cons.mp hret with hret | hret
      · exact hout ret hret.symm
      · exact hrest ret hret

theorem PlainOp.legal_enqueue {s : TxState} {a b : Addr} {data : List UInt8}
    (hhead : s.client.head = none ∨ s.client.head = some b ∧ s.mem.links b = none)
    (hab : a ≠ b) : (PlainOp.enqueue a data).Legal s :=
  (legal_enqueue_of_single hhead hab : (TxOp.enqueue a data).Legal s)

/-- The condition on the turns, in a queue of the nodes `ys`. -/
theorem turns_of_chain {m : TxMem} {head : Option Addr} (ys : List Addr) {turns : ℕ}
    (hys : Chain m.links head ys) (hlen : ys.length ≤ turns) :
    ∀ xs, Chain m.links head xs → xs.length ≤ turns := by
  intro xs hxs
  rwa [hxs.unique hys]

/-- Two messages are sent in one flush, the first in pieces and with a
signal, and a second flush finds nothing. -/
def inPieces : List PlainOp :=
  [.enqueue 1 [10, 11, 12], .enqueue 2 [13, 14], .flush 2 [.sent 2, .eintr, .sent 1] 0,
    .flush 0 [] 1]

theorem plain_transmit_faithful_inPieces :
    Always plainStep TxState.Faithful freshTx inPieces ∧
      trace plainStep freshTx inPieces = [.enqueued 0, .enqueued 0, .flushed 0, .flushed 1] := by
  have hl : Meets plainStep (fun s op => op.Legal s) freshTx inPieces :=
    ⟨PlainOp.legal_enqueue (b := 2) (.inl rfl) (by decide),
      PlainOp.legal_enqueue (b := 1) (.inr ⟨rfl, rfl⟩) (by decide),
      ⟨by simp [SendRes.Benign], turns_of_chain [1, 2] ⟨rfl, rfl, rfl⟩ (by decide)⟩,
      ⟨by simp, turns_of_chain [] rfl (by decide)⟩, trivial⟩
  refine ⟨(plain_transmit_faithful freshTx_fresh (by decide) hl ?_).1, by decide⟩
  simp [inPieces, PlainOp.Unhindered, Sendable]

/-- The socket takes two bytes of four, and later is full at once: the
first flush reports success and the rest of the message is gone, the
second reports an error. -/
def socketFull : List PlainOp :=
  [.enqueue 1 [10, 11, 12, 13], .flush 1 [.sent 2, .eagain] 0, .enqueue 1 [14, 15],
    .flush 1 [.eagain] 1]

theorem not_faithful_socketFull :
    Meets plainStep (fun s op => op.Legal s) freshTx socketFull ∧
      trace plainStep freshTx socketFull =
        [.enqueued 0, .flushed 0, .enqueued 0, .flushed (-1)] ∧
      ¬ Always plainStep TxState.Faithful freshTx socketFull := by
  refine ⟨⟨PlainOp.legal_enqueue (b := 2) (.inl rfl) (by decide),
    ⟨by simp [SendRes.Benign], turns_of_chain [1] ⟨rfl, rfl⟩ (by decide)⟩,
    PlainOp.legal_enqueue (b := 2) (.inl rfl) (by decide),
    ⟨by simp [SendRes.Benign], turns_of_chain [1] ⟨rfl, rfl⟩ (by decide)⟩, trivial⟩,
    by decide, ?_⟩
  rintro ⟨-, -, hf, -⟩
  -- four bytes are enqueued, two are accepted, and the queue is empty
  obtain ⟨xs, hxs, hrest, -⟩ := hf.queued
  have hnil : xs = [] := hxs.eq_nil_iff.mpr rfl
  subst hnil
  exact absurd hrest (by decide)

end LinuxMiniProjects.Gateway
