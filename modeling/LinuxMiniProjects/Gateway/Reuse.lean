import LinuxMiniProjects.Gateway.Arming

/-!
Slots are used again.

When a connection ends, its slot is given to the next one. `close_client`
and `client_alloc` reset a part of the fields each and leave the receive
buffer as it is, with the bytes of the old connection in it. Here two
servers are compared whose pasts differ in any way, and which give the
same slot to a new connection: whatever then happens on the connection,
both do the same.

`Client.Alike` is what the two clients have in common. They differ in the
descriptor, in the generation, in what the receive buffer holds behind
`rx_len` and in the addresses of the transmit queue.
-/

namespace LinuxMiniProjects.Gateway

open Bytes LinkedList Machine

/-! ### Alike -/

def ReaderOut.anonymous : ReaderOut → ReaderOut
  | .push t => .push { t with generation := 0 }
  | out => out

structure Client.Alike (c c' : Client) : Prop where
  alive : c.alive = c'.alive
  rate : c.rate = c'.rate
  stage : c.stage = c'.stage
  rxLen : c.rxLen = c'.rxLen
  received : c.received = c'.received
  bytesNeedToSend : c.bytesNeedToSend = c'.bytesNeedToSend
  lastActiveMs : c.lastActiveMs = c'.lastActiveMs
  ssl : c.ssl = c'.ssl
  tlsHandshakeDone : c.tlsHandshakeDone = c'.tlsHandshakeDone
  tlsReadPending : c.tlsReadPending = c'.tlsReadPending
  header : c.alive = true → c.stage = .readPayload → headerSize ≤ c.rxLen

structure Call.Alike (call call' : Call) : Prop where
  ret : call.ret = call'.ret
  client : call.client.Alike call'.client
  ssl : call.ssl = call'.ssl
  out : call.out.anonymous = call'.out.anonymous

inductive ReadTurn.Alike : ReadTurn → ReadTurn → Prop
  | again {c c' ssl headers} (client : c.Alike c') (alive : c.alive = true) :
      ReadTurn.Alike (.again c ssl headers) (.again c' ssl headers)
  | ret {call call'} (alike : call.Alike call') : ReadTurn.Alike (.ret call) (.ret call')

/-! ### Reading -/

section Reading

variable {c c' : Client} {slot : Option ℕ} {env : ReadEnv} {ssl : Ssl} {headers : List ℕ}

theorem Client.Alike.receive (h : c.Alike c') (bs : List UInt8) :
    (c.receive bs).Alike (c'.receive bs) where
  alive := h.alive
  rate := h.rate
  stage := h.stage
  rxLen := congrArg (· + bs.length) h.rxLen
  received := by rw [received_receive, received_receive, h.received]
  bytesNeedToSend := h.bytesNeedToSend
  lastActiveMs := h.lastActiveMs
  ssl := h.ssl
  tlsHandshakeDone := h.tlsHandshakeDone
  tlsReadPending := h.tlsReadPending
  header halive hstage := (h.header halive hstage).trans (Nat.le_add_right _ _)

theorem Client.Alike.rewind (h : c.Alike c') : c.rewind.Alike c'.rewind where
  alive := h.alive
  rate := h.rate
  stage := rfl
  rxLen := rfl
  received := rfl
  bytesNeedToSend := h.bytesNeedToSend
  lastActiveMs := h.lastActiveMs
  ssl := h.ssl
  tlsHandshakeDone := h.tlsHandshakeDone
  tlsReadPending := h.tlsReadPending
  header _ hstage := by cases hstage

theorem Client.Alike.die (h : c.Alike c') :
    ({ c with alive := false } : Client).Alike { c' with alive := false } :=
  { h with alive := rfl, received := h.received, header := fun halive => by cases halive }

theorem Client.Alike.setSsl (h : c.Alike c') (ssl : Option Ssl) :
    ({ c with ssl } : Client).Alike { c' with ssl } :=
  { h with ssl := rfl, received := h.received }

theorem Client.Alike.setActive (h : c.Alike c') (lastActiveMs : ℕ) :
    ({ c with lastActiveMs } : Client).Alike { c' with lastActiveMs } :=
  { h with lastActiveMs := rfl, received := h.received }

theorem readFailed_alike (h : c.Alike c') (halive : c.alive = true) (e : Errno) :
    (readFailed c ssl headers e).Alike (readFailed c' ssl headers e) := by
  cases e with
  | eintr => exact .again h halive
  | eagain => exact .ret ⟨rfl, h, rfl, rfl⟩
  | other => exact .ret ⟨rfl, h, rfl, rfl⟩

theorem decodeHeader_alike (h : c.Alike c') (hlen : headerSize ≤ c.rxLen) :
    decodeHeader c.dataReceive = decodeHeader c'.dataReceive := by
  rw [decodeHeader_received hlen, decodeHeader_received (h.rxLen ▸ hlen), h.received]

theorem headerComplete_alike (h : c.Alike c') (halive : c.alive = true)
    (hlen : headerSize ≤ c.rxLen) :
    (headerComplete env c ssl headers).Alike (headerComplete env c' ssl headers) := by
  simp only [headerComplete, ← decodeHeader_alike h hlen]
  split
  next e he =>
    split
    · exact .ret ⟨rfl, h.rewind, rfl, rfl⟩
    · exact .ret ⟨rfl, h, rfl, rfl⟩
  next =>
    exact .again { h with stage := rfl, received := h.received, header := fun _ _ => hlen } halive

/-- What the payload stage looks at, once the header is there. -/
theorem length_alike (h : c.Alike c') (hlen : headerSize ≤ c.rxLen) :
    decode32Bit c.dataReceive 8 = decode32Bit c'.dataReceive 8 :=
  congrArg HeaderPacket.length (decodeHeader_alike h hlen)

theorem frameComplete_alike (h : c.Alike c')
    (hlen : headerSize + (decode32Bit c.dataReceive 8).toNat + crcSize ≤ c.rxLen) :
    (frameComplete slot env c ssl headers).Alike (frameComplete slot env c' ssl headers) := by
  have hheader : headerSize ≤ c.rxLen := by omega
  have hlength := length_alike h hheader
  have hpayload : slice c.dataReceive headerSize (decode32Bit c.dataReceive 8).toNat =
      slice c'.dataReceive headerSize (decode32Bit c.dataReceive 8).toNat := by
    rw [slice_payload (by omega), slice_payload (c := c') (by rw [← h.rxLen]; omega), h.received]
  have hcrc : decode32Bit c.dataReceive (headerSize + (decode32Bit c.dataReceive 8).toNat) =
      decode32Bit c'.dataReceive (headerSize + (decode32Bit c.dataReceive 8).toNat) := by
    rw [decode32Bit_crc hlen, decode32Bit_crc (c := c') (by rw [← h.rxLen]; exact hlen),
      h.received]
  have hid : decode32Bit c.dataReceive 12 = decode32Bit c'.dataReceive 12 :=
    congrArg HeaderPacket.requestId (decodeHeader_alike h hheader)
  simp only [frameComplete, ← hlength, ← hcrc, ← hpayload]
  split
  · simp only [crcFailed, ← hid]
    exact ⟨rfl, h.rewind, rfl, rfl⟩
  · refine ⟨rfl, h.rewind.setActive env.nowActive, rfl, ?_⟩
    simp only [frameAccepted, ← decodeHeader_alike h hheader]
    cases slot with
    | none => rfl
    | some slot =>
        cases env.taskOk with
        | false => rfl
        | true =>
            have hlength' : (decodeHeader c.dataReceive).length = decode32Bit c.dataReceive 8 := rfl
            simp only [if_true, ReaderOut.anonymous, buildTask, hlength', hpayload]

theorem headerTurn_alike (h : c.Alike c') (halive : c.alive = true) :
    (headerTurn env c ssl headers).Alike (headerTurn env c' ssl headers) := by
  unfold headerTurn
  rw [show headerSize - c'.rxLen = headerSize - c.rxLen by rw [h.rxLen]]
  split
  next e ssl' _ => exact readFailed_alike h halive e
  next bs ssl' _ =>
    split
    · exact .ret ⟨rfl, h.die, rfl, rfl⟩
    · have hreceive := h.receive bs
      dsimp only
      rw [← hreceive.rxLen]
      split
      · exact .again hreceive halive
      next hfull => exact headerComplete_alike hreceive halive (by omega)

theorem payloadTurn_alike (h : c.Alike c') (halive : c.alive = true)
    (hstage : c.stage = .readPayload) :
    (payloadTurn slot env c ssl headers).Alike (payloadTurn slot env c' ssl headers) := by
  have hheader := h.header halive hstage
  have hlength := length_alike h hheader
  have hremain : payloadRemain c' = payloadRemain c := by
    rw [payloadRemain, payloadRemain, hlength, h.rxLen]
  unfold payloadTurn
  rw [hremain, ← hlength]
  split
  next e ssl' _ => exact readFailed_alike h halive e
  next bs ssl' _ =>
    split
    · exact .ret ⟨rfl, h.die, rfl, rfl⟩
    · have hreceive := h.receive bs
      -- the header is not touched by the bytes behind it
      have hkeep : decode32Bit (c.receive bs).dataReceive 8 = decode32Bit c.dataReceive 8 := by
        rw [length_received_eq hheader, length_received_eq (hheader.trans (Nat.le_add_right _ _)),
          received_receive, headerOf_append (by simpa using hheader)]
      dsimp only
      rw [← hreceive.rxLen]
      split
      · exact .again hreceive halive
      next hfull => exact .ret (frameComplete_alike hreceive (by rw [hkeep]; omega))

theorem readLoop_alike (h : c.Alike c') (halive : c.alive = true) (fuel : ℕ) :
    (readLoop slot env fuel c ssl headers).Alike (readLoop slot env fuel c' ssl headers) := by
  induction fuel generalizing c c' ssl headers with
  | zero => exact ⟨rfl, h, rfl, rfl⟩
  | succ fuel ih =>
      have hturn : (readTurn slot env c ssl headers).Alike (readTurn slot env c' ssl headers) := by
        unfold readTurn
        rw [← h.stage]
        cases hstage : c.stage with
        | readHeader => exact headerTurn_alike h halive
        | readPayload => exact payloadTurn_alike h halive hstage
        | readCrc => exact .ret ⟨rfl, h, rfl, rfl⟩
      unfold readLoop
      generalize readTurn slot env c ssl headers = turn at hturn ⊢
      generalize readTurn slot env c' ssl headers = turn' at hturn ⊢
      cases hturn with
      | again client alive => exact ih client alive
      | ret alike => exact alike

theorem clientReadMessage_alike {clients clients' : Clients} {i : ℕ}
    (h : (clients i).Alike (clients' i)) (halive : (clients i).alive = true)
    (hslot : fdToSlot clients (clients i).fd maxClients =
      fdToSlot clients' (clients' i).fd maxClients) :
    (clientReadMessage clients i env).Alike (clientReadMessage clients' i env) := by
  unfold clientReadMessage
  rw [← h.ssl, ← hslot]
  cases (clients i).ssl with
  | none => exact ⟨rfl, h, rfl, rfl⟩
  | some ssl =>
      have hloop : (readLoop (fdToSlot clients (clients i).fd maxClients) env (ssl.weight + 1)
          (clients i) ssl []).Alike (readLoop (fdToSlot clients (clients i).fd maxClients) env
            (ssl.weight + 1) (clients' i) ssl []) := readLoop_alike h halive _
      refine ⟨hloop.ret, ?_, hloop.ssl, hloop.out⟩
      simp only [hloop.ssl]
      exact hloop.client.setSsl _

end Reading

/-! ### Sending -/

/-- Two transmit queues with the same messages, none of them at the
addresses `out` and `out'`. -/
def TxAlike (m : TxMem) (c : Client) (out : Option Addr) (m' : TxMem) (c' : Client)
    (out' : Option Addr) : Prop :=
  ∃ xs xs' : List Addr, Queue m.links c.head c.tail xs ∧ Queue m'.links c'.head c'.tail xs' ∧
    (xs.map fun a => (m a).val) = (xs'.map fun a => (m' a).val) ∧
    (∀ a ∈ out, a ∉ xs) ∧ ∀ a ∈ out', a ∉ xs'

structure Sending (m : TxMem) (c : Client) (a : Addr) (m' : TxMem) (c' : Client) (a' : Addr) :
    Prop where
  client : c.Alike c'
  queue : TxAlike m c (some a) m' c' (some a')
  val : (m a).val = (m' a').val
  link : (m a).link = none
  link' : (m' a').link = none

inductive Turn.Alike : Turn → Turn → Prop
  | done {ret m c ep m' c' ep'} (client : c.Alike c') (queue : TxAlike m c none m' c' none) :
      Turn.Alike (.done ret m c ep) (.done ret m' c' ep')
  | next {m c a m' c' a'} (sending : Sending m c a m' c' a') :
      Turn.Alike (.next m c (some a)) (.next m' c' (some a'))
  | last {m c m' c'} (client : c.Alike c') (queue : TxAlike m c none m' c' none) :
      Turn.Alike (.next m c none) (.next m' c' none)

structure Flush.Alike (f f' : Flush) : Prop where
  ret : f.ret = f'.ret
  sent : f.sent = f'.sent
  client : f.client.Alike f'.client
  queue : TxAlike f.mem f.client none f'.mem f'.client none

section Transmitting

variable {m m' : TxMem} {c c' : Client} {out out' : Option Addr} {a a' : Addr}

/-- The queue depends on the links of the client only, and a message in
hand is not in it. -/
theorem TxAlike.congr (h : TxAlike m c out m' c' out') {d d' : Client} (hhead : d.head = c.head)
    (htail : d.tail = c.tail) (hhead' : d'.head = c'.head) (htail' : d'.tail = c'.tail) :
    TxAlike m d none m' d' none := by
  obtain ⟨xs, xs', hq, hq', hval, -, -⟩ := h
  rw [← hhead, ← htail] at hq
  rw [← hhead', ← htail'] at hq'
  exact ⟨xs, xs', hq, hq', hval, by simp, by simp⟩

theorem txAlike_nil (m m' : TxMem) {c c' : Client} (hhead : c.head = none) (htail : c.tail = none)
    (hhead' : c'.head = none) (htail' : c'.tail = none) : TxAlike m c none m' c' none :=
  ⟨[], [], ⟨hhead, htail⟩, ⟨hhead', htail'⟩, rfl, by simp, by simp⟩

theorem TxAlike.setVal (h : TxAlike m c (some a) m' c' (some a')) (v v' : DataTransmit) :
    TxAlike (Function.update m a { m a with val := v }) c (some a)
      (Function.update m' a' { m' a' with val := v' }) c' (some a') := by
  obtain ⟨xs, xs', hq, hq', hval, hout, hout'⟩ := h
  have hlinks : ∀ (m : TxMem) (a : Addr) (v : DataTransmit),
      Mem.links (Function.update m a { m a with val := v } : TxMem) = m.links := by
    intro m a v
    funext b
    by_cases hb : b = a
    · subst hb
      simp [Mem.links]
    · simp [Mem.links, hb]
  have hkeep : ∀ (m : TxMem) (a : Addr) (v : DataTransmit) (xs : List Addr), a ∉ xs →
      (xs.map fun b => ((Function.update m a { m a with val := v } : TxMem) b).val) =
        xs.map fun b => (m b).val := by
    intro m a v xs ha
    refine List.map_congr_left fun b hb => ?_
    rw [Function.update_of_ne (by rintro rfl; exact ha hb)]
  refine ⟨xs, xs', ?_, ?_, ?_, hout, hout'⟩
  · rw [hlinks]
    exact hq
  · rw [hlinks]
    exact hq'
  · rw [hkeep m a v xs (hout a rfl), hkeep m' a' v' xs' (hout' a' rfl), hval]

/-- The links are not compared, and the counters change alike. -/
theorem Client.Alike.setTx (h : c.Alike c') (head tail head' tail' : Option Addr) {n n' : ℕ}
    (hn : n = n') :
    ({ c with head, tail, bytesNeedToSend := n } : Client).Alike
      { c' with head := head', tail := tail', bytesNeedToSend := n' } :=
  { h with bytesNeedToSend := hn, received := h.received }

theorem enqueueMessage_alike (h : c.Alike c') {node node' : Option Addr}
    (hnode : node.isSome = node'.isSome) (data : List UInt8) :
    (enqueueMessage m c node data).2.2.Alike (enqueueMessage m' c' node' data).2.2 := by
  have hbytes := congrArg (· + data.length) h.bytesNeedToSend
  cases node with
  | none =>
      obtain rfl : node' = none := by simpa using hnode.symm
      exact h
  | some a =>
      obtain ⟨a', rfl⟩ := Option.isSome_iff_exists.mp hnode.symm
      cases htail : c.tail <;> cases htail' : c'.tail <;>
        simp only [enqueueMessage, htail, htail'] <;> exact h.setTx _ _ _ _ hbytes

theorem TxAlike.enqueue (h : TxAlike m c (some a) m' c' (some a')) (data : List UInt8) :
    TxAlike (enqueueMessage m c (some a) data).2.1 (enqueueMessage m c (some a) data).2.2 none
      (enqueueMessage m' c' (some a') data).2.1 (enqueueMessage m' c' (some a') data).2.2 none := by
  obtain ⟨xs, xs', hq, hq', hval, hout, hout'⟩ := h
  have hkeep : ∀ (m : TxMem) (c : Client) (a : Addr) (xs : List Addr), a ∉ xs →
      ((xs ++ [a]).map fun b => ((enqueueMessage m c (some a) data).2.1 b).val) =
        (xs.map fun b => (m b).val) ++ [⟨data, 0⟩] := by
    intro m c a xs ha
    simp only [val_enqueueMessage, List.map_append, List.map_cons, List.map_nil, Mem.val_alloc_self]
    congr 1
    refine List.map_congr_left fun b hb => ?_
    rw [Mem.val_alloc_of_ne _ _ (by rintro rfl; exact ha hb)]
  refine ⟨xs ++ [a], xs' ++ [a'], enqueueMessage_queue hq (hout a rfl) data,
    enqueueMessage_queue hq' (hout' a' rfl) data, ?_, by simp, by simp⟩
  rw [hkeep m c a xs (hout a rfl), hkeep m' c' a' xs' (hout' a' rfl), hval]

theorem flushTurn_alike (h : Sending m c a m' c' a') (now : ℕ) (ep ep' : Epoll) (ret : ℤ) :
    (flushTurn now m c ep a ret).Alike (flushTurn now m' c' ep' a' ret) := by
  have hqueue : TxAlike m c none m' c' none := h.queue.congr rfl rfl rfl rfl
  have hbytes := congrArg (· - ret.toNat) h.client.bytesNeedToSend
  unfold flushTurn
  split
  · exact .done h.client hqueue
  split
  · exact .done h.client hqueue
  split
  · exact .done h.client hqueue
  split
  · have hqueue' := h.queue.setVal ⟨(m a).val.data, (m a).val.offset + ret.toNat⟩
      ⟨(m' a').val.data, (m' a').val.offset + ret.toNat⟩
    simp only [← h.val] at hqueue' ⊢
    split
    · exact .done ((h.client.setTx _ _ _ _ hbytes).setActive now) (hqueue'.congr rfl rfl rfl rfl)
    · -- the link of the message in hand was cleared, so nothing is left
      simp only [Function.update_self, h.link, h.link', if_true]
      exact .last ((h.client.setTx _ _ _ _ hbytes).setActive now) (txAlike_nil _ _ rfl rfl rfl rfl)
  · exact .next h

theorem flushLoop_none_alike (h : c.Alike c') (hqueue : TxAlike m c none m' c' none) (now : ℕ)
    (ep ep' : Epoll) (fuel : ℕ) (script : List WriteRes) (sent : List UInt8) :
    (flushLoop now ep fuel m c none script sent).Alike
      (flushLoop now ep' fuel m' c' none script sent) := by
  cases fuel <;> exact ⟨rfl, rfl, h.setActive now, hqueue.congr rfl rfl rfl rfl⟩

theorem flushLoop_alike (h : Sending m c a m' c' a') (now : ℕ) (ep ep' : Epoll) (fuel : ℕ)
    (script : List WriteRes) (sent : List UInt8) :
    (flushLoop now ep fuel m c (some a) script sent).Alike
      (flushLoop now ep' fuel m' c' (some a') script sent) := by
  induction fuel generalizing m c a m' c' a' script sent with
  | zero => exact ⟨rfl, rfl, h.client, h.queue.congr rfl rfl rfl rfl⟩
  | succ fuel ih =>
      have hturn := flushTurn_alike h now ep ep'
        (sendDataToClientTls script (m a).val.rest).1
      simp only [flushLoop, ← h.val]
      generalize flushTurn now m c ep a _ = turn at hturn ⊢
      generalize flushTurn now m' c' ep' a' _ = turn' at hturn ⊢
      cases hturn with
      | done client queue => exact ⟨rfl, rfl, client, queue⟩
      | next sending => exact ih sending _ _
      | last client queue => exact flushLoop_none_alike client queue now ep ep' fuel _ _

theorem TxAlike.dequeue {xs xs' : List Addr} (h : c.Alike c')
    (hq : Queue m.links c.head c.tail (a :: xs)) (hq' : Queue m'.links c'.head c'.tail (a' :: xs'))
    (hval : ((a :: xs).map fun b => (m b).val) = (a' :: xs').map fun b => (m' b).val) :
    Sending (m.setLink a none) (c.unlink m a) a (m'.setLink a' none) (c'.unlink m' a') a' := by
  simp only [List.map_cons, List.cons.injEq] at hval
  refine ⟨h.setTx _ _ _ _ h.bytesNeedToSend, ⟨xs, xs', ?_, ?_, ?_, ?_, ?_⟩, ?_, ?_, ?_⟩
  · rw [Mem.links_setLink]
    exact hq.dequeue
  · rw [Mem.links_setLink]
    exact hq'.dequeue
  · simpa using hval.2
  · simpa using (List.nodup_cons.mp hq.chain.nodup).1
  · simpa using (List.nodup_cons.mp hq'.chain.nodup).1
  · simpa using hval.1
  · simp [Mem.setLink]
  · simp [Mem.setLink]

theorem clientFlushTxTls_alike (h : c.Alike c') (hqueue : TxAlike m c none m' c' none)
    (ep ep' : Epoll) (script : List WriteRes) (now : ℕ) :
    (clientFlushTxTls m c ep script now).Alike (clientFlushTxTls m' c' ep' script now) := by
  have hkeep := hqueue
  obtain ⟨xs, xs', hq, hq', hval, -, -⟩ := hqueue
  cases xs with
  | nil =>
      obtain rfl : xs' = [] := List.map_eq_nil_iff.mp hval.symm
      have hhead : c.head = none := hq.chain
      have hhead' : c'.head = none := hq'.chain
      simp only [clientFlushTxTls, dequeueMessage, hhead, hhead']
      exact ⟨rfl, rfl, h, hkeep⟩
  | cons a xs =>
      cases xs' with
      | nil => simp at hval
      | cons a' xs' =>
          have hhead : c.head = some a := hq.chain.1
          have hhead' : c'.head = some a' := hq'.chain.1
          simp only [clientFlushTxTls, dequeueMessage, hhead, hhead']
          exact flushLoop_alike (TxAlike.dequeue h hq hq' hval) now ep ep' _ script []

end Transmitting

/-! ### The connection of a slot -/

/-- Slot `i` has the descriptor `fd`, or was closed; no other slot has
it. -/
structure Server.Serves (sv : Server) (i : ℕ) (fd : ℤ) : Prop where
  lt : i < maxClients
  nonneg : 0 ≤ fd
  slot : (sv.clients i).fd = fd ∨ (sv.clients i).fd = -1 ∧ (sv.clients i).alive = false
  others : ∀ j < maxClients, j ≠ i → (sv.clients j).fd ≠ fd

/-- Two servers whose slots `i` are in the same state of a connection. -/
structure Server.Alike (i : ℕ) (fd fd' : ℤ) (sv sv' : Server) : Prop where
  serves : sv.Serves i fd
  serves' : sv'.Serves i fd'
  closed : (sv.clients i).fd = -1 ↔ (sv'.clients i).fd = -1
  client : (sv.clients i).Alike (sv'.clients i)
  queue : TxAlike sv.mem (sv.clients i) none sv'.mem (sv'.clients i) none

section Serving

variable {sv sv' t t' : Server} {i : ℕ} {fd fd' : ℤ}

theorem Server.Serves.fd_eq (h : sv.Serves i fd) (halive : (sv.clients i).alive = true) :
    (sv.clients i).fd = fd :=
  h.slot.resolve_right fun hclosed => by simp [halive] at hclosed

theorem Server.Serves.fdToSlot_eq (h : sv.Serves i fd) :
    fdToSlot sv.clients fd maxClients = if (sv.clients i).alive = true then some i else none := by
  cases hfound : fdToSlot sv.clients fd maxClients with
  | none =>
      split
      next halive =>
        have hfd := h.fd_eq halive
        obtain ⟨j, hj⟩ := exists_fdToSlot h.lt halive (by rw [hfd]; exact h.nonneg)
        rw [hfd, hfound] at hj
        cases hj
      next => rfl
  | some j =>
      obtain ⟨-, hlt, halive, hfd⟩ := fdToSlot_spec hfound
      obtain rfl : j = i := by
        by_contra hne
        exact h.others j hlt hne hfd
      rw [if_pos halive]

theorem Server.Alike.fdToSlot_eq (h : Server.Alike i fd fd' sv sv') :
    fdToSlot sv.clients fd maxClients = fdToSlot sv'.clients fd' maxClients := by
  rw [h.serves.fdToSlot_eq, h.serves'.fdToSlot_eq, h.client.alive]

/-- A change at the slot that keeps its descriptor and does not revive it. -/
theorem Server.Serves.of_change (h : sv.Serves i fd)
    (hothers : ∀ j, j ≠ i → t.clients j = sv.clients j)
    (hfd : (t.clients i).fd = (sv.clients i).fd)
    (halive : (t.clients i).alive = true → (sv.clients i).alive = true) : t.Serves i fd where
  lt := h.lt
  nonneg := h.nonneg
  slot := by
    rw [hfd]
    refine h.slot.imp_right fun hclosed => ⟨hclosed.1, ?_⟩
    rw [Bool.eq_false_iff]
    intro ht
    simp [halive ht] at hclosed
  others := fun j hj hne => by
    rw [hothers j hne]
    exact h.others j hj hne

theorem Server.Alike.of_change (h : Server.Alike i fd fd' sv sv')
    (hothers : ∀ j, j ≠ i → t.clients j = sv.clients j)
    (hothers' : ∀ j, j ≠ i → t'.clients j = sv'.clients j)
    (hfd : (t.clients i).fd = (sv.clients i).fd) (hfd' : (t'.clients i).fd = (sv'.clients i).fd)
    (halive : (t.clients i).alive = true → (sv.clients i).alive = true)
    (hclient : (t.clients i).Alike (t'.clients i))
    (hqueue : TxAlike t.mem (t.clients i) none t'.mem (t'.clients i) none) :
    Server.Alike i fd fd' t t' where
  serves := h.serves.of_change hothers hfd halive
  serves' := by
    refine h.serves'.of_change hothers' hfd' ?_
    rwa [← hclient.alive, ← h.client.alive]
  closed := by rw [hfd, hfd', h.closed]
  client := hclient
  queue := hqueue

theorem Server.Alike.setClient (h : Server.Alike i fd fd' sv sv') {c c' : Client} (hc : c.Alike c')
    (hfd : c.fd = (sv.clients i).fd) (hfd' : c'.fd = (sv'.clients i).fd)
    (halive : c.alive = true → (sv.clients i).alive = true)
    (hhead : c.head = (sv.clients i).head) (htail : c.tail = (sv.clients i).tail)
    (hhead' : c'.head = (sv'.clients i).head) (htail' : c'.tail = (sv'.clients i).tail) :
    Server.Alike i fd fd' (sv.setClient i c) (sv'.setClient i c') := by
  refine h.of_change (fun j hj => sv.setClient_of_ne hj c) (fun j hj => sv'.setClient_of_ne hj c')
    ?_ ?_ ?_ ?_ ?_
  · rw [sv.setClient_self, hfd]
  · rw [sv'.setClient_self, hfd']
  · rw [sv.setClient_self]
    exact halive
  · rw [sv.setClient_self, sv'.setClient_self]
    exact hc
  · rw [sv.setClient_self, sv'.setClient_self]
    exact h.queue.congr hhead htail hhead' htail'

theorem Server.Alike.setEpoll (h : Server.Alike i fd fd' sv sv') (ep ep' : Epoll) :
    Server.Alike i fd fd' { sv with epoll := ep } { sv' with epoll := ep' } :=
  h.of_change (fun _ _ => rfl) (fun _ _ => rfl) rfl rfl id h.client h.queue

theorem Client.Alike.vacate {c c' : Client} (h : c.Alike c') : c.vacate.Alike c'.vacate where
  alive := rfl
  rate := h.rate
  stage := h.stage
  rxLen := rfl
  received := rfl
  bytesNeedToSend := rfl
  lastActiveMs := h.lastActiveMs
  ssl := rfl
  tlsHandshakeDone := h.tlsHandshakeDone
  tlsReadPending := h.tlsReadPending
  header halive := by cases halive

theorem Server.Serves.close (h : sv.Serves i fd) :
    (sv.close i).Serves i fd ∧ ((sv.close i).clients i).fd = -1 := by
  have hfd : ((sv.close i).clients i).fd = -1 := by
    have hnonneg := h.nonneg
    simp only [sv.close_self, Client.vacate]
    rcases h.slot with hslot | ⟨hslot, -⟩
    · rw [if_pos (by omega)]
    · rw [if_neg (by omega), hslot]
  refine ⟨⟨h.lt, h.nonneg, .inr ⟨hfd, by rw [sv.close_self]; rfl⟩, fun j hj hne => ?_⟩, hfd⟩
  rw [sv.close_of_ne hne]
  exact h.others j hj hne

theorem Server.Alike.close (h : Server.Alike i fd fd' sv sv') :
    Server.Alike i fd fd' (sv.close i) (sv'.close i) := by
  obtain ⟨hserves, hfd⟩ := h.serves.close
  obtain ⟨hserves', hfd'⟩ := h.serves'.close
  refine ⟨hserves, hserves', by rw [hfd, hfd'], ?_, ?_⟩
  · rw [sv.close_self, sv'.close_self]
    exact h.client.vacate
  · rw [sv.close_self, sv'.close_self]
    exact txAlike_nil _ _ rfl rfl rfl rfl

theorem Server.Alike.arrive (h : Server.Alike i fd fd' sv sv') (item : SockItem) :
    Server.Alike i fd fd' (sv.arrive i item) (sv'.arrive i item) := by
  refine h.setClient ?_ rfl rfl id rfl rfl rfl rfl
  rw [h.client.ssl]
  exact h.client.setSsl _

theorem tlsTryHandshake_alike (h : Server.Alike i fd fd' sv sv') (hs : Handshake) :
    Server.Alike i fd fd' (tlsTryHandshake sv i hs) (tlsTryHandshake sv' i hs) := by
  cases hs with
  | done =>
      have hclient : ({ sv.clients i with tlsHandshakeDone := true } : Client).Alike
          { sv'.clients i with tlsHandshakeDone := true } :=
        { h.client with tlsHandshakeDone := rfl, received := h.client.received }
      exact (h.setClient hclient rfl rfl id rfl rfl rfl rfl).setEpoll _ _
  | wantRead => exact h.setEpoll _ _
  | wantWrite => exact h.setEpoll _ _
  | failed => exact h.close

theorem TxAlike.fresh (h : TxAlike sv.mem (sv.clients i) none sv'.mem (sv'.clients i) none)
    {a a' : Addr} (ha : sv.FreshNode i a) (ha' : sv'.FreshNode i a') :
    TxAlike sv.mem (sv.clients i) (some a) sv'.mem (sv'.clients i) (some a') := by
  obtain ⟨xs, xs', hq, hq', hval, -, -⟩ := h
  exact ⟨xs, xs', hq, hq', hval, by simpa using ha xs hq.chain, by simpa using ha' xs' hq'.chain⟩

def malloc (ok : Bool) (a : Addr) : Option Addr := if ok then some a else none

theorem Server.Alike.enqueue (h : Server.Alike i fd fd' sv sv') {a a' : Addr}
    (ha : sv.FreshNode i a) (ha' : sv'.FreshNode i a') (ok : Bool) (data : List UInt8) :
    Server.Alike i fd fd' (sv.enqueue i (malloc ok a) data)
      (sv'.enqueue i (malloc ok a') data) := by
  have hsame := enqueue_sameButTx sv i (malloc ok a) data
  have hsame' := enqueue_sameButTx sv' i (malloc ok a') data
  refine h.of_change (Local.enqueue sv i _ data).clients (Local.enqueue sv' i _ data).clients
    hsame.fd_eq hsame'.fd_eq ?_ ?_ ?_
  · rw [hsame]
    exact id
  · rw [sv.enqueue_self, sv'.enqueue_self]
    exact enqueueMessage_alike h.client (by cases ok <;> rfl) data
  · rw [sv.enqueue_self, sv'.enqueue_self]
    cases ok with
    | false => exact h.queue
    | true => exact (h.queue.fresh ha ha').enqueue data

theorem Server.Alike.emit (h : Server.Alike i fd fd' sv sv') {a a' : Addr}
    (ha : sv.FreshNode i a) (ha' : sv'.FreshNode i a') (ok : Bool) {out out' : ReaderOut}
    (hout : out.anonymous = out'.anonymous) :
    Server.Alike i fd fd' (sv.emit i (malloc ok a) out) (sv'.emit i (malloc ok a') out') := by
  cases out with
  | nothing =>
      cases out' with
      | nothing => exact h
      | push t => cases hout
      | packet bs => cases hout
  | push t =>
      cases out' with
      | nothing => cases hout
      | push t' => exact h
      | packet bs => cases hout
  | packet bs =>
      cases out' with
      | nothing => cases hout
      | push t => cases hout
      | packet bs' =>
          obtain rfl : bs = bs' := ReaderOut.packet.inj hout
          exact (h.enqueue ha ha' ok bs).setEpoll _ _

theorem Server.FreshNode.setClient {a : Addr} (h : sv.FreshNode i a) {c : Client}
    (hhead : c.head = (sv.clients i).head) : (sv.setClient i c).FreshNode i a := by
  intro xs hxs
  rw [sv.setClient_self, hhead] at hxs
  exact h xs hxs

theorem Server.Alike.allow (h : Server.Alike i fd fd' sv sv') {env env' : RequestEnv}
    (hnow : env.now = env'.now) (hnow' : env.now' = env'.now') :
    (sv.allow i env).1 = (sv'.allow i env').1 ∧
      Server.Alike i fd fd' (sv.allow i env).2 (sv'.allow i env').2 := by
  unfold Server.allow
  rw [← h.client.rate, ← hnow, ← hnow']
  have hclient := h.client
  exact ⟨rfl, h.setClient { hclient with rate := rfl, received := hclient.received }
    rfl rfl id rfl rfl rfl rfl⟩

theorem Server.Alike.discard (h : Server.Alike i fd fd' sv sv') :
    Server.Alike i fd fd' (sv.setClient i (sv.clients i).discard)
      (sv'.setClient i (sv'.clients i).discard) := by
  refine h.setClient ?_ rfl rfl id rfl rfl rfl rfl
  rw [Client.discard, Client.discard, h.client.ssl]
  exact h.client.setSsl _

theorem Server.Alike.read (h : Server.Alike i fd fd' sv sv') (halive : (sv.clients i).alive = true)
    {a a' : Addr} (ha : sv.FreshNode i a) (ha' : sv'.FreshNode i a') {ok : Bool}
    {env env' : RequestEnv} (hread : env.read = env'.read) (hnode : env.node = malloc ok a)
    (hnode' : env'.node = malloc ok a') :
    (sv.read i env).1.anonymous = (sv'.read i env').1.anonymous ∧
      Server.Alike i fd fd' (sv.read i env).2 (sv'.read i env').2 := by
  have hslot : fdToSlot sv.clients (sv.clients i).fd maxClients =
      fdToSlot sv'.clients (sv'.clients i).fd maxClients := by
    rw [h.serves.fd_eq halive, h.serves'.fd_eq (h.client.alive ▸ halive), h.fdToSlot_eq]
  have hcall : (clientReadMessage sv.clients i env.read).Alike
      (clientReadMessage sv'.clients i env.read) :=
    clientReadMessage_alike h.client halive hslot
  obtain ⟨hsame, -⟩ := clientReadMessage_frame env.read sv.clients i
  obtain ⟨hsame', -⟩ := clientReadMessage_frame env.read sv'.clients i
  unfold Server.read
  rw [← hread, hnode, hnode']
  generalize clientReadMessage sv.clients i env.read = call at hcall hsame ⊢
  generalize clientReadMessage sv'.clients i env.read = call' at hcall hsame' ⊢
  have hset := h.setClient hcall.client hsame.fd hsame'.fd (fun _ => halive) hsame.head hsame.tail
    hsame'.head hsame'.tail
  have hemit := hset.emit (ha.setClient hsame.head) (ha'.setClient hsame'.head) ok hcall.out
  refine ⟨hcall.out, ?_⟩
  simp only [← hcall.ret]
  split
  · exact hemit.close
  · exact hemit

/-! ### What happens on a connection -/

/-- What can happen on a connection once it is accepted. `ok` says whether
`malloc` succeeds. -/
inductive ConnOp
  /-- Something reaches the socket. -/
  | arrive (item : SockItem)
  /-- The socket is readable. -/
  | request (handshake : Handshake) (now now' : ℕ) (read : ReadEnv) (ok : Bool)
  /-- A worker has a response for the connection. -/
  | respond (type : UInt16) (requestId : UInt32) (payload : List UInt8) (ok : Bool)
  /-- The socket is writable. -/
  | sendable (env : SendEnv)
  /-- `reap_client` looks at the slot. -/
  | reap (now : ℕ)

/-- What comes of it: the verdict of `request_allow`, if it is asked, with
what the reader hands on; the bytes that are queued; the bytes `SSL_write`
takes. -/
inductive ConnOut
  | nothing
  | request (verdict : Option Bool) (out : ReaderOut)
  | queued (data : Option (List UInt8))
  | sent (data : List UInt8)
  deriving DecidableEq

/-- The verdict of `request_allow`, if it is asked. -/
def Server.verdict (sv : Server) (clientFd : ℤ) (env : RequestEnv) : Option Bool :=
  match fdToSlot sv.clients clientFd maxClients with
  | none => none
  | some slot =>
      if (sv.clients slot).tlsHandshakeDone = true then some (sv.allow slot env).1 else none

/-- The bytes `SSL_write` takes in `handle_client_sendable`. -/
def Server.sent (sv : Server) (clientFd : ℤ) (env : SendEnv) : List UInt8 :=
  match fdToSlot sv.clients clientFd maxClients with
  | none => []
  | some slot =>
      if (sv.clients slot).tlsHandshakeDone = true then
        (clientFlushTxTls sv.mem (sv.clients slot) sv.epoll env.script env.now).sent
      else []

def Server.response (sv : Server) (i : ℕ) (type : UInt16) (requestId : UInt32)
    (payload : List UInt8) : Response :=
  ⟨i, (sv.clients i).generation, type, requestId, payload⟩

/-- An operation on the connection of slot `i` with descriptor `fd`, with
the node `malloc` returns in it. -/
def connStep (i : ℕ) (fd : ℤ) (sv : Server) : ConnOp × Addr → ConnOut × Server
  | (.arrive item, _) => (.nothing, sv.arrive i item)
  | (.request handshake now now' read ok, a) =>
      let env : RequestEnv := ⟨handshake, now, now', read, malloc ok a⟩
      let res := handleRequestClient sv fd env
      (.request (sv.verdict fd env) res.1.anonymous, res.2)
  | (.respond type requestId payload ok, a) =>
      let rp := sv.response i type requestId payload
      (.queued (sv.accepted rp), sv.respond rp (malloc ok a))
  | (.sendable env, _) => (.sent (sv.sent fd env), handleClientSendable sv fd env)
  | (.reap now, _) => (.nothing, sv.reapSlot now i)

def ConnOp.allocates : ConnOp → Bool
  | .request _ _ _ _ _ => true
  | .respond _ _ _ _ => true
  | .arrive _ => false
  | .sendable _ => false
  | .reap _ => false

def Mallocs (i : ℕ) (sv : Server) (e : ConnOp × Addr) : Prop :=
  e.1.allocates = true → sv.FreshNode i e.2

theorem handleRequestClient_of_slot (h : fdToSlot sv.clients fd maxClients = some i)
    (env : RequestEnv) :
    handleRequestClient sv fd env =
      if (sv.clients i).tlsHandshakeDone = false then
        (.nothing, tlsTryHandshake sv i env.handshake)
      else if (sv.allow i env).1 = false then
        (.nothing, (sv.allow i env).2.setClient i ((sv.allow i env).2.clients i).discard)
      else (sv.allow i env).2.read i env := by
  simp only [handleRequestClient, h, (fdToSlot_spec h).2.2.1, Bool.true_eq_false, if_false]

theorem Server.verdict_of_slot (h : fdToSlot sv.clients fd maxClients = some i)
    (env : RequestEnv) :
    sv.verdict fd env =
      if (sv.clients i).tlsHandshakeDone = true then some (sv.allow i env).1 else none := by
  simp only [Server.verdict, h]

theorem handleRequestClient_alike (h : Server.Alike i fd fd' sv sv') {a a' : Addr}
    (ha : sv.FreshNode i a) (ha' : sv'.FreshNode i a') {ok : Bool} {env env' : RequestEnv}
    (hhandshake : env.handshake = env'.handshake) (hnow : env.now = env'.now)
    (hnow' : env.now' = env'.now') (hread : env.read = env'.read) (hnode : env.node = malloc ok a)
    (hnode' : env'.node = malloc ok a') :
    sv.verdict fd env = sv'.verdict fd' env' ∧
      (handleRequestClient sv fd env).1.anonymous =
        (handleRequestClient sv' fd' env').1.anonymous ∧
      Server.Alike i fd fd' (handleRequestClient sv fd env).2
        (handleRequestClient sv' fd' env').2 := by
  have hslot := h.serves.fdToSlot_eq
  have hslot' := h.fdToSlot_eq.symm.trans hslot
  by_cases halive : (sv.clients i).alive = true
  · rw [if_pos halive] at hslot hslot'
    obtain ⟨hverdict, hallow⟩ := h.allow hnow hnow'
    rw [handleRequestClient_of_slot hslot, handleRequestClient_of_slot hslot',
      Server.verdict_of_slot hslot, Server.verdict_of_slot hslot', ← h.client.tlsHandshakeDone,
      ← hverdict, ← hhandshake]
    refine ⟨rfl, ?_⟩
    split
    · exact ⟨rfl, tlsTryHandshake_alike h env.handshake⟩
    split
    · exact ⟨rfl, hallow.discard⟩
    · have halive' : ((sv.allow i env).2.clients i).alive = true := by
        rw [Server.allow, sv.setClient_self]
        exact halive
      exact hallow.read halive' (ha.setClient rfl) (ha'.setClient rfl) hread hnode hnode'
  · rw [if_neg halive] at hslot hslot'
    simp only [Server.verdict, handleRequestClient, hslot, hslot']
    exact ⟨trivial, trivial, h⟩

theorem Server.Alike.flush (h : Server.Alike i fd fd' sv sv') (script : List WriteRes) (now : ℕ) :
    (sv.flush i script now).1 = (sv'.flush i script now).1 ∧
      Server.Alike i fd fd' (sv.flush i script now).2 (sv'.flush i script now).2 := by
  have hflush := clientFlushTxTls_alike h.client h.queue sv.epoll sv'.epoll script now
  have hsame := sv.flush_sameButTx i script now
  have hsame' := sv'.flush_sameButTx i script now
  refine ⟨hflush.ret, h.of_change (sv.flush_isLocal i script now).clients
    (sv'.flush_isLocal i script now).clients hsame.fd_eq hsame'.fd_eq ?_ ?_ ?_⟩
  · rw [hsame]
    exact id
  · rw [sv.flush_self, sv'.flush_self]
    exact hflush.client
  · rw [sv.flush_self, sv'.flush_self]
    exact hflush.queue

theorem Server.Alike.send (h : Server.Alike i fd fd' sv sv') (env : SendEnv) :
    Server.Alike i fd fd' (sv.send i fd env) (sv'.send i fd' env) := by
  obtain ⟨hret, hflush⟩ := h.flush env.script env.now
  simp only [Server.send, ← hret]
  split
  · exact hflush.close
  split
  · exact hflush.close
  split
  · exact hflush
  · exact hflush.setEpoll _ _

theorem handleClientSendable_alike (h : Server.Alike i fd fd' sv sv') (env : SendEnv) :
    sv.sent fd env = sv'.sent fd' env ∧
      Server.Alike i fd fd' (handleClientSendable sv fd env)
        (handleClientSendable sv' fd' env) := by
  have hslot := h.serves.fdToSlot_eq
  have hslot' := h.fdToSlot_eq.symm.trans hslot
  by_cases halive : (sv.clients i).alive = true
  · rw [if_pos halive] at hslot hslot'
    simp only [Server.sent, handleClientSendable, hslot, hslot', ← h.client.alive, halive,
      ← h.client.tlsHandshakeDone, Bool.true_eq_false, if_false]
    refine ⟨?_, ?_⟩
    · rw [(clientFlushTxTls_alike h.client h.queue sv.epoll sv'.epoll env.script env.now).sent]
    · split
      · exact tlsTryHandshake_alike h env.handshake
      · exact h.send env
  · rw [if_neg halive] at hslot hslot'
    simp only [Server.sent, handleClientSendable, hslot, hslot']
    exact ⟨trivial, h⟩

/-- A response for the present connection is accepted as long as the
connection is open. -/
theorem Server.Alike.accepted (h : Server.Alike i fd fd' sv sv') (type : UInt16)
    (requestId : UInt32) (payload : List UInt8) :
    sv.accepted (sv.response i type requestId payload) =
      sv'.accepted (sv'.response i type requestId payload) := by
  have hcheck : ∀ sv : Server, checkResponseMessage (sv.response i type requestId payload)
      (sv.clients i) = true := fun sv => by simp [checkResponseMessage, Server.response]
  simp only [Server.accepted, show ∀ sv : Server,
    (sv.response i type requestId payload).slot = i from fun _ => rfl, hcheck, h.client.alive]
  rfl

theorem Server.Alike.respond (h : Server.Alike i fd fd' sv sv') {a a' : Addr}
    (ha : sv.FreshNode i a) (ha' : sv'.FreshNode i a') (type : UInt16) (requestId : UInt32)
    (payload : List UInt8) (ok : Bool) :
    Server.Alike i fd fd' (sv.respond (sv.response i type requestId payload) (malloc ok a))
      (sv'.respond (sv'.response i type requestId payload) (malloc ok a')) := by
  unfold Server.respond
  rw [← h.accepted type requestId payload]
  cases sv.accepted (sv.response i type requestId payload) with
  | none => exact h
  | some data =>
      cases ok with
      | false => exact h
      | true => exact (h.enqueue ha ha' true data).setEpoll _ _

theorem Server.Serves.nonneg_iff (h : sv.Serves i fd) :
    0 ≤ (sv.clients i).fd ↔ (sv.clients i).fd ≠ -1 := by
  have hnonneg := h.nonneg
  rcases h.slot with hslot | ⟨hslot, -⟩ <;> omega

theorem Server.Alike.reapSlot (h : Server.Alike i fd fd' sv sv') (now : ℕ) :
    Server.Alike i fd fd' (sv.reapSlot now i) (sv'.reapSlot now i) := by
  have hnonneg : 0 ≤ (sv.clients i).fd ↔ 0 ≤ (sv'.clients i).fd := by
    rw [h.serves.nonneg_iff, h.serves'.nonneg_iff, not_iff_not, h.closed]
  have hneg : (sv.clients i).fd < 0 ↔ (sv'.clients i).fd < 0 := by omega
  simp only [Server.reapSlot, ← hnonneg, ← hneg, ← h.client.alive, ← h.client.lastActiveMs]
  split_ifs
  · exact h.close
  · exact h
  · exact h.close
  · exact h

theorem connStep_alike (h : Server.Alike i fd fd' sv sv') {e e' : ConnOp × Addr}
    (hop : e.1 = e'.1) (hfresh : Mallocs i sv e) (hfresh' : Mallocs i sv' e') :
    (connStep i fd sv e).1 = (connStep i fd' sv' e').1 ∧
      Server.Alike i fd fd' (connStep i fd sv e).2 (connStep i fd' sv' e').2 := by
  obtain ⟨op, a⟩ := e
  obtain ⟨op', a'⟩ := e'
  obtain rfl : op = op' := hop
  cases op with
  | arrive item => exact ⟨rfl, h.arrive item⟩
  | request handshake now now' read ok =>
      obtain ⟨hverdict, hout, halike⟩ := @handleRequestClient_alike sv sv' i fd fd' h a a'
        (hfresh rfl) (hfresh' rfl) ok ⟨handshake, now, now', read, malloc ok a⟩
        ⟨handshake, now, now', read, malloc ok a'⟩ rfl rfl rfl rfl rfl rfl
      exact ⟨congrArg₂ ConnOut.request hverdict hout, halike⟩
  | respond type requestId payload ok =>
      exact ⟨congrArg ConnOut.queued (h.accepted type requestId payload),
        h.respond (hfresh rfl) (hfresh' rfl) type requestId payload ok⟩
  | sendable env =>
      obtain ⟨hsent, halike⟩ := handleClientSendable_alike h env
      exact ⟨congrArg ConnOut.sent hsent, halike⟩
  | reap now => exact ⟨rfl, h.reapSlot now⟩

/-! ### A new connection -/

theorem occupy_alike (c c' : Client) (fd fd' : ℤ) (now : ℕ) :
    (c.occupy fd now).Alike (c'.occupy fd' now) where
  alive := rfl
  rate := rfl
  stage := rfl
  rxLen := rfl
  received := rfl
  bytesNeedToSend := rfl
  lastActiveMs := rfl
  ssl := rfl
  tlsHandshakeDone := rfl
  tlsReadPending := rfl
  header _ hstage := by cases hstage

theorem Server.Serves.occupy (hfree : freeSlot sv.clients maxClients = some i) (hfd : 0 ≤ fd)
    (hfresh : sv.FreshFd fd) (now : ℕ) : (sv.occupy i fd now).Serves i fd := by
  refine ⟨(freeSlot_spec hfree).1, hfd, .inl (by rw [sv.occupy_self]; rfl), fun j hj hne => ?_⟩
  rw [sv.occupy_of_ne hne]
  exact hfresh j hj

theorem handleAcceptClient_alike {env env' : AcceptEnv}
    (hfree : freeSlot sv.clients maxClients = some i)
    (hfree' : freeSlot sv'.clients maxClients = some i)
    (hfd : 0 ≤ env.clientFd) (hfd' : 0 ≤ env'.clientFd)
    (hfresh : sv.FreshFd env.clientFd) (hfresh' : sv'.FreshFd env'.clientFd)
    (henv : env' = { env with clientFd := env'.clientFd }) :
    Server.Alike i env.clientFd env'.clientFd (handleAcceptClient sv env)
      (handleAcceptClient sv' env') := by
  have hstart : Server.Alike i env.clientFd env'.clientFd (sv.occupy i env.clientFd env.now)
      (sv'.occupy i env'.clientFd env.now) := by
    refine ⟨.occupy hfree hfd hfresh env.now, .occupy hfree' hfd' hfresh' env.now, ?_, ?_, ?_⟩
    · rw [sv.occupy_self, sv'.occupy_self]
      simp only [Client.occupy]
      omega
    · rw [sv.occupy_self, sv'.occupy_self]
      exact occupy_alike _ _ _ _ _
    · rw [sv.occupy_self, sv'.occupy_self]
      exact txAlike_nil _ _ rfl rfl rfl rfl
  generalize env'.clientFd = fd' at *
  subst henv
  rw [handleAcceptClient, handleAcceptClient, if_neg (by omega), if_neg (by dsimp only; omega),
    hfree, hfree']
  dsimp only
  split
  · exact hstart.close
  have hssl := (hstart.setEpoll (epollMod sv.epoll epollIn
    ((sv.occupy i env.clientFd env.now).clients i).fd) (epollMod sv'.epoll epollIn
    ((sv'.occupy i fd' env.now).clients i).fd)).setClient (hstart.client.setSsl (some ⟨[], [], 0⟩))
    rfl rfl id rfl rfl rfl rfl
  split
  · exact (hstart.setEpoll _ _).close
  split
  · exact hssl.close
  · exact tlsTryHandshake_alike hssl env.handshake

end Serving

/-- **Slots are used again without a trace.** Two servers, whatever has
happened on them before, give the slot `i` to a new connection, and the
same things happen on it: then both pass the same verdicts, hand on the
same tasks up to the generation, queue the same bytes and send the same
bytes. The descriptors that `accept4` returns are not in use, nor are the
nodes that `malloc` returns. -/
theorem slot_reuse_leaks_nothing {sv sv' : Server} {i : ℕ} {env env' : AcceptEnv}
    (hfree : freeSlot sv.clients maxClients = some i)
    (hfree' : freeSlot sv'.clients maxClients = some i)
    (hfd : 0 ≤ env.clientFd) (hfd' : 0 ≤ env'.clientFd)
    (hfresh : sv.FreshFd env.clientFd) (hfresh' : sv'.FreshFd env'.clientFd)
    (henv : env' = { env with clientFd := env'.clientFd }) {ops ops' : List (ConnOp × Addr)}
    (hops : ops.map Prod.fst = ops'.map Prod.fst)
    (hmalloc : Meets (connStep i env.clientFd) (Mallocs i) (handleAcceptClient sv env) ops)
    (hmalloc' : Meets (connStep i env'.clientFd) (Mallocs i) (handleAcceptClient sv' env') ops') :
    trace (connStep i env.clientFd) (handleAcceptClient sv env) ops =
      trace (connStep i env'.clientFd) (handleAcceptClient sv' env') ops' :=
  trace_eq_of_lockstep Prod.fst Prod.fst (Server.Alike i env.clientFd env'.clientFd)
    (fun _ _ _ _ halike hop hok hok' => connStep_alike halike hop hok hok')
    (handleAcceptClient_alike hfree hfree' hfd hfd' hfresh hfresh' henv) hops hmalloc hmalloc'

/-! A slot that was never used, and one that was closed in the middle of a
frame and with a message in its transmit queue. -/

def unusedServer : Server := ⟨fun _ => clientsInit, fun _ => ⟨⟨[], 0⟩, none⟩, fun _ => none,
  fun _ => 0, 0⟩

def usedServer : Server :=
  ({ unusedServer with
    clients := Function.update unusedServer.clients 0
      { clientsInit with
        fd := 7
        generation := 3
        alive := true
        stage := .readPayload
        dataReceive := fun _ => 255
        rxLen := 40
        tail := some 1
        head := some 1
        bytesNeedToSend := 5
        tlsHandshakeDone := true
        tlsReadPending := true } }).close 0

def acceptAs (fd : ℤ) : AcceptEnv := ⟨fd, 1000, true, true, true, .done⟩

def statusExchange (a : Addr) : List (ConnOp × Addr) :=
  ((recordOf (packet msgStatus 9 [])).map fun item => (ConnOp.arrive item, a)) ++
    [(.request .done 1000 1000 ⟨1000, 1000, true, true⟩ true, a),
      (.respond msgStatus 9 [] true, a), (.sendable ⟨.done, [.wrote 100], 1001⟩, a)]

theorem mallocs_of_head {i : ℕ} {sv : Server} {e : ConnOp × Addr}
    (h : e.1.allocates = true → (sv.clients i).head = none) : Mallocs i sv e := by
  intro halloc xs hxs
  rw [h halloc] at hxs
  rw [hxs.eq_nil_iff.mpr rfl]
  exact List.not_mem_nil

/-- The old bytes are not seen by the new connection, nor is the message
that was not sent. -/
theorem slot_reuse_leaks_nothing_statusExchange :
    trace (connStep 0 5) (handleAcceptClient usedServer (acceptAs 5)) (statusExchange 2) =
        trace (connStep 0 7) (handleAcceptClient unusedServer (acceptAs 7)) (statusExchange 1) ∧
      trace (connStep 0 7) (handleAcceptClient unusedServer (acceptAs 7)) (statusExchange 1) =
        [.nothing, .request (some true) (.push ⟨0, 0, msgStatus, 9, [], 6000, 0⟩),
          .queued (some (packet msgStatus 9 [])), .sent (packet msgStatus 9 [])] := by
  have hmalloc : Meets (connStep 0 5)
      (fun sv e => e.1.allocates = true → (sv.clients 0).head = none)
      (handleAcceptClient usedServer (acceptAs 5)) (statusExchange 2) := by decide +kernel
  have hmalloc' : Meets (connStep 0 7)
      (fun sv e => e.1.allocates = true → (sv.clients 0).head = none)
      (handleAcceptClient unusedServer (acceptAs 7)) (statusExchange 1) := by decide +kernel
  refine ⟨?_, by decide +kernel⟩
  exact @slot_reuse_leaks_nothing usedServer unusedServer 0 (acceptAs 5) (acceptAs 7)
    (by decide +kernel) (by decide +kernel) (by decide) (by decide) (by decide +kernel)
    (by decide +kernel) rfl (statusExchange 2) (statusExchange 1) rfl
    (hmalloc.mono fun _ _ => mallocs_of_head) (hmalloc'.mono fun _ _ => mallocs_of_head)

end LinuxMiniProjects.Gateway
