import LinuxMiniProjects.Lib.Machine
import LinuxMiniProjects.Gateway.Client

/-!
The transmit path of a TLS client (`client.c`): messages are queued with
`enqueue_message` and sent by `client_flush_tx_tls` whenever the socket
is writable.

What the queue owes the peer is a stream of bytes: what `SSL_write` has
accepted, followed by what is still queued, is what was enqueued. The
flush keeps that promise only in the simplest case. It unlinks the first
node before it sends it and never links it back, so a write that stops
short loses the rest of the message; and it continues with the successor
of a node whose link it has cleared, so a write that succeeds loses every
message behind the first.
-/

namespace LinuxMiniProjects.Gateway

open LinkedList Machine

/-! ### The queue -/

/-- `enqueue_message`; `a` is the node `malloc` returns, if it does. -/
def enqueueMessage (m : TxMem) (client : Client) (a : Option Addr) (data : List UInt8) :
    ℤ × TxMem × Client :=
  match a with
  | none => (-1, m, client)
  | some a =>
      let m := m.alloc a ⟨data, 0⟩
      match client.tail with
      | none =>
          (0, m, { client with
            head := some a
            tail := some a
            bytesNeedToSend := client.bytesNeedToSend + data.length })
      | some t =>
          (0, m.setLink t (some a), { client with
            tail := some a
            bytesNeedToSend := client.bytesNeedToSend + data.length })

/-- `dequeue_message`: the node is unlinked and its own link cleared. -/
def dequeueMessage (m : TxMem) (client : Client) : Option Addr × TxMem × Client :=
  match client.head with
  | none => (none, m, client)
  | some a =>
      (some a, m.setLink a none, { client with
        head := (m a).link
        tail := if (m a).link = none then none else client.tail })

/-! ### Sending -/

inductive WriteRes
  /-- Some bytes are accepted: `k + 1`, or all of them if they are
  fewer. -/
  | wrote (k : ℕ)
  /-- `SSL_ERROR_WANT_WRITE`. -/
  | wantWrite
  /-- `SSL_ERROR_WANT_READ`. -/
  | wantRead
  /-- `SSL_ERROR_ZERO_RETURN`. -/
  | zeroReturn
  /-- Any other error. -/
  | fatal
  /-- The call returns zero. -/
  | zero
  deriving DecidableEq, Repr

def toInt (n : ℕ) : ℤ := Int.bmod n (2 ^ 32)

/-- The loop of `send_data_to_client_tls`, with `sentTotal` of `len`
bytes accepted so far: the value returned, the number of bytes accepted
in the end, and the results of `SSL_write` that were not used. The
results are a script; when it has run out, the socket is full. -/
def sendLoop : List WriteRes → (sentTotal len : ℕ) → ℤ × ℕ × List WriteRes
  | [], sentTotal, len =>
      if len ≤ sentTotal then (toInt sentTotal, sentTotal, [])
      else (if 0 < sentTotal then toInt sentTotal else -2, sentTotal, [])
  | w :: ws, sentTotal, len =>
      if len ≤ sentTotal then (toInt sentTotal, sentTotal, w :: ws)
      else
        match w with
        | .wrote k => sendLoop ws (sentTotal + min (k + 1) (len - sentTotal)) len
        | .zero => (1, sentTotal, ws)
        | .wantWrite => (if 0 < sentTotal then toInt sentTotal else -2, sentTotal, ws)
        | .wantRead => (if 0 < sentTotal then toInt sentTotal else -3, sentTotal, ws)
        | .zeroReturn => (if 0 < sentTotal then toInt sentTotal else 0, sentTotal, ws)
        | .fatal => (if 0 < sentTotal then toInt sentTotal else -1, sentTotal, ws)

def sendDataToClientTls (script : List WriteRes) (data : List UInt8) :
    ℤ × ℕ × List WriteRes :=
  sendLoop script 0 data.length

def DataTransmit.rest (node : DataTransmit) : List UInt8 := node.data.drop node.offset

@[simp] theorem DataTransmit.rest_unsent (data : List UInt8) :
    (⟨data, 0⟩ : DataTransmit).rest = data := rfl

/-- What a flush leaves behind: its result, the nodes, the client, the
interest list and the bytes `SSL_write` has accepted. -/
structure Flush where
  ret : ℤ
  mem : TxMem
  client : Client
  epoll : Epoll
  sent : List UInt8

/-- A turn of the loop of `client_flush_tx_tls` returns, or goes on with
the node `sendData`. -/
inductive Turn
  | done (ret : ℤ) (m : TxMem) (client : Client) (ep : Epoll)
  | next (m : TxMem) (client : Client) (sendData : Option Addr)

/-- The turn for the node `a`, once `send_data_to_client_tls` has
returned `ret`. -/
def flushTurn (now : ℕ) (m : TxMem) (client : Client) (ep : Epoll) (a : Addr) (ret : ℤ) : Turn :=
  if ret = -1 ∨ ret = 0 then .done (if ret = 0 then 2 else -1) m client ep
  else if ret = -2 then .done 1 m client (epollMod ep epollInOut client.fd)
  else if ret = -3 then .done 1 m client (epollMod ep epollIn client.fd)
  else if 0 < ret then
    let node := (m a).val
    let m := Function.update m a { m a with val := ⟨node.data, node.offset + ret.toNat⟩ }
    let client := { client with
      bytesNeedToSend := client.bytesNeedToSend - ret.toNat
      lastActiveMs := now }
    if node.offset + ret.toNat < node.data.length then
      .done 1 m client (epollMod ep epollInOut client.fd)
    else
      let client := { client with
        head := (m a).link
        tail := if (m a).link = none then none else client.tail }
      .next m client client.head
  else .next m client (some a)

/-- The loop of `client_flush_tx_tls`. Every turn that does not return
has used at least one result of `SSL_write`, so the script bounds the
number of turns. -/
def flushLoop (now : ℕ) (ep : Epoll) :
    ℕ → TxMem → Client → Option Addr → List WriteRes → List UInt8 → Flush
  | _, m, client, none, _, sent =>
      ⟨0, m, { client with lastActiveMs := now }, epollMod ep epollIn client.fd, sent⟩
  | 0, m, client, some _, _, sent => ⟨1, m, client, ep, sent⟩
  | fuel + 1, m, client, some a, script, sent =>
      let rest := (m a).val.rest
      let (ret, n, script) := sendDataToClientTls script rest
      match flushTurn now m client ep a ret with
      | .done ret m client ep => ⟨ret, m, client, ep, sent ++ rest.take n⟩
      | .next m client sendData =>
          flushLoop now ep fuel m client sendData script (sent ++ rest.take n)

def clientFlushTxTls (m : TxMem) (client : Client) (ep : Epoll) (script : List WriteRes)
    (now : ℕ) : Flush :=
  match dequeueMessage m client with
  | (none, _, _) => ⟨0, m, client, ep, []⟩
  | (some a, m, client) => flushLoop now ep (script.length + 1) m client (some a) script []

/-! ### What a flush does

With the first message of the queue only, and with the results that
`SSL_write` gives for it. -/

/-- `SSL_write` accepts bytes or asks to be called again; it reports
neither an error nor a close. -/
def WriteRes.Benign : WriteRes → Prop
  | .wrote _ => True
  | .wantWrite => True
  | .wantRead => True
  | .zeroReturn => False
  | .fatal => False
  | .zero => False

/-- The number of bytes `SSL_write` is ready to accept before it asks to
be called again. -/
def grant : List WriteRes → ℕ
  | .wrote k :: ws => k + 1 + grant ws
  | _ => 0

/-- The value returned when `SSL_write` stops the loop: the count, or the
code if the count is zero. -/
theorem stop_spec {sentTotal len : ℕ} (h : ¬ len ≤ sentTotal) (code : ℤ) :
    (0 < sentTotal ∨ len = 0 →
      (if 0 < sentTotal then toInt sentTotal else code) = toInt sentTotal) ∧
      (sentTotal = 0 → 0 < len → (if 0 < sentTotal then toInt sentTotal else code) = code) := by
  constructor
  · intro h₀
    rw [if_pos (by omega)]
  · intro h₀ _
    rw [if_neg (by omega)]

/-- The loop accepts what the socket grants, up to the whole message, and
returns the count; only if nothing was accepted does it return a code. -/
theorem sendLoop_spec {ws : List WriteRes} (hws : ∀ w ∈ ws, w.Benign) {sentTotal len : ℕ}
    (hle : sentTotal ≤ len) :
    (sendLoop ws sentTotal len).2.1 = min len (sentTotal + grant ws) ∧
      (0 < min len (sentTotal + grant ws) ∨ len = 0 →
        (sendLoop ws sentTotal len).1 = toInt (min len (sentTotal + grant ws))) ∧
      (min len (sentTotal + grant ws) = 0 → 0 < len →
        (sendLoop ws sentTotal len).1 = if ws.head? = some .wantRead then -3 else -2) := by
  induction ws generalizing sentTotal with
  | nil =>
      simp only [sendLoop, grant, Nat.add_zero, Nat.min_eq_right hle]
      by_cases h : len ≤ sentTotal
      · simp only [if_pos h]
        exact ⟨trivial, fun _ => trivial, fun h₀ h₁ => by omega⟩
      · simp only [if_neg h, List.head?_nil, reduceCtorEq, if_false]
        exact ⟨trivial, stop_spec h (-2)⟩
  | cons w ws ih =>
      have hw := hws w (by simp)
      by_cases h : len ≤ sentTotal
      · obtain rfl : sentTotal = len := by omega
        simp only [sendLoop, le_refl, if_true, Nat.min_eq_left (Nat.le_add_right _ _)]
        exact ⟨trivial, fun _ => trivial, fun h₀ h₁ => by omega⟩
      cases w with
      | wrote k =>
          have hstep : sentTotal + min (k + 1) (len - sentTotal) ≤ len := by omega
          have hmin : min len (sentTotal + min (k + 1) (len - sentTotal) + grant ws) =
              min len (sentTotal + (k + 1 + grant ws)) := by omega
          obtain ⟨ih₁, ih₂, -⟩ := ih (fun w hw => hws w (by simp [hw])) hstep
          rw [hmin] at ih₁ ih₂
          simp only [sendLoop, if_neg h, grant]
          exact ⟨ih₁, ih₂, fun h₀ h₁ => by omega⟩
      | wantWrite =>
          simp only [sendLoop, if_neg h, grant, Nat.add_zero, Nat.min_eq_right hle,
            List.head?_cons, Option.some.injEq, reduceCtorEq, if_false]
          exact ⟨trivial, stop_spec h (-2)⟩
      | wantRead =>
          simp only [sendLoop, if_neg h, grant, Nat.add_zero, Nat.min_eq_right hle,
            List.head?_cons, if_true]
          exact ⟨trivial, stop_spec h (-3)⟩
      | zeroReturn | fatal | zero => exact hw.elim

theorem toInt_of_lt {n : ℕ} (h : n < 2 ^ 31) : toInt n = n := by
  unfold toInt
  rw [Int.bmod_def]
  split_ifs <;> omega

section Flush

variable {m : TxMem} {client : Client} {ep : Epoll} {script : List WriteRes} {now : ℕ} {a : Addr}

theorem flushTurn_close : flushTurn now m client ep a 0 = .done 2 m client ep := by
  simp [flushTurn]

theorem flushTurn_wantWrite :
    flushTurn now m client ep a (-2) = .done 1 m client (epollMod ep epollInOut client.fd) := by
  simp [flushTurn]

theorem flushTurn_wantRead :
    flushTurn now m client ep a (-3) = .done 1 m client (epollMod ep epollIn client.fd) := by
  simp [flushTurn]

theorem flushTurn_count {n : ℕ} (hn : 0 < n) :
    flushTurn now m client ep a n =
      let m' : TxMem := Function.update m a
        { m a with val := ⟨(m a).val.data, (m a).val.offset + n⟩ }
      let client' := { client with
        bytesNeedToSend := client.bytesNeedToSend - n
        lastActiveMs := now }
      if n < (m a).val.rest.length then
        .done 1 m' client' (epollMod ep epollInOut client.fd)
      else
        .next m' { client' with
          head := (m a).link
          tail := if (m a).link = none then none else client.tail } (m a).link := by
  have hlen : (m a).val.offset + n < (m a).val.data.length ↔ n < (m a).val.rest.length := by
    rw [DataTransmit.rest, List.length_drop]
    omega
  simp only [flushTurn, Int.toNat_natCast, Function.update_self, hlen]
  rw [if_neg (by omega), if_neg (by omega), if_neg (by omega), if_pos (by omega)]

/-- The client after `dequeue_message` has unlinked the node `a`. -/
def Client.unlink (client : Client) (m : TxMem) (a : Addr) : Client :=
  { client with
    head := (m a).link
    tail := if (m a).link = none then none else client.tail }

/-- A flush of a nonempty queue, up to the result of the first turn. -/
theorem clientFlushTxTls_of_head (hhead : client.head = some a) :
    clientFlushTxTls m client ep script now =
      match flushTurn now (m.setLink a none) (client.unlink m a) ep a
        (sendLoop script 0 (m a).val.rest.length).1 with
      | .done ret m' client' ep' =>
          ⟨ret, m', client', ep',
            (m a).val.rest.take (sendLoop script 0 (m a).val.rest.length).2.1⟩
      | .next m' client' sendData =>
          flushLoop now ep script.length m' client' sendData
            (sendLoop script 0 (m a).val.rest.length).2.2
            ((m a).val.rest.take (sendLoop script 0 (m a).val.rest.length).2.1) := by
  simp only [clientFlushTxTls, dequeueMessage, hhead, flushLoop, Mem.val_setLink,
    sendDataToClientTls, List.nil_append, Client.unlink]

theorem flush_empty_message (hhead : client.head = some a) (hrest : (m a).val.rest = []) :
    (clientFlushTxTls m client ep script now).ret = 2 := by
  have hsend : (sendLoop script 0 0).1 = 0 := by
    have h₀ : toInt 0 = 0 := toInt_of_lt (by decide)
    cases script <;> simp [sendLoop, h₀]
  rw [clientFlushTxTls_of_head hhead, hrest, List.length_nil, hsend, flushTurn_close]

/-- A write that is not complete returns `1` with the node unlinked: what
follows the node is still queued, what is left of the node is not. -/
theorem flush_short_write (ep : Epoll) (now : ℕ) (hhead : client.head = some a)
    (hws : ∀ w ∈ script, w.Benign) (hshort : (m a).val.rest.length < 2 ^ 31)
    (hlt : grant script < (m a).val.rest.length) :
    (clientFlushTxTls m client ep script now).ret = 1 ∧
      (clientFlushTxTls m client ep script now).client.head = (m a).link ∧
      (clientFlushTxTls m client ep script now).sent = (m a).val.rest.take (grant script) ∧
      ∀ b, b ≠ a → (clientFlushTxTls m client ep script now).mem b = m b := by
  obtain ⟨hn, hret, hcode⟩ := sendLoop_spec hws (Nat.zero_le (m a).val.rest.length)
  rw [Nat.zero_add, Nat.min_eq_right hlt.le] at hn hret hcode
  have hmem : ∀ b, b ≠ a → (m.setLink a none) b = m b := fun b hb => by
    simp [Mem.setLink, hb]
  rw [clientFlushTxTls_of_head hhead, hn]
  rcases Nat.eq_zero_or_pos (grant script) with h₀ | hpos
  · -- nothing was accepted: the code decides which interest is registered
    rw [hcode h₀ (by omega)]
    split_ifs
    · rw [flushTurn_wantRead]
      exact ⟨rfl, rfl, rfl, hmem⟩
    · rw [flushTurn_wantWrite]
      exact ⟨rfl, rfl, rfl, hmem⟩
  · -- part of the message was accepted
    rw [hret (.inl hpos), toInt_of_lt (by omega), flushTurn_count hpos]
    simp only [Mem.val_setLink, if_pos hlt]
    refine ⟨trivial, rfl, trivial, fun b hb => ?_⟩
    rw [Function.update_of_ne hb, hmem b hb]

/-- A complete write returns `0` and leaves the queue empty, whatever was
queued behind the message: its link was cleared when it was unlinked. -/
theorem flush_full_write (ep : Epoll) (now : ℕ) (hhead : client.head = some a)
    (hws : ∀ w ∈ script, w.Benign) (hshort : (m a).val.rest.length < 2 ^ 31)
    (hne : (m a).val.rest ≠ []) (hle : (m a).val.rest.length ≤ grant script) :
    (clientFlushTxTls m client ep script now).ret = 0 ∧
      (clientFlushTxTls m client ep script now).client.head = none ∧
      (clientFlushTxTls m client ep script now).client.tail = none ∧
      (clientFlushTxTls m client ep script now).client.bytesNeedToSend =
        client.bytesNeedToSend - (m a).val.rest.length ∧
      (clientFlushTxTls m client ep script now).sent = (m a).val.rest := by
  have hpos : 0 < (m a).val.rest.length := List.length_pos_of_ne_nil hne
  obtain ⟨hn, hret, -⟩ := sendLoop_spec hws (Nat.zero_le (m a).val.rest.length)
  rw [Nat.zero_add, Nat.min_eq_left hle] at hn hret
  have hlink : ((m.setLink a none) a).link = none := by simp [Mem.setLink]
  rw [clientFlushTxTls_of_head hhead, hn, hret (.inl hpos), toInt_of_lt hshort,
    flushTurn_count hpos]
  simp only [Mem.val_setLink, lt_irrefl, if_false, hlink, if_true]
  cases script with
  | nil => exact absurd hle (by simpa [grant] using hpos.ne')
  | cons w ws =>
      simp [flushLoop, Client.unlink]

end Flush

/-! ### What every flush does

For all results of `SSL_write`, errors and closes included. -/

def Client.SameButTx (c c' : Client) : Prop :=
  c' = { c with
    tail := c'.tail
    head := c'.head
    bytesNeedToSend := c'.bytesNeedToSend
    lastActiveMs := c'.lastActiveMs }

theorem Client.SameButTx.refl (c : Client) : c.SameButTx c := rfl

theorem Client.SameButTx.trans {c c' c'' : Client} (h : c.SameButTx c') (h' : c'.SameButTx c'') :
    c.SameButTx c'' := by
  unfold Client.SameButTx at *
  rw [h'.trans (by rw [h])]

theorem enqueueMessage_sameButTx (m : TxMem) (c : Client) (node : Option Addr)
    (data : List UInt8) : c.SameButTx (enqueueMessage m c node data).2.2 := by
  cases node with
  | none => rfl
  | some a => cases htail : c.tail <;> simp [enqueueMessage, htail, Client.SameButTx]

/-- What a flush leaves alone: the messages themselves, the rest of the
client, and the interest in other descriptors. -/
structure TxFrame (m : TxMem) (client : Client) (ep : Epoll) (m' : TxMem) (client' : Client)
    (ep' : Epoll) : Prop where
  data : ∀ b, (m' b).val.data = (m b).val.data
  same : client.SameButTx client'
  epoll : ∀ fd, fd ≠ client.fd → ep' fd = ep fd

theorem TxFrame.trans {m m' m'' : TxMem} {c c' c'' : Client} {ep ep' ep'' : Epoll}
    (h : TxFrame m c ep m' c' ep') (h' : TxFrame m' c' ep' m'' c'' ep'') :
    TxFrame m c ep m'' c'' ep'' where
  data b := (h'.data b).trans (h.data b)
  same := h.same.trans h'.same
  epoll fd hfd := by
    have hsame : c'.fd = c.fd := by rw [h.same]
    rw [h'.epoll fd (by rwa [hsame]), h.epoll fd hfd]

theorem epollMod_of_ne (ep : Epoll) (event : EpollMask) {fd fd' : ℤ} (h : fd' ≠ fd) :
    epollMod ep event fd fd' = ep fd' := Function.update_of_ne h _ _

theorem dequeueMessage_frame (m : TxMem) (client : Client) (ep : Epoll) :
    TxFrame m client ep (dequeueMessage m client).2.1 (dequeueMessage m client).2.2 ep := by
  unfold dequeueMessage
  split
  · exact ⟨fun _ => rfl, .refl client, fun _ _ => rfl⟩
  · exact ⟨fun b => by simp, rfl, fun _ _ => rfl⟩

/-- A turn that returns leaves these things alone, and so does one that
goes on. -/
def Turn.Frame (m : TxMem) (client : Client) (ep : Epoll) : Turn → Prop
  | .done _ m' client' ep' => TxFrame m client ep m' client' ep'
  | .next m' client' _ => TxFrame m client ep m' client' ep

theorem flushTurn_frame (now : ℕ) (m : TxMem) (client : Client) (ep : Epoll) (a : Addr) (ret : ℤ) :
    (flushTurn now m client ep a ret).Frame m client ep := by
  have hdata : ∀ offset b, ((Function.update m a
      { m a with val := ⟨(m a).val.data, offset⟩ } : TxMem) b).val.data = (m b).val.data := by
    intro offset b
    by_cases hb : b = a
    · subst hb
      simp
    · simp [hb]
  have hep : ∀ event fd, fd ≠ client.fd → epollMod ep event client.fd fd = ep fd :=
    fun event fd hfd => epollMod_of_ne ep event hfd
  unfold flushTurn
  split
  · exact ⟨fun _ => rfl, .refl client, fun _ _ => rfl⟩
  split
  · exact ⟨fun _ => rfl, .refl client, hep epollInOut⟩
  split
  · exact ⟨fun _ => rfl, .refl client, hep epollIn⟩
  split
  · dsimp only
    split
    · exact ⟨hdata _, rfl, hep epollInOut⟩
    · exact ⟨hdata _, rfl, fun _ _ => rfl⟩
  · exact ⟨fun _ => rfl, .refl client, fun _ _ => rfl⟩

theorem flushLoop_frame (now : ℕ) (ep : Epoll) (fuel : ℕ) (m : TxMem) (client : Client)
    (sendData : Option Addr) (script : List WriteRes) (sent : List UInt8) :
    TxFrame m client ep (flushLoop now ep fuel m client sendData script sent).mem
      (flushLoop now ep fuel m client sendData script sent).client
      (flushLoop now ep fuel m client sendData script sent).epoll := by
  induction fuel generalizing m client sendData script sent with
  | zero =>
      cases sendData with
      | none => exact ⟨fun _ => rfl, rfl, fun fd hfd => epollMod_of_ne ep epollIn hfd⟩
      | some a => exact ⟨fun _ => rfl, .refl client, fun _ _ => rfl⟩
  | succ fuel ih =>
      cases sendData with
      | none => exact ⟨fun _ => rfl, rfl, fun fd hfd => epollMod_of_ne ep epollIn hfd⟩
      | some a =>
          have hturn := flushTurn_frame now m client ep a
            (sendDataToClientTls script (m a).val.rest).1
          simp only [flushLoop]
          split
          next h =>
            rw [h] at hturn
            exact hturn
          next m' client' sendData' h =>
            rw [h] at hturn
            exact TxFrame.trans hturn (ih m' client' sendData' _ _)

theorem clientFlushTxTls_frame (m : TxMem) (client : Client) (ep : Epoll) (script : List WriteRes)
    (now : ℕ) :
    TxFrame m client ep (clientFlushTxTls m client ep script now).mem
      (clientFlushTxTls m client ep script now).client
      (clientFlushTxTls m client ep script now).epoll := by
  have hdequeue := dequeueMessage_frame m client ep
  unfold clientFlushTxTls
  split
  next => exact ⟨fun _ => rfl, .refl client, fun _ _ => rfl⟩
  next a m' client' h =>
    rw [h] at hdequeue
    exact hdequeue.trans (flushLoop_frame now ep _ m' client' (some a) script [])

/-- The values `send_data_to_client_tls` returns for a message of less
than 2 GiB. That `SSL_write` waits for input is returned only if it is
the first thing it reports. -/
theorem sendLoop_ret (ws : List WriteRes) {sentTotal len : ℕ} (hle : sentTotal ≤ len)
    (hshort : len < 2 ^ 31) :
    (∃ n : ℕ, (sendLoop ws sentTotal len).1 = n) ∨ (sendLoop ws sentTotal len).1 = -1 ∨
      (sendLoop ws sentTotal len).1 = -2 ∨
      (sendLoop ws sentTotal len).1 = -3 ∧ sentTotal = 0 ∧ ws.head? = some .wantRead := by
  have hcount : ∃ n : ℕ, toInt sentTotal = n := ⟨sentTotal, toInt_of_lt (by omega)⟩
  induction ws generalizing sentTotal with
  | nil =>
      by_cases h : len ≤ sentTotal
      · simp only [sendLoop, if_pos h]
        exact .inl hcount
      · simp only [sendLoop, if_neg h]
        split_ifs
        · exact .inl hcount
        · exact .inr (.inr (.inl rfl))
  | cons w ws ih =>
      by_cases h : len ≤ sentTotal
      · simp only [sendLoop, if_pos h]
        exact .inl hcount
      cases w with
      | wrote k =>
          have hstep : sentTotal + min (k + 1) (len - sentTotal) ≤ len := by omega
          simp only [sendLoop, if_neg h]
          obtain h' | h' | h' | ⟨-, h', -⟩ := ih hstep ⟨_, toInt_of_lt (by omega)⟩
          · exact .inl h'
          · exact .inr (.inl h')
          · exact .inr (.inr (.inl h'))
          · omega
      | zero =>
          simp only [sendLoop, if_neg h]
          exact .inl ⟨1, rfl⟩
      | wantWrite =>
          simp only [sendLoop, if_neg h]
          split_ifs
          · exact .inl hcount
          · exact .inr (.inr (.inl rfl))
      | wantRead =>
          simp only [sendLoop, if_neg h]
          split_ifs
          · exact .inl hcount
          · exact .inr (.inr (.inr ⟨rfl, by omega, rfl⟩))
      | zeroReturn =>
          simp only [sendLoop, if_neg h]
          split_ifs
          · exact .inl hcount
          · exact .inl ⟨0, rfl⟩
      | fatal =>
          simp only [sendLoop, if_neg h]
          split_ifs
          · exact .inl hcount
          · exact .inr (.inl rfl)

inductive Flushed (m : TxMem) (client : Client) (ep : Epoll) (script : List WriteRes) (a : Addr)
    (f : Flush) : Prop
  /-- With an error or a close. -/
  | closed (ret : f.ret = -1 ∨ f.ret = 2)
  /-- With an empty queue. -/
  | sent (ret : f.ret = 0) (head : f.client.head = none)
  /-- Waiting for the socket to become writable. -/
  | armed (ret : f.ret = 1) (epoll : f.epoll = epollMod ep epollInOut client.fd)
  /-- Waiting for input, with what followed the first message. -/
  | wantRead (ret : f.ret = 1) (script : script.head? = some .wantRead)
      (head : f.client.head = (m a).link)

theorem clientFlushTxTls_flushed {m : TxMem} {client : Client} {a : Addr} (ep : Epoll)
    (script : List WriteRes) (now : ℕ) (hhead : client.head = some a)
    (hshort : (m a).val.rest.length < 2 ^ 31) :
    Flushed m client ep script a (clientFlushTxTls m client ep script now) := by
  have hlink : ((m.setLink a none) a).link = none := by simp [Mem.setLink]
  rw [clientFlushTxTls_of_head hhead]
  obtain ⟨n, hn⟩ | h | h | ⟨h, -, hw⟩ :=
    sendLoop_ret script (Nat.zero_le (m a).val.rest.length) hshort
  · rw [hn]
    rcases Nat.eq_zero_or_pos n with rfl | hpos
    · rw [Nat.cast_zero, flushTurn_close]
      exact .closed (.inr rfl)
    · rw [flushTurn_count hpos]
      by_cases hlt : n < (m a).val.rest.length
      · simp only [Mem.val_setLink, if_pos hlt]
        exact .armed rfl rfl
      · -- the link of the node was cleared, so the loop ends here
        simp only [Mem.val_setLink, if_neg hlt, hlink]
        cases script.length <;> exact .sent rfl rfl
  · rw [h]
    exact .closed (.inl (by simp [flushTurn]))
  · rw [h, flushTurn_wantWrite]
    exact .armed rfl rfl
  · rw [h, flushTurn_wantRead]
    exact .wantRead rfl hw rfl

/-! ### The stream of a connection -/

/-- A client with its nodes; `enqueued` is everything that was put into
the transmit queue, `accepted` everything `SSL_write` has taken. -/
structure TxState where
  mem : TxMem
  client : Client
  epoll : Epoll
  enqueued : List UInt8
  accepted : List UInt8

inductive TxOp
  /-- `enqueue_message`, with the node `malloc` returns. -/
  | enqueue (a : Addr) (data : List UInt8)
  /-- `client_flush_tx_tls`, with the results of `SSL_write`. -/
  | flush (script : List WriteRes) (now : ℕ)

inductive TxOut
  | enqueued (ret : ℤ)
  | flushed (ret : ℤ)
  deriving DecidableEq

def txStep (s : TxState) : TxOp → TxOut × TxState
  | .enqueue a data =>
      let (ret, m, client) := enqueueMessage s.mem s.client (some a) data
      (.enqueued ret, { s with mem := m, client := client, enqueued := s.enqueued ++ data })
  | .flush script now =>
      let f := clientFlushTxTls s.mem s.client s.epoll script now
      (.flushed f.ret, { s with
        mem := f.mem
        client := f.client
        epoll := f.epoll
        accepted := s.accepted ++ f.sent })

/-- `malloc` does not return a node that is still queued, and `SSL_write`
is benign. -/
def TxOp.Legal (s : TxState) : TxOp → Prop
  | .enqueue a _ => ∀ xs, Chain s.mem.links s.client.head xs → a ∉ xs
  | .flush script _ => ∀ w ∈ script, w.Benign

def TxOp.Open (s : TxState) (op : TxOp) : Prop :=
  (txStep s op).1 ≠ .flushed (-1) ∧ (txStep s op).1 ≠ .flushed 2

/-- Messages as `packet_encode` makes them are far shorter than this. -/
def TxOp.Short : TxOp → Prop
  | .enqueue _ data => data.length < 2 ^ 31
  | .flush _ _ => True

/-- What the transmit queue promises: the accepted bytes are the first
ones of the stream, the others can be reached from `head`, and
`bytes_need_to_send` counts them. Only the first node can have been sent
in part. -/
structure TxState.Faithful (s : TxState) : Prop where
  accepted : s.accepted <+: s.enqueued
  queued : ∃ xs, Chain s.mem.links s.client.head xs ∧
    xs.flatMap (fun a => (s.mem a).val.rest) = s.enqueued.drop s.accepted.length ∧
    ∀ a ∈ xs.tail, (s.mem a).val.offset = 0
  bytes : s.client.bytesNeedToSend = s.enqueued.length - s.accepted.length

/-- The flush finds the queue empty, or the socket takes all that is left
of the first message and nothing waits behind it. -/
def SendsAll (s : TxState) : TxOp → Prop
  | .enqueue _ _ => True
  | .flush script _ =>
      ∀ xs, Chain s.mem.links s.client.head xs →
        match xs with
        | [] => True
        | a :: xs => (s.mem a).val.rest.length < 2 ^ 31 ∧
            (s.mem a).val.rest.length ≤ grant script ∧ ∀ b ∈ xs, (s.mem b).val.rest = []

/-- The queue contains the nodes `xs`, none of them sent in part. -/
structure TxState.Queued (s : TxState) (xs : List Addr) : Prop where
  queue : Queue s.mem.links s.client.head s.client.tail xs
  stream : s.enqueued = s.accepted ++ xs.flatMap fun a => (s.mem a).val.rest
  offset : ∀ a ∈ xs, (s.mem a).val.offset = 0
  bytes : s.client.bytesNeedToSend = (xs.flatMap fun a => (s.mem a).val.rest).length

theorem TxState.Queued.faithful {s : TxState} {xs : List Addr} (h : s.Queued xs) :
    s.Faithful where
  accepted := ⟨_, h.stream.symm⟩
  queued := ⟨xs, h.queue.chain, by rw [h.stream, List.drop_left],
    fun a ha => h.offset a (List.mem_of_mem_tail ha)⟩
  bytes := by rw [h.bytes, h.stream, List.length_append]; omega

theorem queued_nil {s : TxState} (hh : s.client.head = none) (ht : s.client.tail = none)
    (hb : s.client.bytesNeedToSend = 0) (hs : s.enqueued = s.accepted) : s.Queued [] :=
  ⟨⟨hh, ht⟩, by simp [hs], by simp, by simp [hb]⟩

section Step

variable {s : TxState} {xs : List Addr}

theorem flatMap_rest_alloc {a : Addr} (ha : a ∉ xs) (m : TxMem) (data : List UInt8) :
    (xs.flatMap fun b => ((m.alloc a ⟨data, 0⟩) b).val.rest) =
      xs.flatMap fun b => (m b).val.rest := by
  refine List.flatMap_congr fun b hb => ?_
  rw [Mem.val_alloc_of_ne _ _ (by rintro rfl; exact ha hb)]

theorem enqueueMessage_queue {m : TxMem} {client : Client}
    (h : Queue m.links client.head client.tail xs) {a : Addr} (ha : a ∉ xs) (data : List UInt8) :
    Queue (enqueueMessage m client (some a) data).2.1.links
      (enqueueMessage m client (some a) data).2.2.head
      (enqueueMessage m client (some a) data).2.2.tail (xs ++ [a]) := by
  cases htail : client.tail with
  | none =>
      obtain rfl : xs = [] := by
        rw [h.chain.eq_nil_iff]
        exact h.tail_eq_none_iff.mp htail
      simp only [enqueueMessage, htail, List.nil_append, Mem.links_alloc]
      exact Queue.enqueue_nil a
  | some t =>
      rw [htail] at h
      have hta : t ≠ a := by
        rintro rfl
        exact ha (List.mem_of_getLast? h.last.symm)
      simp only [enqueueMessage, htail, Mem.links_setLink, Mem.links_alloc]
      rw [Function.update_comm hta.symm]
      exact h.enqueue_snoc ha

theorem val_enqueueMessage (m : TxMem) (client : Client) (a : Addr) (data : List UInt8) (b : Addr) :
    ((enqueueMessage m client (some a) data).2.1 b).val =
      ((m.alloc a ⟨data, 0⟩) b).val := by
  cases htail : client.tail <;> simp [enqueueMessage, htail]

theorem bytes_enqueueMessage (m : TxMem) (client : Client) (a : Addr) (data : List UInt8) :
    (enqueueMessage m client (some a) data).2.2.bytesNeedToSend =
      client.bytesNeedToSend + data.length := by
  cases htail : client.tail <;> simp [enqueueMessage, htail]

theorem TxState.Queued.enqueue (h : s.Queued xs) {a : Addr} (ha : a ∉ xs) (data : List UInt8) :
    (txStep s (.enqueue a data)).2.Queued (xs ++ [a]) := by
  have hrest : (xs ++ [a]).flatMap (fun b =>
      ((enqueueMessage s.mem s.client (some a) data).2.1 b).val.rest) =
        (xs.flatMap fun b => (s.mem b).val.rest) ++ data := by
    simp only [val_enqueueMessage, List.flatMap_append, flatMap_rest_alloc ha]
    simp
  refine ⟨enqueueMessage_queue h.queue ha data, ?_, fun b hb => ?_, ?_⟩
  · simp only [txStep, hrest, h.stream, List.append_assoc]
  · simp only [txStep, val_enqueueMessage]
    by_cases hba : b = a
    · subst hba
      simp
    · rw [Mem.val_alloc_of_ne _ _ hba]
      exact h.offset b (by simpa [hba] using hb)
  · simp only [txStep, hrest, bytes_enqueueMessage, h.bytes, List.length_append]

theorem txStep_flush_nil (h : s.client.head = none) (script : List WriteRes) (now : ℕ) :
    txStep s (.flush script now) = (.flushed 0, s) := by
  simp [txStep, clientFlushTxTls, dequeueMessage, h]

/-- The first message of a flush that does not report a close has bytes
left to send. -/
theorem rest_ne_nil_of_open {a : Addr} {script : List WriteRes} {now : ℕ}
    (hhead : s.client.head = some a) (hopen : TxOp.Open s (.flush script now)) :
    (s.mem a).val.rest ≠ [] := by
  intro hrest
  exact hopen.2 (congrArg TxOut.flushed (flush_empty_message hhead hrest))

theorem TxState.Queued.flush (h : s.Queued xs) {script : List WriteRes} {now : ℕ}
    (hws : ∀ w ∈ script, w.Benign) (hopen : TxOp.Open s (.flush script now))
    (hall : SendsAll s (.flush script now)) :
    (txStep s (.flush script now)).2.Queued [] := by
  cases xs with
  | nil => rwa [txStep_flush_nil h.queue.chain]
  | cons a xs =>
      obtain ⟨hshort, hle, hbehind⟩ := hall (a :: xs) h.queue.chain
      have hhead : s.client.head = some a := h.queue.chain.1
      obtain ⟨-, hh, ht, hb, hsent⟩ := flush_full_write s.epoll now hhead hws
        hshort (rest_ne_nil_of_open hhead hopen) hle
      have hnil : xs.flatMap (fun b => (s.mem b).val.rest) = [] :=
        List.flatMap_eq_nil_iff.mpr hbehind
      refine queued_nil hh ht ?_ ?_
      · simp only [txStep, hb, h.bytes]
        simp [hnil]
      · simp only [txStep, hsent, h.stream]
        simp [hnil]

/-- After a flush that does not send everything there are bytes that
cannot be reached. -/
theorem TxState.Queued.sendsAll_of_faithful (h : s.Queued xs) {script : List WriteRes} {now : ℕ}
    (hws : ∀ w ∈ script, w.Benign) (hopen : TxOp.Open s (.flush script now))
    (hshort : ∀ a ∈ xs, (s.mem a).val.rest.length < 2 ^ 31)
    (hf : (txStep s (.flush script now)).2.Faithful) : SendsAll s (.flush script now) := by
  intro ys hys
  obtain rfl := h.queue.chain.unique hys
  cases xs with
  | nil => trivial
  | cons a xs =>
      have hhead : s.client.head = some a := h.queue.chain.1
      have hstream := h.stream
      obtain ⟨zs, hzs, hrest, -⟩ := hf.queued
      rw [List.flatMap_cons] at hstream
      rcases Nat.lt_or_ge (grant script) (s.mem a).val.rest.length with hlt | hle
      · -- the rest of the first message is gone
        obtain ⟨-, hh, hsent, hmem⟩ := flush_short_write s.epoll now hhead hws
          (hshort a (by simp)) hlt
        have hax := (List.nodup_cons.mp h.queue.chain.nodup).1
        have hchain : Chain (txStep s (.flush script now)).2.mem.links
            (txStep s (.flush script now)).2.client.head xs := by
          simp only [txStep, hh]
          refine Path.congr h.queue.chain.2 fun b hb => ?_
          simp only [Mem.links, hmem b (by rintro rfl; exact hax hb)]
        obtain rfl := hzs.unique hchain
        have hlen := congrArg List.length hrest
        have hsame : (zs.flatMap fun b => ((txStep s (.flush script now)).2.mem b).val.rest) =
            zs.flatMap fun b => (s.mem b).val.rest := by
          refine List.flatMap_congr fun b hb => ?_
          simp only [txStep, hmem b (by rintro rfl; exact hax hb)]
        rw [hsame] at hlen
        simp only [txStep, hsent, hstream, List.length_drop, List.length_append,
          List.length_take] at hlen
        omega
      · -- the queue is empty, so nothing may be missing behind the first message
        obtain ⟨-, hh, -, -, hsent⟩ := flush_full_write s.epoll now hhead hws
          (hshort a (by simp)) (rest_ne_nil_of_open hhead hopen) hle
        have hnil : zs = [] := hzs.eq_nil_iff.mpr hh
        subst hnil
        refine ⟨hshort a (by simp), hle, ?_⟩
        rw [← List.flatMap_eq_nil_iff]
        simp only [txStep, hsent, hstream, List.flatMap_nil] at hrest
        simpa using hrest.symm

end Step

/-! ### Whole runs -/

/-- One step that sends everything keeps the queue as it should be, and
its messages short if they were. -/
theorem txStep_queued {s : TxState} {xs : List Addr} {op : TxOp} (h : s.Queued xs)
    (hl : op.Legal s) (hopen : op.Open s) (hall : SendsAll s op) :
    ∃ ys, (txStep s op).2.Queued ys ∧
      (op.Short → (∀ a ∈ xs, (s.mem a).val.rest.length < 2 ^ 31) →
        ∀ a ∈ ys, ((txStep s op).2.mem a).val.rest.length < 2 ^ 31) := by
  cases op with
  | enqueue a data =>
      have hax := hl xs h.queue.chain
      refine ⟨xs ++ [a], h.enqueue hax data, fun hdata hs b hb => ?_⟩
      have hval : ((txStep s (.enqueue a data)).2.mem b).val =
          ((s.mem.alloc a ⟨data, 0⟩) b).val := by
        cases htail : s.client.tail <;> simp [txStep, enqueueMessage, htail]
      rw [hval]
      by_cases hba : b = a
      · subst hba
        simpa [TxOp.Short] using hdata
      · rw [Mem.val_alloc_of_ne _ _ hba]
        exact hs b (by simpa [hba] using hb)
  | flush script now => exact ⟨[], h.flush hl hopen hall, by simp⟩

/-- If every state of a run of short messages is faithful, every flush of
the run has sent everything. -/
theorem sendsAll_of_always_faithful {s : TxState} {xs : List Addr} {ops : List TxOp}
    (h : s.Queued xs) (hs : ∀ a ∈ xs, (s.mem a).val.rest.length < 2 ^ 31)
    (hl : Meets txStep (fun s op => op.Legal s) s ops)
    (hopen : Meets txStep (fun s op => op.Open s) s ops) (hshort : ∀ op ∈ ops, op.Short)
    (hf : Always txStep TxState.Faithful s ops) : Meets txStep SendsAll s ops := by
  induction ops generalizing s xs with
  | nil => trivial
  | cons op ops ih =>
      have hall : SendsAll s op := by
        cases op with
        | enqueue a data => trivial
        | flush script now =>
            exact h.sendsAll_of_faithful hl.1 hopen.1 hs hf.2.start
      obtain ⟨ys, h', hs'⟩ := txStep_queued h hl.1 hopen.1 hall
      exact ⟨hall, ih h' (hs' (hshort op (by simp)) hs) hl.2 hopen.2
        (fun op hop => hshort op (by simp [hop])) hf.2⟩

structure TxState.Fresh (s : TxState) : Prop where
  head : s.client.head = none
  tail : s.client.tail = none
  bytes : s.client.bytesNeedToSend = 0
  enqueued : s.enqueued = []
  accepted : s.accepted = []

/-- Over a run without a fatal error or a close, in which every flush
sends everything that is queued, the stream stays intact; and for
messages of less than 2 GiB it stays intact only then. -/
theorem transmit_faithful_iff_sendsAll (s : TxState) (ops : List TxOp) (hs : s.Fresh)
    (hl : Meets txStep (fun s op => op.Legal s) s ops)
    (hopen : Meets txStep (fun s op => op.Open s) s ops) :
    (Meets txStep SendsAll s ops → Always txStep TxState.Faithful s ops) ∧
      ((∀ op ∈ ops, op.Short) →
        Always txStep TxState.Faithful s ops → Meets txStep SendsAll s ops) := by
  have hq : s.Queued [] := queued_nil hs.head hs.tail hs.bytes (by rw [hs.enqueued, hs.accepted])
  constructor
  · intro hall
    have hstep : ∀ s op, (∃ xs, s.Queued xs) → ((op.Legal s ∧ op.Open s) ∧ SendsAll s op) →
        ∃ xs, (txStep s op).2.Queued xs := by
      rintro s op ⟨xs, h⟩ ⟨⟨hl, hopen⟩, hall⟩
      obtain ⟨ys, h', -⟩ := txStep_queued h hl hopen hall
      exact ⟨ys, h'⟩
    refine (Always.of_step hstep ⟨[], hq⟩ ((hl.and hopen).and hall)).mono ?_
    rintro s ⟨xs, h⟩
    exact h.faithful
  · intro hshort hf
    exact sendsAll_of_always_faithful hq (by simp) hl hopen hshort hf

def freshTx : TxState :=
  ⟨fun _ => ⟨⟨[], 0⟩, none⟩, clientsInit.occupy 7 0, fun _ => none, [], []⟩

theorem freshTx_fresh : freshTx.Fresh := ⟨rfl, rfl, rfl, rfl, rfl⟩

theorem legal_enqueue_of_single {s : TxState} {a b : Addr} {data : List UInt8}
    (hhead : s.client.head = none ∨ s.client.head = some b ∧ s.mem.links b = none)
    (hab : a ≠ b) : (TxOp.enqueue a data).Legal s := by
  intro xs hxs
  rcases hhead with hhead | ⟨hhead, hlink⟩
  · rw [hxs.eq_nil_iff.mpr hhead]
    simp
  · have hb : Chain s.mem.links s.client.head [b] := ⟨hhead, hlink⟩
    rw [hxs.unique hb]
    simpa using hab

/-! Two messages are queued and the socket takes all that is offered: the
second message disappears. -/

def twoQueued : List TxOp := [.enqueue 1 [10, 11], .enqueue 2 [12], .flush [.wrote 4095] 0]

theorem not_faithful_twoQueued :
    Meets txStep (fun s op => op.Legal s) freshTx twoQueued ∧
      Meets txStep (fun s op => op.Open s) freshTx twoQueued ∧
      ¬ Always txStep TxState.Faithful freshTx twoQueued := by
  refine ⟨⟨?_, ?_, ?_, trivial⟩, ⟨⟨by decide, by decide⟩, ⟨by decide, by decide⟩,
    ⟨by decide, by decide⟩, trivial⟩, ?_⟩
  · exact legal_enqueue_of_single (b := 2) (.inl rfl) (by decide)
  · exact legal_enqueue_of_single (b := 1) (.inr ⟨rfl, rfl⟩) (by decide)
  · intro w hw
    obtain rfl : w = .wrote 4095 := by simpa using hw
    trivial
  · rintro ⟨-, -, -, hf⟩
    -- all three bytes are enqueued, two are accepted, and the queue is empty
    obtain ⟨xs, hxs, hrest, -⟩ := hf.queued
    have hnil : xs = [] := hxs.eq_nil_iff.mpr rfl
    subst hnil
    exact absurd hrest (by decide)

theorem sendsAll_of_single {s : TxState} {a : Addr} {script : List WriteRes} {now : ℕ}
    (hc : Chain s.mem.links s.client.head [a]) (hshort : (s.mem a).val.rest.length < 2 ^ 31)
    (hle : (s.mem a).val.rest.length ≤ grant script) : SendsAll s (.flush script now) := by
  intro xs hxs
  rw [hxs.unique hc]
  exact ⟨hshort, hle, by simp⟩

/-- A run that sends message after message, the first in two writes. -/
theorem faithful_oneByOne :
    Always txStep TxState.Faithful freshTx
      [.enqueue 1 [10, 11], .flush [.wrote 0, .wrote 0] 0, .enqueue 1 [12],
        .flush [.wrote 9] 1] := by
  refine (transmit_faithful_iff_sendsAll freshTx _ freshTx_fresh ?_ ?_).1 ?_
  · exact ⟨legal_enqueue_of_single (b := 2) (.inl rfl) (by decide),
      by simp [TxOp.Legal, WriteRes.Benign],
      legal_enqueue_of_single (b := 2) (.inl rfl) (by decide),
      by simp [TxOp.Legal, WriteRes.Benign], trivial⟩
  · exact ⟨⟨by decide, by decide⟩, ⟨by decide, by decide⟩, ⟨by decide, by decide⟩,
      ⟨by decide, by decide⟩, trivial⟩
  · exact ⟨trivial, sendsAll_of_single (a := 1) ⟨rfl, rfl⟩ (by decide) (by decide), trivial,
      sendsAll_of_single (a := 1) ⟨rfl, rfl⟩ (by decide) (by decide), trivial⟩

end LinuxMiniProjects.Gateway
