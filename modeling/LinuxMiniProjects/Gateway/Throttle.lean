import LinuxMiniProjects.Gateway.Server
import LinuxMiniProjects.Gateway.Framing

/-!
Requests under the rate limiter: the events of one connection, each of
which is allowed or denied by `request_allow` before anything is read.

A denied event throws away what can be read at the moment and does not
tell the reader. The bytes that follow are read as if the discarded ones
had never been sent, so the frames survive only if the discarded bytes
are frames themselves: the reader must be between two frames when the
event is denied, and the readable bytes must end between two frames. An
event with nothing to read does no harm either way.
-/

namespace LinuxMiniProjects.Gateway

open Bytes Machine

/-! ### Discarding -/

def readableItems : List SockItem → List UInt8
  | .record b bs :: kernel => b :: bs ++ readableItems kernel
  | _ => []

def Ssl.readable (ssl : Ssl) : List UInt8 := ssl.pending ++ readableItems ssl.kernel

theorem discardLoop_spec {fuel : ℕ} {ssl : Ssl} (hfuel : ssl.weight < fuel) :
    ssl.unread = ssl.readable ++ (discardLoop fuel ssl).unread ∧
      (discardLoop fuel ssl).pos = ssl.pos + ssl.readable.length := by
  induction fuel generalizing ssl with
  | zero => omega
  | succ fuel ih =>
      -- what one turn leaves of the bytes `b :: bs` is shorter, and it is all still readable
      have hgive : ∀ b bs k pos, (b :: bs).length + (k.map fun i => i.bytes.length + 1).sum ≤ fuel →
          (b :: bs) ++ k.flatMap SockItem.bytes = (b :: bs) ++ readableItems k ++
              (discardLoop fuel ⟨(b :: bs).drop 512, k, pos + ((b :: bs).take 512).length⟩).unread ∧
            (discardLoop fuel ⟨(b :: bs).drop 512, k, pos + ((b :: bs).take 512).length⟩).pos =
              pos + ((b :: bs) ++ readableItems k).length := by
        intro b bs k pos hle
        have hsplit := List.take_append_drop 512 (b :: bs)
        have hlen := congrArg List.length hsplit
        have hpos : 0 < ((b :: bs).take 512).length := by simp
        rw [List.length_append] at hlen
        obtain ⟨hun, hps⟩ := @ih ⟨(b :: bs).drop 512, k, pos + ((b :: bs).take 512).length⟩
          (by simp only [Ssl.weight]; omega)
        simp only [Ssl.unread, Ssl.readable, List.append_assoc] at hun hps ⊢
        refine ⟨?_, ?_⟩
        · conv_lhs => rw [← hsplit, List.append_assoc, hun, ← List.append_assoc, hsplit]
        · rw [hps]
          simp only [List.length_append] at hlen ⊢
          omega
      cases ssl using Ssl.readCases with
      | buffered b bs kernel pos =>
          simp only [discardLoop, sslRead]
          exact hgive b bs kernel pos (by simp only [Ssl.weight] at hfuel; omega)
      | record b bs kernel pos =>
          simp only [discardLoop, sslRead]
          exact hgive b bs kernel pos (by
            simp only [Ssl.weight, List.map_cons, List.sum_cons, SockItem.bytes_record,
              List.length_nil] at hfuel
            omega)
      | empty pos | eof kernel pos | error kernel pos =>
          simp [discardLoop, sslRead, Ssl.readable, readableItems]
      | eintr kernel pos | eagain kernel pos =>
          simp [discardLoop, sslRead, Ssl.readable, readableItems, Ssl.unread, SockItem.bytes]

/-- What has been read and what is unread add up to the same position. -/
def Ssl.EndsAt (ssl : Ssl) (p : ℕ) : Prop := ssl.pos + ssl.unread.length = p

theorem Ssl.EndsAt.sslRead {p : ℕ} (ssl : Ssl) (num : ℕ) (hnum : 0 < num) (h : ssl.EndsAt p) :
    (sslRead ssl num).2.EndsAt p := by
  unfold Ssl.EndsAt at *
  match hr : Gateway.sslRead ssl num with
  | (.err e, ssl') =>
      obtain ⟨hunread, hpos, -⟩ := sslRead_err hr
      rw [hpos, hunread, h]
  | (.data bs, ssl') =>
      by_cases hbs : bs = []
      · subst hbs
        rw [(sslRead_nil hnum hr).1, h]
      · obtain ⟨-, hunread, hpos, -⟩ := sslRead_data hr hbs
        rw [hunread, List.length_append] at h
        dsimp only
        omega

/-! ### One connection -/

/-- Position `p` is between two frames of a stream that starts at `base`. -/
def AtBoundary (base : ℕ) (rs : List Request) (p : ℕ) : Prop :=
  ∃ k ∈ List.range (rs.length + 1), p = base + (stream (rs.take k)).length

/-- The event does no harm to the frames: it is allowed, or it discards
nothing, or it discards whole frames. -/
def DiscardsFrames (base : ℕ) (rs : List Request) (fd : ℤ) (sv : Server) (env : RequestEnv) :
    Prop :=
  ∀ i ∈ fdToSlot sv.clients fd maxClients, ∀ ssl ∈ (sv.clients i).ssl,
    (requestAllow (sv.clients i).rate env.now env.now').1 = false →
    ssl.readable = [] ∨
      (sv.clients i).rxLen = 0 ∧ AtBoundary base rs (ssl.pos + ssl.readable.length)

instance (base : ℕ) (rs : List Request) (p : ℕ) : Decidable (AtBoundary base rs p) :=
  inferInstanceAs (Decidable (∃ k ∈ List.range (rs.length + 1),
    p = base + (stream (rs.take k)).length))

instance (base : ℕ) (rs : List Request) (fd : ℤ) (sv : Server) (env : RequestEnv) :
    Decidable (DiscardsFrames base rs fd sv env) :=
  inferInstanceAs (Decidable (∀ i ∈ fdToSlot sv.clients fd maxClients, ∀ ssl ∈ (sv.clients i).ssl,
    (requestAllow (sv.clients i).rate env.now env.now').1 = false →
    ssl.readable = [] ∨
      (sv.clients i).rxLen = 0 ∧ AtBoundary base rs (ssl.pos + ssl.readable.length)))

def requestStep (fd : ℤ) (sv : Server) (env : RequestEnv) : ReaderOut × Server :=
  handleRequestClient sv fd env

/-- The client at slot `i` has finished its handshake and is the only one
with descriptor `fd`. -/
structure Connected (sv : Server) (i : ℕ) (fd : ℤ) : Prop where
  found : fdToSlot sv.clients fd maxClients = some i
  only : ∀ j, (sv.clients j).fd = fd → j = i
  handshake : (sv.clients i).tlsHandshakeDone = true

/-- What an event leaves behind: the connection is gone, or its stream is
what is left of the frames. -/
inductive Throttled (base : ℕ) (all : List Request) (fd : ℤ) (i : ℕ) (sv : Server)
    (rest : List Request) : Prop
  | gone (none : fdToSlot sv.clients fd maxClients = none)
  | live (ssl : Ssl) (connected : Connected sv i fd) (aligned : Aligned sv.clients i ssl rest)
      (ends : ssl.EndsAt (base + (stream all).length))

theorem AtBoundary.split {base : ℕ} {taken rest : List Request} {D V : List UInt8}
    (hD : D ++ V = stream rest)
    (h : AtBoundary base (taken ++ rest) (base + (stream taken).length + D.length)) :
    ∃ discarded rest', rest = discarded ++ rest' ∧ V = stream rest' := by
  obtain ⟨k, -, hk⟩ := h
  have hsplit : stream (rest.take (k - taken.length)) ++ stream (rest.drop (k - taken.length)) =
      stream rest := by rw [← stream_append, List.take_append_drop]
  have hlen : D.length = (stream (rest.take (k - taken.length))).length := by
    rw [List.take_append, stream_append, List.length_append] at hk
    have htake : (stream taken).length =
        (stream (taken.take k)).length + (stream (taken.drop k)).length := by
      rw [← List.length_append, ← stream_append, List.take_append_drop]
    rcases Nat.lt_or_ge k taken.length with hlt | hge
    · rw [Nat.sub_eq_zero_of_le hlt.le] at hk ⊢
      simp only [List.take_zero, stream_nil, List.length_nil] at hk ⊢
      omega
    · rw [List.drop_eq_nil_of_le hge, stream_nil, List.length_nil] at htake
      omega
  refine ⟨_, _, (List.take_append_drop (k - taken.length) rest).symm, ?_⟩
  exact (List.append_inj (hD.trans hsplit.symm) hlen).2

section Connected

variable {sv : Server} {i : ℕ} {fd : ℤ}

/-- What concerns neither the descriptor nor the state of the connection
keeps it. -/
theorem Connected.setClient (h : Connected sv i fd) {c : Client} (hfd : c.fd = (sv.clients i).fd)
    (halive : c.alive = (sv.clients i).alive)
    (hdone : c.tlsHandshakeDone = (sv.clients i).tlsHandshakeDone) :
    Connected (sv.setClient i c) i fd := by
  refine ⟨by rw [fdToSlot_setClient sv hfd halive, h.found], fun j hj => ?_, ?_⟩
  · by_cases hji : j = i
    · exact hji
    · rw [sv.setClient_of_ne hji] at hj
      exact h.only j hj
  · rw [Server.setClient_self, hdone, h.handshake]

theorem Connected.close (h : Connected sv i fd) (c : Client) :
    fdToSlot ((sv.setClient i c).close i).clients fd maxClients = none := by
  rw [Option.eq_none_iff_forall_ne_some]
  intro j hj
  obtain ⟨-, -, halive, hfd⟩ := fdToSlot_spec hj
  by_cases hji : j = i
  · subst hji
    rw [Server.close_self] at halive
    cases halive
  · rw [Server.close_of_ne _ hji, sv.setClient_of_ne hji] at hfd
    exact hji (h.only j hfd)

theorem aligned_setClient {ssl : Ssl} {rs : List Request} {c : Client} (hreading : c.Reading)
    (hssl : c.ssl = some ssl) (hrs : c.received ++ ssl.unread = stream rs) :
    Aligned (sv.setClient i c).clients i ssl rs :=
  ⟨by rwa [Server.setClient_self], by rwa [Server.setClient_self],
    by rwa [Server.setClient_self]⟩

end Connected

/-- The outcome of an event: the frames `d` are taken off the stream, and
the tasks pushed are those of some of them. -/
structure EventSpec (base : ℕ) (all : List Request) (fd : ℤ) (i : ℕ) (rest : List Request)
    (res : ReaderOut × Server) (d rest' : List Request) : Prop where
  split : rest = d ++ rest'
  next : Throttled base all fd i res.2 rest'
  tasks : ∃ sub, sub.Sublist d ∧ List.Forall₂ Task.Carries (tasksOf [res.1]) sub
  packets : packetsOf [res.1] = []

section Events

variable {base : ℕ} {all taken rest : List Request} {fd : ℤ} {i : ℕ} {sv : Server} {ssl : Ssl}

theorem Aligned.pos_eq (ha : Aligned sv.clients i ssl rest) (hall : all = taken ++ rest)
    (hends : ssl.EndsAt (base + (stream all).length)) :
    ssl.pos = base + (stream taken).length + (sv.clients i).rxLen := by
  have hlen := congrArg List.length ha.frames
  unfold Ssl.EndsAt at hends
  rw [List.length_append, length_received] at hlen
  rw [hall, stream_append, List.length_append] at hends
  omega

theorem Connected.denied (hc : Connected sv i fd) (ha : Aligned sv.clients i ssl rest)
    (hall : all = taken ++ rest) (hends : ssl.EndsAt (base + (stream all).length))
    (hok : ssl.readable = [] ∨
      (sv.clients i).rxLen = 0 ∧ AtBoundary base all (ssl.pos + ssl.readable.length)) :
    ∃ d rest', EventSpec base all fd i rest
      (.nothing, sv.setClient i (sv.clients i).discard) d rest' := by
  obtain ⟨hunread, hpos⟩ := discardLoop_spec (Nat.lt_add_one ssl.weight)
  have hframes := ha.frames
  have hssl : (sv.clients i).discard.ssl = some (discardLoop (ssl.weight + 1) ssl) := by
    rw [Client.discard, ha.transport]
    rfl
  have hends' : (discardLoop (ssl.weight + 1) ssl).EndsAt (base + (stream all).length) := by
    unfold Ssl.EndsAt at *
    rw [hunread, List.length_append] at hends
    omega
  -- whatever is discarded, the reader stays where it was
  have hnext : ∀ rest', (sv.clients i).received ++
      (discardLoop (ssl.weight + 1) ssl).unread = stream rest' →
      Throttled base all fd i (sv.setClient i (sv.clients i).discard) rest' := fun rest' hrest =>
    .live _ (hc.setClient rfl rfl rfl) (aligned_setClient ha.reading hssl hrest) hends'
  obtain hnil | ⟨hrx, hboundary⟩ := hok
  · rw [hnil, List.nil_append] at hunread
    rw [hunread] at hframes
    exact ⟨[], rest, rfl, hnext rest hframes, ⟨[], List.Sublist.refl [], .nil⟩, rfl⟩
  · have hreceived : (sv.clients i).received = [] := by rw [Client.received, hrx, slice_zero]
    rw [hreceived, List.nil_append, hunread] at hframes
    rw [ha.pos_eq hall hends, hrx, Nat.add_zero, hall] at hboundary
    obtain ⟨d, rest', hsplit, hrest'⟩ := hboundary.split hframes
    refine ⟨d, rest', hsplit, hnext rest' ?_, ⟨[], List.nil_sublist d, .nil⟩, rfl⟩
    rw [hreceived, hrest', List.nil_append]

theorem Connected.allowed (hc : Connected sv i fd) (ha : Aligned sv.clients i ssl rest)
    (hrest : ∀ r ∈ rest, Supported r.type) (hends : ssl.EndsAt (base + (stream all).length))
    (env : RequestEnv) :
    ∃ d rest', EventSpec base all fd i rest (sv.read i env) d rest' := by
  obtain ⟨hsame, halive⟩ := clientReadMessage_frame env.read sv.clients i
  obtain ⟨hssl, hends'⟩ :=
    clientReadMessage_keeps Ssl.EndsAt.sslRead env.read ha.reading ha.transport hends
  have htakes := ha.takesFrame hrest env.read
  unfold Server.read
  generalize clientReadMessage sv.clients i env.read = call at *
  dsimp only
  have hopen : call.ret ≠ 1 → ∀ rest', call.client.Reading →
      call.client.received ++ call.ssl.unread = stream rest' →
      Throttled base all fd i (sv.setClient i call.client) rest' := by
    intro hret rest' hreading hrest'
    exact .live call.ssl (hc.setClient hsame.fd (halive hret) hsame.tlsHandshakeDone)
      (aligned_setClient hreading hssl hrest') hends'
  cases htakes with
  | paused ret out reading hstream =>
      refine ⟨[], rest, rfl, ?_, ⟨[], List.Sublist.refl [], ?_⟩, ?_⟩
      · simp only [out, Server.emit]
        split
        next => exact .gone (hc.close call.client)
        next hret => exact hopen (fun h => hret (.inr h)) rest reading hstream
      · simp [out, tasksOf]
      · simp [out, packetsOf]
  | taken r rs' frames ret out reading hstream =>
      have hret : ¬ (call.ret = -1 ∨ call.ret = 1) := by omega
      have hout : call.out = .nothing ∨ ∃ t, call.out = .push t ∧ t.Carries r := by
        rw [out, frameOut_encode]
        exact taskOut_encode _ env.read _ r
      refine ⟨[r], rs', frames, ?_, ?_, ?_⟩
      · obtain hnothing | ⟨t, hpush, -⟩ := hout
        · simp only [hnothing, Server.emit, if_neg hret]
          exact hopen (by omega) rs' reading hstream
        · simp only [hpush, Server.emit, if_neg hret]
          exact hopen (by omega) rs' reading hstream
      · obtain hnothing | ⟨t, hpush, hcarries⟩ := hout
        · exact ⟨[], List.nil_sublist [r], by simp [hnothing, tasksOf]⟩
        · exact ⟨[r], List.Sublist.refl [r], by simpa [hpush, tasksOf] using hcarries⟩
      · obtain hnothing | ⟨t, hpush, -⟩ := hout
        · simp [hnothing, packetsOf]
        · simp [hpush, packetsOf]

theorem Throttled.step (h : Throttled base all fd i sv rest) (hall : all = taken ++ rest)
    (hsupported : ∀ r ∈ all, Supported r.type) {env : RequestEnv}
    (hok : DiscardsFrames base all fd sv env) :
    ∃ d rest', EventSpec base all fd i rest (requestStep fd sv env) d rest' := by
  have hspec := handleRequestClient_spec sv fd env
  rw [← requestStep] at hspec
  generalize requestStep fd sv env = res at hspec
  cases h with
  | gone hnone =>
      have hres : res = (.nothing, sv) := by
        cases hspec with
        | unknown h' => rfl
        | handshake slot h' done | denied slot h' done deny | allowed slot h' done =>
            rw [hnone] at h'; cases h'
      rw [hres]
      exact ⟨[], rest, rfl, .gone hnone, ⟨[], List.Sublist.refl [], .nil⟩, rfl⟩
  | live ssl hc ha hends =>
      -- the verdict costs a token and changes nothing else
      have hc₁ : Connected (sv.allow i env).2 i fd := hc.setClient rfl rfl rfl
      have ha₁ : Aligned (sv.allow i env).2.clients i ssl rest :=
        aligned_setClient ha.reading ha.transport ha.frames
      cases hspec with
      | unknown h' => rw [hc.found] at h'; cases h'
      | handshake slot h' done =>
          obtain rfl : i = slot := by simpa [hc.found] using h'
          rw [hc.handshake] at done
          cases done
      | denied slot h' done deny =>
          obtain rfl : i = slot := by simpa [hc.found] using h'
          have hframes := hok i hc.found ssl ha.transport deny
          exact hc₁.denied ha₁ hall hends (by simpa [Server.allow] using hframes)
      | allowed slot h' done =>
          obtain rfl : i = slot := by simpa [hc.found] using h'
          exact hc₁.allowed ha₁ (fun r hr => hsupported r (by simp [hall, hr])) hends env

end Events

/-! ### Whole runs -/

theorem Throttled.run {base : ℕ} {all rest : List Request} {fd : ℤ} {i : ℕ} {sv : Server}
    (h : Throttled base all fd i sv rest) (taken : List Request) (hall : all = taken ++ rest)
    (hsupported : ∀ r ∈ all, Supported r.type) {envs : List RequestEnv}
    (hok : Meets (requestStep fd) (DiscardsFrames base all fd) sv envs) :
    (∃ rs', rs'.Sublist rest ∧
      List.Forall₂ Task.Carries (tasksOf (trace (requestStep fd) sv envs)) rs') ∧
      packetsOf (trace (requestStep fd) sv envs) = [] := by
  induction envs generalizing sv taken rest with
  | nil => exact ⟨⟨[], List.nil_sublist rest, .nil⟩, rfl⟩
  | cons env envs ih =>
      obtain ⟨d, rest', rfl, hnext, ⟨sub, hsub, hcarries⟩, hpackets⟩ :=
        h.step hall hsupported hok.1
      obtain ⟨⟨rs', hrs', hcarries'⟩, hpackets'⟩ :=
        ih hnext (taken ++ d) (by rw [hall, List.append_assoc]) hok.2
      refine ⟨⟨sub ++ rs', hsub.append hrs', ?_⟩, ?_⟩
      · rw [trace, tasksOf_cons]
        exact List.rel_append hcarries hcarries'
      · rw [trace, packetsOf_cons, hpackets, hpackets', List.append_nil]

structure Sends (sv : Server) (i : ℕ) (fd : ℤ) (ssl : Ssl) (rs : List Request) : Prop where
  connected : Connected sv i fd
  stage : (sv.clients i).stage = .readHeader
  rxLen : (sv.clients i).rxLen = 0
  transport : (sv.clients i).ssl = some ssl
  frames : ssl.unread = stream rs

/-- **Framing under the rate limiter.** If every denied event of a run
discards nothing or whole frames, the tasks pushed are those of some of
the frames, in order, and no frame is answered with an error. -/
theorem throttle_preserves_framing {sv : Server} {i : ℕ} {fd : ℤ} {ssl : Ssl} {rs : List Request}
    (h : Sends sv i fd ssl rs) (hrs : ∀ r ∈ rs, Supported r.type) (envs : List RequestEnv)
    (hok : Meets (requestStep fd) (DiscardsFrames ssl.pos rs fd) sv envs) :
    (∃ rs', rs'.Sublist rs ∧
      List.Forall₂ Task.Carries (tasksOf (trace (requestStep fd) sv envs)) rs') ∧
      packetsOf (trace (requestStep fd) sv envs) = [] := by
  obtain ⟨hreading, hnil⟩ := reading_of_rewound ⟨h.stage, h.rxLen⟩
  have haligned : Aligned sv.clients i ssl rs :=
    ⟨hreading, h.transport, by rw [hnil, h.frames, List.nil_append]⟩
  have hends : ssl.EndsAt (ssl.pos + (stream rs).length) := by rw [Ssl.EndsAt, h.frames]
  exact (Throttled.live ssl h.connected haligned hends).run [] rfl hrs hok

/-! A connection with one token left in its bucket. The second of the
events below is denied, the others are allowed. -/

def lastToken (ssl : Ssl) : Server where
  clients := fun i =>
    if i = 0 then { oneClient ssl 0 with rate := ⟨100, 1, 50, 0⟩ } else clientsInit
  mem := fun _ => ⟨⟨[], 0⟩, none⟩
  epoll := epollMod (fun _ => none) epollIn 7
  conn := fun _ => 1
  accepts := 1

def allowDenyAllow : List RequestEnv :=
  [⟨.done, 0, 0, ⟨0, 0, true, true⟩, some 1⟩, ⟨.done, 0, 0, ⟨0, 0, true, true⟩, some 2⟩,
    ⟨.done, 1000, 1000, ⟨1000, 1000, true, true⟩, some 3⟩]

theorem connected_lastToken (ssl : Ssl) : Connected (lastToken ssl) 0 7 where
  found := rfl
  only j hj := by
    by_contra h
    simp [lastToken, h, clientsInit] at hj
  handshake := rfl

theorem throttle_preserves_framing_lastToken :
    let rs : List Request := [⟨msgEcho, 1, [9], by decide⟩, ⟨msgEcho, 2, [], by decide⟩,
      ⟨msgStatus, 3, [], by decide⟩]
    let ssl : Ssl := ⟨[], rs.flatMap fun r => recordOf r.encode ++ [.eagain], 0⟩
    (∃ rs', rs'.Sublist rs ∧ List.Forall₂ Task.Carries
      (tasksOf (trace (requestStep 7) (lastToken ssl) allowDenyAllow)) rs') ∧
      packetsOf (trace (requestStep 7) (lastToken ssl) allowDenyAllow) = [] := by
  intro rs ssl
  have hsends : Sends (lastToken ssl) 0 7 ssl rs :=
    ⟨connected_lastToken ssl, rfl, rfl, rfl, by decide +kernel⟩
  exact throttle_preserves_framing hsends (by simp only [rs]; decide) allowDenyAllow
    (by decide +kernel)

/-- The first frame comes in two parts, the second of which is discarded.
The reader completes it with the start of the second frame and answers
with a checksum error. -/
theorem throttle_breaks_framing_lastToken :
    let rs : List Request := [⟨msgEcho, 1, [1, 2, 3, 4], by decide⟩, ⟨msgEcho, 2, [], by decide⟩]
    let ssl : Ssl := ⟨[], recordOf ((stream rs).take 16) ++ [.eagain] ++
      recordOf (((stream rs).drop 16).take 8) ++ [.eagain] ++ recordOf ((stream rs).drop 24), 0⟩
    Sends (lastToken ssl) 0 7 ssl rs ∧ (∀ r ∈ rs, Supported r.type) ∧
      packetsOf (trace (requestStep 7) (lastToken ssl) allowDenyAllow) =
        [buildErrorPacket 1 .crcMismatch] := by
  intro rs ssl
  exact ⟨⟨connected_lastToken ssl, rfl, rfl, rfl, by decide +kernel⟩,
    by simp only [rs]; decide, by decide +kernel⟩

end LinuxMiniProjects.Gateway
