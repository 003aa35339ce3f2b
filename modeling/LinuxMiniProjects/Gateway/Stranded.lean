import LinuxMiniProjects.Gateway.Framing
import LinuxMiniProjects.Gateway.Routing

/-!
Input that nobody waits for.

`EPOLLIN` reports what is in the socket. What `SSL_read` has decrypted and
not handed out yet is in the TLS object, where epoll does not see it, and
one event makes the gateway read one frame. So a request that shares a
record with the frame before it stays in the TLS object until the client
sends something else. `tls_read_pending` looks as if it was meant for
this, but nothing reads it.

The invariant behind the positive result is simple. A read takes at least
one byte, so what the TLS object holds is a record without its first
byte, or less.
-/

namespace LinuxMiniProjects.Gateway

open Machine

/-! ### Requests among bytes -/

def HoldsRequest (bs : List UInt8) : Prop := ∃ r : Request, Supported r.type ∧ r.encode <:+: bs

theorem HoldsRequest.mono {bs cs : List UInt8} (h : HoldsRequest bs) (hbs : bs <:+: cs) :
    HoldsRequest cs := by
  obtain ⟨r, hr, hinfix⟩ := h
  exact ⟨r, hr, hinfix.trans hbs⟩

theorem HoldsRequest.length_le {bs : List UInt8} (h : HoldsRequest bs) :
    headerSize + crcSize ≤ bs.length := by
  obtain ⟨r, -, hinfix⟩ := h
  have hle := hinfix.length_le
  rw [r.length_encode, packetSize] at hle
  omega

/-- A request of the client is in its TLS object, and its socket is
empty. -/
def Client.Stranded (c : Client) : Prop :=
  c.alive = true ∧ c.tlsHandshakeDone = true ∧
    ∃ ssl ∈ c.ssl, (∀ item ∈ ssl.kernel, item.bytes = []) ∧ HoldsRequest ssl.pending

def SockItem.Single : SockItem → Prop
  | .record _ bs => ¬ HoldsRequest bs
  | _ => True

/-! ### The invariant -/

structure Ssl.Clean (ssl : Ssl) : Prop where
  pending : ¬ HoldsRequest ssl.pending
  kernel : ∀ item ∈ ssl.kernel, item.Single

theorem Ssl.Clean.sslRead (ssl : Ssl) (num : ℕ) (hnum : 0 < num) (h : ssl.Clean) :
    (sslRead ssl num).2.Clean := by
  have hdrop : ∀ (b : UInt8) (bs : List UInt8), ((b :: bs).drop num) <:+: bs := by
    intro b bs
    obtain ⟨n, rfl⟩ := Nat.exists_eq_succ_of_ne_zero hnum.ne'
    rw [List.drop_succ_cons]
    exact (List.drop_suffix n bs).isInfix
  refine ⟨?_, fun item hitem => h.kernel item ((sslRead_kernel ssl num).subset hitem)⟩
  cases ssl using Ssl.readCases with
  | buffered b bs kernel pos =>
      exact fun hr => h.pending (hr.mono ((hdrop b bs).trans (List.suffix_cons b bs).isInfix))
  | record b bs kernel pos =>
      have hsingle : ¬ HoldsRequest bs := h.kernel (.record b bs) (by simp)
      exact fun hr => hsingle (hr.mono (hdrop b bs))
  | _ => exact h.pending

theorem Ssl.Clean.discardLoop {ssl : Ssl} (h : ssl.Clean) (fuel : ℕ) :
    (discardLoop fuel ssl).Clean := by
  induction fuel generalizing ssl with
  | zero => exact h
  | succ fuel ih =>
      have hread := Ssl.Clean.sslRead ssl 512 (by decide) h
      rw [Gateway.discardLoop]
      split
      next ssl' hr => rwa [hr] at hread
      next b bs ssl' hr =>
        rw [hr] at hread
        exact ih hread
      next e ssl' hr => rwa [hr] at hread

/-- An alive client is somewhere in a frame and has a clean TLS object. -/
def Client.Clean (c : Client) : Prop :=
  c.alive = true → c.Reading ∧ ∀ ssl ∈ c.ssl, ssl.Clean

theorem Client.Clean.congr {c c' : Client} (h : c.Clean) (halive : c'.alive = c.alive)
    (hstage : c'.stage = c.stage) (hrx : c'.rxLen = c.rxLen)
    (hdata : c'.dataReceive = c.dataReceive) (hssl : c'.ssl = c.ssl) : c'.Clean := by
  unfold Client.Clean Client.Reading Client.received
  rw [halive, hstage, hrx, hdata, hssl]
  exact h

theorem Client.Clean.of_ssl {c : Client} (h : c.Clean) {ssl : Option Ssl}
    (hssl : c.alive = true → ∀ ssl' ∈ ssl, ssl'.Clean) : { c with ssl := ssl }.Clean :=
  fun halive => ⟨(h halive).1, hssl halive⟩

theorem Client.clean_vacate (c : Client) : c.vacate.Clean := fun h => by cases h

theorem Client.SameButTx.clean {c c' : Client} (hsame : c.SameButTx c') (h : c.Clean) :
    c'.Clean := by
  rw [hsame]
  exact h.congr rfl rfl rfl rfl rfl

theorem clientReadMessage_clean {clients : Clients} {i : ℕ} {env : ReadEnv}
    (h : (clients i).Clean) (h₁ : (clientReadMessage clients i env).ret ≠ -1)
    (h₂ : (clientReadMessage clients i env).ret ≠ 1) :
    (clientReadMessage clients i env).client.Clean := by
  obtain ⟨-, halive⟩ := clientReadMessage_frame env clients i
  intro halive'
  rw [halive h₂] at halive'
  obtain ⟨hreading, hclean⟩ := h halive'
  cases hssl : (clients i).ssl with
  | none => exact absurd (by simp [clientReadMessage, hssl]) h₁
  | some ssl =>
      obtain ⟨hssl', hclean'⟩ :=
        clientReadMessage_keeps Ssl.Clean.sslRead env hreading hssl (hclean ssl hssl)
      obtain ⟨D, -, -, hreads, -, -⟩ := clientReadMessage_spec env hreading hssl
      refine ⟨?_, fun ssl' hmem => ?_⟩
      · cases hreads with
        | paused ret out reading received => exact reading
        | rejected e length check out ret rewound =>
            have hok : env.packetOk = true := by
              by_contra hno
              rw [ret, if_neg hno] at h₁
              exact h₁ rfl
            exact (reading_of_rewound (rewound hok)).1
        | complete length check out ret rewound => exact (reading_of_rewound rewound).1
      · rw [hssl', Option.mem_some_iff] at hmem
        rwa [← hmem]

theorem Move.client_clean {slot : ℕ} {sv sv' : Server} (hmove : Move slot sv sv')
    (h : (sv.clients slot).Clean) : (sv'.clients slot).Clean := by
  cases hmove with
  | close =>
      rw [sv.close_self]
      exact Client.clean_vacate _
  | interest event hdone => exact h
  | handshook hdone =>
      simp only [Server.interest, Server.setClient_self]
      exact h.congr rfl rfl rfl rfl rfl
  | newSsl =>
      rw [sv.setClient_self]
      refine h.of_ssl fun _ ssl hmem => ?_
      rw [Option.mem_some_iff] at hmem
      subst hmem
      exact ⟨fun hr => absurd hr.length_le (by decide), fun _ hitem => by cases hitem⟩
  | spend rate =>
      rw [sv.setClient_self]
      exact h.congr rfl rfl rfl rfl rfl
  | discard =>
      rw [sv.setClient_self]
      refine h.of_ssl fun halive ssl hmem => ?_
      obtain ⟨ssl', hssl', rfl⟩ := Option.mem_map.mp hmem
      exact ((h halive).2 ssl' hssl').discardLoop _
  | read env h₁ h₂ =>
      rw [sv.setClient_self]
      exact clientReadMessage_clean h h₁ h₂
  | readClose env =>
      rw [Server.close_self]
      exact Client.clean_vacate _
  | post node data hdone hdata => exact (enqueue_sameButTx sv slot node data).clean h

def Server.Clean (sv : Server) : Prop := ∀ i, (sv.clients i).Clean

theorem Server.Clean.of_local {slot : ℕ} {sv sv' : Server} (h : sv.Clean) (hl : Local slot sv sv')
    (hc : (sv'.clients slot).Clean) : sv'.Clean := by
  intro i
  by_cases hi : i = slot
  · rwa [hi]
  · rw [hl.clients i hi]
    exact h i

theorem Moves.clean {sv sv' : Server} (h : Moves sv sv') (hclean : sv.Clean) : sv'.Clean :=
  h.invariant (I := Server.Clean)
    (fun slot _ _ hmove ih => ih.of_local hmove.isLocal (hmove.client_clean (ih slot))) hclean

theorem Server.Clean.occupy {sv : Server} (h : sv.Clean) (slot : ℕ) (fd : ℤ) (now : ℕ) :
    (sv.occupy slot fd now).Clean := by
  intro i
  by_cases hi : i = slot
  · subst hi
    rw [sv.occupy_self]
    exact fun _ => ⟨(reading_of_rewound ⟨rfl, rfl⟩).1, fun _ hssl => by cases hssl⟩
  · rw [sv.occupy_of_ne hi]
    exact h i

theorem Server.Clean.send {sv : Server} (h : sv.Clean) (slot : ℕ) (env : SendEnv) :
    (sv.send slot (sv.clients slot).fd env).Clean := by
  refine h.of_local (sv.send_isLocal slot env) ?_
  have hflush := (sv.flush_sameButTx slot env.script env.now).clean (h slot)
  unfold Server.send
  dsimp only
  split_ifs
  · rw [Server.close_self]
    exact Client.clean_vacate _
  · rw [Server.close_self]
    exact Client.clean_vacate _
  · exact hflush
  · exact hflush

theorem Server.Clean.arrive {sv : Server} (h : sv.Clean) (slot : ℕ) {item : SockItem}
    (hitem : item.Single) : (sv.arrive slot item).Clean := by
  refine h.of_local (sv.arrive_isLocal slot item) ?_
  rw [Server.arrive, sv.setClient_self]
  refine (h slot).of_ssl fun halive ssl hmem => ?_
  obtain ⟨ssl', hssl', rfl⟩ := Option.mem_map.mp hmem
  have hclean := ((h slot) halive).2 ssl' hssl'
  refine ⟨hclean.pending, fun item' hitem' => ?_⟩
  obtain hitem' | rfl := List.mem_append.mp hitem' |>.imp_right List.mem_singleton.mp
  · exact hclean.kernel item' hitem'
  · exact hitem

/-! ### Whole runs -/

def Label.arrived : Label → Option SockItem
  | .arrive _ item => some item
  | _ => none

def SendsSingly (_ : Sys) (l : Label) : Prop := ∀ item ∈ l.arrived, item.Single

theorem Served.clean {s : Sys} {l : Label} {sv' : Server} (hs : Served s l sv')
    (h : s.sv.Clean) : sv'.Clean := by
  cases hs with
  | moves hmoves => exact hmoves.clean h
  | accept env slot free fd hmoves => exact hmoves.clean (h.occupy slot env.clientFd env.now)
  | send env clientFd pc slot found done =>
      obtain ⟨-, -, -, rfl⟩ := fdToSlot_spec found
      exact h.send slot env

theorem clean_step {s s' : Sys} {l : Label} (h : s.sv.Clean) (hrouted : Routed s)
    (hs : Trans s l s') (hok : SendsSingly s l) : s'.sv.Clean := by
  cases hs with
  | main sv' hsv pc hpc => exact hsv.clean h
  | pushTask sv' hsv pc hpc t ht => exact hsv.clean h
  | deliver es hpc frame rp rest hpop data hdata a =>
      have hmem : (frame, rp) ∈ s.responses := by simp [hpop]
      exact (hrouted.respond_move hmem hdata a).moves.clean h
  | network slot item => exact h.arrive slot (hok item rfl)
  | _ => exact h

/-- **No stranded input.** If no record has a whole request behind its
first byte, then in every reachable state, and in particular when the
main thread is about to block, no client has a request in its TLS object
alone. -/
theorem no_stranded_input {s : Sys} (h : Reachable step SendsSingly Sys.init s) (i : ℕ) :
    ¬ (s.sv.clients i).Stranded := by
  have hinv : Routed s ∧ s.sv.Clean := by
    refine h.invariant (I := fun s => Routed s ∧ s.sv.Clean) ⟨routed_init, fun _ h => by cases h⟩ ?_
    rintro s l s' ⟨hrouted, hclean⟩ hok hstep
    exact ⟨hrouted.step (step_trans hstep), clean_step hclean hrouted (step_trans hstep) hok⟩
  rintro ⟨halive, -, ssl, hssl, -, hr⟩
  exact ((hinv.2 i halive).2 ssl hssl).pending hr

theorem single_of_short {item : SockItem} (h : item.bytes.length ≤ headerSize + crcSize) :
    item.Single := by
  cases item with
  | record b bs =>
      intro hr
      have hle := hr.length_le
      rw [SockItem.bytes_record, List.length_cons] at h
      omega
  | _ => trivial

/-- Two requests in two records. Both are there when the main thread looks
for the first time, and it has read one of them. -/
theorem no_stranded_input_twoRecords :
    ∃ s, Reachable step SendsSingly Sys.init s ∧ s.main = .wait ∧ s.frames.length = 1 ∧
      ¬ (s.sv.clients 0).Stranded := by
  have hrun : (runs (guarded step fun _ l => ∀ item ∈ l.arrived,
        item.bytes.length ≤ headerSize + crcSize) Sys.init
      (connects 7 ++ (recordOf (packet msgStatus 1 [])).map (.arrive 0) ++
        (recordOf (packet msgStatus 2 [])).map (.arrive 0) ++ handles 7 epollIn none [])).map
      (fun s => (s.main, s.frames.length)) = some (.wait, 1) := by decide +kernel
  obtain ⟨s, hreach, hobs⟩ := Reachable.exists_of_runs hrun
  rw [Prod.mk.injEq] at hobs
  have hreach : Reachable step SendsSingly Sys.init s :=
    hreach.mono fun _ _ hok item hitem => single_of_short (hok item hitem)
  exact ⟨s, hreach, hobs.1, hobs.2, no_stranded_input hreach 0⟩

/-- Two requests in one record. The main thread goes to sleep with the
second one in the TLS object. -/
theorem stranded_input_oneRecord :
    ∃ s, Reachable step (fun _ _ => True) Sys.init s ∧ s.main = .wait ∧
      (s.sv.clients 0).Stranded := by
  have hrun : (runs (guarded step fun _ _ => True) Sys.init
      (connects 7 ++ (recordOf (packet msgStatus 1 [] ++ packet msgStatus 2 [])).map (.arrive 0) ++
        handles 7 epollIn none [])).map
      (fun s => (s.main, (s.sv.clients 0).alive, (s.sv.clients 0).tlsHandshakeDone,
        (s.sv.clients 0).ssl)) =
        some (.wait, true, true, some ⟨packet msgStatus 2 [], [], 20⟩) := by decide +kernel
  obtain ⟨s, hreach, hobs⟩ := Reachable.exists_of_runs hrun
  simp only [Prod.mk.injEq] at hobs
  obtain ⟨hwait, halive, hdone, hssl⟩ := hobs
  refine ⟨s, hreach, hwait, halive, hdone, _, hssl, ?_, ?_⟩
  · intro item hitem
    cases hitem
  · exact ⟨⟨msgStatus, 2, [], by decide⟩, by decide, List.infix_refl _⟩

end LinuxMiniProjects.Gateway
