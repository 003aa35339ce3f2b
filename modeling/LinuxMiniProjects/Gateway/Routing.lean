import LinuxMiniProjects.Lib.Machine
import LinuxMiniProjects.Gateway.System

/-!
Responses reach the connection their request came from.

A response finds its client by slot, and by the time it is ready the slot
may belong to somebody else, even under the same descriptor. The
generation is what tells the connections of a slot apart: it grows with
every connection, so a response that carries the current generation was
caused by the current connection. `Server.Older` is this argument as a
relation between servers. That a task is answered at most once is a
matter of counting: the number of a frame is in one place only, from the
task queue over the hands of a worker and the response queue to what was
delivered.
-/

namespace LinuxMiniProjects.Gateway

open Machine

/-! ### Generations -/

/-- The generations of slots grow, and where one is the same the
connection is the same and has not forgotten its handshake. -/
def Server.Older (sv sv' : Server) : Prop :=
  ∀ i, (sv.clients i).generation ≤ (sv'.clients i).generation ∧
    ((sv'.clients i).generation = (sv.clients i).generation →
      sv'.conn i = sv.conn i ∧
        ((sv.clients i).tlsHandshakeDone = true → (sv'.clients i).tlsHandshakeDone = true))

theorem Server.Older.refl (sv : Server) : sv.Older sv :=
  fun _ => ⟨le_rfl, fun _ => ⟨rfl, id⟩⟩

theorem Server.Older.trans {sv sv' sv'' : Server} (h : sv.Older sv') (h' : sv'.Older sv'') :
    sv.Older sv'' := by
  intro i
  obtain ⟨hle, hsame⟩ := h i
  obtain ⟨hle', hsame'⟩ := h' i
  refine ⟨hle.trans hle', fun heq => ?_⟩
  -- the generation in between is squeezed
  obtain ⟨hconn, hdone⟩ := hsame (by omega)
  obtain ⟨hconn', hdone'⟩ := hsame' (by omega)
  exact ⟨hconn'.trans hconn, fun h => hdone' (hdone h)⟩

theorem Local.older {slot : ℕ} {sv sv' : Server} (h : Local slot sv sv')
    (hc : (sv.clients slot).Continues (sv'.clients slot)) : sv.Older sv' := by
  intro i
  by_cases hi : i = slot
  · subst hi
    exact ⟨hc.generation.ge, fun _ => ⟨congrFun h.conn i, hc.handshake⟩⟩
  · rw [h.clients i hi]
    exact ⟨le_rfl, fun _ => ⟨congrFun h.conn i, id⟩⟩

theorem Moves.older {sv sv' : Server} (h : Moves sv sv') : sv.Older sv' :=
  h.invariant (I := sv.Older)
    (fun _ _ _ hmove ho => ho.trans (hmove.isLocal.older hmove.continues)) (.refl sv)

theorem Server.occupy_older (sv : Server) (slot : ℕ) (fd : ℤ) (now : ℕ) :
    sv.Older (sv.occupy slot fd now) := by
  intro i
  by_cases hi : i = slot
  · subst hi
    simp [Server.occupy, Client.occupy]
  · simp [Server.occupy, hi]

theorem Served.older {s : Sys} {l : Label} {sv' : Server} (h : Served s l sv') :
    s.sv.Older sv' := by
  cases h with
  | moves h => exact h.older
  | accept env slot free fd h => exact (s.sv.occupy_older slot env.clientFd env.now).trans h.older
  | send env clientFd pc slot found done =>
      obtain ⟨-, -, -, rfl⟩ := fdToSlot_spec found
      exact (s.sv.send_isLocal slot env).older (s.sv.send_continues slot _ env)

theorem Server.accepted_spec {sv : Server} {rp : Response} {data : List UInt8}
    (h : sv.accepted rp = some data) :
    (sv.clients rp.slot).generation = rp.generation ∧
      data = packet rp.type rp.requestId rp.payload ∧ rp.payload.length ≤ maxPayload := by
  unfold Server.accepted at h
  split at h
  · cases h
  split at h
  next hvalid =>
    simp only [checkResponseMessage, Bool.and_eq_true, decide_eq_true_eq] at hvalid
    unfold packetResponseMessage at h
    split at h
    next hlen =>
      cases h
      exact ⟨hvalid.2, rfl, hlen⟩
    next => cases h
  next => cases h

/-! ### What a task, a response and a delivery are for -/

/-- The slot has not been taken again since the frame, or it has a later
generation. -/
def Frame.Known (sv : Server) (f : Frame) : Prop :=
  f.generation ≤ (sv.clients f.slot).generation ∧
    ((sv.clients f.slot).generation = f.generation →
      sv.conn f.slot = f.conn ∧ (sv.clients f.slot).tlsHandshakeDone = true)

theorem Frame.Known.mono {sv sv' : Server} {f : Frame} (h : f.Known sv) (ho : sv.Older sv') :
    f.Known sv' := by
  obtain ⟨hle, hsame⟩ := ho f.slot
  refine ⟨h.1.trans hle, fun heq => ?_⟩
  obtain ⟨hconn, hdone⟩ := h.2 (by have := h.1; omega)
  obtain ⟨hconn', hdone'⟩ := hsame (by have := h.1; omega)
  exact ⟨hconn'.trans hconn, hdone' hdone⟩

def Task.IsFor (t : Task) (f : Frame) : Prop :=
  t.slot = f.slot ∧ t.generation = f.generation ∧ t.requestId = f.requestId

def Response.IsFor (r : Response) (f : Frame) : Prop :=
  r.slot = f.slot ∧ r.generation = f.generation ∧ r.requestId = f.requestId

theorem Response.Answers.isFor {r : Response} {t : Task} {f : Frame} (h : r.Answers t)
    (ht : t.IsFor f) : r.IsFor f :=
  ⟨h.slot.trans ht.1, h.generation.trans ht.2.1, h.requestId.trans ht.2.2⟩

/-- What was delivered went to the connection of the frame and is a packet
with the request id of the frame. -/
def Delivery.IsFor (d : Delivery) (f : Frame) : Prop :=
  d.slot = f.slot ∧ d.conn = f.conn ∧
    ∃ type payload, d.bytes = packet type f.requestId payload

def OfFrame (frames : List Frame) (k : ℕ) (P : Frame → Prop) : Prop :=
  ∃ f, frames[k]? = some f ∧ P f

theorem OfFrame.append {frames : List Frame} {k : ℕ} {P : Frame → Prop} (h : OfFrame frames k P)
    (g : Frame) : OfFrame (frames ++ [g]) k P := by
  obtain ⟨f, hf, hP⟩ := h
  obtain ⟨hk, -⟩ := List.getElem?_eq_some_iff.mp hf
  exact ⟨f, by rw [List.getElem?_append_left hk, hf], hP⟩

/-- Everything on its way is for the frame whose number it carries. -/
structure Routed (s : Sys) : Prop where
  frames : ∀ f ∈ s.frames, f.Known s.sv
  tasks : ∀ k t, (k, t) ∈ s.tasks → OfFrame s.frames k t.IsFor
  busy : ∀ w k t, s.workers w = .busy k t → OfFrame s.frames k t.IsFor
  ready : ∀ w k r, s.workers w = .ready k r → OfFrame s.frames k r.IsFor
  responses : ∀ k r, (k, r) ∈ s.responses → OfFrame s.frames k r.IsFor
  delivered : ∀ d ∈ s.delivered, OfFrame s.frames d.frame d.IsFor

theorem routed_init : Routed Sys.init where
  frames _ h := by cases h
  tasks _ _ h := by cases h
  busy _ _ _ h := by cases h
  ready _ _ _ h := by cases h
  responses _ _ h := by cases h
  delivered _ h := by cases h

section Steps

variable {s : Sys} (h : Routed s)

include h

theorem Routed.server {sv' : Server} (ho : s.sv.Older sv') (pc : MainPc) :
    Routed { s with sv := sv', main := pc } where
  frames f hf := (h.frames f hf).mono ho
  tasks := h.tasks
  busy := h.busy
  ready := h.ready
  responses := h.responses
  delivered := h.delivered

theorem Routed.pushTask {sv' : Server} (ho : s.sv.Older sv') (pc : MainPc) {t : Task}
    (ht : Pushed sv' t) :
    Routed { s with
      sv := sv'
      main := pc
      tasks := s.tasks ++ [(s.frames.length, t)]
      frames := s.frames ++ [⟨t.slot, sv'.conn t.slot, (sv'.clients t.slot).generation,
        (decodeHeader (sv'.clients t.slot).dataReceive).requestId⟩] } where
  frames f hf := by
    obtain hf | rfl := List.mem_append.mp hf |>.imp_right List.mem_singleton.mp
    · exact (h.frames f hf).mono ho
    · exact ⟨le_rfl, fun _ => ⟨rfl, ht.handshake⟩⟩
  tasks k t' hk := by
    obtain hk | hk := List.mem_append.mp hk |>.imp_right List.mem_singleton.mp
    · exact (h.tasks k t' hk).append _
    · rw [Prod.mk.injEq] at hk
      obtain ⟨rfl, rfl⟩ := hk
      exact ⟨_, List.getElem?_concat_length, rfl, ht.generation, ht.requestId⟩
  busy w k t' hw := (h.busy w k t' hw).append _
  ready w k r hw := (h.ready w k r hw).append _
  responses k r hk := (h.responses k r hk).append _
  delivered d hd := (h.delivered d hd).append _

theorem Routed.popResponse {frame : ℕ} {rp : Response} {rest : List (ℕ × Response)}
    (hpop : s.responses = (frame, rp) :: rest) : Routed { s with responses := rest } where
  frames := h.frames
  tasks := h.tasks
  busy := h.busy
  ready := h.ready
  responses k r hk := h.responses k r (by rw [hpop]; exact List.mem_cons_of_mem _ hk)
  delivered := h.delivered

theorem Routed.accepted {frame : ℕ} {rp : Response} {data : List UInt8}
    (hmem : (frame, rp) ∈ s.responses) (hdata : s.sv.accepted rp = some data) :
    OfFrame s.frames frame
        (Delivery.IsFor ⟨frame, rp.slot, s.sv.conn rp.slot, data⟩) ∧
      (s.sv.clients rp.slot).tlsHandshakeDone = true := by
  obtain ⟨f, hf, hslot, hgen, hid⟩ := h.responses frame rp hmem
  obtain ⟨hcur, rfl, -⟩ := Server.accepted_spec hdata
  have hknown := h.frames f (List.mem_of_getElem? hf)
  rw [hslot] at hcur ⊢
  obtain ⟨hconn, hdone⟩ := hknown.2 (hcur.trans hgen)
  exact ⟨⟨f, hf, rfl, hconn, rp.type, rp.payload, by rw [hid]⟩, hdone⟩

theorem Routed.respond_move {frame : ℕ} {rp : Response} {data : List UInt8}
    (hmem : (frame, rp) ∈ s.responses) (hdata : s.sv.accepted rp = some data) (a : Addr) :
    Move rp.slot s.sv (s.sv.respond rp (some a)) := by
  obtain ⟨-, rfl, hlen⟩ := Server.accepted_spec hdata
  simp only [Server.respond, hdata]
  refine .post (some a) _ (h.accepted hmem hdata).2 ?_
  rw [length_packet, packetSize, packetSize]
  omega

theorem Routed.deliver {frame : ℕ} {rp : Response} {rest : List (ℕ × Response)}
    (hpop : s.responses = (frame, rp) :: rest) {data : List UInt8}
    (hdata : s.sv.accepted rp = some data) (a : Addr) :
    Routed { s with
      responses := rest
      sv := s.sv.respond rp (some a)
      delivered := s.delivered ++ [⟨frame, rp.slot, s.sv.conn rp.slot, data⟩] } := by
  have hmem : (frame, rp) ∈ s.responses := by simp [hpop]
  have hserver := (h.popResponse hpop).server (h.respond_move hmem hdata a).moves.older s.main
  refine ⟨hserver.frames, hserver.tasks, hserver.busy, hserver.ready, hserver.responses, ?_⟩
  intro d hd
  obtain hd | rfl := List.mem_append.mp hd |>.imp_right List.mem_singleton.mp
  · exact h.delivered d hd
  · exact (h.accepted hmem hdata).1

theorem Routed.eraseTask (k : ℕ) : Routed { s with tasks := s.tasks.eraseIdx k } where
  frames := h.frames
  tasks k' t hk := h.tasks k' t (List.mem_of_mem_eraseIdx hk)
  busy := h.busy
  ready := h.ready
  responses := h.responses
  delivered := h.delivered

theorem Routed.setWorker (w : ℕ) (pc : Worker)
    (hbusy : ∀ k t, pc = .busy k t → OfFrame s.frames k t.IsFor)
    (hready : ∀ k r, pc = .ready k r → OfFrame s.frames k r.IsFor) :
    Routed (s.setWorker w pc) where
  frames := h.frames
  tasks := h.tasks
  busy v k t hv := by
    by_cases hvw : v = w
    · subst hvw
      rw [s.setWorker_self] at hv
      exact hbusy k t hv
    · rw [s.setWorker_of_ne hvw] at hv
      exact h.busy v k t hv
  ready v k r hv := by
    by_cases hvw : v = w
    · subst hvw
      rw [s.setWorker_self] at hv
      exact hready k r hv
    · rw [s.setWorker_of_ne hvw] at hv
      exact h.ready v k r hv
  responses := h.responses
  delivered := h.delivered

end Steps

theorem Routed.step {s s' : Sys} {l : Label} (h : Routed s) (hs : Trans s l s') : Routed s' := by
  cases hs with
  | main sv' hsv pc hpc => exact h.server hsv.older pc
  | pushTask sv' hsv pc hpc t ht => exact h.pushTask hsv.older pc ht
  | readEventFd es | shutdown =>
      exact ⟨h.frames, h.tasks, h.busy, h.ready, h.responses, h.delivered⟩
  | drained es hnil => exact h.server (.refl s.sv) (.events es)
  | drop es hpc frame rp rest hpop => exact h.popResponse hpop
  | deliver es hpc frame rp rest hpop data hdata a => exact h.deliver hpop hdata a
  | network slot item =>
      have holder := (s.sv.arrive_isLocal slot item).older (s.sv.arrive_continues slot item)
      exact h.server holder s.main
  | loseTask k => exact h.eraseTask k
  | popTask w hw hpc k frame t ht =>
      have htask := h.tasks frame t (List.mem_of_getElem? ht)
      exact (h.setWorker w (.busy frame t) (by rintro _ _ ⟨⟩; exact htask) nofun).eraseTask k
  | answer w hw frame t hpc r hr =>
      obtain ⟨f, hf, ht⟩ := h.busy w frame t hpc
      exact h.setWorker w (.ready frame r) nofun (by rintro _ _ ⟨⟩; exact ⟨f, hf, hr.isFor ht⟩)
  | giveUp w hw hpc pc hpc' =>
      obtain rfl | rfl := hpc'
      · exact h.setWorker w .idle nofun nofun
      · exact h.setWorker w .stopped nofun nofun
  | pushResponse w hw frame r hpc =>
      have hworker := h.setWorker w .pushed nofun nofun
      refine ⟨hworker.frames, hworker.tasks, hworker.busy, hworker.ready, ?_, hworker.delivered⟩
      intro k r' hk
      obtain hk | hk := List.mem_append.mp hk |>.imp_right List.mem_singleton.mp
      · exact h.responses k r' hk
      · rw [Prod.mk.injEq] at hk
        obtain ⟨rfl, rfl⟩ := hk
        exact h.ready w _ _ hpc
  | notify w hw hpc =>
      have hworker := h.setWorker w .idle nofun nofun
      exact ⟨hworker.frames, hworker.tasks, hworker.busy, hworker.ready, hworker.responses,
        hworker.delivered⟩

theorem Routed.of_reachable {ok : Sys → Label → Prop} {s : Sys}
    (h : Reachable Gateway.step ok Sys.init s) : Routed s :=
  h.invariant routed_init fun _ _ _ ih _ hstep => ih.step (step_trans hstep)

/-! ### At most once -/

def Worker.frame : Worker → Multiset ℕ
  | .idle => 0
  | .busy frame _ => {frame}
  | .ready frame _ => {frame}
  | .pushed => 0
  | .stopped => 0

def Sys.inWorkers (s : Sys) : Multiset ℕ := ∑ w ∈ Finset.range numWorkers, (s.workers w).frame

def Sys.inFlight (s : Sys) : Multiset ℕ :=
  ↑(s.tasks.map Prod.fst) + s.inWorkers + ↑(s.responses.map Prod.fst) +
    ↑(s.delivered.map Delivery.frame)

theorem Sys.inWorkers_setWorker (s : Sys) {w : ℕ} (hw : w < numWorkers) (pc : Worker) :
    (s.setWorker w pc).inWorkers + (s.workers w).frame = s.inWorkers + pc.frame := by
  have hmem : w ∈ Finset.range numWorkers := Finset.mem_range.mpr hw
  have hrest : ∑ v ∈ (Finset.range numWorkers).erase w, ((s.setWorker w pc).workers v).frame =
      ∑ v ∈ (Finset.range numWorkers).erase w, (s.workers v).frame := by
    refine Finset.sum_congr rfl fun v hv => ?_
    rw [s.setWorker_of_ne (Finset.ne_of_mem_erase hv)]
  unfold Sys.inWorkers
  rw [← Finset.add_sum_erase _ (fun v => ((s.setWorker w pc).workers v).frame) hmem,
    ← Finset.add_sum_erase _ (fun v => (s.workers v).frame) hmem, hrest, s.setWorker_self]
  abel

theorem coe_map_eraseIdx {tasks : List (ℕ × Task)} {k frame : ℕ} {t : Task}
    (h : tasks[k]? = some (frame, t)) :
    (↑(tasks.map Prod.fst) : Multiset ℕ) = {frame} + ↑((tasks.eraseIdx k).map Prod.fst) := by
  obtain ⟨hk, hget⟩ := List.getElem?_eq_some_iff.mp h
  have hperm := (List.getElem_cons_eraseIdx_perm hk).map Prod.fst
  rw [hget, List.map_cons] at hperm
  rw [Multiset.singleton_add, Multiset.cons_coe, Multiset.coe_eq_coe]
  exact hperm.symm

theorem Sys.inFlight_setWorker (s : Sys) {w : ℕ} (hw : w < numWorkers) (pc : Worker) :
    (s.setWorker w pc).inFlight + (s.workers w).frame = s.inFlight + pc.frame := by
  calc (s.setWorker w pc).inFlight + (s.workers w).frame
      = ↑(s.tasks.map Prod.fst) + ((s.setWorker w pc).inWorkers + (s.workers w).frame) +
          ↑(s.responses.map Prod.fst) + ↑(s.delivered.map Delivery.frame) := by
        simp only [Sys.inFlight, Sys.setWorker]
        abel
    _ = s.inFlight + pc.frame := by
        rw [s.inWorkers_setWorker hw pc, Sys.inFlight]
        abel

theorem Sys.inFlight_eraseTask (s : Sys) {k frame : ℕ} {t : Task}
    (h : s.tasks[k]? = some (frame, t)) :
    ({ s with tasks := s.tasks.eraseIdx k } : Sys).inFlight + {frame} = s.inFlight := by
  simp only [Sys.inFlight, Sys.inWorkers, coe_map_eraseIdx h]
  abel

theorem Sys.inFlight_pushResponse (s : Sys) (frame : ℕ) (r : Response) :
    ({ s with responses := s.responses ++ [(frame, r)] } : Sys).inFlight =
      s.inFlight + {frame} := by
  simp only [Sys.inFlight, Sys.inWorkers, List.map_append, List.map_cons, List.map_nil,
    ← Multiset.coe_add, Multiset.coe_singleton]
  abel

theorem Trans.inFlight {s s' : Sys} {l : Label} (h : Trans s l s') :
    s'.inFlight ≤ s.inFlight ∧ s'.frames = s.frames ∨
      s'.inFlight = {s.frames.length} + s.inFlight ∧ s'.frames.length = s.frames.length + 1 := by
  have hsame : s.inFlight ≤ s.inFlight := le_rfl
  cases h with
  | pushTask sv' hsv pc hpc t ht =>
      refine .inr ⟨?_, by simp⟩
      simp only [Sys.inFlight, Sys.inWorkers, List.map_append, List.map_cons, List.map_nil,
        ← Multiset.coe_add, Multiset.coe_singleton]
      abel
  | drop es hpc frame rp rest hpop =>
      refine .inl ⟨?_, rfl⟩
      simp only [Sys.inFlight, Sys.inWorkers, hpop, List.map_cons, ← Multiset.cons_coe]
      gcongr
      exact Multiset.le_cons_self _ _
  | deliver es hpc frame rp rest hpop data hdata a =>
      refine .inl ⟨le_of_eq ?_, rfl⟩
      simp only [Sys.inFlight, Sys.inWorkers, hpop, List.map_cons, List.map_append, List.map_nil,
        ← Multiset.coe_add, ← Multiset.cons_coe, ← Multiset.singleton_add]
      abel
  | loseTask k =>
      refine .inl ⟨?_, rfl⟩
      simp only [Sys.inFlight, Sys.inWorkers]
      gcongr
      exact Multiset.coe_le.mpr ((s.tasks.eraseIdx_sublist k).map Prod.fst).subperm
  | popTask w hw hpc k frame t ht =>
      -- the number goes from the queue to the worker
      have hworker := s.inFlight_setWorker hw (.busy frame t)
      rw [hpc] at hworker
      have hqueue := (s.setWorker w (.busy frame t)).inFlight_eraseTask ht
      refine .inl ⟨le_of_eq (add_right_cancel (b := {frame}) ?_), rfl⟩
      exact hqueue.trans ((add_zero _).symm.trans hworker)
  | answer w hw frame t hpc r hr =>
      have hworker := s.inFlight_setWorker hw (.ready frame r)
      rw [hpc] at hworker
      exact .inl ⟨(add_right_cancel hworker).le, rfl⟩
  | giveUp w hw hpc pc hpc' =>
      have hworker : (s.setWorker w pc).inFlight + (s.workers w).frame = s.inFlight := by
        obtain rfl | rfl := hpc'
        · exact (s.inFlight_setWorker hw .idle).trans (add_zero _)
        · exact (s.inFlight_setWorker hw .stopped).trans (add_zero _)
      refine .inl ⟨?_, rfl⟩
      rw [← hworker]
      exact Multiset.le_add_right _ _
  | pushResponse w hw frame r hpc =>
      -- the number goes from the worker to the queue
      have hworker := s.inFlight_setWorker hw .pushed
      rw [hpc] at hworker
      have hqueue := (s.setWorker w .pushed).inFlight_pushResponse frame r
      exact .inl ⟨(hqueue.trans (hworker.trans (add_zero _))).le, rfl⟩
  | notify w hw hpc =>
      have hworker := s.inFlight_setWorker hw .idle
      rw [hpc] at hworker
      exact .inl ⟨(add_right_cancel (b := 0) hworker).le, rfl⟩
  | _ => exact .inl ⟨hsame, rfl⟩

structure OnePlace (s : Sys) : Prop where
  nodup : s.inFlight.Nodup
  lt : ∀ k ∈ s.inFlight, k < s.frames.length

theorem OnePlace.step {s s' : Sys} {l : Label} (h : OnePlace s) (hs : Trans s l s') :
    OnePlace s' := by
  obtain ⟨hle, hframes⟩ | ⟨hadd, hframes⟩ := hs.inFlight
  · refine ⟨Multiset.nodup_of_le hle h.nodup, fun k hk => ?_⟩
    rw [hframes]
    exact h.lt k (Multiset.mem_of_le hle hk)
  · rw [Multiset.singleton_add] at hadd
    refine ⟨?_, fun k hk => ?_⟩
    · rw [hadd]
      exact Multiset.nodup_cons.mpr ⟨fun hk => (h.lt _ hk).false, h.nodup⟩
    · rw [hadd, Multiset.mem_cons] at hk
      obtain rfl | hk := hk
      · omega
      · have := h.lt k hk
        omega

theorem OnePlace.of_reachable {ok : Sys → Label → Prop} {s : Sys}
    (h : Reachable Gateway.step ok Sys.init s) : OnePlace s := by
  have hnil : Sys.init.inFlight = 0 := rfl
  refine h.invariant ⟨by simp [hnil], by simp [hnil]⟩ ?_
  intro _ _ _ ih _ hstep
  exact ih.step (step_trans hstep)

theorem OnePlace.responses {s : Sys} (h : OnePlace s) :
    (s.responses.map Prod.fst ++ s.delivered.map Delivery.frame).Nodup := by
  rw [← Multiset.coe_nodup, ← Multiset.coe_add]
  refine Multiset.nodup_of_le ?_ h.nodup
  rw [Sys.inFlight, add_assoc]
  exact Multiset.le_add_left _ _

/-! ### Routing -/

end LinuxMiniProjects.Gateway
