import LinuxMiniProjects.Gateway.Moves
import LinuxMiniProjects.Gateway.Worker

/-!
The gateway as a system of threads: the main thread in its epoll loop,
the workers, and the network.

A step of the system is what one thread does between two points where
another thread could see the difference. The client table belongs to the
main thread, so a handler is one step; what the threads share are the two
queues and the event descriptor, and every access to one of them is a
step of its own. `step` is a partial function: a label says which thread
moves and what its environment answers, and a label that does not fit the
program counter of its thread is not enabled.

Of the task queue only this is used: a task that was pushed reaches at
most one worker, in any order, and may get lost. The response queue is a
bounded first-in-first-out queue.

Three components are records of what happened and influence nothing.
Every task carries the number of the frame it was built from, `frames`
says on which connection that frame was read, and `delivered` says what
was enqueued for a client and which frame that answers.
-/

namespace LinuxMiniProjects.Gateway

/-! ### States -/

/-- A frame for which a task was pushed: the connection it was read on,
the generation of the slot at that time, and its request id. -/
structure Frame where
  slot : ℕ
  conn : ℕ
  generation : ℕ
  requestId : UInt32

structure Delivery where
  frame : ℕ
  slot : ℕ
  conn : ℕ
  bytes : List UInt8

inductive Worker
  /-- In `pop`. -/
  | idle
  /-- With a task. -/
  | busy (frame : ℕ) (t : Task)
  /-- Before `response_queue_push`. -/
  | ready (frame : ℕ) (r : Response)
  /-- Between `response_queue_push` and `notify_main_thread`. -/
  | pushed
  | stopped

inductive Event
  | listen
  | broadcast
  | eventFd
  | client (fd : ℤ) (ev : EpollMask)
  deriving DecidableEq

inductive MainPc
  /-- Before `epoll_wait`. -/
  | wait
  /-- With these events still to handle. -/
  | events (es : List Event)
  /-- Behind the `EPOLLIN` part of an event of the client at `slot`. -/
  | sendable (fd : ℤ) (slot : ℕ) (epollout : Bool) (es : List Event)
  /-- In `handle_response_to_client`, behind the read of the event
  descriptor. -/
  | drain (es : List Event)
  | stopped
  deriving DecidableEq

structure Sys where
  sv : Server
  tasks : List (ℕ × Task)
  responses : List (ℕ × Response)
  eventFd : ℕ
  workers : ℕ → Worker
  main : MainPc
  shutdown : Bool
  frames : List Frame
  delivered : List Delivery

/-- The system after `server_init`. -/
def Sys.init : Sys where
  sv := ⟨fun _ => clientsInit, fun _ => ⟨⟨[], 0⟩, none⟩, fun _ => none, fun _ => 0, 0⟩
  tasks := []
  responses := []
  eventFd := 0
  workers := fun _ => .idle
  main := .wait
  shutdown := false
  frames := []
  delivered := []

/-! ### Steps -/

inductive MainLabel
  /-- `epoll_wait` returns with these events, or with none. -/
  | wake (es : List Event)
  /-- `epoll_wait` fails. -/
  | epollFailed
  | accept (env : AcceptEnv)
  | discovery
  | readEventFd
  /-- A turn of the loop of `handle_response_to_client`. -/
  | popResponse (node : Option Addr)
  /-- The `EPOLLHUP`, `EPOLLERR` and `EPOLLIN` part of an event of a
  client; `pushOk` says whether `push` takes a task. -/
  | request (env : RequestEnv) (pushOk : Bool)
  /-- The `EPOLLOUT` part. -/
  | send (env : SendEnv)
  | reap (now : ℕ)

inductive WorkerLabel
  /-- `pop` returns the task at position `k`. -/
  | popTask (k : ℕ)
  | work (B : Backend) (now now' : ℕ)
  | pushResponse
  | notify
  /-- `pop` returns `NULL`. -/
  | leave

inductive Label
  | main (l : MainLabel)
  | worker (w : ℕ) (l : WorkerLabel)
  /-- Something reaches the socket of the client at `slot`. -/
  | arrive (slot : ℕ) (item : SockItem)
  /-- A task gets lost in the queue. -/
  | loseTask (k : ℕ)
  | shutdown

def Sys.setWorker (s : Sys) (w : ℕ) (pc : Worker) : Sys :=
  { s with workers := Function.update s.workers w pc }

@[simp] theorem Sys.setWorker_self (s : Sys) (w : ℕ) (pc : Worker) :
    (s.setWorker w pc).workers w = pc := Function.update_self ..

theorem Sys.setWorker_of_ne (s : Sys) {w v : ℕ} (h : v ≠ w) (pc : Worker) :
    (s.setWorker w pc).workers v = s.workers v := Function.update_of_ne h ..

/-- The task of a frame goes into the task queue. The frame itself is
still in the receive buffer. -/
def Sys.pushTask (s : Sys) (slot : ℕ) (pushOk : Bool) : ReaderOut → Sys
  | .push t =>
      if pushOk then
        { s with
          tasks := s.tasks ++ [(s.frames.length, t)]
          frames := s.frames ++ [⟨slot, s.sv.conn slot, (s.sv.clients slot).generation,
            (decodeHeader (s.sv.clients slot).dataReceive).requestId⟩] }
      else s
  | .packet _ => s
  | .nothing => s

/-- What `main_thread` does first with an event of a client. -/
def Sys.clientEvent (s : Sys) (fd : ℤ) (ev : EpollMask) (es : List Event) (env : RequestEnv)
    (pushOk : Bool) : Sys :=
  match fdToSlot s.sv.clients fd maxClients with
  | none => { s with main := .events es }
  | some slot =>
      if ev.epollhup || ev.epollerr then { s with sv := s.sv.close slot, main := .events es }
      else if ev.epollin then
        let res := handleRequestClient s.sv fd env
        { s with sv := res.2, main := .sendable fd slot ev.epollout es }.pushTask slot pushOk res.1
      else { s with main := .sendable fd slot ev.epollout es }

/-- What `main_thread` does then, if the client is still there. -/
def Server.sendEvent (sv : Server) (fd : ℤ) (slot : ℕ) (epollout : Bool) (env : SendEnv) :
    Server :=
  if fd = (sv.clients slot).fd ∧ epollout = true ∧ 0 ≤ (sv.clients slot).fd then
    handleClientSendable sv fd env
  else sv

/-- A turn of the loop of `handle_response_to_client`. -/
def Sys.drainTurn (s : Sys) (es : List Event) (node : Option Addr) : Sys :=
  match s.responses with
  | [] => { s with main := .events es }
  | (frame, rp) :: rest =>
      { s with
        responses := rest
        sv := s.sv.respond rp node
        delivered :=
          match s.sv.accepted rp, node with
          | some data, some _ => s.delivered ++ [⟨frame, rp.slot, s.sv.conn rp.slot, data⟩]
          | _, _ => s.delivered }

def workerStep (s : Sys) (w : ℕ) : WorkerLabel → Option Sys
  | .popTask k =>
      match s.workers w, s.tasks[k]? with
      | .idle, some (frame, t) =>
          some { s.setWorker w (.busy frame t) with tasks := s.tasks.eraseIdx k }
      | _, _ => none
  | .work B now now' =>
      match s.workers w with
      | .busy frame t =>
          match workerTurn B t now now' with
          | some r => some (s.setWorker w (.ready frame r))
          | none => some (s.setWorker w .idle)
      | _ => none
  | .pushResponse =>
      match s.workers w with
      | .ready frame r =>
          if taskQueueMax ≤ s.responses.length then some (s.setWorker w .idle)
          else some { s.setWorker w .pushed with responses := s.responses ++ [(frame, r)] }
      | _ => none
  | .notify =>
      match s.workers w with
      | .pushed => some { s.setWorker w .idle with eventFd := s.eventFd + 1 }
      | _ => none
  | .leave =>
      match s.workers w, s.shutdown with
      | .idle, true => some (s.setWorker w .stopped)
      | _, _ => none

def mainStep (s : Sys) : MainLabel → Option Sys
  | .wake es =>
      match s.main with
      | .wait => some { s with main := .events es }
      | _ => none
  | .epollFailed =>
      match s.main with
      | .wait => some { s with main := .stopped }
      | _ => none
  | .accept env =>
      match s.main with
      | .events (.listen :: es) =>
          some { s with sv := handleAcceptClient s.sv env, main := .events es }
      | _ => none
  | .discovery =>
      match s.main with
      | .events (.broadcast :: es) => some { s with main := .events es }
      | _ => none
  | .readEventFd =>
      match s.main with
      | .events (.eventFd :: es) => some { s with eventFd := 0, main := .drain es }
      | _ => none
  | .popResponse node =>
      match s.main with
      | .drain es => some (s.drainTurn es node)
      | _ => none
  | .request env pushOk =>
      match s.main with
      | .events (.client fd ev :: es) => some (s.clientEvent fd ev es env pushOk)
      | _ => none
  | .send env =>
      match s.main with
      | .sendable fd slot epollout es =>
          some { s with
            sv := s.sv.sendEvent fd slot epollout env
            main := .events es }
      | _ => none
  | .reap now =>
      match s.main with
      | .events [] =>
          some { s with
            sv := reapClient s.sv now
            main := if s.shutdown then .stopped else .wait }
      | _ => none

def step (s : Sys) : Label → Option Sys
  | .main l => mainStep s l
  | .worker w l => if w < numWorkers then workerStep s w l else none
  | .arrive slot item => some { s with sv := s.sv.arrive slot item }
  | .loseTask k => some { s with tasks := s.tasks.eraseIdx k }
  | .shutdown => some { s with shutdown := true }

/-! ### What a step can do

Seen from what the threads share, there are few kinds of steps. -/

/-- What the main thread does to the server, outside of
`handle_response_to_client`. -/
inductive Served (s : Sys) : Label → Server → Prop
  | moves {l : Label} {sv' : Server} (h : Moves s.sv sv') : Served s l sv'
  | accept (env : AcceptEnv) (slot : ℕ) (free : freeSlot s.sv.clients maxClients = some slot)
      (fd : 0 ≤ env.clientFd) {sv' : Server}
      (h : Moves (s.sv.occupy slot env.clientFd env.now) sv') :
      Served s (.main (.accept env)) sv'
  | send (env : SendEnv) (clientFd : ℤ) {slot₀ : ℕ} {epollout : Bool} {es : List Event}
      (pc : s.main = .sendable clientFd slot₀ epollout es) (slot : ℕ)
      (found : fdToSlot s.sv.clients clientFd maxClients = some slot)
      (done : (s.sv.clients slot).tlsHandshakeDone = true) :
      Served s (.main (.send env)) (s.sv.send slot clientFd env)

/-- A task was built for the connection and the frame in the receive
buffer. -/
structure Pushed (sv' : Server) (t : Task) : Prop where
  generation : t.generation = (sv'.clients t.slot).generation
  requestId : t.requestId = (decodeHeader (sv'.clients t.slot).dataReceive).requestId
  handshake : (sv'.clients t.slot).tlsHandshakeDone = true

inductive Trans (s : Sys) : Label → Sys → Prop
  | main {l : Label} (sv' : Server) (hsv : Served s l sv') (pc : MainPc)
      (hpc : ∀ es, s.main ≠ .drain es) :
      Trans s l { s with sv := sv', main := pc }
  | pushTask {l : Label} (sv' : Server) (hsv : Moves s.sv sv') (pc : MainPc)
      (hpc : ∀ es, s.main ≠ .drain es) (t : Task) (ht : Pushed sv' t) :
      Trans s l { s with
        sv := sv'
        main := pc
        tasks := s.tasks ++ [(s.frames.length, t)]
        frames := s.frames ++ [⟨t.slot, sv'.conn t.slot, (sv'.clients t.slot).generation,
          (decodeHeader (sv'.clients t.slot).dataReceive).requestId⟩] }
  | readEventFd {l : Label} (es : List Event) : Trans s l { s with eventFd := 0, main := .drain es }
  | drained {l : Label} (es : List Event) (h : s.responses = []) :
      Trans s l { s with main := .events es }
  | drop {l : Label} (es : List Event) (hpc : s.main = .drain es) (frame : ℕ) (rp : Response)
      (rest : List (ℕ × Response)) (h : s.responses = (frame, rp) :: rest) :
      Trans s l { s with responses := rest }
  | deliver {l : Label} (es : List Event) (hpc : s.main = .drain es) (frame : ℕ) (rp : Response)
      (rest : List (ℕ × Response)) (h : s.responses = (frame, rp) :: rest) (data : List UInt8)
      (hdata : s.sv.accepted rp = some data) (a : Addr) :
      Trans s l { s with
        responses := rest
        sv := s.sv.respond rp (some a)
        delivered := s.delivered ++ [⟨frame, rp.slot, s.sv.conn rp.slot, data⟩] }
  | network (slot : ℕ) (item : SockItem) :
      Trans s (.arrive slot item) { s with sv := s.sv.arrive slot item }
  | loseTask {l : Label} (k : ℕ) : Trans s l { s with tasks := s.tasks.eraseIdx k }
  | shutdown {l : Label} : Trans s l { s with shutdown := true }
  | popTask {l : Label} (w : ℕ) (hw : w < numWorkers) (hpc : s.workers w = .idle) (k frame : ℕ)
      (t : Task) (h : s.tasks[k]? = some (frame, t)) :
      Trans s l { s.setWorker w (.busy frame t) with tasks := s.tasks.eraseIdx k }
  | answer {l : Label} (w : ℕ) (hw : w < numWorkers) (frame : ℕ) (t : Task)
      (hpc : s.workers w = .busy frame t) (r : Response) (hr : r.Answers t) :
      Trans s l (s.setWorker w (.ready frame r))
  /-- A worker has nothing to answer, finds the response queue full or
  leaves. -/
  | giveUp {l : Label} (w : ℕ) (hw : w < numWorkers) (hpc : s.workers w ≠ .pushed) (pc : Worker)
      (hpc' : pc = .idle ∨ pc = .stopped) : Trans s l (s.setWorker w pc)
  | pushResponse {l : Label} (w : ℕ) (hw : w < numWorkers) (frame : ℕ) (r : Response)
      (hpc : s.workers w = .ready frame r) :
      Trans s l { s.setWorker w .pushed with responses := s.responses ++ [(frame, r)] }
  | notify {l : Label} (w : ℕ) (hw : w < numWorkers) (hpc : s.workers w = .pushed) :
      Trans s l { s.setWorker w .idle with eventFd := s.eventFd + 1 }

theorem workerStep_trans {s s' : Sys} {w : ℕ} {l : WorkerLabel} (hw : w < numWorkers)
    (h : workerStep s w l = some s') : Trans s (.worker w l) s' := by
  cases l with
  | popTask k =>
      simp only [workerStep] at h
      split at h
      next frame t hpc ht =>
        cases h
        exact .popTask w hw hpc k frame t ht
      next => cases h
  | work B now now' =>
      simp only [workerStep] at h
      split at h
      next frame t hpc =>
        split at h
        next r hr =>
          cases h
          exact .answer w hw frame t hpc r (workerTurn_answers hr)
        next =>
          cases h
          exact .giveUp w hw (by simp [hpc]) .idle (.inl rfl)
      next => cases h
  | pushResponse =>
      simp only [workerStep] at h
      split at h
      next frame r hpc =>
        split at h
        · cases h
          exact .giveUp w hw (by simp [hpc]) .idle (.inl rfl)
        · cases h
          exact .pushResponse w hw frame r hpc
      next => cases h
  | notify =>
      simp only [workerStep] at h
      split at h
      next hpc =>
        cases h
        exact .notify w hw hpc
      next => cases h
  | leave =>
      simp only [workerStep] at h
      split at h
      next hpc _ =>
        cases h
        exact .giveUp w hw (by simp [hpc]) .stopped (.inr rfl)
      next => cases h

theorem clientEvent_trans {s : Sys} (l : Label) (fd : ℤ) (ev : EpollMask) (es : List Event)
    (env : RequestEnv) (pushOk : Bool) (hpc : ∀ es, s.main ≠ .drain es) :
    Trans s l (s.clientEvent fd ev es env pushOk) := by
  unfold Sys.clientEvent
  split
  next => exact .main s.sv (.moves .refl) _ hpc
  next slot hslot =>
    split
    next => exact .main _ (.moves Move.close.moves) _ hpc
    next =>
      split
      next =>
        dsimp only
        have hmoves := handleRequestClient_moves s.sv fd env
        have hpush := fun t => @handleRequestClient_push s.sv fd env t
        generalize handleRequestClient s.sv fd env = res at hmoves hpush ⊢
        obtain ⟨out, sv'⟩ := res
        cases out with
        | nothing | packet bs => exact .main sv' (.moves hmoves) _ hpc
        | push t =>
            obtain ⟨hfound, hdone, hgen, hid⟩ := hpush t rfl
            rw [hslot, Option.some.injEq] at hfound
            subst hfound
            cases pushOk with
            | false => exact .main sv' (.moves hmoves) _ hpc
            | true => exact .pushTask sv' hmoves _ hpc t ⟨hgen, hid, hmoves.handshake hdone⟩
      next => exact .main s.sv (.moves .refl) _ hpc

theorem sendEvent_served {s : Sys} {fd : ℤ} {slot : ℕ} {epollout : Bool} {es : List Event}
    (hpc : s.main = .sendable fd slot epollout es) (env : SendEnv) :
    Served s (.main (.send env)) (s.sv.sendEvent fd slot epollout env) := by
  unfold Server.sendEvent
  split
  next =>
    obtain h | ⟨slot', hslot, hdone, heq⟩ := handleClientSendable_moves s.sv fd env
    · exact .moves h
    · rw [heq]
      exact .send env fd hpc slot' hslot hdone
  next => exact .moves .refl

theorem drainTurn_trans {s : Sys} (l : Label) (es : List Event) (node : Option Addr)
    (hpc : s.main = .drain es) : Trans s l (s.drainTurn es node) := by
  unfold Sys.drainTurn
  split
  next h => exact .drained es h
  next frame rp rest h =>
    cases hdata : s.sv.accepted rp with
    | none =>
        simp only [Server.respond, hdata]
        exact .drop es hpc frame rp rest h
    | some data =>
        cases node with
        | none =>
            simp only [Server.respond, hdata]
            exact .drop es hpc frame rp rest h
        | some a => exact .deliver es hpc frame rp rest h data hdata a

theorem mainStep_trans {s s' : Sys} {l : MainLabel} (h : mainStep s l = some s') :
    Trans s (.main l) s' := by
  have hevents : ∀ {es'}, s.main = .events es' → ∀ es, s.main ≠ .drain es := by
    intro es' hpc es
    simp [hpc]
  cases l with
  | wake es | epollFailed =>
      simp only [mainStep] at h
      split at h
      next hpc =>
        cases h
        exact .main s.sv (.moves .refl) _ (by simp [hpc])
      next => cases h
  | accept env =>
      simp only [mainStep] at h
      split at h
      next es hpc =>
        cases h
        refine .main _ ?_ _ (hevents hpc)
        obtain heq | ⟨slot, hslot, hfd, hmoves⟩ := handleAcceptClient_moves s.sv env
        · rw [heq]
          exact .moves .refl
        · exact .accept env slot hslot hfd hmoves
      next => cases h
  | discovery =>
      simp only [mainStep] at h
      split at h
      next es hpc =>
        cases h
        exact .main s.sv (.moves .refl) _ (hevents hpc)
      next => cases h
  | readEventFd =>
      simp only [mainStep] at h
      split at h
      next es hpc =>
        cases h
        exact .readEventFd es
      next => cases h
  | popResponse node =>
      simp only [mainStep] at h
      split at h
      next es hpc =>
        cases h
        exact drainTurn_trans _ es node hpc
      next => cases h
  | request env pushOk =>
      simp only [mainStep] at h
      split at h
      next fd ev es hpc =>
        cases h
        exact clientEvent_trans _ fd ev es env pushOk (hevents hpc)
      next => cases h
  | send env =>
      simp only [mainStep] at h
      split at h
      next fd slot epollout es hpc =>
        cases h
        exact .main _ (sendEvent_served hpc env) _ (by simp [hpc])
      next => cases h
  | reap now =>
      simp only [mainStep] at h
      split at h
      next hpc =>
        rw [Option.some.injEq] at h
        subst h
        exact .main _ (.moves (reapClient_moves s.sv now)) _ (hevents hpc)
      next => cases h

theorem step_trans {s s' : Sys} {l : Label} (h : step s l = some s') : Trans s l s' := by
  cases l with
  | main l => exact mainStep_trans h
  | worker w l =>
      simp only [step] at h
      split at h
      next hw => exact workerStep_trans hw h
      next => cases h
  | arrive slot item =>
      cases h
      exact .network slot item
  | loseTask k =>
      cases h
      exact .loseTask k
  | shutdown =>
      cases h
      exact .shutdown

/-! ### Short runs

Pieces that concrete runs are put together from. -/

/-- A client connects on the descriptor `fd` and finishes its
handshake. -/
def connects (fd : ℤ) : List Label :=
  [.main (.wake [.listen]), .main (.accept ⟨fd, 0, true, true, true, .done⟩), .main (.reap 0)]

/-- The main thread handles one event of the client with the descriptor
`fd`. -/
def handles (fd : ℤ) (ev : EpollMask) (node : Option Addr) (script : List WriteRes) :
    List Label :=
  [.main (.wake [.client fd ev]),
    .main (.request ⟨.done, 0, 0, ⟨0, 0, true, true⟩, node⟩ true),
    .main (.send ⟨.done, script, 0⟩), .main (.reap 0)]

def silentBackend : Backend where
  now := 0
  mallocOk := true
  jsonParseEchoReq := some
  jsonParseGetSensorReq := fun _ => none
  jsonParseSetActuatorReq := fun _ => none
  jsonBuildEchoResp := some
  jsonBuildStatusResp := fun _ _ => some []
  jsonBuildSensorAht30Resp := fun _ _ => some []
  jsonBuildSensorBh1750Resp := fun _ => some []
  jsonBuildActuatorResp := fun _ => some []
  jsonBuildErrorResp := fun _ _ => some []
  aht30 := none
  bh1750 := none
  setAc := fun _ _ => false
  setLed := fun _ _ => false
  setFan := fun _ _ => false

def works (w : ℕ) : List Label :=
  [.worker w (.popTask 0), .worker w (.work silentBackend 0 0), .worker w .pushResponse]

end LinuxMiniProjects.Gateway
