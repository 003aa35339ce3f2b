import LinuxMiniProjects.ControlPlane.Message

/-!
Sessions and replies of the control plane.

A client that identifies itself is bound to a session, which survives the
connection. `session_lookup_or_create` goes over the table once: it
returns the session with the token, or else makes one in the first free
place. The counters of a session that only its statistics use are left
out.

The replies of the commands are here as well, each under the name of the
function that builds it.
-/

namespace LinuxMiniProjects.ControlPlane

open Bytes

/-! ### The table -/

def sessionTokenLen : ℕ := 64

def maxSessions : ℕ := 256

structure ClientSession where
  inUse : Bool
  token : List UInt8
  clientId : UInt64
  reconnectCount : ℕ

structure SessionTable where
  sessions : ℕ → ClientSession
  nextPersistentId : UInt64

def initSessionTable : SessionTable where
  sessions := fun _ => { inUse := false, token := [], clientId := 0, reconnectCount := 0 }
  nextPersistentId := 0

def strncmpEq (n : ℕ) (s t : List UInt8) : Bool := s.take n == t.take n

/-- `session_lookup_or_create`: the index of the session and whether it
was there before, and the table. -/
def sessionLookupOrCreate (table : SessionTable) (token : List UInt8) :
    Option (ℕ × Bool) × SessionTable :=
  let known := (List.range maxSessions).find? fun i =>
    (table.sessions i).inUse && strncmpEq sessionTokenLen token (table.sessions i).token
  let freeSlot := (List.range maxSessions).find? fun i => !(table.sessions i).inUse
  match known, freeSlot with
  | some i, _ =>
      let session := { table.sessions i with
        reconnectCount := (table.sessions i).reconnectCount + 1 }
      (some (i, true), { table with sessions := Function.update table.sessions i session })
  | none, none => (none, table)
  | none, some i =>
      let session : ClientSession :=
        { inUse := true
          token := token.take (sessionTokenLen - 1)
          clientId := table.nextPersistentId + 1
          reconnectCount := 1 }
      (some (i, false),
        { sessions := Function.update table.sessions i session
          nextPersistentId := table.nextPersistentId + 1 })

/-! ### Replies -/

def decimal (n : ℕ) : List UInt8 := (Nat.toDigits 10 n).map fun c => UInt8.ofNat c.toNat

def getStatusTask (m : MessageControl) : MessageControl :=
  buildMessage (ascii "STATUS OK") Command.ack.code 0 m.numberPacket

def setStatusTask (m : MessageControl) : MessageControl := buildAck m.numberPacket

def getDataTask (m : MessageControl) : MessageControl :=
  buildMessage (ascii "DATA") Command.ack.code 0 m.numberPacket

def getConfigTask (m : MessageControl) : MessageControl :=
  buildMessage (ascii "CONFIG") Command.ack.code 0 m.numberPacket

def setConfigTask (m : MessageControl) : MessageControl := buildAck m.numberPacket

def sendControlTask (m : MessageControl) : MessageControl := buildAck m.numberPacket

def tokenLength (m : MessageControl) : ℕ := min m.length.toNat (sessionTokenLen - 1)

def identifyToken (m : MessageControl) : List UInt8 := cString (slice m.message 0 (tokenLength m))

/-- `identify_task` without a token. -/
def identifyEmpty (m : MessageControl) : MessageControl :=
  buildMessage (ascii "IDENTITY requires a non-empty token") Command.nack.code 0 m.numberPacket

/-- `identify_task` with no room in the table. -/
def identifyFull (m : MessageControl) : MessageControl :=
  buildMessage (ascii "session table full") Command.nack.code 0 m.numberPacket

/-- `identify_task` for the given session. The text is shorter than its
buffer. -/
def identifyReply (m : MessageControl) (session : ClientSession) (wasResumed : Bool) :
    MessageControl :=
  let text := ascii (if wasResumed then "RESUMED" else "NEW") ++ ascii " client_id=" ++
    decimal session.clientId.toNat ++ ascii " reconnect=" ++ decimal session.reconnectCount
  buildMessage text Command.ack.code 0 m.numberPacket

/-- The reply of `handle_client_readable` when a queue is full. -/
def serverBusy (m : MessageControl) : MessageControl :=
  buildMessage (ascii "SERVER BUSY") Command.nack.code 0 m.numberPacket

def serverShuttingDown : MessageControl :=
  buildMessage (ascii "server shutting down") Command.shutdownPeer.code 2 0

end LinuxMiniProjects.ControlPlane
