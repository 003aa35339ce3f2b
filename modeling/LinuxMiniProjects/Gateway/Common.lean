import Mathlib.Tactic
import LinuxMiniProjects.Lib.LinkedList

/-!
The constants of the gateway, and the small types all of its modules
share: addresses of heap cells, the codes a function returns, epoll
masks, the messages of the protocol.
-/

namespace LinuxMiniProjects.Gateway

/-! ### `common.h` and `protocol_message.h` -/

def numWorkers : ℕ := 4
def maxClients : ℕ := 128
def taskQueueMax : ℕ := 1024
def maxPayload : ℕ := 4096
def rxBufCap : ℕ := 8192
def requestTimeoutMs : ℕ := 5000
def idleTimeoutSec : ℕ := 60

def protocolMagic : UInt32 := 0xFFAABBCC
def protocolVersion : UInt16 := 1
def crcSize : ℕ := 4
def headerSize : ℕ := 16

def eagain : ℤ := 11

abbrev Addr := ℕ

/-- The values of `errno` the gateway distinguishes after a failed
read. -/
inductive Errno
  | eintr
  | eagain
  | other
  deriving DecidableEq, Repr

inductive ErrCode
  | unknownType
  | badMagic
  | badVersion
  | payloadTooLarge
  | crcMismatch
  | rateLimit
  | serverBusy
  | serverFull
  | timeout
  | badJson
  deriving DecidableEq, Repr

def ErrCode.code : ErrCode → UInt8
  | .unknownType => 1
  | .badMagic => 2
  | .badVersion => 3
  | .payloadTooLarge => 4
  | .crcMismatch => 5
  | .rateLimit => 6
  | .serverBusy => 7
  | .serverFull => 8
  | .timeout => 9
  | .badJson => 10

/-! `enum message_type`; a type field can hold any 16-bit value. -/

def msgEcho : UInt16 := 1
def msgStatus : UInt16 := 2
def msgSetDevice : UInt16 := 3
def msgGetSensor : UInt16 := 4
def msgSetActuator : UInt16 := 0x10
def msgGetActuator : UInt16 := 0x11
def msgReadSensorAll : UInt16 := 0x20
def msgResponse : UInt16 := 0x8001
def msgError : UInt16 := 0x8002

/-! ### Epoll -/

/-- An epoll mask: the interest registered for a descriptor, or the
events reported for it. -/
structure EpollMask where
  epollin : Bool
  epollout : Bool
  epollhup : Bool
  epollerr : Bool
  deriving DecidableEq, Repr

def epollIn : EpollMask := ⟨true, false, false, false⟩

def epollInOut : EpollMask := ⟨true, true, false, false⟩

abbrev Epoll := ℤ → Option EpollMask

/-- `epoll_add` and `epoll_mod`, when the call succeeds. -/
def epollMod (ep : Epoll) (event : EpollMask) (fd : ℤ) : Epoll :=
  Function.update ep fd (some event)

def epollClose (ep : Epoll) (fd : ℤ) : Epoll := Function.update ep fd none

/-! ### Tasks and responses (`queue.h`)

`task_id` is declared and never written or read, so it is left out; the
link fields are the links of the cells the two records are stored in. The
`length` of a response is the length of its payload. -/

structure Task where
  slot : ℕ
  generation : ℕ
  type : UInt16
  requestId : UInt32
  payload : List UInt8
  timeoutMs : ℕ
  length : ℕ
  deriving DecidableEq, Repr

structure Response where
  slot : ℕ
  generation : ℕ
  type : UInt16
  requestId : UInt32
  payload : List UInt8
  deriving DecidableEq, Repr

end LinuxMiniProjects.Gateway
