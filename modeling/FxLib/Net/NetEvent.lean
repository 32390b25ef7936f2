import Mathlib.Data.List.Basic

/-!
# Socket states and network events

The enumerations of `meta_header/ifnet.h` that the sockets share.
-/

inductive ESocketState where
  | invalid
  | listen
  | stopListen
  | connect
  | establish
  | close
  | release
  deriving DecidableEq

/-- The value of the enumerator, as it stands in a packet. -/
def ESocketState.code : ESocketState → Nat
  | .invalid => 0
  | .listen => 1
  | .stopListen => 2
  | .connect => 3
  | .establish => 4
  | .close => 5
  | .release => 6

inductive ENetEvtType where
  | establish
  | associate
  | recv
  | recvPackageError
  | connErr
  | error
  | terminate
  | release
  deriving DecidableEq

/-- `dwValue` is an `unsigned int`: a length for `recv`, an error number for the errors. -/
structure SNetEvent where
  eType : ENetEvtType
  dwValue : Nat
  deriving DecidableEq

/-! ### ENetErrCode -/

def netRecvbuffError : Int := -8

def netConnectFail : Int := -7

def netRecvError : Int := -5

def netSendOverflow : Int := -3

def netPacketError : Int := -2

def netEofError : Int := -1

/-! ### Kernel calls -/

/-- `VAL_SO_SNDLOWAT`. -/
def sndLowat : Int := 65536

def eintr : Nat := 4

def eagain : Nat := 11

def einprogress : Nat := 115

/-- What `recv` answers: the bytes it wrote, none at the end of the stream, or -1 and an
error number. -/
inductive RecvRet where
  | data (bytes : List UInt8)
  | error (errno : Nat)
  deriving DecidableEq

namespace RecvRet

/-- The answers after which the socket is simply tried again later. -/
def Transient : RecvRet → Prop
  | .data _ => False
  | .error errno => errno = eagain ∨ errno = einprogress ∨ errno = eintr

instance : (ret : RecvRet) → Decidable ret.Transient
  | .data _ => inferInstanceAs (Decidable False)
  | .error _ => inferInstanceAs (Decidable (_ ∨ _))

/-- The end of the stream, or an error after which the socket is closed. -/
def Fatal : RecvRet → Prop
  | .data bytes => bytes = []
  | .error errno => ¬ Transient (.error errno)

instance : (ret : RecvRet) → Decidable ret.Fatal
  | .data _ => inferInstanceAs (Decidable (_ = _))
  | .error _ => inferInstanceAs (Decidable (¬ _))

end RecvRet
