import LmListener.Sk9822

namespace LmListener

open Checked CTypes

structure SockaddrIn where
  addr : UInt32
  port : UInt16
deriving DecidableEq, Repr, Inhabited

/-- A UDP datagram; IPv4 leaves 65507 bytes for its payload. -/
structure Datagram where
  bytes : List UInt8
  sender : SockaddrIn
  length_le : bytes.length ≤ 65507
deriving DecidableEq, Repr

def INVALID_SOCKET : Int32 := -1
def SOCKET_ERROR : Int32 := -1
def SOCKET_TIMEOUT : Int32 := SOCKET_ERROR - 1
def NO_TIMEOUT : Nat := 0xFFFF
def EWOULDBLOCK : Nat := 11

structure UdpManager where
  hSocket : Int32
  dwTimeoutReceive : Nat
  dwTimeoutSend : Nat
  nonBlocking : Bool
  saServer : SockaddrIn
  saClient : SockaddrIn
  canGetRemoteAddress : Bool
deriving Repr

def UdpManager.new (saServer saClient : SockaddrIn) : UdpManager :=
  ⟨INVALID_SOCKET, NO_TIMEOUT, NO_TIMEOUT, true, saServer, saClient, false⟩

inductive RecvFrom
  | received (d : Datagram)
  | failed (errno : Nat)
deriving DecidableEq, Repr

/-- `select` is the result of the system call of that name. -/
def UdpManager.waitReceive (m : UdpManager) (select : Int32) : Int32 :=
  if m.hSocket = INVALID_SOCKET then SOCKET_ERROR
  else if select = 0 then SOCKET_TIMEOUT
  else if select < 0 then SOCKET_ERROR
  else 0

def UdpManager.timeoutReceive (m : UdpManager) (select : Int32) : Int32 :=
  if m.dwTimeoutReceive ≠ NO_TIMEOUT then m.waitReceive select else 0

/-- `fionread` is `none` when the ioctl fails, else the size it reports. -/
def UdpManager.peekReceive (m : UdpManager) (select : Int32) (fionread : Option Int32) : Int32 :=
  if m.hSocket = INVALID_SOCKET then SOCKET_ERROR
  else if m.timeoutReceive select ≠ 0 then m.timeoutReceive select
  else
    match fionread with
    | none => SOCKET_ERROR
    | some size => size

structure Received (n : Nat) (κ : Type) where
  ret : Int32
  manager : UdpManager
  pBuff : Vector UInt8 n
  kernel : κ

/-- `recvfrom` is the system call on a kernel state; it is given the size of the buffer. -/
def UdpManager.receive {n : Nat} {κ : Type} (dm : DataModel) (recvfrom : Nat → κ → RecvFrom × κ)
    (m : UdpManager) (pBuff : Vector UInt8 n) (iSize select : Int32) (kernel : κ) :
    Except Fault (Received n κ) :=
  if m.hSocket = INVALID_SOCKET then .ok ⟨SOCKET_ERROR, m, pBuff, kernel⟩
  else if m.timeoutReceive select ≠ 0 then .ok ⟨m.timeoutReceive select, m, pBuff, kernel⟩
  else
    let size := dm.toSize iSize.toInt
    -- memset writes `size` bytes before anything is received
    if size > n then .error (.receiveBuffer size)
    else
      let pBuff := overlay pBuff (List.replicate size 0)
      match recvfrom size kernel with
      | (.received d, kernel) =>
        let data := d.bytes.take size
        let ret := toInt data.length
        .ok ⟨ret, { m with saClient := d.sender, canGetRemoteAddress := decide (ret > 0) },
          overlay pBuff data, kernel⟩
      | (.failed errno, kernel) =>
        .ok ⟨if errno = EWOULDBLOCK then 0 else SOCKET_ERROR,
          { m with canGetRemoteAddress := false }, pBuff, kernel⟩

/-- The kernel queue of a bound socket, as FIONREAD and `recvfrom` see it. -/
def fionreadQueue (pending : List Datagram) : Option Int32 :=
  some (toInt ((pending.head?.map fun d => d.bytes.length).getD 0))

def recvfromQueue (_size : Nat) : List Datagram → RecvFrom × List Datagram
  | [] => (.failed EWOULDBLOCK, [])
  | d :: rest => (.received d, rest)

/-- A manager after a successful `Setup`: it holds a socket and waits without a timeout. -/
def UdpManager.Ready (m : UdpManager) : Prop :=
  m.hSocket ≠ INVALID_SOCKET ∧ m.dwTimeoutReceive = NO_TIMEOUT

def bound : UdpManager := { UdpManager.new default default with hSocket := 5 }

theorem bound_ready : bound.Ready := ⟨by decide, rfl⟩

theorem UdpManager.Ready.timeoutReceive {m : UdpManager} (h : m.Ready) (select : Int32) :
    m.timeoutReceive select = 0 := by
  simp [UdpManager.timeoutReceive, h.2]

theorem UdpManager.Ready.peekReceive {m : UdpManager} (h : m.Ready) (select size : Int32) :
    m.peekReceive select (some size) = size := by
  simp [UdpManager.peekReceive, h.1, h.timeoutReceive]

theorem UdpManager.receive_faults {n : Nat} {κ : Type} {dm : DataModel}
    (recvfrom : Nat → κ → RecvFrom × κ) {m : UdpManager} (h : m.Ready) (pBuff : Vector UInt8 n)
    {iSize : Int32} (select : Int32) (kernel : κ) (hs : n < dm.toSize iSize.toInt) :
    m.receive dm recvfrom pBuff iSize select kernel =
      .error (.receiveBuffer (dm.toSize iSize.toInt)) := by
  simp [UdpManager.receive, h.1, h.timeoutReceive, hs]

theorem UdpManager.receive_ok {n : Nat} {κ : Type} (dm : DataModel)
    (recvfrom : Nat → κ → RecvFrom × κ) (m : UdpManager) (pBuff : Vector UInt8 n)
    {iSize : Int32} (select : Int32) (kernel : κ) (hs : dm.toSize iSize.toInt ≤ n) :
    ∃ r, m.receive dm recvfrom pBuff iSize select kernel = .ok r := by
  unfold UdpManager.receive
  split
  next => exact ⟨_, rfl⟩
  next =>
    split
    next => exact ⟨_, rfl⟩
    next =>
      simp only [show ¬dm.toSize iSize.toInt > n by omega, if_false]
      split <;> exact ⟨_, rfl⟩

theorem UdpManager.receive_ready {n : Nat} {κ : Type} {dm : DataModel}
    {recvfrom : Nat → κ → RecvFrom × κ} {m : UdpManager} (h : m.Ready) {pBuff : Vector UInt8 n}
    {iSize select : Int32} {kernel : κ} {r : Received n κ}
    (hr : m.receive dm recvfrom pBuff iSize select kernel = .ok r) : r.manager.Ready := by
  simp only [UdpManager.receive, h.1, h.timeoutReceive, if_false, ne_eq, not_true_eq_false] at hr
  split at hr
  next => cases hr
  next => split at hr <;> (cases hr; exact h)

theorem UdpManager.receive_failed {n : Nat} {κ : Type} {dm : DataModel}
    {recvfrom : Nat → κ → RecvFrom × κ} {m : UdpManager} (h : m.Ready) (pBuff : Vector UInt8 n)
    {iSize : Int32} (select : Int32) {kernel kernel' : κ} {errno : Nat}
    (hs : dm.toSize iSize.toInt ≤ n)
    (hd : recvfrom (dm.toSize iSize.toInt) kernel = (.failed errno, kernel')) :
    ∃ r, m.receive dm recvfrom pBuff iSize select kernel = .ok r ∧
      r.ret = (if errno = EWOULDBLOCK then 0 else SOCKET_ERROR) ∧ r.kernel = kernel' ∧
      r.manager.Ready := by
  have ho : m.receive dm recvfrom pBuff iSize select kernel =
      .ok ⟨if errno = EWOULDBLOCK then 0 else SOCKET_ERROR,
        { m with canGetRemoteAddress := false },
        overlay pBuff (List.replicate (dm.toSize iSize.toInt) 0), kernel'⟩ := by
    simp only [UdpManager.receive, h.1, h.timeoutReceive, if_false, ne_eq, not_true_eq_false, hd,
      show ¬dm.toSize iSize.toInt > n by omega]
  exact ⟨_, ho, rfl, rfl, h⟩

theorem UdpManager.receive_datagram {n : Nat} {κ : Type} {dm : DataModel}
    {recvfrom : Nat → κ → RecvFrom × κ} {m : UdpManager} (h : m.Ready) (pBuff : Vector UInt8 n)
    {iSize : Int32} (select : Int32) {kernel kernel' : κ} {d : Datagram}
    (hs : dm.toSize iSize.toInt ≤ n)
    (hd : recvfrom (dm.toSize iSize.toInt) kernel = (.received d, kernel')) :
    ∃ r, m.receive dm recvfrom pBuff iSize select kernel = .ok r ∧
      r.ret = toInt (min (dm.toSize iSize.toInt) d.bytes.length) ∧ r.kernel = kernel' ∧
      r.manager.Ready ∧ r.pBuff = overlay (overlay pBuff (List.replicate (dm.toSize iSize.toInt) 0))
        (d.bytes.take (dm.toSize iSize.toInt)) := by
  have ho : m.receive dm recvfrom pBuff iSize select kernel =
      .ok ⟨toInt (d.bytes.take (dm.toSize iSize.toInt)).length, { m with
          saClient := d.sender
          canGetRemoteAddress := decide (toInt (d.bytes.take (dm.toSize iSize.toInt)).length > 0) },
        overlay (overlay pBuff (List.replicate (dm.toSize iSize.toInt) 0))
          (d.bytes.take (dm.toSize iSize.toInt)), kernel'⟩ := by
    simp only [UdpManager.receive, h.1, h.timeoutReceive, if_false, ne_eq, not_true_eq_false, hd,
      show ¬dm.toSize iSize.toInt > n by omega]
  exact ⟨_, ho, by simp, rfl, h, rfl⟩

end LmListener
