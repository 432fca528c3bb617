import LmListener.Ledger
import LmListener.RemoteAddr

namespace LmListener

open Checked CTypes Latest Runs

/-- The calls of the system that a manager makes. -/
inductive SystemCall
  | setup (call : SocketCall)
  | select (fd : Int32)
  | sendto (fd : Int32)
  | recvfrom (fd : Int32)
  | fionread (fd : Int32)
  | getsockopt (fd : Int32)
deriving DecidableEq, Repr

def SocketCall.descriptor : SocketCall → Option Int32
  | .setsockopt fd _ _ | .fionbio fd _ _ | .bind fd _ _ | .close fd _ => some fd
  | .socket _ | .gethostbyname _ _ => none

def SystemCall.descriptor : SystemCall → Option Int32
  | .setup call => call.descriptor
  | .select fd | .sendto fd | .recvfrom fd | .fionread fd | .getsockopt fd => some fd

/-- The calls that the manager makes without a look at its socket. -/
def SystemCall.Unguarded : SystemCall → Prop
  | .setup (.setsockopt _ (.broadcast _) _) | .setup (.setsockopt _ (.addMembership _) _) => True
  | .setup (.fionbio _ _ _) | .setup (.bind _ _ _) => True
  | _ => False

/-- The system takes a descriptor back whatever `close` answers. -/
def SystemCall.opens (fd : Int32) : SystemCall → Option Bool
  | .setup (.socket socket) => if socket = fd ∧ fd ≠ INVALID_SOCKET then some true else none
  | .setup (.close closed _) => if closed = fd then some false else none
  | _ => none

def descriptors : Ledger SystemCall Int32 where
  acts := SystemCall.opens
  uses := SystemCall.descriptor
  excused call fd := fd = INVALID_SOCKET ∧ call.Unguarded

namespace UdpManager

def hasSocket (m : UdpManager) : Bool := decide (m.hSocket ≠ 0 ∧ m.hSocket ≠ INVALID_SOCKET)

/-- The destructor. -/
def destroy (m : UdpManager) (ok : Bool) : Called :=
  if m.hasSocket then m.close ok else ⟨false, m, []⟩

/-- `select` before a transfer when a time to wait is set, and the transfer unless that fails. -/
def transferCalls (m : UdpManager) (timeout : Nat) (wait : Int32)
    (transfer : Int32 → SystemCall) : List SystemCall :=
  if m.hSocket = INVALID_SOCKET then []
  else (if timeout ≠ NO_TIMEOUT then [.select m.hSocket] else []) ++
    if timeout ≠ NO_TIMEOUT ∧ wait ≠ 0 then [] else [transfer m.hSocket]

def sendCalls (m : UdpManager) (select : Int32) : List SystemCall :=
  m.transferCalls m.dwTimeoutSend (m.waitSend select) .sendto

/-- `Send` makes its call of `sendto` in both readings of it. -/
theorem sendto_mem_sendCalls (m : UdpManager) (pBuff : List UInt8) (iSize select sent fd : Int32) :
    SystemCall.sendto fd ∈ m.sendCalls select ↔
      ∃ call, (m.send pBuff iSize select sent).2 = some call ∧ call.fd = fd := by
  unfold sendCalls transferCalls send
  by_cases hm : m.hSocket = INVALID_SOCKET
  · simp [hm]
  · by_cases htimeout : m.dwTimeoutSend ≠ NO_TIMEOUT ∧ m.waitSend select ≠ 0
    · simp [hm, htimeout]
    · rw [if_neg hm, if_neg htimeout, if_neg hm, if_neg htimeout]
      simp [eq_comm]

def receiveCalls (m : UdpManager) (select : Int32) : List SystemCall :=
  m.transferCalls m.dwTimeoutReceive (m.waitReceive select) .recvfrom

def peekReceiveCalls (m : UdpManager) (select : Int32) : List SystemCall :=
  m.transferCalls m.dwTimeoutReceive (m.waitReceive select) .fionread

/-- `answer` is `none` when `getsockopt` fails. -/
def getOption (m : UdpManager) (answer : Option Int32) (failed : Int32) :
    Int32 × List SystemCall :=
  if m.hSocket = INVALID_SOCKET then (0, [])
  else (answer.getD failed, [.getsockopt m.hSocket])

def getMaxMsgSize (m : UdpManager) (answer : Option Int32) : Int32 × List SystemCall :=
  m.getOption answer 0

def getReceiveBufferSize (m : UdpManager) (answer : Option Int32) : Int32 × List SystemCall :=
  m.getOption answer 0

def getSendBufferSize (m : UdpManager) (answer : Option Int32) : Int32 × List SystemCall :=
  m.getOption answer 0

def getTTL (m : UdpManager) (answer : Option Int32) : Int32 × List SystemCall :=
  m.getOption answer (-1)

end UdpManager

/-- A call of any member of the manager that talks to the system, with the answers it gets. -/
inductive ManagerOp
  | setup (settings : UdpSettings) (answers : SetupAnswers)
  | create (socket : Int32) (reuse : Bool)
  | close (ok : Bool)
  | bind (usPort : UInt16) (ok : Bool)
  | bindMcast (group : UInt32) (usPort : UInt16) (ok membership : Bool)
  | connect (pHost : String) (usPort : UInt16) (host : Option UInt32)
  | connectMcast (pMcast : String) (usPort : UInt16) (ok ttl : Bool) (host : Option UInt32)
  | setReuseAddress (allowReuse ok : Bool)
  | setEnableBroadcast (enableBroadcast ok : Bool)
  | setNonBlocking (useNonBlocking ok : Bool)
  | setReceiveBufferSize (sizeInByte : Int32) (ok : Bool)
  | setSendBufferSize (sizeInByte : Int32) (ok : Bool)
  | setTTL (nTTL : Int32) (ok : Bool)
  | setTimeoutSend (timeoutInSeconds : Int32)
  | setTimeoutReceive (timeoutInSeconds : Int32)
  | send (select : Int32)
  | receive (n : Nat) (pBuff : Vector UInt8 n) (iSize select : Int32) (answer : RecvFrom)
  | peekReceive (select : Int32)
  | getMaxMsgSize (answer : Option Int32)
  | getReceiveBufferSize (answer : Option Int32)
  | getSendBufferSize (answer : Option Int32)
  | getTTL (answer : Option Int32)

def Called.logged (r : Called) : UdpManager × List SystemCall :=
  (r.manager, r.calls.map SystemCall.setup)

def UdpManager.perform (dm : DataModel) (m : UdpManager) :
    ManagerOp → Except Fault (UdpManager × List SystemCall)
  | .setup settings answers => .ok (m.setup dm settings answers).logged
  | .create socket reuse => .ok (m.create socket reuse).logged
  | .close ok => .ok (m.close ok).logged
  | .bind usPort ok => .ok (m.bind usPort ok).logged
  | .bindMcast group usPort ok membership => .ok (m.bindMcast group usPort ok membership).logged
  | .connect pHost usPort host => .ok (m.connect pHost usPort host).logged
  | .connectMcast pMcast usPort ok ttl host =>
    .ok (m.connectMcast pMcast usPort ok ttl host).logged
  | .setReuseAddress allowReuse ok => .ok (m.setReuseAddress allowReuse ok).logged
  | .setEnableBroadcast enableBroadcast ok => .ok (m.setEnableBroadcast enableBroadcast ok).logged
  | .setNonBlocking useNonBlocking ok => .ok (m.setNonBlocking useNonBlocking ok).logged
  | .setReceiveBufferSize sizeInByte ok => .ok (m.setReceiveBufferSize sizeInByte ok).logged
  | .setSendBufferSize sizeInByte ok => .ok (m.setSendBufferSize sizeInByte ok).logged
  | .setTTL nTTL ok => .ok (m.setTTL nTTL ok).logged
  | .setTimeoutSend timeoutInSeconds => .ok (m.setTimeoutSend dm timeoutInSeconds, [])
  | .setTimeoutReceive timeoutInSeconds => .ok (m.setTimeoutReceive dm timeoutInSeconds, [])
  | .send select => .ok (m, m.sendCalls select)
  | .receive _ pBuff iSize select answer => do
    let r ← m.receive dm (answering answer) pBuff iSize select ()
    return (r.manager, m.receiveCalls select)
  | .peekReceive select => .ok (m, m.peekReceiveCalls select)
  | .getMaxMsgSize answer => .ok (m, (m.getMaxMsgSize answer).2)
  | .getReceiveBufferSize answer => .ok (m, (m.getReceiveBufferSize answer).2)
  | .getSendBufferSize answer => .ok (m, (m.getSendBufferSize answer).2)
  | .getTTL answer => .ok (m, (m.getTTL answer).2)

def ManagerStep (dm : DataModel) (m : UdpManager) (e : ManagerOp × List SystemCall)
    (m' : UdpManager) : Prop :=
  m.perform dm e.1 = .ok (m', e.2)

def callsOf (steps : List (Step UdpManager (ManagerOp × List SystemCall))) : List SystemCall :=
  steps.flatMap fun t => t.event.2

/-- The descriptor a manager owns. -/
def UdpManager.Holds (m : UdpManager) (fd : Int32) : Prop :=
  m.hSocket = fd ∧ fd ≠ INVALID_SOCKET

/-- Calls that leave the books of the manager in order, whatever came before them. -/
def Balanced (m : UdpManager) (calls : List SystemCall) (m' : UdpManager) : Prop :=
  ∀ log, descriptors.Accounts log m.Holds → descriptors.Accounts (log ++ calls) m'.Holds

/-- The calls of a member function. -/
def Called.Balanced (m : UdpManager) (r : Called) : Prop :=
  LmListener.Balanced m (r.calls.map SystemCall.setup) r.manager

section

variable {dm : DataModel} {m m' m'' : UdpManager}

theorem Balanced.nil (h : m'.hSocket = m.hSocket) : Balanced m [] m' := by
  intro log hlog
  have hholds : m'.Holds = m.Holds := by
    unfold UdpManager.Holds
    rw [h]
  rw [List.append_nil, hholds]
  exact hlog

theorem Balanced.append {calls more : List SystemCall} (h : Balanced m calls m')
    (hmore : Balanced m' more m'') : Balanced m (calls ++ more) m'' := by
  intro log hlog
  rw [← List.append_assoc]
  exact hmore _ (h log hlog)

theorem Balanced.of_hSocket {calls : List SystemCall} (h : Balanced m' calls m'')
    (hm : m'.hSocket = m.hSocket) : Balanced m calls m'' :=
  (Balanced.nil hm).append h

/-- A call on the socket of the manager, or one that is made without it. -/
theorem Balanced.call {call : SystemCall} (h : m'.hSocket = m.hSocket)
    (hopens : ∀ fd, call.opens fd = none) (huses : ∀ fd, call.descriptor = some fd →
      m.hSocket = fd ∧ (fd = INVALID_SOCKET → call.Unguarded)) : Balanced m [call] m' := by
  intro log hlog
  apply hlog.concat
  · intro fd hfd
    obtain ⟨hheld, hstray⟩ := huses fd hfd
    by_cases hfd' : fd = INVALID_SOCKET
    · exact Or.inr ⟨hfd', hstray hfd'⟩
    · exact Or.inl ⟨hheld, hfd'⟩
  · intro fd
    have hnone : descriptors.acts fd call = none := hopens fd
    unfold UdpManager.Holds
    simp [h, hnone]

theorem Called.Balanced.andThen {r : Called} {next : UdpManager → Called} (hr : r.Balanced m)
    (hnext : (next r.manager).Balanced r.manager) : (r.andThen next).Balanced m := by
  unfold Called.Balanced Called.andThen
  rw [List.map_append]
  exact LmListener.Balanced.append hr hnext

namespace UdpManager

theorem setOption_balanced (m : UdpManager) (option : SocketOption) (ok : Bool) :
    (m.setOption option ok).Balanced m := by
  unfold setOption
  split
  next => exact Balanced.nil rfl
  next hheld =>
    apply Balanced.call rfl fun _ => rfl
    intro fd hfd
    cases hfd
    exact ⟨rfl, fun hinvalid => absurd hinvalid hheld⟩

theorem bind_balanced (m : UdpManager) (usPort : UInt16) (ok : Bool) :
    (m.bind usPort ok).Balanced m := by
  apply Balanced.call rfl fun _ => rfl
  intro fd hfd
  cases hfd
  exact ⟨rfl, fun _ => trivial⟩

theorem setEnableBroadcast_balanced (m : UdpManager) (enableBroadcast ok : Bool) :
    (m.setEnableBroadcast enableBroadcast ok).Balanced m := by
  apply Balanced.call rfl fun _ => rfl
  intro fd hfd
  cases hfd
  exact ⟨rfl, fun _ => trivial⟩

theorem setNonBlocking_balanced (m : UdpManager) (useNonBlocking ok : Bool) :
    (m.setNonBlocking useNonBlocking ok).Balanced m := by
  apply Balanced.call rfl fun _ => rfl
  intro fd hfd
  cases hfd
  exact ⟨rfl, fun _ => trivial⟩

theorem connect_balanced (m : UdpManager) (pHost : String) (usPort : UInt16)
    (host : Option UInt32) : (m.connect pHost usPort host).Balanced m := by
  unfold connect
  split
  next => exact Balanced.nil rfl
  next => split <;> exact Balanced.call rfl (fun _ => rfl) nofun

theorem bindMcast_balanced (m : UdpManager) (group : UInt32) (usPort : UInt16)
    (ok membership : Bool) : (m.bindMcast group usPort ok membership).Balanced m := by
  unfold bindMcast
  split
  next =>
    apply (m.bind_balanced usPort ok).andThen
    apply Balanced.call rfl fun _ => rfl
    intro fd hfd
    cases hfd
    exact ⟨rfl, fun _ => trivial⟩
  next => exact m.bind_balanced usPort ok

theorem connectMcast_balanced (m : UdpManager) (pMcast : String) (usPort : UInt16) (ok ttl : Bool)
    (host : Option UInt32) : (m.connectMcast pMcast usPort ok ttl host).Balanced m := by
  unfold connectMcast
  split
  next =>
    apply (m.bind_balanced usPort ok).andThen
    apply (setOption_balanced _ _ ttl).andThen
    exact connect_balanced _ pMcast usPort host
  next => exact m.bind_balanced usPort ok

/-- `Close` gives back the descriptor the manager holds. One that fails is the exception: the
manager goes on holding what the system has taken back. -/
theorem close_balanced (m : UdpManager) {ok : Bool}
    (h : ok = true ∨ m.hSocket = INVALID_SOCKET) : (m.close ok).Balanced m := by
  unfold close
  split
  next => exact Balanced.nil rfl
  next hheld =>
    obtain rfl := h.resolve_right hheld
    intro log hlog
    apply hlog.concat
    · intro fd hfd
      cases hfd
      exact Or.inl ⟨rfl, hheld⟩
    · intro fd
      by_cases hfd : m.hSocket = fd
      · simp [Holds, descriptors, SystemCall.opens, hfd, eq_comm]
      · simp [Holds, descriptors, SystemCall.opens, hfd, eq_comm]

/-- `Create` opens one only for a manager that holds none. -/
theorem create_balanced (m : UdpManager) (socket : Int32) (reuse : Bool) :
    (m.create socket reuse).Balanced m := by
  unfold create
  split
  next => exact Balanced.nil rfl
  next hnone =>
    have hm : m.hSocket = INVALID_SOCKET := not_not.mp hnone
    have hopen : LmListener.Balanced m [.setup (.socket socket)] { m with hSocket := socket } := by
      intro log hlog
      apply hlog.concat
      · intro fd hfd
        cases hfd
      · intro fd
        by_cases hfd : socket = fd ∧ fd ≠ INVALID_SOCKET
        · simp [Holds, descriptors, SystemCall.opens, hfd]
        · simp only [Holds, descriptors, SystemCall.opens, hfd, hm, if_false, true_and]
          simp [eq_comm]
    split
    next hs =>
      apply hopen.append
      apply Balanced.call rfl fun _ => rfl
      intro fd hfd
      cases hfd
      exact ⟨rfl, fun hinvalid => absurd hinvalid hs⟩
    next => exact hopen

theorem setupOptions_balanced (dm : DataModel) (m : UdpManager) (settings : UdpSettings)
    (a : SetupAnswers) : (m.setupOptions dm settings a).Balanced m := by
  unfold setupOptions
  apply (m.setOption_balanced _ a.reuse).andThen
  apply (setEnableBroadcast_balanced _ settings.broadcast a.broadcast).andThen
  apply (setNonBlocking_balanced _ (!settings.blocking) a.nonBlocking).andThen
  have hoption : ∀ (m : UdpManager) (size : Int32) (option : SocketOption) (ok : Bool),
      (if size ≠ 0 then m.setOption option ok else ⟨true, m, []⟩ : Called).Balanced m := by
    intro m size option ok
    split
    next => exact m.setOption_balanced option ok
    next => exact Balanced.nil rfl
  apply Called.Balanced.andThen
  · exact (hoption _ settings.receiveBufferSize _ a.receiveBuffer).of_hSocket rfl
  · apply (hoption _ settings.sendBufferSize _ a.sendBuffer).andThen
    exact setOption_balanced _ _ a.ttl

theorem setupPorts_balanced (m : UdpManager) (settings : UdpSettings) (a : SetupAnswers) :
    (m.setupPorts settings a).Balanced m := by
  unfold setupPorts
  split_ifs
  · exact m.bindMcast_balanced _ _ _ _
  · exact m.bind_balanced _ _
  · exact m.connectMcast_balanced _ _ _ _ _
  · exact m.connect_balanced _ _ _
  · exact Balanced.nil rfl

theorem setup_balanced (dm : DataModel) (m : UdpManager) (settings : UdpSettings)
    (a : SetupAnswers) : (m.setup dm settings a).Balanced m := by
  unfold setup
  split
  next => exact Balanced.nil rfl
  next =>
    split
    next =>
      apply (m.create_balanced a.socket a.createReuse).andThen
      apply (setupOptions_balanced dm _ settings a).andThen
      exact setupPorts_balanced _ settings a
    next => exact m.create_balanced a.socket a.createReuse

theorem transferCalls_balanced {m m' : UdpManager} (h : m'.hSocket = m.hSocket) (timeout : Nat)
    (wait : Int32) {transfer : Int32 → SystemCall}
    (hopens : ∀ fd, (transfer m.hSocket).opens fd = none)
    (huses : (transfer m.hSocket).descriptor = some m.hSocket) :
    LmListener.Balanced m (m.transferCalls timeout wait transfer) m' := by
  unfold transferCalls
  split
  next => exact Balanced.nil h
  next hheld =>
    have hselect : LmListener.Balanced m (if timeout ≠ NO_TIMEOUT then [.select m.hSocket] else [])
        m := by
      split
      next =>
        apply Balanced.call rfl fun _ => rfl
        intro fd hfd
        cases hfd
        exact ⟨rfl, fun hinvalid => absurd hinvalid hheld⟩
      next => exact Balanced.nil rfl
    apply hselect.append
    split
    next => exact Balanced.nil h
    next =>
      apply Balanced.call h hopens
      intro fd hfd
      rw [huses] at hfd
      cases hfd
      exact ⟨rfl, fun hinvalid => absurd hinvalid hheld⟩

theorem getOption_balanced (m : UdpManager) (answer : Option Int32) (failed : Int32) :
    LmListener.Balanced m (m.getOption answer failed).2 m := by
  unfold getOption
  split
  next => exact Balanced.nil rfl
  next hheld =>
    apply Balanced.call rfl fun _ => rfl
    intro fd hfd
    cases hfd
    exact ⟨rfl, fun hinvalid => absurd hinvalid hheld⟩

theorem receive_hSocket {dm : DataModel} {m : UdpManager} {n : Nat} {pBuff : Vector UInt8 n}
    {iSize select : Int32} {κ : Type} {recvfrom : Nat → κ → RecvFrom × κ} {kernel : κ}
    {r : Received n κ} (h : m.receive dm recvfrom pBuff iSize select kernel = .ok r) :
    r.manager.hSocket = m.hSocket := by
  unfold receive at h
  simp only at h
  split at h
  next => cases h; rfl
  next =>
    split at h
    next => cases h; rfl
    next =>
      split at h
      next => cases h
      next => split at h <;> (cases h; rfl)

end UdpManager

/-- A `Close` that fails, by a manager that holds a socket. -/
def CloseFails (t : Step UdpManager (ManagerOp × List SystemCall)) : Prop :=
  t.event.1 = .close false ∧ t.before.hSocket ≠ INVALID_SOCKET

/-- Each member function leaves the books in order, but for a `Close` that fails. -/
theorem ManagerStep.balanced {e : ManagerOp × List SystemCall} (h : ManagerStep dm m e m')
    (hclose : ¬CloseFails ⟨m, e, m'⟩) : Balanced m e.2 m' := by
  obtain ⟨op, calls⟩ := e
  cases op with
  | setup settings answers => cases h; exact m.setup_balanced dm settings answers
  | create socket reuse => cases h; exact m.create_balanced socket reuse
  | close ok =>
    cases h
    apply m.close_balanced
    cases ok with
    | true => exact Or.inl rfl
    | false => exact Or.inr (not_not.mp fun hheld => hclose ⟨rfl, hheld⟩)
  | bind usPort ok => cases h; exact m.bind_balanced usPort ok
  | bindMcast group usPort ok membership =>
    cases h
    exact m.bindMcast_balanced group usPort ok membership
  | connect pHost usPort host => cases h; exact m.connect_balanced pHost usPort host
  | connectMcast pMcast usPort ok ttl host =>
    cases h
    exact m.connectMcast_balanced pMcast usPort ok ttl host
  | setEnableBroadcast enableBroadcast ok =>
    cases h
    exact m.setEnableBroadcast_balanced enableBroadcast ok
  | setNonBlocking useNonBlocking ok => cases h; exact m.setNonBlocking_balanced useNonBlocking ok
  | setReuseAddress _ ok | setReceiveBufferSize _ ok | setSendBufferSize _ ok | setTTL _ ok =>
    cases h
    exact m.setOption_balanced _ ok
  | setTimeoutSend | setTimeoutReceive => cases h; exact Balanced.nil rfl
  | send select => cases h; exact UdpManager.transferCalls_balanced rfl _ _ (fun _ => rfl) rfl
  | receive n pBuff iSize select answer =>
    obtain ⟨r, hr, hm⟩ := bind_eq_ok.mp h
    cases hm
    exact UdpManager.transferCalls_balanced (UdpManager.receive_hSocket hr) _ _ (fun _ => rfl) rfl
  | peekReceive select =>
    cases h
    exact UdpManager.transferCalls_balanced rfl _ _ (fun _ => rfl) rfl
  | getMaxMsgSize answer | getReceiveBufferSize answer | getSendBufferSize answer
  | getTTL answer => cases h; exact m.getOption_balanced answer _

theorem callsOf_concat (steps : List (Step UdpManager (ManagerOp × List SystemCall)))
    (t : Step UdpManager (ManagerOp × List SystemCall)) :
    callsOf (steps ++ [t]) = callsOf steps ++ t.event.2 := by
  simp [callsOf]

/-- The run lemma: a manager holds what it has open, as long as no `Close` failed. -/
theorem run_accounts {saServer saClient : SockaddrIn}
    {steps : List (Step UdpManager (ManagerOp × List SystemCall))}
    (h : Run (ManagerStep dm) (UdpManager.new saServer saClient) steps m)
    (hclose : ∀ t ∈ steps, ¬CloseFails t) : descriptors.Accounts (callsOf steps) m.Holds := by
  induction h with
  | nil => exact Ledger.accounts_nil fun fd hfd => hfd.2 hfd.1.symm
  | @snoc steps s s' e before last ih =>
    have hbefore := ih fun t ht => hclose t (List.mem_append_left _ ht)
    rw [callsOf_concat]
    exact last.balanced (hclose _ (by simp)) _ hbefore

/-- After a `Close` that failed the manager holds a descriptor that is not open any more. -/
theorem CloseFails.not_accounts {t : Step UdpManager (ManagerOp × List SystemCall)}
    (hfails : CloseFails t) (h : ManagerStep dm t.before t.event t.after) (log : List SystemCall) :
    ¬descriptors.Accounts (log ++ t.event.2) t.after.Holds := by
  obtain ⟨before, ⟨op, calls⟩, after⟩ := t
  obtain ⟨hop, hheld⟩ := hfails
  cases hop
  have hclosed : before.close false = ⟨false, before, [.close before.hSocket false]⟩ := by
    unfold UdpManager.close
    rw [if_neg hheld, if_neg Bool.false_ne_true]
  have hstep : (before.close false).logged = (after, calls) := Except.ok.inj h
  rw [hclosed] at hstep
  cases hstep
  intro haccounts
  have hopen := (haccounts.isOpen before.hSocket).mpr ⟨rfl, hheld⟩
  rcases Ledger.isOpen_concat.mp hopen with hopens | ⟨hkept, _⟩
  · simp [descriptors, SystemCall.opens] at hopens
  · simp [descriptors, SystemCall.opens] at hkept

theorem UdpManager.destroy_closes {log : List SystemCall}
    (h : descriptors.Accounts log m.Holds) (ok : Bool) :
    (∀ fd, ¬descriptors.IsOpen (log ++ (m.destroy ok).calls.map .setup) fd) ↔
      m.hSocket = INVALID_SOCKET ∨ m.hSocket ≠ 0 := by
  by_cases hsocket : m.hasSocket
  · have hvalid : m.hSocket ≠ 0 ∧ m.hSocket ≠ INVALID_SOCKET := of_decide_eq_true hsocket
    have hcalls : (m.destroy ok).calls.map SystemCall.setup = [.setup (.close m.hSocket ok)] := by
      unfold destroy close
      rw [if_pos hsocket, if_neg hvalid.2]
      cases ok <;> rfl
    refine ⟨fun _ => Or.inr hvalid.1, fun _ fd hopen => ?_⟩
    rw [hcalls, Ledger.isOpen_concat, h.isOpen] at hopen
    rcases hopen with hopens | ⟨hkept, hfd, _⟩
    · by_cases hfd : m.hSocket = fd <;> simp [descriptors, SystemCall.opens, hfd] at hopens
    · simp [descriptors, SystemCall.opens, hfd] at hkept
  · have hcalls : (m.destroy ok).calls = [] := by
      unfold destroy
      rw [if_neg hsocket]
    rw [hcalls, List.map_nil, List.append_nil]
    simp only [h.isOpen, UdpManager.Holds]
    unfold hasSocket at hsocket
    simp only [decide_eq_true_eq, not_and_or, not_not] at hsocket
    constructor
    · intro hnone
      by_contra hne
      exact hnone m.hSocket ⟨rfl, fun hinvalid => hne (Or.inl hinvalid)⟩
    · intro hor fd hfd
      obtain ⟨rfl, hvalid⟩ := hfd
      exact hvalid (hor.resolve_right (not_not.mpr (hsocket.resolve_right hvalid)))

/-- A manager in any use of it: in every state of it the manager holds the one descriptor it has
opened and not given back, and has called the system with open descriptors only, but for the calls
it makes without a look at its socket and which then go to -1, exactly when none of its calls of
`Close` failed. Then its destructor leaves nothing open but descriptor 0. -/
theorem descriptors_accounted {saServer saClient : SockaddrIn}
    {steps : List (Step UdpManager (ManagerOp × List SystemCall))}
    (h : Run (ManagerStep dm) (UdpManager.new saServer saClient) steps m) :
    ((∀ earlier later s, steps = earlier ++ later →
        Run (ManagerStep dm) (UdpManager.new saServer saClient) earlier s →
          descriptors.Accounts (callsOf earlier) s.Holds) ↔ ∀ t ∈ steps, ¬CloseFails t) ∧
    ((∀ t ∈ steps, ¬CloseFails t) → ∀ ok,
      ((∀ fd, ¬descriptors.IsOpen (callsOf steps ++ (m.destroy ok).calls.map .setup) fd) ↔
        m.hSocket = INVALID_SOCKET ∨ m.hSocket ≠ 0)) := by
  refine ⟨⟨fun haccounts t ht hfails => ?_, fun hclose earlier later s he hrun => ?_⟩,
    fun hclose ok => UdpManager.destroy_closes (run_accounts h hclose) ok⟩
  · obtain ⟨earlier, later, rfl⟩ := List.append_of_mem ht
    obtain ⟨hrun, hstep⟩ := h.split earlier t later rfl
    have hafter := haccounts (earlier ++ [t]) later t.after (List.append_cons _ _ _)
      (hrun.snoc hstep)
    rw [callsOf_concat] at hafter
    exact hfails.not_accounts hstep _ hafter
  · exact run_accounts hrun fun t ht => hclose t (he ▸ List.mem_append_left _ ht)

/-- A program that runs with its standard input closed gets descriptor 0 for its socket. -/
theorem descriptor_zero_leaks : ∃ steps m,
    Run (ManagerStep lp64) noSocket steps m ∧
      descriptors.IsOpen (callsOf steps ++ (m.destroy true).calls.map .setup) 0 := by
  have hstep : ManagerStep lp64 noSocket (.create 0 true, (noSocket.create 0 true).logged.2)
      (noSocket.create 0 true).manager := rfl
  have hrun : Run (ManagerStep lp64) noSocket ([] ++ [⟨_, _, _⟩]) _ := Run.nil.snoc hstep
  obtain ⟨haccounted, _⟩ := descriptors_accounted hrun
  have hclose : ∀ t ∈ [] ++ [(⟨noSocket, (.create 0 true, (noSocket.create 0 true).logged.2),
      (noSocket.create 0 true).manager⟩ : Step UdpManager (ManagerOp × List SystemCall))],
      ¬CloseFails t := List.forall_mem_singleton.mpr fun hfails => nomatch hfails.1
  have haccounts := haccounted.mpr hclose _ [] _ (List.append_nil _).symm hrun
  refine ⟨_, _, hrun, ?_⟩
  have hkept : ((noSocket.create 0 true).manager.destroy true).calls = [] := by decide
  rw [hkept, List.map_nil, List.append_nil]
  exact (haccounts.isOpen 0).mpr ⟨rfl, by decide⟩

end

end LmListener
