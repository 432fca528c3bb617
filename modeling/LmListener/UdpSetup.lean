import LmListener.UdpManager

namespace LmListener

open CTypes

def INADDR_ANY : UInt32 := 0

inductive SocketOption
  | reuseAddr (on : Bool)
  | broadcast (on : Bool)
  | receiveBuffer (size : Int32)
  | sendBuffer (size : Int32)
  | multicastTtl (ttl : Int32)
  | addMembership (group : UInt32)
deriving DecidableEq, Repr

/-- A call of the system, with its answer. -/
inductive SocketCall
  | socket (fd : Int32)
  | setsockopt (fd : Int32) (option : SocketOption) (ok : Bool)
  | fionbio (fd : Int32) (nonBlocking ok : Bool)
  | bind (fd : Int32) (address : SockaddrIn) (ok : Bool)
  | gethostbyname (host : String) (found : Option UInt32)
  | close (fd : Int32) (ok : Bool)
deriving DecidableEq, Repr

/-- What a function of the manager returns and leaves, and the calls it made. -/
structure Called where
  ret : Bool
  manager : UdpManager
  calls : List SocketCall

/-- The result of the first is dropped. -/
def Called.andThen (r : Called) (next : UdpManager → Called) : Called :=
  ⟨(next r.manager).ret, (next r.manager).manager, r.calls ++ (next r.manager).calls⟩

namespace UdpManager

def close (m : UdpManager) (ok : Bool) : Called :=
  if m.hSocket = INVALID_SOCKET then ⟨false, m, []⟩
  else if ok then ⟨true, { m with hSocket := INVALID_SOCKET }, [.close m.hSocket true]⟩
  else ⟨false, m, [.close m.hSocket false]⟩

/-- `socket` is the descriptor the call of that name returns, `reuse` the answer to `setsockopt`. -/
def create (m : UdpManager) (socket : Int32) (reuse : Bool) : Called :=
  if m.hSocket ≠ INVALID_SOCKET then ⟨false, m, []⟩
  else if socket ≠ INVALID_SOCKET then
    ⟨true, { m with hSocket := socket },
      [.socket socket, .setsockopt socket (.reuseAddr true) reuse]⟩
  else ⟨false, { m with hSocket := socket }, [.socket socket]⟩

def setOption (m : UdpManager) (option : SocketOption) (ok : Bool) : Called :=
  if m.hSocket = INVALID_SOCKET then ⟨false, m, []⟩
  else ⟨ok, m, [.setsockopt m.hSocket option ok]⟩

def setReuseAddress (m : UdpManager) (allowReuse ok : Bool) : Called :=
  m.setOption (.reuseAddr allowReuse) ok

def setReceiveBufferSize (m : UdpManager) (sizeInByte : Int32) (ok : Bool) : Called :=
  m.setOption (.receiveBuffer sizeInByte) ok

def setSendBufferSize (m : UdpManager) (sizeInByte : Int32) (ok : Bool) : Called :=
  m.setOption (.sendBuffer sizeInByte) ok

def setTTL (m : UdpManager) (nTTL : Int32) (ok : Bool) : Called :=
  m.setOption (.multicastTtl nTTL) ok

/-- This option is set without a look at the socket. -/
def setEnableBroadcast (m : UdpManager) (enableBroadcast ok : Bool) : Called :=
  ⟨ok, m, [.setsockopt m.hSocket (.broadcast enableBroadcast) ok]⟩

def setNonBlocking (m : UdpManager) (useNonBlocking ok : Bool) : Called :=
  ⟨ok, { m with nonBlocking := useNonBlocking }, [.fionbio m.hSocket useNonBlocking ok]⟩

/-- The seconds are converted to `unsigned long`. -/
def setTimeoutSend (dm : DataModel) (m : UdpManager) (timeoutInSeconds : Int32) : UdpManager :=
  { m with dwTimeoutSend := dm.toSize timeoutInSeconds.toInt }

def setTimeoutReceive (dm : DataModel) (m : UdpManager) (timeoutInSeconds : Int32) : UdpManager :=
  { m with dwTimeoutReceive := dm.toSize timeoutInSeconds.toInt }

def bind (m : UdpManager) (usPort : UInt16) (ok : Bool) : Called :=
  ⟨ok, { m with saServer := ⟨INADDR_ANY, usPort⟩ }, [.bind m.hSocket ⟨INADDR_ANY, usPort⟩ ok]⟩

/-- `group` is `inet_addr` of the group's name. -/
def bindMcast (m : UdpManager) (group : UInt32) (usPort : UInt16) (ok membership : Bool) : Called :=
  if (m.bind usPort ok).ret then
    (m.bind usPort ok).andThen fun m =>
      ⟨membership, m, [.setsockopt m.hSocket (.addMembership group) membership]⟩
  else m.bind usPort ok

/-- The address is cleared before the socket and the host are looked at. -/
def connect (m : UdpManager) (pHost : String) (usPort : UInt16) (host : Option UInt32) : Called :=
  if m.hSocket = INVALID_SOCKET then ⟨false, { m with saClient := ⟨0, 0⟩ }, []⟩
  else
    match host with
    | none => ⟨false, { m with saClient := ⟨0, 0⟩ }, [.gethostbyname pHost none]⟩
    | some addr => ⟨true, { m with saClient := ⟨addr, usPort⟩ }, [.gethostbyname pHost (some addr)]⟩

def connectMcast (m : UdpManager) (pMcast : String) (usPort : UInt16) (ok ttl : Bool)
    (host : Option UInt32) : Called :=
  if (m.bind usPort ok).ret then
    (m.bind usPort ok).andThen fun m =>
      (m.setTTL 1 ttl).andThen fun m => m.connect pMcast usPort host
  else m.bind usPort ok

end UdpManager

structure UdpSettings where
  sendAddress : String := ""
  sendPort : UInt16 := 0
  bindAddress : String := "127.0.0.1"
  bindPort : UInt16 := 0
  blocking : Bool := false
  reuse : Bool := false
  sendTimeout : Int32 := 0xFFFF
  sendBufferSize : Int32 := 0
  receiveTimeout : Int32 := 0xFFFF
  receiveBufferSize : Int32 := 0
  ttl : Int32 := 1
  broadcast : Bool := false
  multicast : Bool := false
deriving DecidableEq, Repr

def UdpSettings.sendTo (settings : UdpSettings) (address : String) (port : UInt16) : UdpSettings :=
  { settings with sendAddress := address, sendPort := port }

def UdpSettings.receiveOn (settings : UdpSettings) (port : UInt16) : UdpSettings :=
  { settings with bindPort := port }

def UdpSettings.receiveOnAddress (settings : UdpSettings) (address : String) (port : UInt16) :
    UdpSettings :=
  { settings with bindAddress := address, bindPort := port }

/-- The answers of the system to the calls that `Setup` may make. -/
structure SetupAnswers where
  socket : Int32
  createReuse : Bool
  reuse : Bool
  broadcast : Bool
  nonBlocking : Bool
  receiveBuffer : Bool
  sendBuffer : Bool
  ttl : Bool
  bind : Bool
  membership : Bool
  defaultTtl : Bool
  host : Option UInt32
  inet_addr : String → UInt32

namespace UdpManager

/-- The part of `Setup` that sets the options, and drops each result. -/
def setupOptions (dm : DataModel) (m : UdpManager) (settings : UdpSettings) (a : SetupAnswers) :
    Called :=
  (m.setReuseAddress settings.reuse a.reuse).andThen fun m =>
  (m.setEnableBroadcast settings.broadcast a.broadcast).andThen fun m =>
  (m.setNonBlocking (!settings.blocking) a.nonBlocking).andThen fun m =>
  let m := m.setTimeoutSend dm settings.sendTimeout
  let m := m.setTimeoutReceive dm settings.receiveTimeout
  (if settings.receiveBufferSize ≠ 0
    then m.setReceiveBufferSize settings.receiveBufferSize a.receiveBuffer
    else ⟨true, m, []⟩).andThen fun m =>
  (if settings.sendBufferSize ≠ 0
    then m.setSendBufferSize settings.sendBufferSize a.sendBuffer
    else ⟨true, m, []⟩).andThen fun m =>
  m.setTTL settings.ttl a.ttl

/-- The rest of `Setup`: a port to bind comes first, and then the port to send to is not looked
at. -/
def setupPorts (m : UdpManager) (settings : UdpSettings) (a : SetupAnswers) : Called :=
  if settings.bindPort ≠ 0 then
    if settings.multicast then
      m.bindMcast (a.inet_addr settings.bindAddress) settings.bindPort a.bind a.membership
    else m.bind settings.bindPort a.bind
  else if settings.sendPort ≠ 0 then
    if settings.multicast then
      m.connectMcast settings.sendAddress settings.sendPort a.bind a.defaultTtl a.host
    else m.connect settings.sendAddress settings.sendPort a.host
  else ⟨true, m, []⟩

def setup (dm : DataModel) (m : UdpManager) (settings : UdpSettings) (a : SetupAnswers) : Called :=
  if settings.bindPort = 0 ∧ settings.sendPort = 0 then ⟨false, m, []⟩
  else if (m.create a.socket a.createReuse).ret then
    (m.create a.socket a.createReuse).andThen fun m =>
      (m.setupOptions dm settings a).andThen fun m => m.setupPorts settings a
  else m.create a.socket a.createReuse

/-- The manager after `Setup` set the options of its socket. -/
def configured (dm : DataModel) (m : UdpManager) (settings : UdpSettings) : UdpManager :=
  { m with
    nonBlocking := !settings.blocking
    dwTimeoutSend := dm.toSize settings.sendTimeout.toInt
    dwTimeoutReceive := dm.toSize settings.receiveTimeout.toInt }

end UdpManager

def optionCalls (fd : Int32) (settings : UdpSettings) (a : SetupAnswers) : List SocketCall :=
  [.setsockopt fd (.reuseAddr settings.reuse) a.reuse,
    .setsockopt fd (.broadcast settings.broadcast) a.broadcast,
    .fionbio fd (!settings.blocking) a.nonBlocking] ++
  (if settings.receiveBufferSize ≠ 0
    then [.setsockopt fd (.receiveBuffer settings.receiveBufferSize) a.receiveBuffer] else []) ++
  (if settings.sendBufferSize ≠ 0
    then [.setsockopt fd (.sendBuffer settings.sendBufferSize) a.sendBuffer] else []) ++
  [.setsockopt fd (.multicastTtl settings.ttl) a.ttl]

/-- The calls for the ports when those that `Setup` depends on succeed. -/
def portCalls (fd : Int32) (settings : UdpSettings) (a : SetupAnswers) : List SocketCall :=
  if settings.bindPort ≠ 0 then
    .bind fd ⟨INADDR_ANY, settings.bindPort⟩ true ::
      if settings.multicast then
        [.setsockopt fd (.addMembership (a.inet_addr settings.bindAddress)) true]
      else []
  else
    (if settings.multicast then
      [.bind fd ⟨INADDR_ANY, settings.sendPort⟩ true,
        .setsockopt fd (.multicastTtl 1) a.defaultTtl]
    else []) ++ [.gethostbyname settings.sendAddress a.host]

def UdpSettings.HasPort (settings : UdpSettings) : Prop :=
  ¬(settings.bindPort = 0 ∧ settings.sendPort = 0)

/-- The calls whose results `Setup` returns: for the port to bind, or else the port to send to. -/
def UdpSettings.PortSucceeds (settings : UdpSettings) (a : SetupAnswers) : Prop :=
  if settings.bindPort ≠ 0 then a.bind = true ∧ (settings.multicast = true → a.membership = true)
  else a.host.isSome = true ∧ (settings.multicast = true → a.bind = true)

section

variable {dm : DataModel} {m : UdpManager} {settings : UdpSettings} {a : SetupAnswers}

theorem UdpManager.setOption_held (h : m.hSocket ≠ INVALID_SOCKET) (option : SocketOption)
    (ok : Bool) : m.setOption option ok = ⟨ok, m, [.setsockopt m.hSocket option ok]⟩ := if_neg h

theorem UdpManager.setupOptions_held (dm : DataModel) (settings : UdpSettings) (a : SetupAnswers)
    (h : m.hSocket ≠ INVALID_SOCKET) :
    (m.setupOptions dm settings a).manager = m.configured dm settings ∧
      (m.setupOptions dm settings a).calls = optionCalls m.hSocket settings a := by
  unfold setupOptions optionCalls configured setReuseAddress setReceiveBufferSize
    setSendBufferSize setTTL setEnableBroadcast setNonBlocking setTimeoutSend setTimeoutReceive
  rw [setOption_held h]
  by_cases hr : settings.receiveBufferSize = 0 <;> by_cases hs : settings.sendBufferSize = 0 <;>
    simp [Called.andThen, setOption, h, hr, hs]

/-- A call that leaves the socket and the time to wait for a packet alone. -/
structure Called.Keeps (m : UdpManager) (r : Called) : Prop where
  hSocket : r.manager.hSocket = m.hSocket
  dwTimeoutReceive : r.manager.dwTimeoutReceive = m.dwTimeoutReceive

theorem Called.Keeps.andThen {r : Called} {next : UdpManager → Called} (hr : r.Keeps m)
    (hnext : (next r.manager).Keeps r.manager) : (r.andThen next).Keeps m :=
  ⟨hnext.hSocket.trans hr.hSocket, hnext.dwTimeoutReceive.trans hr.dwTimeoutReceive⟩

theorem UdpManager.setOption_keeps (option : SocketOption) (ok : Bool) :
    (m.setOption option ok).Keeps m := by
  unfold setOption
  split <;> exact ⟨rfl, rfl⟩

theorem UdpManager.bind_keeps (usPort : UInt16) (ok : Bool) : (m.bind usPort ok).Keeps m :=
  ⟨rfl, rfl⟩

theorem UdpManager.connect_keeps (pHost : String) (usPort : UInt16) (host : Option UInt32) :
    (m.connect pHost usPort host).Keeps m := by
  unfold connect
  split
  next => exact ⟨rfl, rfl⟩
  next => split <;> exact ⟨rfl, rfl⟩

theorem UdpManager.setupPorts_keeps (m : UdpManager) (settings : UdpSettings) (a : SetupAnswers) :
    (m.setupPorts settings a).Keeps m := by
  unfold setupPorts bindMcast connectMcast
  split_ifs
  · exact (bind_keeps _ _).andThen ⟨rfl, rfl⟩
  · exact bind_keeps _ _
  · exact bind_keeps _ _
  · exact (bind_keeps _ _).andThen ((setOption_keeps _ _).andThen (connect_keeps _ _ _))
  · exact bind_keeps _ _
  · exact connect_keeps _ _ _
  · exact ⟨rfl, rfl⟩

theorem UdpManager.connect_held (h : m.hSocket ≠ INVALID_SOCKET) (pHost : String)
    (usPort : UInt16) (host : Option UInt32) :
    (m.connect pHost usPort host).ret = host.isSome ∧
      (m.connect pHost usPort host).calls = [.gethostbyname pHost host] ∧
      ∀ addr, host = some addr →
        (m.connect pHost usPort host).manager.saClient = ⟨addr, usPort⟩ := by
  unfold connect
  rw [if_neg h]
  cases host with
  | none => exact ⟨rfl, rfl, fun addr he => by cases he⟩
  | some found =>
    refine ⟨rfl, rfl, fun addr he => ?_⟩
    cases he
    rfl

theorem UdpManager.bindMcast_ret (group : UInt32) (usPort : UInt16) (ok membership : Bool) :
    (m.bindMcast group usPort ok membership).ret = (ok && membership) := by
  cases ok <;> rfl

theorem UdpManager.connectMcast_held (h : m.hSocket ≠ INVALID_SOCKET) (pMcast : String)
    (usPort : UInt16) (ok ttl : Bool) (host : Option UInt32) :
    (m.connectMcast pMcast usPort ok ttl host).ret = (ok && host.isSome) ∧
      (ok = true → (m.connectMcast pMcast usPort ok ttl host).calls =
          [.bind m.hSocket ⟨INADDR_ANY, usPort⟩ true, .setsockopt m.hSocket (.multicastTtl 1) ttl,
            .gethostbyname pMcast host] ∧
        ∀ addr, host = some addr →
          (m.connectMcast pMcast usPort ok ttl host).manager.saClient = ⟨addr, usPort⟩) := by
  cases ok with
  | false => exact ⟨rfl, fun he => by cases he⟩
  | true =>
    have hbound : (m.bind usPort true).manager.hSocket ≠ INVALID_SOCKET := h
    obtain ⟨hret, hcalls, hclient⟩ := connect_held hbound pMcast usPort host
    have hconnect : m.connectMcast pMcast usPort true ttl host =
        ⟨((m.bind usPort true).manager.connect pMcast usPort host).ret,
          ((m.bind usPort true).manager.connect pMcast usPort host).manager,
          [.bind m.hSocket ⟨INADDR_ANY, usPort⟩ true,
            .setsockopt m.hSocket (.multicastTtl 1) ttl] ++
          ((m.bind usPort true).manager.connect pMcast usPort host).calls⟩ := by
      have httl := setOption_held hbound (.multicastTtl 1) ttl
      simp only [connectMcast, Called.andThen, setTTL, httl]
      rfl
    rw [hconnect, hcalls]
    exact ⟨hret, fun _ => ⟨rfl, hclient⟩⟩

theorem UdpManager.setupPorts_ret (h : m.hSocket ≠ INVALID_SOCKET) (hport : settings.HasPort) :
    (m.setupPorts settings a).ret = true ↔ settings.PortSucceeds a := by
  unfold setupPorts UdpSettings.PortSucceeds
  by_cases hbind : settings.bindPort = 0
  · have hsend : settings.sendPort ≠ 0 := fun hsend => hport ⟨hbind, hsend⟩
    simp only [hbind, hsend, ne_eq, not_true_eq_false, not_false_eq_true, if_true, if_false]
    cases hmulti : settings.multicast
    · simp [(connect_held h _ _ _).1]
    · simp [(connectMcast_held h _ _ _ _ _).1, and_comm]
  · simp only [hbind, ne_eq, not_false_eq_true, if_true]
    cases hmulti : settings.multicast
    · simp [bind]
    · simp [bindMcast_ret]

theorem UdpManager.setupPorts_succeeds (h : m.hSocket ≠ INVALID_SOCKET) (hport : settings.HasPort)
    (hok : settings.PortSucceeds a) :
    (m.setupPorts settings a).calls = portCalls m.hSocket settings a ∧
      (settings.bindPort = 0 → ∃ addr, a.host = some addr ∧
        (m.setupPorts settings a).manager.saClient = ⟨addr, settings.sendPort⟩) := by
  unfold setupPorts portCalls
  unfold UdpSettings.PortSucceeds at hok
  by_cases hbind : settings.bindPort = 0
  · have hsend : settings.sendPort ≠ 0 := fun hsend => hport ⟨hbind, hsend⟩
    simp only [hbind, hsend, ne_eq, not_true_eq_false, not_false_eq_true, if_true, if_false]
      at hok ⊢
    obtain ⟨hhost, hjoined⟩ := hok
    obtain ⟨addr, haddr⟩ := Option.isSome_iff_exists.mp hhost
    cases hmulti : settings.multicast
    · obtain ⟨_, hcalls, hclient⟩ := connect_held h settings.sendAddress settings.sendPort a.host
      exact ⟨hcalls, fun _ => ⟨addr, haddr, hclient addr haddr⟩⟩
    · obtain ⟨_, hrest⟩ := connectMcast_held h settings.sendAddress settings.sendPort a.bind
        a.defaultTtl a.host
      obtain ⟨hcalls, hclient⟩ := hrest (hjoined hmulti)
      exact ⟨hcalls, fun _ => ⟨addr, haddr, hclient addr haddr⟩⟩
  · simp only [hbind, ne_eq, not_false_eq_true, if_true] at hok ⊢
    obtain ⟨hbound, hjoined⟩ := hok
    refine ⟨?_, fun h0 => absurd h0 id⟩
    cases hmulti : settings.multicast
    · rw [hbound]
      rfl
    · rw [hbound, hjoined hmulti]
      rfl

/-- `Create` refuses a manager that holds a socket, and fails when the system gives it none. -/
theorem UdpManager.create_refused {socket : Int32} (reuse : Bool)
    (h : ¬(m.hSocket = INVALID_SOCKET ∧ socket ≠ INVALID_SOCKET)) :
    (m.create socket reuse).ret = false ∧ (m.create socket reuse).manager = m ∧
      ∀ fd, SocketCall.socket fd ∈ (m.create socket reuse).calls → fd = INVALID_SOCKET := by
  unfold create
  by_cases hm : m.hSocket = INVALID_SOCKET
  · have hs : socket = INVALID_SOCKET := by
      by_contra hs
      exact h ⟨hm, hs⟩
    rw [if_neg (not_not.mpr hm), if_neg (not_not.mpr hs), hs, ← hm]
    exact ⟨rfl, rfl, fun fd hfd => by simpa using hfd⟩
  · rw [if_pos hm]
    exact ⟨rfl, rfl, fun fd hfd => by cases hfd⟩

theorem UdpManager.create_opens {socket : Int32} (reuse : Bool) (hm : m.hSocket = INVALID_SOCKET)
    (hs : socket ≠ INVALID_SOCKET) :
    m.create socket reuse = ⟨true, { m with hSocket := socket },
      [.socket socket, .setsockopt socket (.reuseAddr true) reuse]⟩ := by
  unfold create
  rw [if_neg (not_not.mpr hm), if_pos hs]

theorem UdpManager.close_manager (ok : Bool) :
    (m.close ok).manager = m ∨ (m.close ok).manager = { m with hSocket := INVALID_SOCKET } := by
  unfold close
  split_ifs
  · exact Or.inl rfl
  · exact Or.inr rfl
  · exact Or.inl rfl

/-- A `Setup` that ends before it has a socket. -/
theorem UdpManager.setup_refused (dm : DataModel) (h : ¬settings.HasPort ∨
    ¬(m.hSocket = INVALID_SOCKET ∧ a.socket ≠ INVALID_SOCKET)) :
    (m.setup dm settings a).ret = false ∧ (m.setup dm settings a).manager = m ∧
      ∀ fd, SocketCall.socket fd ∈ (m.setup dm settings a).calls → fd = INVALID_SOCKET := by
  unfold setup
  by_cases hport : settings.HasPort
  · have hcreate := create_refused a.createReuse (h.resolve_left fun hn => hn hport)
    rw [if_neg hport, hcreate.1]
    exact ⟨hcreate.1, hcreate.2⟩
  · rw [if_pos (not_not.mp hport)]
    exact ⟨rfl, rfl, fun fd hfd => by cases hfd⟩

/-- The manager with which `Setup` comes to the ports. -/
def UdpManager.opened (dm : DataModel) (m : UdpManager) (settings : UdpSettings)
    (a : SetupAnswers) : UdpManager :=
  ({ m with hSocket := a.socket } : UdpManager).configured dm settings

theorem UdpManager.setup_opened (dm : DataModel) (hport : settings.HasPort)
    (hm : m.hSocket = INVALID_SOCKET) (hs : a.socket ≠ INVALID_SOCKET) :
    (m.setup dm settings a).ret = ((m.opened dm settings a).setupPorts settings a).ret ∧
      (m.setup dm settings a).manager = ((m.opened dm settings a).setupPorts settings a).manager ∧
      (m.setup dm settings a).calls =
        [.socket a.socket, .setsockopt a.socket (.reuseAddr true) a.createReuse] ++
          optionCalls a.socket settings a ++
          ((m.opened dm settings a).setupPorts settings a).calls := by
  obtain ⟨hmanager, hcalls⟩ :=
    setupOptions_held (m := { m with hSocket := a.socket }) dm settings a hs
  unfold setup
  rw [if_neg hport, create_opens a.createReuse hm hs]
  simp only [if_true, Called.andThen, hmanager, hcalls, List.append_assoc]
  exact ⟨rfl, rfl, rfl⟩

/-- `Setup` returns what the calls for the ports return. -/
theorem UdpManager.setup_ret_iff (dm : DataModel) :
    (m.setup dm settings a).ret = true ↔ settings.HasPort ∧ m.hSocket = INVALID_SOCKET ∧
      a.socket ≠ INVALID_SOCKET ∧ settings.PortSucceeds a := by
  by_cases hopen : settings.HasPort ∧ (m.hSocket = INVALID_SOCKET ∧ a.socket ≠ INVALID_SOCKET)
  · obtain ⟨hport, hm, hs⟩ := hopen
    have hopened : (m.opened dm settings a).hSocket ≠ INVALID_SOCKET := hs
    rw [(setup_opened dm hport hm hs).1, setupPorts_ret hopened hport]
    simp [hport, hm, hs]
  · rw [(setup_refused dm (not_and_or.mp hopen)).1]
    constructor
    · intro h
      cases h
    · intro h
      exact absurd ⟨h.1, h.2.1, h.2.2.1⟩ hopen

/-- After a `Setup` without a timeout the manager can receive. -/
theorem UdpManager.setup_ready (htimeout : settings.receiveTimeout = 0xFFFF)
    (h : (m.setup dm settings a).ret = true) : (m.setup dm settings a).manager.Ready := by
  obtain ⟨hport, hm, hs, _⟩ := (setup_ret_iff dm).mp h
  rw [(setup_opened dm hport hm hs).2.1]
  have hkeeps := setupPorts_keeps (m.opened dm settings a) settings a
  refine ⟨hkeeps.hSocket ▸ hs, hkeeps.dwTimeoutReceive.trans ?_⟩
  have hlt := dm.two_pow_le
  change dm.toSize settings.receiveTimeout.toInt = NO_TIMEOUT
  rw [htimeout]
  exact dm.toSize_natCast (show 0xFFFF < 2 ^ dm.sizeBits by omega)

structure SetupAnswers.AllSucceed (a : SetupAnswers) : Prop where
  socket : a.socket ≠ INVALID_SOCKET
  options : a.createReuse = true ∧ a.reuse = true ∧ a.broadcast = true ∧ a.nonBlocking = true ∧
    a.receiveBuffer = true ∧ a.sendBuffer = true ∧ a.ttl = true
  bind : a.bind = true
  membership : a.membership = true
  defaultTtl : a.defaultTtl = true
  host : a.host.isSome = true

theorem SetupAnswers.AllSucceed.portSucceeds (h : a.AllSucceed) : settings.PortSucceeds a := by
  unfold UdpSettings.PortSucceeds
  split
  next => exact ⟨h.bind, fun _ => h.membership⟩
  next => exact ⟨h.host, fun _ => h.bind⟩

/-- A `Setup` that fails gives its socket back: the manager has none, each descriptor it opened is
closed, and a later `Setup` whose calls all succeed returns true. -/
def UdpManager.LeavesReusable (dm : DataModel) (m : UdpManager) (settings : UdpSettings)
    (a : SetupAnswers) : Prop :=
  (m.setup dm settings a).ret = false →
    (m.setup dm settings a).manager.hSocket = INVALID_SOCKET ∧
    (∀ fd, SocketCall.socket fd ∈ (m.setup dm settings a).calls → fd = INVALID_SOCKET ∨
      SocketCall.close fd true ∈ (m.setup dm settings a).calls) ∧
    ∀ settings' a', settings'.HasPort → a'.AllSucceed →
      ((m.setup dm settings a).manager.setup dm settings' a').ret = true

/-- No `Setup` that fails with a socket in hand gives it back. -/
theorem setup_reusable_iff (hm : m.hSocket = INVALID_SOCKET) :
    m.LeavesReusable dm settings a ↔
      ¬settings.HasPort ∨ a.socket = INVALID_SOCKET ∨ settings.PortSucceeds a := by
  constructor
  · intro h
    by_contra hne
    simp only [not_or, not_not] at hne
    obtain ⟨hport, hs, hfails⟩ := hne
    have hret : (m.setup dm settings a).ret = false := by
      rw [← Bool.not_eq_true, UdpManager.setup_ret_iff dm]
      exact fun hok => hfails hok.2.2.2
    have hheld : (m.setup dm settings a).manager.hSocket = a.socket := by
      rw [(UdpManager.setup_opened dm hport hm hs).2.1]
      exact (UdpManager.setupPorts_keeps _ _ _).hSocket
    exact hs (hheld.symm.trans (h hret).1)
  · intro h hret
    have hrefused : ¬settings.HasPort ∨
        ¬(m.hSocket = INVALID_SOCKET ∧ a.socket ≠ INVALID_SOCKET) := by
      by_contra hne
      simp only [not_or, not_not] at hne
      obtain ⟨hport, _, hs⟩ := hne
      have hok := (h.resolve_left fun hn => hn hport).resolve_left hs
      rw [(UdpManager.setup_ret_iff dm).mpr ⟨hport, hm, hs, hok⟩] at hret
      cases hret
    obtain ⟨_, hmanager, hcalls⟩ := UdpManager.setup_refused dm hrefused
    rw [hmanager]
    refine ⟨hm, fun fd hfd => Or.inl (hcalls fd hfd), fun settings' a' hport hall => ?_⟩
    exact (UdpManager.setup_ret_iff dm).mpr ⟨hport, hm, hall.socket, hall.portSucceeds⟩

end

/-- Every call succeeds, and `socket` returns descriptor 5. -/
def allAnswers : SetupAnswers where
  socket := 5
  createReuse := true
  reuse := true
  broadcast := true
  nonBlocking := true
  receiveBuffer := true
  sendBuffer := true
  ttl := true
  bind := true
  membership := true
  defaultTtl := true
  host := some 0x7f000001
  inet_addr _ := 0

theorem allAnswers_allSucceed : allAnswers.AllSucceed :=
  ⟨by decide, ⟨rfl, rfl, rfl, rfl, rfl, rfl, rfl⟩, rfl, rfl, rfl, rfl⟩

def noSocket : UdpManager := UdpManager.new default default

theorem setup_reusable_bound :
    noSocket.LeavesReusable lp64 (({} : UdpSettings).receiveOn 3001) allAnswers :=
  (setup_reusable_iff rfl).mpr (Or.inr (Or.inr allAnswers_allSucceed.portSucceeds))

/-- The port is taken: the manager keeps the socket, and no later `Setup` succeeds. -/
theorem setup_keeps_socket :
    ¬noSocket.LeavesReusable lp64 (({} : UdpSettings).receiveOn 3001)
      { allAnswers with bind := false } ∧
    (noSocket.setup lp64 (({} : UdpSettings).receiveOn 3001)
      { allAnswers with bind := false }).manager.hSocket = 5 ∧
    ((noSocket.setup lp64 (({} : UdpSettings).receiveOn 3001)
      { allAnswers with bind := false }).manager.setup lp64
        (({} : UdpSettings).receiveOn 3002) allAnswers).ret = false := by
  refine ⟨fun h => ?_, by decide, by decide⟩
  obtain ⟨hclosed, _⟩ := h (by decide)
  exact absurd hclosed (by decide)

end LmListener
