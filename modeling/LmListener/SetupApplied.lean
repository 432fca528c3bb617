import LmListener.Latest
import LmListener.UdpSetup

namespace LmListener

open CTypes Latest

inductive OptionKind
  | reuseAddr
  | broadcast
  | receiveBuffer
  | sendBuffer
  | multicastTtl
  | addMembership
deriving DecidableEq, Repr

def SocketOption.kind : SocketOption → OptionKind
  | .reuseAddr _ => .reuseAddr
  | .broadcast _ => .broadcast
  | .receiveBuffer _ => .receiveBuffer
  | .sendBuffer _ => .sendBuffer
  | .multicastTtl _ => .multicastTtl
  | .addMembership _ => .addMembership

/-- What a call that succeeds sets an option of this kind of the socket to. -/
def SocketCall.sets (fd : Int32) (kind : OptionKind) : SocketCall → Option SocketOption
  | .setsockopt called option ok =>
    if called = fd ∧ option.kind = kind ∧ ok = true then some option else none
  | _ => none

def SocketCall.setsNonBlocking (fd : Int32) : SocketCall → Option Bool
  | .fionbio called nonBlocking ok =>
    if called = fd ∧ ok = true then some nonBlocking else none
  | _ => none

/-- After the calls the socket has this option: the last call of its kind that succeeded set it. -/
def InForce (fd : Int32) (option : SocketOption) (calls : List SocketCall) : Prop :=
  lastSome (SocketCall.sets fd option.kind) calls = some option

/-- Each requested option is in force on the socket, the port to receive on is bound, and the
address to send to is the one that the host was found at. -/
structure Called.Applies (r : Called) (settings : UdpSettings) : Prop where
  reuse : InForce r.manager.hSocket (.reuseAddr settings.reuse) r.calls
  broadcast : InForce r.manager.hSocket (.broadcast settings.broadcast) r.calls
  blocking : lastSome (SocketCall.setsNonBlocking r.manager.hSocket) r.calls =
    some (!settings.blocking)
  receiveBuffer : settings.receiveBufferSize ≠ 0 →
    InForce r.manager.hSocket (.receiveBuffer settings.receiveBufferSize) r.calls
  sendBuffer : settings.sendBufferSize ≠ 0 →
    InForce r.manager.hSocket (.sendBuffer settings.sendBufferSize) r.calls
  ttl : InForce r.manager.hSocket (.multicastTtl settings.ttl) r.calls
  bound : settings.bindPort ≠ 0 →
    SocketCall.bind r.manager.hSocket ⟨INADDR_ANY, settings.bindPort⟩ true ∈ r.calls
  destination : settings.sendPort ≠ 0 → ∃ addr,
    SocketCall.gethostbyname settings.sendAddress (some addr) ∈ r.calls ∧
      r.manager.saClient = ⟨addr, settings.sendPort⟩

/-- The settings come to `ConnectMcast`, and its call for the time to live succeeds. -/
def UdpSettings.DefaultsTtl (settings : UdpSettings) (a : SetupAnswers) : Prop :=
  settings.multicast = true ∧ settings.bindPort = 0 ∧ a.defaultTtl = true

instance (settings : UdpSettings) (a : SetupAnswers) : Decidable (settings.DefaultsTtl a) :=
  inferInstanceAs (Decidable (_ ∧ _))

/-- The calls for the options succeed and no later call undoes them. `Create` allows the reuse of
the address before it is asked for, and `ConnectMcast` sets the time to live to 1 again. -/
structure UdpSettings.OptionsSucceed (settings : UdpSettings) (a : SetupAnswers) : Prop where
  reuse : a.reuse = true ∨ (settings.reuse = true ∧ a.createReuse = true)
  broadcast : a.broadcast = true
  nonBlocking : a.nonBlocking = true
  receiveBuffer : settings.receiveBufferSize ≠ 0 → a.receiveBuffer = true
  sendBuffer : settings.sendBufferSize ≠ 0 → a.sendBuffer = true
  ttl : if settings.DefaultsTtl a then settings.ttl = 1 else a.ttl = true

section

variable {dm : DataModel} {m : UdpManager} {settings : UdpSettings} {a : SetupAnswers}

/-- The options that the call of `Create` puts in force. -/
def createSet (a : SetupAnswers) : OptionKind → Option SocketOption
  | .reuseAddr => if a.createReuse then some (.reuseAddr true) else none
  | _ => none

/-- The options that the calls for the options put in force. -/
def optionsSet (settings : UdpSettings) (a : SetupAnswers) : OptionKind → Option SocketOption
  | .reuseAddr => if a.reuse then some (.reuseAddr settings.reuse) else none
  | .broadcast => if a.broadcast then some (.broadcast settings.broadcast) else none
  | .receiveBuffer =>
    if settings.receiveBufferSize ≠ 0 ∧ a.receiveBuffer = true
      then some (.receiveBuffer settings.receiveBufferSize) else none
  | .sendBuffer =>
    if settings.sendBufferSize ≠ 0 ∧ a.sendBuffer = true
      then some (.sendBuffer settings.sendBufferSize) else none
  | .multicastTtl => if a.ttl then some (.multicastTtl settings.ttl) else none
  | .addMembership => none

/-- The options that the calls for the ports put in force. -/
def portsSet (settings : UdpSettings) (a : SetupAnswers) : OptionKind → Option SocketOption
  | .multicastTtl => if settings.DefaultsTtl a then some (.multicastTtl 1) else none
  | .addMembership =>
    if settings.multicast = true ∧ settings.bindPort ≠ 0
      then some (.addMembership (a.inet_addr settings.bindAddress)) else none
  | _ => none

theorem sets_createCalls (fd : Int32) (a : SetupAnswers) (kind : OptionKind) :
    lastSome (SocketCall.sets fd kind)
      [.socket fd, .setsockopt fd (.reuseAddr true) a.createReuse] = createSet a kind := by
  cases kind <;> simp [lastSome_cons, SocketCall.sets, SocketOption.kind, createSet]

theorem sets_optionCalls (fd : Int32) (settings : UdpSettings) (a : SetupAnswers)
    (kind : OptionKind) :
    lastSome (SocketCall.sets fd kind) (optionCalls fd settings a) =
      optionsSet settings a kind := by
  unfold optionCalls
  by_cases hr : settings.receiveBufferSize = 0 <;> by_cases hs : settings.sendBufferSize = 0 <;>
    cases kind <;>
    simp [hr, hs, lastSome_cons, SocketCall.sets, SocketOption.kind, optionsSet]

theorem sets_portCalls (fd : Int32) (settings : UdpSettings) (a : SetupAnswers)
    (kind : OptionKind) :
    lastSome (SocketCall.sets fd kind) (portCalls fd settings a) = portsSet settings a kind := by
  unfold portCalls
  by_cases hb : settings.bindPort = 0 <;> cases hmulti : settings.multicast <;> cases kind <;>
    simp [hb, hmulti, lastSome_cons, SocketCall.sets, SocketOption.kind,
      portsSet, UdpSettings.DefaultsTtl]

theorem setsNonBlocking_optionCalls (fd : Int32) (settings : UdpSettings) (a : SetupAnswers) :
    lastSome (SocketCall.setsNonBlocking fd) (optionCalls fd settings a) =
      if a.nonBlocking then some (!settings.blocking) else none := by
  unfold optionCalls
  by_cases hr : settings.receiveBufferSize = 0 <;> by_cases hs : settings.sendBufferSize = 0 <;>
    cases hblock : a.nonBlocking <;>
    simp [hr, hs, lastSome_cons, SocketCall.setsNonBlocking]

theorem setsNonBlocking_portCalls (fd : Int32) (settings : UdpSettings) (a : SetupAnswers) :
    lastSome (SocketCall.setsNonBlocking fd) (portCalls fd settings a) = none := by
  unfold portCalls
  by_cases hb : settings.bindPort = 0 <;> cases settings.multicast <;>
    simp [hb, lastSome_cons, SocketCall.setsNonBlocking]

theorem gethostbyname_notMem_optionCalls {fd : Int32} {host : String} {found : Option UInt32} :
    SocketCall.gethostbyname host found ∉ optionCalls fd settings a := by
  unfold optionCalls
  by_cases hr : settings.receiveBufferSize = 0 <;> by_cases hs : settings.sendBufferSize = 0 <;>
    simp [hr, hs]

theorem gethostbyname_mem_portCalls {fd : Int32} {host : String} {found : Option UInt32} :
    SocketCall.gethostbyname host found ∈ portCalls fd settings a ↔
      settings.bindPort = 0 ∧ host = settings.sendAddress ∧ found = a.host := by
  unfold portCalls
  by_cases hb : settings.bindPort = 0 <;> cases settings.multicast <;> simp [hb]

theorem bind_mem_portCalls {fd : Int32} (hb : settings.bindPort ≠ 0) :
    SocketCall.bind fd ⟨INADDR_ANY, settings.bindPort⟩ true ∈ portCalls fd settings a := by
  unfold portCalls
  rw [if_pos hb]
  exact List.mem_cons_self

/-- What a `Setup` that returns true has done. -/
theorem UdpManager.setup_calls (h : (m.setup dm settings a).ret = true) :
    (m.setup dm settings a).manager.hSocket = a.socket ∧
      (m.setup dm settings a).calls =
        [.socket a.socket, .setsockopt a.socket (.reuseAddr true) a.createReuse] ++
          optionCalls a.socket settings a ++ portCalls a.socket settings a ∧
      (settings.bindPort = 0 → ∃ addr, a.host = some addr ∧
        (m.setup dm settings a).manager.saClient = ⟨addr, settings.sendPort⟩) := by
  obtain ⟨hport, hm, hs, hok⟩ := (setup_ret_iff dm).mp h
  have hopened : (m.opened dm settings a).hSocket ≠ INVALID_SOCKET := hs
  obtain ⟨_, hmanager, hcalls⟩ := setup_opened dm hport hm hs
  obtain ⟨hports, hclient⟩ := setupPorts_succeeds hopened hport hok
  rw [hmanager, hcalls, hports]
  exact ⟨(setupPorts_keeps _ _ _).hSocket, rfl, hclient⟩

/-- The option of each kind after such a `Setup`. -/
theorem UdpManager.inForce_setup_iff (h : (m.setup dm settings a).ret = true)
    {option : SocketOption} :
    InForce (m.setup dm settings a).manager.hSocket option (m.setup dm settings a).calls ↔
      (portsSet settings a option.kind).or ((optionsSet settings a option.kind).or
        (createSet a option.kind)) = some option := by
  obtain ⟨hheld, hcalls, _⟩ := setup_calls h
  rw [InForce, hheld, hcalls, lastSome_append, lastSome_append, sets_portCalls, sets_optionCalls,
    sets_createCalls]

theorem UdpManager.reuse_inForce_iff (h : (m.setup dm settings a).ret = true) :
    InForce (m.setup dm settings a).manager.hSocket (.reuseAddr settings.reuse)
        (m.setup dm settings a).calls ↔
      a.reuse = true ∨ (settings.reuse = true ∧ a.createReuse = true) := by
  rw [inForce_setup_iff h]
  cases hreuse : a.reuse <;>
    simp [SocketOption.kind, portsSet, optionsSet, createSet, hreuse, and_comm, eq_comm (a := true)]

theorem UdpManager.ttl_inForce_iff (h : (m.setup dm settings a).ret = true) :
    InForce (m.setup dm settings a).manager.hSocket (.multicastTtl settings.ttl)
        (m.setup dm settings a).calls ↔
      if settings.DefaultsTtl a then settings.ttl = 1 else a.ttl = true := by
  rw [inForce_setup_iff h]
  by_cases hdefault : settings.DefaultsTtl a <;>
    simp [SocketOption.kind, portsSet, optionsSet, createSet, hdefault, eq_comm (a := (1 : Int32))]

theorem UdpManager.nonBlocking_inForce_iff (h : (m.setup dm settings a).ret = true) :
    lastSome (SocketCall.setsNonBlocking (m.setup dm settings a).manager.hSocket)
        (m.setup dm settings a).calls = some (!settings.blocking) ↔ a.nonBlocking = true := by
  obtain ⟨hheld, hcalls, _⟩ := setup_calls h
  rw [hheld, hcalls, lastSome_append, lastSome_append, setsNonBlocking_portCalls,
    setsNonBlocking_optionCalls]
  simp [lastSome_cons, SocketCall.setsNonBlocking]

/-- The options that one call alone sets. -/
theorem UdpManager.option_inForce_iff (h : (m.setup dm settings a).ret = true)
    {option : SocketOption} (hports : portsSet settings a option.kind = none)
    (hcreate : createSet a option.kind = none) :
    InForce (m.setup dm settings a).manager.hSocket option (m.setup dm settings a).calls ↔
      optionsSet settings a option.kind = some option := by
  rw [inForce_setup_iff h, hports, hcreate, Option.none_or, Option.or_none]

theorem UdpManager.applies_iff (h : (m.setup dm settings a).ret = true) :
    (m.setup dm settings a).Applies settings ↔
      settings.OptionsSucceed a ∧ ¬(settings.bindPort ≠ 0 ∧ settings.sendPort ≠ 0) := by
  obtain ⟨_, hcalls, hclient⟩ := setup_calls h
  have hbroadcast : InForce (m.setup dm settings a).manager.hSocket (.broadcast settings.broadcast)
      (m.setup dm settings a).calls ↔ a.broadcast = true :=
    (option_inForce_iff h rfl rfl).trans (by simp [SocketOption.kind, optionsSet])
  have hreceive : settings.receiveBufferSize ≠ 0 →
      (InForce (m.setup dm settings a).manager.hSocket (.receiveBuffer settings.receiveBufferSize)
        (m.setup dm settings a).calls ↔ a.receiveBuffer = true) := fun hr =>
    (option_inForce_iff h rfl rfl).trans (by simp [SocketOption.kind, optionsSet, hr])
  have hsend : settings.sendBufferSize ≠ 0 →
      (InForce (m.setup dm settings a).manager.hSocket (.sendBuffer settings.sendBufferSize)
        (m.setup dm settings a).calls ↔ a.sendBuffer = true) := fun hs =>
    (option_inForce_iff h rfl rfl).trans (by simp [SocketOption.kind, optionsSet, hs])
  constructor
  · intro happlies
    have hok : settings.OptionsSucceed a := {
      reuse := (reuse_inForce_iff h).mp happlies.reuse
      broadcast := hbroadcast.mp happlies.broadcast
      nonBlocking := (nonBlocking_inForce_iff h).mp happlies.blocking
      receiveBuffer := fun hr => (hreceive hr).mp (happlies.receiveBuffer hr)
      sendBuffer := fun hs => (hsend hs).mp (happlies.sendBuffer hs)
      ttl := (ttl_inForce_iff h).mp happlies.ttl }
    refine ⟨hok, fun hboth => ?_⟩
    obtain ⟨hb, hs⟩ := hboth
    obtain ⟨addr, hlookup, _⟩ := happlies.destination hs
    rw [hcalls] at hlookup
    simp [gethostbyname_notMem_optionCalls, gethostbyname_mem_portCalls, hb] at hlookup
  · intro hcond
    obtain ⟨hok, hone⟩ := hcond
    constructor
    · exact (reuse_inForce_iff h).mpr hok.reuse
    · exact hbroadcast.mpr hok.broadcast
    · exact (nonBlocking_inForce_iff h).mpr hok.nonBlocking
    · exact fun hr => (hreceive hr).mpr (hok.receiveBuffer hr)
    · exact fun hs => (hsend hs).mpr (hok.sendBuffer hs)
    · exact (ttl_inForce_iff h).mpr hok.ttl
    · intro hb
      rw [(setup_calls h).1, hcalls]
      exact List.mem_append_right _ (bind_mem_portCalls hb)
    · intro hs
      have hb : settings.bindPort = 0 := by
        by_contra hb
        exact hone ⟨hb, hs⟩
      obtain ⟨addr, haddr, hsa⟩ := hclient hb
      refine ⟨addr, ?_, hsa⟩
      rw [hcalls]
      exact List.mem_append_right _ (gethostbyname_mem_portCalls.mpr ⟨hb, rfl, haddr.symm⟩)

/-- `Setup` returns true for a configuration that it has applied exactly when the calls whose
results it drops succeed too and none undoes another, and only one of the two ports is given. -/
theorem setup_applied_iff (dm : DataModel) (m : UdpManager) (settings : UdpSettings)
    (a : SetupAnswers) :
    ((m.setup dm settings a).ret = true → (m.setup dm settings a).Applies settings) ↔
      (settings.HasPort ∧ m.hSocket = INVALID_SOCKET ∧ a.socket ≠ INVALID_SOCKET ∧
          settings.PortSucceeds a →
        settings.OptionsSucceed a ∧ ¬(settings.bindPort ≠ 0 ∧ settings.sendPort ≠ 0)) := by
  rw [← UdpManager.setup_ret_iff dm]
  constructor
  · intro h hret
    exact (UdpManager.applies_iff hret).mp (h hret)
  · intro h hret
    exact (UdpManager.applies_iff hret).mpr (h hret)

end

/-- A multicast address to send to, with a time to live that is not the default. -/
def farMulticast : UdpSettings :=
  { ({} : UdpSettings).sendTo "239.0.0.1" 3002 with multicast := true, ttl := 4 }

/-- A socket left blocking, a port to send to that is not looked at, and a time to live that is
set back, where every other call or every call succeeds. -/
theorem setup_reports_unapplied :
    (noSocket.setup lp64 (({} : UdpSettings).receiveOn 3001)
      { allAnswers with nonBlocking := false }).ret = true ∧
    ¬(noSocket.setup lp64 (({} : UdpSettings).receiveOn 3001)
      { allAnswers with nonBlocking := false }).Applies (({} : UdpSettings).receiveOn 3001) ∧
    (noSocket.setup lp64 ((({} : UdpSettings).receiveOn 3001).sendTo "localhost" 3002)
      allAnswers).ret = true ∧
    ¬(noSocket.setup lp64 ((({} : UdpSettings).receiveOn 3001).sendTo "localhost" 3002)
      allAnswers).Applies ((({} : UdpSettings).receiveOn 3001).sendTo "localhost" 3002) ∧
    (noSocket.setup lp64 farMulticast allAnswers).ret = true ∧
    ¬(noSocket.setup lp64 farMulticast allAnswers).Applies farMulticast := by
  refine ⟨by decide, fun h => ?_, by decide, fun h => ?_, by decide, fun h => ?_⟩
  · obtain ⟨hok, _⟩ := (UdpManager.applies_iff (by decide)).mp h
    cases hok.nonBlocking
  · obtain ⟨_, hone⟩ := (UdpManager.applies_iff (by decide)).mp h
    exact hone ⟨by decide, by decide⟩
  · obtain ⟨hok, _⟩ := (UdpManager.applies_iff (by decide)).mp h
    exact absurd hok.ttl (by decide)

end LmListener
