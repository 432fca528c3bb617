import LmListener.Latest
import LmListener.TypeListener
import LmListener.UdpSetup

namespace LmListener

open Checked CTypes Latest Runs

/-- `inet_ntoa`: the four bytes of the address in decimal. -/
def inetNtoa (addr : UInt32) : String :=
  String.intercalate "." ([24, 16, 8, 0].map fun shift => toString (addr.toNat / 2 ^ shift % 256))

/-- An address as `GetRemoteAddr` reports it. -/
def SockaddrIn.report (address : SockaddrIn) : String × Int32 :=
  (inetNtoa address.addr, toInt address.port.toNat)

/-- A call of `sendto`. -/
structure SendTo where
  fd : Int32
  pBuff : List UInt8
  iSize : Int32
  address : SockaddrIn
deriving DecidableEq, Repr

namespace UdpManager

def waitSend (m : UdpManager) (select : Int32) : Int32 :=
  if m.hSocket = INVALID_SOCKET then SOCKET_ERROR
  else if select = 0 then SOCKET_TIMEOUT
  else if select < 0 then SOCKET_ERROR
  else 0

/-- The result, and the call of `sendto` that returned `sent`, if there was one. -/
def send (m : UdpManager) (pBuff : List UInt8) (iSize select sent : Int32) :
    Int32 × Option SendTo :=
  if m.hSocket = INVALID_SOCKET then (SOCKET_ERROR, none)
  else if m.dwTimeoutSend ≠ NO_TIMEOUT ∧ m.waitSend select ≠ 0 then (m.waitSend select, none)
  else (sent, some ⟨m.hSocket, pBuff, iSize, m.saClient⟩)

def getRemoteAddr (m : UdpManager) : Option (String × Int32) :=
  if m.hSocket = INVALID_SOCKET then none
  else if m.canGetRemoteAddress = false then none
  else some m.saClient.report

end UdpManager

/-- A call of the manager by its owner, with the answers of the system. -/
inductive UdpOp
  | create (socket : Int32) (reuse : Bool)
  | bind (usPort : UInt16) (ok : Bool)
  | connect (pHost : String) (usPort : UInt16) (host : Option UInt32)
  | send (pBuff : List UInt8) (iSize select sent : Int32)
  | receive (n : Nat) (pBuff : Vector UInt8 n) (iSize select : Int32) (answer : RecvFrom)
  | close (ok : Bool)
  | setTimeoutSend (timeoutInSeconds : Int32)
  | setTimeoutReceive (timeoutInSeconds : Int32)

def UdpManager.apply (dm : DataModel) (m : UdpManager) : UdpOp → Except Fault UdpManager
  | .create socket reuse => .ok (m.create socket reuse).manager
  | .bind usPort ok => .ok (m.bind usPort ok).manager
  | .connect pHost usPort host => .ok (m.connect pHost usPort host).manager
  | .send _ _ _ _ => .ok m
  | .receive _ pBuff iSize select answer => do
    return (← m.receive dm (answering answer) pBuff iSize select ()).manager
  | .close ok => .ok (m.close ok).manager
  | .setTimeoutSend timeoutInSeconds => .ok (m.setTimeoutSend dm timeoutInSeconds)
  | .setTimeoutReceive timeoutInSeconds => .ok (m.setTimeoutReceive dm timeoutInSeconds)

def UdpStep (dm : DataModel) (m : UdpManager) (op : UdpOp) (m' : UdpManager) : Prop :=
  m.apply dm op = .ok m'

/-- What `Connect` leaves in the address: the host's, or zeros when it fails. -/
def connectAddress (m : UdpManager) (usPort : UInt16) (host : Option UInt32) : SockaddrIn :=
  if m.hSocket = INVALID_SOCKET then ⟨0, 0⟩
  else
    match host with
    | none => ⟨0, 0⟩
    | some addr => ⟨addr, usPort⟩

/-- The host and port of a `Connect` that succeeds. -/
def connectedTo (t : Step UdpManager UdpOp) : Option SockaddrIn :=
  match t.event with
  | .connect _ usPort host =>
    if t.before.hSocket = INVALID_SOCKET then none else host.map fun addr => ⟨addr, usPort⟩
  | _ => none

/-- The sender of the packet that a `Receive` takes from its socket. -/
def packetFrom (t : Step UdpManager UdpOp) : Option SockaddrIn :=
  match t.event with
  | .receive _ _ _ select (.received d) =>
    if t.before.hSocket ≠ INVALID_SOCKET ∧ t.before.timeoutReceive select = 0 then some d.sender
    else none
  | _ => none

/-- What a `Connect` that fails or a packet puts into the address of the destination. -/
def overwrittenWith (t : Step UdpManager UdpOp) : Option SockaddrIn :=
  match t.event with
  | .connect _ _ host =>
    if t.before.hSocket = INVALID_SOCKET ∨ host = none then some ⟨0, 0⟩ else none
  | _ => packetFrom t

section

variable {dm : DataModel} {m m' : UdpManager} {t : Step UdpManager UdpOp}

theorem UdpManager.connect_manager (pHost : String) (usPort : UInt16) (host : Option UInt32) :
    (m.connect pHost usPort host).manager =
      { m with saClient := connectAddress m usPort host } := by
  unfold connect connectAddress
  split
  next => rfl
  next => cases host <;> rfl

/-- Everything a `Receive` can do to its manager. -/
theorem UdpStep.receive_cases {n : Nat} {pBuff : Vector UInt8 n} {iSize select : Int32}
    {answer : RecvFrom} (h : UdpStep dm m (.receive n pBuff iSize select answer) m') :
    (packetFrom ⟨m, .receive n pBuff iSize select answer, m'⟩ = none ∧
      (m' = m ∨ m' = { m with canGetRemoteAddress := false })) ∨
    ∃ sender flag, packetFrom ⟨m, .receive n pBuff iSize select answer, m'⟩ = some sender ∧
      m' = { m with saClient := sender, canGetRemoteAddress := flag } := by
  obtain ⟨r, hr, he⟩ := bind_eq_ok.mp h
  cases he
  have hpacket : ∀ d, packetFrom ⟨m, .receive n pBuff iSize select (.received d), r.manager⟩ =
      if m.hSocket ≠ INVALID_SOCKET ∧ m.timeoutReceive select = 0 then some d.sender
      else none := fun d => rfl
  unfold UdpManager.receive at hr
  by_cases hin : m.hSocket ≠ INVALID_SOCKET ∧ m.timeoutReceive select = 0
  · simp only [hin.1, hin.2, if_false, ne_eq, not_true_eq_false] at hr
    by_cases hsize : dm.toSize iSize.toInt > n
    · simp only [hsize, if_true] at hr
      cases hr
    · simp only [hsize, if_false] at hr
      cases answer with
      | received d =>
        cases hr
        exact Or.inr ⟨d.sender, _, by rw [hpacket, if_pos hin], rfl⟩
      | failed errno => cases hr; exact Or.inl ⟨rfl, Or.inr rfl⟩
  · have hnone : packetFrom ⟨m, .receive n pBuff iSize select answer, r.manager⟩ = none := by
      cases answer with
      | received d => rw [hpacket, if_neg hin]
      | failed errno => rfl
    refine Or.inl ⟨hnone, Or.inl ?_⟩
    split at hr
    next => cases hr; rfl
    next hs =>
      rw [if_pos fun ht => hin ⟨hs, ht⟩] at hr
      cases hr
      rfl

/-- The address changes in a `Connect`, successful or not, and with a packet. -/
theorem UdpStep.saClient {e : UdpOp} (h : UdpStep dm m e m') :
    m'.saClient = ((connectedTo ⟨m, e, m'⟩).or (overwrittenWith ⟨m, e, m'⟩)).getD m.saClient := by
  cases e with
  | create socket reuse =>
    cases h
    simp only [UdpManager.create]
    split_ifs <;> rfl
  | bind usPort ok => cases h; rfl
  | connect pHost usPort host =>
    cases h
    rw [UdpManager.connect_manager]
    simp only [connectedTo, overwrittenWith, connectAddress]
    split
    next hs => simp [hs]
    next hs => cases host <;> simp [hs]
  | send pBuff iSize select sent => cases h; rfl
  | receive n pBuff iSize select answer =>
    simp only [connectedTo, overwrittenWith, Option.none_or]
    rcases h.receive_cases with ⟨hnone, hm⟩ | ⟨sender, flag, hsome, hm⟩
    · rw [hnone]
      rcases hm with rfl | rfl <;> rfl
    · rw [hsome, hm]
      rfl
  | close ok =>
    cases h
    simp only [UdpManager.close]
    split_ifs <;> rfl
  | setTimeoutSend seconds => cases h; rfl
  | setTimeoutReceive seconds => cases h; rfl

theorem UdpManager.send_address {pBuff : List UInt8} {iSize select sent : Int32} {call : SendTo}
    (h : (m.send pBuff iSize select sent).2 = some call) : call.address = m.saClient := by
  unfold send at h
  split at h
  next => cases h
  next =>
    split at h
    next => cases h
    next => cases h; rfl

/-- `Send` goes to the host of the last successful `Connect` exactly when the last failed `Connect`
or received packet since, if there was one, put the same address. -/
theorem send_destination_iff {start : UdpManager} {earlier later : List (Step UdpManager UdpOp)}
    (h : Run (UdpStep dm) start (earlier ++ t :: later) m) {dest : SockaddrIn}
    (ht : connectedTo t = some dest) (hlater : ∀ u ∈ later, connectedTo u = none)
    {pBuff : List UInt8} {iSize select sent : Int32} {call : SendTo}
    (hsend : (m.send pBuff iSize select sent).2 = some call) :
    call.address = dest ↔
      ∀ address, lastSome overwrittenWith later = some address → address = dest := by
  obtain ⟨hstep, hrest⟩ := h.after
  have hconnected : t.after.saClient = dest := by
    rw [hstep.saClient, ht]
    rfl
  have hlast := run_reads_last UdpManager.saClient overwrittenWith hrest fun u hu hstep => by
    rw [hstep.saClient, hlater u hu]
    rfl
  rw [UdpManager.send_address hsend, hlast, hconnected]
  cases lastSome overwrittenWith later with
  | none => simp
  | some address => simp

end

def packet : Datagram := ⟨[1, 2, 3], ⟨0x0a000001, 7000⟩, by decide⟩

/-- A socket that is created, and the packet that is received on it. -/
def held : UdpManager := (noSocket.create 5 true).manager

def receivePacket : UdpOp := .receive 4 (Vector.replicate 4 0) 4 1 (.received packet)

/-- A manager connected to a host at port 7000. -/
def connected : UdpManager := (held.connect "host" 7000 (some 0x0a000001)).manager

def connectStep : Step UdpManager UdpOp :=
  ⟨held, .connect "host" 7000 (some 0x0a000001), connected⟩

theorem connected_run : Run (UdpStep lp64) held ([] ++ [connectStep]) connected :=
  .snoc .nil rfl

def answered : UdpManager :=
  { connected with saClient := packet.sender, canGetRemoteAddress := true }

/-- A packet from the host itself leaves the destination. -/
theorem send_destination_packet : ∃ (m : UdpManager) (call : SendTo),
    (m.send [1] 1 1 1).2 = some call ∧ call.address = ⟨0x0a000001, 7000⟩ := by
  have hpacket : UdpStep lp64 connected receivePacket answered := rfl
  have hrun : Run (UdpStep lp64) held
      ([] ++ connectStep :: [⟨connected, receivePacket, answered⟩]) answered :=
    connected_run.snoc hpacket
  have hlater : ∀ u ∈ [(⟨connected, receivePacket, answered⟩ : Step UdpManager UdpOp)],
      connectedTo u = none := List.forall_mem_singleton.mpr rfl
  have hsend : (answered.send [1] 1 1 1).2 = some ⟨5, [1], 1, packet.sender⟩ := rfl
  refine ⟨answered, _, hsend, (send_destination_iff hrun rfl hlater hsend).mpr ?_⟩
  intro address h
  cases h
  rfl

/-- A failed `Connect` and a packet from another host each change the destination. -/
theorem send_destination_changed :
    connectedTo connectStep = some ⟨0x0a000001, 7000⟩ ∧
    (∃ (m : UdpManager) (call : SendTo), Run (UdpStep lp64) held
      ([connectStep] ++ [⟨connected, .connect "gone" 9000 none, m⟩]) m ∧
      (m.send [1] 1 1 1).2 = some call ∧ call.address = ⟨0, 0⟩) ∧
    ∃ (m : UdpManager) (call : SendTo), Run (UdpStep lp64) held
      ([connectStep] ++ [⟨connected, .receive 4 (Vector.replicate 4 0) 4 1
        (.received { packet with sender := ⟨0x0a000002, 7000⟩ }), m⟩]) m ∧
      (m.send [1] 1 1 1).2 = some call ∧ call.address = ⟨0x0a000002, 7000⟩ := by
  have hfailed : UdpStep lp64 connected (.connect "gone" 9000 none)
      (connected.connect "gone" 9000 none).manager := rfl
  have hpacket : UdpStep lp64 connected (.receive 4 (Vector.replicate 4 0) 4 1
      (.received { packet with sender := ⟨0x0a000002, 7000⟩ }))
      { connected with saClient := ⟨0x0a000002, 7000⟩, canGetRemoteAddress := true } := rfl
  refine ⟨rfl, ⟨_, _, connected_run.snoc hfailed, rfl, rfl⟩, ?_⟩
  exact ⟨_, _, connected_run.snoc hpacket, rfl, rfl⟩

/-- A new socket has heard nobody, and a packet is heard from its sender. -/
def heardOn (t : Step UdpManager UdpOp) : Option (Option SockaddrIn) :=
  match t.event with
  | .create socket _ =>
    if t.before.hSocket = INVALID_SOCKET ∧ socket ≠ INVALID_SOCKET then some none else none
  | _ => (packetFrom t).map some

/-- The sender of the last packet received on the socket held after these steps. -/
def heard (steps : List (Step UdpManager UdpOp)) : Option SockaddrIn :=
  (lastSome heardOn steps).join

/-- What `GetRemoteAddr` reports is the sender of that packet. -/
def Tells (steps : List (Step UdpManager UdpOp)) (m : UdpManager) : Prop :=
  ∀ r, m.getRemoteAddr = some r → ∃ sender, heard steps = some sender ∧ sender.report = r

/-- While a sender can be told, a `Connect` puts the same address, and no new socket is made. -/
def KeepsSender (t : Step UdpManager UdpOp) : Prop :=
  match t.event with
  | .create socket _ => t.before.hSocket = INVALID_SOCKET → socket ≠ INVALID_SOCKET →
    t.before.canGetRemoteAddress = false
  | .connect _ usPort host => t.before.hSocket ≠ INVALID_SOCKET →
    t.before.canGetRemoteAddress = true →
      (connectAddress t.before usPort host).report = t.before.saClient.report
  | _ => True

section

variable {dm : DataModel} {m m' : UdpManager}

theorem heard_concat (steps : List (Step UdpManager UdpOp)) (t : Step UdpManager UdpOp) :
    heard (steps ++ [t]) = (heardOn t).getD (heard steps) := by
  rw [heard, lastSome_concat]
  cases heardOn t <;> rfl

theorem UdpManager.getRemoteAddr_eq_some_iff {r : String × Int32} :
    m.getRemoteAddr = some r ↔ m.hSocket ≠ INVALID_SOCKET ∧ m.canGetRemoteAddress = true ∧
      m.saClient.report = r := by
  unfold getRemoteAddr
  split
  next hs => simp [hs]
  next hs => cases hc : m.canGetRemoteAddress <;> simp [hs]

theorem tells_iff {steps : List (Step UdpManager UdpOp)} :
    Tells steps m ↔ (m.hSocket ≠ INVALID_SOCKET → m.canGetRemoteAddress = true →
      ∃ sender, heard steps = some sender ∧ sender.report = m.saClient.report) := by
  unfold Tells
  constructor
  · intro h hs hc
    exact h _ (UdpManager.getRemoteAddr_eq_some_iff.mpr ⟨hs, hc, rfl⟩)
  · intro h r hr
    obtain ⟨hs, hc, rfl⟩ := UdpManager.getRemoteAddr_eq_some_iff.mp hr
    exact h hs hc

/-- A step without a packet or a new socket tells the same sender as before, or none. -/
theorem Tells.frame {steps : List (Step UdpManager UdpOp)} {e : UdpOp} (h : Tells steps m)
    (hheard : heardOn ⟨m, e, m'⟩ = none)
    (hsame : m'.hSocket ≠ INVALID_SOCKET → m'.canGetRemoteAddress = true →
      m.hSocket ≠ INVALID_SOCKET ∧ m.canGetRemoteAddress = true ∧
        m'.saClient.report = m.saClient.report) : Tells (steps ++ [⟨m, e, m'⟩]) m' := by
  apply tells_iff.mpr
  intro hs hc
  obtain ⟨hs', hc', hreport⟩ := hsame hs hc
  rw [heard_concat, hheard, hreport]
  exact tells_iff.mp h hs' hc'

/-- The step lemma. -/
theorem Tells.step {steps : List (Step UdpManager UdpOp)} {e : UdpOp} (h : Tells steps m)
    (hstep : UdpStep dm m e m') (hkeeps : KeepsSender ⟨m, e, m'⟩) :
    Tells (steps ++ [⟨m, e, m'⟩]) m' := by
  cases e with
  | create socket reuse =>
    cases hstep
    by_cases hopen : m.hSocket = INVALID_SOCKET ∧ socket ≠ INVALID_SOCKET
    · rw [UdpManager.create_opens reuse hopen.1 hopen.2]
      apply tells_iff.mpr
      intro _ hc
      rw [hkeeps hopen.1 hopen.2] at hc
      cases hc
    · rw [(UdpManager.create_refused reuse hopen).2.1]
      exact h.frame (if_neg hopen) fun hs hc => ⟨hs, hc, rfl⟩
  | bind usPort ok => cases hstep; exact h.frame rfl fun hs hc => ⟨hs, hc, rfl⟩
  | connect pHost usPort host =>
    cases hstep
    rw [UdpManager.connect_manager]
    exact h.frame rfl fun hs hc => ⟨hs, hc, hkeeps hs hc⟩
  | send pBuff iSize select sent => cases hstep; exact h.frame rfl fun hs hc => ⟨hs, hc, rfl⟩
  | receive n pBuff iSize select answer =>
    rcases hstep.receive_cases with ⟨hnone, hm⟩ | ⟨sender, flag, hsome, hm⟩
    · apply h.frame (by rw [heardOn, hnone]; rfl)
      intro hs hc
      rcases hm with rfl | rfl
      · exact ⟨hs, hc, rfl⟩
      · cases hc
    · apply tells_iff.mpr
      intro _ _
      refine ⟨sender, ?_, by rw [hm]⟩
      rw [heard_concat, heardOn, hsome]
      rfl
  | close ok =>
    cases hstep
    rcases UdpManager.close_manager (m := m) ok with hm | hm <;> rw [hm]
    · exact h.frame rfl fun hs hc => ⟨hs, hc, rfl⟩
    · exact h.frame rfl fun hs _ => absurd rfl hs
  | setTimeoutSend seconds => cases hstep; exact h.frame rfl fun hs hc => ⟨hs, hc, rfl⟩
  | setTimeoutReceive seconds => cases hstep; exact h.frame rfl fun hs hc => ⟨hs, hc, rfl⟩

theorem KeepsSender.of_tells {steps : List (Step UdpManager UdpOp)} {e : UdpOp}
    (h : Tells steps m) (hstep : UdpStep dm m e m') (h' : Tells (steps ++ [⟨m, e, m'⟩]) m') :
    KeepsSender ⟨m, e, m'⟩ := by
  have htell := tells_iff.mp h
  have htell' := tells_iff.mp h'
  rw [heard_concat] at htell'
  cases e with
  | create socket reuse =>
    intro hclosed hsocket
    cases hstep
    rw [UdpManager.create_opens reuse hclosed hsocket] at htell'
    by_contra hc
    obtain ⟨sender, hsender, _⟩ := htell' hsocket (Bool.eq_true_of_not_eq_false hc)
    have hnew : heardOn ⟨m, .create socket reuse, { m with hSocket := socket }⟩ = some none :=
      if_pos ⟨hclosed, hsocket⟩
    rw [hnew] at hsender
    cases hsender
  | connect pHost usPort host =>
    intro hs hc
    cases hstep
    rw [UdpManager.connect_manager] at htell'
    obtain ⟨sender, hsender, hreport⟩ := htell hs hc
    obtain ⟨sender', hsender', hreport'⟩ := htell' hs hc
    obtain rfl := Option.some.inj (hsender.symm.trans hsender')
    exact hreport'.symm.trans hreport
  | _ => trivial

/-- The run lemma. -/
theorem tells_of_keepsSender {saServer saClient : SockaddrIn}
    {steps : List (Step UdpManager UdpOp)}
    (h : Run (UdpStep dm) (UdpManager.new saServer saClient) steps m)
    (hkeeps : ∀ t ∈ steps, KeepsSender t) : Tells steps m := by
  induction h with
  | nil => exact tells_iff.mpr fun hs => absurd rfl hs
  | snoc before last ih =>
    have hbefore := ih fun t ht => hkeeps t (List.mem_append_left _ ht)
    exact hbefore.step last (hkeeps _ (by simp))

/-- `GetRemoteAddr` tells the last sender in every state of a run exactly when each `Connect` made
while it has one to tell puts that address again, and no socket is made while it has one. -/
theorem remote_addr_iff {saServer saClient : SockaddrIn} {steps : List (Step UdpManager UdpOp)}
    (h : Run (UdpStep dm) (UdpManager.new saServer saClient) steps m) :
    (∀ earlier later s, steps = earlier ++ later →
      Run (UdpStep dm) (UdpManager.new saServer saClient) earlier s → Tells earlier s) ↔
    ∀ t ∈ steps, KeepsSender t := by
  constructor
  · intro htells t ht
    obtain ⟨earlier, later, rfl⟩ := List.append_of_mem ht
    obtain ⟨hrun, hstep⟩ := h.split earlier t later rfl
    have hbefore := htells earlier (t :: later) t.before rfl hrun
    have hafter := htells (earlier ++ [t]) later t.after (by simp) (hrun.snoc hstep)
    exact KeepsSender.of_tells hbefore hstep hafter
  · intro hkeeps earlier later s he hrun
    subst he
    exact tells_of_keepsSender hrun fun t ht => hkeeps t (List.mem_append_left _ ht)

end

def heardPacket : UdpManager :=
  { held with saClient := packet.sender, canGetRemoteAddress := true }

theorem heardPacket_run : Run (UdpStep lp64) noSocket
    ([] ++ [⟨noSocket, .create 5 true, held⟩] ++ [⟨held, receivePacket, heardPacket⟩])
    heardPacket :=
  .snoc (.snoc .nil rfl) rfl

theorem remote_addr_packet :
    heardPacket.getRemoteAddr = some packet.sender.report ∧
    Tells ([⟨noSocket, .create 5 true, held⟩] ++ [⟨held, receivePacket, heardPacket⟩])
      heardPacket := by
  refine ⟨rfl, (remote_addr_iff heardPacket_run).mpr ?_ _ [] _ rfl heardPacket_run⟩
  exact List.forall_mem_cons.mpr ⟨fun _ _ => rfl, List.forall_mem_singleton.mpr trivial⟩

theorem heardPacket_tells :
    Tells ([⟨noSocket, .create 5 true, held⟩] ++ [⟨held, receivePacket, heardPacket⟩])
      heardPacket :=
  tells_of_keepsSender heardPacket_run
    (List.forall_mem_cons.mpr ⟨fun _ _ => rfl, List.forall_mem_singleton.mpr trivial⟩)

/-- After `Receive`, a `Connect` makes its host the sender that is told, and `Close` and `Create`
leave the old socket's sender to the new one. -/
theorem remote_addr_not_sender :
    (∃ steps m, Run (UdpStep lp64) noSocket steps m ∧
      steps.map Step.event =
        [.create 5 true, receivePacket, .connect "host" 9000 (some 0x0a000002)] ∧
      m.getRemoteAddr = some (SockaddrIn.report ⟨0x0a000002, 9000⟩) ∧
      heard steps = some ⟨0x0a000001, 7000⟩ ∧ ¬Tells steps m) ∧
    ∃ steps m, Run (UdpStep lp64) noSocket steps m ∧
      steps.map Step.event = [.create 5 true, receivePacket, .close true, .create 6 true] ∧
      m.getRemoteAddr = some packet.sender.report ∧ heard steps = none ∧ ¬Tells steps m := by
  have hconnect : UdpStep lp64 heardPacket (.connect "host" 9000 (some 0x0a000002))
      (heardPacket.connect "host" 9000 (some 0x0a000002)).manager := rfl
  have hclose : UdpStep lp64 heardPacket (.close true) (heardPacket.close true).manager := rfl
  have hcreate : UdpStep lp64 (heardPacket.close true).manager (.create 6 true)
      ((heardPacket.close true).manager.create 6 true).manager := rfl
  constructor
  · refine ⟨_, _, heardPacket_run.snoc hconnect, rfl, rfl, rfl, fun h => ?_⟩
    have hsame : SockaddrIn.report ⟨0x0a000002, 9000⟩ = packet.sender.report :=
      KeepsSender.of_tells heardPacket_tells hconnect h (by decide) rfl
    exact absurd (congrArg Prod.snd hsame) (by decide)
  · refine ⟨_, _, (heardPacket_run.snoc hclose).snoc hcreate, rfl, rfl, rfl, fun h => ?_⟩
    obtain ⟨sender, hsender, _⟩ := h _ rfl
    cases hsender

end LmListener
