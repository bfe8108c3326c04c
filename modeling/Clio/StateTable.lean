import Mathlib

/-!
# The session state table of the go-back-N transport

A call runs the receive machine, the send machine, the timeout signal and the setup.
-/

namespace Clio.StateTable

abbrev SlotId := BitVec 10

abbrev Seqnum := BitVec 32

def windowSize : ℕ := 128

def nrBatchedPktPerAckFpga : BitVec 8 := 99

def legomemPort : BitVec 16 := 1234

inductive GbnPktType where
  | ack
  | nack
  | data
  | unknown
  deriving DecidableEq, Repr

structure GbnHeader where
  pktType : GbnPktType
  seqnum : Seqnum
  srcSlot : SlotId
  destSlot : SlotId
  deriving DecidableEq, Repr

structure UdpInfo where
  srcIp : BitVec 32
  destIp : BitVec 32
  srcPort : BitVec 16
  destPort : BitVec 16
  length : BitVec 16
  deriving DecidableEq, Repr

structure QueryReq where
  gbnHeader : GbnHeader
  srcIp : BitVec 32
  destIp : BitVec 32
  deriving DecidableEq, Repr

structure RetransReq where
  slotid : SlotId
  seqStart : Seqnum
  seqEnd : Seqnum
  deriving DecidableEq, Repr

inductive TimerRstType where
  | reset
  | stop
  deriving DecidableEq, Repr

structure TimerReq where
  slotid : SlotId
  rstType : TimerRstType
  deriving DecidableEq, Repr

inductive GbnConnSetType where
  | openSession
  | closeSession
  deriving DecidableEq, Repr

structure ConnMgmtReq where
  slotid : SlotId
  setType : GbnConnSetType
  deriving DecidableEq, Repr

/-- The entry of one slot in the five session arrays. -/
structure Session where
  ackEnable : Bool
  expectedSeqnum : Seqnum
  lastAckdSeqnum : Seqnum
  lastSentSeqnum : Seqnum
  ackCountdown : BitVec 8
  deriving DecidableEq, Repr

inductive RxState where
  | recvRxReq
  | handleData (query : QueryReq) (expt : Seqnum) (countdown : BitVec 8)
  | handleAck (query : QueryReq) (lastAckd lastSent : Seqnum)
  deriving DecidableEq, Repr

inductive TxState where
  | recvTxReq
  | replTxReq (slot : SlotId) (lastSent : Seqnum)
  | updTxInfo (slot : SlotId) (lastAckd lastSent : Seqnum)
  deriving DecidableEq, Repr

structure TableState where
  rx : RxState
  tx : TxState
  session : SlotId → Session

structure RxOut where
  rsp : Option (UdpInfo × GbnHeader) := none
  queryRsp : Option Bool := none
  timer : Option TimerReq := none
  retrans : Option RetransReq := none
  deriving DecidableEq, Repr

structure TxOut where
  checkFullRsp : Option Seqnum := none
  timer : Option TimerReq := none
  deriving DecidableEq, Repr

def initSession : Session := ⟨true, 1, 0, 0, 0⟩

def powerUp : TableState := ⟨.recvRxReq, .recvTxReq, fun _ => ⟨false, 0, 0, 0, 0⟩⟩

/-- The answer to a packet: source and destination slot are exchanged. -/
def rspPacket (query : QueryReq) (pktType : GbnPktType) (seqnum : Seqnum) :
    UdpInfo × GbnHeader :=
  (⟨0, query.srcIp, legomemPort, legomemPort, 24⟩,
    ⟨pktType, seqnum, query.gbnHeader.destSlot, query.gbnHeader.srcSlot⟩)

def GbnHeader.inSession (header : GbnHeader) : Bool :=
  header.destSlot ≠ 0 && header.srcSlot ≠ 0

lemma in_session_iff (header : GbnHeader) :
    header.inSession = true ↔ header.destSlot ≠ 0 ∧ header.srcSlot ≠ 0 := by
  rw [GbnHeader.inSession,Bool.and_eq_true,decide_eq_true_iff,decide_eq_true_iff]

def QueryReq.broadcast (query : QueryReq) : Bool := query.destIp.extractLsb' 0 8 = 0xff

def recvRxReq (query : QueryReq) (ses : Session) : RxState × RxOut :=
  if query.broadcast then (.recvRxReq, { queryRsp := some false })
  else if query.gbnHeader.inSession then
    match query.gbnHeader.pktType with
    | .data => (.handleData query ses.expectedSeqnum ses.ackCountdown, {})
    | .ack => (.handleAck query ses.lastAckdSeqnum ses.lastSentSeqnum, {})
    | .nack => (.handleAck query ses.lastAckdSeqnum ses.lastSentSeqnum, {})
    | .unknown => (.recvRxReq, { queryRsp := some false })
  else (.recvRxReq, { queryRsp := some (query.gbnHeader.pktType == .data) })

/-- A packet in order is acknowledged when the countdown has ended; the countdown then starts again
at `batch`. -/
def handleData (query : QueryReq) (expt : Seqnum) (countdown : BitVec 8) (ses : Session)
    (batch : BitVec 8 := nrBatchedPktPerAckFpga) : Session × RxOut :=
  let recv := query.gbnHeader.seqnum
  if recv = expt then
    if countdown = 0 then
      ({ ses with expectedSeqnum := expt+1, ackEnable := true, ackCountdown := batch },
        { rsp := some (rspPacket query .ack expt), queryRsp := some true })
    else
      ({ ses with expectedSeqnum := expt+1, ackEnable := true, ackCountdown := countdown-1 },
        { queryRsp := some true })
  else if ses.ackEnable then
    if expt < recv then
      ({ ses with ackEnable := false },
        { rsp := some (rspPacket query .nack (expt-1)), queryRsp := some false })
    else
      -- recv < expt; the branch of the source for neither case is never taken
      (ses, { rsp := some (rspPacket query .ack (expt-1)), queryRsp := some false })
  else (ses, { queryRsp := some false })

lemma data_counters (query : QueryReq) (expt : Seqnum) (countdown : BitVec 8) (ses : Session)
    (batch : BitVec 8 := nrBatchedPktPerAckFpga) :
    (handleData query expt countdown ses batch).1.lastAckdSeqnum = ses.lastAckdSeqnum ∧
      (handleData query expt countdown ses batch).1.lastSentSeqnum = ses.lastSentSeqnum := by
  unfold handleData
  dsimp only
  split_ifs <;> exact ⟨rfl,rfl⟩

def handleAck (query : QueryReq) (lastAckd lastSent : Seqnum) (ses : Session) :
    Session × RxOut :=
  let recv := query.gbnHeader.seqnum
  let slot := query.gbnHeader.destSlot
  if lastAckd < recv then
    ({ ses with lastAckdSeqnum := recv },
      if recv = lastSent then { queryRsp := some false, timer := some ⟨slot, .stop⟩ }
      else if query.gbnHeader.pktType = .ack then
        { queryRsp := some false, timer := some ⟨slot, .reset⟩ }
      else { queryRsp := some false, retrans := some ⟨slot, recv+1, lastSent⟩ })
  else if recv = lastAckd ∧ query.gbnHeader.pktType = .nack then
    (ses, { queryRsp := some false, retrans := some ⟨slot, recv+1, lastSent⟩ })
  else (ses, { queryRsp := some false })

def setSession (t : TableState) (slot : SlotId) (ses : Session) : TableState :=
  { t with session := Function.update t.session slot ses }

@[simp] lemma set_session_rx (t : TableState) (slot : SlotId) (ses : Session) :
    (setSession t slot ses).rx = t.rx := rfl

@[simp] lemma set_session_tx (t : TableState) (slot : SlotId) (ses : Session) :
    (setSession t slot ses).tx = t.tx := rfl

def rxStep (t : TableState) (stateQueryReq : Option QueryReq)
    (batch : BitVec 8 := nrBatchedPktPerAckFpga) : TableState × RxOut :=
  match t.rx with
  | .recvRxReq =>
      match stateQueryReq with
      | none => (t, {})
      | some query =>
          let next := recvRxReq query (t.session query.gbnHeader.destSlot)
          ({ t with rx := next.1 }, next.2)
  | .handleData query expt countdown =>
      let slot := query.gbnHeader.destSlot
      let next := handleData query expt countdown (t.session slot) batch
      ({ setSession t slot next.1 with rx := .recvRxReq }, next.2)
  | .handleAck query lastAckd lastSent =>
      let slot := query.gbnHeader.destSlot
      let next := handleAck query lastAckd lastSent (t.session slot)
      ({ setSession t slot next.1 with rx := .recvRxReq }, next.2)

def windowOpen (lastAckd lastSent : Seqnum) : Bool := lastSent.toNat < lastAckd.toNat+windowSize

lemma window_closed_iff (lastAckd lastSent : Seqnum) :
    windowOpen lastAckd lastSent = false ↔ lastAckd.toNat+windowSize ≤ lastSent.toNat := by
  rw [windowOpen,decide_eq_false_iff_not,not_lt]

def replTxReq (slot : SlotId) (lastSent : Seqnum) (ses : Session) : Session × TxState × TxOut :=
  if windowOpen ses.lastAckdSeqnum lastSent then
    ({ ses with lastSentSeqnum := lastSent+1 }, .updTxInfo slot ses.lastAckdSeqnum lastSent,
      { checkFullRsp := some (lastSent+1) })
  else (ses, .replTxReq slot lastSent, {})

def updTxInfo (slot : SlotId) (lastAckd lastSent : Seqnum) : TxOut :=
  if lastAckd = lastSent then { timer := some ⟨slot, .reset⟩ } else {}

def txStep (t : TableState) (checkFullReq : Option SlotId) (txFinishSig : Option Bool) :
    TableState × TxOut :=
  match t.tx with
  | .recvTxReq =>
      match checkFullReq with
      | none => (t, {})
      | some slot => ({ t with tx := .replTxReq slot (t.session slot).lastSentSeqnum }, {})
  | .replTxReq slot lastSent =>
      let next := replTxReq slot lastSent (t.session slot)
      ({ setSession t slot next.1 with tx := next.2.1 }, next.2.2)
  | .updTxInfo slot lastAckd lastSent =>
      match txFinishSig with
      | none => (t, {})
      | some _ => ({ t with tx := .recvTxReq }, updTxInfo slot lastAckd lastSent)

def timeoutReq (slot : SlotId) (ses : Session) : RetransReq :=
  ⟨slot, ses.lastAckdSeqnum+1, ses.lastSentSeqnum⟩

def timeoutStep (t : TableState) (rtTimeoutSig : Option SlotId) : Option RetransReq :=
  rtTimeoutSig.map (fun slot => timeoutReq slot (t.session slot))

def setState (setType : GbnConnSetType) (ses : Session) : Session :=
  match setType with
  | .openSession => initSession
  | .closeSession => { ses with expectedSeqnum := 0 }

def initStep (t : TableState) (initReq : Option ConnMgmtReq) : TableState :=
  match initReq with
  | none => t
  | some req => setSession t req.slotid (setState req.setType (t.session req.slotid))

structure CallIn where
  stateQueryReq : Option QueryReq := none
  checkFullReq : Option SlotId := none
  txFinishSig : Option Bool := none
  rtTimeoutSig : Option SlotId := none
  initReq : Option ConnMgmtReq := none
  deriving DecidableEq, Repr

structure CallOut where
  rsp : Option (UdpInfo × GbnHeader)
  queryRsp : Option Bool
  gbnRetransReq : List RetransReq
  timerRstReq : List TimerReq
  checkFullRsp : Option Seqnum
  deriving DecidableEq, Repr

section

variable (t : TableState) (i : CallIn) (batch : BitVec 8 := nrBatchedPktPerAckFpga)

def afterRx : TableState := (rxStep t i.stateQueryReq batch).1

def afterTx : TableState :=
  (txStep (afterRx t i batch) i.checkFullReq i.txFinishSig).1

def next : TableState := initStep (afterTx t i batch) i.initReq

def output : CallOut :=
  let rx := (rxStep t i.stateQueryReq batch).2
  let tx := (txStep (afterRx t i batch) i.checkFullReq i.txFinishSig).2
  { rsp := rx.rsp
    queryRsp := rx.queryRsp
    gbnRetransReq := rx.retrans.toList++(timeoutStep (afterTx t i batch) i.rtTimeoutSig).toList
    timerRstReq := rx.timer.toList++tx.timer.toList
    checkFullRsp := tx.checkFullRsp }

def stateTable64 : TableState × CallOut := (next t i batch, output t i batch)

/-- With an open window the next number is handed out. -/
lemma next_reply (slot : SlotId) (sent : Seqnum) (hrx : t.rx = .recvRxReq)
    (htx : t.tx = .replTxReq slot sent)
    (hw : windowOpen (t.session slot).lastAckdSeqnum sent = true) :
    next t {} batch = { setSession t slot { t.session slot with lastSentSeqnum := sent+1 } with
      tx := .updTxInfo slot (t.session slot).lastAckdSeqnum sent } := by
  simp [next,afterTx,afterRx,rxStep,hrx,txStep,htx,initStep,replTxReq,hw]

end

end Clio.StateTable
