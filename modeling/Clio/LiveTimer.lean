import Clio.Machine
import Clio.SlotView
import Clio.UnackedBuffer

/-!
# The retransmission timer

The timer keeps one entry per slot and scans one entry per call.
-/

namespace Clio.LiveTimer

open List StateTable SlotView UnackedBuffer Machine

structure RtTimerEntry where
  active : Bool
  time : BitVec 31
  deriving DecidableEq, Repr

structure TimerState where
  timeoutArray : SlotId → RtTimerEntry
  scanSlotId : SlotId

def retransTimeout : BitVec 31 := 24414063

def resetEntry (entry : RtTimerEntry) (rstType : TimerRstType) : RtTimerEntry :=
  match rstType with
  | .reset => ⟨true, retransTimeout⟩
  | .stop => { entry with active := false }

def scanEntry (entry : RtTimerEntry) : RtTimerEntry × Bool :=
  if entry.active then
    if entry.time > 0 then ({ entry with time := entry.time-1 }, false)
    else ({ entry with active := false }, true)
  else (entry, false)

def retransTimer (t : TimerState) (timerRstReq : Option TimerReq) : TimerState × Option SlotId :=
  match timerRstReq with
  | some req =>
      ({ t with timeoutArray := Function.update t.timeoutArray req.slotid
                  (resetEntry (t.timeoutArray req.slotid) req.rstType) }, none)
  | none =>
      let slot := t.scanSlotId+1
      let entry := scanEntry (t.timeoutArray slot)
      (⟨Function.update t.timeoutArray slot entry.1, slot⟩, if entry.2 then some slot else none)

/-- The three modules and the streams between them. -/
structure System where
  table : TableState
  timer : TimerState
  buffer : BufState
  tableReqs : List TimerReq
  bufferReqs : List TimerReq
  timeouts : List SlotId
  retransReqs : List RetransReq

inductive TimerSource where
  | scan
  | table
  | buffer
  | manager (req : TimerReq)
  deriving DecidableEq, Repr

/-- One call of a module, which reads a stream at its head or sees it empty. -/
inductive Action where
  | table (query : Option QueryReq) (checkFull : Option SlotId) (finish : Option Bool)
      (readTimeout : Bool) (init : Option ConnMgmtReq)
  | timer (source : TimerSource)
  | buffer (payload : Option NetAxis64) (route : Option RouteInfo) (readReq : Bool)
      (rdData : Option NetAxis64)
  deriving DecidableEq, Repr

def callIn (m : System) (query : Option QueryReq) (checkFull : Option SlotId)
    (finish : Option Bool) (readTimeout : Bool) (init : Option ConnMgmtReq) : CallIn :=
  ⟨query, checkFull, finish, see readTimeout m.timeouts, init⟩

def callTable (m : System) (i : CallIn) (readTimeout : Bool) : System :=
  let call := stateTable64 m.table i
  { m with table := call.1, tableReqs := m.tableReqs++call.2.timerRstReq,
           retransReqs := m.retransReqs++call.2.gbnRetransReq,
           timeouts := left readTimeout m.timeouts }

def callTimer (m : System) (req : Option TimerReq) : System :=
  let call := retransTimer m.timer req
  { m with timer := call.1, timeouts := m.timeouts++call.2.toList }

def callBuffer (m : System) (payload : Option NetAxis64) (route : Option RouteInfo)
    (readReq : Bool) (rdData : Option NetAxis64) : System :=
  let call := retransStep (recvStep m.buffer payload route).1 (see readReq m.retransReqs) rdData
  -- the request stream is read only in the state that waits for a request
  let read := readReq && (m.buffer.retrans == .recvReq)
  { m with buffer := call.1, bufferReqs := m.bufferReqs++call.2.timer.toList,
           retransReqs := left read m.retransReqs }

def exec (m : System) (a : Action) : Option System :=
  match a with
  | .table query checkFull finish readTimeout init =>
      some (callTable m (callIn m query checkFull finish readTimeout init) readTimeout)
  | .timer .scan => some (callTimer m none)
  | .timer .table => m.tableReqs.head?.map (fun req =>
      callTimer { m with tableReqs := m.tableReqs.tail } (some req))
  | .timer .buffer => m.bufferReqs.head?.map (fun req =>
      callTimer { m with bufferReqs := m.bufferReqs.tail } (some req))
  | .timer (.manager req) => some (callTimer m (some req))
  | .buffer payload route readReq rdData => some (callBuffer m payload route readReq rdData)

def ackHeld : RxState → Bool
  | .handleAck _ _ _ => true
  | _ => false

def Quiet (s : SlotId) (m : System) : Prop :=
  txOf s m.table.tx = .recvTxReq ∧
  ackHeld (rxOf s m.table.rx) = false ∧
  (∀ req ∈ m.tableReqs, req.slotid ≠ s) ∧ (∀ req ∈ m.bufferReqs, req.slotid ≠ s) ∧
  s ∉ m.timeouts ∧ (∀ req ∈ m.retransReqs, req.slotid ≠ s) ∧
  ∀ req ∈ executing m.buffer, req.slotid ≠ s

instance (s : SlotId) (m : System) : Decidable (Quiet s m) :=
  inferInstanceAs (Decidable (_ ∧ _ ∧ _ ∧ _ ∧ _ ∧ _ ∧ _))

def Unacked (s : SlotId) (m : System) : Prop :=
  (m.table.session s).lastAckdSeqnum < (m.table.session s).lastSentSeqnum

instance (s : SlotId) (m : System) : Decidable (Unacked s m) := inferInstanceAs (Decidable (_ < _))

def lastReq (s : SlotId) : List TimerReq → Option TimerRstType
  | [] => none
  | req::queue => (lastReq s queue).or (if req.slotid = s then some req.rstType else none)

lemma last_req_append (s : SlotId) (queue more : List TimerReq) :
    lastReq s (queue++more) = (lastReq s more).or (lastReq s queue) := by
  induction queue with
  | nil => simp [lastReq]
  | cons req queue ih => simp [lastReq,ih,Option.or_assoc]

lemma last_req_filter (s : SlotId) (queue : List TimerReq) :
    lastReq s (queue.filter (·.slotid = s)) = lastReq s queue := by
  induction queue with
  | nil => rfl
  | cons req queue ih => by_cases h : req.slotid = s <;> simp [lastReq,h,ih]

lemma last_req_none (s : SlotId) (queue : List TimerReq) :
    lastReq s queue = none ↔ ∀ req ∈ queue, req.slotid ≠ s := by
  induction queue with
  | nil => simp [lastReq]
  | cons req queue ih => simp [lastReq,ih,and_comm]

section

/-- Unacknowledged data is kept by a restart that nothing stops, by one the send machine will ask
for, or by the entry (`act`), a retransmission or something outside (`pend`). -/
def Kept (s : SlotId) (act pend : Prop) (v : View) (reqs : List TimerReq)
    (retrans : List RetransReq) : Prop :=
  v.ses.lastAckdSeqnum < v.ses.lastSentSeqnum →
    lastReq s reqs = some .reset ∨ (∃ ackd, v.tx = .updTxInfo s ackd ackd) ∨
    (lastReq s reqs = none ∧
      (act ∨ (∃ req ∈ retrans, req.slotid = s ∧ req.seqStart ≤ req.seqEnd) ∨ pend))

def TxRegs (s : SlotId) (v : View) : Prop :=
  match v.tx with
  | .recvTxReq => True
  | .replTxReq slot lastSent => slot = s ∧ lastSent = v.ses.lastSentSeqnum
  | .updTxInfo slot _ _ => slot = s

def RxExact (s : SlotId) (v : View) : Prop :=
  match v.rx with
  | .handleAck query lastAckd lastSent =>
      query.gbnHeader.destSlot = s ∧ lastAckd = v.ses.lastAckdSeqnum ∧
        lastSent = v.ses.lastSentSeqnum
  | _ => True

def RxRegs (s : SlotId) (v : View) : Prop :=
  match v.rx with
  | .handleAck query lastAckd lastSent =>
      query.gbnHeader.destSlot = s ∧ lastAckd = v.ses.lastAckdSeqnum ∧
        (lastSent = v.ses.lastSentSeqnum ∨ (v.ses.lastSentSeqnum = lastSent+1 ∧
          (lastAckd < query.gbnHeader.seqnum → query.gbnHeader.seqnum ≠ lastSent)))
  | _ => True

variable {s : SlotId} {act pend : Prop} {v : View} {reqs : List TimerReq}
  {retrans : List RetransReq}

lemma kept_of_same {w : View} (h : Kept s act pend v reqs retrans)
    (hackd : w.ses.lastAckdSeqnum = v.ses.lastAckdSeqnum)
    (hsent : w.ses.lastSentSeqnum = v.ses.lastSentSeqnum)
    (htx : ∀ ackd, v.tx = .updTxInfo s ackd ackd → w.tx = .updTxInfo s ackd ackd)
    (more : List RetransReq) : Kept s act pend w reqs (retrans++more) := by
  intro hlt
  rw [hackd,hsent] at hlt
  rcases h hlt with h | ⟨ackd,h⟩ | ⟨hnone,h | ⟨req,hreq,h⟩ | h⟩
  · exact .inl h
  · exact .inr (.inl ⟨ackd,htx ackd h⟩)
  · exact .inr (.inr ⟨hnone,.inl h⟩)
  · exact .inr (.inr ⟨hnone,.inr (.inl ⟨req,mem_append_left _ hreq,h⟩)⟩)
  · exact .inr (.inr ⟨hnone,.inr (.inr h)⟩)

lemma reset_kept {w : View} (slot : SlotId) (hslot : slot = s) :
    Kept s act pend w (reqs++[⟨slot,.reset⟩]) retrans := by
  intro _
  exact .inl (by simp [last_req_append,lastReq,hslot])

lemma ack_kept (query : QueryReq) (lastAckd lastSent : Seqnum)
    (hrx : v.rx = .handleAck query lastAckd lastSent) (hregs : RxRegs s v)
    (h : Kept s act pend v reqs retrans) :
    Kept s act pend ⟨.recvRxReq,v.tx,(handleAck query lastAckd lastSent v.ses).1⟩
      (reqs++(handleAck query lastAckd lastSent v.ses).2.timer.toList)
      (retrans++(handleAck query lastAckd lastSent v.ses).2.retrans.toList) := by
  simp only [RxRegs,hrx] at hregs
  obtain ⟨hdest,hackd,hsent⟩ := hregs
  unfold handleAck
  dsimp only
  split_ifs with hnew hall hack hsame
  · intro hlt
    rcases hsent with hsent | ⟨-,hrace⟩
    · rw [← hsent,hall] at hlt
      exact absurd hlt (by simp)
    · exact absurd hall (hrace hnew)
  · exact reset_kept _ hdest
  · intro hlt
    replace hlt : query.gbnHeader.seqnum < v.ses.lastSentSeqnum := hlt
    have hold : v.ses.lastAckdSeqnum < v.ses.lastSentSeqnum := by
      rw [← hackd]
      exact BitVec.lt_trans hnew hlt
    have hrange : query.gbnHeader.seqnum+1 ≤ lastSent := by
      rcases hsent with hsent | ⟨hsent,-⟩
      · rw [← hsent] at hlt
        bv_omega
      · rw [hsent] at hlt
        bv_omega
    rw [Option.toList_none,append_nil]
    rcases h hold with h | h | ⟨hnone,-⟩
    · exact .inl h
    · exact .inr (.inl h)
    · exact .inr (.inr ⟨hnone,.inr (.inl ⟨_,mem_append_right _ (mem_singleton_self _),
        hdest,hrange⟩)⟩)
  · rw [Option.toList_none,append_nil]
    exact kept_of_same h rfl rfl (fun _ hupd => hupd) _
  · rw [Option.toList_none,append_nil]
    exact kept_of_same h rfl rfl (fun _ hupd => hupd) _

lemma exact_regs (h : RxExact s v) : RxRegs s v := by
  unfold RxExact at h
  unfold RxRegs
  split
  · simp_all
  · trivial

lemma latch_exact (query : QueryReq) (hdest : query.gbnHeader.destSlot = s) (tx : TxState)
    (ses : Session) : RxExact s ⟨(recvRxReq query ses).1,tx,ses⟩ := by
  unfold RxExact recvRxReq
  split_ifs with hb hses
  · trivial
  · cases query.gbnHeader.pktType with
    | ack | nack => exact ⟨hdest,rfl,rfl⟩
    | data | unknown => trivial
  · trivial

end

section

variable (s : SlotId) (t : TableState) (i : CallIn) {act pend : Prop} {reqs : List TimerReq}
  {retrans : List RetransReq}

lemma rx_kept (htx : TxRegs s (view s t)) (hrx : RxRegs s (view s t))
    (h : Kept s act pend (view s t) reqs retrans) :
    TxRegs s (view s (afterRx t i)) ∧ RxExact s (view s (afterRx t i)) ∧
      Kept s act pend (view s (afterRx t i))
        (reqs++(steps s (view s t) (rxEvent s t i)).2.timerRstReq)
        (retrans++(steps s (view s t) (rxEvent s t i)).2.gbnRetransReq) := by
  rw [rx_view]
  unfold rxEvent
  have hidle : ∀ rx, (view s t).rx = rx → rx = .recvRxReq → RxExact s (view s t) := by
    rintro rx h rfl
    simp [RxExact,h]
  cases hst : t.rx with
  | recvRxReq =>
    cases hq : i.stateQueryReq with
    | none =>
      refine ⟨htx,hidle _ rfl (by simp [view,hst]),?_⟩
      simpa [steps] using h
    | some query =>
      dsimp only
      split_ifs with hdest
      · obtain ⟨htimer,hretrans⟩ := latch_timer query (view s t).ses
        simp only [steps_one,step,ofRx,htimer,hretrans]
        refine ⟨htx,latch_exact query hdest _ _,?_⟩
        rw [Option.toList_none,append_nil]
        exact kept_of_same h rfl rfl (fun _ hupd => hupd) _
      · refine ⟨htx,hidle _ rfl (by simp [view,hst]),?_⟩
        simpa [steps] using h
  | handleData query expt countdown =>
    dsimp only
    split_ifs with hdest
    · have hv : (view s t).rx = .handleData query expt countdown := by simp [view,hst,rxOf,hdest]
      obtain ⟨hackd,hsent⟩ := data_counters query expt countdown (view s t).ses
      obtain ⟨htimer,hretrans⟩ := data_timer query expt countdown (view s t).ses
      simp only [steps_one,step,hv,ofRx,htimer,hretrans]
      refine ⟨?_,trivial,?_⟩
      · simpa [TxRegs,hsent] using htx
      · rw [Option.toList_none,append_nil]
        exact kept_of_same (w := ⟨_,_,_⟩) h hackd hsent (fun _ hupd => hupd) _
    · refine ⟨htx,hidle _ rfl (by simp [view,hst,rxOf,hdest]),?_⟩
      simpa [steps] using h
  | handleAck query lastAckd lastSent =>
    dsimp only
    split_ifs with hdest
    · have hv : (view s t).rx = .handleAck query lastAckd lastSent := by
        simp [view,hst,rxOf,hdest]
      have hsent : (handleAck query lastAckd lastSent (view s t).ses).1.lastSentSeqnum =
          (view s t).ses.lastSentSeqnum := by
        unfold handleAck
        dsimp only
        split_ifs <;> rfl
      simp only [steps_one,step,hv,ofRx]
      refine ⟨?_,trivial,ack_kept query lastAckd lastSent hv hrx h⟩
      simpa [TxRegs,hsent] using htx
    · refine ⟨htx,hidle _ rfl (by simp [view,hst,rxOf,hdest]),?_⟩
      simpa [steps] using h

def Race (s : SlotId) (t : TableState) (i : CallIn) : Prop :=
  ∃ query ∈ i.stateQueryReq, t.rx = .recvRxReq ∧ query.broadcast = false ∧
    query.gbnHeader.inSession = true ∧
    (query.gbnHeader.pktType = .ack ∨ query.gbnHeader.pktType = .nack) ∧
    query.gbnHeader.destSlot = s ∧ query.gbnHeader.seqnum = (t.session s).lastSentSeqnum ∧
    (t.session s).lastAckdSeqnum < query.gbnHeader.seqnum ∧
    t.tx = .replTxReq s (t.session s).lastSentSeqnum ∧
    windowOpen (t.session s).lastAckdSeqnum (t.session s).lastSentSeqnum = true

instance (s : SlotId) (t : TableState) (i : CallIn) : Decidable (Race s t i) :=
  inferInstanceAs (Decidable (∃ query ∈ i.stateQueryReq, _))

variable (u : TableState)

lemma tx_kept (htx : TxRegs s (view s u)) (hrx : RxExact s (view s u))
    (h : Kept s act pend (view s u) reqs retrans)
    (hsafe : ∀ query lastAckd lastSent slot sent, u.tx = .replTxReq slot sent →
      (view s u).rx = .handleAck query lastAckd lastSent → slot = s →
      windowOpen (u.session s).lastAckdSeqnum sent = true → lastAckd < query.gbnHeader.seqnum →
      query.gbnHeader.seqnum ≠ lastSent) :
    TxRegs s (view s (txStep u i.checkFullReq i.txFinishSig).1) ∧
      RxRegs s (view s (txStep u i.checkFullReq i.txFinishSig).1) ∧
      Kept s act pend (view s (txStep u i.checkFullReq i.txFinishSig).1)
        (reqs++(steps s (view s u) (txEvent s u i)).2.timerRstReq)
        (retrans++(steps s (view s u) (txEvent s u i)).2.gbnRetransReq) := by
  rw [tx_view]
  unfold txEvent
  have hsame : TxRegs s (steps s (view s u) []).1 ∧ RxRegs s (steps s (view s u) []).1 ∧
      Kept s act pend (steps s (view s u) []).1 (reqs++(steps s (view s u) []).2.timerRstReq)
        (retrans++(steps s (view s u) []).2.gbnRetransReq) :=
    ⟨htx,exact_regs hrx,by simpa [steps] using h⟩
  cases hst : u.tx with
  | recvTxReq =>
    dsimp only
    split_ifs with hreq
    · simp only [steps_one,step]
      refine ⟨⟨rfl,rfl⟩,exact_regs hrx,?_⟩
      rw [append_nil]
      have := kept_of_same (w := ⟨(view s u).rx,.replTxReq s (view s u).ses.lastSentSeqnum,
        (view s u).ses⟩) h rfl rfl (fun ackd hupd => by simp [view,hst,txOf] at hupd) []
      exact this
    · exact hsame
  | replTxReq slot sent =>
    dsimp only
    split_ifs with hslot
    · have hv : (view s u).tx = .replTxReq slot sent := by simp [view,hst,txOf,hslot]
      simp only [steps_one,step,hv]
      simp only [TxRegs,hv] at htx
      obtain ⟨-,hsent⟩ := htx
      have hses : (view s u).ses = u.session s := rfl
      by_cases hw : windowOpen (u.session s).lastAckdSeqnum sent
      · simp only [replTxReq,hses,hw,if_true]
        refine ⟨hslot,?_,?_⟩
        · unfold RxRegs
          dsimp only
          split
          · rename_i query ackd last hr
            simp only [RxExact,hr] at hrx
            refine ⟨hrx.1,hrx.2.1,.inr ⟨?_,hsafe query ackd last slot sent hst hr hslot hw⟩⟩
            rw [hrx.2.2,hsent]
          · trivial
        · intro hlt
          replace hlt : (u.session s).lastAckdSeqnum < sent+1 := hlt
          by_cases heq : (u.session s).lastAckdSeqnum = sent
          · exact .inr (.inl ⟨sent,by rw [hslot,heq]⟩)
          · have hold : (view s u).ses.lastAckdSeqnum < (view s u).ses.lastSentSeqnum := by
              rw [← hsent,hses]
              bv_omega
            simp only [ofTx,Option.toList_none,append_nil]
            rcases h hold with h | ⟨ackd,h⟩ | h
            · exact .inl h
            · rw [hv] at h
              cases h
            · exact .inr (.inr h)
      · simp only [replTxReq,hses,hw]
        refine ⟨⟨hslot,hsent⟩,exact_regs hrx,?_⟩
        simp only [ofTx,append_nil]
        have := kept_of_same (w := ⟨(view s u).rx,.replTxReq slot sent,u.session s⟩) h rfl rfl
          (fun ackd hupd => by rw [hv] at hupd; cases hupd) []
        simpa using this
    · exact hsame
  | updTxInfo slot ackd sent =>
    dsimp only
    split_ifs with hslot
    · have hv : (view s u).tx = .updTxInfo slot ackd sent := by simp [view,hst,txOf,hslot.1]
      simp only [steps_one,step,hv]
      refine ⟨trivial,exact_regs hrx,?_⟩
      unfold updTxInfo
      split_ifs with heq
      · exact reset_kept slot hslot.1
      · simp only [ofTx,Option.toList_none,append_nil]
        have := kept_of_same (w := ⟨(view s u).rx,.recvTxReq,(view s u).ses⟩) h rfl rfl
          (fun a hupd => by
            rw [hv] at hupd
            cases hupd
            exact absurd rfl heq) []
        simpa using this
    · exact hsame

lemma kept_lists {v : View} {reqs' : List TimerReq} {retrans' : List RetransReq}
    (h : Kept s act pend v reqs retrans) (hreqs : lastReq s reqs' = lastReq s reqs)
    (hretrans : ∀ req ∈ retrans, req.slotid = s → req ∈ retrans') :
    Kept s act pend v reqs' retrans' := by
  intro hlt
  rw [hreqs]
  rcases h hlt with h | h | ⟨hnone,h | ⟨req,hreq,hslot,hle⟩ | h⟩
  · exact .inl h
  · exact .inr (.inl h)
  · exact .inr (.inr ⟨hnone,.inl h⟩)
  · exact .inr (.inr ⟨hnone,.inr (.inl ⟨req,hretrans req hreq hslot,hslot,hle⟩)⟩)
  · exact .inr (.inr ⟨hnone,.inr (.inr h)⟩)

lemma timeout_kept {p : Prop} (h : Kept s act pend (view s u) reqs retrans)
    (hpend : pend → p ∨ i.rtTimeoutSig = some s) :
    Kept s act p (view s u) reqs (retrans++(timeoutStep u i.rtTimeoutSig).toList) := by
  intro hlt
  rcases h hlt with h | h | ⟨hnone,h | ⟨req,hreq,h⟩ | h⟩
  · exact .inl h
  · exact .inr (.inl h)
  · exact .inr (.inr ⟨hnone,.inl h⟩)
  · exact .inr (.inr ⟨hnone,.inr (.inl ⟨req,mem_append_left _ hreq,h⟩)⟩)
  · rcases hpend h with h | h
    · exact .inr (.inr ⟨hnone,.inr (.inr h)⟩)
    · refine .inr (.inr ⟨hnone,.inr (.inl
        ⟨timeoutReq s (u.session s),by simp [timeoutStep,h],rfl,?_⟩)⟩)
      replace hlt : (u.session s).lastAckdSeqnum < (u.session s).lastSentSeqnum := hlt
      show (u.session s).lastAckdSeqnum+1 ≤ (u.session s).lastSentSeqnum
      bv_omega

lemma init_numbers (u : TableState) (hopen : i.initReq ≠ some ⟨s,.openSession⟩) :
    view s (initStep u i.initReq) = view s u ∨
      view s (initStep u i.initReq) =
        { view s u with ses := setState .closeSession (u.session s) } := by
  rw [init_view,initEvent]
  cases hreq : i.initReq with
  | none => exact .inl rfl
  | some req =>
    dsimp only
    split_ifs with hslot
    · cases hty : req.setType with
      | openSession => exact absurd (by rw [hreq,← hslot,← hty]) hopen
      | closeSession => exact .inr (by simp [step,view])
    · exact .inl rfl

lemma init_kept (hopen : i.initReq ≠ some ⟨s,.openSession⟩) (htx : TxRegs s (view s u))
    (hrx : RxRegs s (view s u)) (h : Kept s act pend (view s u) reqs retrans) :
    TxRegs s (view s (initStep u i.initReq)) ∧ RxRegs s (view s (initStep u i.initReq)) ∧
      Kept s act pend (view s (initStep u i.initReq)) reqs retrans := by
  rcases init_numbers s i u hopen with hv | hv
  · rw [hv]
    exact ⟨htx,hrx,h⟩
  · rw [hv]
    exact ⟨htx,hrx,h⟩

lemma ack_read (query : QueryReq) (lastAckd lastSent : Seqnum)
    (h : rxOf s (afterRx t i).rx = .handleAck query lastAckd lastSent) :
    t.rx = .recvRxReq ∧ i.stateQueryReq = some query ∧ query.broadcast = false ∧
      query.gbnHeader.inSession = true ∧
      (query.gbnHeader.pktType = .ack ∨ query.gbnHeader.pktType = .nack) ∧
      query.gbnHeader.destSlot = s ∧ lastAckd = (t.session s).lastAckdSeqnum ∧
      lastSent = (t.session s).lastSentSeqnum ∧ (afterRx t i).session = t.session := by
  unfold afterRx rxStep at h ⊢
  cases hst : t.rx with
  | recvRxReq =>
    cases hq : i.stateQueryReq with
    | none => simp [hst,hq,rxOf] at h
    | some req =>
      simp only [hst,hq] at h
      by_cases hdest : req.gbnHeader.destSlot = s
      · rw [latch_own s req _ hdest] at h
        unfold recvRxReq at h
        split_ifs at h with hb hses
        cases hty : req.gbnHeader.pktType with
        | ack | nack =>
          simp only [hty,RxState.handleAck.injEq] at h
          obtain ⟨rfl,rfl,rfl⟩ := h
          exact ⟨rfl,rfl,by simpa using hb,hses,by simp [hty],hdest,by rw [hdest],by rw [hdest],rfl⟩
        | data | unknown => simp [hty] at h
      · rw [latch_slot s req _ hdest] at h
        cases h
  | handleData q e c | handleAck q a b => simp [hst] at h

lemma call_kept {p : Prop} (htx : TxRegs s (view s t)) (hrx : RxRegs s (view s t))
    (h : Kept s act pend (view s t) reqs retrans) (hrace : ¬Race s t i)
    (hopen : i.initReq ≠ some ⟨s,.openSession⟩)
    (hpend : pend → p ∨ i.rtTimeoutSig = some s) :
    TxRegs s (view s (next t i)) ∧ RxRegs s (view s (next t i)) ∧
      Kept s act p (view s (next t i)) (reqs++(output t i).timerRstReq)
        (retrans++(output t i).gbnRetransReq) := by
  obtain ⟨htx1,hrx1,h1⟩ := rx_kept s t i htx hrx h
  have hsafe : ∀ query lastAckd lastSent slot sent, (afterRx t i).tx = .replTxReq slot sent →
      (view s (afterRx t i)).rx = .handleAck query lastAckd lastSent → slot = s →
      windowOpen ((afterRx t i).session s).lastAckdSeqnum sent = true →
      lastAckd < query.gbnHeader.seqnum → query.gbnHeader.seqnum ≠ lastSent := by
    intro query lastAckd lastSent slot sent hrepl hr hslot hw hlt heq
    obtain ⟨hidle,hq,hb,hses,hty,hdest,hackd,hsent,hsame⟩ := ack_read s t i query _ _ hr
    rw [after_rx_tx,hslot] at hrepl
    have hnum : sent = (t.session s).lastSentSeqnum := by
      have hv : (view s t).tx = .replTxReq s sent := by simp [view,hrepl,txOf]
      simp only [TxRegs,hv] at htx
      exact htx.2
    rw [hsame,hnum] at hw
    exact hrace ⟨query,hq,hidle,hb,hses,hty,hdest,heq.trans hsent,hackd ▸ hlt,hnum ▸ hrepl,hw⟩
  obtain ⟨htx2,hrx2,h2⟩ := tx_kept s i (afterRx t i) htx1 hrx1 h1 hsafe
  have h3 := timeout_kept s i (afterTx t i) h2 hpend
  obtain ⟨htx4,hrx4,h4⟩ := init_kept s i (afterTx t i) hopen htx2 hrx2 h3
  refine ⟨htx4,hrx4,kept_lists s h4 ?_ ?_⟩
  · rw [tx_streams,rx_streams,output]
    simp only [last_req_append,last_req_filter,Option.or_assoc]
  · intro req hreq hslot
    rw [tx_streams,rx_streams] at hreq
    simp only [mem_append,mem_filter,append_nil,output] at hreq ⊢
    tauto

end

section

def Fresh (s : SlotId) (m : System) : Prop :=
  view s m.table = freshView ∧ ∀ req ∈ m.bufferReqs, req.rstType = .reset

/-- The session is not opened again. -/
def Allowed (s : SlotId) (a : Action) : Prop :=
  match a with
  | .table _ _ _ _ init => init ≠ some ⟨s,.openSession⟩
  | .timer (.manager req) => req.slotid ≠ s
  | _ => True

def NoRace (s : SlotId) (m : System) (a : Action) : Prop :=
  match a with
  | .table query checkFull finish readTimeout init =>
      ¬Race s m.table (callIn m query checkFull finish readTimeout init)
  | _ => True

instance (s : SlotId) : (a : Action) → Decidable (Allowed s a)
  | .table _ _ _ _ init => inferInstanceAs (Decidable (init ≠ some ⟨s,.openSession⟩))
  | .timer (.manager req) => inferInstanceAs (Decidable (req.slotid ≠ s))
  | .timer .scan | .timer .table | .timer .buffer | .buffer _ _ _ _ => .isTrue trivial

instance (s : SlotId) (m : System) : (a : Action) → Decidable (NoRace s m a)
  | .table query checkFull finish readTimeout init =>
      inferInstanceAs
        (Decidable (¬Race s m.table (callIn m query checkFull finish readTimeout init)))
  | .timer _ | .buffer _ _ _ _ => .isTrue trivial

structure Inv (s : SlotId) (m : System) : Prop where
  resets : ∀ req ∈ m.bufferReqs, req.rstType = .reset
  tx : TxRegs s (view s m.table)
  rx : RxRegs s (view s m.table)
  kept : Kept s ((m.timer.timeoutArray s).active = true ∨ ∃ req ∈ m.bufferReqs, req.slotid = s)
    (s ∈ m.timeouts ∨ ∃ req ∈ executing m.buffer, req.slotid = s) (view s m.table) m.tableReqs
    m.retransReqs

variable {s : SlotId} {m : System}

lemma fresh_inv (h : Fresh s m) : Inv s m := by
  refine ⟨h.2,?_,?_,?_⟩
  · rw [h.1]
    trivial
  · rw [h.1]
    trivial
  · intro hlt
    rw [h.1] at hlt
    exact absurd hlt (by decide)

lemma mem_left_or_see {α : Type} (x : α) (read : Bool) (queue : List α) (h : x ∈ queue) :
    x ∈ left read queue ∨ see read queue = some x := by
  cases read with
  | false => exact .inl h
  | true =>
    cases queue with
    | nil => cases h
    | cons y queue =>
      rcases mem_cons.mp h with rfl | h
      · exact .inr rfl
      · exact .inl h

lemma table_inv (i : CallIn) (readTimeout : Bool) (h : Inv s m)
    (hi : i.rtTimeoutSig = see readTimeout m.timeouts) (hrace : ¬Race s m.table i)
    (hopen : i.initReq ≠ some ⟨s,.openSession⟩) : Inv s (callTable m i readTimeout) := by
  obtain ⟨htx,hrx,hkept⟩ := call_kept s m.table i
    (p := s ∈ left readTimeout m.timeouts ∨ ∃ req ∈ executing m.buffer, req.slotid = s)
    h.tx h.rx h.kept hrace hopen (by
      rintro (hs | hs)
      · rw [hi]
        rcases mem_left_or_see s readTimeout m.timeouts hs with hs | hs
        · exact .inl (.inl hs)
        · exact .inr hs
      · exact .inl (.inr hs))
  exact ⟨h.resets,htx,hrx,hkept⟩

variable (t : TimerState)

lemma scan_active (h : (t.timeoutArray s).active = true) :
    ((retransTimer t none).1.timeoutArray s).active = true ∨
      s ∈ (retransTimer t none).2.toList := by
  unfold retransTimer
  dsimp only
  generalize t.scanSlotId+1 = slot
  by_cases hslot : s = slot
  · subst hslot
    rw [Function.update_self]
    by_cases htime : (t.timeoutArray s).time > 0
    · have hscan : scanEntry (t.timeoutArray s) =
          ({ t.timeoutArray s with time := (t.timeoutArray s).time-1 },false) := by
        rw [scanEntry,if_pos h,if_pos htime]
      exact .inl (by rw [hscan]; exact h)
    · have hscan : scanEntry (t.timeoutArray s) =
        ({ t.timeoutArray s with active := false },true) := by
        rw [scanEntry,if_pos h,if_neg htime]
      exact .inr (by rw [hscan]; simp)
  · exact .inl (by simpa [hslot] using h)

lemma scan_inv (h : Inv s m) : Inv s (callTimer m none) := by
  refine ⟨h.resets,h.tx,h.rx,?_⟩
  intro hlt
  rcases h.kept hlt with h | h | ⟨hnone,(hact | hreq) | h | hpend | hpend⟩
  · exact .inl h
  · exact .inr (.inl h)
  · rcases scan_active m.timer hact with hact | hfire
    · exact .inr (.inr ⟨hnone,.inl (.inl hact)⟩)
    · exact .inr (.inr ⟨hnone,.inr (.inr (.inl (mem_append_right _ hfire)))⟩)
  · exact .inr (.inr ⟨hnone,.inl (.inr hreq)⟩)
  · exact .inr (.inr ⟨hnone,.inr (.inl h)⟩)
  · exact .inr (.inr ⟨hnone,.inr (.inr (.inl (mem_append_left _ hpend)))⟩)
  · exact .inr (.inr ⟨hnone,.inr (.inr (.inr hpend))⟩)

variable (req : TimerReq)

lemma entry_after :
    ((retransTimer t (some req)).1.timeoutArray s).active =
      if req.slotid = s then decide (req.rstType = .reset) else (t.timeoutArray s).active := by
  by_cases hslot : req.slotid = s
  · cases hty : req.rstType <;> simp [retransTimer,hslot,resetEntry,hty]
  · simp [retransTimer,hslot,Ne.symm hslot]

variable (queue : List TimerReq)

lemma table_req_inv (hq : m.tableReqs = req::queue) (h : Inv s m) :
    Inv s (callTimer { m with tableReqs := queue } (some req)) := by
  refine ⟨h.resets,h.tx,h.rx,?_⟩
  intro hlt
  have htimeouts : (callTimer { m with tableReqs := queue } (some req)).timeouts = m.timeouts := by
    simp [callTimer,retransTimer]
  rw [htimeouts]
  show lastReq s queue = some .reset ∨ _ ∨ (lastReq s queue = none ∧
    ((((retransTimer m.timer (some req)).1.timeoutArray s).active = true ∨ _) ∨ _))
  rw [entry_after]
  rcases h.kept hlt with h | h | ⟨hnone,hrest⟩
  · rw [hq,lastReq] at h
    cases hlast : lastReq s queue with
    | some ty => exact .inl (by simpa [hlast] using h)
    | none =>
      rw [hlast,Option.none_or] at h
      split_ifs at h with hslot
      exact .inr (.inr ⟨rfl,.inl (.inl (by simpa [hslot] using h))⟩)
  · exact .inr (.inl h)
  · rw [hq,last_req_none] at hnone
    have hslot : req.slotid ≠ s := hnone req (by simp)
    refine .inr (.inr ⟨(last_req_none s queue).mpr (fun r hr => hnone r (by simp [hr])),?_⟩)
    rw [if_neg hslot]
    exact hrest

lemma buffer_req_inv (hq : m.bufferReqs = req::queue) (h : Inv s m) :
    Inv s (callTimer { m with bufferReqs := queue } (some req)) := by
  have hreset : req.rstType = .reset := h.resets req (by simp [hq])
  refine ⟨fun r hr => h.resets r (by simp [hq,show r ∈ queue from hr]),h.tx,h.rx,?_⟩
  intro hlt
  have htimeouts : (callTimer { m with bufferReqs := queue } (some req)).timeouts = m.timeouts := by
    simp [callTimer,retransTimer]
  rw [htimeouts]
  show lastReq s m.tableReqs = some .reset ∨ _ ∨ (lastReq s m.tableReqs = none ∧
    ((((retransTimer m.timer (some req)).1.timeoutArray s).active = true ∨
      ∃ r ∈ queue, r.slotid = s) ∨ _))
  rw [entry_after]
  rcases h.kept hlt with h | h | ⟨hnone,hact | hrest⟩
  · exact .inl h
  · exact .inr (.inl h)
  · refine .inr (.inr ⟨hnone,.inl ?_⟩)
    by_cases hslot : req.slotid = s
    · exact .inl (by simp [hslot,hreset])
    · rw [if_neg hslot]
      rcases hact with hact | ⟨r,hr,hs⟩
      · exact .inl hact
      · rw [hq] at hr
        rcases mem_cons.mp hr with rfl | hr
        · exact absurd hs hslot
        · exact .inr ⟨r,hr,hs⟩
  · exact .inr (.inr ⟨hnone,.inr hrest⟩)

lemma manager_req_inv (hslot : req.slotid ≠ s) (h : Inv s m) :
    Inv s (callTimer m (some req)) := by
  refine ⟨h.resets,h.tx,h.rx,?_⟩
  have htimeouts : (callTimer m (some req)).timeouts = m.timeouts := by
    simp [callTimer,retransTimer]
  have hact : ((callTimer m (some req)).timer.timeoutArray s).active =
      (m.timer.timeoutArray s).active := by
    show ((retransTimer m.timer (some req)).1.timeoutArray s).active = _
    rw [entry_after,if_neg hslot]
  rw [htimeouts,hact]
  exact h.kept

lemma request_taken (b : BufState) (payload : Option NetAxis64) (route : Option RouteInfo)
    (readReq : Bool) (rdData : Option NetAxis64) (queue : List RetransReq) {req : RetransReq}
    (h : see (readReq && (b.retrans == .recvReq)) queue = some req)
    (hle : req.seqStart ≤ req.seqEnd) :
    executing (retransStep (recvStep b payload route).1 (see readReq queue) rdData).1 =
      some req := by
  have hboth : readReq = true ∧ b.retrans = .recvReq := by
    by_contra hnot
    have : (readReq && (b.retrans == .recvReq)) = false := by
      rw [← Bool.not_eq_true,Bool.and_eq_true,beq_iff_eq]
      exact hnot
    rw [this] at h
    cases h
  obtain ⟨hread,hst⟩ := hboth
  have hhead : see readReq queue = some req := by simpa [hread,hst] using h
  have hrange : ¬req.seqEnd < req.seqStart := by bv_omega
  rw [hhead,retransStep,recv_step_retrans,hst]
  simp [executing,hrange]

lemma buffer_inv (payload : Option NetAxis64) (route : Option RouteInfo) (readReq : Bool)
    (rdData : Option NetAxis64) (h : Inv s m) :
    Inv s (callBuffer m payload route readReq rdData) := by
  have hexec : executing (recvStep m.buffer payload route).1 = executing m.buffer := by
    rw [executing,recv_step_retrans,executing]
  refine ⟨?_,h.tx,h.rx,?_⟩
  · intro req hreq
    rcases mem_append.mp hreq with hreq | hreq
    · exact h.resets req hreq
    · exact retrans_timer_reset _ _ _ req (Option.mem_toList.mp hreq)
  intro hlt
  rcases h.kept hlt with
    h | h | ⟨hnone,(hact | ⟨req,hreq,hs⟩) | ⟨req,hreq,hs,hle⟩ | hpend | ⟨req,hreq,hs⟩⟩
  · exact .inl h
  · exact .inr (.inl h)
  · exact .inr (.inr ⟨hnone,.inl (.inl hact)⟩)
  · exact .inr (.inr ⟨hnone,.inl (.inr ⟨req,mem_append_left _ hreq,hs⟩)⟩)
  · -- a request stays in its queue or is taken up
    rcases mem_left_or_see req (readReq && (m.buffer.retrans == .recvReq)) m.retransReqs hreq
      with hin | htaken
    · exact .inr (.inr ⟨hnone,.inr (.inl ⟨req,hin,hs,hle⟩)⟩)
    · exact .inr (.inr ⟨hnone,.inr (.inr (.inr
        ⟨req,request_taken _ _ _ _ _ _ htaken hle,hs⟩))⟩)
  · exact .inr (.inr ⟨hnone,.inr (.inr (.inl hpend))⟩)
  · -- a retransmission goes on or ends with a restart
    rcases executing_next (recvStep m.buffer payload route).1
      (see readReq m.retransReqs) rdData req
      (hexec ▸ hreq) with hnext | htimer
    · exact .inr (.inr ⟨hnone,.inr (.inr (.inr ⟨req,hnext,hs⟩))⟩)
    · exact .inr (.inr ⟨hnone,.inl (.inr ⟨⟨req.slotid,.reset⟩,
        mem_append_right _ (Option.mem_toList.mpr htimer),hs⟩)⟩)

lemma exec_inv (a : Action) (u : System) (h : Inv s m) (hallow : Allowed s a)
    (hrace : NoRace s m a) (hexec : exec m a = some u) : Inv s u := by
  cases a with
  | table query checkFull finish readTimeout init =>
    rw [← Option.some.inj hexec]
    exact table_inv _ readTimeout h rfl hrace hallow
  | timer source =>
    cases source with
    | scan =>
      rw [← Option.some.inj hexec]
      exact scan_inv h
    | table =>
      cases hq : m.tableReqs with
      | nil => simp [exec,hq] at hexec
      | cons req queue =>
        simp only [exec,hq,List.head?_cons,Option.map_some,tail_cons, Option.some.injEq] at hexec
        exact hexec ▸ table_req_inv req queue hq h
    | buffer =>
      cases hq : m.bufferReqs with
      | nil => simp [exec,hq] at hexec
      | cons req queue =>
        simp only [exec,hq,List.head?_cons,Option.map_some,tail_cons, Option.some.injEq] at hexec
        exact hexec ▸ buffer_req_inv req queue hq h
    | manager req =>
      rw [← Option.some.inj hexec]
      exact manager_req_inv req hallow h
  | buffer payload route readReq rdData =>
    rw [← Option.some.inj hexec]
    exact buffer_inv payload route readReq rdData h

lemma inv_active (h : Inv s m) (hlt : Unacked s m) (hq : Quiet s m) :
    (m.timer.timeoutArray s).active = true := by
  obtain ⟨htx,-,htable,hbuffer,htime,hretrans,hexec⟩ := hq
  rcases h.kept hlt with
    h | ⟨ackd,h⟩ | ⟨-,(h | ⟨req,hreq,h⟩) | ⟨req,hreq,h,-⟩ | h | ⟨req,hreq,h⟩⟩
  · rw [(last_req_none s _).mpr htable] at h
    cases h
  · rw [show (view s m.table).tx = .recvTxReq from htx] at h
    cases h
  · exact h
  · exact absurd h (hbuffer req hreq)
  · exact absurd h (hretrans req hreq)
  · exact absurd h htime
  · exact absurd h (hexec req hreq)

/-- Unacknowledged data has a timer at rest, if no packet is sent as the last ACK is read. -/
theorem unacked_has_timer (s : SlotId) (as : List Action) (m u : System) (hfresh : Fresh s m)
    (hallow : ∀ a ∈ as, Allowed s a) (hrace : Guarded exec (NoRace s) as m)
    (hrun : run exec as m = some u) (hlt : Unacked s u) (hquiet : Quiet s u) :
    (u.timer.timeoutArray s).active = true := by
  refine inv_active ?_ hlt hquiet
  exact run_invariant exec (fun m a => NoRace s m a ∧ Allowed s a) (Inv s)
    (fun m a u h hok hexec => exec_inv a u h hok.2 hok.1 hexec) as m u (fresh_inv hfresh)
    (guarded_and exec (NoRace s) (Allowed s) as m hrace hallow) hrun

def booted (s : SlotId) : System :=
  ⟨next StateTable.powerUp { initReq := some ⟨s,.openSession⟩ },⟨fun _ => ⟨false,0⟩,0⟩,
    UnackedBuffer.powerUp,[],[],[],[]⟩

def firstPacket (s : SlotId) : List Action :=
  [.table none (some s) none false none, .table none none none false none,
    .table none none (some true) false none, .timer .table]

def ackRace (s : SlotId) : List Action :=
  firstPacket s++[.table none (some s) none false none,
    .table (some ⟨⟨.ack,1,3,s⟩,2,1⟩) none none false none,
    .table none none (some true) false none, .timer .table]

theorem ack_race_stops_timer :
    ∃ u, run exec (ackRace 5) (booted 5) = some u ∧ Unacked 5 u ∧ Quiet 5 u ∧
      (u.timer.timeoutArray 5).active = false :=
  ⟨_,rfl,by decide,by decide,by decide⟩

theorem unacked_has_timer_first_packet :
    ∃ u, run exec (firstPacket 5) (booted 5) = some u ∧ Unacked 5 u ∧ Quiet 5 u ∧
      (u.timer.timeoutArray 5).active = true :=
  ⟨_,rfl,by decide,by decide,
    unacked_has_timer 5 (firstPacket 5) (booted 5) _ ⟨by decide,by decide⟩ (by decide) (by decide)
      rfl (by decide) (by decide)⟩

end

end Clio.LiveTimer
