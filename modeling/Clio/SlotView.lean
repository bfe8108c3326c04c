import Clio.StateTable

/-!
# The state table as seen by one slot

The receive and send machines are shared by all slots.
-/

namespace Clio.SlotView

open StateTable

structure View where
  rx : RxState
  tx : TxState
  ses : Session
  deriving DecidableEq, Repr

def rxOf (s : SlotId) (rx : RxState) : RxState :=
  match rx with
  | .recvRxReq => .recvRxReq
  | .handleData query expt countdown =>
      if query.gbnHeader.destSlot = s then .handleData query expt countdown else .recvRxReq
  | .handleAck query lastAckd lastSent =>
      if query.gbnHeader.destSlot = s then .handleAck query lastAckd lastSent else .recvRxReq

def txOf (s : SlotId) (tx : TxState) : TxState :=
  match tx with
  | .recvTxReq => .recvTxReq
  | .replTxReq slot lastSent => if slot = s then .replTxReq slot lastSent else .recvTxReq
  | .updTxInfo slot lastAckd lastSent =>
      if slot = s then .updTxInfo slot lastAckd lastSent else .recvTxReq

def view (s : SlotId) (t : TableState) : View := ⟨rxOf s t.rx, txOf s t.tx, t.session s⟩

def freshView : View := ⟨.recvRxReq, .recvTxReq, initSession⟩

inductive Event where
  | query (query : QueryReq)
  | handle
  | request
  | reply
  | finish
  | timeout
  | setup (setType : GbnConnSetType)
  deriving DecidableEq, Repr

/-- The five output streams. -/
structure Streams where
  queryRsp : List Bool := []
  rsp : List (UdpInfo × GbnHeader) := []
  timerRstReq : List TimerReq := []
  gbnRetransReq : List RetransReq := []
  checkFullRsp : List Seqnum := []
  deriving DecidableEq, Repr

def Streams.append (x y : Streams) : Streams :=
  ⟨x.queryRsp++y.queryRsp, x.rsp++y.rsp, x.timerRstReq++y.timerRstReq,
    x.gbnRetransReq++y.gbnRetransReq, x.checkFullRsp++y.checkFullRsp⟩

lemma append_empty (x : Streams) : x.append {} = x := by
  simp [Streams.append]

lemma empty_append (x : Streams) : Streams.append {} x = x := by
  simp [Streams.append]

lemma append_assoc (x y z : Streams) : (x.append y).append z = x.append (y.append z) := by
  simp [Streams.append]

def ofRx (out : RxOut) : Streams :=
  { queryRsp := out.queryRsp.toList, rsp := out.rsp.toList, timerRstReq := out.timer.toList,
    gbnRetransReq := out.retrans.toList }

def ofTx (out : TxOut) : Streams :=
  { timerRstReq := out.timer.toList, checkFullRsp := out.checkFullRsp.toList }

def step (s : SlotId) (v : View) (e : Event) : View × Streams :=
  match e with
  | .query query =>
      ({ v with rx := (recvRxReq query v.ses).1 }, ofRx (recvRxReq query v.ses).2)
  | .handle =>
      match v.rx with
      | .recvRxReq => (v, {})
      | .handleData query expt countdown =>
          ({ v with rx := .recvRxReq, ses := (handleData query expt countdown v.ses).1 },
            ofRx (handleData query expt countdown v.ses).2)
      | .handleAck query lastAckd lastSent =>
          ({ v with rx := .recvRxReq, ses := (handleAck query lastAckd lastSent v.ses).1 },
            ofRx (handleAck query lastAckd lastSent v.ses).2)
  | .request => ({ v with tx := .replTxReq s v.ses.lastSentSeqnum }, {})
  | .reply =>
      match v.tx with
      | .replTxReq slot lastSent =>
          ({ v with tx := (replTxReq slot lastSent v.ses).2.1,
                    ses := (replTxReq slot lastSent v.ses).1 },
            ofTx (replTxReq slot lastSent v.ses).2.2)
      | _ => (v, {})
  | .finish =>
      match v.tx with
      | .updTxInfo slot lastAckd lastSent =>
          ({ v with tx := .recvTxReq }, ofTx (updTxInfo slot lastAckd lastSent))
      | _ => (v, {})
  | .timeout => (v, { gbnRetransReq := [timeoutReq s v.ses] })
  | .setup setType => ({ v with ses := setState setType v.ses }, {})

def steps (s : SlotId) : View → List Event → View × Streams
  | v, [] => (v, {})
  | v, e::es =>
      ((steps s (step s v e).1 es).1, (step s v e).2.append (steps s (step s v e).1 es).2)

lemma steps_append (s : SlotId) (v : View) (es fs : List Event) :
    steps s v (es++fs) = ((steps s (steps s v es).1 fs).1,
      (steps s v es).2.append (steps s (steps s v es).1 fs).2) := by
  induction es generalizing v with
  | nil => simp [steps,empty_append]
  | cons e es ih => simp [steps,ih,append_assoc]

/-- The events that do something: a reply that waits for the window is not one. -/
def effective (s : SlotId) : View → List Event → List Event
  | _, [] => []
  | v, e::es =>
      if step s v e = (v, {}) then effective s v es else e::effective s (step s v e).1 es

lemma steps_effective (s : SlotId) (v : View) (es : List Event) :
    steps s v (effective s v es) = steps s v es := by
  induction es generalizing v with
  | nil => rfl
  | cons e es ih =>
    rw [effective]
    split_ifs with hidle
    · rw [ih,steps,hidle,empty_append]
    · rw [steps,steps,ih]

/-! The events of a slot in one call. -/

def rxEvent (s : SlotId) (t : TableState) (i : CallIn) : List Event :=
  match t.rx with
  | .recvRxReq =>
      match i.stateQueryReq with
      | none => []
      | some query => if query.gbnHeader.destSlot = s then [.query query] else []
  | .handleData query _ _ => if query.gbnHeader.destSlot = s then [.handle] else []
  | .handleAck query _ _ => if query.gbnHeader.destSlot = s then [.handle] else []

def txEvent (s : SlotId) (t : TableState) (i : CallIn) : List Event :=
  match t.tx with
  | .recvTxReq => if i.checkFullReq = some s then [.request] else []
  | .replTxReq slot _ => if slot = s then [.reply] else []
  | .updTxInfo slot _ _ => if slot = s ∧ i.txFinishSig.isSome then [.finish] else []

def timeoutEvent (s : SlotId) (i : CallIn) : List Event :=
  if i.rtTimeoutSig = some s then [.timeout] else []

def initEvent (s : SlotId) (i : CallIn) : List Event :=
  match i.initReq with
  | none => []
  | some req => if req.slotid = s then [.setup req.setType] else []

def events (s : SlotId) (t : TableState) (i : CallIn) : List Event :=
  rxEvent s t i++txEvent s t i++timeoutEvent s i++initEvent s i

def slotOutput (s : SlotId) (t : TableState) (i : CallIn) : Streams :=
  let out := output t i
  { queryRsp := if rxEvent s t i = [] then [] else out.queryRsp.toList
    rsp := if rxEvent s t i = [] then [] else out.rsp.toList
    timerRstReq := out.timerRstReq.filter (·.slotid = s)
    gbnRetransReq := out.gbnRetransReq.filter (·.slotid = s)
    checkFullRsp := if txEvent s t i = [] then [] else out.checkFullRsp.toList }

section

variable (s : SlotId) (t : TableState) (i : CallIn)

@[simp] lemma steps_one (v : View) (e : Event) : steps s v [e] = step s v e := by
  simp [steps,append_empty]

@[simp] lemma rx_of_recv : rxOf s .recvRxReq = .recvRxReq := rfl

lemma latch_slot (query : QueryReq) (ses : Session)
    (h : query.gbnHeader.destSlot ≠ s) : rxOf s (recvRxReq query ses).1 = .recvRxReq := by
  unfold recvRxReq
  split
  · rfl
  · split
    · split <;> simp [rxOf,h]
    · rfl

lemma latch_own (query : QueryReq) (ses : Session) (h : query.gbnHeader.destSlot = s) :
    rxOf s (recvRxReq query ses).1 = (recvRxReq query ses).1 := by
  unfold recvRxReq
  split
  · rfl
  · split
    · split <;> simp [rxOf,h]
    · rfl

lemma rx_view : view s (afterRx t i) = (steps s (view s t) (rxEvent s t i)).1 := by
  unfold afterRx rxStep rxEvent view
  cases hrx : t.rx with
  | recvRxReq =>
    cases hreq : i.stateQueryReq with
    | none => simp [steps,hrx]
    | some query =>
      by_cases hs : query.gbnHeader.destSlot = s
      · simp [hs,step,latch_own]
      · simp [hs,steps,latch_slot]
  | handleData query expt countdown | handleAck query lastAckd lastSent =>
    by_cases hs : query.gbnHeader.destSlot = s
    · simp [hs,step,rxOf,setSession]
    · simp [hs,steps,rxOf,setSession,Ne.symm hs]

lemma tx_view : view s (txStep t i.checkFullReq i.txFinishSig).1 =
    (steps s (view s t) (txEvent s t i)).1 := by
  unfold txStep txEvent view
  cases htx : t.tx with
  | recvTxReq =>
    cases hreq : i.checkFullReq with
    | none => simp [steps,htx]
    | some slot =>
      by_cases hs : slot = s
      · simp [hs,step,txOf]
      · simp [hs,steps,txOf]
  | replTxReq slot lastSent =>
    by_cases hs : slot = s
    · subst hs
      by_cases hw : windowOpen (t.session slot).lastAckdSeqnum lastSent
      · simp [step,txOf,setSession,replTxReq,hw]
      · simp [step,txOf,setSession,replTxReq,hw]
    · by_cases hw : windowOpen (t.session slot).lastAckdSeqnum lastSent
      · simp [hs,steps,txOf,setSession,replTxReq,hw,Ne.symm hs]
      · simp [hs,steps,txOf,setSession,replTxReq,hw]
  | updTxInfo slot lastAckd lastSent =>
    cases hfin : i.txFinishSig with
    | none => simp [steps,htx]
    | some _ =>
      by_cases hs : slot = s
      · simp [hs,step,txOf]
      · simp [hs,steps,txOf]

lemma init_view : view s (initStep t i.initReq) = (steps s (view s t) (initEvent s i)).1 := by
  unfold initStep initEvent
  cases hreq : i.initReq with
  | none => simp [steps]
  | some req =>
    by_cases hs : req.slotid = s
    · simp [hs,step,view,setSession]
    · simp [hs,steps,view,setSession,Ne.symm hs]

lemma after_rx_tx : (afterRx t i).tx = t.tx := by
  unfold afterRx rxStep
  cases t.rx <;> cases i.stateQueryReq <;> rfl

lemma tx_event_after_rx : txEvent s (afterRx t i) i = txEvent s t i := by
  rw [txEvent,after_rx_tx,txEvent]

lemma timeout_view (v : View) : (steps s v (timeoutEvent s i)).1 = v := by
  rw [timeoutEvent]
  split
  · simp [step]
  · rfl

lemma after_tx_view : view s (afterTx t i) =
    (steps s (view s t) (rxEvent s t i++txEvent s t i)).1 := by
  rw [steps_append,← rx_view,afterTx,tx_view,tx_event_after_rx]

lemma next_view : view s (next t i) = (steps s (view s t) (events s t i)).1 := by
  rw [events,steps_append,steps_append,← after_tx_view,timeout_view,next,init_view]

/-! The streams of the slot. -/

lemma ack_timer_slot (query : QueryReq) (lastAckd lastSent : Seqnum) (ses : Session)
    (req : TimerReq) (h : (handleAck query lastAckd lastSent ses).2.timer = some req) :
    req.slotid = query.gbnHeader.destSlot := by
  unfold handleAck at h
  dsimp only at h
  split_ifs at h <;> simp at h <;> rw [← h]

lemma ack_retrans_slot (query : QueryReq) (lastAckd lastSent : Seqnum) (ses : Session)
    (req : RetransReq) (h : (handleAck query lastAckd lastSent ses).2.retrans = some req) :
    req.slotid = query.gbnHeader.destSlot := by
  unfold handleAck at h
  dsimp only at h
  split_ifs at h <;> simp at h <;> rw [← h]

lemma data_timer (query : QueryReq) (expt : Seqnum) (countdown : BitVec 8) (ses : Session) :
    (handleData query expt countdown ses).2.timer = none ∧
      (handleData query expt countdown ses).2.retrans = none := by
  unfold handleData
  dsimp only
  split_ifs <;> exact ⟨rfl,rfl⟩

lemma latch_timer (query : QueryReq) (ses : Session) :
    (recvRxReq query ses).2.timer = none ∧ (recvRxReq query ses).2.retrans = none := by
  unfold recvRxReq
  split
  · exact ⟨rfl,rfl⟩
  · split
    · split <;> exact ⟨rfl,rfl⟩
    · exact ⟨rfl,rfl⟩

lemma filter_option {α : Type} (slot : α → SlotId) (out : Option α) (own : SlotId)
    (h : ∀ req, out = some req → slot req = own) :
    out.toList.filter (slot · = s) = if own = s then out.toList else [] := by
  cases out with
  | none => simp
  | some req => by_cases hs : own = s <;> simp [h req rfl,hs]

lemma rx_streams : (steps s (view s t) (rxEvent s t i)).2 =
    { queryRsp := if rxEvent s t i = [] then [] else (rxStep t i.stateQueryReq).2.queryRsp.toList
      rsp := if rxEvent s t i = [] then [] else (rxStep t i.stateQueryReq).2.rsp.toList
      timerRstReq := (rxStep t i.stateQueryReq).2.timer.toList.filter (·.slotid = s)
      gbnRetransReq := (rxStep t i.stateQueryReq).2.retrans.toList.filter (·.slotid = s) } := by
  unfold rxStep rxEvent view
  cases hrx : t.rx with
  | recvRxReq =>
    cases hreq : i.stateQueryReq with
    | none => simp [steps]
    | some query =>
      obtain ⟨htimer,hretrans⟩ := latch_timer query (t.session query.gbnHeader.destSlot)
      by_cases hs : query.gbnHeader.destSlot = s
      · rw [hs] at htimer hretrans
        simp [hs,step,ofRx,htimer,hretrans]
      · simp [hs,steps,htimer,hretrans]
  | handleData query expt countdown =>
    obtain ⟨htimer,hretrans⟩ := data_timer query expt countdown (t.session query.gbnHeader.destSlot)
    by_cases hs : query.gbnHeader.destSlot = s
    · rw [hs] at htimer hretrans
      simp [hs,step,rxOf,ofRx,htimer,hretrans]
    · simp [hs,steps,htimer,hretrans]
  | handleAck query lastAckd lastSent =>
    have htimer := filter_option s TimerReq.slotid _ _ (ack_timer_slot query lastAckd lastSent
      (t.session query.gbnHeader.destSlot))
    have hretrans := filter_option s RetransReq.slotid _ _ (ack_retrans_slot query lastAckd lastSent
      (t.session query.gbnHeader.destSlot))
    by_cases hs : query.gbnHeader.destSlot = s
    · rw [hs] at htimer hretrans
      simp [hs,step,rxOf,ofRx,htimer,hretrans]
    · simp [hs,steps,htimer,hretrans]

lemma tx_streams : (steps s (view s t) (txEvent s t i)).2 =
    { timerRstReq := (txStep t i.checkFullReq i.txFinishSig).2.timer.toList.filter (·.slotid = s)
      checkFullRsp := if txEvent s t i = [] then []
        else (txStep t i.checkFullReq i.txFinishSig).2.checkFullRsp.toList } := by
  unfold txStep txEvent view
  cases htx : t.tx with
  | recvTxReq =>
    cases hreq : i.checkFullReq with
    | none => simp [steps]
    | some slot => by_cases hs : slot = s <;> simp [hs,steps,step]
  | replTxReq slot lastSent =>
    have htimer : (replTxReq slot lastSent (t.session slot)).2.2.timer = none := by
      unfold replTxReq
      split <;> rfl
    by_cases hs : slot = s
    · subst hs
      simp [step,txOf,ofTx,htimer]
    · simp [hs,steps,htimer]
  | updTxInfo slot lastAckd lastSent =>
    have htimer := filter_option s TimerReq.slotid (updTxInfo slot lastAckd lastSent).timer slot
      (by
        intro req h
        unfold updTxInfo at h
        split_ifs at h
        simp at h
        rw [← h])
    cases hfin : i.txFinishSig with
    | none => simp [steps]
    | some _ =>
      by_cases hs : slot = s
      · subst hs
        simp [step,txOf,ofTx,htimer]
      · simp [hs,steps,htimer]

lemma timeout_streams : (steps s (view s t) (timeoutEvent s i)).2 =
    { gbnRetransReq := (timeoutStep t i.rtTimeoutSig).toList.filter (·.slotid = s) } := by
  unfold timeoutEvent timeoutStep
  cases i.rtTimeoutSig with
  | none => simp [steps]
  | some slot => by_cases hs : slot = s <;> simp [hs,steps,step,timeoutReq,view]

lemma init_streams (v : View) : (steps s v (initEvent s i)).2 = {} := by
  unfold initEvent
  cases i.initReq with
  | none => rfl
  | some req => by_cases hs : req.slotid = s <;> simp [hs,steps,step]

lemma slot_output : slotOutput s t i = (steps s (view s t) (events s t i)).2 := by
  rw [events,steps_append,steps_append,← after_tx_view,init_streams,append_empty,
    timeout_streams,steps_append,← rx_view,rx_streams,← tx_event_after_rx,tx_streams,
    tx_event_after_rx]
  simp [slotOutput,output,Streams.append,List.filter_append]

end

def tableRun : TableState → List CallIn → TableState
  | t, [] => t
  | t, i::is => tableRun (next t i) is

def runEvents (s : SlotId) : TableState → List CallIn → List Event
  | _, [] => []
  | t, i::is => events s t i++runEvents s (next t i) is

def runOutput (s : SlotId) : TableState → List CallIn → Streams
  | _, [] => {}
  | t, i::is => (slotOutput s t i).append (runOutput s (next t i) is)

lemma run_output (s : SlotId) (t : TableState) (is : List CallIn) :
    runOutput s t is = (steps s (view s t) (runEvents s t is)).2 := by
  induction is generalizing t with
  | nil => rfl
  | cons i is ih => rw [runOutput,runEvents,steps_append,slot_output,ih,next_view]

/-- What a slot does in a run, in its order. -/
def handled (s : SlotId) (is : List CallIn) : List Event :=
  effective s (view s powerUp) (runEvents s powerUp is)

lemma handled_output (s : SlotId) (is : List CallIn) :
    runOutput s powerUp is = (steps s (view s powerUp) (handled s is)).2 := by
  rw [run_output,handled,steps_effective]

end Clio.SlotView
