import Clio.SlotView

/-!
# Slots beside each other

The slots share two machines, so one slot decides when packets of another are read.
-/

namespace Clio.SlotIsolation

open StateTable SlotView

def silence (a : SlotId) (t : TableState) (i : CallIn) : CallIn where
  stateQueryReq :=
    if t.rx = .recvRxReq then i.stateQueryReq.filter (·.gbnHeader.destSlot ≠ a) else none
  checkFullReq := if t.tx = .recvTxReq then i.checkFullReq.filter (· ≠ a) else none
  txFinishSig := if txOf a t.tx = .recvTxReq then i.txFinishSig else none
  rtTimeoutSig := i.rtTimeoutSig.filter (· ≠ a)
  initReq := i.initReq.filter (·.slotid ≠ a)

def silenceRun (a : SlotId) : TableState → List CallIn → List CallIn
  | _, [] => []
  | t, i::is => silence a t i::silenceRun a (next t i) is

def NoInput (a : SlotId) (i : CallIn) : Prop :=
  (∀ query, i.stateQueryReq = some query → query.gbnHeader.destSlot ≠ a) ∧
    i.checkFullReq ≠ some a ∧ i.rtTimeoutSig ≠ some a ∧
    ∀ req, i.initReq = some req → req.slotid ≠ a

def clearRx (a : SlotId) (rx : RxState) : RxState :=
  if rxOf a rx = .recvRxReq then rx else .recvRxReq

def clearTx (a : SlotId) (tx : TxState) : TxState :=
  if txOf a tx = .recvTxReq then tx else .recvTxReq

lemma rx_of_ext {x y : RxState} (h : ∀ s, rxOf s x = rxOf s y) : x = y := by
  cases x with
  | recvRxReq =>
    cases y with
    | recvRxReq => rfl
    | handleData query _ _ | handleAck query _ _ => simpa [rxOf] using h query.gbnHeader.destSlot
  | handleData query _ _ | handleAck query _ _ =>
    have hown := h query.gbnHeader.destSlot
    cases y <;> simp only [rxOf] at hown <;> split_ifs at hown <;> simp_all

lemma tx_of_ext {x y : TxState} (h : ∀ s, txOf s x = txOf s y) : x = y := by
  cases x with
  | recvTxReq =>
    cases y with
    | recvTxReq => rfl
    | replTxReq slot _ | updTxInfo slot _ _ => simpa [txOf] using h slot
  | replTxReq slot _ | updTxInfo slot _ _ =>
    have hown := h slot
    cases y <;> simp only [txOf] at hown <;> split_ifs at hown <;> simp_all

lemma clear_rx_of (a s : SlotId) (rx : RxState) :
    rxOf s (clearRx a rx) = if a = s then .recvRxReq else rxOf s rx := by
  unfold clearRx
  cases rx <;> by_cases hs : a = s <;> simp only [rxOf] <;> split_ifs <;> simp_all

lemma clear_tx_of (a s : SlotId) (tx : TxState) :
    txOf s (clearTx a tx) = if a = s then .recvTxReq else txOf s tx := by
  unfold clearTx
  cases tx <;> by_cases hs : a = s <;> simp only [txOf] <;> split_ifs <;> simp_all

structure Alike (a : SlotId) (t u : TableState) : Prop where
  views : ∀ s, a ≠ s → view s u = view s t
  rx : rxOf a u.rx = .recvRxReq
  tx : txOf a u.tx = .recvTxReq

section

variable {a : SlotId} {t u : TableState} (h : Alike a t u) (i : CallIn)
include h

lemma alike_rx : u.rx = clearRx a t.rx := by
  refine rx_of_ext fun s => ?_
  rw [clear_rx_of]
  split_ifs with hs
  · rw [← hs,h.rx]
  · exact congrArg View.rx (h.views s hs)

lemma alike_tx : u.tx = clearTx a t.tx := by
  refine tx_of_ext fun s => ?_
  rw [clear_tx_of]
  split_ifs with hs
  · rw [← hs,h.tx]
  · exact congrArg View.tx (h.views s hs)

lemma silence_rx_event (s : SlotId) :
    rxEvent s u (silence a t i) = if a = s then [] else rxEvent s t i := by
  unfold rxEvent silence
  rw [alike_rx h]
  cases hrx : t.rx with
  | recvRxReq =>
    cases hq : i.stateQueryReq with
    | none => simp [clearRx,rxOf]
    | some query =>
      by_cases hs : a = s <;> by_cases ha : query.gbnHeader.destSlot = a <;>
        simp_all [clearRx,rxOf,Option.filter]
  | handleData query expt countdown | handleAck query lastAckd lastSent =>
    by_cases hs : a = s <;> by_cases ha : query.gbnHeader.destSlot = a <;>
      simp_all [clearRx,rxOf]

lemma silence_tx_event (s : SlotId) :
    txEvent s u (silence a t i) = if a = s then [] else txEvent s t i := by
  unfold txEvent silence
  rw [alike_tx h]
  cases htx : t.tx with
  | recvTxReq =>
    cases hq : i.checkFullReq with
    | none => simp [clearTx,txOf]
    | some slot =>
      by_cases hs : a = s <;> by_cases ha : slot = a <;>
        simp_all [clearTx,txOf,Option.filter]
  | replTxReq slot lastSent | updTxInfo slot lastAckd lastSent =>
    by_cases hs : a = s <;> by_cases ha : slot = a <;> simp_all [clearTx,txOf]

lemma silence_events (s : SlotId) :
    events s u (silence a t i) = if a = s then [] else events s t i := by
  have htimeout : timeoutEvent s (silence a t i) = if a = s then [] else timeoutEvent s i := by
    unfold timeoutEvent silence
    cases i.rtTimeoutSig with
    | none => simp
    | some slot => by_cases hs : a = s <;> by_cases ha : slot = a <;> simp_all [Option.filter]
  have hinit : initEvent s (silence a t i) = if a = s then [] else initEvent s i := by
    unfold initEvent silence
    cases i.initReq with
    | none => simp
    | some req =>
      by_cases hs : a = s <;> by_cases ha : req.slotid = a <;> simp_all [Option.filter]
  rw [events,silence_rx_event h,silence_tx_event h,htimeout,hinit]
  split_ifs <;> simp [events]

lemma alike_next : Alike a (next t i) (next u (silence a t i)) := by
  have hown : view a (next u (silence a t i)) = view a u := by
    rw [next_view,silence_events h,if_pos rfl]
    rfl
  refine ⟨fun s hs => ?_,?_,?_⟩
  · rw [next_view,next_view,silence_events h,if_neg hs,h.views s hs]
  · rw [← h.rx]
    exact congrArg View.rx hown
  · rw [← h.tx]
    exact congrArg View.tx hown

end

lemma silence_run_output {a s : SlotId} (hs : a ≠ s) {t u : TableState} (h : Alike a t u)
    (is : List CallIn) : runOutput s u (silenceRun a t is) = runOutput s t is := by
  induction is generalizing t u with
  | nil => rfl
  | cons i is ih =>
    rw [silenceRun,runOutput,runOutput,slot_output,slot_output,silence_events h,if_neg hs,
      h.views s hs,ih (alike_next h i)]

lemma silence_no_input (a : SlotId) (t : TableState) (is : List CallIn) :
    ∀ i ∈ silenceRun a t is, NoInput a i := by
  induction is generalizing t with
  | nil => exact fun _ hi => absurd hi (List.not_mem_nil)
  | cons i is ih =>
    intro j hj
    obtain rfl | hj := List.mem_cons.mp hj
    · refine ⟨fun query hq => ?_,fun hq => ?_,fun hq => ?_,fun req hq => ?_⟩
      · simp only [silence] at hq
        split_ifs at hq
        simpa using (Option.filter_eq_some_iff.mp hq).2
      · simp only [silence] at hq
        split_ifs at hq
        simpa using (Option.filter_eq_some_iff.mp hq).2
      · simpa using (Option.filter_eq_some_iff.mp hq).2
      · simpa using (Option.filter_eq_some_iff.mp hq).2
    · exact ih (next t i) j hj

/-- The five input streams; the finish signal has the slot whose packet was sent. -/
structure Arrived where
  stateQueryReq : List QueryReq := []
  checkFullReq : List SlotId := []
  txFinishSig : List SlotId := []
  rtTimeoutSig : List SlotId := []
  initReq : List ConnMgmtReq := []

def Arrived.append (x y : Arrived) : Arrived :=
  ⟨x.stateQueryReq++y.stateQueryReq, x.checkFullReq++y.checkFullReq,
    x.txFinishSig++y.txFinishSig, x.rtTimeoutSig++y.rtTimeoutSig, x.initReq++y.initReq⟩

def Arrived.offered (q : Arrived) : CallIn :=
  ⟨q.stateQueryReq.head?, q.checkFullReq.head?, q.txFinishSig.head?.map fun _ => true,
    q.rtTimeoutSig.head?, q.initReq.head?⟩

/-- A machine reads its stream only in the state that waits for it. -/
def Arrived.rest (q : Arrived) (t : TableState) : Arrived where
  stateQueryReq := if t.rx = .recvRxReq then q.stateQueryReq.tail else q.stateQueryReq
  checkFullReq := if t.tx = .recvTxReq then q.checkFullReq.tail else q.checkFullReq
  txFinishSig :=
    match t.tx with
    | .updTxInfo _ _ _ => q.txFinishSig.tail
    | _ => q.txFinishSig
  rtTimeoutSig := q.rtTimeoutSig.tail
  initReq := q.initReq.tail

/-- The calls of a run in which the inputs arrive before the calls given. -/
def feed : TableState → Arrived → List Arrived → List CallIn
  | _, _, [] => []
  | t, q, arrived::later =>
      let q := q.append arrived
      q.offered::feed (next t q.offered) (q.rest t) later

def Arrived.without (a : SlotId) (q : Arrived) : Arrived :=
  ⟨q.stateQueryReq.filter (·.gbnHeader.destSlot ≠ a), q.checkFullReq.filter (· ≠ a),
    q.txFinishSig.filter (· ≠ a), q.rtTimeoutSig.filter (· ≠ a), q.initReq.filter (·.slotid ≠ a)⟩

def opening (slot : SlotId) : Arrived := { initReq := [⟨slot,.openSession⟩] }

def packet (pktType : GbnPktType) (slot : SlotId) : QueryReq := ⟨⟨pktType,1,9,slot⟩,0,0⟩

/-- A request of slot 2 and an acknowledgement arrive together, behind a packet of slot 1. -/
def race : List Arrived :=
  [opening 1,opening 2,{ checkFullReq := [2] },{},{ txFinishSig := [2] },
    { checkFullReq := [2], stateQueryReq := [packet .data 1,packet .ack 2] },{},
    { txFinishSig := [2] },{}]

/-- Both slots send, and the acknowledgement of slot 2 comes behind packets of slot 1. -/
def shared : List Arrived :=
  [opening 1,opening 2,{ checkFullReq := [1,2], txFinishSig := [1,2] },{},{},{},{},
    { stateQueryReq := [packet .data 1,packet .ack 1,packet .ack 2] },{},{},{},{},
    { rtTimeoutSig := [1,2] },{}]

end Clio.SlotIsolation
