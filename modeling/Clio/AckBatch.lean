import Clio.SequenceWrap

/-!
# Delayed acknowledgements

The receiver acknowledges a packet and then only every so many packets, counted down in the session.
-/

namespace Clio.AckBatch

open Function StateTable SessionSetup SenderWindow Machine
open Option (bind_some)
open BitVec (ofNat ofNat_add toNat_ofNat)
open Prod (fst)
open SequenceWrap (setsUp)

/-! ## The receiving side of a slot -/

def rcvPart (ses : Session) : Seqnum × Bool × BitVec 8 :=
  (ses.expectedSeqnum,ses.ackEnable,ses.ackCountdown)

/-- The data packet of the slot that the receive machine holds, with what was latched. -/
def held (d : SlotId) (t : TableState) : Option (QueryReq × Seqnum × BitVec 8) :=
  match t.rx with
  | .handleData query expt countdown =>
      if query.gbnHeader.destSlot = d then some (query,expt,countdown) else none
  | _ => none

section

variable {batch : BitVec 8} {t : TableState} {i : CallIn} {d : SlotId}

lemma tx_part (t : TableState) (req : Option SlotId) (fin : Option Bool) (d : SlotId) :
    rcvPart ((txStep t req fin).1.session d) = rcvPart (t.session d) ∧
      ((txStep t req fin).1.session d).lastAckdSeqnum = (t.session d).lastAckdSeqnum ∧
      (txStep t req fin).1.rx = t.rx := by
  unfold txStep
  cases htx : t.tx with
  | recvTxReq => cases req <;> exact ⟨rfl,rfl,rfl⟩
  | updTxInfo slot la ls => cases fin <;> exact ⟨rfl,rfl,rfl⟩
  | replTxReq slot ls =>
    simp only [replTxReq]
    by_cases hd : d = slot
    · subst hd
      split_ifs <;> simp [rcvPart,setSession]
    · split_ifs <;> simp [rcvPart,setSession,hd]

lemma init_kept (t : TableState) (h : setsUp d i = false) :
    (initStep t i.initReq).session d = t.session d := by
  unfold initStep
  cases hreq : i.initReq with
  | none => rfl
  | some req =>
    have hne : req.slotid ≠ d := by simpa [setsUp,hreq] using h
    simp [setSession,Ne.symm hne]

lemma init_rx (t : TableState) (req : Option ConnMgmtReq) : (initStep t req).rx = t.rx := by
  cases req <;> rfl

lemma next_rx : (next t i batch).rx = (afterRx t i batch).rx := by
  rw [StateTable.next,afterTx,init_rx,(tx_part _ _ _ 0).2.2]

lemma next_part (h : setsUp d i = false) :
    rcvPart ((next t i batch).session d) = rcvPart ((afterRx t i batch).session d) ∧
      ((next t i batch).session d).lastAckdSeqnum =
        ((afterRx t i batch).session d).lastAckdSeqnum := by
  obtain ⟨hpart,hacked,-⟩ := tx_part (afterRx t i batch) i.checkFullReq i.txFinishSig d
  rw [StateTable.next,afterTx,init_kept _ h]
  exact ⟨hpart,hacked⟩

lemma ack_part (query : QueryReq) (lastAckd lastSent : Seqnum) (ses : Session) :
    rcvPart (handleAck query lastAckd lastSent ses).1 = rcvPart ses := by
  unfold handleAck
  dsimp only
  split_ifs <;> rfl

lemma part_kept (batch : BitVec 8) (h : setsUp d i = false) (hheld : held d t = none) :
    rcvPart ((next t i batch).session d) = rcvPart (t.session d) := by
  rw [(next_part h).1]
  unfold held at hheld
  unfold afterRx rxStep
  cases hrx : t.rx with
  | recvRxReq => cases i.stateQueryReq <;> rfl
  | handleData query expt countdown =>
    have hne : query.gbnHeader.destSlot ≠ d := by simpa [hrx] using hheld
    simp [setSession,Ne.symm hne]
  | handleAck query lastAckd lastSent =>
    by_cases hd : d = query.gbnHeader.destSlot
    · subst hd
      simp [setSession,ack_part]
    · simp [setSession,hd]

lemma held_rx {query : QueryReq} {expt : Seqnum} {countdown : BitVec 8}
    (h : held d t = some (query,expt,countdown)) :
    t.rx = .handleData query expt countdown ∧ query.gbnHeader.destSlot = d := by
  unfold held at h
  cases hrx : t.rx with
  | recvRxReq | handleAck q la ls => simp [hrx] at h
  | handleData q e c =>
    simp only [hrx] at h
    split_ifs at h with hd
    cases h
    exact ⟨rfl,hd⟩

lemma part_handled (batch : BitVec 8) (h : setsUp d i = false) {query : QueryReq} {expt : Seqnum}
    {countdown : BitVec 8} (hheld : held d t = some (query,expt,countdown)) :
    rcvPart ((next t i batch).session d) =
        rcvPart (handleData query expt countdown (t.session d) batch).1 ∧
      (rxStep t i.stateQueryReq batch).2 =
        (handleData query expt countdown (t.session d) batch).2 ∧
      (next t i batch).rx = .recvRxReq := by
  obtain ⟨hrx,rfl⟩ := held_rx hheld
  rw [(next_part h).1,next_rx]
  simp [afterRx,rxStep,hrx,setSession]

lemma held_next {query : QueryReq} {expt : Seqnum} {countdown : BitVec 8}
    (h : held d (next t i batch) = some (query,expt,countdown)) :
    t.rx = .recvRxReq ∧ query ∈ reads t i ∧ DataFor d query ∧
      expt = (t.session d).expectedSeqnum ∧ countdown = (t.session d).ackCountdown := by
  obtain ⟨hrx,hdest⟩ := held_rx h
  rw [next_rx] at hrx
  unfold afterRx rxStep at hrx
  cases ht : t.rx with
  | handleData q e c | handleAck q la ls => simp [ht] at hrx
  | recvRxReq =>
    rw [ht] at hrx
    cases hreq : i.stateQueryReq with
    | none => simp [hreq,ht] at hrx
    | some q =>
      simp only [hreq,recvRxReq] at hrx
      split_ifs at hrx with hb hses
      split at hrx
      · next hty =>
        simp only [RxState.handleData.injEq] at hrx
        obtain ⟨rfl,hexpt,hcount⟩ := hrx
        subst hdest
        exact ⟨rfl,by simp [reads,ht,hreq],⟨hty,rfl,((in_session_iff _).mp hses).2⟩,
          hexpt.symm,hcount.symm⟩
      · cases hrx
      · cases hrx
      · cases hrx

lemma read_then_handle (batch : BitVec 8) (t : TableState) (query : QueryReq) (i j : CallIn)
    (hidle : t.rx = .recvRxReq) (hreq : i.stateQueryReq = some query)
    (hdirect : query.broadcast = false) (hses : query.gbnHeader.inSession = true)
    (hty : query.gbnHeader.pktType = .data) :
    (next t i batch).rx = .handleData query
        (t.session query.gbnHeader.destSlot).expectedSeqnum
        (t.session query.gbnHeader.destSlot).ackCountdown ∧
      (rxStep (next t i batch) j.stateQueryReq batch).2 =
        (handleData query
          (t.session query.gbnHeader.destSlot).expectedSeqnum
          (t.session query.gbnHeader.destSlot).ackCountdown
          ((next t i batch).session query.gbnHeader.destSlot) batch).2 := by
  have hrx : (next t i batch).rx = .handleData query
      (t.session query.gbnHeader.destSlot).expectedSeqnum
      (t.session query.gbnHeader.destSlot).ackCountdown := by
    rw [next_rx]
    simp [afterRx,rxStep,hidle,hreq,recvRxReq,hdirect,hses,hty]
  refine ⟨hrx,?_⟩
  unfold rxStep
  rw [hrx]

end

structure Rcv where
  table : TableState
  accepted : ℕ
  answers : List GbnHeader

def callRcv (batch : BitVec 8) (d : SlotId) (r : Rcv) (i : CallIn) : Rcv :=
  let out := (rxStep r.table i.stateQueryReq batch).2
  { table := next r.table i batch
    accepted := if (held d r.table).isSome ∧ out.queryRsp = some true then r.accepted+1
      else r.accepted
    answers := r.answers++
      if (held d r.table).isSome then out.rsp.toList.map Prod.snd else [] }

def bootRcv (batch : BitVec 8) (d : SlotId) : Rcv := ⟨next powerUp (openCall d) batch,0,[]⟩

structure RcvInv (batch : BitVec 8) (d : SlotId) (r : Rcv) : Prop where
  expected : (r.table.session d).expectedSeqnum = BitVec.ofNat 32 (r.accepted+1)
  latched : ∀ query expt countdown, held d r.table = some (query,expt,countdown) →
    expt = (r.table.session d).expectedSeqnum ∧ countdown = (r.table.session d).ackCountdown
  acked : (r.accepted = 0 ∧ (r.table.session d).ackCountdown = 0) ∨
    ∃ k, 1 ≤ k ∧ k ≤ r.accepted ∧
      r.accepted+(r.table.session d).ackCountdown.toNat = k+batch.toNat ∧
      ∃ a ∈ r.answers, a.pktType = .ack ∧ a.seqnum = BitVec.ofNat 32 k

section

variable {batch : BitVec 8} {d : SlotId} {r : Rcv} {i : CallIn}

lemma boot_rcv (batch : BitVec 8) (d : SlotId) : RcvInv batch d (bootRcv batch d) := by
  have hses : (bootRcv batch d).table.session d = initSession := by
    simp [bootRcv,StateTable.next,afterTx,openCall,initStep,setSession,setState]
  refine ⟨by rw [hses]; rfl,?_,.inl ⟨rfl,by rw [hses]; rfl⟩⟩
  intro query expt countdown h
  cases h

lemma latched_next (h : setsUp d i = false) (hheld : held d r.table = none)
    {query : QueryReq} {expt : Seqnum} {countdown : BitVec 8}
    (hnext : held d (callRcv batch d r i).table = some (query,expt,countdown)) :
    expt = ((callRcv batch d r i).table.session d).expectedSeqnum ∧
      countdown = ((callRcv batch d r i).table.session d).ackCountdown := by
  obtain ⟨-,-,-,hexpt,hcount⟩ := held_next hnext
  have hpart := part_kept batch h hheld
  rw [hexpt,hcount]
  exact ⟨(congrArg fst hpart).symm,(congrArg (fun x => x.2.2) hpart).symm⟩

lemma idle_rcv (h : setsUp d i = false) (hheld : held d r.table = none)
    (hr : RcvInv batch d r) : RcvInv batch d (callRcv batch d r i) ∧
      (callRcv batch d r i).accepted = r.accepted ∧
      ((callRcv batch d r i).table.session d).ackEnable = (r.table.session d).ackEnable := by
  have hpart := part_kept batch h hheld
  have hexpt : ((callRcv batch d r i).table.session d).expectedSeqnum =
      (r.table.session d).expectedSeqnum := congrArg fst hpart
  have hcount : ((callRcv batch d r i).table.session d).ackCountdown =
      (r.table.session d).ackCountdown := congrArg (fun x => x.2.2) hpart
  have haccepted : (callRcv batch d r i).accepted = r.accepted := by simp [callRcv,hheld]
  have hanswers : (callRcv batch d r i).answers = r.answers := by simp [callRcv,hheld]
  refine ⟨⟨?_,fun q e c hq => latched_next h hheld hq,?_⟩,haccepted,congrArg (fun x => x.2.1) hpart⟩
  · rw [hexpt,haccepted]
    exact hr.expected
  · rw [hcount,haccepted,hanswers]
    exact hr.acked

section

variable (h : setsUp d i = false) {query : QueryReq} {expt : Seqnum} {countdown : BitVec 8}
  (hheld : held d r.table = some (query,expt,countdown))
include h query expt countdown hheld

lemma accept_rcv (hseq : query.gbnHeader.seqnum = expt) (hr : RcvInv batch d r) :
    RcvInv batch d (callRcv batch d r i) ∧ (callRcv batch d r i).accepted = r.accepted+1 ∧
      ((callRcv batch d r i).table.session d).ackEnable = true := by
  obtain ⟨hpart,hout,hidle⟩ := part_handled batch h hheld
  obtain ⟨hexpt,hcount⟩ := hr.latched query expt countdown hheld
  have hfree : held d (callRcv batch d r i).table = none := by
    show held d (next r.table i batch) = none
    simp [held,hidle]
  have hnumber : expt+1 = ofNat 32 (r.accepted+1+1) := by
    rw [hexpt,hr.expected,ofNat_add (r.accepted+1)]
    rfl
  by_cases hzero : countdown = 0
  · have hnext : handleData query expt countdown (r.table.session d) batch =
        ({ r.table.session d with expectedSeqnum := expt+1, ackEnable := true,
                                  ackCountdown := batch },
          { rsp := some (rspPacket query .ack expt), queryRsp := some true }) := by
      simp only [handleData,hseq,hzero,if_true]
    rw [hnext] at hpart hout
    have haccepted : (callRcv batch d r i).accepted = r.accepted+1 := by
      simp [callRcv,hheld,hout]
    have hanswers : (callRcv batch d r i).answers = r.answers++[(rspPacket query .ack expt).2] := by
      simp [callRcv,hheld,hout]
    refine ⟨⟨?_,fun q e c hq => ?_,.inr ⟨r.accepted+1,by omega,?_,?_,
      (rspPacket query .ack expt).2,?_,rfl,?_⟩⟩,haccepted,congrArg (fun x => x.2.1) hpart⟩
    · rw [haccepted]
      exact (congrArg fst hpart).trans hnumber
    · rw [hfree] at hq
      cases hq
    · rw [haccepted]
    · have hcount' : ((callRcv batch d r i).table.session d).ackCountdown = batch :=
        congrArg (fun x => x.2.2) hpart
      rw [haccepted,hcount']
    · rw [hanswers]
      simp
    · exact hexpt.trans hr.expected
  · have hnext : handleData query expt countdown (r.table.session d) batch =
        ({ r.table.session d with expectedSeqnum := expt+1, ackEnable := true,
                                  ackCountdown := countdown-1 },{ queryRsp := some true }) := by
      simp only [handleData,hseq,hzero,if_true,if_false]
    rw [hnext] at hpart hout
    have haccepted : (callRcv batch d r i).accepted = r.accepted+1 := by
      simp [callRcv,hheld,hout]
    have hanswers : (callRcv batch d r i).answers = r.answers := by
      simp [callRcv,hheld,hout]
    have hcount' : ((callRcv batch d r i).table.session d).ackCountdown = countdown-1 :=
      congrArg (fun x => x.2.2) hpart
    refine ⟨⟨?_,fun q e c hq => ?_,?_⟩,haccepted,congrArg (fun x => x.2.1) hpart⟩
    · rw [haccepted]
      exact (congrArg fst hpart).trans hnumber
    · rw [hfree] at hq
      cases hq
    · rcases hr.acked with ⟨-,hstart⟩ | ⟨k,hpos,hle,hsum,hack⟩
      · exact absurd (hcount.trans hstart) hzero
      · refine .inr ⟨k,hpos,by omega,?_,by rw [hanswers]; exact hack⟩
        rw [haccepted,hcount']
        rw [← hcount] at hsum
        have hne : countdown.toNat ≠ 0 := fun h0 => hzero (BitVec.eq_of_toNat_eq h0)
        have hpred : (countdown-1).toNat = countdown.toNat-1 := by
          rw [BitVec.toNat_sub]
          have hlt := countdown.isLt
          show (2^8-1+countdown.toNat)%2^8 = countdown.toNat-1
          omega
        omega

lemma refuse_rcv (hseq : query.gbnHeader.seqnum ≠ expt) (hr : RcvInv batch d r) :
    RcvInv batch d (callRcv batch d r i) ∧ (callRcv batch d r i).accepted = r.accepted ∧
      (((callRcv batch d r i).table.session d).ackEnable = (r.table.session d).ackEnable ∨
        expt < query.gbnHeader.seqnum) := by
  obtain ⟨hpart,hout,hidle⟩ := part_handled batch h hheld
  have hfree : held d (callRcv batch d r i).table = none := by
    show held d (next r.table i batch) = none
    simp [held,hidle]
  have hfacts : (handleData query expt countdown (r.table.session d) batch).1.expectedSeqnum =
        (r.table.session d).expectedSeqnum ∧
      (handleData query expt countdown (r.table.session d) batch).1.ackCountdown =
        (r.table.session d).ackCountdown ∧
      (handleData query expt countdown (r.table.session d) batch).2.queryRsp = some false ∧
      ((handleData query expt countdown (r.table.session d) batch).1.ackEnable =
        (r.table.session d).ackEnable ∨ expt < query.gbnHeader.seqnum) := by
    simp only [handleData,if_neg hseq]
    by_cases hen : (r.table.session d).ackEnable = true
    · by_cases hlt : expt < query.gbnHeader.seqnum
      · simp [hen,hlt]
      · simp [hen,hlt]
    · simp [hen]
  obtain ⟨hexpt,hcount,hrsp,hflag⟩ := hfacts
  have haccepted : (callRcv batch d r i).accepted = r.accepted := by
    simp [callRcv,hheld,hout,hrsp]
  have hsub : ∀ a ∈ r.answers, a ∈ (callRcv batch d r i).answers :=
    fun a ha => List.mem_append_left _ ha
  have hexpt' : ((callRcv batch d r i).table.session d).expectedSeqnum =
      (r.table.session d).expectedSeqnum := (congrArg fst hpart).trans hexpt
  have hcount' : ((callRcv batch d r i).table.session d).ackCountdown =
      (r.table.session d).ackCountdown := (congrArg (fun x => x.2.2) hpart).trans hcount
  have hflag' : ((callRcv batch d r i).table.session d).ackEnable =
      (handleData query expt countdown (r.table.session d) batch).1.ackEnable :=
    congrArg (fun x => x.2.1) hpart
  refine ⟨⟨?_,fun q e c hq => ?_,?_⟩,haccepted,by rw [hflag']; exact hflag⟩
  · rw [hexpt',haccepted]
    exact hr.expected
  · rw [hfree] at hq
    cases hq
  · rw [hcount',haccepted]
    rcases hr.acked with hstart | ⟨k,hpos,hle,hsum,a,ha,hack⟩
    · exact .inl hstart
    · exact .inr ⟨k,hpos,hle,hsum,a,hsub a ha,hack⟩

end

lemma rcv_inv (h : setsUp d i = false) (hr : RcvInv batch d r) :
    RcvInv batch d (callRcv batch d r i) := by
  cases hheld : held d r.table with
  | none => exact (idle_rcv h hheld hr).1
  | some x =>
    obtain ⟨query,expt,countdown⟩ := x
    by_cases hseq : query.gbnHeader.seqnum = expt
    · exact (accept_rcv h hheld hseq hr).1
    · exact (refuse_rcv h hheld hseq hr).1

lemma recent_ack (hr : RcvInv batch d r) (hpos : 0 < r.accepted) :
    ∃ k, 1 ≤ k ∧ k ≤ r.accepted ∧ r.accepted ≤ k+batch.toNat ∧
      ∃ a ∈ r.answers, a.pktType = .ack ∧ a.seqnum = ofNat 32 k := by
  rcases hr.acked with ⟨hzero,-⟩ | ⟨k,hk,hle,hsum,hack⟩
  · omega
  · exact ⟨k,hk,hle,by omega,hack⟩

end

/-! ## A full window -/

/-- The numbers a call hands out to the slot. -/
def numbered (batch : BitVec 8) (s : SlotId) (t : TableState) (i : CallIn) : List Seqnum :=
  match t.tx with
  | .replTxReq slot _ =>
      if slot = s then
        (txStep (afterRx t i batch) i.checkFullReq i.txFinishSig).2.checkFullRsp.toList
      else []
  | _ => []

def heldAck (s : SlotId) (t : TableState) : List GbnHeader :=
  match t.rx with
  | .handleAck query _ _ => if query.gbnHeader.destSlot = s then [query.gbnHeader] else []
  | _ => []

/-- Both ends of a session; `wire` are the numbers handed out, `handled` the answers handled. -/
structure Net where
  sender : TableState
  rcv : Rcv
  wire : List Seqnum
  handled : List GbnHeader

inductive Action where
  | sender (i : CallIn)
  | receiver (i : CallIn)
  deriving DecidableEq, Repr

/-- Packets and answers are lost, copied and reordered, but not made up. -/
def exec (batch : BitVec 8) (s d : SlotId) (m : Net) : Action → Option Net
  | .sender i =>
      if setsUp s i = false ∧ ∀ query ∈ reads m.sender i, AckFor s query →
          query.gbnHeader ∈ m.rcv.answers then
        some { m with sender := next m.sender i batch
                      wire := m.wire++numbered batch s m.sender i
                      handled := m.handled++heldAck s m.sender }
      else none
  | .receiver i =>
      if setsUp d i = false ∧ ∀ query ∈ reads m.rcv.table i, DataFor d query →
          ∃ n ∈ m.wire, query.gbnHeader = ⟨.data,n,s,d⟩ then
        some { m with rcv := callRcv batch d m.rcv i }
      else none

def boot (batch : BitVec 8) (s d : SlotId) : Net :=
  ⟨next powerUp (openCall s) batch,bootRcv batch d,[],[]⟩

structure Counted (s : SlotId) (m : Net) : Prop where
  latched : ∀ query lastAckd lastSent, m.sender.rx = .handleAck query lastAckd lastSent →
    query.gbnHeader.destSlot = s → lastAckd = (m.sender.session s).lastAckdSeqnum
  handled : ∀ a ∈ m.handled, a.seqnum ≤ (m.sender.session s).lastAckdSeqnum

section

variable {batch : BitVec 8} {s : SlotId} {t : TableState} {i : CallIn}

lemma acked_after (h : setsUp s i = false) :
    ((next t i batch).session s).lastAckdSeqnum =
      ((afterRx t i batch).session s).lastAckdSeqnum := (next_part h).2

lemma acked_next (batch : BitVec 8) (h : setsUp s i = false)
    (hlatch : ∀ query lastAckd lastSent, t.rx = .handleAck query lastAckd lastSent →
      query.gbnHeader.destSlot = s → lastAckd = (t.session s).lastAckdSeqnum) :
    (t.session s).lastAckdSeqnum ≤ ((next t i batch).session s).lastAckdSeqnum ∧
      ∀ a ∈ heldAck s t, a.seqnum ≤ ((next t i batch).session s).lastAckdSeqnum := by
  rw [acked_after h]
  unfold heldAck afterRx rxStep
  cases hrx : t.rx with
  | recvRxReq => cases i.stateQueryReq <;> exact ⟨BitVec.le_refl _,fun _ ha => by cases ha⟩
  | handleData query expt countdown =>
    refine ⟨?_,fun _ ha => by cases ha⟩
    by_cases hs : s = query.gbnHeader.destSlot
    · subst hs
      simp only [setSession,update_self,data_counters]
      exact BitVec.le_refl _
    · simp only [setSession,update_of_ne hs]
      exact BitVec.le_refl _
  | handleAck query lastAckd lastSent =>
    by_cases hs : s = query.gbnHeader.destSlot
    · subst hs
      obtain rfl := hlatch query lastAckd lastSent hrx rfl
      simp only [setSession,update_self,ack_counters,if_true,List.mem_singleton, forall_eq]
      split_ifs with hlt
      · exact ⟨Nat.le_of_lt hlt,BitVec.le_refl _⟩
      · exact ⟨BitVec.le_refl _,Nat.not_lt.mp hlt⟩
    · simp only [setSession,update_of_ne hs,if_neg (Ne.symm hs)]
      exact ⟨BitVec.le_refl _,fun _ ha => by cases ha⟩

lemma latch_next (h : setsUp s i = false) (query : QueryReq) (lastAckd lastSent : Seqnum)
    (hrx : (next t i batch).rx = .handleAck query lastAckd lastSent)
    (hdest : query.gbnHeader.destSlot = s) :
    lastAckd = ((next t i batch).session s).lastAckdSeqnum := by
  rw [acked_after h]
  rw [next_rx] at hrx
  unfold afterRx rxStep at hrx ⊢
  cases ht : t.rx with
  | handleData q e c | handleAck q la ls => simp [ht] at hrx
  | recvRxReq =>
    rw [ht] at hrx
    cases hreq : i.stateQueryReq with
    | none => simp [hreq,ht] at hrx
    | some q =>
      rw [hreq] at hrx
      obtain ⟨rfl,hla,-⟩ :=
        recv_latch q (t.session q.gbnHeader.destSlot) query lastAckd lastSent hrx
      rw [← hdest]
      exact hla

end

structure Inv (batch : BitVec 8) (s d : SlotId) (m : Net) : Prop where
  rcv : RcvInv batch d m.rcv
  counted : Counted s m

lemma exec_inv (batch : BitVec 8) (s d : SlotId) (m : Net) (act : Action) (n : Net)
    (hm : Inv batch s d m) (hexec : exec batch s d m act = some n) : Inv batch s d n := by
  cases act with
  | sender i =>
    simp only [exec] at hexec
    split_ifs at hexec with hok
    cases hexec
    obtain ⟨hgrows,hheld⟩ := acked_next (i := i) batch hok.1 hm.counted.latched
    refine ⟨hm.rcv,fun query la ls hrx hdest => latch_next hok.1 query la ls hrx hdest,?_⟩
    intro a ha
    rcases List.mem_append.mp ha with ha | ha
    · exact BitVec.le_trans (hm.counted.handled a ha) hgrows
    · exact hheld a ha
  | receiver i =>
    simp only [exec] at hexec
    split_ifs at hexec with hok
    cases hexec
    exact ⟨rcv_inv hok.1 hm.rcv,⟨hm.counted.latched,hm.counted.handled⟩⟩

lemma boot_inv (batch : BitVec 8) (s d : SlotId) : Inv batch s d (boot batch s d) := by
  refine ⟨boot_rcv batch d,⟨?_,?_⟩⟩
  · intro query la ls hrx
    cases hrx
  · intro a ha
    cases ha

/-- With a full window, all of it accepted, a new ACK is on its way to the sender. -/
theorem full_window_acknowledged (batch : BitVec 8) (hbatch : batch.toNat < windowSize)
    (s d : SlotId) (acts : List Action) (m : Net)
    (hrun : run (exec batch s d) acts (boot batch s d) = some m)
    (hfull : (m.sender.session s).lastSentSeqnum.toNat =
      (m.sender.session s).lastAckdSeqnum.toNat+windowSize)
    (hall : (m.rcv.table.session d).expectedSeqnum = (m.sender.session s).lastSentSeqnum+1) :
    ∃ a ∈ m.rcv.answers, a.pktType = .ack ∧ (m.sender.session s).lastAckdSeqnum < a.seqnum ∧
      a ∉ m.handled := by
  have hinv : Inv batch s d m := run_preserves (exec batch s d) (Inv batch s d)
    (exec_inv batch s d) acts _ m (boot_inv batch s d) hrun
  -- the accepted packets and the last number agree modulo 2^32
  have hcount : m.rcv.accepted%2^32 = (m.sender.session s).lastSentSeqnum.toNat := by
    have hexpt := hinv.rcv.expected.symm.trans hall
    rw [ofNat_add] at hexpt
    have hlast := add_right_cancel (b := (1 : Seqnum)) hexpt
    rw [← hlast,toNat_ofNat]
  have hlt := (m.sender.session s).lastSentSeqnum.isLt
  rw [windowSize] at hfull hbatch
  obtain ⟨k,hk,hle,hnear,a,ha,hack,hseq⟩ := recent_ack hinv.rcv (by omega)
  have hlarger : (m.sender.session s).lastAckdSeqnum < a.seqnum := by
    rw [BitVec.lt_def,hseq,toNat_ofNat]
    omega
  refine ⟨a,ha,hack,hlarger,fun hhandled => ?_⟩
  exact absurd hlarger (Nat.not_lt.mpr (hinv.counted.handled a hhandled))

/-! A run that fills the window: packet after packet is sent and accepted, and no answer comes
back. -/

section

variable {batch : BitVec 8} {s d : SlotId}

lemma read_rcv (hs : s ≠ 0) (hd : d ≠ 0) (r : Rcv) (hidle : r.table.rx = .recvRxReq)
    (seq : Seqnum) (hr : RcvInv batch d r) :
    RcvInv batch d (callRcv batch d r (queryCall (dataQuery seq s d))) ∧
      (callRcv batch d r (queryCall (dataQuery seq s d))).accepted = r.accepted ∧
      ((callRcv batch d r (queryCall (dataQuery seq s d))).table.session d).ackEnable =
        (r.table.session d).ackEnable ∧
      held d (callRcv batch d r (queryCall (dataQuery seq s d))).table =
        some (dataQuery seq s d,(r.table.session d).expectedSeqnum,
          (r.table.session d).ackCountdown) := by
  have hnone : held d r.table = none := by simp [held,hidle]
  obtain ⟨hinv,haccepted,hflag⟩ := idle_rcv (i := queryCall (dataQuery seq s d)) rfl hnone hr
  refine ⟨hinv,haccepted,hflag,?_⟩
  obtain ⟨hrx,-⟩ := read_then_handle batch r.table (dataQuery seq s d)
    (queryCall (dataQuery seq s d)) {} hidle rfl rfl ((in_session_iff _).mpr ⟨hd,hs⟩) rfl
  show held d (next r.table (queryCall (dataQuery seq s d)) batch) = _
  unfold held
  rw [hrx]
  exact if_pos rfl

lemma round_rcv (hs : s ≠ 0) (hd : d ≠ 0) (r : Rcv) (hidle : r.table.rx = .recvRxReq)
    (hr : RcvInv batch d r) :
    let q := dataQuery (ofNat 32 (r.accepted+1)) s d
    let r' := callRcv batch d (callRcv batch d r (queryCall q)) {}
    RcvInv batch d r' ∧ r'.accepted = r.accepted+1 ∧ r'.table.rx = .recvRxReq ∧
      (r'.table.session d).ackEnable = true := by
  intro q r'
  obtain ⟨hinv,haccepted,-,hheld⟩ := read_rcv hs hd r hidle (ofNat 32 (r.accepted+1)) hr
  obtain ⟨hinv',haccepted',hflag⟩ := accept_rcv (i := {}) rfl hheld hr.expected.symm hinv
  obtain ⟨-,-,hrx⟩ := part_handled batch (i := {}) rfl hheld
  exact ⟨hinv',haccepted'.trans (by rw [haccepted]),hrx,hflag⟩

lemma reads_empty (t : TableState) : reads t {} = none := ite_self none

lemma number_packet (batch : BitVec 8) (d : SlotId) (f : SlotId → Session) (r : Rcv)
    (wire : List Seqnum)
    (handled : List GbnHeader)
    (hopen : windowOpen (f s).lastAckdSeqnum (f s).lastSentSeqnum = true) :
    run (exec batch s d) [.sender (requestCall s),.sender {},.sender { txFinishSig := some true }]
        ⟨⟨.recvRxReq,.recvTxReq,f⟩,r,wire,handled⟩ =
      some ⟨⟨.recvRxReq,.recvTxReq,
        update f s { f s with lastSentSeqnum := (f s).lastSentSeqnum+1 }⟩,r,
        wire++[(f s).lastSentSeqnum+1],handled⟩ := by
  have hquiet : ∀ (t : TableState) (i : CallIn), i.stateQueryReq = none →
      ∀ query ∈ reads t i, AckFor s query → query.gbnHeader ∈ r.answers := by
    intro t i hi query hq
    simp [reads,hi] at hq
  have hreply : next ⟨.recvRxReq,.replTxReq s (f s).lastSentSeqnum,f⟩ {} batch =
      ⟨.recvRxReq,.updTxInfo s (f s).lastAckdSeqnum (f s).lastSentSeqnum,
        update f s { f s with lastSentSeqnum := (f s).lastSentSeqnum+1 }⟩ :=
    next_reply _ batch s _ rfl rfl hopen
  have hnumber : numbered batch s ⟨.recvRxReq,.replTxReq s (f s).lastSentSeqnum,f⟩ {} =
      [(f s).lastSentSeqnum+1] := by
    simp [numbered,afterRx,rxStep,txStep,replTxReq,hopen]
  have hask : exec batch s d ⟨⟨.recvRxReq,.recvTxReq,f⟩,r,wire,handled⟩
      (.sender (requestCall s)) =
      some ⟨⟨.recvRxReq,.replTxReq s (f s).lastSentSeqnum,f⟩,r,wire,handled⟩ := by
    rw [exec,if_pos ⟨rfl,hquiet _ _ rfl⟩]
    simp only [numbered,heldAck,List.append_nil]
    rfl
  have hsend : exec batch s d ⟨⟨.recvRxReq,.replTxReq s (f s).lastSentSeqnum,f⟩,r,wire,handled⟩
      (.sender {}) =
      some ⟨⟨.recvRxReq,.updTxInfo s (f s).lastAckdSeqnum (f s).lastSentSeqnum,
        update f s { f s with lastSentSeqnum := (f s).lastSentSeqnum+1 }⟩,r,
        wire++[(f s).lastSentSeqnum+1],handled⟩ := by
    rw [exec,if_pos ⟨rfl,hquiet _ _ rfl⟩]
    simp only [hnumber,hreply,heldAck,List.append_nil]
  rw [run,hask,bind_some,run,hsend,bind_some,run,exec, if_pos ⟨rfl,hquiet _ _ rfl⟩]
  simp only [numbered,heldAck,List.append_nil]
  rfl

def Filled (batch : BitVec 8) (s d : SlotId) (n : ℕ) : Prop :=
  ∃ acts f r wire handled, run (exec batch s d) acts (boot batch s d) =
      some ⟨⟨.recvRxReq,.recvTxReq,f⟩,r,wire,handled⟩ ∧
    (f s).lastSentSeqnum = BitVec.ofNat 32 n ∧ (f s).lastAckdSeqnum = 0 ∧ r.accepted = n ∧
    r.table.rx = .recvRxReq ∧ RcvInv batch d r

lemma filled (batch : BitVec 8) (hs : s ≠ 0) (hd : d ≠ 0) (n : ℕ) (hn : n ≤ windowSize) :
    Filled batch s d n := by
  induction n with
  | zero =>
    refine ⟨[],_,bootRcv batch d,[],[],rfl,?_,?_,rfl,rfl,boot_rcv batch d⟩
    · simp [powerUp,openCall,setState,initSession]
    · simp [powerUp,openCall,setState,initSession]
  | succ n ih =>
    obtain ⟨acts,f,r,wire,handled,hrun,hsent,hacked,haccepted,hidle,hr⟩ := ih (by omega)
    have hopen : windowOpen (f s).lastAckdSeqnum (f s).lastSentSeqnum = true := by
      rw [hsent,hacked,windowOpen,windowSize,decide_eq_true_iff,toNat_ofNat]
      rw [windowSize] at hn
      have hle := Nat.mod_le n (2^32)
      show n%2^32 < 0+128
      omega
    have hnumber := number_packet batch d f r wire handled hopen
    have hnext : (f s).lastSentSeqnum+1 = ofNat 32 (r.accepted+1) := by
      rw [hsent,haccepted,ofNat_add n]
      rfl
    obtain ⟨hinv,hcount,hfree,-⟩ := round_rcv hs hd r hidle hr
    refine ⟨acts++([.sender (requestCall s),.sender {},.sender { txFinishSig := some true }]++
      [.receiver (queryCall (dataQuery (ofNat 32 (r.accepted+1)) s d)),.receiver {}]),
      update f s { f s with lastSentSeqnum := (f s).lastSentSeqnum+1 },_,
      wire++[(f s).lastSentSeqnum+1],handled,
      (run_append _ _ _ _ _).mpr ⟨_,hrun,(run_append _ _ _ _ _).mpr ⟨_,hnumber,?_⟩⟩,?_,?_,?_,hfree,
      hinv⟩
    · have hread : ∀ query ∈ reads r.table
          (queryCall (dataQuery (ofNat 32 (r.accepted+1)) s d)), DataFor d query →
          ∃ k ∈ wire++[(f s).lastSentSeqnum+1], query.gbnHeader = ⟨.data,k,s,d⟩ := by
        intro query hq _
        simp only [reads,hidle,if_true] at hq
        cases hq
        exact ⟨_,by rw [hnext]; simp,rfl⟩
      have hhandle : ∀ t : TableState, ∀ query ∈ reads t {}, DataFor d query →
          ∃ k ∈ wire++[(f s).lastSentSeqnum+1], query.gbnHeader = ⟨.data,k,s,d⟩ := by
        intro t query hq
        rw [reads_empty] at hq
        cases hq
      rw [run,exec,if_pos ⟨rfl,hread⟩,bind_some,run,exec,if_pos ⟨rfl,hhandle _⟩,
        bind_some]
      rfl
    · rw [update_self,hnext,haccepted]
    · rw [update_self]
      exact hacked
    · rw [hcount,haccepted]

end

/-- A window filled with the batch of the build: packet 101 is acknowledged. -/
theorem filled_window_acknowledged : ∃ acts m,
    run (exec nrBatchedPktPerAckFpga 1 1) acts (boot nrBatchedPktPerAckFpga 1 1) = some m ∧
      (m.sender.session 1).lastSentSeqnum = 128 ∧ (m.sender.session 1).lastAckdSeqnum = 0 ∧
      ∃ a ∈ m.rcv.answers, a.pktType = .ack ∧ 0 < a.seqnum ∧ a ∉ m.handled := by
  obtain ⟨acts,f,r,wire,handled,hrun,hsent,hacked,haccepted,-,hr⟩ :=
    filled (s := 1) (d := 1) nrBatchedPktPerAckFpga (by decide) (by decide) 128 (by decide)
  have hack := full_window_acknowledged nrBatchedPktPerAckFpga (by decide) 1 1 acts _ hrun
    (by show (f 1).lastSentSeqnum.toNat = (f 1).lastAckdSeqnum.toNat+windowSize
        rw [hsent,hacked]
        rfl)
    (by show (r.table.session 1).expectedSeqnum = (f 1).lastSentSeqnum+1
        rw [hr.expected,hsent,haccepted]
        rfl)
  have hzero : (f 1).lastAckdSeqnum = 0 := hacked
  obtain ⟨a,ha,hty,hlt,hnot⟩ := hack
  exact ⟨acts,_,hrun,hsent,hacked,a,ha,hty,hzero ▸ hlt,hnot⟩

/-- At most `batch` accepted packets lack an acknowledgement, whatever the network does. -/
theorem acknowledged_within_batch (batch : BitVec 8) (s d : SlotId) (acts : List Action) (m : Net)
    (hrun : run (exec batch s d) acts (boot batch s d) = some m) (hpos : 0 < m.rcv.accepted) :
    ∃ k, 1 ≤ k ∧ k ≤ m.rcv.accepted ∧ m.rcv.accepted ≤ k+batch.toNat ∧
      ∃ a ∈ m.rcv.answers, a.pktType = .ack ∧ a.seqnum = ofNat 32 k :=
  recent_ack (run_preserves _ _ (exec_inv batch s d) acts _ m (boot_inv batch s d) hrun).rcv hpos

theorem acknowledged_within_five : ∃ acts m, run (exec 5 1 1) acts (boot 5 1 1) = some m ∧
    ∃ k, 1 ≤ k ∧ k ≤ m.rcv.accepted ∧ m.rcv.accepted ≤ k+5 ∧
      ∃ a ∈ m.rcv.answers, a.pktType = .ack ∧ a.seqnum = ofNat 32 k := by
  obtain ⟨acts,f,r,wire,handled,hrun,-,-,hcount,-⟩ :=
    filled (s := 1) (d := 1) 5 (by decide) (by decide) 9 (by decide)
  exact ⟨acts,_,hrun,acknowledged_within_batch 5 1 1 acts _ hrun (by rw [hcount]; decide)⟩

/-! ## Nothing missing -/

/-- A receiver, and a sender that sends packets 1, 2 and so on. -/
structure Feed where
  rcv : Rcv
  sent : ℕ

inductive FeedAction where
  | send
  | receiver (i : CallIn) (packet : ℕ)
  deriving DecidableEq, Repr

def ReadsSent (s d : SlotId) (m : Feed) (i : CallIn) (packet : ℕ) : Prop :=
  ∀ query ∈ reads m.rcv.table i, DataFor d query →
    query.gbnHeader = ⟨.data,BitVec.ofNat 32 packet,s,d⟩ ∧ 1 ≤ packet ∧ packet ≤ m.sent
  deriving Decidable

/-- Packets that were sent arrive, in any order and number. -/
def feed (batch : BitVec 8) (s d : SlotId) (m : Feed) : FeedAction → Option Feed
  | .send => some { m with sent := m.sent+1 }
  | .receiver i packet =>
      if setsUp d i = false ∧ ReadsSent s d m i packet then
        some { m with rcv := callRcv batch d m.rcv i }
      else none

def bootFeed (batch : BitVec 8) (d : SlotId) : Feed := ⟨bootRcv batch d,0⟩

structure FeedInv (batch : BitVec 8) (s d : SlotId) (m : Feed) : Prop where
  rcv : RcvInv batch d m.rcv
  genuine : ∀ query expt countdown, held d m.rcv.table = some (query,expt,countdown) →
    ∃ k, 1 ≤ k ∧ k ≤ m.sent ∧ query.gbnHeader = ⟨.data,BitVec.ofNat 32 k,s,d⟩
  accepted : m.rcv.accepted ≤ m.sent
  flag : (m.rcv.table.session d).ackEnable = true ∨ m.rcv.accepted+1 < m.sent

section

variable {batch : BitVec 8} {s d : SlotId} {m : Feed} {i : CallIn} {packet : ℕ}

lemma boot_feed (batch : BitVec 8) (s d : SlotId) : FeedInv batch s d (bootFeed batch d) := by
  have hses : (bootFeed batch d).rcv.table.session d = initSession := by
    simp [bootFeed,bootRcv,StateTable.next,afterTx,openCall,initStep,setSession,setState]
  refine ⟨boot_rcv batch d,?_,le_refl _,.inl (by rw [hses]; rfl)⟩
  intro query expt countdown h
  cases h

lemma send_feed (hm : FeedInv batch s d m) : FeedInv batch s d { m with sent := m.sent+1 } := by
  refine ⟨hm.rcv,?_,Nat.le_succ_of_le hm.accepted,hm.flag.imp_right Nat.lt_succ_of_lt⟩
  intro query expt countdown h
  obtain ⟨k,hpos,hle,hheader⟩ := hm.genuine query expt countdown h
  exact ⟨k,hpos,Nat.le_succ_of_le hle,hheader⟩

lemma genuine_next (hpacket : ReadsSent s d m i packet)
    (query : QueryReq) (expt : Seqnum) (countdown : BitVec 8)
    (h : held d (callRcv batch d m.rcv i).table = some (query,expt,countdown)) :
    ∃ k, 1 ≤ k ∧ k ≤ m.sent ∧ query.gbnHeader = ⟨.data,ofNat 32 k,s,d⟩ := by
  obtain ⟨-,hreads,hdata,-,-⟩ := held_next h
  obtain ⟨hheader,hpos,hle⟩ := hpacket query hreads hdata
  exact ⟨packet,hpos,hle,hheader⟩

lemma receive_feed (hset : setsUp d i = false) (hpacket : ReadsSent s d m i packet)
    (hsent : m.sent+1 < 2^32) (hm : FeedInv batch s d m) :
    FeedInv batch s d { m with rcv := callRcv batch d m.rcv i } := by
  have hle := hm.accepted
  cases hheld : held d m.rcv.table with
  | none =>
    obtain ⟨hrcv,haccepted,hflag⟩ := idle_rcv hset hheld hm.rcv
    refine ⟨hrcv,genuine_next hpacket,?_,?_⟩
    · show (callRcv batch d m.rcv i).accepted ≤ m.sent
      rw [haccepted]
      exact hle
    · show ((callRcv batch d m.rcv i).table.session d).ackEnable = true ∨
        (callRcv batch d m.rcv i).accepted+1 < m.sent
      rw [haccepted,hflag]
      exact hm.flag
  | some x =>
    obtain ⟨query,expt,countdown⟩ := x
    obtain ⟨k,hpos,hk,hheader⟩ := hm.genuine query expt countdown hheld
    obtain ⟨hexpt,-⟩ := hm.rcv.latched query expt countdown hheld
    have hseq : query.gbnHeader.seqnum.toNat = k := by
      rw [hheader]
      exact Nat.mod_eq_of_lt (by omega)
    have hnext : expt.toNat = m.rcv.accepted+1 := by
      rw [hexpt,hm.rcv.expected]
      exact Nat.mod_eq_of_lt (by omega)
    by_cases hown : query.gbnHeader.seqnum = expt
    · obtain ⟨hrcv,haccepted,hflag⟩ := accept_rcv hset hheld hown hm.rcv
      have heq := congrArg BitVec.toNat hown
      refine ⟨hrcv,genuine_next hpacket,?_,.inl hflag⟩
      show (callRcv batch d m.rcv i).accepted ≤ m.sent
      omega
    · obtain ⟨hrcv,haccepted,hflag⟩ := refuse_rcv hset hheld hown hm.rcv
      refine ⟨hrcv,genuine_next hpacket,?_,?_⟩
      · show (callRcv batch d m.rcv i).accepted ≤ m.sent
        rw [haccepted]
        exact hle
      · show ((callRcv batch d m.rcv i).table.session d).ackEnable = true ∨
          (callRcv batch d m.rcv i).accepted+1 < m.sent
        rw [haccepted]
        rcases hflag with hflag | hgap
        · rw [hflag]
          exact hm.flag
        · -- a packet beyond the expected one was sent
          have hgap' : expt.toNat < query.gbnHeader.seqnum.toNat := hgap
          right
          omega

lemma feed_inv (acts : List FeedAction) (m : Feed)
    (hrun : run (feed batch s d) acts (bootFeed batch d) = some m) (hsent : m.sent+1 < 2^32) :
    FeedInv batch s d m := by
  refine run_preserves (feed batch s d) (fun m => m.sent+1 < 2^32 → FeedInv batch s d m) ?_ acts
    (bootFeed batch d) m (fun _ => boot_feed batch s d) hrun hsent
  intro u act n hu hexec hn
  cases act with
  | send =>
    cases hexec
    exact send_feed (hu (Nat.lt_of_succ_lt hn))
  | receiver i packet =>
    simp only [feed] at hexec
    split_ifs at hexec with hok
    cases hexec
    exact receive_feed hok.1 hok.2 hn (hu hn)

end

/-- Below 2^32-1 packets, a copy of an accepted packet is answered with the last number. -/
theorem nothing_missing_answered (batch : BitVec 8) (s d : SlotId) (hs : s ≠ 0) (hd : d ≠ 0)
    (acts : List FeedAction) (m : Feed)
    (hrun : run (feed batch s d) acts (bootFeed batch d) = some m) (hsent : m.sent+1 < 2^32)
    (hall : (m.rcv.table.session d).expectedSeqnum = ofNat 32 m.sent+1) :
    (m.rcv.table.session d).ackEnable = true ∧
      ∀ (query : QueryReq) (k : ℕ) (i j : CallIn), m.rcv.table.rx = .recvRxReq →
        query.gbnHeader = ⟨.data,ofNat 32 k,s,d⟩ → 1 ≤ k → k ≤ m.sent →
        query.broadcast = false → i.stateQueryReq = some query → setsUp d i = false →
        (rxStep (next m.rcv.table i batch) j.stateQueryReq batch).2.rsp =
          some (rspPacket query .ack (ofNat 32 m.sent)) := by
  have hm := feed_inv acts m hrun hsent
  have hle := hm.accepted
  have hcount : m.rcv.accepted = m.sent := by
    have hexpt := congrArg BitVec.toNat (hm.rcv.expected.symm.trans hall)
    rw [show ofNat 32 m.sent+1 = ofNat 32 (m.sent+1) from (ofNat_add m.sent 1).symm,
      toNat_ofNat,toNat_ofNat,Nat.mod_eq_of_lt (by omega),Nat.mod_eq_of_lt hsent] at hexpt
    omega
  have hflag : (m.rcv.table.session d).ackEnable = true := by
    rcases hm.flag with hflag | hgap
    · exact hflag
    · omega
  refine ⟨hflag,?_⟩
  intro query k i j hidle hheader hpos hk hdirect hreq hset
  have hdest : query.gbnHeader.destSlot = d := by rw [hheader]
  have hses : query.gbnHeader.inSession = true := by
    rw [hheader]
    exact (in_session_iff _).mpr ⟨hd,hs⟩
  obtain ⟨-,hout⟩ := read_then_handle batch m.rcv.table query i j hidle hreq hdirect hses
    (by rw [hheader])
  have hnone : held d m.rcv.table = none := by simp [held,hidle]
  have hkept := part_kept batch hset hnone
  have hon : ((next m.rcv.table i batch).session d).ackEnable = true :=
    (congrArg (fun x => x.2.1) hkept).trans hflag
  have hseq : query.gbnHeader.seqnum.toNat = k := by
    rw [hheader]
    exact Nat.mod_eq_of_lt (by omega)
  have hnext : (ofNat 32 m.sent+1).toNat = m.sent+1 := by
    rw [show ofNat 32 m.sent+1 = ofNat 32 (m.sent+1) from
      (ofNat_add m.sent 1).symm]
    exact Nat.mod_eq_of_lt hsent
  have hold : query.gbnHeader.seqnum ≠ ofNat 32 m.sent+1 := by
    intro heq
    have := congrArg BitVec.toNat heq
    omega
  have hbelow : ¬ofNat 32 m.sent+1 < query.gbnHeader.seqnum := by
    intro hlt
    have hlt' : (ofNat 32 m.sent+1).toNat < query.gbnHeader.seqnum.toNat := hlt
    omega
  rw [hout,hdest,hall]
  simp only [handleData,if_neg hold,hon,if_true,if_neg hbelow]
  rw [add_sub_cancel_right]

section

variable {batch : BitVec 8} {s d : SlotId}

lemma caught_up (batch : BitVec 8) (hs : s ≠ 0) (hd : d ≠ 0) (n : ℕ) : ∃ acts m,
    run (feed batch s d) acts (bootFeed batch d) = some m ∧ m.sent = n ∧ m.rcv.accepted = n ∧
      m.rcv.table.rx = .recvRxReq ∧ RcvInv batch d m.rcv ∧
      (m.rcv.table.session d).ackEnable = true := by
  induction n with
  | zero =>
    refine ⟨[],bootFeed batch d,rfl,rfl,rfl,rfl,boot_rcv batch d,?_⟩
    simp [bootFeed,bootRcv,StateTable.next,afterTx,openCall,initStep,setSession,setState,
      initSession]
  | succ n ih =>
    obtain ⟨acts,m,hrun,hsent,haccepted,hidle,hr,-⟩ := ih
    obtain ⟨hinv,hcount,hfree,hflag⟩ := round_rcv hs hd m.rcv hidle hr
    refine ⟨acts++[.send,
      .receiver (queryCall (dataQuery (ofNat 32 (m.rcv.accepted+1)) s d)) (n+1),
      .receiver {} 0],⟨_,m.sent+1⟩,(run_append _ _ _ _ _).mpr ⟨m,hrun,?_⟩,by rw [hsent],
      hcount.trans (by rw [haccepted]),hfree,hinv,hflag⟩
    have hread : ∀ query ∈ reads m.rcv.table
        (queryCall (dataQuery (ofNat 32 (m.rcv.accepted+1)) s d)), DataFor d query →
        query.gbnHeader = ⟨.data,ofNat 32 (n+1),s,d⟩ ∧ 1 ≤ n+1 ∧ n+1 ≤ m.sent+1 := by
      intro query hq _
      simp only [reads,hidle,if_true] at hq
      cases hq
      rw [haccepted,hsent]
      exact ⟨rfl,by omega,le_refl _⟩
    have hhandle : ∀ t : TableState, ∀ query ∈ reads t {}, DataFor d query →
        query.gbnHeader = ⟨.data,ofNat 32 0,s,d⟩ ∧ 1 ≤ 0 ∧ 0 ≤ m.sent+1 := by
      intro t query hq
      rw [reads_empty] at hq
      cases hq
    rw [run,feed,bind_some,run,feed,if_pos ⟨rfl,hread⟩,bind_some,run,feed,
      if_pos ⟨rfl,hhandle _⟩,bind_some]
    rfl

lemma gap_clears (hs : s ≠ 0) (hd : d ≠ 0) (r : Rcv) (hidle : r.table.rx = .recvRxReq)
    (hr : RcvInv batch d r) (seq : Seqnum) (hgap : (r.table.session d).expectedSeqnum < seq)
    (hflag : (r.table.session d).ackEnable = true) :
    let r' := callRcv batch d (callRcv batch d r (queryCall (dataQuery seq s d))) {}
    (r'.table.session d).ackEnable = false ∧
      (r'.table.session d).expectedSeqnum = (r.table.session d).expectedSeqnum := by
  intro r'
  obtain ⟨hinv,haccepted,hkept,hheld⟩ := read_rcv hs hd r hidle seq hr
  obtain ⟨hpart,-,-⟩ := part_handled batch (i := {}) rfl hheld
  have hne : (dataQuery seq s d).gbnHeader.seqnum ≠ (r.table.session d).expectedSeqnum := by
    intro heq
    exact Nat.lt_irrefl _ (show (r.table.session d).expectedSeqnum.toNat <
      (r.table.session d).expectedSeqnum.toNat from heq ▸ hgap)
  have hclear : (handleData (dataQuery seq s d)
      (r.table.session d).expectedSeqnum (r.table.session d).ackCountdown
      ((callRcv batch d r (queryCall (dataQuery seq s d))).table.session d) batch).1 =
      { (callRcv batch d r (queryCall (dataQuery seq s d))).table.session d with
        ackEnable := false } := by
    have hgap' : (r.table.session d).expectedSeqnum < (dataQuery seq s d).gbnHeader.seqnum := hgap
    simp only [handleData,if_neg hne,hkept,hflag,if_true,if_pos hgap']
  rw [hclear] at hpart
  have hsame : ((callRcv batch d r (queryCall (dataQuery seq s d))).table.session
      d).expectedSeqnum = (r.table.session d).expectedSeqnum := by
    rw [hinv.expected,hr.expected,haccepted]
  exact ⟨congrArg (fun x => x.2.1) hpart,(congrArg fst hpart).trans hsame⟩

end

/-- Five packets sent and accepted, and a copy of packet 2. -/
theorem copy_answered : ∃ acts m,
    run (feed nrBatchedPktPerAckFpga 1 1) acts (bootFeed nrBatchedPktPerAckFpga 1) = some m ∧
      (rxStep (next m.rcv.table (queryCall (dataQuery 2 1 1))) none).2.rsp =
        some (rspPacket (dataQuery 2 1 1) .ack 5) := by
  obtain ⟨acts,m,hrun,hsent,haccepted,hidle,hr,-⟩ :=
    caught_up (s := 1) (d := 1) nrBatchedPktPerAckFpga (by decide) (by decide) 5
  have hall : (m.rcv.table.session 1).expectedSeqnum = ofNat 32 m.sent+1 := by
    rw [hr.expected,haccepted,hsent]
    rfl
  obtain ⟨-,hanswer⟩ := nothing_missing_answered nrBatchedPktPerAckFpga 1 1 (by decide) (by decide)
    acts m hrun (by rw [hsent]; decide) hall
  have hrsp := hanswer (dataQuery 2 1 1) 2 (queryCall (dataQuery 2 1 1)) {} hidle rfl (by decide)
    (by rw [hsent]; decide) rfl rfl rfl
  rw [hsent] at hrsp
  exact ⟨acts,m,hrun,hrsp⟩

/-- After 2^32-1 accepted packets a copy of the last one clears the flag. -/
theorem silent_at_wrap : ∃ acts m,
    run (feed nrBatchedPktPerAckFpga 1 1) acts (bootFeed nrBatchedPktPerAckFpga 1) = some m ∧
      m.sent = 2^32-1 ∧
      (m.rcv.table.session 1).expectedSeqnum = ofNat 32 m.sent+1 ∧
      (m.rcv.table.session 1).ackEnable = false := by
  obtain ⟨acts,m,hrun,hsent,haccepted,hidle,hr,hflag⟩ :=
    caught_up (s := 1) (d := 1) nrBatchedPktPerAckFpga (by decide) (by decide) (2^32-1)
  have hexpt : (m.rcv.table.session 1).expectedSeqnum = 0 := by
    rw [hr.expected,haccepted]
    decide
  have hgap : (m.rcv.table.session 1).expectedSeqnum < ofNat 32 (2^32-1) := by
    rw [hexpt]
    decide
  obtain ⟨hcleared,hsame⟩ := gap_clears (s := 1) (d := 1) (by decide) (by decide) m.rcv hidle hr
    (ofNat 32 (2^32-1)) hgap hflag
  refine ⟨acts++[.receiver (queryCall (dataQuery (ofNat 32 (2^32-1)) 1 1)) (2^32-1),
    .receiver {} 0],⟨callRcv nrBatchedPktPerAckFpga 1 (callRcv nrBatchedPktPerAckFpga 1 m.rcv
      (queryCall (dataQuery (ofNat 32 (2^32-1)) 1 1))) {},m.sent⟩,
    (run_append _ _ _ _ _).mpr ⟨m,hrun,?_⟩,hsent,?_,hcleared⟩
  · have hread : ∀ query ∈ reads m.rcv.table
        (queryCall (dataQuery (ofNat 32 (2^32-1)) 1 1)), DataFor 1 query →
        query.gbnHeader = ⟨.data,ofNat 32 (2^32-1),1,1⟩ ∧ 1 ≤ 2^32-1 ∧
          2^32-1 ≤ m.sent := by
      intro query hq _
      simp only [reads,hidle,if_true] at hq
      cases hq
      rw [hsent]
      exact ⟨rfl,by decide,le_refl _⟩
    have hhandle : ∀ t : TableState, ∀ query ∈ reads t {}, DataFor 1 query →
        query.gbnHeader = ⟨.data,ofNat 32 0,1,1⟩ ∧ 1 ≤ 0 ∧ 0 ≤ m.sent := by
      intro t query hq
      rw [reads_empty] at hq
      cases hq
    rw [run,feed,if_pos ⟨rfl,hread⟩,bind_some,run,feed,if_pos ⟨rfl,hhandle _⟩,
      bind_some]
    rfl
  · rw [hsame,hexpt,hsent]
    decide

end Clio.AckBatch
