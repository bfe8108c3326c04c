import Clio.Delivery
import Clio.SenderWindow

/-!
# Sequence numbers and their wrap

The state tables of two ends and a network that may lose, copy and reorder.
-/

namespace Clio.SequenceWrap

open Function StateTable SlotView SessionSetup SenderWindow Machine
open BitVec (lt_def ofNat ofNat_add toNat_ofNat)

structure Answer where
  header : GbnHeader
  packet : ℕ
  sentThen : ℕ
  deriving DecidableEq, Repr

/-- Counts of packets numbered, acknowledged and passed on, with what the machines hold. -/
structure Net where
  sender : TableState
  receiver : TableState
  sent : ℕ
  acked : ℕ
  ackHeld : ℕ
  accepted : List ℕ
  held : ℕ
  answers : List Answer

inductive Action where
  | sender (i : CallIn) (answer : Option Answer)
  | receiver (i : CallIn) (packet : ℕ)
  deriving DecidableEq, Repr

def setsUp (slot : SlotId) (i : CallIn) : Bool := i.initReq.any fun req => req.slotid = slot

def handlesAck (s : SlotId) (t : TableState) : Bool :=
  match t.rx with
  | .handleAck query _ _ => query.gbnHeader.destSlot = s
  | _ => false

def callSender (s : SlotId) (m : Net) (i : CallIn) (answer : Option Answer) : Net :=
  { m with
    sender := next m.sender i
    sent := m.sent+(handedOut s m.sender i).length
    acked := if handlesAck s m.sender then max m.acked m.ackHeld else m.acked
    ackHeld := if m.sender.rx = .recvRxReq then (answer.map Answer.packet).getD m.ackHeld
      else m.ackHeld }

def callReceiver (d : SlotId) (m : Net) (i : CallIn) (packet : ℕ) : Net :=
  let accepted := if Accepts d m.receiver i then m.accepted++[m.held] else m.accepted
  { m with
    receiver := next m.receiver i
    accepted := accepted
    held := if m.receiver.rx = .recvRxReq then packet else m.held
    answers := m.answers++(slotOutput d m.receiver i).rsp.map fun rsp =>
      ⟨rsp.2,accepted.length,m.sent⟩ }

/-- Answers and packets on the way were written by the other end, and the session stays open. -/
def exec (s d : SlotId) (m : Net) : Action → Option Net
  | .sender i answer =>
      if setsUp s i = false ∧ ∀ query ∈ reads m.sender i, AckFor s query →
          ∃ a ∈ answer, a ∈ m.answers ∧ a.header = query.gbnHeader then
        some (callSender s m i answer)
      else none
  | .receiver i packet =>
      if setsUp d i = false ∧ ∀ query ∈ reads m.receiver i, DataFor d query →
          query.gbnHeader = ⟨.data,BitVec.ofNat 32 packet,s,d⟩ ∧ 1 ≤ packet ∧ packet ≤ m.sent then
        some (callReceiver d m i packet)
      else none

def Timely (m : Net) : Action → Prop
  | .sender _ answer => ∀ a ∈ answer, m.sent < a.sentThen+2^31
  | .receiver _ packet => m.sent < packet+2^31

def boot (s d : SlotId) : Net := ⟨opened s,opened d,0,0,0,[],0,[]⟩

/-- Delivery in order and once, the acknowledged count modulo 2^32, and the window. -/
structure Law (s : SlotId) (m : Net) : Prop where
  delivered : m.accepted = List.range' 1 m.accepted.length ∧ m.accepted.length ≤ m.sent
  acked : (m.sender.session s).lastAckdSeqnum = BitVec.ofNat 32 m.acked
  received : m.acked ≤ m.accepted.length
  window : m.sent ≤ m.acked+windowSize

structure Inv (s d : SlotId) (m : Net) : Prop where
  window : Window (view s m.sender) (m.accepted.length+1) m.sent
  acked : (view s m.sender).ses.lastAckdSeqnum.toNat = m.acked
  ackHeld : ∀ query lastAckd lastSent, (view s m.sender).rx = .handleAck query lastAckd lastSent →
    query.gbnHeader.seqnum.toNat = m.ackHeld
  accepted : m.accepted = List.range' 1 m.accepted.length
  expected : (m.receiver.session d).expectedSeqnum = BitVec.ofNat 32 (m.accepted.length+1)
  held : ∀ query expt countdown, m.receiver.rx = .handleData query expt countdown →
    query.gbnHeader.destSlot = d → query.gbnHeader = ⟨.data,BitVec.ofNat 32 m.held,s,d⟩ ∧
      DataFor d query ∧ 1 ≤ m.held ∧ m.held ≤ m.sent ∧
      expt = BitVec.ofNat 32 (m.accepted.length+1)
  answers : ∀ a ∈ m.answers, a.header.seqnum = BitVec.ofNat 32 a.packet ∧
    a.packet ≤ m.accepted.length

lemma sets_up_view (slot : SlotId) (t : TableState) (i : CallIn) (h : setsUp slot i = false) :
    view slot (next t i) = view slot (afterTx t i) := by
  rw [next,init_view]
  unfold initEvent
  cases hreq : i.initReq with
  | none => rfl
  | some req =>
    have hslot : req.slotid ≠ slot := by simpa [setsUp,hreq] using h
    simp [hslot,steps]

/-! ## The sender -/

section

variable {s d : SlotId} {m : Net} {i : CallIn} {answer : Option Answer}

lemma answer_read (hm : Inv s d m) (hsent : m.sent < 2^32) (query : QueryReq)
    (hread : ∃ a ∈ answer, a ∈ m.answers ∧ a.header = query.gbnHeader) :
    ∃ a, answer = some a ∧ query.gbnHeader.seqnum.toNat = a.packet ∧
      a.packet ≤ m.accepted.length := by
  obtain ⟨a,ha,hmem,hheader⟩ := hread
  obtain ⟨hseq,hle⟩ := hm.answers a hmem
  have hreceived : m.accepted.length+1-1 ≤ (view s m.sender).ses.lastSentSeqnum.toNat :=
    hm.window.received
  have hcount := hm.window.count
  refine ⟨a,ha,?_,hle⟩
  rw [← hheader,hseq]
  exact Nat.mod_eq_of_lt (by omega)

lemma acked_after_rx (hm : Inv s d m) :
    (view s (afterRx m.sender i)).ses.lastAckdSeqnum.toNat =
      if handlesAck s m.sender then max m.acked m.ackHeld else m.acked := by
  rw [rx_view]
  unfold rxEvent handlesAck
  cases hrx : m.sender.rx with
  | recvRxReq =>
    cases i.stateQueryReq with
    | none => exact hm.acked
    | some query =>
      by_cases hs : query.gbnHeader.destSlot = s
      · simpa [hs,step] using hm.acked
      · simpa [hs,steps] using hm.acked
  | handleData query expt countdown =>
    by_cases hs : query.gbnHeader.destSlot = s
    · have hview : (view s m.sender).rx = .handleData query expt countdown := by
        simp [view,rxOf,hrx,hs]
      simpa [hs,step,hview,data_counters] using hm.acked
    · simpa [hs,steps] using hm.acked
  | handleAck query lastAckd lastSent =>
    by_cases hs : query.gbnHeader.destSlot = s
    · have hview : (view s m.sender).rx = .handleAck query lastAckd lastSent := by
        simp [view,rxOf,hrx,hs]
      obtain ⟨rfl,-⟩ := hm.window.rx query lastAckd lastSent hview
      have hheld := hm.ackHeld query _ lastSent hview
      have hacked := hm.acked
      simp only [hs,decide_true,if_true,steps_one,step,hview,ack_counters]
      split_ifs with hlt
      · have hlt' : (view s m.sender).ses.lastAckdSeqnum.toNat < query.gbnHeader.seqnum.toNat := hlt
        omega
      · have hle : query.gbnHeader.seqnum.toNat ≤ (view s m.sender).ses.lastAckdSeqnum.toNat :=
          Nat.not_lt.mp hlt
        omega
    · simpa [hs,steps] using hm.acked

lemma sender_inv (hm : Inv s d m) (hset : setsUp s i = false)
    (hanswer : ∀ query ∈ reads m.sender i, AckFor s query →
      ∃ a ∈ answer, a ∈ m.answers ∧ a.header = query.gbnHeader)
    (hsent : (callSender s m i answer).sent < 2^32) : Inv s d (callSender s m i answer) := by
  have hold : m.sent < 2^32 := lt_of_le_of_lt (Nat.le_add_right _ _) hsent
  have hgenuine : ∀ query ∈ reads m.sender i, AckFor s query →
      query.gbnHeader.seqnum.toNat < m.accepted.length+1 := by
    intro query hq hack
    obtain ⟨a,-,hseq,hle⟩ := answer_read hm hold query (hanswer query hq hack)
    omega
  obtain ⟨hrx,-,-⟩ := rx_window s m.sender i _ _ hm.window hgenuine
  obtain ⟨htx,hacked,-⟩ := tx_window s m.sender i _ _ hrx hsent
  have hview : view s (callSender s m i answer).sender = view s (afterTx m.sender i) :=
    sets_up_view s m.sender i hset
  refine ⟨?_,?_,?_,hm.accepted,hm.expected,?_,hm.answers⟩
  · rw [hview]
    exact htx
  · rw [hview,hacked]
    exact acked_after_rx hm
  · intro query lastAckd lastSent h
    rw [hview] at h
    have hsame : (view s (afterTx m.sender i)).rx = (view s (afterRx m.sender i)).rx := by
      simp only [view,after_tx_rx]
    rw [hsame] at h
    obtain ⟨hidle,hq,hack⟩ := ack_latched s m.sender i query lastAckd lastSent h
    obtain ⟨a,rfl,hseq,-⟩ := answer_read hm hold query (hanswer query hq hack)
    simpa [callSender,hidle] using hseq
  · intro query expt countdown h hdest
    obtain ⟨hheader,hdata,hpos,hle,hexpt⟩ := hm.held query expt countdown h hdest
    exact ⟨hheader,hdata,hpos,hle.trans (Nat.le_add_right _ _),hexpt⟩

end

/-! ## The receiver -/

section

variable {s d : SlotId} {m : Net} {i : CallIn} {packet : ℕ}

lemma data_rsp (query : QueryReq) (expt : Seqnum) (countdown : BitVec 8) (ses : Session)
    (rsp : UdpInfo × GbnHeader) (h : (handleData query expt countdown ses).2.rsp = some rsp) :
    rsp.2.seqnum = if query.gbnHeader.seqnum = expt then expt else expt-1 := by
  unfold handleData at h
  dsimp only at h
  split_ifs at h ⊢ <;> cases h <;> rfl

lemma answer_written (d : SlotId) (t : TableState) (i : CallIn) (rsp : UdpInfo × GbnHeader)
    (h : rsp ∈ (slotOutput d t i).rsp) :
    ∃ query expt countdown, t.rx = .handleData query expt countdown ∧ query.gbnHeader.destSlot = d ∧
      rsp.2.seqnum = if query.gbnHeader.seqnum = expt then expt else expt-1 := by
  simp only [slotOutput,output] at h
  split_ifs at h with hevent
  · cases h
  · have hout : (rxStep t i.stateQueryReq).2.rsp = some rsp := by simpa using h
    unfold rxEvent at hevent
    unfold rxStep at hout
    cases hrx : t.rx with
    | recvRxReq =>
      rw [hrx] at hout
      cases hreq : i.stateQueryReq with
      | none =>
        rw [hreq] at hout
        cases hout
      | some query =>
        rw [hreq] at hout
        simp only [recvRxReq] at hout
        split_ifs at hout
        split at hout <;> cases hout
    | handleData query expt countdown =>
      rw [hrx] at hout hevent
      have hdest : query.gbnHeader.destSlot = d := by
        by_contra hne
        exact hevent (if_neg hne)
      exact ⟨query,expt,countdown,rfl,hdest,data_rsp _ _ _ _ rsp hout⟩
    | handleAck query lastAckd lastSent =>
      rw [hrx] at hout
      simp only [handleAck] at hout
      split_ifs at hout

lemma expected_next (slot : SlotId) (t : TableState) (i : CallIn) (h : setsUp slot i = false) :
    ((next t i).session slot).expectedSeqnum = ((afterTx t i).session slot).expectedSeqnum :=
  congrArg (fun v => v.ses.expectedSeqnum) (sets_up_view slot t i h)

lemma accepted_next (hm : Inv s d m) (hsent : m.sent < 2^32) (hpend : Pending d m.receiver.rx) :
    m.held = m.accepted.length+1 ∧ m.held ≤ m.sent ∧ ∃ query countdown,
      m.receiver.rx = .handleData query (ofNat 32 (m.accepted.length+1)) countdown ∧
      query.gbnHeader.destSlot = d ∧
      query.gbnHeader.seqnum = ofNat 32 (m.accepted.length+1) := by
  obtain ⟨query,countdown,hrx,hdata⟩ := hpend
  obtain ⟨hheader,-,hpos,hle,hexpt⟩ := hm.held query _ countdown hrx hdata.2.1
  have hreceived : m.accepted.length+1-1 ≤ (view s m.sender).ses.lastSentSeqnum.toNat :=
    hm.window.received
  have hcount := hm.window.count
  have hseq : query.gbnHeader.seqnum = ofNat 32 m.held := by rw [hheader]
  have hval := congrArg BitVec.toNat (hseq.symm.trans hexpt)
  rw [toNat_ofNat,toNat_ofNat,Nat.mod_eq_of_lt (show m.held < 2^32 by omega)] at hval
  have heq : m.held = m.accepted.length+1 := by
    by_cases hwrap : m.accepted.length+1 < 2^32
    · rw [Nat.mod_eq_of_lt hwrap] at hval
      exact hval
    · -- number 0 is carried by no packet below the wrap
      have hfull : m.accepted.length+1 = 2^32 := by omega
      rw [hfull,Nat.mod_self] at hval
      omega
  exact ⟨heq,hle,query,countdown,by rw [← hexpt]; exact hrx,hdata.2.1,hexpt⟩

lemma held_next (hd : d ≠ 0) (hm : Inv s d m)
    (hpacket : ∀ query ∈ reads m.receiver i, DataFor d query →
      query.gbnHeader = ⟨.data,ofNat 32 packet,s,d⟩ ∧ 1 ≤ packet ∧ packet ≤ m.sent)
    (query : QueryReq) (expt : Seqnum) (countdown : BitVec 8)
    (h : (next m.receiver i).rx = .handleData query expt countdown)
    (hdest : query.gbnHeader.destSlot = d) :
    m.receiver.rx = .recvRxReq ∧ query.gbnHeader = ⟨.data,ofNat 32 packet,s,d⟩ ∧
      DataFor d query ∧ 1 ≤ packet ∧ packet ≤ m.sent ∧
      expt = ofNat 32 (m.accepted.length+1) := by
  obtain ⟨⟨hidle,hreq,-,hdata⟩,hexpt,-⟩ := (held_iff query expt countdown hd hdest).mp h
  obtain ⟨hheader,hpos,hle⟩ := hpacket query (by simp [reads,hidle,hreq]) hdata
  exact ⟨hidle,hheader,hdata,hpos,hle,hexpt.trans hm.expected⟩

lemma accept_inv (hd : d ≠ 0) (hm : Inv s d m) (hsent : m.sent < 2^32)
    (hset : setsUp d i = false) (hpend : Pending d m.receiver.rx) :
    Inv s d (callReceiver d m i packet) := by
  obtain ⟨hheld,hle,query,countdown,hrx,hdest,hseq⟩ := accepted_next hm hsent hpend
  obtain ⟨hexpt,hidle⟩ := Delivery.accepted_expected d i hrx hdest hseq
  have haccepted : (callReceiver d m i packet).accepted = m.accepted++[m.held] := by
    simp only [callReceiver,accepts_iff hd,hpend,if_true]
  have hlength : (callReceiver d m i packet).accepted.length = m.accepted.length+1 := by
    rw [haccepted,List.length_append,List.length_singleton]
  have hcount := hm.window.count
  refine ⟨?_,hm.acked,hm.ackHeld,?_,?_,?_,?_⟩
  · rw [hlength]
    refine ⟨Nat.succ_pos _,hm.window.acked.trans (by omega),?_,hm.window.room,hm.window.count,?_,
      hm.window.tx⟩
    · show m.accepted.length+1+1-1 ≤ (view s m.sender).ses.lastSentSeqnum.toNat
      omega
    · intro q la ls hq
      obtain ⟨hla,hlt⟩ := hm.window.rx q la ls hq
      exact ⟨hla,Nat.lt_succ_of_lt hlt⟩
  · rw [hlength,haccepted,hheld,List.range'_1_concat,← hm.accepted,Nat.add_comm 1]
  · rw [hlength]
    refine (expected_next d m.receiver i hset).trans (hexpt.trans ?_)
    exact (ofNat_add (m.accepted.length+1) 1).symm
  · intro q e c hq
    have hfree : (callReceiver d m i packet).receiver.rx = .recvRxReq := hidle
    rw [hfree] at hq
    cases hq
  · intro a ha
    rw [hlength]
    rcases List.mem_append.mp ha with ha | ha
    · obtain ⟨hnumber,hbound⟩ := hm.answers a ha
      exact ⟨hnumber,hbound.trans (Nat.le_succ _)⟩
    · obtain ⟨rsp,hrsp,rfl⟩ := List.mem_map.mp ha
      obtain ⟨q,e,c,hq,-,hnumber⟩ := answer_written d m.receiver i rsp hrsp
      rw [hrx] at hq
      cases hq
      have hlength' : (if Accepts d m.receiver i then m.accepted++[m.held] else m.accepted).length =
          m.accepted.length+1 := hlength
      simp only [hlength']
      exact ⟨hnumber.trans (if_pos hseq),le_refl _⟩

lemma pass_inv (hd : d ≠ 0) (hm : Inv s d m) (hset : setsUp d i = false)
    (hpacket : ∀ query ∈ reads m.receiver i, DataFor d query →
      query.gbnHeader = ⟨.data,ofNat 32 packet,s,d⟩ ∧ 1 ≤ packet ∧ packet ≤ m.sent)
    (hpend : ¬Pending d m.receiver.rx) : Inv s d (callReceiver d m i packet) := by
  have haccepted : (callReceiver d m i packet).accepted = m.accepted := by
    simp only [callReceiver,accepts_iff hd,hpend,if_false]
  have hkept := not_pending_expected (i := i) hpend
    (fun query expt countdown hrx hdest => (hm.held query expt countdown hrx hdest).2.1)
  refine ⟨?_,hm.acked,hm.ackHeld,?_,?_,?_,?_⟩
  · rw [haccepted]
    exact hm.window
  · rw [haccepted]
    exact hm.accepted
  · rw [haccepted]
    exact (expected_next d m.receiver i hset).trans (hkept.trans hm.expected)
  · intro query expt countdown h hdest
    obtain ⟨hidle,hrest⟩ := held_next hd hm hpacket query expt countdown h hdest
    rw [haccepted]
    simpa [callReceiver,hidle] using hrest
  · intro a ha
    rw [haccepted]
    rcases List.mem_append.mp ha with ha | ha
    · exact hm.answers a ha
    · obtain ⟨rsp,hrsp,rfl⟩ := List.mem_map.mp ha
      obtain ⟨q,e,c,hq,hdest,hnumber⟩ := answer_written d m.receiver i rsp hrsp
      obtain ⟨-,hdata,-,-,rfl⟩ := hm.held q e c hq hdest
      have hne : q.gbnHeader.seqnum ≠ ofNat 32 (m.accepted.length+1) := by
        intro heq
        exact hpend ⟨q,c,by rw [heq]; exact hq,hdata⟩
      have haccepted' : (if Accepts d m.receiver i then m.accepted++[m.held] else m.accepted) =
          m.accepted := haccepted
      simp only [haccepted']
      refine ⟨(hnumber.trans (if_neg hne)).trans ?_,le_refl _⟩
      rw [ofNat_add]
      exact BitVec.add_sub_cancel _ _

end

/-! ## Below the wrap -/

lemma step_inv (s d : SlotId) (hd : d ≠ 0) (m : Net) (a : Action) (u : Net)
    (hm : m.sent < 2^32 → Inv s d m) (h : exec s d m a = some u) : u.sent < 2^32 → Inv s d u := by
  intro hsent
  cases a with
  | sender i answer =>
    simp only [exec,Option.ite_none_right_eq_some,Option.some.injEq] at h
    obtain ⟨⟨hset,hanswer⟩,rfl⟩ := h
    exact sender_inv (hm (lt_of_le_of_lt (Nat.le_add_right _ _) hsent)) hset hanswer hsent
  | receiver i packet =>
    simp only [exec,Option.ite_none_right_eq_some,Option.some.injEq] at h
    obtain ⟨⟨hset,hpacket⟩,rfl⟩ := h
    have hold : m.sent < 2^32 := hsent
    by_cases hpend : Pending d m.receiver.rx
    · exact accept_inv hd (hm hold) hold hset hpend
    · exact pass_inv hd (hm hold) hset hpacket hpend

lemma boot_inv (s d : SlotId) : Inv s d (boot s d) := by
  have hview : view s (boot s d).sender = freshView := opened_view s
  have hexpected : ((boot s d).receiver.session d).expectedSeqnum = 1 := by
    simp [boot,opened,openCall,next,initStep,setSession,setState,initSession]
  refine ⟨?_,?_,?_,rfl,hexpected,?_,?_⟩
  · rw [hview]
    exact ⟨Nat.one_pos,le_refl _,le_refl _,Nat.zero_le _,rfl,fun _ _ _ h => (by cases h),
      fun _ _ h => (by cases h)⟩
  · rw [hview]
    rfl
  · rw [hview]
    intro q la ls h
    cases h
  · intro q e c h
    cases h
  · intro a ha
    cases ha

/-- Below 2^32 packets, delivery is in order and once and at most a window is outstanding. -/
theorem law_below_wrap (s d : SlotId) (hd : d ≠ 0) (acts : List Action) (m : Net)
    (hrun : run (exec s d) acts (boot s d) = some m) (hsent : m.sent < 2^32) : Law s m := by
  have hm : Inv s d m := run_preserves (exec s d) (fun m => m.sent < 2^32 → Inv s d m)
    (step_inv s d hd) acts (boot s d) m (fun _ => boot_inv s d) hrun hsent
  have hcount : (view s m.sender).ses.lastSentSeqnum.toNat = m.sent := hm.window.count
  have hacked : (m.sender.session s).lastAckdSeqnum.toNat = m.acked := hm.acked
  have hreceived : m.accepted.length+1-1 ≤ (view s m.sender).ses.lastSentSeqnum.toNat :=
    hm.window.received
  have hle : (view s m.sender).ses.lastAckdSeqnum.toNat ≤ m.accepted.length+1-1 := hm.window.acked
  have hroom := hm.window.room
  rw [hm.acked] at hle hroom
  refine ⟨⟨hm.accepted,by omega⟩,?_,by omega,by omega⟩
  apply BitVec.eq_of_toNat_eq
  rw [hacked,toNat_ofNat,Nat.mod_eq_of_lt (by omega)]

def onePacket : List Action :=
  [.sender (requestCall 1) none,.sender {} none,.sender { txFinishSig := some true } none,
    .receiver (queryCall (dataQuery 1 1 1)) 1,.receiver {} 1]

theorem law_below_wrap_one : ∃ m, run (exec 1 1) onePacket (boot 1 1) = some m ∧
    m.accepted = [1] ∧ m.sent = 1 ∧ Law 1 m :=
  ⟨_,rfl,rfl,rfl,law_below_wrap 1 1 (by decide) onePacket _ rfl (by decide)⟩

/-! ## Across the wrap -/

section

variable (s d : SlotId)

def Reached (m : Net) : Prop :=
  ∃ acts, Guarded (exec s d) Timely acts (boot s d) ∧ run (exec s d) acts (boot s d) = some m

variable {s d}

lemma reached_step {m u : Net} (a : Action) (hm : Reached s d m) (ha : Timely m a)
    (h : exec s d m a = some u) : Reached s d u := by
  obtain ⟨acts,hok,hrun⟩ := hm
  refine ⟨acts++[a],guarded_concat (exec s d) Timely acts [a] _ m hok hrun ⟨ha,?_⟩,
    (run_append (exec s d) acts [a] _ u).mpr ⟨m,hrun,?_⟩⟩
  · rw [h]
    trivial
  · rw [run,h]
    rfl

lemma reached_sender {m : Net} (i : CallIn) (hm : Reached s d m) (hset : setsUp s i = false)
    (hnone : i.stateQueryReq = none) : Reached s d (callSender s m i none) := by
  refine reached_step (.sender i none) hm (fun a ha => absurd ha (by simp)) (if_pos ⟨hset,?_⟩)
  intro query hq
  simp [reads,hnone] at hq

lemma reached_receiver {m : Net} (i : CallIn) (hm : Reached s d m) (hset : setsUp d i = false)
    (hnone : i.stateQueryReq = none) (packet : ℕ) (hlate : m.sent < packet+2^31) :
    Reached s d (callReceiver d m i packet) := by
  refine reached_step (.receiver i packet) hm hlate (if_pos ⟨hset,?_⟩)
  intro query hq
  simp [reads,hnone] at hq

variable {f g : SlotId → Session}

lemma next_read_data (hs : s ≠ 0) (hd : d ≠ 0) (seq : Seqnum) :
    next ⟨.recvRxReq,.recvTxReq,g⟩ (queryCall (dataQuery seq s d)) =
      ⟨.handleData (dataQuery seq s d) (g d).expectedSeqnum (g d).ackCountdown,.recvTxReq,g⟩ := by
  have hsession : (dataQuery seq s d).gbnHeader.inSession = true := (in_session_iff _).mpr ⟨hd,hs⟩
  have hbroadcast : (dataQuery seq s d).broadcast = false := rfl
  have hlatch : recvRxReq (dataQuery seq s d) (g d) =
      (.handleData (dataQuery seq s d) (g d).expectedSeqnum (g d).ackCountdown,{}) := by
    rw [recvRxReq,hbroadcast,hsession]
    rfl
  show TableState.mk (recvRxReq (dataQuery seq s d) (g d)).1 .recvTxReq g = _
  rw [hlatch]

lemma next_read_ack (hs : s ≠ 0) (hd : d ≠ 0) (ty : GbnPktType) (hty : ty = .ack ∨ ty = .nack)
    (seq : Seqnum) :
    next ⟨.recvRxReq,.recvTxReq,f⟩ (queryCall ⟨⟨ty,seq,d,s⟩,2,1⟩) =
      ⟨.handleAck ⟨⟨ty,seq,d,s⟩,2,1⟩ (f s).lastAckdSeqnum (f s).lastSentSeqnum,.recvTxReq,f⟩ := by
  have hsession : GbnHeader.inSession ⟨ty,seq,d,s⟩ = true := (in_session_iff _).mpr ⟨hs,hd⟩
  have hbroadcast : QueryReq.broadcast ⟨⟨ty,seq,d,s⟩,2,1⟩ = false := rfl
  have hlatch : recvRxReq ⟨⟨ty,seq,d,s⟩,2,1⟩ (f s) =
      (.handleAck ⟨⟨ty,seq,d,s⟩,2,1⟩ (f s).lastAckdSeqnum (f s).lastSentSeqnum,{}) := by
    rw [recvRxReq,hbroadcast]
    simp only [hsession]
    rcases hty with rfl | rfl <;> rfl
  show TableState.mk (recvRxReq ⟨⟨ty,seq,d,s⟩,2,1⟩ (f s)).1 .recvTxReq f = _
  rw [hlatch]

lemma handed_out_reply (ls : Seqnum) (hopen : windowOpen (f s).lastAckdSeqnum ls = true) :
    (handedOut s ⟨.recvRxReq,.replTxReq s ls,f⟩ {}).length = 1 := by
  rw [handed_out]
  simp [txEvent,step,view,txOf,afterRx,rxStep,replTxReq,hopen,ofTx]

/-- Both tables at rest. -/
def rest (f g : SlotId → Session) (sent acked ackHeld : ℕ) (accepted : List ℕ) (held : ℕ)
    (answers : List Answer) : Net :=
  ⟨⟨.recvRxReq,.recvTxReq,f⟩,⟨.recvRxReq,.recvTxReq,g⟩,sent,acked,ackHeld,accepted,held,answers⟩

variable {sent acked ackHeld held : ℕ} {accepted : List ℕ} {answers : List Answer}

lemma reached_send (hm : Reached s d (rest f g sent acked ackHeld accepted held answers))
    (hopen : windowOpen (f s).lastAckdSeqnum (f s).lastSentSeqnum = true) :
    Reached s d (rest (update f s { f s with lastSentSeqnum := (f s).lastSentSeqnum+1 }) g
      (sent+1) acked ackHeld accepted held answers) := by
  have hask : callSender s (rest f g sent acked ackHeld accepted held answers)
    (requestCall s) none =
      ⟨⟨.recvRxReq,.replTxReq s (f s).lastSentSeqnum,f⟩,⟨.recvRxReq,.recvTxReq,g⟩,
        sent,acked,ackHeld,
        accepted,held,answers⟩ := by
    have hnone := handed_out_nil s ⟨.recvRxReq,.recvTxReq,f⟩ (requestCall s)
      (fun _ _ h => (by cases h))
    simp only [callSender,rest,hnone]
    rfl
  have hnumber : callSender s ⟨⟨.recvRxReq,.replTxReq s (f s).lastSentSeqnum,f⟩,
        ⟨.recvRxReq,.recvTxReq,g⟩,sent,acked,ackHeld,accepted,held,answers⟩ {} none =
      ⟨⟨.recvRxReq,.updTxInfo s (f s).lastAckdSeqnum (f s).lastSentSeqnum,
        update f s { f s with lastSentSeqnum := (f s).lastSentSeqnum+1 }⟩,
        ⟨.recvRxReq,.recvTxReq,g⟩,sent+1,acked,ackHeld,accepted,held,answers⟩ := by
    have hreply := next_reply ⟨.recvRxReq,.replTxReq s (f s).lastSentSeqnum,f⟩
      nrBatchedPktPerAckFpga s _ rfl rfl hopen
    simp only [callSender,hreply,handed_out_reply _ hopen]
    rfl
  have hasked := reached_sender (requestCall s) hm rfl rfl
  rw [hask] at hasked
  have hnumbered := reached_sender {} hasked rfl rfl
  rw [hnumber] at hnumbered
  have hfinish := reached_sender { txFinishSig := some true } hnumbered rfl rfl
  have hnone := handed_out_nil s ⟨.recvRxReq,.updTxInfo s (f s).lastAckdSeqnum (f s).lastSentSeqnum,
    update f s { f s with lastSentSeqnum := (f s).lastSentSeqnum+1 }⟩
    { txFinishSig := some true } (fun _ _ h => (by cases h))
  simp only [callSender,hnone] at hfinish
  exact hfinish

lemma not_accepts (hd : d ≠ 0) (t : TableState) (i : CallIn) (h : t.rx = .recvRxReq) :
    ¬Accepts d t i := by
  rw [accepts_iff hd,h]
  rintro ⟨_,_,hrx,-⟩
  cases hrx

lemma no_answers (t : TableState) (i : CallIn) (h : t.rx = .recvRxReq) :
    (slotOutput d t i).rsp = [] := by
  apply List.eq_nil_iff_forall_not_mem.mpr
  intro rsp hrsp
  obtain ⟨q,e,c,hrx,-⟩ := answer_written d t i rsp hrsp
  rw [h] at hrx
  cases hrx

lemma reached_read (hs : s ≠ 0) (hd : d ≠ 0) (k : ℕ) (hpos : 1 ≤ k) (hle : k ≤ sent)
    (hlate : sent < k+2^31)
    (hm : Reached s d (rest f g sent acked ackHeld accepted held answers)) :
    Reached s d ⟨⟨.recvRxReq,.recvTxReq,f⟩,
      ⟨.handleData (dataQuery (ofNat 32 k) s d) (g d).expectedSeqnum (g d).ackCountdown,
        .recvTxReq,g⟩,sent,acked,ackHeld,accepted,k,answers⟩ := by
  refine reached_step (.receiver (queryCall (dataQuery (ofNat 32 k) s d)) k) hm hlate ?_
  have hread : ∀ query ∈ reads (rest f g sent acked ackHeld accepted held answers).receiver
      (queryCall (dataQuery (ofNat 32 k) s d)), DataFor d query →
      query.gbnHeader = ⟨.data,ofNat 32 k,s,d⟩ ∧ 1 ≤ k ∧ k ≤ sent := by
    intro query hq _
    cases hq
    exact ⟨rfl,hpos,hle⟩
  rw [exec,if_pos ⟨rfl,hread⟩]
  simp only [callReceiver,rest,not_accepts hd ⟨.recvRxReq,.recvTxReq,g⟩ _ rfl,if_false,
    no_answers ⟨.recvRxReq,.recvTxReq,g⟩ _ rfl,next_read_data hs hd]
  simp

lemma accepts_own (hs : s ≠ 0) (hd : d ≠ 0) (seq expt : Seqnum) (countdown : BitVec 8) :
    Accepts d ⟨.handleData (dataQuery seq s d) expt countdown,.recvTxReq,g⟩ {} ↔ seq = expt := by
  rw [accepts_iff hd]
  constructor
  · rintro ⟨q,c,h,-⟩
    cases h
    rfl
  · rintro rfl
    exact ⟨_,_,rfl,rfl,rfl,hs⟩

lemma own_answers (seq expt : Seqnum) (countdown : BitVec 8) :
    (slotOutput d ⟨.handleData (dataQuery seq s d) expt countdown,.recvTxReq,g⟩ {}).rsp =
      (handleData (dataQuery seq s d) expt countdown (g d)).2.rsp.toList := by
  simp only [slotOutput,rxEvent,dataQuery,if_true]
  rfl

lemma duplicate_answer (seq expt : Seqnum) (countdown : BitVec 8) (ses : Session)
    (hne : seq ≠ expt) (henable : ses.ackEnable = true) :
    ∃ ty, (ty = .ack ∨ ty = .nack) ∧ (handleData (dataQuery seq s d) expt countdown ses).2.rsp =
      some (rspPacket (dataQuery seq s d) ty (expt-1)) := by
  have hne' : (dataQuery seq s d).gbnHeader.seqnum ≠ expt := hne
  by_cases hlt : expt < (dataQuery seq s d).gbnHeader.seqnum
  · exact ⟨.nack,.inr rfl,by simp only [handleData,if_neg hne',henable,if_true,if_pos hlt]⟩
  · exact ⟨.ack,.inl rfl,by simp only [handleData,if_neg hne',henable,if_true,if_neg hlt]⟩

lemma accepted_enable (query : QueryReq) (countdown : BitVec 8) (ses : Session) :
    (handleData query query.gbnHeader.seqnum countdown ses).1.ackEnable = true := by
  unfold handleData
  dsimp only
  split_ifs <;> simp_all

lemma reached_accept (hs : s ≠ 0) (hd : d ≠ 0) (k : ℕ) (hpos : 1 ≤ k) (hle : k ≤ sent)
    (hlate : sent < k+2^31) (hexpt : (g d).expectedSeqnum = ofNat 32 k)
    (hm : Reached s d (rest f g sent acked ackHeld accepted held answers)) :
    ∃ h more, (h d).expectedSeqnum = ofNat 32 (k+1) ∧ (h d).ackEnable = true ∧
      Reached s d (rest f h sent acked ackHeld (accepted++[k]) k more) := by
  have hread := reached_read hs hd k hpos hle hlate hm
  rw [hexpt] at hread
  have hown : Accepts d ⟨.handleData (dataQuery (ofNat 32 k) s d) (ofNat 32 k)
      (g d).ackCountdown,.recvTxReq,g⟩ {} := (accepts_own hs hd _ _ _).mpr rfl
  have haccept := reached_receiver {} hread rfl rfl k hlate
  simp only [callReceiver,hown,if_true] at haccept
  refine ⟨update g d (handleData (dataQuery (ofNat 32 k) s d) (ofNat 32 k)
    (g d).ackCountdown (g d)).1,_,?_,?_,haccept⟩
  · rw [update_self,data_expected,ofNat_add]
    exact if_pos rfl
  · rw [update_self]
    exact accepted_enable (dataQuery (ofNat 32 k) s d) (g d).ackCountdown (g d)

lemma reached_duplicate (hs : s ≠ 0) (hd : d ≠ 0) (k : ℕ) (hpos : 1 ≤ k) (hle : k ≤ sent)
    (hlate : sent < k+2^31) (hexpt : (g d).expectedSeqnum = ofNat 32 (k+1))
    (henable : (g d).ackEnable = true)
    (hm : Reached s d (rest f g sent acked ackHeld accepted held answers)) :
    ∃ h more ty, (ty = .ack ∨ ty = .nack) ∧ (h d).expectedSeqnum = ofNat 32 (k+1) ∧
      ⟨⟨ty,ofNat 32 k,d,s⟩,accepted.length,sent⟩ ∈ more ∧
      Reached s d (rest f h sent acked ackHeld accepted k more) := by
  have hne : ofNat 32 k ≠ ofNat 32 (k+1) := by
    rw [ofNat_add]
    simp
  have hread := reached_read hs hd k hpos hle hlate hm
  rw [hexpt] at hread
  have hnot : ¬Accepts d ⟨.handleData (dataQuery (ofNat 32 k) s d) (ofNat 32 (k+1))
      (g d).ackCountdown,.recvTxReq,g⟩ {} := fun h => hne ((accepts_own hs hd _ _ _).mp h)
  have hanswer := reached_receiver {} hread rfl rfl k hlate
  obtain ⟨ty,hty,hrsp⟩ := duplicate_answer (s := s) (d := d) (ofNat 32 k)
    (ofNat 32 (k+1)) (g d).ackCountdown (g d) hne henable
  have hnumber : ofNat 32 (k+1)-1 = ofNat 32 k := by
    rw [ofNat_add]
    exact BitVec.add_sub_cancel _ _
  rw [hnumber] at hrsp
  simp only [callReceiver,hnot,if_false,own_answers,hrsp] at hanswer
  refine ⟨update g d (handleData (dataQuery (ofNat 32 k) s d)
    (ofNat 32 (k+1)) (g d).ackCountdown (g d)).1,_,ty,hty,?_,?_,hanswer⟩
  · rw [update_self,data_expected]
    exact (if_neg hne).trans hexpt
  · exact List.mem_append_right _ (List.mem_singleton.mpr rfl)

lemma reached_ack (hs : s ≠ 0) (hd : d ≠ 0) (k : ℕ) (ty : GbnPktType)
    (hty : ty = .ack ∨ ty = .nack) (sentThen : ℕ) (hlate : sent < sentThen+2^31)
    (hmem : ⟨⟨ty,ofNat 32 k,d,s⟩,k,sentThen⟩ ∈ answers)
    (hm : Reached s d (rest f g sent acked ackHeld accepted held answers)) :
    ∃ h, (h s).lastSentSeqnum = (f s).lastSentSeqnum ∧
      (h s).lastAckdSeqnum = (if (f s).lastAckdSeqnum < ofNat 32 k then ofNat 32 k
        else (f s).lastAckdSeqnum) ∧
      Reached s d (rest h g sent (max acked k) k accepted held answers) := by
  have hread : Reached s d ⟨⟨.handleAck ⟨⟨ty,ofNat 32 k,d,s⟩,2,1⟩ (f s).lastAckdSeqnum
      (f s).lastSentSeqnum,.recvTxReq,f⟩,⟨.recvRxReq,.recvTxReq,g⟩,sent,acked,k,accepted,held,
      answers⟩ := by
    refine reached_step (.sender (queryCall ⟨⟨ty,ofNat 32 k,d,s⟩,2,1⟩)
      (some ⟨⟨ty,ofNat 32 k,d,s⟩,k,sentThen⟩)) hm ?_ ?_
    · intro a ha
      cases ha
      exact hlate
    · have hfrom : ∀ query ∈ reads (rest f g sent acked ackHeld accepted held answers).sender
          (queryCall ⟨⟨ty,ofNat 32 k,d,s⟩,2,1⟩), AckFor s query →
          ∃ a ∈ some (Answer.mk ⟨ty,ofNat 32 k,d,s⟩ k sentThen), a ∈ answers ∧
            a.header = query.gbnHeader := by
        intro query hq _
        cases hq
        exact ⟨_,rfl,hmem,rfl⟩
      have hnone := handed_out_nil s ⟨.recvRxReq,.recvTxReq,f⟩
        (queryCall ⟨⟨ty,ofNat 32 k,d,s⟩,2,1⟩) (fun _ _ h => (by cases h))
      rw [exec,if_pos ⟨rfl,hfrom⟩]
      simp only [callSender,rest,hnone,next_read_ack hs hd ty hty]
      rfl
  have hhandle := reached_sender {} hread rfl rfl
  have hnone := handed_out_nil s ⟨.handleAck ⟨⟨ty,ofNat 32 k,d,s⟩,2,1⟩ (f s).lastAckdSeqnum
    (f s).lastSentSeqnum,.recvTxReq,f⟩ {} (fun _ _ h => (by cases h))
  simp only [callSender,hnone,handlesAck,decide_true,if_true] at hhandle
  refine ⟨update f s (handleAck ⟨⟨ty,ofNat 32 k,d,s⟩,2,1⟩ (f s).lastAckdSeqnum
    (f s).lastSentSeqnum (f s)).1,?_,?_,hhandle⟩
  · rw [update_self,(ack_counters _ _ _ _).2]
  · rw [update_self,(ack_counters _ _ _ _).1]

def Synced (s d : SlotId) (n : ℕ) (la : Seqnum) : Prop :=
  ∃ f g ackHeld accepted held answers, accepted.length = n ∧
    (f s).lastSentSeqnum = BitVec.ofNat 32 n ∧ (f s).lastAckdSeqnum = la ∧
    (g d).expectedSeqnum = BitVec.ofNat 32 (n+1) ∧
    Reached s d (rest f g n n ackHeld accepted held answers)

lemma synced_boot (s d : SlotId) : Synced s d 0 0 := by
  refine ⟨(opened s).session,(opened d).session,0,[],0,[],rfl,?_,?_,?_,[],trivial,rfl⟩ <;>
    simp [opened,openCall,next,initStep,setSession,setState,initSession]

lemma synced_round (hs : s ≠ 0) (hd : d ≠ 0) (n : ℕ) (la : Seqnum)
    (hopen : windowOpen la (ofNat 32 n) = true) (hn : Synced s d n la) :
    Synced s d (n+1) (if la < ofNat 32 (n+1) then ofNat 32 (n+1) else la) := by
  obtain ⟨f,g,ackHeld,accepted,held,answers,hlength,hsent,hla,hexpt,hm⟩ := hn
  have hsend := reached_send hm (by rw [hla,hsent]; exact hopen)
  obtain ⟨g1,answers1,hexpt1,henable,haccept⟩ := reached_accept hs hd (n+1) (by omega) (le_refl _)
    (by omega) hexpt hsend
  obtain ⟨g2,answers2,ty,hty,hexpt2,hmem,hcopy⟩ := reached_duplicate hs hd (n+1) (by omega)
    (le_refl _) (by omega) hexpt1 henable haccept
  have hcount : (accepted++[n+1]).length = n+1 := by simp [hlength]
  rw [hcount] at hmem
  obtain ⟨f1,hsent1,hla1,hack⟩ := reached_ack hs hd (n+1) ty hty (n+1) (by omega) hmem hcopy
  rw [Nat.max_eq_right (Nat.le_succ n)] at hack
  refine ⟨f1,g2,_,_,_,_,hcount,?_,?_,hexpt2,hack⟩
  · rw [hsent1,update_self,hsent,ofNat_add]
    rfl
  · rw [hla1,update_self,hla]

lemma window_open_self (x : Seqnum) : windowOpen x x = true := by
  simp [windowOpen,windowSize]

lemma synced_below (hs : s ≠ 0) (hd : d ≠ 0) (n : ℕ) (hlt : n < 2^32) :
    Synced s d n (ofNat 32 n) := by
  induction n with
  | zero => exact synced_boot s d
  | succ n ih =>
    have hround := synced_round hs hd n _ (window_open_self _) (ih (by omega))
    have hgrows : ofNat 32 n < ofNat 32 (n+1) := by
      rw [lt_def,toNat_ofNat,toNat_ofNat,Nat.mod_eq_of_lt (by omega),Nat.mod_eq_of_lt hlt]
      omega
    rw [if_pos hgrows] at hround
    exact hround

lemma synced_wrap (hs : s ≠ 0) (hd : d ≠ 0) : Synced s d (2^32) (ofNat 32 (2^32-1)) := by
  have hround := synced_round hs hd (2^32-1) _ (window_open_self _)
    (synced_below hs hd (2^32-1) (by norm_num))
  have hsmall : ¬ofNat 32 (2^32-1) < ofNat 32 (2^32-1+1) := by
    rw [lt_def,toNat_ofNat,toNat_ofNat]
    norm_num
  rw [if_neg hsmall] at hround
  exact hround

lemma reached_unacked (hs : s ≠ 0) (hd : d ≠ 0) (j : ℕ) :
    ∃ f g ackHeld accepted held answers, (f s).lastAckdSeqnum = ofNat 32 (2^32-1) ∧
      Reached s d (rest f g (2^32+j) (2^32) ackHeld accepted held answers) := by
  induction j with
  | zero =>
    obtain ⟨f,g,ackHeld,accepted,held,answers,-,-,hla,-,hm⟩ := synced_wrap hs hd
    exact ⟨f,g,ackHeld,accepted,held,answers,hla,hm⟩
  | succ j ih =>
    obtain ⟨f,g,ackHeld,accepted,held,answers,hla,hm⟩ := ih
    have hopen : windowOpen (f s).lastAckdSeqnum (f s).lastSentSeqnum = true := by
      have hlt := (f s).lastSentSeqnum.isLt
      rw [hla,windowOpen,toNat_ofNat,decide_eq_true_iff,windowSize]
      omega
    have hsend := reached_send hm hopen
    refine ⟨_,g,ackHeld,accepted,held,answers,?_,hsend⟩
    rw [update_self]
    exact hla

/-- After packet 2^32 more than a window is outstanding, though everything arrives at once. -/
theorem window_lost_at_wrap : ∃ acts m, Guarded (exec 1 1) Timely acts (boot 1 1) ∧
    run (exec 1 1) acts (boot 1 1) = some m ∧
    (m.sender.session 1).lastAckdSeqnum ≠ ofNat 32 m.acked ∧
    m.acked+windowSize < m.sent := by
  have hone : (1 : SlotId) ≠ 0 := by decide
  obtain ⟨f,g,ackHeld,accepted,held,answers,hla,acts,hok,hrun⟩ := reached_unacked hone hone 129
  refine ⟨acts,_,hok,hrun,?_,?_⟩
  · have hacked : ((rest f g (2^32+129) (2^32) ackHeld accepted held answers).sender.session
        1).lastAckdSeqnum = ofNat 32 (2^32-1) := hla
    rw [hacked]
    show ofNat 32 (2^32-1) ≠ ofNat 32 (2^32)
    decide
  · show 2^32+windowSize < 2^32+129
    decide

end

end Clio.SequenceWrap
