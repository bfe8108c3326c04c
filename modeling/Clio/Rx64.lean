import Clio.Retransmission
import Clio.SessionSetup
import Clio.Tx64

/-!
# The receive path of the go-back-N transport

A packet from the network is a header and a stream of beats, the transport header first.
-/

namespace Clio.Rx64

open StateTable SessionSetup UnackedBuffer Tx64 Retransmission Machine
open List (prefix_rfl)
open Prod (fst snd)

/-- The first beat is the transport header, and only the last beat is marked. -/
structure UdpPacket where
  info : UdpInfo
  first : NetAxis64
  rest : List NetAxis64
  framed : ended (first::rest) = true

def UdpPacket.beats (p : UdpPacket) : List NetAxis64 := p.first::p.rest

inductive UdpRecvStatus where
  | udpHeader
  | waitRsp (pkt : NetAxis64) (info : UdpInfo)
  | deliverData (deliver : Bool)
  deriving DecidableEq, Repr

structure RxOut where
  stateQueryReq : Option QueryReq := none
  usrRxHeader : Option UdpInfo := none
  usrRxPayload : Option NetAxis64 := none
  deriving DecidableEq, Repr

def usrUdpInfo (info : UdpInfo) (pkt : NetAxis64) : UdpInfo :=
  { info with destPort := (headerOf pkt).destSlot.setWidth 16
              srcPort := (headerOf pkt).srcSlot.setWidth 16
              length := info.length-16 }

def queryReq (info : UdpInfo) (pkt : NetAxis64) : QueryReq :=
  ⟨headerOf pkt, info.srcIp, info.destIp⟩

def rx64 (state : UdpRecvStatus) (rxHeader : Option UdpInfo) (rxPayload : Option NetAxis64)
    (stateQueryRsp : Option Bool) : UdpRecvStatus × RxOut :=
  match state with
  | .udpHeader =>
      match rxHeader, rxPayload with
      | some info, some pkt =>
          (.waitRsp pkt (usrUdpInfo info pkt), { stateQueryReq := some (queryReq info pkt) })
      | _, _ => (.udpHeader, {})
  | .waitRsp pkt info =>
      match stateQueryRsp with
      | none => (.waitRsp pkt info, {})
      | some deliver =>
          if pkt.last then (.udpHeader, {})
          else (.deliverData deliver, { usrRxHeader := if deliver then some info else none })
  | .deliverData deliver =>
      match rxPayload with
      | none => (.deliverData deliver, {})
      | some pkt =>
          (if pkt.last then .udpHeader else .deliverData deliver,
            { usrRxPayload := if deliver then some pkt else none })

structure Path where
  rx : UdpRecvStatus
  table : TableState
  rxHeader : List UdpInfo
  rxPayload : List NetAxis64
  stateQueryReq : List QueryReq
  stateQueryRsp : List Bool
  answered : List (QueryReq × Bool)
  usrRxHeader : List UdpInfo
  usrRxPayload : List NetAxis64

def callRx (m : Path) (seeHeader seePayload seeRsp : Bool) : Path :=
  let header := see seeHeader m.rxHeader
  let payload := see seePayload m.rxPayload
  let rsp := see seeRsp m.stateQueryRsp
  let call := rx64 m.rx header payload rsp
  let written := { m with rx := call.1
                          stateQueryReq := m.stateQueryReq++call.2.stateQueryReq.toList
                          usrRxHeader := m.usrRxHeader++call.2.usrRxHeader.toList
                          usrRxPayload := m.usrRxPayload++call.2.usrRxPayload.toList }
  match m.rx with
  | .udpHeader =>
      if header.isSome ∧ payload.isSome then
        { written with rxHeader := m.rxHeader.tail, rxPayload := m.rxPayload.tail }
      else written
  | .waitRsp _ _ =>
      if rsp.isSome then { written with stateQueryRsp := m.stateQueryRsp.tail } else written
  | .deliverData _ =>
      if payload.isSome then { written with rxPayload := m.rxPayload.tail } else written

/-- The question the table works on in a call. -/
def asked (t : TableState) (query : Option QueryReq) : Option QueryReq :=
  match t.rx with
  | .recvRxReq => query
  | .handleData q _ _ => some q
  | .handleAck q _ _ => some q

def callTable (m : Path) (i : CallIn) (seeQuery : Bool) : Path :=
  let query := see seeQuery m.stateQueryReq
  let j := { i with stateQueryReq := query }
  let rsp := (output m.table j).queryRsp.toList
  { m with table := next m.table j
           stateQueryReq :=
             if m.table.rx = .recvRxReq ∧ query.isSome then m.stateQueryReq.tail
             else m.stateQueryReq
           stateQueryRsp := m.stateQueryRsp++rsp
           answered := m.answered++(asked m.table query).toList.flatMap fun q => rsp.map (q,·) }

inductive Action where
  | rx (seeHeader seePayload seeRsp : Bool)
  | table (i : CallIn) (seeQuery : Bool)
  deriving DecidableEq, Repr

def exec (m : Path) : Action → Path
  | .rx seeHeader seePayload seeRsp => callRx m seeHeader seePayload seeRsp
  | .table i seeQuery => callTable m i seeQuery

/-- Both machines idle before the packets, with any content of the session arrays. -/
def start (ps : List UdpPacket) (session : SlotId → Session) : Path :=
  ⟨.udpHeader,⟨.recvRxReq,.recvTxReq,session⟩,ps.map UdpPacket.info,ps.flatMap UdpPacket.beats,
    [],[],[],[],[]⟩

/-! ## The table answers every question once -/

section

variable {t : TableState} {i : CallIn} {q : QueryReq}

def Works (t : TableState) (q : QueryReq) : Prop :=
  (∃ expt countdown, t.rx = .handleData q expt countdown) ∨
    ∃ lastAckd lastSent, t.rx = .handleAck q lastAckd lastSent

lemma asked_works (h : Works t q) (query : Option QueryReq) : asked t query = some q := by
  unfold asked
  rcases h with ⟨_,_,h⟩ | ⟨_,_,h⟩ <;> rw [h]

lemma table_idle (ht : t.rx = .recvRxReq) (hi : i.stateQueryReq = none) :
    (next t i).rx = .recvRxReq ∧ (output t i).queryRsp = none := by
  rw [rx_after]
  simp [afterRx,output,rxStep,ht,hi]

lemma recv_answers (q : QueryReq) (ses : Session) :
    ((recvRxReq q ses).1 = .recvRxReq ∧ (recvRxReq q ses).2.queryRsp.isSome = true) ∨
      (((∃ expt countdown, (recvRxReq q ses).1 = .handleData q expt countdown) ∨
        ∃ lastAckd lastSent, (recvRxReq q ses).1 = .handleAck q lastAckd lastSent) ∧
        (recvRxReq q ses).2.queryRsp = none) := by
  unfold recvRxReq
  split_ifs
  · exact .inl ⟨rfl,rfl⟩
  · split
    · exact .inr ⟨.inl ⟨_,_,rfl⟩,rfl⟩
    · exact .inr ⟨.inr ⟨_,_,rfl⟩,rfl⟩
    · exact .inr ⟨.inr ⟨_,_,rfl⟩,rfl⟩
    · exact .inl ⟨rfl,rfl⟩
  · exact .inl ⟨rfl,rfl⟩

lemma table_asked (ht : t.rx = .recvRxReq) (hi : i.stateQueryReq = some q) :
    ((next t i).rx = .recvRxReq ∧ ∃ ok, (output t i).queryRsp = some ok) ∨
      (Works (next t i) q ∧ (output t i).queryRsp = none) := by
  have hrx : (next t i).rx = (recvRxReq q (t.session q.gbnHeader.destSlot)).1 := by
    simp only [rx_after,afterRx,rxStep,ht,hi]
  have hout : (output t i).queryRsp =
      (recvRxReq q (t.session q.gbnHeader.destSlot)).2.queryRsp := by
    simp only [output,rxStep,ht,hi]
  unfold Works
  rw [hrx,hout]
  rcases recv_answers q (t.session q.gbnHeader.destSlot) with ⟨hidle,hrsp⟩ | hheld
  · exact .inl ⟨hidle,Option.isSome_iff_exists.mp hrsp⟩
  · exact .inr hheld

lemma data_answers (expt : Seqnum) (countdown : BitVec 8) (ses : Session) :
    ∃ ok, (handleData q expt countdown ses).2.queryRsp = some ok := by
  unfold handleData
  dsimp only
  split_ifs <;> exact ⟨_,rfl⟩

lemma ack_answers (lastAckd lastSent : Seqnum) (ses : Session) :
    ∃ ok, (handleAck q lastAckd lastSent ses).2.queryRsp = some ok := by
  unfold handleAck
  dsimp only
  split_ifs <;> exact ⟨_,rfl⟩

lemma table_answers (h : Works t q) :
    (next t i).rx = .recvRxReq ∧ ∃ ok, (output t i).queryRsp = some ok := by
  rw [rx_after]
  rcases h with ⟨expt,countdown,h⟩ | ⟨lastAckd,lastSent,h⟩
  · simp only [afterRx,output,rxStep,h]
    exact ⟨trivial,data_answers expt countdown _⟩
  · simp only [afterRx,output,rxStep,h]
    exact ⟨trivial,ack_answers lastAckd lastSent _⟩

end

/-! ## Stages of the path -/

def UdpPacket.query (p : UdpPacket) : QueryReq := queryReq p.info p.first

def UdpPacket.usrInfo (p : UdpPacket) : UdpInfo := usrUdpInfo p.info p.first

def delivered (xs : List (UdpPacket × Bool)) : List UdpPacket :=
  (xs.filter fun x => x.2 && !x.1.rest.isEmpty).map Prod.fst

def answersOf (xs : List (UdpPacket × Bool)) : List (QueryReq × Bool) :=
  xs.map fun x => (x.1.query,x.2)

variable (xs : List (UdpPacket × Bool))

lemma delivered_append (ys : List (UdpPacket × Bool)) :
    delivered (xs++ys) = delivered xs++delivered ys := by
  rw [delivered,List.filter_append,List.map_append,delivered,delivered]

lemma delivered_more (p : UdpPacket) (ok : Bool) (h : p.rest ≠ []) :
    delivered (xs++[(p,ok)]) = delivered xs++if ok then [p] else [] := by
  rw [delivered_append]
  cases ok <;> simp [delivered,h]

lemma delivered_single (p : UdpPacket) (ok : Bool) (h : p.rest = []) :
    delivered (xs++[(p,ok)]) = delivered xs := by
  rw [delivered_append]
  simp [delivered,h]

def usrInfos (ps : List UdpPacket) : List UdpInfo := ps.map UdpPacket.usrInfo

def usrBeats (ps : List UdpPacket) : List NetAxis64 := ps.flatMap UdpPacket.rest

section

variable (ps : List UdpPacket)

/-- The path waits for the answer to the question of `p`. -/
abbrev waiting (done : List (UdpPacket × Bool)) (p : UdpPacket) (todo : List UdpPacket)
    (t : TableState) (query : List QueryReq) (rsp : List Bool)
    (answered : List (UdpPacket × Bool)) : Path :=
  ⟨.waitRsp p.first p.usrInfo,t,todo.map UdpPacket.info,p.rest++todo.flatMap UdpPacket.beats,query,
    rsp,answersOf answered,usrInfos (delivered done),usrBeats (delivered done)⟩

inductive Stage : Path → Prop where
  | header (done : List (UdpPacket × Bool)) (todo : List UdpPacket)
      (h : ps = done.map Prod.fst++todo) (t : TableState) (ht : t.rx = .recvRxReq) :
      Stage ⟨.udpHeader,t,todo.map UdpPacket.info,todo.flatMap UdpPacket.beats,[],[],
        answersOf done,usrInfos (delivered done),usrBeats (delivered done)⟩
  | queued (done : List (UdpPacket × Bool)) (p : UdpPacket) (todo : List UdpPacket)
      (h : ps = done.map Prod.fst++p::todo) (t : TableState) (ht : t.rx = .recvRxReq) :
      Stage (waiting done p todo t [p.query] [] done)
  | held (done : List (UdpPacket × Bool)) (p : UdpPacket) (todo : List UdpPacket)
      (h : ps = done.map Prod.fst++p::todo) (t : TableState) (ht : Works t p.query) :
      Stage (waiting done p todo t [] [] done)
  | answered (done : List (UdpPacket × Bool)) (p : UdpPacket) (todo : List UdpPacket)
      (h : ps = done.map Prod.fst++p::todo) (ok : Bool) (t : TableState) (ht : t.rx = .recvRxReq) :
      Stage (waiting done p todo t [] [ok] (done++[(p,ok)]))
  | deliver (done : List (UdpPacket × Bool)) (p : UdpPacket) (todo : List UdpPacket)
      (h : ps = done.map Prod.fst++p::todo) (ok : Bool) (pre rem : List NetAxis64)
      (hrest : p.rest = pre++rem) (hne : rem ≠ []) (t : TableState) (ht : t.rx = .recvRxReq) :
      Stage ⟨.deliverData ok,t,todo.map UdpPacket.info,rem++todo.flatMap UdpPacket.beats,[],[],
        answersOf (done++[(p,ok)]),usrInfos (delivered (done++[(p,ok)])),
        usrBeats (delivered done)++if ok then pre else []⟩

end

section

variable {ps : List UdpPacket} {done : List (UdpPacket × Bool)} {p : UdpPacket}
  {todo : List UdpPacket} {t : TableState}

lemma stage_start (ps : List UdpPacket) (session : SlotId → Session) :
    Stage ps (start ps session) :=
  .header [] ps rfl _ rfl

lemma header_call (seeRsp : Bool) (answers : List (QueryReq × Bool)) (hs : List UdpInfo)
    (bs : List NetAxis64) :
    callRx ⟨.udpHeader,t,(p::todo).map UdpPacket.info,(p::todo).flatMap UdpPacket.beats,[],[],
        answers,hs,bs⟩ true true seeRsp =
      ⟨.waitRsp p.first p.usrInfo,t,todo.map UdpPacket.info,p.rest++todo.flatMap UdpPacket.beats,
        [p.query],[],answers,hs,bs⟩ := by
  simp [callRx,see,rx64,UdpPacket.beats,UdpPacket.usrInfo,UdpPacket.query]

lemma header_step (h : ps = done.map fst++todo) (ht : t.rx = .recvRxReq)
    (seeHeader seePayload seeRsp : Bool) :
    Stage ps (callRx ⟨.udpHeader,t,todo.map UdpPacket.info,todo.flatMap UdpPacket.beats,[],[],
      answersOf done,usrInfos (delivered done),usrBeats (delivered done)⟩
      seeHeader seePayload seeRsp) := by
  have hstay := Stage.header done todo h t ht
  cases todo with
  | nil => cases seeHeader <;> cases seePayload <;> simpa [callRx,see,rx64] using hstay
  | cons p todo =>
    cases seeHeader with
    | false => simpa [callRx,see,rx64] using hstay
    | true =>
      cases seePayload with
      | false => simpa [callRx,see,rx64] using hstay
      | true =>
        rw [header_call]
        exact .queued done p todo h t ht

lemma answer_call (h : ps = done.map fst++p::todo) (ht : t.rx = .recvRxReq) (ok : Bool)
    (seeHeader seePayload : Bool) :
    Stage ps
      (callRx (waiting done p todo t [] [ok] (done++[(p,ok)])) seeHeader seePayload true) := by
  have hlast := ended_split [] p.rest p.first p.framed
  by_cases hrest : p.rest = []
  · have hdone : Stage ps _ := .header (done++[(p,ok)]) todo (by simp [h]) t ht
    rw [delivered_single done p ok hrest] at hdone
    simpa [callRx,see,rx64,hlast.mpr hrest,hrest] using hdone
  · have hmore : p.first.last = false := by
      cases hl : p.first.last with
      | false => rfl
      | true => exact absurd (hlast.mp hl) hrest
    have hnext := Stage.deliver done p todo h ok [] p.rest rfl hrest t ht
    rw [delivered_more done p ok hrest] at hnext
    cases ok <;> simpa [callRx,see,rx64,hmore,usrInfos] using hnext

lemma deliver_call (h : ps = done.map fst++p::todo) (ht : t.rx = .recvRxReq) (ok : Bool)
    {pre rem : List NetAxis64} {beat : NetAxis64} (hrest : p.rest = pre++beat::rem)
    (seeHeader seeRsp : Bool) :
    Stage ps (callRx ⟨.deliverData ok,t,todo.map UdpPacket.info,
      beat::rem++todo.flatMap UdpPacket.beats,[],[],answersOf (done++[(p,ok)]),
      usrInfos (delivered (done++[(p,ok)])),usrBeats (delivered done)++if ok then pre else []⟩
      seeHeader true seeRsp) := by
  have hframed := p.framed
  rw [hrest] at hframed
  have hlast := ended_split (p.first::pre) rem beat hframed
  have hne : p.rest ≠ [] := by simp [hrest]
  by_cases hrem : rem = []
  · have hdone : Stage ps _ := .header (done++[(p,ok)]) todo (by simp [h]) t ht
    subst hrem
    have hbeats : usrBeats (delivered (done++[(p,ok)])) =
        usrBeats (delivered done)++if ok then pre++[beat] else [] := by
      rw [delivered_more done p ok hne]
      cases ok <;> simp [usrBeats,hrest]
    rw [hbeats] at hdone
    cases ok <;> simpa [callRx,see,rx64,hlast.mpr rfl] using hdone
  · have hmore : beat.last = false := by
      cases hl : beat.last with
      | false => rfl
      | true => exact absurd (hlast.mp hl) hrem
    have hnext := Stage.deliver done p todo h ok (pre++[beat]) rem (by simp [hrest]) hrem t ht
    cases ok <;> simpa [callRx,see,rx64,hmore] using hnext

variable {m : Path}

lemma rx_stage (hm : Stage ps m) (seeHeader seePayload seeRsp : Bool) :
    Stage ps (callRx m seeHeader seePayload seeRsp) := by
  cases hm with
  | header done todo h t ht => exact header_step h ht seeHeader seePayload seeRsp
  | queued done p todo h t ht =>
    have hstay := Stage.queued done p todo h t ht
    cases seeRsp <;> simpa [callRx,see,rx64] using hstay
  | held done p todo h t ht =>
    have hstay := Stage.held done p todo h t ht
    cases seeRsp <;> simpa [callRx,see,rx64] using hstay
  | answered done p todo h ok t ht =>
    cases seeRsp with
    | true => exact answer_call h ht ok seeHeader seePayload
    | false =>
      have hstay := Stage.answered done p todo h ok t ht
      simpa [callRx,see,rx64] using hstay
  | deliver done p todo h ok pre rem hrest hne t ht =>
    cases seePayload with
    | true =>
      obtain ⟨beat,rem,rfl⟩ := List.exists_cons_of_ne_nil hne
      exact deliver_call h ht ok hrest seeHeader seeRsp
    | false =>
      have hstay := Stage.deliver done p todo h ok pre rem hrest hne t ht
      simpa [callRx,see,rx64] using hstay

lemma idle_call {m : Path} (i : CallIn) (seeQuery : Bool) (ht : m.table.rx = .recvRxReq)
    (hq : m.stateQueryReq = []) :
    ∃ t : TableState, t.rx = .recvRxReq ∧ callTable m i seeQuery = { m with table := t } := by
  have hnone : see seeQuery m.stateQueryReq = none := by
    rw [hq]
    cases seeQuery <;> rfl
  obtain ⟨hrx,hrsp⟩ := table_idle (i := { i with stateQueryReq := none }) ht rfl
  refine ⟨_,hrx,?_⟩
  simp [callTable,hnone,hrsp]

lemma held_call (ht : Works t p.query) (i : CallIn) (seeQuery : Bool) :
    ∃ u ok, u.rx = .recvRxReq ∧ callTable (waiting done p todo t [] [] done) i seeQuery =
      (waiting done p todo u [] [ok] (done++[(p,ok)])) := by
  have hnone : see seeQuery ([] : List QueryReq) = none := by cases seeQuery <;> rfl
  obtain ⟨hrx,ok,hrsp⟩ := table_answers (i := { i with stateQueryReq := none }) ht
  refine ⟨_,ok,hrx,?_⟩
  simp [callTable,hnone,hrsp,asked_works ht,answersOf]

lemma queued_call (done : List (UdpPacket × Bool)) (p : UdpPacket) (todo : List UdpPacket)
    (ht : t.rx = .recvRxReq) (i : CallIn) :
    ∃ u, (Works u p.query ∧ callTable (waiting done p todo t [p.query] [] done) i true =
      (waiting done p todo u [] [] done)) ∨
    (u.rx = .recvRxReq ∧ ∃ ok, callTable (waiting done p todo t [p.query] [] done) i true =
      (waiting done p todo u [] [ok] (done++[(p,ok)]))) := by
  rcases table_asked (i := { i with stateQueryReq := some p.query }) ht rfl with
    ⟨hrx,ok,hrsp⟩ | ⟨hworks,hrsp⟩
  · refine ⟨_,.inr ⟨hrx,ok,?_⟩⟩
    simp [callTable,see,hrsp,ht,asked,answersOf]
  · refine ⟨_,.inl ⟨hworks,?_⟩⟩
    simp [callTable,see,hrsp,ht]

lemma table_stage (hm : Stage ps m) (i : CallIn) (seeQuery : Bool) :
    Stage ps (callTable m i seeQuery) := by
  cases hm with
  | header done todo h t ht =>
    obtain ⟨u,hu,hcall⟩ := idle_call (m := ⟨.udpHeader,t,todo.map UdpPacket.info,_,[],[],_,_,_⟩)
      i seeQuery ht rfl
    rw [hcall]
    exact .header done todo h u hu
  | queued done p todo h t ht =>
    cases seeQuery with
    | true =>
      obtain ⟨u,⟨hu,hcall⟩ | ⟨hu,ok,hcall⟩⟩ := queued_call done p todo ht i
      · rw [hcall]
        exact .held done p todo h u hu
      · rw [hcall]
        exact .answered done p todo h ok u hu
    | false =>
      obtain ⟨hrx,hrsp⟩ := table_idle (i := { i with stateQueryReq := none }) ht rfl
      have hstay := Stage.queued done p todo h _ hrx
      simpa [callTable,see,hrsp,asked,ht] using hstay
  | held done p todo h t ht =>
    obtain ⟨u,ok,hu,hcall⟩ := held_call ht i seeQuery
    rw [hcall]
    exact .answered done p todo h ok u hu
  | answered done p todo h ok t ht =>
    obtain ⟨u,hu,hcall⟩ := idle_call (m := ⟨.waitRsp p.first p.usrInfo,t,_,_,[],[ok],_,_,_⟩)
      i seeQuery ht rfl
    rw [hcall]
    exact .answered done p todo h ok u hu
  | deliver done p todo h ok pre rem hrest hne t ht =>
    obtain ⟨u,hu,hcall⟩ := idle_call (m := ⟨.deliverData ok,t,_,_,[],[],_,_,_⟩) i seeQuery ht rfl
    rw [hcall]
    exact .deliver done p todo h ok pre rem hrest hne u hu

lemma run_stage (acts : List Action) (hm : Stage ps m) : Stage ps (runTotal exec acts m) := by
  refine List.foldlRecOn acts exec hm ?_
  intro m hm act _
  cases act with
  | rx seeHeader seePayload seeRsp => exact rx_stage hm seeHeader seePayload seeRsp
  | table i seeQuery => exact table_stage hm i seeQuery

end

/-! ## Whole packets -/

def Drained (m : Path) : Prop := m.rx = .udpHeader ∧ m.rxHeader = []

/-- Steps that the path has still to take. -/
def left (m : Path) : ℕ :=
  4*m.rxPayload.length+match m.rx with
    | .waitRsp _ _ => if m.stateQueryReq ≠ [] then 3 else if m.stateQueryRsp = [] then 2 else 1
    | _ => 0

variable {ps : List UdpPacket} {m : Path}

lemma stage_moves (hm : Stage ps m) (h : ¬Drained m) : ∃ act, left (exec m act) < left m := by
  cases hm with
  | header done todo _ t ht =>
    cases todo with
    | nil => exact absurd ⟨rfl,rfl⟩ h
    | cons p todo =>
      refine ⟨.rx true true true,?_⟩
      rw [exec,header_call]
      simp [left,UdpPacket.beats]
      omega
  | queued done p todo _ t ht =>
    refine ⟨.table {} true,?_⟩
    rw [exec]
    obtain ⟨u,⟨-,hcall⟩ | ⟨-,ok,hcall⟩⟩ := queued_call done p todo ht {}
    · rw [hcall]
      simp [left]
    · rw [hcall]
      simp [left]
  | held done p todo _ t ht =>
    refine ⟨.table {} true,?_⟩
    obtain ⟨u,ok,-,hcall⟩ := held_call ht {} true
    rw [exec,hcall]
    simp [left]
  | answered done p todo _ ok t ht =>
    refine ⟨.rx true true true,?_⟩
    cases hl : p.first.last <;> simp [exec,callRx,see,rx64,left,hl]
  | deliver done p todo _ ok pre rem hrest hne t ht =>
    refine ⟨.rx true true true,?_⟩
    obtain ⟨beat,rem,rfl⟩ := List.exists_cons_of_ne_nil hne
    cases hl : beat.last <;> simp [exec,callRx,see,rx64,left,hl]

lemma stage_drains (n : ℕ) (hm : Stage ps m) (hn : left m ≤ n) :
    ∃ more, Drained (runTotal exec more m) := by
  induction n generalizing m with
  | zero =>
    refine ⟨[],?_⟩
    by_contra hnot
    obtain ⟨act,hless⟩ := stage_moves hm hnot
    omega
  | succ n ih =>
    by_cases hdone : Drained m
    · exact ⟨[],hdone⟩
    · obtain ⟨act,hless⟩ := stage_moves hm hdone
      obtain ⟨more,hmore⟩ := ih (run_stage [act] hm) (by
        show left (exec m act) ≤ n
        omega)
      exact ⟨act::more,hmore⟩

lemma zip_done {todo : List UdpPacket} {done : List (UdpPacket × Bool)}
    (h : ps = done.map fst++todo) : ps.zip (done.map snd) = done := by
  induction done generalizing ps with
  | nil => simp
  | cons x done ih =>
    rw [h,List.map_cons,List.map_cons,List.cons_append,List.zip_cons_cons,ih rfl]

lemma answers_snd : (answersOf xs).map snd = xs.map snd := by
  rw [answersOf,List.map_map]
  rfl

lemma user_stream_grows (x : UdpPacket × Bool) :
    usrInfos (delivered xs) <+: usrInfos (delivered (xs++[x])) ∧
      usrBeats (delivered xs) <+: usrBeats (delivered (xs++[x])) := by
  rw [delivered_append,usrInfos,usrInfos,List.map_append,usrBeats,usrBeats, List.flatMap_append]
  exact ⟨List.prefix_append _ _,List.prefix_append _ _⟩

lemma stage_output (hm : Stage ps m) :
    ∃ xs : List (UdpPacket × Bool), xs = ps.zip (m.answered.map snd) ∧
      m.answered = answersOf xs ∧
      m.usrRxHeader <+: usrInfos (delivered xs) ∧ m.usrRxPayload <+: usrBeats (delivered xs) ∧
      (Drained m → m.answered.length = ps.length ∧ m.usrRxHeader = usrInfos (delivered xs) ∧
        m.usrRxPayload = usrBeats (delivered xs)) := by
  have hzip : ∀ (xs : List (UdpPacket × Bool)) (todo : List UdpPacket),
      ps = xs.map fst++todo → xs = ps.zip ((answersOf xs).map snd) := by
    intro xs todo h
    rw [answers_snd,zip_done h]
  cases hm with
  | header done todo h t ht =>
    refine ⟨done,hzip done todo h,rfl,prefix_rfl,prefix_rfl,?_⟩
    rintro ⟨-,hnil⟩
    have htodo : todo = [] := List.map_eq_nil_iff.mp hnil
    exact ⟨by simp [h,htodo,answersOf],rfl,rfl⟩
  | queued done p todo h t ht | held done p todo h t ht =>
    exact ⟨done,hzip done _ h,rfl,prefix_rfl,prefix_rfl,fun hd => by cases hd.1⟩
  | answered done p todo h ok t ht =>
    obtain ⟨hinfos,hbeats⟩ := user_stream_grows done (p,ok)
    exact ⟨_,hzip (done++[(p,ok)]) todo (by simp [h]),rfl,hinfos,hbeats,fun hd => by cases hd.1⟩
  | deliver done p todo h ok pre rem hrest hne t ht =>
    have hbeats : usrBeats (delivered done)++(if ok then pre else []) <+:
        usrBeats (delivered (done++[(p,ok)])) := by
      rw [delivered_more done p ok (by simp [hrest,hne]),usrBeats,usrBeats,List.flatMap_append]
      cases ok <;> simp [hrest]
    exact ⟨_,hzip (done++[(p,ok)]) todo (by simp [h]),rfl,prefix_rfl,hbeats,
      fun hd => by cases hd.1⟩

end Clio.Rx64
