import Clio.Machine
import Clio.SessionSetup
import Clio.Tx64

/-!
# Delivery from board to board

The send path of one board, a network that loses, copies and reorders, and another board.
-/

namespace Clio.Delivery

open StateTable SlotView SessionSetup UnackedBuffer Tx64 Machine

structure UserPacket where
  info : UdpInfo
  init : List (List Byte)
  final : List Byte
  deriving DecidableEq, Repr

def UserPacket.beats (p : UserPacket) : List NetAxis64 :=
  p.init.map (fun bytes => ⟨bytes,false⟩)++[⟨p.final,true⟩]

abbrev Frame := List NetAxis64

structure Sender where
  table : TableState
  tx : UdpSendStatus
  usrTxHeader : List UdpInfo
  usrTxPayload : List NetAxis64
  checkFullReq : List SlotId
  checkFullRsp : List Seqnum
  txFinishSig : List Bool
  frame : Frame
  wire : List Frame
  users : List UserPacket

structure Receiver where
  table : TableState
  opened : Bool
  held : Frame
  accepted : List Frame

structure Net where
  sender : Sender
  receiver : Receiver

/-- A module is called and sees each stream empty or not; other slots do anything. -/
inductive Action where
  | user (p : UserPacket)
  | tx (seeHeader seePayload seeRsp : Bool)
  | table (query : Option QueryReq) (timeout : Option SlotId) (init : Option ConnMgmtReq)
      (seeReq seeFinish : Bool)
  | receiver (frame : Option Frame) (i : CallIn)
  deriving DecidableEq, Repr

def emit (m : Sender) (beat : Option NetAxis64) : Sender :=
  match beat with
  | none => m
  | some b =>
      if b.last then { m with frame := [], wire := m.wire++[m.frame++[b]] }
      else { m with frame := m.frame++[b] }

def callUser (m : Sender) (p : UserPacket) : Sender :=
  { m with users := m.users++[p], usrTxHeader := m.usrTxHeader++[p.info],
           usrTxPayload := m.usrTxPayload++p.beats }

def callTx (m : Sender) (seeHeader seePayload seeRsp : Bool) : Sender :=
  let call := tx64 m.tx (see seeHeader m.usrTxHeader) (see seePayload m.usrTxPayload)
    (see seeRsp m.checkFullRsp)
  match m.tx with
  | .udpHeader =>
      emit { m with tx := call.1, usrTxHeader := left seeHeader m.usrTxHeader,
                    checkFullReq := m.checkFullReq++call.2.checkFullReq.toList } call.2.txPayload
  | .gbnHeader _ _ _ =>
      emit { m with tx := call.1, checkFullRsp := left seeRsp m.checkFullRsp } call.2.txPayload
  | .payload _ =>
      emit { m with tx := call.1, usrTxPayload := left seePayload m.usrTxPayload,
                    txFinishSig := m.txFinishSig++call.2.txFinishSig.toList } call.2.txPayload

def tableIn (m : Sender) (query : Option QueryReq) (timeout : Option SlotId)
    (init : Option ConnMgmtReq) (seeReq seeFinish : Bool) : CallIn :=
  ⟨query, see seeReq m.checkFullReq, see seeFinish m.txFinishSig, timeout, init⟩

def callTable (m : Sender) (i : CallIn) (seeReq seeFinish : Bool) : Sender :=
  let call := stateTable64 m.table i
  let req := seeReq && (m.table.tx == .recvTxReq)
  let fin := seeFinish && (match m.table.tx with | .updTxInfo _ _ _ => true | _ => false)
  { m with table := call.1, checkFullReq := left req m.checkFullReq,
           txFinishSig := left fin m.txFinishSig,
           checkFullRsp := m.checkFullRsp++call.2.checkFullRsp.toList }

def InSession (s d : SlotId) (p : UserPacket) : Prop :=
  p.info.srcPort = s.setWidth 16 ∧ p.info.destPort = d.setWidth 16

instance (s d : SlotId) (p : UserPacket) : Decidable (InSession s d p) :=
  inferInstanceAs (Decidable (_ ∧ _))

def Delivers (s : SlotId) (wire : List Frame) (frame : Option Frame) (query : QueryReq) : Prop :=
  ∃ f ∈ frame, f ∈ wire ∧ ∃ beat ∈ f.head?, headerOf beat = query.gbnHeader ∧
    query.gbnHeader.srcSlot = s

instance (s : SlotId) (wire : List Frame) (frame : Option Frame) (query : QueryReq) :
    Decidable (Delivers s wire frame query) :=
  inferInstanceAs (Decidable (∃ f ∈ frame, _))

def callReceiver (d : SlotId) (r : Receiver) (frame : Option Frame) (i : CallIn) : Receiver :=
  { table := next r.table i
    opened := r.opened || decide (i.initReq = some ⟨d,.openSession⟩)
    held := if r.table.rx = .recvRxReq then frame.getD r.held else r.held
    accepted := if Accepts d r.table i then r.accepted++[r.held] else r.accepted }

def exec (s d : SlotId) (m : Net) (a : Action) : Option Net :=
  match a with
  | .user p =>
      if InSession s d p ∨ srcSlotOf p.info ≠ s then
        some { m with sender := callUser m.sender p }
      else none
  | .tx seeHeader seePayload seeRsp =>
      some { m with sender := callTx m.sender seeHeader seePayload seeRsp }
  | .table query timeout init seeReq seeFinish =>
      if init ≠ some ⟨s,.openSession⟩ then
        let i := tableIn m.sender query timeout init seeReq seeFinish
        some { m with sender := callTable m.sender i seeReq seeFinish }
      else none
  | .receiver frame i =>
      if (∀ query ∈ i.stateQueryReq, DataFor d query → Delivers s m.sender.wire frame query) ∧
          (i.initReq = some ⟨d,.openSession⟩ → m.receiver.opened = false) then
        some { m with receiver := callReceiver d m.receiver frame i }
      else none

def boot (s : SlotId) : Net :=
  ⟨⟨opened s,.udpHeader,[],[],[],[],[],[],[],[]⟩,⟨StateTable.powerUp,false,[],[]⟩⟩

def sessionPackets (s : SlotId) (ps : List UserPacket) : List UserPacket :=
  ps.filter (fun p => srcSlotOf p.info = s)

def sent (s : SlotId) (m : Net) : List (List NetAxis64) :=
  (sessionPackets s m.sender.users).map UserPacket.beats

def delivered (m : Net) : List (List NetAxis64) := m.receiver.accepted.map List.tail

section

variable (s d : SlotId)

def frameOf (n : ℕ) (p : UserPacket) : Frame :=
  headerBeat ⟨.data,BitVec.ofNat 32 n,s,d⟩::p.beats

def numbered (ps : List UserPacket) : List Frame :=
  (sessionPackets s ps).mapIdx (fun i p => frameOf s d (i+1) p)

def ofSession (f : Frame) : Bool := f.head?.any (fun beat => (headerOf beat).srcSlot = s)

def count (ps : List UserPacket) : ℕ := (sessionPackets s ps).length

variable (ps : List UserPacket) (p : UserPacket)

lemma numbered_own (h : srcSlotOf p.info = s) :
    numbered s d (ps++[p]) = numbered s d ps++[frameOf s d (count s ps+1) p] ∧
      count s (ps++[p]) = count s ps+1 := by
  simp [numbered,count,sessionPackets,List.filter_append,h,List.mapIdx_append]

lemma numbered_foreign (h : srcSlotOf p.info ≠ s) :
    numbered s d (ps++[p]) = numbered s d ps ∧ count s (ps++[p]) = count s ps := by
  simp [numbered,count,sessionPackets,List.filter_append,h]

lemma numbered_append_left (qs : List UserPacket) :
    numbered s d ps <+: numbered s d (ps++qs) := by
  simp [numbered,sessionPackets,List.filter_append,List.mapIdx_append]

lemma numbered_tails :
    (numbered s d ps).map List.tail = (sessionPackets s ps).map UserPacket.beats := by
  apply List.ext_getElem?
  intro i
  simp [numbered,frameOf,Option.map_map,Function.comp_def]

lemma numbered_get (i : ℕ) (f : Frame) (h : (numbered s d ps)[i]? = some f) :
    ∃ p, f = frameOf s d (i+1) p := by
  rw [numbered,List.getElem?_mapIdx,Option.map_eq_some_iff] at h
  obtain ⟨p,hp,rfl⟩ := h
  exact ⟨p,rfl⟩

lemma beats_ne_nil : p.beats ≠ [] := by simp [UserPacket.beats]

lemma beats_split (pre rest : List NetAxis64) (b : NetAxis64) (h : p.beats = pre++b::rest) :
    b.last = true ↔ rest = [] := by
  rcases List.eq_nil_or_concat rest with rfl | ⟨more,c,rfl⟩
  · have := congrArg List.getLast? h
    rw [UserPacket.beats,List.getLast?_concat,List.getLast?_concat,Option.some_inj] at this
    simp [← this]
  · have hinit : p.init.map (fun bytes => (⟨bytes,false⟩ : NetAxis64)) = pre++b::more := by
      have := congrArg List.dropLast h
      rwa [UserPacket.beats,List.dropLast_concat,List.concat_eq_append,← List.cons_append,
        ← List.append_assoc,List.dropLast_concat] at this
    have hb : b ∈ p.init.map (fun bytes => (⟨bytes,false⟩ : NetAxis64)) := by simp [hinit]
    obtain ⟨bytes,-,rfl⟩ := List.mem_map.mp hb
    simp

end

section

variable (s d : SlotId)

def NotReplying (t : TableState) : Prop := ∀ slot sent, t.tx ≠ .replTxReq slot sent

def Idle (m : Sender) : Prop := m.checkFullReq = [] ∧ m.checkFullRsp = [] ∧ NotReplying m.table

def lastSent (m : Sender) : Seqnum := (m.table.session s).lastSentSeqnum

def Asking (m : Sender) (done : List UserPacket) (cur : UserPacket) (src : SlotId) : Prop :=
  (m.checkFullReq = [src] ∧ m.checkFullRsp = [] ∧ NotReplying m.table ∧
    lastSent s m = BitVec.ofNat 32 (count s done)) ∨
  (m.checkFullReq = [] ∧ m.checkFullRsp = [] ∧ (∃ sent, m.table.tx = .replTxReq src sent ∧
    (src = s → sent = lastSent s m)) ∧ lastSent s m = BitVec.ofNat 32 (count s done)) ∨
  (m.checkFullReq = [] ∧ (∃ seqnum, m.checkFullRsp = [seqnum] ∧
    (src = s → seqnum = lastSent s m)) ∧ NotReplying m.table ∧
    lastSent s m = BitVec.ofNat 32 (count s (done++[cur])))

def Phase (m : Sender) (done waiting : List UserPacket) : Prop :=
  match m.tx with
  | .udpHeader => m.users = done++waiting ∧ m.usrTxPayload = waiting.flatMap UserPacket.beats ∧
      m.frame = [] ∧ Idle m ∧ lastSent s m = BitVec.ofNat 32 (count s done)
  | .gbnHeader _ src dest => ∃ cur, m.users = done++cur::waiting ∧
      m.usrTxPayload = cur.beats++waiting.flatMap UserPacket.beats ∧ m.frame = [] ∧
      src = srcSlotOf cur.info ∧ dest = destSlotOf cur.info ∧ Asking s m done cur src
  | .payload _ => ∃ cur pre rest header, m.users = done++cur::waiting ∧
      cur.beats = pre++rest ∧ rest ≠ [] ∧
      m.usrTxPayload = rest++waiting.flatMap UserPacket.beats ∧ m.frame = headerBeat header::pre ∧
      header.srcSlot = srcSlotOf cur.info ∧
      (header.srcSlot = s → header = ⟨.data,BitVec.ofNat 32 (count s (done++[cur])),s,d⟩) ∧
      Idle m ∧ lastSent s m = BitVec.ofNat 32 (count s (done++[cur]))

structure SendInv (m : Sender) : Prop where
  users : ∀ p ∈ m.users, InSession s d p ∨ srcSlotOf p.info ≠ s
  phase : ∃ done waiting, m.usrTxHeader = waiting.map UserPacket.info ∧
    m.wire.filter (ofSession s) = numbered s d done ∧ Phase s d m done waiting

lemma user_inv (m : Sender) (p : UserPacket) (hp : InSession s d p ∨ srcSlotOf p.info ≠ s)
    (h : SendInv s d m) : SendInv s d (callUser m p) := by
  obtain ⟨hu,done,waiting,hhdr,hwire,hphase⟩ := h
  refine ⟨?_,done,waiting++[p],by simp [callUser,hhdr],hwire,?_⟩
  · intro q hq
    rcases List.mem_append.mp hq with hq | hq
    · exact hu q hq
    · rw [List.mem_singleton.mp hq]
      exact hp
  · unfold Phase at hphase ⊢
    change match m.tx with | .udpHeader => _ | .gbnHeader _ src dest => _ | .payload _ => _
    cases htx : m.tx with
    | udpHeader =>
      rw [htx] at hphase
      obtain ⟨hus,hpay,hframe,hidle,hsent⟩ := hphase
      exact ⟨by simp [callUser,hus],by simp [callUser,hpay],hframe,hidle,hsent⟩
    | gbnHeader info src dest =>
      rw [htx] at hphase
      obtain ⟨cur,hus,hpay,hrest⟩ := hphase
      exact ⟨cur,by simp [callUser,hus],by simp [callUser,hpay],hrest⟩
    | payload buffered =>
      rw [htx] at hphase
      obtain ⟨cur,pre,rest,header,hus,hbeats,hne,hpay,hrest⟩ := hphase
      exact ⟨cur,pre,rest,header,by simp [callUser,hus],hbeats,hne,by simp [callUser,hpay],hrest⟩

/-! The table of the sender. -/

lemma last_sent_rx (t : TableState) (i : CallIn) :
    ((afterRx t i).session s).lastSentSeqnum = (t.session s).lastSentSeqnum := by
  unfold afterRx rxStep
  cases hrx : t.rx with
  | recvRxReq => cases i.stateQueryReq <;> rfl
  | handleData query expt countdown =>
    by_cases hdest : s = query.gbnHeader.destSlot
    · subst hdest
      simp only [setSession,Function.update_self]
      unfold handleData
      dsimp only
      split_ifs <;> rfl
    · simp [setSession,hdest]
  | handleAck query lastAckd lastSent =>
    by_cases hdest : s = query.gbnHeader.destSlot
    · subst hdest
      simp only [setSession,Function.update_self]
      unfold handleAck
      dsimp only
      split_ifs <;> rfl
    · simp [setSession,hdest]

lemma last_sent_init (t : TableState) (init : Option ConnMgmtReq)
    (hinit : init ≠ some ⟨s,.openSession⟩) :
    ((initStep t init).session s).lastSentSeqnum = (t.session s).lastSentSeqnum := by
  unfold initStep
  cases hreq : init with
  | none => rfl
  | some req =>
    by_cases hslot : s = req.slotid
    · subst hslot
      cases hty : req.setType with
      | openSession => exact absurd (by rw [hreq,← hty]) hinit
      | closeSession => simp [setSession,setState,hty]
    · simp [setSession,hslot]

lemma tx_after_init (t : TableState) (init : Option ConnMgmtReq) : (initStep t init).tx = t.tx := by
  cases init <;> rfl

section

variable {t : TableState} {i : CallIn}

section

variable (hinit : i.initReq ≠ some ⟨s,.openSession⟩)
include hinit

lemma send_call {t' : TableState} {out : StateTable.TxOut}
    (h : txStep (afterRx t i) i.checkFullReq i.txFinishSig = (t',out)) :
    (next t i).tx = t'.tx ∧ (output t i).checkFullRsp = out.checkFullRsp ∧
      ((next t i).session s).lastSentSeqnum = (t'.session s).lastSentSeqnum := by
  refine ⟨?_,?_,?_⟩
  · rw [next,tx_after_init,afterTx,h]
  · rw [output,h]
  · rw [next,last_sent_init s _ _ hinit,afterTx,h]

lemma send_request (htx : t.tx = .recvTxReq) {src : SlotId} (hreq : i.checkFullReq = some src) :
    (next t i).tx = .replTxReq src (t.session src).lastSentSeqnum ∧
      (output t i).checkFullRsp = none ∧
      ((next t i).session s).lastSentSeqnum = (t.session s).lastSentSeqnum := by
  have hstep : txStep (afterRx t i) i.checkFullReq i.txFinishSig =
      ({ afterRx t i with
        tx := .replTxReq src ((afterRx t i).session src).lastSentSeqnum },{}) := by
    unfold txStep
    rw [after_rx_tx,htx,hreq]
  have h := send_call s hinit hstep
  simp only [last_sent_rx] at h
  exact h

lemma send_quiet (hno : NotReplying t) (hreq : t.tx = .recvTxReq → i.checkFullReq = none) :
    NotReplying (next t i) ∧ (output t i).checkFullRsp = none ∧
      ((next t i).session s).lastSentSeqnum = (t.session s).lastSentSeqnum := by
  have hstep : ∃ t' out, txStep (afterRx t i) i.checkFullReq i.txFinishSig = (t',out) ∧
      NotReplying t' ∧ out.checkFullRsp = none ∧ t'.session = (afterRx t i).session := by
    unfold txStep
    rw [after_rx_tx]
    cases htx : t.tx with
    | recvTxReq =>
      rw [hreq htx]
      refine ⟨_,_,rfl,?_,rfl,rfl⟩
      intro slot sent h
      rw [after_rx_tx,htx] at h
      cases h
    | replTxReq slot sent => exact absurd htx (hno slot sent)
    | updTxInfo slot lastAckd lastSent =>
      cases hfin : i.txFinishSig with
      | none =>
        refine ⟨_,_,rfl,?_,rfl,rfl⟩
        intro slot sent h
        rw [after_rx_tx,htx] at h
        cases h
      | some b =>
        refine ⟨_,_,rfl,?_,?_,rfl⟩
        · intro slot sent h
          cases h
        · unfold updTxInfo
          split <;> rfl
  obtain ⟨t',out,hstep,hno',hout,hses⟩ := hstep
  obtain ⟨h1,h2,h3⟩ := send_call s hinit hstep
  refine ⟨?_,h2.trans hout,?_⟩
  · intro slot sent
    rw [h1]
    exact hno' slot sent
  · rw [h3,hses,last_sent_rx]

lemma send_reply {src : SlotId} {sent : Seqnum} (htx : t.tx = .replTxReq src sent) :
    ((next t i).tx = .replTxReq src sent ∧ (output t i).checkFullRsp = none ∧
      ((next t i).session s).lastSentSeqnum = (t.session s).lastSentSeqnum) ∨
    (NotReplying (next t i) ∧ (output t i).checkFullRsp = some (sent+1) ∧
      ((next t i).session s).lastSentSeqnum =
        if src = s then sent+1 else (t.session s).lastSentSeqnum) := by
  have hstep : txStep (afterRx t i) i.checkFullReq i.txFinishSig =
      ({ setSession (afterRx t i) src (replTxReq src sent ((afterRx t i).session src)).1 with
          tx := (replTxReq src sent ((afterRx t i).session src)).2.1 },
        (replTxReq src sent ((afterRx t i).session src)).2.2) := by
    unfold txStep
    rw [after_rx_tx,htx]
  obtain ⟨h1,h2,h3⟩ := send_call s hinit hstep
  unfold replTxReq at h1 h2 h3
  split_ifs at h1 h2 h3 with hw
  · right
    refine ⟨?_,h2,?_⟩
    · intro slot l h
      rw [h1] at h
      cases h
    · rw [h3]
      by_cases hs : src = s
      · subst hs
        simp [setSession]
      · simp [setSession,hs,Ne.symm hs,last_sent_rx]
  · left
    refine ⟨h1,h2,?_⟩
    rw [h3]
    simp [setSession,last_sent_rx]

end

end

lemma count_next (done : List UserPacket) (cur : UserPacket) :
    count s (done++[cur]) = if srcSlotOf cur.info = s then count s done+1 else count s done := by
  split_ifs with h
  · exact (numbered_own s 0 done cur h).2
  · exact (numbered_foreign s 0 done cur h).2

section

variable (m : Sender) (i : CallIn) (seeReq seeFinish : Bool)
  (hin : i.checkFullReq = see seeReq m.checkFullReq) (hinit : i.initReq ≠ some ⟨s,.openSession⟩)
include m i seeReq seeFinish hin hinit

lemma asking_table {done : List UserPacket} {cur : UserPacket}
    (h : Asking s m done cur (srcSlotOf cur.info)) :
    Asking s (callTable m i seeReq seeFinish) done cur (srcSlotOf cur.info) := by
  rcases h with ⟨hreq,hrsp,hno,hsent⟩ | ⟨hreq,hrsp,⟨sent,htx,hs⟩,hsent⟩ |
    ⟨hreq,⟨seqnum,hrsp,hs⟩,hno,hsent⟩
  · by_cases hrecv : m.table.tx = .recvTxReq ∧ seeReq = true
    · obtain ⟨htx,rfl⟩ := hrecv
      have hsee : i.checkFullReq = some (srcSlotOf cur.info) := by rw [hin,hreq]; rfl
      obtain ⟨h1,h2,h3⟩ := send_request s hinit htx hsee
      right; left
      refine ⟨?_,?_,⟨_,h1,?_⟩,h3.trans hsent⟩
      · simp [callTable,htx,hreq,left]
      · simp [callTable,stateTable64,h2,hrsp]
      · intro hsrc
        rw [hsrc]
        exact h3.symm
    · obtain ⟨h1,h2,h3⟩ := send_quiet s hinit hno (by
        intro htx
        rw [hin,see,if_neg (fun hv => hrecv ⟨htx,hv⟩)])
      left
      refine ⟨?_,?_,h1,h3.trans hsent⟩
      · have : (seeReq && (m.table.tx == .recvTxReq)) = false := by
          rw [Bool.and_eq_false_iff,beq_eq_false_iff_ne]
          by_cases hv : seeReq = true
          · exact .inr (fun htx => hrecv ⟨htx,hv⟩)
          · exact .inl (by simpa using hv)
        simp [callTable,this,hreq,left]
      · simp [callTable,stateTable64,h2,hrsp]
  · rcases send_reply s (i := i) hinit htx with ⟨h1,h2,h3⟩ | ⟨h1,h2,h3⟩
    · right; left
      refine ⟨?_,?_,⟨sent,h1,?_⟩,h3.trans hsent⟩
      · simp [callTable,hreq,left]
      · simp [callTable,stateTable64,h2,hrsp]
      · intro hsrc
        exact (hs hsrc).trans h3.symm
    · right; right
      refine ⟨?_,⟨sent+1,?_,?_⟩,h1,?_⟩
      · simp [callTable,hreq,left]
      · simp [callTable,stateTable64,h2,hrsp]
      · intro hsrc
        rw [if_pos hsrc] at h3
        exact h3.symm
      · refine Eq.trans h3 ?_
        rw [count_next]
        split_ifs with hsrc
        · rw [hs hsrc,hsent]
          exact (BitVec.ofNat_add _ _).symm
        · exact hsent
  · obtain ⟨h1,h2,h3⟩ := send_quiet s (i := i) hinit hno (by
      intro _
      rw [hin,hreq,see]
      split <;> rfl)
    right; right
    refine ⟨?_,⟨seqnum,?_,?_⟩,h1,h3.trans hsent⟩
    · simp [callTable,hreq,left]
    · simp [callTable,stateTable64,h2,hrsp]
    · intro hsrc
      exact (hs hsrc).trans h3.symm

lemma idle_table (h : Idle m) :
    Idle (callTable m i seeReq seeFinish) ∧
      lastSent s (callTable m i seeReq seeFinish) = lastSent s m := by
  obtain ⟨hreq,hrsp,hno⟩ := h
  obtain ⟨h1,h2,h3⟩ := send_quiet s (i := i) hinit hno (by
    intro _
    rw [hin,hreq,see]
    split <;> rfl)
  refine ⟨⟨?_,?_,h1⟩,h3⟩
  · simp [callTable,hreq,left]
  · simp [callTable,stateTable64,h2,hrsp]

lemma table_inv (h : SendInv s d m) :
    SendInv s d (callTable m i seeReq seeFinish) := by
  obtain ⟨hu,done,waiting,hhdr,hwire,hphase⟩ := h
  refine ⟨hu,done,waiting,hhdr,hwire,?_⟩
  unfold Phase at hphase ⊢
  change match m.tx with | .udpHeader => _ | .gbnHeader _ src dest => _ | .payload _ => _
  cases htx : m.tx with
  | udpHeader =>
    rw [htx] at hphase
    obtain ⟨hus,hpay,hframe,hidle,hsent⟩ := hphase
    obtain ⟨hidle',hsame⟩ := idle_table s m i seeReq seeFinish hin hinit hidle
    exact ⟨hus,hpay,hframe,hidle',hsame.trans hsent⟩
  | gbnHeader info src dest =>
    rw [htx] at hphase
    obtain ⟨cur,hus,hpay,hframe,rfl,hdest,hask⟩ := hphase
    exact ⟨cur,hus,hpay,hframe,rfl,hdest,asking_table s m i seeReq seeFinish hin hinit hask⟩
  | payload buffered =>
    rw [htx] at hphase
    obtain ⟨cur,pre,rest,header,hus,hbeats,hne,hpay,hframe,hsrc,hown,hidle,hsent⟩ := hphase
    obtain ⟨hidle',hsame⟩ := idle_table s m i seeReq seeFinish hin hinit hidle
    exact ⟨cur,pre,rest,header,hus,hbeats,hne,hpay,hframe,hsrc,hown,hidle',hsame.trans hsent⟩

end

/-! The send path of the sender. -/

lemma slot_port (slot : SlotId) (port : BitVec 16) (h : port = slot.setWidth 16) :
    port.setWidth 10 = slot ∧ (slot ≠ 0 → port > 0) := by
  subst h
  have hlt := slot.isLt
  have hval : (slot.setWidth 16).toNat = slot.toNat := by
    rw [BitVec.toNat_setWidth]
    exact Nat.mod_eq_of_lt (by omega)
  constructor
  · apply BitVec.eq_of_toNat_eq
    rw [BitVec.toNat_setWidth,hval]
    exact Nat.mod_eq_of_lt hlt
  · intro hne
    have : slot.toNat ≠ 0 := fun h0 => hne (BitVec.eq_of_toNat_eq h0)
    rw [gt_iff_lt,BitVec.lt_def,hval]
    exact Nat.pos_of_ne_zero this

lemma header_inv (hs : s ≠ 0) (hd : d ≠ 0) (m : Sender) (seeHeader seePayload seeRsp : Bool)
    (htx : m.tx = .udpHeader) (h : SendInv s d m) :
    SendInv s d (callTx m seeHeader seePayload seeRsp) := by
  cases hsee : see seeHeader m.usrTxHeader with
  | none =>
    have hcall : callTx m seeHeader seePayload seeRsp = m := by
      unfold callTx
      rw [htx]
      simp only [tx64,hsee,emit,see_none hsee,Option.toList,List.append_nil]
      rw [← htx]
    rwa [hcall]
  | some info =>
    obtain ⟨hu,done,waiting,hhdr,hwire,hphase⟩ := h
    unfold Phase at hphase
    rw [htx] at hphase
    obtain ⟨hus,hpay,hframe,⟨hreq,hrsp,hno⟩,hsent⟩ := hphase
    have hhead := see_some hsee
    rw [hhdr] at hhead
    obtain ⟨cur,rest,rfl,hinfo,hrest⟩ := List.map_eq_cons_iff.mp hhead
    subst hinfo
    have hcur := hu cur (by simp [hus])
    rw [List.flatMap_cons] at hpay
    have hleft : left seeHeader m.usrTxHeader = rest.map UserPacket.info := by rw [hhdr,hrest]
    have hcall : callTx m seeHeader seePayload seeRsp =
        emit { m with tx := (sendHeader cur.info).1, usrTxHeader := left seeHeader m.usrTxHeader,
                      checkFullReq := m.checkFullReq++(sendHeader cur.info).2.checkFullReq.toList }
          (sendHeader cur.info).2.txPayload := by
      unfold callTx
      rw [htx]
      simp only [tx64,hsee]
    rw [hcall]
    unfold sendHeader
    split_ifs with hports
    · -- a session packet: a sequence number is asked for
      refine ⟨hu,done,rest,hleft,hwire,cur,hus,hpay,hframe,rfl,rfl,.inl ?_⟩
      exact ⟨by simp [emit,hreq],hrsp,hno,hsent⟩
    · -- a packet of the management session, which is not one of slot `s`
      have hforeign : srcSlotOf cur.info ≠ s := by
        rcases hcur with ⟨hsrc,hdest⟩ | hcur
        · exact absurd ⟨(slot_port s _ hsrc).2 hs,(slot_port d _ hdest).2 hd⟩ hports
        · exact hcur
      refine ⟨hu,done,rest,hleft,hwire,cur,[],cur.beats,
        ⟨.data,0,srcSlotOf cur.info,destSlotOf cur.info⟩,hus,rfl,beats_ne_nil cur,hpay,?_,rfl,?_,
        ⟨?_,hrsp,hno⟩,?_⟩
      · simp [emit,headerBeat,hframe]
      · intro hsrc
        exact absurd hsrc hforeign
      · simp [emit,headerBeat,hreq]
      · rw [(numbered_foreign s d done cur hforeign).2]
        exact hsent

lemma gbn_inv (m : Sender) (seeHeader seePayload seeRsp : Bool) {info : UdpInfo}
    {src dest : SlotId} (htx : m.tx = .gbnHeader info src dest) (h : SendInv s d m) :
    SendInv s d (callTx m seeHeader seePayload seeRsp) := by
  cases hsee : see seeRsp m.checkFullRsp with
  | none =>
    have hcall : callTx m seeHeader seePayload seeRsp = m := by
      unfold callTx
      rw [htx]
      simp only [tx64,hsee,emit,see_none hsee]
      rw [← htx]
    rwa [hcall]
  | some seqnum =>
    obtain ⟨hu,done,waiting,hhdr,hwire,hphase⟩ := h
    unfold Phase at hphase
    rw [htx] at hphase
    obtain ⟨cur,hus,hpay,hframe,rfl,rfl,hask⟩ := hphase
    have hhead := see_some hsee
    have hcall : callTx m seeHeader seePayload seeRsp =
        { m with tx := .payload true, checkFullRsp := left seeRsp m.checkFullRsp,
                 frame := m.frame++[headerBeat ⟨.data,seqnum,srcSlotOf cur.info,
                   destSlotOf cur.info⟩] } := by
      unfold callTx
      rw [htx]
      simp only [tx64,hsee]
      rfl
    -- the answer is there, so the table has given the number
    rcases hask with ⟨-,hrsp,-⟩ | ⟨-,hrsp,-⟩ | ⟨hreq,⟨k,hrsp,hk⟩,hno,hsent⟩
    · rw [hrsp] at hhead
      cases hhead
    · rw [hrsp] at hhead
      cases hhead
    · rw [hrsp] at hhead
      obtain ⟨rfl,hleft⟩ := List.cons.inj hhead
      rw [hcall]
      refine ⟨hu,done,waiting,hhdr,hwire,cur,[],cur.beats,
        ⟨.data,k,srcSlotOf cur.info,destSlotOf cur.info⟩,hus,rfl,beats_ne_nil cur,hpay,
        by simp [hframe],rfl,?_,⟨hreq,?_,hno⟩,hsent⟩
      · intro hsrc
        have hsrc' : srcSlotOf cur.info = s := hsrc
        rcases hu cur (by simp [hus]) with ⟨-,hdest⟩ | hcur
        · rw [hk hsrc',hsent,hsrc',destSlotOf,(slot_port d _ hdest).1]
        · exact absurd hsrc' hcur
      · rw [hrsp]
        exact hleft.symm

lemma payload_inv (m : Sender) (seeHeader seePayload seeRsp : Bool) {buffered : Bool}
    (htx : m.tx = .payload buffered) (h : SendInv s d m) :
    SendInv s d (callTx m seeHeader seePayload seeRsp) := by
  cases hsee : see seePayload m.usrTxPayload with
  | none =>
    have hcall : callTx m seeHeader seePayload seeRsp = m := by
      unfold callTx
      rw [htx]
      simp only [tx64,hsee,emit,see_none hsee,Option.toList,List.append_nil]
      rw [← htx]
    rwa [hcall]
  | some beat =>
    obtain ⟨hu,done,waiting,hhdr,hwire,hphase⟩ := h
    unfold Phase at hphase
    rw [htx] at hphase
    obtain ⟨cur,pre,rest,header,hus,hbeats,hne,hpay,hframe,hsrc,hown,hidle,hsent⟩ := hphase
    have hhead := see_some hsee
    obtain ⟨b,more,rfl⟩ := List.exists_cons_of_ne_nil hne
    nth_rewrite 1 [hpay] at hhead
    rw [List.cons_append] at hhead
    obtain ⟨rfl,hleft⟩ := List.cons.inj hhead
    have hlast := beats_split cur pre more b hbeats
    have hcall : callTx m seeHeader seePayload seeRsp =
        emit { m with tx := (sendPayload buffered b).1,
                      usrTxPayload := left seePayload m.usrTxPayload,
                      txFinishSig := m.txFinishSig++(sendPayload buffered b).2.txFinishSig.toList }
          (some b) := by
      unfold callTx
      rw [htx]
      simp only [tx64,hsee]
      rfl
    rw [hcall]
    unfold emit sendPayload
    by_cases hb : b.last = true
    · -- the packet is complete
      obtain rfl := hlast.mp hb
      simp only [hb,if_true]
      refine ⟨hu,done++[cur],waiting,hhdr,?_,by simp [hus],
        by simpa using hleft.symm,rfl,hidle,hsent⟩
      rw [List.filter_append,hwire,hframe,List.cons_append,← hbeats]
      by_cases hs : header.srcSlot = s
      · rw [(numbered_own s d done cur (hsrc ▸ hs)).1,hown hs,frameOf,
          (numbered_own s d done cur (hsrc ▸ hs)).2]
        simp [ofSession,header_of_beat]
      · rw [(numbered_foreign s d done cur (hsrc ▸ hs)).1]
        simp [ofSession,header_of_beat,hs]
    · simp only [hb,Bool.false_eq_true,if_false]
      have hmore : more ≠ [] := fun h => hb (hlast.mpr h)
      refine ⟨hu,done,waiting,hhdr,hwire,cur,pre++[b],more,header,hus,by simp [hbeats],hmore,
        hleft.symm,?_,hsrc,hown,hidle,hsent⟩
      simp [hframe]

lemma tx_inv (hs : s ≠ 0) (hd : d ≠ 0) (m : Sender) (seeHeader seePayload seeRsp : Bool)
    (h : SendInv s d m) : SendInv s d (callTx m seeHeader seePayload seeRsp) := by
  cases htx : m.tx with
  | udpHeader => exact header_inv s d hs hd m _ _ _ htx h
  | gbnHeader info src dest => exact gbn_inv s d m _ _ _ htx h
  | payload buffered => exact payload_inv s d m _ _ _ htx h

lemma wire_frames {m : Sender} (h : SendInv s d m) (f : Frame) (hf : f ∈ m.wire)
    (hown : ofSession s f = true) : f ∈ numbered s d m.users := by
  obtain ⟨-,done,waiting,-,hwire,hphase⟩ := h
  have hmem : f ∈ numbered s d done := by
    rw [← hwire]
    exact List.mem_filter.mpr ⟨hf,hown⟩
  have hpre : ∃ rest, m.users = done++rest := by
    unfold Phase at hphase
    cases htx : m.tx with
    | udpHeader =>
      rw [htx] at hphase
      exact ⟨waiting,hphase.1⟩
    | gbnHeader info src dest =>
      rw [htx] at hphase
      obtain ⟨cur,hus,-⟩ := hphase
      exact ⟨cur::waiting,hus⟩
    | payload buffered =>
      rw [htx] at hphase
      obtain ⟨cur,pre,rest,header,hus,-⟩ := hphase
      exact ⟨cur::waiting,hus⟩
  obtain ⟨rest,hrest⟩ := hpre
  rw [hrest]
  exact (numbered_append_left s d done rest).subset hmem

end

section

variable (s d : SlotId)

def Held (frames : List Frame) (n : ℕ) (r : Receiver) : Prop :=
  ∀ query expt countdown, r.table.rx = .handleData query expt countdown →
    query.gbnHeader.destSlot = d → DataFor d query ∧
      (∃ k, frames[k]? = some r.held ∧ query.gbnHeader.seqnum = BitVec.ofNat 32 (k+1)) ∧
      (expt = 0 ∨ r.opened = true ∧ expt = BitVec.ofNat 32 (n+1))

structure RecvInv (frames : List Frame) (n : ℕ) (r : Receiver) : Prop where
  bound : n ≤ frames.length
  accepted : r.accepted = frames.take n
  expected : (r.table.session d).expectedSeqnum = 0 ∨
    r.opened = true ∧ (r.table.session d).expectedSeqnum = BitVec.ofNat 32 (n+1)
  unopened : r.opened = false → n = 0
  held : Held d frames n r

variable {frames : List Frame} {n : ℕ} {r : Receiver}

lemma recv_grows {more : List Frame} (h : RecvInv d frames n r) (hpre : frames <+: more) :
    RecvInv d more n r := by
  obtain ⟨tail,rfl⟩ := hpre
  refine ⟨?_,?_,h.expected,h.unopened,?_⟩
  · rw [List.length_append]
    exact h.bound.trans (Nat.le_add_right _ _)
  · rw [List.take_append_of_le_length h.bound]
    exact h.accepted
  · intro query expt countdown hrx hdest
    obtain ⟨hdata,⟨k,hk,hseq⟩,hexpt⟩ := h.held query expt countdown hrx hdest
    refine ⟨hdata,⟨k,?_,hseq⟩,hexpt⟩
    rwa [List.getElem?_append_left (List.getElem?_eq_some_iff.mp hk).1]

lemma pending_next (h : RecvInv d frames n r) (hlen : frames.length < 2^32-1)
    (hpend : Pending d r.table.rx) :
    frames[n]? = some r.held ∧ r.opened = true ∧ ∃ query countdown,
      r.table.rx = .handleData query (BitVec.ofNat 32 (n+1)) countdown ∧
        query.gbnHeader.destSlot = d ∧ query.gbnHeader.seqnum = BitVec.ofNat 32 (n+1) := by
  obtain ⟨query,countdown,hrx,hdata⟩ := hpend
  obtain ⟨-,⟨k,hk,hseq⟩,hexpt⟩ := h.held query _ countdown hrx hdata.2.1
  have hkl := (List.getElem?_eq_some_iff.mp hk).1
  have hn := h.bound
  rcases hexpt with hexpt | ⟨hopen,hexpt⟩
  · -- no packet carries number 0
    have hval := congrArg BitVec.toNat (hseq.symm.trans hexpt)
    rw [BitVec.toNat_ofNat,Nat.mod_eq_of_lt (by omega)] at hval
    cases hval
  · have hval := congrArg BitVec.toNat (hseq.symm.trans hexpt)
    rw [BitVec.toNat_ofNat,BitVec.toNat_ofNat,Nat.mod_eq_of_lt (by omega),
      Nat.mod_eq_of_lt (by omega)] at hval
    obtain rfl : k = n := by omega
    exact ⟨hk,hopen,query,countdown,by rw [hrx,hseq],hdata.2.1,hseq⟩

lemma expected_init (t : TableState) (i : CallIn) :
    ((next t i).session d).expectedSeqnum = ((afterTx t i).session d).expectedSeqnum ∨
      i.initReq = some ⟨d,.openSession⟩ ∧ ((next t i).session d).expectedSeqnum = 1 ∨
      ((next t i).session d).expectedSeqnum = 0 := by
  unfold next initStep
  cases hreq : i.initReq with
  | none => exact .inl rfl
  | some req =>
    obtain ⟨slot,setType⟩ := req
    by_cases hslot : d = slot
    · subst hslot
      right
      cases setType with
      | openSession => exact .inl ⟨rfl,by simp [setSession,setState,initSession]⟩
      | closeSession => exact .inr (by simp [setSession,setState])
    · left
      simp [setSession,hslot]

lemma accepted_expected {t : TableState} (i : CallIn) {query : QueryReq} {expt : Seqnum}
    {countdown : BitVec 8} (hrx : t.rx = .handleData query expt countdown)
    (hdest : query.gbnHeader.destSlot = d) (hseq : query.gbnHeader.seqnum = expt) :
    ((afterTx t i).session d).expectedSeqnum = expt+1 ∧ (next t i).rx = .recvRxReq := by
  rw [expected_after_tx,rx_after]
  unfold afterRx rxStep
  rw [hrx]
  simp [setSession,hdest,data_expected,hseq]

lemma accept_inv (h : RecvInv d frames n r) (hlen : frames.length < 2^32-1) (frame : Option Frame)
    (i : CallIn) (hopen : i.initReq = some ⟨d,.openSession⟩ → r.opened = false) (hd : d ≠ 0)
    (hpend : Pending d r.table.rx) : RecvInv d frames (n+1) (callReceiver d r frame i) := by
  obtain ⟨hk,hopened,query,countdown,hrx,hdest,hseq⟩ := pending_next d h hlen hpend
  obtain ⟨hexpt,hnext⟩ := accepted_expected d i hrx hdest hseq
  have hnl := (List.getElem?_eq_some_iff.mp hk).1
  refine ⟨hnl,?_,?_,?_,?_⟩
  · simp only [callReceiver,accepts_iff hd,hpend,if_true]
    rw [h.accepted,List.take_add_one,hk]
    rfl
  · rcases expected_init d r.table i with hkeep | ⟨hreq,-⟩ | hzero
    · refine .inr ⟨by simp [callReceiver,hopened],?_⟩
      refine (hkeep.trans hexpt).trans ?_
      exact (BitVec.ofNat_add (n+1) 1).symm
    · exact absurd (hopen hreq) (by simp [hopened])
    · exact .inl hzero
  · intro hno
    simp [callReceiver,hopened] at hno
  · intro q e c hq
    have : (callReceiver d r frame i).table.rx = .recvRxReq := hnext
    rw [this] at hq
    cases hq

lemma pass_inv (h : RecvInv d frames n r) (frame : Option Frame) (i : CallIn)
    (hopen : i.initReq = some ⟨d,.openSession⟩ → r.opened = false)
    (hframe : ∀ query ∈ i.stateQueryReq, DataFor d query → ∃ f ∈ frame, ∃ k,
      frames[k]? = some f ∧ query.gbnHeader.seqnum = BitVec.ofNat 32 (k+1))
    (hd : d ≠ 0) (hpend : ¬Pending d r.table.rx) :
    RecvInv d frames n (callReceiver d r frame i) := by
  have hkept := not_pending_expected (i := i) hpend
    (fun query expt countdown hrx hdest => (h.held query expt countdown hrx hdest).1)
  have hopened : ∀ P : Prop, r.opened = true ∧ P → (callReceiver d r frame i).opened = true ∧ P :=
    fun P hP => ⟨by simp [callReceiver,hP.1],hP.2⟩
  refine ⟨h.bound,?_,?_,?_,?_⟩
  · simp only [callReceiver,accepts_iff hd,hpend,if_false]
    exact h.accepted
  · rcases expected_init d r.table i with hsame | ⟨hreq,hone⟩ | hzero
    · have hexpt := h.expected
      rw [← hkept,← hsame] at hexpt
      exact hexpt.imp_right (hopened _)
    · right
      obtain rfl := h.unopened (hopen hreq)
      exact ⟨by simp [callReceiver,hreq],hone⟩
    · exact .inl hzero
  · intro hno
    apply h.unopened
    simp only [callReceiver,Bool.or_eq_false_iff] at hno
    exact hno.1
  · intro query expt countdown hrx hdest
    obtain ⟨⟨hrecv,hreq,-,hdata⟩,rfl,-⟩ := (held_iff query expt countdown hd hdest).mp hrx
    obtain ⟨f,hf,hk⟩ := hframe query hreq hdata
    refine ⟨hdata,?_,h.expected.imp_right (hopened _)⟩
    have hheld : (callReceiver d r frame i).held = f := by
      simp [callReceiver,hrecv,Option.mem_def.mp hf]
    rwa [hheld]

end

section

variable (s d : SlotId)

def Inv (m : Net) : Prop :=
  SendInv s d m.sender ∧ ((sent s m).length < 2^32-1 →
    ∃ n, RecvInv d (numbered s d m.sender.users) n m.receiver)

lemma sent_length (m : Net) : (sent s m).length = (numbered s d m.sender.users).length := by
  simp [sent,numbered]

lemma inv_boot : Inv s d (boot s) := by
  refine ⟨⟨by simp [boot],[],[],rfl,rfl,rfl,rfl,rfl,⟨rfl,rfl,?_⟩,?_⟩,?_⟩
  · intro slot l h
    cases h
  · simp [boot,lastSent,opened,openCall,next,initStep,setSession,setState,initSession,
      count,sessionPackets]
  · intro _
    refine ⟨0,Nat.zero_le _,rfl,.inl rfl,fun _ => rfl,?_⟩
    intro query expt countdown hrx
    cases hrx

lemma sender_step {m : Net} {sender : Sender} (h : Inv s d m) (hsend : SendInv s d sender)
    (husers : m.sender.users <+: sender.users) : Inv s d { m with sender := sender } := by
  refine ⟨hsend,?_⟩
  intro hlen
  obtain ⟨more,hmore⟩ := husers
  have hpre : numbered s d m.sender.users <+: numbered s d sender.users := by
    rw [← hmore]
    exact numbered_append_left s d _ _
  rw [sent_length s d] at hlen
  obtain ⟨n,hn⟩ := h.2 (by
    rw [sent_length s d]
    exact hpre.length_le.trans_lt hlen)
  exact ⟨n,recv_grows d hn hpre⟩

lemma tx_users (m : Sender) (seeHeader seePayload seeRsp : Bool) :
    (callTx m seeHeader seePayload seeRsp).users = m.users := by
  have hemit : ∀ (x : Sender) (beat : Option NetAxis64), (emit x beat).users = x.users := by
    intro x beat
    unfold emit
    cases beat with
    | none => rfl
    | some b => dsimp only; split <;> rfl
  unfold callTx
  cases m.tx <;> exact hemit _ _

lemma delivers_frame {m : Net} (h : SendInv s d m.sender) {frame : Option Frame}
    {query : QueryReq} (hdel : Delivers s m.sender.wire frame query) :
    ∃ f ∈ frame, ∃ k, (numbered s d m.sender.users)[k]? = some f ∧
      query.gbnHeader.seqnum = BitVec.ofNat 32 (k+1) := by
  obtain ⟨f,hf,hwire,beat,hbeat,hheader,hsrc⟩ := hdel
  have hown : ofSession s f = true := by
    rw [ofSession,Option.mem_def.mp hbeat]
    simp [hheader,hsrc]
  obtain ⟨k,hk⟩ := List.mem_iff_getElem?.mp (wire_frames s d h f hwire hown)
  obtain ⟨p,rfl⟩ := numbered_get s d _ k f hk
  refine ⟨_,hf,k,hk,?_⟩
  obtain rfl : headerBeat ⟨.data,BitVec.ofNat 32 (k+1),s,d⟩ = beat := by simpa [frameOf] using hbeat
  rw [← hheader,header_of_beat]

lemma inv_step (hs : s ≠ 0) (hd : d ≠ 0) (m : Net) (a : Action) (m' : Net) (h : Inv s d m)
    (hexec : exec s d m a = some m') : Inv s d m' := by
  unfold exec at hexec
  cases a with
  | user p =>
    simp only [Option.ite_none_right_eq_some,Option.some.injEq] at hexec
    obtain ⟨hp,rfl⟩ := hexec
    exact sender_step s d h (user_inv s d m.sender p hp h.1) (List.prefix_append _ _)
  | tx seeHeader seePayload seeRsp =>
    simp only [Option.some.injEq] at hexec
    subst hexec
    exact sender_step s d h (tx_inv s d hs hd m.sender _ _ _ h.1)
      (by rw [tx_users])
  | table query timeout init seeReq seeFinish =>
    simp only [Option.ite_none_right_eq_some,Option.some.injEq] at hexec
    obtain ⟨hinit,rfl⟩ := hexec
    exact sender_step s d h (table_inv s d m.sender _ _ _ rfl hinit h.1) List.prefix_rfl
  | receiver frame i =>
    simp only [Option.ite_none_right_eq_some,Option.some.injEq] at hexec
    obtain ⟨⟨hdel,hopen⟩,rfl⟩ := hexec
    refine ⟨h.1,?_⟩
    intro hlen
    obtain ⟨n,hn⟩ := h.2 hlen
    by_cases hpend : Pending d m.receiver.table.rx
    · rw [sent_length s d] at hlen
      exact ⟨n+1,accept_inv d hn hlen frame i hopen hd hpend⟩
    · refine ⟨n,pass_inv d hn frame i hopen ?_ hd hpend⟩
      intro query hreq hdata
      exact delivers_frame s d h.1 (hdel query hreq hdata)

/-- The receiver has accepted an initial part of the packets, in order and each once. -/
theorem delivered_prefix (hs : s ≠ 0) (hd : d ≠ 0) (as : List Action) (m : Net)
    (hrun : run (exec s d) as (boot s) = some m) (hlen : (sent s m).length < 2^32-1) :
    delivered m <+: sent s m := by
  have hinv : Inv s d m := run_preserves (exec s d) (Inv s d) (inv_step s d hs hd) as (boot s) m
    (inv_boot s d) hrun
  obtain ⟨n,hn⟩ := hinv.2 hlen
  rw [delivered,hn.accepted,List.map_take,numbered_tails,sent]
  exact List.take_prefix _ _

def packet : UserPacket := ⟨⟨1,2,3,5,8⟩,[],[7]⟩

def arrive : Action :=
  .receiver (some (frameOf 3 5 1 packet)) (queryCall ⟨⟨.data,1,3,5⟩,2,1⟩)

def send (p : UserPacket) : List Action :=
  [.user p,.tx true true true,.table none none none true true,.table none none none true true,
    .tx true true true,.tx true true true]

def later : UserPacket := ⟨⟨1,2,3,5,8⟩,[],[9]⟩

/-- The first packet arrives twice and the second one is still on the way. -/
def exchange : List Action :=
  send packet++[.receiver none (openCall 5),arrive,.receiver none {},arrive,.receiver none {}]++
    send later

theorem delivered_prefix_exchange : ∃ m, run (exec 3 5) exchange (boot 3) = some m ∧
    delivered m = [packet.beats] ∧ sent 3 m = [packet.beats,later.beats] ∧
    delivered m <+: sent 3 m := by
  refine ⟨_,rfl,by decide,by decide,?_⟩
  exact delivered_prefix 3 5 (by decide) (by decide) exchange _ rfl (by decide)

end

end Clio.Delivery
