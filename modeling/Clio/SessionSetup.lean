import Clio.SlotView

/-!
# Closing and reopening a session

Closing a slot leaves the receive machine alone: a packet latched before is still handled.
-/

namespace Clio.SessionSetup

open StateTable SlotView

section

def answered (t : TableState) (i : CallIn) : Option (QueryReq × Bool) :=
  match t.rx with
  | .recvRxReq =>
      i.stateQueryReq.bind (fun query => (output t i).queryRsp.map (fun rsp => (query, rsp)))
  | .handleData query _ _ => (output t i).queryRsp.map (fun rsp => (query, rsp))
  | .handleAck query _ _ => (output t i).queryRsp.map (fun rsp => (query, rsp))

def DataFor (s : SlotId) (query : QueryReq) : Prop :=
  query.gbnHeader.pktType = .data ∧ query.gbnHeader.destSlot = s ∧ query.gbnHeader.srcSlot ≠ 0

instance (s : SlotId) (query : QueryReq) : Decidable (DataFor s query) :=
  inferInstanceAs (Decidable (_ ∧ _))

def Accepts (s : SlotId) (t : TableState) (i : CallIn) : Prop :=
  ∃ x ∈ answered t i, x.2 = true ∧ DataFor s x.1

instance (s : SlotId) (t : TableState) (i : CallIn) : Decidable (Accepts s t i) :=
  inferInstanceAs (Decidable (∃ x ∈ answered t i, _))

/-- Every call leaves the slot invalid and accepts no data packet for it. -/
def Shut (s : SlotId) : TableState → List CallIn → Prop
  | _, [] => True
  | t, i::is => ¬Accepts s t i ∧ ((next t i).session s).expectedSeqnum = 0 ∧ Shut s (next t i) is

instance decidableShut (s : SlotId) : ∀ (is : List CallIn) (t : TableState),
    Decidable (Shut s t is)
  | [], _ => .isTrue trivial
  | i::is, t =>
      have := decidableShut s is (next t i)
      inferInstanceAs (Decidable (_ ∧ _ ∧ _))

def Latches (s : SlotId) (t : TableState) (i : CallIn) (query : QueryReq) : Prop :=
  t.rx = .recvRxReq ∧ i.stateQueryReq = some query ∧ query.broadcast = false ∧ DataFor s query

def NoMatch (s : SlotId) : TableState → List CallIn → Prop
  | t, i::j::is =>
      (∀ query, Latches s t i query →
        query.gbnHeader.seqnum ≠ (t.session s).expectedSeqnum) ∧ NoMatch s (next t i) (j::is)
  | _, _ => True

def Pending (s : SlotId) (rx : RxState) : Prop :=
  ∃ query countdown, rx = .handleData query query.gbnHeader.seqnum countdown ∧ DataFor s query

variable {s : SlotId} {t : TableState} {i : CallIn}

lemma data_answer (query : QueryReq) (expt : Seqnum) (countdown : BitVec 8) (ses : Session) :
    (handleData query expt countdown ses).2.queryRsp =
      some (decide (query.gbnHeader.seqnum = expt)) := by
  unfold handleData
  dsimp only
  split_ifs with h <;> simp [h]

lemma data_expected (query : QueryReq) (expt : Seqnum) (countdown : BitVec 8) (ses : Session) :
    (handleData query expt countdown ses).1.expectedSeqnum =
      if query.gbnHeader.seqnum = expt then expt+1 else ses.expectedSeqnum := by
  unfold handleData
  dsimp only
  split_ifs <;> rfl

lemma ack_answer (query : QueryReq) (lastAckd lastSent : Seqnum) (ses : Session) :
    (handleAck query lastAckd lastSent ses).2.queryRsp = some false := by
  unfold handleAck
  dsimp only
  split_ifs <;> rfl

lemma ack_expected (query : QueryReq) (lastAckd lastSent : Seqnum) (ses : Session) :
    (handleAck query lastAckd lastSent ses).1.expectedSeqnum = ses.expectedSeqnum := by
  unfold handleAck
  dsimp only
  split_ifs <;> rfl

lemma latch_answer (query : QueryReq) (ses : Session) (hs : s ≠ 0) (hdata : DataFor s query) :
    (recvRxReq query ses).2.queryRsp ≠ some true := by
  obtain ⟨htype,hdest,hsrc⟩ := hdata
  unfold recvRxReq
  split_ifs with hb hses
  · simp
  · rw [htype]
    simp
  · exact absurd ((in_session_iff _).mpr ⟨hdest ▸ hs,hsrc⟩) hses

lemma accepts_iff (hs : s ≠ 0) : Accepts s t i ↔ Pending s t.rx := by
  unfold Accepts answered output rxStep
  cases hrx : t.rx with
  | recvRxReq =>
    constructor
    · rintro ⟨⟨query,rsp⟩,hx,hrsp,hdata⟩
      cases hreq : i.stateQueryReq with
      | none => simp [hreq] at hx
      | some req =>
        simp only [hreq,Option.bind_some,Option.mem_def,Option.map_eq_some_iff, Prod.mk.injEq] at hx
        obtain ⟨a,ha,rfl,rfl⟩ := hx
        rw [show a = true from hrsp] at ha
        exact absurd ha (latch_answer req _ hs hdata)
    · rintro ⟨query,countdown,h,-⟩
      cases h
  | handleData query expt countdown =>
    simp only [data_answer,Option.map_some,Option.mem_def,Option.some.injEq]
    constructor
    · rintro ⟨_,rfl,hrsp,hdata⟩
      have hseq : query.gbnHeader.seqnum = expt := by simpa using hrsp
      exact ⟨query,countdown,by rw [hseq],hdata⟩
    · rintro ⟨q,c,h,hdata⟩
      cases h
      exact ⟨_,rfl,by simp,hdata⟩
  | handleAck query lastAckd lastSent =>
    simp only [ack_answer,Option.map_some,Option.mem_def,Option.some.injEq]
    constructor
    · rintro ⟨_,rfl,hrsp,-⟩
      cases hrsp
    · rintro ⟨q,c,h,-⟩
      cases h

lemma expected_after_rx :
    ((afterRx t i).session s).expectedSeqnum = (t.session s).expectedSeqnum ∨
      ∃ query countdown, t.rx = .handleData query query.gbnHeader.seqnum countdown ∧
        query.gbnHeader.destSlot = s := by
  unfold afterRx rxStep
  cases hrx : t.rx with
  | recvRxReq => cases i.stateQueryReq <;> exact .inl rfl
  | handleData query expt countdown =>
    by_cases hdest : query.gbnHeader.destSlot = s
    · subst hdest
      by_cases hseq : query.gbnHeader.seqnum = expt
      · exact .inr ⟨query,countdown,by rw [hseq],rfl⟩
      · exact .inl (by simp [setSession,data_expected,hseq])
    · exact .inl (by simp [setSession,Ne.symm hdest])
  | handleAck query lastAckd lastSent =>
    by_cases hdest : query.gbnHeader.destSlot = s
    · subst hdest
      exact .inl (by simp [setSession,ack_expected])
    · exact .inl (by simp [setSession,Ne.symm hdest])

lemma expected_after_tx :
    ((afterTx t i).session s).expectedSeqnum = ((afterRx t i).session s).expectedSeqnum := by
  unfold afterTx txStep
  cases htx : (afterRx t i).tx with
  | recvTxReq => cases i.checkFullReq <;> rfl
  | replTxReq slot lastSent =>
    by_cases hslot : slot = s
    · subst hslot
      simp only [setSession,Function.update_self]
      unfold replTxReq
      split <;> rfl
    · simp [setSession,Ne.symm hslot]
  | updTxInfo slot lastAckd lastSent => cases i.txFinishSig <;> rfl

lemma expected_closed (hclose : i.initReq = some ⟨s,.closeSession⟩) :
    ((next t i).session s).expectedSeqnum = 0 := by
  simp [next,initStep,hclose,setSession,setState]

lemma expected_kept (hopen : i.initReq ≠ some ⟨s,.openSession⟩)
    (h : ((afterTx t i).session s).expectedSeqnum = 0) :
    ((next t i).session s).expectedSeqnum = 0 := by
  unfold next initStep
  cases hreq : i.initReq with
  | none => exact h
  | some req =>
    by_cases hslot : req.slotid = s
    · cases hty : req.setType with
      | openSession => exact absurd (by rw [hreq,← hslot,← hty]) hopen
      | closeSession => simp [setSession,hslot,setState,hty]
    · simp [setSession,Ne.symm hslot,h]

lemma not_pending_expected (hrx : ¬Pending s t.rx)
    (hdata : ∀ query expt countdown, t.rx = .handleData query expt countdown →
      query.gbnHeader.destSlot = s → DataFor s query) :
    ((afterTx t i).session s).expectedSeqnum = (t.session s).expectedSeqnum := by
  rw [expected_after_tx]
  rcases expected_after_rx (s := s) (t := t) (i := i) with h | ⟨query,countdown,h,hdest⟩
  · exact h
  · exact absurd ⟨query,countdown,h,hdata query _ countdown h hdest⟩ hrx

lemma rx_after (j : CallIn) : (next t j).rx = (afterRx t j).rx := by
  unfold next initStep afterTx txStep
  cases j.initReq <;> cases (afterRx t j).tx <;> cases j.checkFullReq <;> cases j.txFinishSig <;>
    rfl

lemma held_iff (query : QueryReq) (expt : Seqnum) (countdown : BitVec 8) (hs : s ≠ 0)
    (hdest : query.gbnHeader.destSlot = s) :
    (next t i).rx = .handleData query expt countdown ↔
      Latches s t i query ∧ expt = (t.session s).expectedSeqnum ∧
        countdown = (t.session s).ackCountdown := by
  rw [rx_after]
  unfold afterRx rxStep Latches
  cases hrx : t.rx with
  | recvRxReq =>
    cases hreq : i.stateQueryReq with
    | none => simp [hrx]
    | some req =>
      simp only [true_and,Option.some.injEq]
      unfold recvRxReq
      split_ifs with hb hses
      · constructor
        · intro h
          cases h
        · rintro ⟨⟨rfl,hnb,-⟩,-⟩
          exact absurd hb (by rw [hnb]; decide)
      · cases hty : req.gbnHeader.pktType with
        | data =>
          simp only [RxState.handleData.injEq]
          constructor
          · rintro ⟨rfl,rfl,rfl⟩
            have hsrc := ((in_session_iff _).mp hses).2
            exact ⟨⟨rfl,by simpa using hb,hty,hdest,hsrc⟩,by rw [hdest],by rw [hdest]⟩
          · rintro ⟨⟨rfl,-⟩,rfl,rfl⟩
            exact ⟨rfl,by rw [hdest],by rw [hdest]⟩
        | ack | nack | unknown =>
          constructor
          · intro h
            cases h
          · rintro ⟨⟨rfl,-,hdata,-⟩,-⟩
            rw [hty] at hdata
            cases hdata
      · constructor
        · intro h
          cases h
        · rintro ⟨⟨rfl,-,-,hd,hsrc⟩,-⟩
          exact absurd ((in_session_iff _).mpr ⟨hd ▸ hs,hsrc⟩) hses
  | handleData q e c | handleAck q a b => simp

lemma pending_next_iff (hs : s ≠ 0) : Pending s (next t i).rx ↔
    ∃ query, Latches s t i query ∧ query.gbnHeader.seqnum = (t.session s).expectedSeqnum := by
  constructor
  · rintro ⟨query,countdown,hrx,hdata⟩
    obtain ⟨hl,he,-⟩ := (held_iff query _ countdown hs hdata.2.1).mp hrx
    exact ⟨query,hl,he⟩
  · rintro ⟨query,hl,he⟩
    exact ⟨query,(t.session s).ackCountdown,
      (held_iff query _ _ hs hl.2.2.2.2.1).mpr ⟨hl,he,rfl⟩,hl.2.2.2⟩

lemma shut_iff (hs : s ≠ 0) (is : List CallIn) (t : TableState) (i : CallIn)
    (hopen : ∀ c ∈ is, c.initReq ≠ some ⟨s,.openSession⟩)
    (hpend : ¬Pending s t.rx) (hzero : ((next t i).session s).expectedSeqnum = 0) :
    Shut s t (i::is) ↔ NoMatch s t (i::is) := by
  induction is generalizing t i with
  | nil => simp [Shut,NoMatch,accepts_iff hs,hpend,hzero]
  | cons j is ih =>
    have hno : (∀ query, Latches s t i query →
        query.gbnHeader.seqnum ≠ (t.session s).expectedSeqnum) ↔ ¬Pending s (next t i).rx := by
      rw [pending_next_iff hs]
      push Not
      rfl
    rw [Shut,NoMatch,hno,accepts_iff hs]
    simp only [hpend,hzero,not_false_eq_true,true_and]
    constructor
    · intro h
      have hnext : ¬Pending s (next t i).rx := fun hp => h.1 ((accepts_iff hs).mpr hp)
      exact ⟨hnext,(ih (next t i) j (fun c hc => hopen c (by simp [hc])) hnext h.2.1).mp h⟩
    · rintro ⟨hnext,hrest⟩
      have hafter : ((afterTx (next t i) j).session s).expectedSeqnum = 0 := by
        rw [not_pending_expected hnext,hzero]
        intro query expt countdown hrx hdest
        exact ((held_iff query expt countdown hs hdest).mp hrx).1.2.2.2
      have hkeep := expected_kept (hopen j (by simp)) hafter
      exact (ih (next t i) j (fun c hc => hopen c (by simp [hc])) hnext hkeep).mpr hrest

/-- A closed slot accepts nothing exactly when no packet is held and none expected is read. -/
theorem closed_accepts_nothing_iff (hs : s ≠ 0) (t : TableState) (i : CallIn) (is : List CallIn)
    (hclose : i.initReq = some ⟨s,.closeSession⟩)
    (hopen : ∀ c ∈ is, c.initReq ≠ some ⟨s,.openSession⟩) :
    Shut s t (i::is) ↔ ¬Pending s t.rx ∧ NoMatch s t (i::is) := by
  constructor
  · intro h
    have hpend : ¬Pending s t.rx := fun hp => h.1 ((accepts_iff hs).mpr hp)
    exact ⟨hpend,(shut_iff hs is t i hopen hpend (expected_closed hclose)).mp h⟩
  · rintro ⟨hpend,hmatch⟩
    exact (shut_iff hs is t i hopen hpend (expected_closed hclose)).mpr hmatch

def dataQuery (seqnum : Seqnum) (src dest : SlotId) : QueryReq := ⟨⟨.data, seqnum, src, dest⟩, 2, 1⟩

def openCall (s : SlotId) : CallIn := { initReq := some ⟨s,.openSession⟩ }

def closeCall (s : SlotId) : CallIn := { initReq := some ⟨s,.closeSession⟩ }

def queryCall (query : QueryReq) : CallIn := { stateQueryReq := some query }

/-- Opened, closed, and then sent a packet with sequence number 0. -/
theorem closed_accepts_zero :
    ¬Shut 5 (next powerUp (openCall 5)) [closeCall 5, queryCall (dataQuery 0 3 5), {}] := by
  decide

theorem closed_accepts_nothing_packet_one :
    Shut 5 (next powerUp (openCall 5)) [closeCall 5, queryCall (dataQuery 1 3 5), {}] := by
  refine (closed_accepts_nothing_iff (by decide) _ _ _ rfl (by decide)).mpr ⟨?_,?_,?_,trivial⟩
  · rintro ⟨query,countdown,h,-⟩
    cases h
  · rintro query ⟨-,h,-⟩
    cases h
  · rintro query ⟨-,h,-⟩
    rw [← Option.some.inj h]
    decide

end

section

def latched (query : QueryReq) : Bool :=
  !query.broadcast && query.gbnHeader.inSession && query.gbnHeader.pktType ≠ .unknown

def Settled (s : SlotId) (t : TableState) (i : CallIn) : Prop :=
  (t.rx = .recvRxReq → ∀ query, i.stateQueryReq = some query →
    query.gbnHeader.destSlot = s → latched query = false) ∧
  match t.tx with
  | .recvTxReq => i.checkFullReq ≠ some s
  | .replTxReq slot _ => slot ≠ s
  | .updTxInfo slot _ _ => slot = s → i.txFinishSig.isSome

def opened (s : SlotId) : TableState := next powerUp (openCall s)

variable (s : SlotId)

lemma opened_view : view s (opened s) = freshView := by
  simp [opened,openCall,next,initStep,afterTx,afterRx,powerUp,rxStep,txStep,view,
    setSession,setState,rxOf,txOf,freshView]

lemma latch_idle (query : QueryReq) (ses : Session) (h : latched query = false) :
    (recvRxReq query ses).1 = .recvRxReq := by
  unfold recvRxReq
  split_ifs with hb hses
  · rfl
  · have hty : query.gbnHeader.pktType = .unknown := by simpa [latched,hb,hses] using h
    rw [hty]
  · rfl

variable (t : TableState) (i : CallIn)

lemma rx_settled
    (h : t.rx = .recvRxReq → ∀ query, i.stateQueryReq = some query →
      query.gbnHeader.destSlot = s → latched query = false) :
    rxOf s (afterRx t i).rx = .recvRxReq := by
  unfold afterRx rxStep
  cases hrx : t.rx with
  | recvRxReq =>
    cases hreq : i.stateQueryReq with
    | none => simp [hrx]
    | some query =>
      by_cases hdest : query.gbnHeader.destSlot = s
      · simp [latch_idle query _ (h hrx query hreq hdest)]
      · exact latch_slot s query _ hdest
  | handleData query expt countdown | handleAck query lastAckd lastSent => rfl

lemma after_tx_rx : (afterTx t i).rx = (afterRx t i).rx := by
  unfold afterTx txStep
  cases (afterRx t i).tx <;> cases i.checkFullReq <;> cases i.txFinishSig <;> rfl

lemma tx_settled (h : Settled s t i) : txOf s (afterTx t i).tx = .recvTxReq := by
  have htx := h.2
  unfold afterTx txStep
  rw [after_rx_tx]
  cases hst : t.tx with
  | recvTxReq =>
    simp only [hst] at htx
    cases hreq : i.checkFullReq with
    | none => simp [after_rx_tx,hst,txOf]
    | some slot =>
      rw [hreq] at htx
      simp [txOf,show slot ≠ s from fun hslot => htx (hslot ▸ rfl)]
  | replTxReq slot lastSent =>
    simp only [hst] at htx
    simp only [replTxReq]
    split <;> simp [txOf,htx]
  | updTxInfo slot lastAckd lastSent =>
    simp only [hst] at htx
    cases hfin : i.txFinishSig with
    | none =>
      have hslot : slot ≠ s := fun hslot => by simpa [hfin] using htx hslot
      simp [after_rx_tx,hst,txOf,hslot]
    | some _ => rfl

lemma reopened_view (hopen : i.initReq = some ⟨s,.openSession⟩) (h : Settled s t i) :
    view s (next t i) = freshView := by
  have hrx : rxOf s (afterTx t i).rx = .recvRxReq := by
    rw [after_tx_rx]
    exact rx_settled s t i h.1
  have htx := tx_settled s t i h
  simp [next,initStep,hopen,view,setSession,setState,hrx,htx,freshView]

lemma latch_held (query : QueryReq) (ses : Session) (h : latched query = true) :
    (∃ expt countdown, (recvRxReq query ses).1 = .handleData query expt countdown) ∨
      ∃ lastAckd lastSent, (recvRxReq query ses).1 = .handleAck query lastAckd lastSent := by
  simp only [latched,Bool.and_eq_true,Bool.not_eq_true',decide_eq_true_eq] at h
  obtain ⟨⟨hb,hses⟩,hty⟩ := h
  unfold recvRxReq
  rw [if_neg (by simp [hb]),if_pos hses]
  cases hpkt : query.gbnHeader.pktType with
  | data => exact .inl ⟨_,_,rfl⟩
  | ack | nack => exact .inr ⟨_,_,rfl⟩
  | unknown => exact absurd hpkt hty

variable (u : TableState)

lemma held_answers (h : rxOf s u.rx ≠ .recvRxReq) : (runOutput s u [{}]).queryRsp ≠ [] := by
  cases hrx : u.rx with
  | recvRxReq => exact absurd (by rw [hrx]; rfl) h
  | handleData query expt countdown =>
    have hdest : query.gbnHeader.destSlot = s := by
      by_contra hne
      exact h (by simp [hrx,rxOf,hne])
    simp [runOutput,slotOutput,Streams.append,rxEvent,hrx,hdest,output,rxStep,data_answer]
  | handleAck query lastAckd lastSent =>
    have hdest : query.gbnHeader.destSlot = s := by
      by_contra hne
      exact h (by simp [hrx,rxOf,hne])
    simp [runOutput,slotOutput,Streams.append,rxEvent,hrx,hdest,output,rxStep,ack_answer]

def requestCall (s : SlotId) : CallIn := { checkFullReq := some s }

lemma opened_silent : runOutput s (opened s) [{}] = {} := by
  rw [run_output]
  rfl

lemma opened_replies : (runOutput s (opened s) [requestCall s, {}]).checkFullRsp = [1] := by
  have hevents : runEvents s (opened s) [requestCall s,{}] = [.request,.reply] := by
    simp [runEvents,events,rxEvent,txEvent,timeoutEvent,initEvent,requestCall,next,initStep,
      afterTx,afterRx,rxStep,txStep,opened,openCall,powerUp]
  rw [run_output,hevents,opened_view]
  rfl

lemma idle_rx_event (c : CallIn) (hc : c.stateQueryReq = none) (h : rxOf s u.rx = .recvRxReq) :
    rxEvent s u c = [] := by
  unfold rxEvent
  cases hst : u.rx with
  | recvRxReq => rw [hc]
  | handleData query expt countdown | handleAck query lastAckd lastSent =>
    exact if_neg (fun hdest => by simp [hst,rxOf,hdest] at h)

lemma tx_only_events (c : CallIn) (hq : c.stateQueryReq = none) (htime : c.rtTimeoutSig = none)
    (hinit : c.initReq = none) (h : rxOf s u.rx = .recvRxReq) : events s u c = txEvent s u c := by
  simp [events,idle_rx_event s u c hq h,timeoutEvent,htime,initEvent,hinit]

lemma repl_tx_event (slot : SlotId) (lastSent : Seqnum) (u : TableState) (c : CallIn)
    (h : txOf s u.tx = .replTxReq slot lastSent) : txEvent s u c = [.reply] := by
  unfold txEvent
  cases hst : u.tx with
  | recvTxReq => simp [hst,txOf] at h
  | replTxReq other sent =>
    by_cases hs : other = s
    · exact if_pos hs
    · simp [hst,txOf,hs] at h
  | updTxInfo other ackd sent =>
    by_cases hs : other = s <;> simp [hst,txOf,hs] at h

lemma upd_tx_event (slot : SlotId) (lastAckd lastSent : Seqnum) (u : TableState) (c : CallIn)
    (hc : c.txFinishSig = none) (h : txOf s u.tx = .updTxInfo slot lastAckd lastSent) :
    txEvent s u c = [] := by
  unfold txEvent
  cases hst : u.tx with
  | recvTxReq => simp [hst,txOf] at h
  | replTxReq other sent =>
    by_cases hs : other = s <;> simp [hst,txOf,hs] at h
  | updTxInfo other ackd sent => simp [hc]

lemma left_request_differs (hrx : rxOf s u.rx = .recvRxReq) (hses : u.session s = initSession)
    (htx : txOf s u.tx ≠ .recvTxReq) : ∃ is, runOutput s u is ≠ runOutput s (opened s) is := by
  have hview : view s u = ⟨.recvRxReq,txOf s u.tx,initSession⟩ := by rw [view,hrx,hses]
  cases hst : txOf s u.tx with
  | recvTxReq => exact absurd hst htx
  | replTxReq slot lastSent =>
    rw [hst] at hview
    by_cases hwin : windowOpen initSession.lastAckdSeqnum lastSent
    · refine ⟨[{}],?_⟩
      have hevents : runEvents s u [{}] = [.reply] := by
        rw [runEvents,runEvents,tx_only_events s u {} rfl rfl rfl hrx,
          repl_tx_event s _ _ u {} hst,List.append_nil]
      rw [run_output,hevents,hview,opened_silent,steps_one]
      intro heq
      have := congrArg Streams.checkFullRsp heq
      simp [step,ofTx,replTxReq,hwin] at this
    · refine ⟨[requestCall s,{}],?_⟩
      have hstuck : step s ⟨.recvRxReq,.replTxReq slot lastSent,initSession⟩ .reply =
          (⟨.recvRxReq,.replTxReq slot lastSent,initSession⟩,{}) := by
        simp [step,ofTx,replTxReq,hwin]
      have hone : events s u (requestCall s) = [.reply] := by
        rw [tx_only_events s u _ rfl rfl rfl hrx,repl_tx_event s _ _ u _ hst]
      have hnext : view s (next u (requestCall s)) =
          ⟨.recvRxReq,.replTxReq slot lastSent,initSession⟩ := by
        rw [next_view,hone,hview,steps_one,hstuck]
      have hevents : runEvents s u [requestCall s,{}] = [.reply,.reply] := by
        rw [runEvents,runEvents,runEvents,hone,
          tx_only_events s _ {} rfl rfl rfl (congrArg View.rx hnext),
          repl_tx_event s _ _ _ {} (congrArg View.tx hnext)]
        rfl
      intro heq
      have := congrArg Streams.checkFullRsp heq
      rw [opened_replies,run_output,hevents,hview] at this
      simp [steps,hstuck,Streams.append] at this
  | updTxInfo slot lastAckd lastSent =>
    rw [hst] at hview
    refine ⟨[requestCall s,{}],?_⟩
    have hone : events s u (requestCall s) = [] := by
      rw [tx_only_events s u _ rfl rfl rfl hrx,upd_tx_event s _ _ _ u _ rfl hst]
    have hnext : view s (next u (requestCall s)) =
        ⟨.recvRxReq,.updTxInfo slot lastAckd lastSent,initSession⟩ := by
      rw [next_view,hone,hview]
      rfl
    have hevents : runEvents s u [requestCall s,{}] = [] := by
      rw [runEvents,runEvents,runEvents,hone,
        tx_only_events s _ {} rfl rfl rfl (congrArg View.rx hnext),
        upd_tx_event s _ _ _ _ {} rfl (congrArg View.tx hnext)]
      rfl
    intro heq
    have := congrArg Streams.checkFullRsp heq
    rw [opened_replies,run_output,hevents] at this
    simp [steps] at this

lemma unsettled_differs (hopen : i.initReq = some ⟨s,.openSession⟩) (h : ¬Settled s t i) :
    ∃ is, runOutput s (next t i) is ≠ runOutput s (opened s) is := by
  have hses : (next t i).session s = initSession := by
    simp [next,initStep,hopen,setSession,setState]
  have htx : (next t i).tx = (afterTx t i).tx := by simp [next,initStep,hopen]
  by_cases hrx : rxOf s (next t i).rx = .recvRxReq
  · refine left_request_differs s _ hrx hses ?_
    intro hidle
    rw [htx] at hidle
    refine h ⟨?_,?_⟩
    · intro hrecv query hreq hdest
      by_contra hlatched
      rw [rx_after] at hrx
      have hnext : (afterRx t i).rx = (recvRxReq query (t.session s)).1 := by
        simp [afterRx,rxStep,hrecv,hreq,hdest]
      rcases latch_held query (t.session s) (by simpa using hlatched) with ⟨e,c,hl⟩ | ⟨a,b,hl⟩
      · rw [hnext,hl] at hrx
        simp [rxOf,hdest] at hrx
      · rw [hnext,hl] at hrx
        simp [rxOf,hdest] at hrx
    · unfold afterTx txStep at hidle
      rw [after_rx_tx] at hidle
      cases hst : t.tx with
      | recvTxReq =>
        intro hreq
        simp [hst,hreq,txOf] at hidle
      | replTxReq slot lastSent =>
        intro hslot
        subst hslot
        by_cases hw : windowOpen ((afterRx t i).session slot).lastAckdSeqnum lastSent
        · simp [hst,replTxReq,hw,txOf] at hidle
        · simp [hst,replTxReq,hw,txOf] at hidle
      | updTxInfo slot lastAckd lastSent =>
        intro hslot
        cases hfin : i.txFinishSig with
        | none => simp [hst,hfin,after_rx_tx,txOf,hslot] at hidle
        | some _ => rfl
  · refine ⟨[{}],?_⟩
    intro heq
    have := congrArg Streams.queryRsp heq
    rw [opened_silent] at this
    exact held_answers s _ hrx this

/-- A reopened slot is as new if the call leaves nothing of it in a machine. -/
theorem reopen_forgets (s : SlotId) (t : TableState) (i : CallIn)
    (hopen : i.initReq = some ⟨s,.openSession⟩) :
    (Settled s t i → ∀ is js, runEvents s (next t i) is = runEvents s (opened s) js →
      runOutput s (next t i) is = runOutput s (opened s) js) ∧
    (¬Settled s t i → ∃ is, runOutput s (next t i) is ≠ runOutput s (opened s) is) := by
  refine ⟨?_,unsettled_differs s t i hopen⟩
  intro h is js hevents
  rw [run_output,run_output,reopened_view s t i hopen h,opened_view,hevents]

def oldSession : TableState :=
  tableRun powerUp [openCall 5, queryCall (dataQuery 1 3 5), {}]

/-- Packet 2 of the old session is latched at the open, and the new first packet is refused. -/
theorem reopen_remembers :
    (runOutput 5 (next oldSession { openCall 5 with stateQueryReq := some (dataQuery 2 3 5) })
        [{}, queryCall (dataQuery 1 3 5), {}]).queryRsp = [true, false] ∧
      (runOutput 5 (opened 5) [{}, queryCall (dataQuery 1 3 5), {}]).queryRsp = [true] := by
  decide

theorem reopen_forgets_packet :
    runOutput 5 (next oldSession (openCall 5)) [queryCall (dataQuery 1 3 5), {}] =
      runOutput 5 (opened 5) [queryCall (dataQuery 1 3 5), {}] :=
  (reopen_forgets 5 oldSession (openCall 5) rfl).1
    ⟨fun _ _ hq => absurd hq (by simp [openCall]),
      show (openCall 5).checkFullReq ≠ some 5 by decide⟩ _ _ (by decide)

end

end Clio.SessionSetup
