import Clio.Machine
import Clio.SessionSetup

/-!
# The window of a sender

The peer of a session receives its packets in order and acknowledges only what it has received.
-/

namespace Clio.SenderWindow

open StateTable SlotView SessionSetup Machine

def AckFor (s : SlotId) (query : QueryReq) : Prop :=
  query.gbnHeader.destSlot = s ∧
    (query.gbnHeader.pktType = .ack ∨ query.gbnHeader.pktType = .nack)

instance (s : SlotId) (query : QueryReq) : Decidable (AckFor s query) :=
  inferInstanceAs (Decidable (_ ∧ _))

structure Window (v : View) (expected sent : ℕ) : Prop where
  pos : 0 < expected
  acked : v.ses.lastAckdSeqnum.toNat ≤ expected-1
  received : expected-1 ≤ v.ses.lastSentSeqnum.toNat
  room : v.ses.lastSentSeqnum.toNat ≤ v.ses.lastAckdSeqnum.toNat+windowSize
  count : v.ses.lastSentSeqnum.toNat = sent
  rx : ∀ query lastAckd lastSent, v.rx = .handleAck query lastAckd lastSent →
    lastAckd = v.ses.lastAckdSeqnum ∧ query.gbnHeader.seqnum.toNat < expected
  tx : ∀ slot lastSent, v.tx = .replTxReq slot lastSent → lastSent = v.ses.lastSentSeqnum

section

variable {s : SlotId} {v : View} {expected sent : ℕ}

lemma recv_latch (query : QueryReq) (ses : Session) (q : QueryReq) (lastAckd lastSent : Seqnum)
    (h : (recvRxReq query ses).1 = .handleAck q lastAckd lastSent) :
    q = query ∧ lastAckd = ses.lastAckdSeqnum ∧
      (query.gbnHeader.pktType = .ack ∨ query.gbnHeader.pktType = .nack) := by
  unfold recvRxReq at h
  split_ifs at h
  split at h
  · cases h
  · next hty =>
    cases h
    exact ⟨rfl,rfl,.inl hty⟩
  · next hty =>
    cases h
    exact ⟨rfl,rfl,.inr hty⟩
  · cases h

lemma query_window (hv : Window v expected sent) (query : QueryReq)
    (hdest : query.gbnHeader.destSlot = s)
    (hgenuine : AckFor s query → query.gbnHeader.seqnum.toNat < expected) :
    Window (step s v (.query query)).1 expected sent := by
  refine ⟨hv.pos,hv.acked,hv.received,hv.room,hv.count,?_,hv.tx⟩
  intro q lastAckd lastSent hq
  obtain ⟨rfl,hla,hty⟩ := recv_latch query v.ses q lastAckd lastSent hq
  exact ⟨hla,hgenuine ⟨hdest,hty⟩⟩

lemma ack_counters (query : QueryReq) (lastAckd lastSent : Seqnum) (ses : Session) :
    (handleAck query lastAckd lastSent ses).1.lastAckdSeqnum =
        (if lastAckd < query.gbnHeader.seqnum then query.gbnHeader.seqnum else ses.lastAckdSeqnum) ∧
      (handleAck query lastAckd lastSent ses).1.lastSentSeqnum = ses.lastSentSeqnum := by
  unfold handleAck
  dsimp only
  split_ifs <;> exact ⟨rfl,rfl⟩

lemma handle_window (hv : Window v expected sent) :
    Window (step s v .handle).1 expected sent ∧
      v.ses.lastAckdSeqnum.toNat ≤ (step s v .handle).1.ses.lastAckdSeqnum.toNat ∧
      (step s v .handle).1.ses.lastSentSeqnum = v.ses.lastSentSeqnum := by
  cases hrx : v.rx with
  | recvRxReq =>
    simp only [step,hrx]
    exact ⟨hv,le_refl _,trivial⟩
  | handleData query expt countdown =>
    obtain ⟨hacked,hsent⟩ := data_counters query expt countdown v.ses
    simp only [step,hrx]
    refine ⟨⟨hv.pos,?_,?_,?_,?_,?_,?_⟩,?_,hsent⟩
    · rw [hacked]
      exact hv.acked
    · rw [hsent]
      exact hv.received
    · rw [hsent,hacked]
      exact hv.room
    · rw [hsent]
      exact hv.count
    · intro q la ls h
      cases h
    · intro slot ls h
      rw [hsent]
      exact hv.tx slot ls h
    · rw [hacked]
  | handleAck query lastAckd lastSent =>
    obtain ⟨rfl,hgenuine⟩ := hv.rx query lastAckd lastSent hrx
    obtain ⟨hacked,hsent⟩ := ack_counters query v.ses.lastAckdSeqnum lastSent v.ses
    have hraise : v.ses.lastAckdSeqnum.toNat ≤
        (handleAck query v.ses.lastAckdSeqnum lastSent v.ses).1.lastAckdSeqnum.toNat ∧
        (handleAck query v.ses.lastAckdSeqnum lastSent v.ses).1.lastAckdSeqnum.toNat ≤
        expected-1 := by
      rw [hacked]
      split_ifs with hlt
      · have hlt' : v.ses.lastAckdSeqnum.toNat < query.gbnHeader.seqnum.toNat := hlt
        omega
      · exact ⟨le_refl _,hv.acked⟩
    simp only [step,hrx]
    refine ⟨⟨hv.pos,hraise.2,?_,?_,?_,?_,?_⟩,hraise.1,hsent⟩
    · rw [hsent]
      exact hv.received
    · rw [hsent]
      exact hv.room.trans (Nat.add_le_add_right hraise.1 _)
    · rw [hsent]
      exact hv.count
    · intro q la ls h
      cases h
    · intro slot ls h
      rw [hsent]
      exact hv.tx slot ls h

lemma request_window (hv : Window v expected sent) :
    Window (step s v .request).1 expected sent := by
  refine ⟨hv.pos,hv.acked,hv.received,hv.room,hv.count,hv.rx,?_⟩
  intro slot ls h
  cases h
  rfl

lemma reply_window (hv : Window v expected sent)
    (hlt : sent+(step s v .reply).2.checkFullRsp.length < 2^32) :
    Window (step s v .reply).1 expected (sent+(step s v .reply).2.checkFullRsp.length) ∧
      (step s v .reply).1.ses.lastAckdSeqnum = v.ses.lastAckdSeqnum ∧
      ∀ n ∈ (step s v .reply).2.checkFullRsp, n = v.ses.lastSentSeqnum+1 := by
  cases htx : v.tx with
  | recvTxReq | updTxInfo slot lastAckd lastSent =>
    simp only [step,htx]
    exact ⟨hv,by simp⟩
  | replTxReq slot lastSent =>
    obtain rfl := hv.tx slot lastSent htx
    have hcount := hv.count
    have hreceived := hv.received
    by_cases hopen : windowOpen v.ses.lastAckdSeqnum v.ses.lastSentSeqnum = true
    · have hroom : v.ses.lastSentSeqnum.toNat < v.ses.lastAckdSeqnum.toNat+windowSize := by
        simpa [windowOpen] using hopen
      simp only [step,htx,replTxReq,hopen,if_true,ofTx,Option.toList_some,
        List.length_singleton] at hlt ⊢
      have hnext : (v.ses.lastSentSeqnum+1).toNat = sent+1 := by
        rw [BitVec.toNat_add,hcount]
        exact Nat.mod_eq_of_lt hlt
      refine ⟨⟨hv.pos,hv.acked,?_,?_,hnext,hv.rx,?_⟩,trivial,by simp⟩
      · rw [hnext]
        omega
      · rw [hnext,← hcount]
        exact hroom
      · intro slot' ls h
        cases h
    · simp only [step,htx,replTxReq,hopen,Bool.false_eq_true,if_false,ofTx,Option.toList_none,
        List.length_nil]
      refine ⟨⟨hv.pos,hv.acked,hv.received,hv.room,hv.count,hv.rx,?_⟩,trivial,by simp⟩
      intro slot' ls h
      cases h
      rfl

lemma finish_window (hv : Window v expected sent) :
    Window (step s v .finish).1 expected sent ∧ (step s v .finish).1.ses = v.ses ∧
      (step s v .finish).2.checkFullRsp = [] := by
  cases htx : v.tx with
  | updTxInfo slot lastAckd lastSent =>
    simp only [step,htx]
    refine ⟨⟨hv.pos,hv.acked,hv.received,hv.room,hv.count,hv.rx,?_⟩,trivial,?_⟩
    · intro slot' ls h
      cases h
    · unfold updTxInfo
      split <;> rfl
  | recvTxReq | replTxReq slot lastSent =>
    simp only [step,htx]
    exact ⟨hv,trivial,trivial⟩

lemma open_window (hrx : ∀ query lastAckd lastSent, v.rx ≠ .handleAck query lastAckd lastSent)
    (htx : ∀ slot lastSent, v.tx ≠ .replTxReq slot lastSent) :
    Window (step s v (.setup .openSession)).1 1 0 :=
  ⟨Nat.one_pos,le_refl _,le_refl _,Nat.zero_le _,rfl,
    fun query lastAckd lastSent h => absurd h (hrx query lastAckd lastSent),
    fun slot lastSent h => absurd h (htx slot lastSent)⟩

lemma close_window (hv : Window v expected sent) :
    Window (step s v (.setup .closeSession)).1 expected sent :=
  ⟨hv.pos,hv.acked,hv.received,hv.room,hv.count,hv.rx,hv.tx⟩

end

def reads (t : TableState) (i : CallIn) : Option QueryReq :=
  if t.rx = .recvRxReq then i.stateQueryReq else none

variable (s : SlotId) (t : TableState) (i : CallIn)

lemma ack_latched (query : QueryReq) (lastAckd lastSent : Seqnum)
    (h : (view s (afterRx t i)).rx = .handleAck query lastAckd lastSent) :
    t.rx = .recvRxReq ∧ query ∈ reads t i ∧ AckFor s query := by
  have hrx : rxOf s (afterRx t i).rx = .handleAck query lastAckd lastSent := h
  unfold afterRx rxStep at hrx
  cases hstate : t.rx with
  | recvRxReq =>
    cases hreq : i.stateQueryReq with
    | none =>
      rw [hstate,hreq] at hrx
      simp only [hstate,rx_of_recv] at hrx
      cases hrx
    | some q =>
      rw [hstate,hreq] at hrx
      simp only at hrx
      by_cases hs : q.gbnHeader.destSlot = s
      · rw [latch_own s q _ hs] at hrx
        obtain ⟨rfl,-,hty⟩ := recv_latch q _ query lastAckd lastSent hrx
        exact ⟨rfl,by simp [reads,hstate,hreq],hs,hty⟩
      · rw [latch_slot s q _ hs] at hrx
        cases hrx
  | handleData q expt countdown | handleAck q la ls =>
    rw [hstate] at hrx
    cases hrx

lemma rx_window (expected sent : ℕ) (hv : Window (view s t) expected sent)
    (hgenuine : ∀ query ∈ reads t i, AckFor s query → query.gbnHeader.seqnum.toNat < expected) :
    Window (view s (afterRx t i)) expected sent ∧
      (view s t).ses.lastAckdSeqnum.toNat ≤ (view s (afterRx t i)).ses.lastAckdSeqnum.toNat ∧
      (view s (afterRx t i)).ses.lastSentSeqnum = (view s t).ses.lastSentSeqnum := by
  rw [rx_view]
  unfold rxEvent
  cases hrx : t.rx with
  | recvRxReq =>
    cases hreq : i.stateQueryReq with
    | none => exact ⟨hv,le_refl _,rfl⟩
    | some query =>
      by_cases hs : query.gbnHeader.destSlot = s
      · simp only [hs,if_true,steps_one]
        exact ⟨query_window hv query hs (hgenuine query (by simp [reads,hrx,hreq])),le_refl _,rfl⟩
      · simp only [hs,if_false]
        exact ⟨hv,le_refl _,rfl⟩
  | handleData query expt countdown | handleAck query lastAckd lastSent =>
    by_cases hs : query.gbnHeader.destSlot = s
    · simp only [hs,if_true,steps_one]
      exact handle_window hv
    · simp only [hs,if_false]
      exact ⟨hv,le_refl _,rfl⟩

def handedOut (s : SlotId) (t : TableState) (i : CallIn) : List Seqnum :=
  (slotOutput s t i).checkFullRsp

lemma handed_out :
    handedOut s t i = (steps s (view s (afterRx t i)) (txEvent s t i)).2.checkFullRsp := by
  rw [handedOut,slotOutput,← tx_event_after_rx,tx_streams]
  rfl

lemma handed_out_nil (h : ∀ slot lastSent, t.tx ≠ .replTxReq slot lastSent) :
    handedOut s t i = [] := by
  rw [handed_out]
  unfold txEvent
  cases htx : t.tx with
  | recvTxReq =>
    simp only
    split <;> rfl
  | replTxReq slot lastSent => exact absurd htx (h slot lastSent)
  | updTxInfo slot lastAckd lastSent =>
    simp only
    split
    · next hfin =>
      have hview : (view s (afterRx t i)).tx = .updTxInfo slot lastAckd lastSent := by
        simp [view,after_rx_tx,htx,txOf,hfin.1]
      simp only [steps_one,step,hview]
      unfold updTxInfo
      split <;> rfl
    · rfl

lemma tx_window (expected sent : ℕ) (hv : Window (view s (afterRx t i)) expected sent)
    (hlt : sent+(handedOut s t i).length < 2^32) :
    Window (view s (afterTx t i)) expected (sent+(handedOut s t i).length) ∧
      (view s (afterTx t i)).ses.lastAckdSeqnum = (view s (afterRx t i)).ses.lastAckdSeqnum ∧
      ∀ n ∈ handedOut s t i, n = (view s (afterRx t i)).ses.lastSentSeqnum+1 := by
  have hview : view s (afterTx t i) = (steps s (view s (afterRx t i)) (txEvent s t i)).1 := by
    rw [afterTx,tx_view,tx_event_after_rx]
  rw [hview]
  rw [handed_out] at hlt ⊢
  unfold txEvent at hlt ⊢
  cases htx : t.tx with
  | recvTxReq =>
    simp only
    split
    · simp only [steps_one]
      exact ⟨request_window hv,rfl,by simp [step]⟩
    · exact ⟨hv,rfl,by simp [steps]⟩
  | replTxReq slot lastSent =>
    simp only [htx] at hlt
    simp only
    by_cases hs : slot = s
    · simp only [hs,if_true,steps_one] at hlt ⊢
      exact reply_window hv hlt
    · simp only [hs,if_false]
      exact ⟨hv,rfl,by simp [steps]⟩
  | updTxInfo slot lastAckd lastSent =>
    simp only
    split
    · obtain ⟨hwindow,hses,hnone⟩ := finish_window (s := s) hv
      simp only [steps_one,hnone,hses]
      exact ⟨hwindow,trivial,by simp⟩
    · exact ⟨hv,rfl,by simp [steps]⟩

def Opens (s : SlotId) (i : CallIn) : Prop := i.initReq = some ⟨s,.openSession⟩

instance (s : SlotId) (i : CallIn) : Decidable (Opens s i) := inferInstanceAs (Decidable (_ = _))

/-- No acknowledgement or send request of the slot is read, and none waits for the window. -/
def Quiet (s : SlotId) (t : TableState) (i : CallIn) : Prop :=
  (∀ query ∈ reads t i, ¬AckFor s query) ∧ (t.tx = .recvTxReq → i.checkFullReq ≠ some s) ∧
    ∀ lastSent, t.tx ≠ .replTxReq s lastSent

lemma quiet_rx (hquiet : Quiet s t i) (query : QueryReq) (lastAckd lastSent : Seqnum) :
    (view s (afterTx t i)).rx ≠ .handleAck query lastAckd lastSent := by
  intro h
  have hrx : (view s (afterRx t i)).rx = .handleAck query lastAckd lastSent := by
    simp only [view,after_tx_rx] at h ⊢
    exact h
  obtain ⟨-,hread,hack⟩ := ack_latched s t i query lastAckd lastSent hrx
  exact hquiet.1 query hread hack

lemma quiet_tx (hquiet : Quiet s t i) (slot : SlotId) (lastSent : Seqnum) :
    (view s (afterTx t i)).tx ≠ .replTxReq slot lastSent := by
  have hview : view s (afterTx t i) = (steps s (view s (afterRx t i)) (txEvent s t i)).1 := by
    rw [afterTx,tx_view,tx_event_after_rx]
  rw [hview]
  have htxv : (view s (afterRx t i)).tx = txOf s t.tx := by rw [view,after_rx_tx]
  unfold txEvent
  cases htx : t.tx with
  | recvTxReq =>
    simp only [hquiet.2.1 htx,if_false]
    rw [steps,htxv,htx]
    exact fun h => by cases h
  | replTxReq slot' ls =>
    have hs : slot' ≠ s := fun heq => hquiet.2.2 ls (heq ▸ htx)
    simp only [hs,if_false]
    rw [steps,htxv,htx]
    simp [txOf,hs]
  | updTxInfo slot' la ls =>
    simp only
    split
    · next hfin =>
      rw [steps_one,step,htxv,htx]
      simp [txOf,hfin.1]
    · rw [steps,htxv,htx]
      simp only [txOf]
      split_ifs <;> exact fun h => by cases h

structure Net where
  table : TableState
  expected : ℕ
  sent : ℕ

inductive Action where
  | call (i : CallIn)
  | receive
  deriving DecidableEq, Repr

def Genuine (s : SlotId) (m : Net) (i : CallIn) : Prop :=
  ∀ query ∈ reads m.table i, AckFor s query → query.gbnHeader.seqnum.toNat < m.expected

instance (s : SlotId) (m : Net) (i : CallIn) : Decidable (Genuine s m i) :=
  inferInstanceAs (Decidable (∀ query ∈ reads m.table i, _))

/-- A call, or the peer gets the packet it expects; it starts again when the slot is opened. -/
def exec (s : SlotId) (m : Net) : Action → Option Net
  | .call i =>
      if Genuine s m i ∧ m.sent+(handedOut s m.table i).length < 2^32-129 then
        some ⟨next m.table i,if Opens s i then 1 else m.expected,
          if Opens s i then 0 else m.sent+(handedOut s m.table i).length⟩
      else none
  | .receive =>
      if m.expected ≤ (m.table.session s).lastSentSeqnum.toNat then
        some { m with expected := m.expected+1 }
      else none

def start : Net := ⟨powerUp,1,0⟩

def Ok (s : SlotId) (m : Net) : Action → Prop
  | .call i => Opens s i → Quiet s m.table i
  | .receive => True

def Inv (s : SlotId) (m : Net) : Prop := Window (view s m.table) m.expected m.sent

lemma call_window (m n : Net) (i : CallIn) (hs : Inv s m) (h : exec s m (.call i) = some n) :
    Window (view s (afterTx m.table i)) m.expected (m.sent+(handedOut s m.table i).length) ∧
      (m.table.session s).lastAckdSeqnum.toNat ≤
        ((afterTx m.table i).session s).lastAckdSeqnum.toNat ∧
      (∀ k ∈ handedOut s m.table i, k = (m.table.session s).lastSentSeqnum+1) ∧
      n = ⟨next m.table i,if Opens s i then 1 else m.expected,
          if Opens s i then 0 else m.sent+(handedOut s m.table i).length⟩ := by
  simp only [exec] at h
  split at h
  · next hen =>
    obtain ⟨hrx,hmono,hsent⟩ := rx_window s m.table i m.expected m.sent hs hen.1
    obtain ⟨htx,hacked,hout⟩ := tx_window s m.table i m.expected m.sent hrx (by omega)
    refine ⟨htx,?_,?_,(Option.some.inj h).symm⟩
    · have hacked' : ((afterTx m.table i).session s).lastAckdSeqnum =
          (view s (afterRx m.table i)).ses.lastAckdSeqnum := hacked
      rw [hacked']
      exact hmono
    · intro k hk
      rw [hout k hk,hsent]
      rfl
  · cases h

lemma step_inv (m : Net) (a : Action) (n : Net) (hs : Inv s m) (hok : Ok s m a)
    (h : exec s m a = some n) : Inv s n := by
  cases a with
  | call i =>
    obtain ⟨hwindow,-,-,rfl⟩ := call_window s m n i hs h
    unfold Inv
    dsimp only
    rw [next,init_view]
    unfold initEvent
    by_cases hopens : Opens s i
    · have hquiet := hok hopens
      have hreq : i.initReq = some ⟨s,.openSession⟩ := hopens
      simp only [hopens,if_true,hreq,steps_one]
      exact open_window (quiet_rx s m.table i hquiet) (quiet_tx s m.table i hquiet)
    · simp only [hopens,if_false]
      cases hreq : i.initReq with
      | none => exact hwindow
      | some req =>
        obtain ⟨slot,ty⟩ := req
        by_cases hslot : slot = s
        · subst hslot
          cases ty with
          | openSession => exact absurd hreq hopens
          | closeSession =>
            simp only [if_true,steps_one]
            exact close_window hwindow
        · simp only [hslot,if_false]
          exact hwindow
  | receive =>
    simp only [exec] at h
    split at h
    · next hle =>
      cases h
      refine ⟨Nat.succ_pos _,?_,hle,hs.room,hs.count,?_,hs.tx⟩
      · exact hs.acked.trans (by simp)
      · intro query la ls hq
        obtain ⟨hla,hlt⟩ := hs.rx query la ls hq
        exact ⟨hla,Nat.lt_succ_of_lt hlt⟩
    · cases h

lemma start_inv : Inv s start :=
  ⟨Nat.one_pos,le_refl _,le_refl _,Nat.zero_le _,rfl,fun _ _ _ h => (by cases h),
    fun _ _ h => (by cases h)⟩

/-- With a genuine peer at most a window is in flight and numbers are handed out in order. -/
theorem window_kept (s : SlotId) (acts : List Action) (m : Net)
    (hok : Guarded (exec s) (Ok s) acts start) (hrun : run (exec s) acts start = some m) :
    ((m.table.session s).lastAckdSeqnum.toNat ≤ m.expected-1 ∧
      m.expected-1 ≤ (m.table.session s).lastSentSeqnum.toNat ∧
      (m.table.session s).lastSentSeqnum.toNat ≤
        (m.table.session s).lastAckdSeqnum.toNat+windowSize) ∧
    ∀ i n, exec s m (.call i) = some n →
      (∀ k ∈ handedOut s m.table i, k.toNat = (m.table.session s).lastSentSeqnum.toNat+1) ∧
      (¬Opens s i →
        (m.table.session s).lastAckdSeqnum.toNat ≤ (n.table.session s).lastAckdSeqnum.toNat) := by
  have hs : Inv s m := run_invariant (exec s) (Ok s) (Inv s) (step_inv s) acts start m (start_inv s)
    hok hrun
  refine ⟨⟨hs.acked,hs.received,hs.room⟩,?_⟩
  intro i n hn
  obtain ⟨hwindow,hmono,hout,rfl⟩ := call_window s m n i hs hn
  refine ⟨?_,?_⟩
  · intro k hk
    have hlt : m.sent+1 < 2^32 := by
      have hlen : 0 < (handedOut s m.table i).length := List.length_pos_of_mem hk
      simp only [exec] at hn
      split at hn
      · next hen => omega
      · cases hn
    have hcount : (m.table.session s).lastSentSeqnum.toNat = m.sent := hs.count
    rw [hout k hk,BitVec.toNat_add,hcount]
    exact Nat.mod_eq_of_lt hlt
  · intro hopens
    refine hmono.trans (le_of_eq ?_)
    dsimp only
    rw [next]
    unfold initStep
    cases hreq : i.initReq with
    | none => rfl
    | some req =>
      obtain ⟨slot,ty⟩ := req
      by_cases hslot : s = slot
      · subst hslot
        cases ty with
        | openSession => exact absurd hreq hopens
        | closeSession => simp [setSession,setState]
      · simp [setSession,hslot]

def ackOne : QueryReq := ⟨⟨.ack,1,1,1⟩,0,0⟩

def oneSent : List Action := [.call (openCall 1),.call (requestCall 1),.call {},.receive]

theorem window_kept_one_sent : ∃ m, run (exec 1) oneSent start = some m ∧ m.expected = 2 ∧
    (m.table.session 1).lastAckdSeqnum.toNat ≤ 1 ∧ 1 ≤ (m.table.session 1).lastSentSeqnum.toNat ∧
    (m.table.session 1).lastSentSeqnum.toNat ≤ (m.table.session 1).lastAckdSeqnum.toNat+128 := by
  have hquiet : Quiet 1 powerUp (openCall 1) :=
    ⟨fun _ h => (by cases h),fun _ h => (by cases h),fun _ h => (by cases h)⟩
  have hok : Guarded (exec 1) (Ok 1) oneSent start :=
    ⟨fun _ => hquiet,fun h => (by cases h),fun h => (by cases h),trivial,trivial⟩
  obtain ⟨⟨hacked,hreceived,hroom⟩,-⟩ := window_kept 1 oneSent _ hok rfl
  exact ⟨_,rfl,rfl,hacked,hreceived,hroom⟩

def reopened : List Action :=
  [.call (openCall 1),.call (requestCall 1),.call {},.call { txFinishSig := some true },.receive,
    .call { stateQueryReq := some ackOne, checkFullReq := some 1,
            initReq := some ⟨1,.openSession⟩ }]

/-- Number 2 is handed out after 0, and packet 1 counts as acknowledged. -/
theorem stale_latches_break_window : ∃ m n, run (exec 1) reopened start = some m ∧
    exec 1 m (.call {}) = some n ∧ (m.table.session 1).lastSentSeqnum = 0 ∧
    handedOut 1 m.table {} = [2] ∧ n.expected = 1 ∧ (n.table.session 1).lastAckdSeqnum = 1 :=
  ⟨_,_,rfl,rfl,rfl,rfl,rfl,rfl⟩

end Clio.SenderWindow
