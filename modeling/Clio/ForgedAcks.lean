import Clio.SequenceWrap

/-!
# Acknowledgements that no receiver wrote

The number of an ACK or NACK is compared with the last acknowledged number only.
-/

namespace Clio.ForgedAcks

open StateTable SlotView SessionSetup SenderWindow SequenceWrap
open BitVec (allOnes le_refl toNat_add)

/-- Acknowledged packets were sent, and at most a window is in flight. -/
def InWindow (ses : Session) : Prop :=
  ses.lastAckdSeqnum ≤ ses.lastSentSeqnum ∧
    ses.lastSentSeqnum.toNat ≤ ses.lastAckdSeqnum.toNat+windowSize

instance (ses : Session) : Decidable (InWindow ses) := inferInstanceAs (Decidable (_ ∧ _))

/-- Every number the request names is sent and not acknowledged. -/
def Outstanding (ses : Session) (req : RetransReq) : Prop :=
  ∀ seq : Seqnum, req.seqStart ≤ seq → seq ≤ req.seqEnd →
    ses.lastAckdSeqnum < seq ∧ seq ≤ ses.lastSentSeqnum

/-- The answer names a packet that was sent, and is no stale NACK of the largest number. -/
def Harmless (query : QueryReq) (lastAckd lastSent : Seqnum) (ses : Session) : Prop :=
  query.gbnHeader.seqnum ≤ ses.lastSentSeqnum ∧
    (query.gbnHeader.pktType = .nack → query.gbnHeader.seqnum = BitVec.allOnes 32 →
      lastAckd < query.gbnHeader.seqnum ∧ lastSent = query.gbnHeader.seqnum)

instance (query : QueryReq) (lastAckd lastSent : Seqnum) (ses : Session) :
    Decidable (Harmless query lastAckd lastSent ses) := inferInstanceAs (Decidable (_ ∧ _))

lemma all_ones_toNat : (allOnes 32).toNat = 2^32-1 := rfl

lemma eq_all_ones_iff (x : Seqnum) : x = allOnes 32 ↔ x.toNat = 2^32-1 := by
  rw [← all_ones_toNat]
  exact BitVec.toNat_inj.symm

lemma outstanding_after (ses : Session) (slot : SlotId) (recv lastSent : Seqnum)
    (hlow : ses.lastAckdSeqnum ≤ recv) (hhigh : lastSent ≤ ses.lastSentSeqnum)
    (hmax : recv ≠ allOnes 32) : Outstanding ses ⟨slot,recv+1,lastSent⟩ := by
  intro seq hstart hend
  have hrecv := recv.isLt
  have hne : recv.toNat ≠ 2^32-1 := fun h => hmax ((eq_all_ones_iff recv).mpr h)
  have hnext : (recv+1).toNat = recv.toNat+1 := by
    rw [toNat_add]
    show (recv.toNat+1)%2^32 = recv.toNat+1
    omega
  have hstart' : (recv+1).toNat ≤ seq.toNat := hstart
  have hlow' : ses.lastAckdSeqnum.toNat ≤ recv.toNat := hlow
  refine ⟨?_,BitVec.le_trans hend hhigh⟩
  show ses.lastAckdSeqnum.toNat < seq.toNat
  omega

lemma not_outstanding_after (ses : Session) (slot : SlotId) (lastSent : Seqnum) :
    ¬Outstanding ses ⟨slot,allOnes 32+1,lastSent⟩ := by
  intro h
  have hzero : allOnes 32+1 = (0 : Seqnum) := by decide
  have hlt := (h 0 (by rw [hzero]; exact le_refl 0) (Nat.zero_le _)).1
  exact absurd hlt (Nat.not_lt_zero _)

section

variable {query : QueryReq} {lastAckd lastSent : Seqnum} {ses : Session}

lemma raised_in_window (hses : InWindow ses) (hla : ses.lastAckdSeqnum = lastAckd)
    (hlt : lastAckd < query.gbnHeader.seqnum) :
    InWindow (handleAck query lastAckd lastSent ses).1 ↔
      query.gbnHeader.seqnum ≤ ses.lastSentSeqnum := by
  obtain ⟨hacked,hsent⟩ := ack_counters query lastAckd lastSent ses
  rw [if_pos hlt] at hacked
  unfold InWindow
  rw [hacked,hsent]
  refine and_iff_left ?_
  have hlt' : ses.lastAckdSeqnum.toNat < query.gbnHeader.seqnum.toNat := by
    rw [hla]
    exact hlt
  have hroom := hses.2
  omega

lemma kept_in_window (hses : InWindow ses) (hlt : ¬lastAckd < query.gbnHeader.seqnum) :
    InWindow (handleAck query lastAckd lastSent ses).1 := by
  obtain ⟨hacked,hsent⟩ := ack_counters query lastAckd lastSent ses
  rw [if_neg hlt] at hacked
  unfold InWindow
  rw [hacked,hsent]
  exact hses

lemma ack_retrans :
    (handleAck query lastAckd lastSent ses).2.retrans =
      if (lastAckd < query.gbnHeader.seqnum ∧ query.gbnHeader.seqnum ≠ lastSent ∧
            query.gbnHeader.pktType ≠ .ack) ∨
          (query.gbnHeader.seqnum = lastAckd ∧ query.gbnHeader.pktType = .nack) then
        some ⟨query.gbnHeader.destSlot,query.gbnHeader.seqnum+1,lastSent⟩
      else none := by
  have hirrefl : ¬lastAckd < lastAckd := Nat.lt_irrefl _
  unfold handleAck
  dsimp only
  by_cases hlt : lastAckd < query.gbnHeader.seqnum
  · have hne : query.gbnHeader.seqnum ≠ lastAckd := by
      intro heq
      rw [heq] at hlt
      exact hirrefl hlt
    by_cases hlast : query.gbnHeader.seqnum = lastSent
    · rw [if_pos hlt,if_pos hlast,if_neg]
      rintro (⟨-,h,-⟩ | ⟨h,-⟩)
      · exact h hlast
      · exact hne h
    · by_cases hty : query.gbnHeader.pktType = .ack
      · simp [hlt,hlast,hty]
      · simp [hlt,hlast,hty]
  · by_cases hdup : query.gbnHeader.seqnum = lastAckd ∧ query.gbnHeader.pktType = .nack
    · simp [hdup,hirrefl]
    · simp [hlt,hdup]

lemma handle_ack_iff (hses : InWindow ses) (hla : ses.lastAckdSeqnum = lastAckd)
    (hls : lastSent ≤ ses.lastSentSeqnum)
    (hty : query.gbnHeader.pktType = .ack ∨ query.gbnHeader.pktType = .nack) :
    (InWindow (handleAck query lastAckd lastSent ses).1 ∧
        ∀ req ∈ (handleAck query lastAckd lastSent ses).2.retrans, Outstanding ses req) ↔
      Harmless query lastAckd lastSent ses := by
  have hacked : lastAckd ≤ ses.lastSentSeqnum := hla ▸ hses.1
  have hrange : (∀ req ∈ (handleAck query lastAckd lastSent ses).2.retrans, Outstanding ses req) ↔
      (query.gbnHeader.pktType = .nack → query.gbnHeader.seqnum = allOnes 32 →
        lastAckd < query.gbnHeader.seqnum ∧ lastSent = query.gbnHeader.seqnum) := by
    rw [ack_retrans]
    split_ifs with hask
    · have hnack : query.gbnHeader.pktType = .nack := by
        rcases hask with ⟨-,-,hne⟩ | ⟨-,hnack⟩
        · exact hty.resolve_left hne
        · exact hnack
      have hlow : ses.lastAckdSeqnum ≤ query.gbnHeader.seqnum := by
        rw [hla]
        rcases hask with ⟨hlt,-,-⟩ | ⟨heq,-⟩
        · exact Nat.le_of_lt hlt
        · exact heq ▸ le_refl _
      constructor
      · intro hreq _ hmax
        have hout := hreq _ rfl
        rw [hmax] at hout
        exact absurd hout (not_outstanding_after ses _ lastSent)
      · rintro hok req ⟨⟩
        refine outstanding_after ses _ _ lastSent hlow hls ?_
        intro hmax
        obtain ⟨hlt,hlast⟩ := hok hnack hmax
        rcases hask with ⟨-,hne,-⟩ | ⟨heq,-⟩
        · exact hne hlast.symm
        · exact Nat.lt_irrefl _ (heq ▸ hlt : lastAckd < lastAckd)
    · refine ⟨fun _ hnack hmax => ?_,fun _ req hreq => by cases hreq⟩
      push Not at hask
      have hlt : lastAckd < query.gbnHeader.seqnum := by
        have hne : query.gbnHeader.seqnum ≠ lastAckd := fun heq => hask.2 heq hnack
        have hle : lastAckd.toNat ≤ query.gbnHeader.seqnum.toNat := by
          rw [hmax,all_ones_toNat]
          have := lastAckd.isLt
          omega
        exact Nat.lt_of_le_of_ne hle fun h => hne (BitVec.eq_of_toNat_eq h.symm)
      refine ⟨hlt,?_⟩
      by_contra hlast
      have := hask.1 hlt (fun h => hlast h.symm)
      rw [hnack] at this
      cases this
  rw [hrange]
  by_cases hlt : lastAckd < query.gbnHeader.seqnum
  · rw [raised_in_window hses hla hlt]
    rfl
  · have hle : query.gbnHeader.seqnum ≤ ses.lastSentSeqnum :=
      BitVec.le_trans (Nat.not_lt.mp hlt) hacked
    exact and_congr_left fun _ => ⟨fun _ => hle,fun _ => kept_in_window hses hlt⟩

end

section

variable {s : SlotId} {t : TableState} {query : QueryReq} {i : CallIn}

lemma read_answer (hidle : t.rx = .recvRxReq) (hreq : i.stateQueryReq = some query)
    (hack : AckFor s query) (hses : query.gbnHeader.inSession = true)
    (hdirect : query.broadcast = false) (hset : setsUp s i = false)
    (htx : ∀ ls, t.tx = .replTxReq s ls → ls = (t.session s).lastSentSeqnum) :
    (next t i).rx = .handleAck query (t.session s).lastAckdSeqnum (t.session s).lastSentSeqnum ∧
      ((next t i).session s).lastAckdSeqnum = (t.session s).lastAckdSeqnum ∧
      (((next t i).session s).lastSentSeqnum = (t.session s).lastSentSeqnum ∨
        ((next t i).session s).lastSentSeqnum = (t.session s).lastSentSeqnum+1) := by
  have hlatch : recvRxReq query (t.session s) =
      (.handleAck query (t.session s).lastAckdSeqnum (t.session s).lastSentSeqnum,{}) := by
    rw [recvRxReq,hdirect,hses]
    rcases hack.2 with hty | hty <;> rw [hty] <;> rfl
  have hrx : afterRx t i = { t with
      rx := .handleAck query (t.session s).lastAckdSeqnum (t.session s).lastSentSeqnum } := by
    unfold afterRx rxStep
    rw [hidle,hreq]
    simp only [hack.1,hlatch]
  have hview := sets_up_view s t i hset
  have hsession : (next t i).session s = (afterTx t i).session s := congrArg View.ses hview
  refine ⟨by rw [rx_after,hrx],?_⟩
  rw [hsession]
  unfold afterTx
  rw [hrx]
  unfold txStep
  dsimp only
  cases htxs : t.tx with
  | recvTxReq => cases i.checkFullReq <;> exact ⟨rfl,.inl rfl⟩
  | updTxInfo slot la ls => cases i.txFinishSig <;> exact ⟨rfl,.inl rfl⟩
  | replTxReq slot ls =>
    by_cases hs : slot = s
    · subst hs
      obtain rfl := htx ls htxs
      simp only [setSession,Function.update_self,replTxReq]
      split_ifs
      · exact ⟨rfl,.inr rfl⟩
      · exact ⟨rfl,.inl rfl⟩
    · simp only [setSession,Function.update_of_ne (Ne.symm hs)]
      exact ⟨trivial,.inl trivial⟩

/-- The counters stay in order exactly when the number of the answer is harmless. -/
theorem any_answer_handled_iff (s : SlotId) (t : TableState) (query : QueryReq) (i j : CallIn)
    (hidle : t.rx = .recvRxReq) (hreq : i.stateQueryReq = some query) (hack : AckFor s query)
    (hses : query.gbnHeader.inSession = true) (hdirect : query.broadcast = false)
    (hset : setsUp s i = false)
    (htx : ∀ ls, t.tx = .replTxReq s ls → ls = (t.session s).lastSentSeqnum)
    (hread : InWindow (t.session s)) (hthen : InWindow ((next t i).session s)) :
    (InWindow ((afterRx (next t i) j).session s) ∧
        ∀ req ∈ (rxStep (next t i) j.stateQueryReq).2.retrans,
          Outstanding ((next t i).session s) req) ↔
      Harmless query (t.session s).lastAckdSeqnum (t.session s).lastSentSeqnum
        ((next t i).session s) := by
  obtain ⟨hrx,hla,hls⟩ := read_answer hidle hreq hack hses hdirect hset htx
  have hstep : rxStep (next t i) j.stateQueryReq =
      ({ setSession (next t i) s (handleAck query (t.session s).lastAckdSeqnum
          (t.session s).lastSentSeqnum ((next t i).session s)).1 with rx := .recvRxReq },
        (handleAck query (t.session s).lastAckdSeqnum (t.session s).lastSentSeqnum
          ((next t i).session s)).2) := by
    unfold rxStep
    rw [hrx]
    simp only [hack.1]
  have hsent : (t.session s).lastSentSeqnum ≤ ((next t i).session s).lastSentSeqnum := by
    rcases hls with hls | hls
    · exact hls ▸ le_refl _
    · -- a number that wraps would not be in the window
      have hroom := hread.2
      have horder : ((next t i).session s).lastAckdSeqnum.toNat ≤
          ((next t i).session s).lastSentSeqnum.toNat := hthen.1
      rw [hla,hls,toNat_add] at horder
      rw [hls]
      show (t.session s).lastSentSeqnum.toNat ≤ ((t.session s).lastSentSeqnum+1).toNat
      rw [toNat_add]
      have hlt := (t.session s).lastSentSeqnum.isLt
      change _ ≤ ((t.session s).lastSentSeqnum.toNat+1)%2^32 at horder
      change _ ≤ ((t.session s).lastSentSeqnum.toNat+1)%2^32
      rw [windowSize] at hroom
      omega
  unfold afterRx
  rw [hstep]
  simp only [setSession,Function.update_self]
  exact handle_ack_iff hthen hla hsent hack.2

end

def sending : TableState :=
  ⟨.recvRxReq,.recvTxReq,fun _ => { initSession with lastAckdSeqnum := 1, lastSentSeqnum := 3 }⟩

def answerWith (ty : GbnPktType) (seq : Seqnum) : QueryReq := ⟨⟨ty,seq,1,1⟩,2,1⟩

def readCall (query : QueryReq) : CallIn := { stateQueryReq := some query }

/-- A NACK of packet 2 asks for packet 3. -/
theorem nack_handled :
    InWindow ((afterRx (next sending (readCall (answerWith .nack 2))) {}).session 1) ∧
      ∀ req ∈ (rxStep (next sending (readCall (answerWith .nack 2))) none).2.retrans,
        Outstanding ((next sending (readCall (answerWith .nack 2))).session 1) req :=
  (any_answer_handled_iff 1 sending (answerWith .nack 2) (readCall (answerWith .nack 2)) {} rfl rfl
    (by decide) (by decide) (by decide) (by decide) (fun _ h => by cases h) (by decide)
    (by decide)).mpr (by decide)

/-- An ACK of a packet that was not sent is taken, and a late NACK asks for all packets again. -/
theorem forged_ack_corrupts :
    InWindow (sending.session 1) ∧
    ¬InWindow ((afterRx (next sending (readCall (answerWith .ack 4))) {}).session 1) ∧
    InWindow { initSession with
      lastAckdSeqnum := allOnes 32, lastSentSeqnum := allOnes 32 } ∧
    (handleAck (answerWith .nack (allOnes 32)) (allOnes 32) (allOnes 32)
      { initSession with
        lastAckdSeqnum := allOnes 32, lastSentSeqnum := allOnes 32 }).2.retrans =
      some ⟨1,0,allOnes 32⟩ :=
  ⟨by decide,by decide,by decide,by decide⟩

end Clio.ForgedAcks
