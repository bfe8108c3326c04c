import Clio.HostGbn
import Clio.Machine
import Clio.SlotView

/-!
# A board that sends to a host

The board may have 128 packets in flight.
-/

namespace Clio.WindowStall

open StateTable HostGbn Machine
open BitVec (allOnes lt_def ofNat toNat_ofNat)

structure Joint where
  table : TableState
  host : SessionGbn
  replies : List GbnHeader

/-- A call of the table, or packets that were sent arrive in any order and number. -/
inductive Action where
  | call (i : CallIn)
  | deliver (seqnum : Seqnum)
  deriving DecidableEq, Repr

def dataHeader (s d : SlotId) (seqnum : Seqnum) : GbnHeader := ⟨.data, seqnum, s, d⟩

def receive (s d : SlotId) (j : Joint) (seqnum : Seqnum) : Joint :=
  let handled := handleDataPacket false j.host (dataHeader s d seqnum)
  { j with host := handled.1, replies := j.replies++handled.2.toList }

/-- The session on slot `s` of the board and `d` of the host is opened once. -/
def exec (s d : SlotId) (j : Joint) (a : Action) : Option Joint :=
  match a with
  | .call i =>
      if (∀ query ∈ i.stateQueryReq, query.gbnHeader.destSlot = s →
            query.gbnHeader ∈ j.replies) ∧
          (∀ req ∈ i.initReq, req.slotid ≠ s) then
        some { j with table := next j.table i }
      else none
  | .deliver seqnum =>
      if 0 < seqnum ∧ seqnum ≤ (j.table.session s).lastSentSeqnum then some (receive s d j seqnum)
      else none

def start (s : SlotId) (memory : SessionGbn) : Joint :=
  ⟨next powerUp { initReq := some ⟨s,.openSession⟩ },initSessionGbn memory,[]⟩

def Reachable (s d : SlotId) (memory : SessionGbn) (j : Joint) : Prop :=
  ∃ as, run (exec s d) as (start s memory) = some j

def retransmission (t : TableState) (s : SlotId) : List Seqnum :=
  (timeoutStep t (some s)).toList.flatMap (fun req =>
    (List.range' req.seqStart.toNat (req.seqEnd.toNat+1-req.seqStart.toNat)).map (BitVec.ofNat 32))

def answers (s d : SlotId) : SessionGbn → List Seqnum → List GbnHeader
  | _, [] => []
  | ses, seqnum::rest =>
      let handled := handleDataPacket false ses (dataHeader s d seqnum)
      handled.2.toList++answers s d handled.1 rest

/-- Everything sent was received and nothing more can be sent. -/
def Full (s : SlotId) (j : Joint) : Prop :=
  windowOpen (j.table.session s).lastAckdSeqnum (j.table.session s).lastSentSeqnum = false ∧
    j.host.seqnumExpect = (j.table.session s).lastSentSeqnum+1

def Recovers (s d : SlotId) (j : Joint) : Prop :=
  ∃ reply ∈ answers s d j.host (retransmission j.table s), reply.pktType = .ack ∧
    (j.table.session s).lastAckdSeqnum < reply.seqnum

variable (s d : SlotId)

lemma silent (seqs : List Seqnum) (ses : SessionGbn) (hoff : ses.ackEnable = false)
    (hne : ∀ seqnum ∈ seqs, seqnum ≠ ses.seqnumExpect) : answers s d ses seqs = [] := by
  induction seqs with
  | nil => rfl
  | cons seqnum seqs ih =>
    have hdrop : handleDataPacket false ses (dataHeader s d seqnum) = (ses,none) := by
      simp [handleDataPacket,dataHeader,hne seqnum (by simp),hoff]
    rw [answers,hdrop]
    exact ih (fun q hq => hne q (by simp [hq]))

lemma full_range (j : Joint) (h : Full s j) :
    (∃ rest, retransmission j.table s = ((j.table.session s).lastAckdSeqnum+1)::rest) ∧
      ∀ seqnum ∈ retransmission j.table s, (j.table.session s).lastAckdSeqnum < seqnum ∧
        seqnum ≤ (j.table.session s).lastSentSeqnum := by
  have hwin := (window_closed_iff _ _).mp h.1
  rw [windowSize] at hwin
  have hsent := (j.table.session s).lastSentSeqnum.isLt
  have hstart : ((j.table.session s).lastAckdSeqnum+1).toNat =
      (j.table.session s).lastAckdSeqnum.toNat+1 := by
    rw [BitVec.toNat_add]
    show (_+1)%2^32 = _
    omega
  have hlist : retransmission j.table s = (List.range' ((j.table.session s).lastAckdSeqnum.toNat+1)
        ((j.table.session s).lastSentSeqnum.toNat-(j.table.session s).lastAckdSeqnum.toNat)).map
        (ofNat 32) := by
    simp only [retransmission,timeoutStep,Option.map_some,Option.toList_some,timeoutReq,
      List.flatMap_cons,List.flatMap_nil,List.append_nil,hstart]
    congr 2
    omega
  rw [hlist]
  constructor
  · obtain ⟨n,hn⟩ : ∃ n, (j.table.session s).lastSentSeqnum.toNat-
        (j.table.session s).lastAckdSeqnum.toNat = n+1 := ⟨_,(Nat.succ_pred (by omega)).symm⟩
    rw [hn,List.range'_succ,List.map_cons,← hstart,BitVec.ofNat_toNat,BitVec.setWidth_eq]
    exact ⟨_,rfl⟩
  · intro seqnum hseq
    obtain ⟨n,hn,rfl⟩ := List.mem_map.mp hseq
    have hrange := List.mem_range'_1.mp hn
    rw [lt_def,BitVec.le_def,toNat_ofNat,Nat.mod_eq_of_lt (by omega)]
    omega

/-- A retransmission moves a full window exactly when the host answers below the largest number. -/
theorem retransmission_recovers_iff (s d : SlotId) (j : Joint) (h : Full s j) :
    Recovers s d j ↔
      j.host.ackEnable = true ∧ (j.table.session s).lastSentSeqnum ≠ allOnes 32 := by
  obtain ⟨⟨rest,hlist⟩,hrange⟩ := full_range s j h
  have hexp := h.2
  generalize hA : (j.table.session s).lastAckdSeqnum = A at *
  generalize hS : (j.table.session s).lastSentSeqnum = S at *
  have hfirst : A+1 ∈ retransmission j.table s := by simp [hlist]
  have hne : ∀ seqnum ∈ retransmission j.table s, seqnum ≠ j.host.seqnumExpect := by
    intro seqnum hseq heq
    have := hrange seqnum hseq
    rw [heq,hexp] at this
    bv_omega
  cases hen : j.host.ackEnable with
  | false =>
    simp only [Recovers,silent s d _ j.host hen hne]
    simp
  | true =>
    have hbounds := hrange _ hfirst
    by_cases hmax : S = allOnes 32
    · -- the expected number is 0: the first packet brings a negative acknowledgement
      have hzero : j.host.seqnumExpect = 0 := by
        rw [hexp,hmax]
        rfl
      have hlt : j.host.seqnumExpect < A+1 := by
        rw [hzero]
        bv_omega
      have hnack : handleDataPacket false j.host (dataHeader s d (A+1)) =
          ({ j.host with ackEnable := false },
            some (ackReply (dataHeader s d (A+1)) .nack (j.host.seqnumExpect-1))) := by
        simp only [handleDataPacket,dataHeader,Bool.false_eq_true,if_false,hne _ hfirst,hen,
          if_true,hlt]
      have hrest : answers s d { j.host with ackEnable := false } rest = [] :=
        silent s d rest _ rfl (fun q hq => hne q (by simp [hlist,hq]))
      simp only [Recovers,hlist,answers,hnack,hrest,Option.toList_some,List.append_nil,
        List.mem_singleton,exists_eq_left,ackReply,hmax]
      simp
    · have hlt : ¬j.host.seqnumExpect < A+1 := by
        rw [hexp]
        have : S.toNat ≠ 2^32-1 := fun h => hmax (BitVec.eq_of_toNat_eq h)
        bv_omega
      have hack : handleDataPacket false j.host (dataHeader s d (A+1)) =
          (j.host,some (ackReply (dataHeader s d (A+1)) .ack (j.host.seqnumExpect-1))) := by
        simp only [handleDataPacket,dataHeader,Bool.false_eq_true,if_false,hne _ hfirst,hen,
          if_true,hlt]
      refine ⟨fun _ => ⟨rfl,hmax⟩,fun _ => ⟨ackReply (dataHeader s d (A+1)) .ack
        (j.host.seqnumExpect-1),?_,rfl,?_⟩⟩
      · rw [hlist,answers,hack]
        simp
      · rw [hA]
        show A < j.host.seqnumExpect-1
        rw [hexp]
        bv_omega

def uninitialized : SessionGbn := ⟨fun _ => ⟨0,0,0⟩,0,0,0,false⟩

def sendOne (s : SlotId) (n : ℕ) : List Action :=
  [.call { checkFullReq := some s }, .call {}, .call { txFinishSig := some true },
    .deliver (BitVec.ofNat 32 n)]

def Sent (s : SlotId) (n : ℕ) (j : Joint) : Prop :=
  j.table.rx = .recvRxReq ∧ j.table.tx = .recvTxReq ∧
    j.table.session s = { initSession with lastSentSeqnum := BitVec.ofNat 32 n } ∧
    j.host.seqnumExpect = BitVec.ofNat 32 (n+1) ∧ j.host.ackEnable = false

lemma next_request (t : TableState) (hrx : t.rx = .recvRxReq) (htx : t.tx = .recvTxReq) :
    next t { checkFullReq := some s } =
      { t with tx := .replTxReq s (t.session s).lastSentSeqnum } := by
  simp [next,afterTx,afterRx,rxStep,hrx,txStep,htx,initStep]

lemma next_finish (ackd sent : Seqnum) (t : TableState) (hrx : t.rx = .recvRxReq)
    (htx : t.tx = .updTxInfo s ackd sent) :
    next t { txFinishSig := some true } = { t with tx := .recvTxReq } := by
  simp [next,afterTx,afterRx,rxStep,hrx,txStep,htx,initStep]

lemma exec_call (j : Joint) (i : CallIn) (hq : i.stateQueryReq = none) (hi : i.initReq = none) :
    exec s d j (.call i) = some { j with table := next j.table i } := by
  simp [exec,hq,hi]

lemma send_one (n : ℕ) (hn : n < 128) (j : Joint) (h : Sent s n j) :
    ∃ k, run (exec s d) (sendOne s (n+1)) j = some k ∧ Sent s (n+1) k := by
  obtain ⟨hrx,htx,hses,hexp,hack⟩ := h
  have hw : windowOpen (j.table.session s).lastAckdSeqnum (ofNat 32 n) = true := by
    rw [windowOpen,decide_eq_true_iff,toNat_ofNat,Nat.mod_eq_of_lt (by omega)]
    exact Nat.lt_add_left _ hn
  have hnext : ofNat 32 n+1 = ofNat 32 (n+1) := (BitVec.ofNat_add n 1).symm
  have hone := next_request s j.table hrx htx
  have htwo := next_reply (next j.table { checkFullReq := some s }) nrBatchedPktPerAckFpga s
    (ofNat 32 n) (by rw [hone]; exact hrx) (by rw [hone]; simp [hses]) (by rw [hone]; exact hw)
  have hthree := next_finish s (j.table.session s).lastAckdSeqnum (ofNat 32 n)
    (next (next j.table { checkFullReq := some s }) {})
    (by rw [htwo,hone]; exact hrx) (by rw [htwo,hone])
  have hlast : (next (next (next j.table { checkFullReq := some s }) {})
      { txFinishSig := some true }).session s =
        { initSession with lastSentSeqnum := ofNat 32 (n+1) } := by
    rw [hthree,htwo,hone]
    simp [setSession,hses]
    exact hnext
  have hseq : ofNat 32 (n+1) = j.host.seqnumExpect := hexp.symm
  have hdeliver : ∀ k : Joint, k.table.session s =
      { initSession with lastSentSeqnum := ofNat 32 (n+1) } →
      exec s d k (.deliver (ofNat 32 (n+1))) =
        some (receive s d k (ofNat 32 (n+1))) := by
    intro k hk
    refine if_pos ⟨?_,?_⟩
    · rw [lt_def,toNat_ofNat,Nat.mod_eq_of_lt (by omega)]
      exact Nat.succ_pos n
    · rw [hk]
      exact BitVec.le_refl _
  refine ⟨receive s d ⟨next (next (next j.table { checkFullReq := some s }) {})
    { txFinishSig := some true },j.host,j.replies⟩ (ofNat 32 (n+1)),?_,?_⟩
  · rw [sendOne,run,exec_call s d j _ rfl rfl,Option.bind_some,run,exec_call s d _ _ rfl rfl,
      Option.bind_some,run,exec_call s d _ _ rfl rfl,Option.bind_some,run,hdeliver _ hlast]
    rfl
  · refine ⟨?_,?_,hlast,?_,?_⟩
    · show (next _ _).rx = _
      rw [hthree,htwo,hone]
      exact hrx
    · show (next _ _).tx = _
      rw [hthree]
    · simp only [receive,handleDataPacket,dataHeader,hseq,Bool.false_eq_true,if_false,if_true]
      rw [hexp]
      exact (BitVec.ofNat_add (n+1) 1).symm
    · simp only [receive,handleDataPacket,dataHeader,hseq,Bool.false_eq_true,if_false,if_true]
      exact hack

lemma send_many (n : ℕ) (hn : n ≤ 128) : ∃ j, Reachable s d uninitialized j ∧ Sent s n j := by
  induction n with
  | zero =>
    refine ⟨start s uninitialized,⟨[],rfl⟩,rfl,rfl,?_,rfl,rfl⟩
    simp [start,next,initStep,afterTx,afterRx,powerUp,rxStep,txStep,setSession,setState,
      initSession]
  | succ n ih =>
    obtain ⟨j,⟨as,has⟩,hj⟩ := ih (by omega)
    obtain ⟨k,hrun,hk⟩ := send_one s d n (by omega) j hj
    exact ⟨k,⟨as++sendOne s (n+1),(run_append _ _ _ _ _).mpr ⟨j,has,hrun⟩⟩,hk⟩

/-- A host with its flag cleared never answers, and the window stays full. -/
theorem window_stalls :
    ∃ j, Reachable 5 3 uninitialized j ∧ Full 5 j ∧ ¬Recovers 5 3 j := by
  obtain ⟨j,hreach,-,-,hses,hexp,hack⟩ := send_many 5 3 128 le_rfl
  have hfull : Full 5 j := by
    rw [Full,hses,hexp]
    exact ⟨by decide,by decide⟩
  refine ⟨j,hreach,hfull,?_⟩
  obtain ⟨-,hrange⟩ := full_range 5 j hfull
  rw [Recovers,silent 5 3 _ j.host hack ?_]
  · simp
  · intro seqnum hseq heq
    have := (hrange seqnum hseq).2
    rw [heq,hfull.2,hses] at this
    exact absurd this (by decide)

def enabledWindow : Joint :=
  ⟨setSession powerUp 5 { initSession with lastSentSeqnum := 128 },
    { initSessionGbn uninitialized with seqnumExpect := 129, ackEnable := true },[]⟩

theorem retransmission_recovers_enabled : Full 5 enabledWindow ∧ Recovers 5 3 enabledWindow :=
  have hfull : Full 5 enabledWindow := ⟨by decide,by decide⟩
  ⟨hfull,(retransmission_recovers_iff 5 3 enabledWindow hfull).mpr ⟨rfl,by decide⟩⟩

end Clio.WindowStall
