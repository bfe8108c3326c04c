import Clio.StateTable

/-!
# The go-back-N layer of the host

A data packet is checked against the expected sequence number, which decides about the
acknowledgement.
-/

namespace Clio.HostGbn

open Function StateTable

structure BufferInfo where
  buf : ℕ
  bufSize : ℕ
  flags : BitVec 32
  deriving DecidableEq, Repr

structure SessionGbn where
  unackBufferInfoRing : BitVec 8 → BufferInfo
  seqnumCur : Seqnum
  seqnumLast : Seqnum
  seqnumExpect : Seqnum
  ackEnable : Bool

/-- The fields that are not set keep what the allocated memory held. -/
def initSessionGbn (memory : SessionGbn) : SessionGbn :=
  { memory with unackBufferInfoRing := fun _ => ⟨0, 0, 0⟩, seqnumCur := 0, seqnumLast := 0,
                seqnumExpect := 1 }

def ringIndex (index : ℕ) : BitVec 8 := BitVec.ofNat 8 index

def freeUnackBufferInfo (ring : BitVec 8 → BufferInfo) (index : ℕ) : BitVec 8 → BufferInfo :=
  update ring (ringIndex index) { ring (ringIndex index) with flags := 0 }

def indices (start stop : Seqnum) : List ℕ := List.range' start.toNat (stop.toNat-start.toNat)

def handleAckNackDequeue (ses : SessionGbn) (seq : Seqnum) : SessionGbn × Bool :=
  if ses.seqnumLast < seq then
    ({ ses with
        unackBufferInfoRing :=
          (indices ses.seqnumLast seq).foldl freeUnackBufferInfo ses.unackBufferInfoRing
        seqnumLast := seq }, true)
  else (ses, decide (seq = ses.seqnumLast))

/-- The buffers sent again. -/
def retransUnackBufferInfo (ses : SessionGbn) : List BufferInfo :=
  (indices ses.seqnumLast ses.seqnumCur).map (fun i => ses.unackBufferInfoRing (ringIndex i))

def handleAckPacket (ses : SessionGbn) (hdr : GbnHeader) : SessionGbn :=
  (handleAckNackDequeue ses hdr.seqnum).1

def handleNackPacket (ses : SessionGbn) (hdr : GbnHeader) : SessionGbn × List BufferInfo :=
  let dequeued := handleAckNackDequeue ses hdr.seqnum
  (dequeued.1, if dequeued.2 then retransUnackBufferInfo dequeued.1 else [])

def ackReply (hdr : GbnHeader) (pktType : GbnPktType) (seqnum : Seqnum) : GbnHeader :=
  ⟨pktType, seqnum, hdr.destSlot, hdr.srcSlot⟩

def handleDataPacket (management : Bool) (ses : SessionGbn) (hdr : GbnHeader) :
    SessionGbn × Option GbnHeader :=
  if management then (ses, none)
  else if hdr.seqnum = ses.seqnumExpect then
    ({ ses with seqnumExpect := ses.seqnumExpect+1 },
      if ses.seqnumExpect.toNat%100 = 0 then some (ackReply hdr .ack ses.seqnumExpect) else none)
  else if ses.ackEnable then
    if ses.seqnumExpect < hdr.seqnum then
      ({ ses with ackEnable := false }, some (ackReply hdr .nack (ses.seqnumExpect-1)))
    else (ses, some (ackReply hdr .ack (ses.seqnumExpect-1)))
  else (ses, none)

inductive RawReceive where
  | error
  | empty
  | packet (hdr : GbnHeader)
  deriving DecidableEq, Repr

inductive Received where
  | rawError
  | nothing
  | unknownType
  | data (hdr : GbnHeader)
  | waiting
  deriving DecidableEq, Repr

def handlePacket (management : Bool) (ses : SessionGbn) (hdr : GbnHeader) : SessionGbn :=
  match hdr.pktType with
  | .ack => handleAckPacket ses hdr
  | .nack => (handleNackPacket ses hdr).1
  | .data => (handleDataPacket management ses hdr).1
  | .unknown => ses

def gbnReceiveOne (management nonBlocking : Bool) :
    SessionGbn → List RawReceive → Received × SessionGbn × List RawReceive
  | ses, [] => (.waiting, ses, [])
  | ses, .error::raw => (.rawError, ses, raw)
  | ses, .empty::raw =>
      if nonBlocking then (.nothing, ses, raw) else gbnReceiveOne management nonBlocking ses raw
  | ses, .packet hdr::raw =>
      match hdr.pktType with
      | .ack => gbnReceiveOne management nonBlocking (handlePacket management ses hdr) raw
      | .nack => gbnReceiveOne management nonBlocking (handlePacket management ses hdr) raw
      | .data => (.data hdr, handlePacket management ses hdr, raw)
      | .unknown => (.unknownType, ses, raw)

/-- A number of calls one after the other: the data packets returned and what is left. -/
def receiveCalls (management nonBlocking : Bool) :
    ℕ → SessionGbn → List RawReceive → List GbnHeader × SessionGbn × List RawReceive
  | 0, ses, raw => ([], ses, raw)
  | calls+1, ses, raw =>
      let one := gbnReceiveOne management nonBlocking ses raw
      let rest := receiveCalls management nonBlocking calls one.2.1 one.2.2
      (match one.1 with
        | .data hdr => hdr::rest.1
        | _ => rest.1, rest.2)

/-- The packets among what was handed over. -/
def packets (raw : List RawReceive) : List GbnHeader :=
  raw.filterMap (fun r => match r with | .packet hdr => some hdr | _ => none)

def Expected (management : Bool) : SessionGbn → List GbnHeader → Prop
  | _, [] => True
  | ses, hdr::hdrs =>
      (hdr.pktType = .data → hdr.seqnum = ses.seqnumExpect) ∧
        Expected management (handlePacket management ses hdr) hdrs

def dataPackets (hdrs : List GbnHeader) : List GbnHeader := hdrs.filter (·.pktType = .data)

def taken (raw rest : List RawReceive) : List GbnHeader :=
  packets (raw.take (raw.length-rest.length))

lemma taken_append (used rest : List RawReceive) : taken (used++rest) rest = packets used := by
  simp [taken]

lemma packets_append (raw more : List RawReceive) :
    packets (raw++more) = packets raw++packets more :=
  List.filterMap_append

lemma receive_one_taken (management nonBlocking : Bool) (ses : SessionGbn)
    (raw : List RawReceive) :
    ∃ used, raw = used++(gbnReceiveOne management nonBlocking ses raw).2.2 ∧
      dataPackets (packets used) = match (gbnReceiveOne management nonBlocking ses raw).1 with
        | .data hdr => [hdr]
        | _ => [] := by
  induction raw generalizing ses with
  | nil => exact ⟨[],rfl,rfl⟩
  | cons r raw ih =>
    cases r with
    | error => exact ⟨[.error],rfl,rfl⟩
    | empty =>
      rw [gbnReceiveOne]
      split_ifs
      · exact ⟨[.empty],rfl,rfl⟩
      · obtain ⟨used,hused,hdata⟩ := ih ses
        exact ⟨.empty::used,congrArg (RawReceive.empty :: ·) hused,hdata⟩
    | packet hdr =>
      rw [gbnReceiveOne]
      cases hty : hdr.pktType with
      | ack | nack =>
        obtain ⟨used,hused,hdata⟩ := ih (handlePacket management ses hdr)
        refine ⟨.packet hdr::used,congrArg (RawReceive.packet hdr :: ·) hused,?_⟩
        simpa [packets,dataPackets,hty] using hdata
      | data | unknown => exact ⟨[.packet hdr],rfl,by simp [packets,dataPackets,hty]⟩

lemma calls_taken (management nonBlocking : Bool) (calls : ℕ) (ses : SessionGbn)
    (raw : List RawReceive) :
    ∃ used, raw = used++(receiveCalls management nonBlocking calls ses raw).2.2 ∧
      (receiveCalls management nonBlocking calls ses raw).1 = dataPackets (packets used) := by
  induction calls generalizing ses raw with
  | zero => exact ⟨[],rfl,rfl⟩
  | succ calls ih =>
    obtain ⟨used,hused,hdata⟩ := receive_one_taken management nonBlocking ses raw
    obtain ⟨more,hmore,hrest⟩ := ih (gbnReceiveOne management nonBlocking ses raw).2.1
      (gbnReceiveOne management nonBlocking ses raw).2.2
    refine ⟨used++more,?_,?_⟩
    · rw [receiveCalls,List.append_assoc,← hmore]
      exact hused
    · rw [packets_append,dataPackets,List.filter_append,← dataPackets,← dataPackets,hdata,
        receiveCalls,← hrest]
      cases (gbnReceiveOne management nonBlocking ses raw).1 <;> rfl

variable (ses : SessionGbn) (hdr : GbnHeader)

lemma expect_after (hty : hdr.pktType ≠ .data) :
    (handlePacket false ses hdr).seqnumExpect = ses.seqnumExpect := by
  unfold handlePacket
  cases h : hdr.pktType with
  | ack =>
    dsimp only [handleAckPacket,handleAckNackDequeue]
    split_ifs <;> rfl
  | nack =>
    dsimp only [handleNackPacket,handleAckNackDequeue]
    split_ifs <;> rfl
  | data => exact absurd h hty
  | unknown => rfl

lemma expect_accepted (hty : hdr.pktType = .data) (hseq : hdr.seqnum = ses.seqnumExpect) :
    (handlePacket false ses hdr).seqnumExpect = ses.seqnumExpect+1 := by
  simp [handlePacket,hty,handleDataPacket,hseq]

lemma numbered_iff (hdrs : List GbnHeader) (ses : SessionGbn) (n : ℕ) (hn : n ≤ 2^32)
    (hexp : ses.seqnumExpect = BitVec.ofNat 32 n)
    (hpos : ∀ hdr ∈ hdrs, hdr.pktType = .data → hdr.seqnum ≠ 0) :
    (dataPackets hdrs).map (fun hdr => hdr.seqnum.toNat) = List.range' n (dataPackets hdrs).length ↔
      Expected false ses hdrs := by
  induction hdrs generalizing ses n with
  | nil => simp [dataPackets,Expected]
  | cons hdr hdrs ih =>
    have hrest : ∀ h ∈ hdrs, h.pktType = .data → h.seqnum ≠ 0 :=
      fun h hh => hpos h (List.mem_cons_of_mem hdr hh)
    by_cases hty : hdr.pktType = .data
    · have hsplit : dataPackets (hdr::hdrs) = hdr::dataPackets hdrs := by simp [dataPackets,hty]
      rw [hsplit,List.map_cons,List.length_cons,List.range'_succ,List.cons.injEq,Expected]
      have hseq : hdr.seqnum.toNat = n ↔ hdr.seqnum = ses.seqnumExpect := by
        have hne := hpos hdr (by simp) hty
        have hlt := hdr.seqnum.isLt
        rw [hexp]
        constructor
        · intro h
          rw [← h,BitVec.ofNat_toNat,BitVec.setWidth_eq]
        · intro h
          have hmod : hdr.seqnum.toNat = n%2^32 := by rw [h,BitVec.toNat_ofNat]
          have hzero : hdr.seqnum.toNat ≠ 0 := fun h0 => hne (BitVec.eq_of_toNat_eq h0)
          omega
      constructor
      · rintro ⟨hfirst,hmore⟩
        have haccept := hseq.mp hfirst
        have hlt := hdr.seqnum.isLt
        refine ⟨fun _ => haccept,(ih _ (n+1) (by omega) ?_ hrest).mp hmore⟩
        rw [expect_accepted ses hdr hty haccept,hexp]
        exact (BitVec.ofNat_add n 1).symm
      · rintro ⟨hfirst,hmore⟩
        have hnum := hseq.mpr (hfirst hty)
        have hlt := hdr.seqnum.isLt
        refine ⟨hnum,(ih _ (n+1) (by omega) ?_ hrest).mpr hmore⟩
        rw [expect_accepted ses hdr hty (hfirst hty),hexp]
        exact (BitVec.ofNat_add n 1).symm
    · have hsplit : dataPackets (hdr::hdrs) = dataPackets hdrs := by simp [dataPackets,hty]
      rw [hsplit,Expected,
        ih (handlePacket false ses hdr) n hn (by rw [expect_after ses hdr hty,hexp]) hrest]
      simp [hty]

/-- The packets come in order exactly when each arrives with the number expected then. -/
theorem host_delivers_in_order_iff (memory : SessionGbn) (nonBlocking : Bool) (calls : ℕ)
    (raw : List RawReceive)
    (hpos : ∀ hdr, RawReceive.packet hdr ∈ raw → hdr.pktType = .data → hdr.seqnum ≠ 0) :
    let out := receiveCalls false nonBlocking calls (initSessionGbn memory) raw
    out.1.map (fun hdr => hdr.seqnum.toNat) = List.range' 1 out.1.length ↔
      Expected false (initSessionGbn memory) (taken raw out.2.2) := by
  intro out
  obtain ⟨used,hused,hdata⟩ := calls_taken false nonBlocking calls (initSessionGbn memory) raw
  have htaken : taken raw out.2.2 = packets used := by
    conv_lhs => rw [hused]
    exact taken_append used out.2.2
  rw [htaken,show out.1 = dataPackets (packets used) from hdata]
  refine numbered_iff (packets used) _ 1 (by decide) rfl ?_
  intro hdr hhdr
  refine hpos hdr ?_
  rw [hused]
  refine List.mem_append_left _ ?_
  obtain ⟨r,hr,hsome⟩ := List.mem_filterMap.mp hhdr
  cases r with
  | packet h =>
    cases hsome
    exact hr
  | error | empty => cases hsome

def blankSession : SessionGbn := ⟨fun _ => ⟨0,0,0⟩,0,0,0,true⟩

def dataPacket (seqnum : Seqnum) : RawReceive := .packet ⟨.data,seqnum,3,5⟩

/-- A packet that arrives twice is returned twice. -/
theorem duplicate_returned :
    (receiveCalls false false 2 (initSessionGbn blankSession) [dataPacket 1, dataPacket 1]).1.map
      (fun hdr => hdr.seqnum.toNat) = [1,1] := by
  decide

theorem host_delivers_in_order_two :
    (receiveCalls false false 2 (initSessionGbn blankSession) [dataPacket 1, dataPacket 2]).1.map
      (fun hdr => hdr.seqnum.toNat) = [1,2] :=
  (host_delivers_in_order_iff blankSession false 2 [dataPacket 1, dataPacket 2]
    (by simp [dataPacket])).mpr ⟨fun _ => rfl,fun _ => rfl,trivial⟩

/-! ## Sending

The ring of unacknowledged packets is cleared when the session is made and nothing writes a packet
into it: the code that does is compiled out. -/

structure Sender where
  ses : SessionGbn
  sent : Seqnum → ℕ × ℕ

def allocUnackBufferInfo (ses : SessionGbn) : SessionGbn × Seqnum :=
  ({ ses with seqnumCur := ses.seqnumCur+1 }, ses.seqnumCur+1)

def gbnSendOne (s : Sender) (buf bufSize : ℕ) : Sender :=
  let alloc := allocUnackBufferInfo s.ses
  ⟨alloc.1, update s.sent alloc.2 (buf, bufSize)⟩

/-- The headers are written into the buffer, so it is not null. -/
inductive Reachable : Sender → Prop
  | init (memory : SessionGbn) : Reachable ⟨initSessionGbn memory, fun _ => (0, 0)⟩
  | send {s : Sender} (buf bufSize : ℕ) : Reachable s → buf ≠ 0 →
      Reachable (gbnSendOne s buf bufSize)
  | receive {s : Sender} (hdr : GbnHeader) : Reachable s →
      Reachable { s with ses := handlePacket false s.ses hdr }

lemma dequeue_last (seq : Seqnum) :
    (handleAckNackDequeue ses seq).1.seqnumLast.toNat = max ses.seqnumLast.toNat seq.toNat ∧
      (handleAckNackDequeue ses seq).1.seqnumCur = ses.seqnumCur ∧
      ((handleAckNackDequeue ses seq).2 = true ↔ ses.seqnumLast.toNat ≤ seq.toNat) := by
  unfold handleAckNackDequeue
  split_ifs with hlt
  · have hlt : ses.seqnumLast.toNat < seq.toNat := hlt
    exact ⟨(max_eq_right hlt.le).symm,rfl,iff_of_true rfl hlt.le⟩
  · have hle : seq.toNat ≤ ses.seqnumLast.toNat := Nat.le_of_not_lt hlt
    refine ⟨(max_eq_left hle).symm,rfl,?_⟩
    rw [decide_eq_true_iff,← BitVec.toNat_inj]
    omega

lemma free_blank {ring : BitVec 8 → BufferInfo} (h : ∀ i, ring i = ⟨0,0,0⟩) (index : ℕ) :
    freeUnackBufferInfo ring index = ring := by
  rw [freeUnackBufferInfo,h,← h (ringIndex index),update_eq_self]

lemma dequeue_blank {ses : SessionGbn} (h : ∀ i, ses.unackBufferInfoRing i = ⟨0,0,0⟩)
    (seq : Seqnum) (i : BitVec 8) :
    (handleAckNackDequeue ses seq).1.unackBufferInfoRing i = ⟨0,0,0⟩ := by
  have hfold : ∀ is : List ℕ,
      is.foldl freeUnackBufferInfo ses.unackBufferInfoRing = ses.unackBufferInfoRing := by
    intro is
    induction is with
    | nil => rfl
    | cons j is ih => rw [List.foldl_cons,free_blank h,ih]
  unfold handleAckNackDequeue
  split_ifs
  · rw [hfold]
    exact h i
  · exact h i

lemma packet_sender :
    (handlePacket false ses hdr).seqnumCur = ses.seqnumCur ∧
      ((∀ i, ses.unackBufferInfoRing i = ⟨0,0,0⟩) →
        ∀ i, (handlePacket false ses hdr).unackBufferInfoRing i = ⟨0,0,0⟩) := by
  unfold handlePacket
  split
  · exact ⟨(dequeue_last ses hdr.seqnum).2.1,fun h => dequeue_blank h hdr.seqnum⟩
  · exact ⟨(dequeue_last ses hdr.seqnum).2.1,fun h => dequeue_blank h hdr.seqnum⟩
  · unfold handleDataPacket
    split_ifs <;> exact ⟨rfl,id⟩
  · exact ⟨rfl,id⟩

lemma reachable_sent {s : Sender} (h : Reachable s) :
    (∀ i, s.ses.unackBufferInfoRing i = ⟨0,0,0⟩) ∧
      ∀ n : Seqnum, n ≠ 0 → n.toNat ≤ s.ses.seqnumCur.toNat → (s.sent n).1 ≠ 0 := by
  induction h with
  | init memory =>
    refine ⟨fun _ => rfl,fun n hn hle => absurd ?_ hn⟩
    exact BitVec.eq_of_toNat_eq (Nat.le_zero.mp hle)
  | @send s buf bufSize _ hbuf ih =>
    refine ⟨ih.1,fun n hn hle => ?_⟩
    simp only [gbnSendOne,allocUnackBufferInfo] at hle ⊢
    by_cases hnew : n = s.ses.seqnumCur+1
    · rwa [hnew,update_self]
    · rw [update_of_ne hnew]
      exact ih.2 n hn (by bv_omega)
  | @receive s hdr _ ih =>
    refine ⟨(packet_sender s.ses hdr).2 ih.1,fun n hn hle => ih.2 n hn ?_⟩
    rwa [(packet_sender s.ses hdr).1] at hle

/-- What handling an acknowledgement promises. -/
def Safe (s : Sender) (hdr : GbnHeader) : Prop :=
  let ses := handlePacket false s.ses hdr
  s.ses.seqnumLast.toNat ≤ ses.seqnumLast.toNat ∧
    ses.seqnumLast.toNat ≤ ses.seqnumCur.toNat ∧
    (hdr.pktType = .nack →
      (handleNackPacket s.ses hdr).2.map (fun info => (info.buf,info.bufSize)) =
        (indices ses.seqnumLast ses.seqnumCur).map (fun i => s.sent (BitVec.ofNat 32 (i+1))))

lemma resent_blank {s : Sender} (h : Reachable s) (hdr : GbnHeader) (resent : BufferInfo)
    (hmem : resent ∈ (handleNackPacket s.ses hdr).2) : resent.buf = 0 := by
  unfold handleNackPacket at hmem
  dsimp only at hmem
  split_ifs at hmem
  · obtain ⟨i,-,rfl⟩ := List.mem_map.mp hmem
    rw [dequeue_blank (reachable_sent h).1]
  · exact absurd hmem (List.not_mem_nil)

/-- The promise is kept exactly if the number was sent and a NACK leaves nothing to resend. -/
theorem ack_safe_iff (s : Sender) (h : Reachable s) (hdr : GbnHeader)
    (hty : hdr.pktType = .ack ∨ hdr.pktType = .nack) :
    Safe s hdr ↔
      max s.ses.seqnumLast.toNat hdr.seqnum.toNat ≤ s.ses.seqnumCur.toNat ∧
        (hdr.pktType = .nack →
          max s.ses.seqnumLast.toNat hdr.seqnum.toNat = s.ses.seqnumCur.toNat) := by
  obtain ⟨hlast,hcur,-⟩ := dequeue_last s.ses hdr.seqnum
  have hses : handlePacket false s.ses hdr = (handleAckNackDequeue s.ses hdr.seqnum).1 := by
    obtain hty | hty := hty <;> simp [handlePacket,hty,handleAckPacket,handleNackPacket]
  simp only [Safe,hses,hcur,hlast,le_max_left,true_and]
  refine and_congr_right fun hle => imp_congr_right fun _ => ?_
  constructor
  · intro hresent
    by_contra hne
    -- the first packet to be sent again has a buffer, the slot read for it has none
    have hpos : (indices (handleAckNackDequeue s.ses hdr.seqnum).1.seqnumLast
        s.ses.seqnumCur) ≠ [] := by
      rw [indices,hlast,Ne,List.range'_eq_nil_iff]
      omega
    obtain ⟨i,hi⟩ := List.exists_mem_of_ne_nil _ hpos
    have hrange := List.mem_range'_1.mp hi
    have hcurlt := s.ses.seqnumCur.isLt
    have hnum : (BitVec.ofNat 32 (i+1)).toNat = i+1 := by
      rw [BitVec.toNat_ofNat,Nat.mod_eq_of_lt (by omega)]
    have hsent := (reachable_sent h).2 (BitVec.ofNat 32 (i+1)) (by bv_omega) (by omega)
    have hmem := List.mem_map_of_mem (f := fun i => s.sent (BitVec.ofNat 32 (i+1))) hi
    rw [← hresent] at hmem
    obtain ⟨info,hinfo,heq⟩ := List.mem_map.mp hmem
    rw [← congrArg Prod.fst heq] at hsent
    exact hsent (resent_blank h hdr info hinfo)
  · intro heq
    have hnil : indices (handleAckNackDequeue s.ses hdr.seqnum).1.seqnumLast
        s.ses.seqnumCur = [] := by
      rw [indices,hlast,heq,Nat.sub_self,List.range'_zero]
    have hnone : (handleNackPacket s.ses hdr).2 = [] := by
      simp [handleNackPacket,retransUnackBufferInfo,hcur,hnil]
    rw [hnone,hnil]
    rfl

/-- One buffer sent. -/
def sentOne : Sender := gbnSendOne ⟨initSessionGbn blankSession, fun _ => (0,0)⟩ 4096 64

theorem ack_safe_one : Safe sentOne ⟨.ack,1,3,5⟩ :=
  (ack_safe_iff sentOne (.send 4096 64 (.init blankSession) (by decide)) ⟨.ack,1,3,5⟩
    (.inl rfl)).mpr ⟨by decide,fun h => absurd h (by decide)⟩

/-- A null buffer is sent again, and an ACK of an unsent number moves past the current one. -/
theorem resends_null :
    Reachable sentOne ∧ sentOne.sent 1 = (4096,64) ∧
      (handleNackPacket sentOne.ses ⟨.nack,0,3,5⟩).2 = [⟨0,0,0⟩] ∧
      (handlePacket false sentOne.ses ⟨.ack,9,3,5⟩).seqnumLast = 9 ∧
      sentOne.ses.seqnumCur = 1 :=
  ⟨.send 4096 64 (.init blankSession) (by decide),rfl,by decide,rfl,rfl⟩

end Clio.HostGbn
