import Clio.MemoryAccess
import Clio.Tx64

/-!
# The layout of the retransmit buffers

A response goes through the network adapter and the send path to the buffer.
-/

namespace Clio.BufferLayout

open CoreMemTypes MemoryAccess StateTable UnackedBuffer Tx64

/-- A request with the entry found for it, and what the session adds to its response. -/
structure Response where
  pte : PageTableEntry
  request : LegoMemAccessHeader
  destIp : BitVec 32
  srcPort : BitVec 16
  destPort : BitVec 16
  seqnum : Seqnum
  data : 0 < srcPort ∧ 0 < destPort

def udpHeaderOut (r : Response) : UdpInfo :=
  ⟨0, r.destIp, r.srcPort, r.destPort, (requestChecker r.pte r.request).header.size⟩

def slot (r : Response) : SlotId := srcSlotOf (udpHeaderOut r)

def windowIdx (r : Response) : ℕ := r.seqnum.toNat%windowSize

def bufferStep (r : Response) : RecvOut :=
  let header := tx64 .udpHeader (some (udpHeaderOut r)) none none
  let out := (tx64 header.1 none none (some r.seqnum)).2
  (recvStep UnackedBuffer.powerUp out.buffPayload out.buffRouteInfo).2

def storedLength (r : Response) : BitVec 16 := (udpHeaderOut r).length+16

def stored (r : Response) : DmCmd :=
  ⟨(storedLength r).toNat, bufferAddress (slot r) (windowIdx r)⟩

variable (r : Response)

lemma buffer_step_eq :
    bufferStep r = { wrCmd := some (stored r), wrData := some (lengthBeat (storedLength r)) } := by
  have hports : (udpHeaderOut r).srcPort > 0 ∧ (udpHeaderOut r).destPort > 0 := r.data
  have hbeat := header_of_beat ⟨.data,r.seqnum,srcSlotOf (udpHeaderOut r),
    destSlotOf (udpHeaderOut r)⟩
  have hslot : buffSlotId (headerBeat ⟨.data,r.seqnum,srcSlotOf (udpHeaderOut r),
      destSlotOf (udpHeaderOut r)⟩) = slot r := congrArg GbnHeader.srcSlot hbeat
  have hseq := congrArg (fun header => header.seqnum.toNat) hbeat
  have hidx : buffWindowIdx (headerBeat ⟨.data,r.seqnum,srcSlotOf (udpHeaderOut r),
      destSlotOf (udpHeaderOut r)⟩) = windowIdx r := by
    simp only [headerOf,BitVec.toNat_ofNat] at hseq
    unfold windowIdx buffWindowIdx windowSize
    omega
  unfold bufferStep
  simp only [tx64,sendHeader,if_pos hports,sendGbnHeader,recvStep,UnackedBuffer.powerUp,writeCmd,
    hslot,hidx]
  rfl

def Covers (cmd : DmCmd) (x : ℕ) : Prop := cmd.startAddress ≤ x ∧ x < cmd.startAddress+cmd.btt

def netcacheEnd : ℕ := buffAddressStart+0x20000000

def InNetcache (cmd : DmCmd) : Prop :=
  ∀ x, Covers cmd x → buffAddressStart ≤ x ∧ x < netcacheEnd

def readBack (r : Response) : DmCmd :=
  contentCmd ⟨slot r,r.seqnum,r.seqnum⟩ r.seqnum (lengthBeat (storedLength r))

def ReadsBack (r : Response) : Prop :=
  ∀ x, Covers (readBack r) x ↔ Covers (stored r) x ∧ (stored r).startAddress+8 ≤ x

def Kept (p q : Response) : Prop :=
  (∀ x, Covers (stored p) x → ¬ Covers (stored q) x) ∧ InNetcache (stored p) ∧
    InNetcache (stored q) ∧ ReadsBack p ∧ ReadsBack q

def packetLength (pte : PageTableEntry) (request : LegoMemAccessHeader) : ℕ :=
  if checkRequest pte request = RequestStatus.OKAY ∧
      (request.header.reqType = RequestType.READ ∨ request.header.reqType = RequestType.READ_MIG)
  then (request.length.toNat+44)%2^16 else 44

def place (r : Response) : ℕ := (slot r).toNat*windowSize+windowIdx r

def Fits (p q : Response) : Prop :=
  (8 ≤ packetLength p.pte p.request ∧ 8 ≤ packetLength q.pte q.request) ∧
    (place p < place q →
      packetLength p.pte p.request ≤ (place q-place p)*maxPacketSize) ∧
    (place q < place p →
      packetLength q.pte q.request ≤ (place p-place q)*maxPacketSize)

lemma stored_length_eq : (storedLength r).toNat = packetLength r.pte r.request := by
  have hsize : storedLength r = genSize r.request (checkRequest r.pte r.request)+16 := rfl
  rw [hsize,genSize,packetLength]
  split_ifs
  · simp only [packedBytes,BitVec.toNat_add,BitVec.toNat_setWidth,BitVec.toNat_ofNat,
      BitVec.ofNat_eq_ofNat]
    omega
  · rfl

lemma stored_start : (stored r).startAddress = buffAddressStart+place r*maxPacketSize := rfl

lemma place_lt : place r < 2^17 := by
  have hslot := (slot r).isLt
  have hidx : windowIdx r < windowSize := Nat.mod_lt _ (by decide)
  unfold place windowSize at *
  omega

lemma place_ne (p q : Response) (h : (slot p,windowIdx p) ≠ (slot q,windowIdx q)) :
    place p ≠ place q := by
  have hp : windowIdx p < windowSize := Nat.mod_lt _ (by decide)
  have hq : windowIdx q < windowSize := Nat.mod_lt _ (by decide)
  intro heq
  unfold place windowSize at *
  apply h
  rw [Prod.mk.injEq]
  exact ⟨BitVec.eq_of_toNat_eq (by omega),by omega⟩

lemma in_netcache : InNetcache (stored r) := by
  rintro x ⟨hlow,hhigh⟩
  have hplace := place_lt r
  have hlength := (storedLength r).isLt
  have hbtt : (stored r).btt = (storedLength r).toNat := rfl
  rw [stored_start] at hlow hhigh
  unfold netcacheEnd maxPacketSize at *
  omega

lemma reads_back_iff : ReadsBack r ↔ 8 ≤ packetLength r.pte r.request := by
  have hread : rdLength (lengthBeat (storedLength r)) = storedLength r := by
    apply BitVec.eq_of_toNat_eq
    have := (storedLength r).isLt
    simp only [rdLength,lengthBeat,le_nat_bytes,BitVec.toNat_ofNat]
    omega
  have hback : readBack r = ⟨((storedLength r).toNat+2^23-8)%2^23,(stored r).startAddress+8⟩ := by
    rw [readBack,contentCmd,hread]
    rfl
  have hbtt : (stored r).btt = (storedLength r).toNat := rfl
  have hlt := (storedLength r).isLt
  rw [← stored_length_eq]
  unfold ReadsBack Covers
  rw [hback,hbtt]
  generalize (stored r).startAddress = start
  generalize (storedLength r).toNat = n at *
  dsimp only
  constructor
  · intro h
    by_contra hshort
    -- a length below eight wraps around in 23 bits
    have := (h (start+8)).mp (by omega)
    omega
  · intro hlong x
    omega

lemma apart_iff (p q : Response) (h : (slot p,windowIdx p) ≠ (slot q,windowIdx q))
    (hp : 8 ≤ packetLength p.pte p.request) (hq : 8 ≤ packetLength q.pte q.request) :
    (∀ x, Covers (stored p) x → ¬ Covers (stored q) x) ↔
      (place p < place q → packetLength p.pte p.request ≤ (place q-place p)*maxPacketSize) ∧
        (place q < place p → packetLength q.pte q.request ≤ (place p-place q)*maxPacketSize) := by
  have hne := place_ne p q h
  have hbp : (stored p).btt = packetLength p.pte p.request := stored_length_eq p
  have hbq : (stored q).btt = packetLength q.pte q.request := stored_length_eq q
  unfold Covers
  rw [stored_start,stored_start,hbp,hbq]
  unfold maxPacketSize
  generalize packetLength p.pte p.request = n at *
  generalize packetLength q.pte q.request = m at *
  generalize place p = a at *
  generalize place q = b at *
  constructor
  · intro hapart
    constructor
    · intro hlt
      by_contra hover
      exact hapart (buffAddressStart+b*1536) (by omega) (by omega)
    · intro hlt
      by_contra hover
      exact hapart (buffAddressStart+a*1536) (by omega) (by omega)
  · rintro ⟨hpq,hqp⟩ x hx hy
    omega

/-- Two buffers are apart, inside the region and read back exactly when the packets fit. -/
theorem kept_iff_fits (p q : Response) (h : (slot p,windowIdx p) ≠ (slot q,windowIdx q)) :
    Kept p q ↔ Fits p q := by
  unfold Kept Fits
  rw [reads_back_iff,reads_back_iff]
  constructor
  · rintro ⟨hapart,-,-,hp,hq⟩
    exact ⟨⟨hp,hq⟩,(apart_iff p q h hp hq).mp hapart⟩
  · rintro ⟨⟨hp,hq⟩,hfit⟩
    exact ⟨(apart_iff p q h hp hq).mpr hfit,in_netcache p,in_netcache q,hp,hq⟩

def entry : PageTableEntry := ⟨0,true,true,0,0,0,0⟩

/-- A read of `length` bytes, answered on slot 1 under sequence number `seqnum`. -/
def readResponse (length : BitVec 32) (seqnum : Seqnum) : Response :=
  ⟨entry, ⟨⟨0,0,RequestType.READ,0,false,false,0,0,0,0,1,1,0⟩,0,length⟩, 0, 1, 1, seqnum,
    by decide⟩

theorem short_reads_kept : Kept (readResponse 1450 0) (readResponse 1450 1) :=
  (kept_iff_fits (readResponse 1450 0) (readResponse 1450 1) (by decide)).mpr
    (by unfold Fits; decide)

/-- The response to a read of 2000 bytes reaches into the buffer of the next packet. -/
theorem long_read_overlaps : ∃ x, Covers (stored (readResponse 2000 0)) x ∧
    Covers (stored (readResponse 16 1)) x := by
  refine ⟨(stored (readResponse 16 1)).startAddress,?_,?_⟩
  · unfold Covers
    decide
  · unfold Covers
    decide

end Clio.BufferLayout
