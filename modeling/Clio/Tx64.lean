import Clio.UnackedBuffer

/-!
# The send path of the go-back-N transport

A user packet is a header and a stream of beats that ends with a marked beat.
-/

namespace Clio.Tx64

open StateTable UnackedBuffer

def GbnPktType.code : GbnPktType → ℕ
  | .ack => 1
  | .nack => 2
  | .data => 3
  | .unknown => 0

def pktTypeOf (code : ℕ) : GbnPktType :=
  if code = 1 then .ack else if code = 2 then .nack else if code = 3 then .data else .unknown

def headerWord (header : GbnHeader) : ℕ :=
  GbnPktType.code header.pktType+2^8*header.seqnum.toNat+2^40*header.srcSlot.toNat+
    2^50*header.destSlot.toNat

def headerBeat (header : GbnHeader) : NetAxis64 := ⟨leBytes 8 (headerWord header), false⟩

def headerOf (beat : NetAxis64) : GbnHeader :=
  let word := leNat beat.bytes
  ⟨pktTypeOf (word%2^8), BitVec.ofNat 32 (word/2^8), BitVec.ofNat 10 (word/2^40),
    BitVec.ofNat 10 (word/2^50)⟩

lemma pkt_type_code (pktType : GbnPktType) : pktTypeOf (GbnPktType.code pktType) = pktType := by
  cases pktType <;> rfl

lemma header_of_beat (header : GbnHeader) : headerOf (headerBeat header) = header := by
  obtain ⟨pktType,seqnum,src,dest⟩ := header
  have htype : GbnPktType.code pktType < 4 := by cases pktType <;> decide
  have hseq := seqnum.isLt
  have hsrc := src.isLt
  have hdest := dest.isLt
  have hword : leNat (leBytes 8 (headerWord ⟨pktType,seqnum,src,dest⟩)) =
      GbnPktType.code pktType+2^8*seqnum.toNat+2^40*src.toNat+2^50*dest.toNat := by
    rw [le_nat_bytes]
    exact Nat.mod_eq_of_lt (by dsimp only [headerWord]; omega)
  simp only [headerOf,headerBeat,hword,GbnHeader.mk.injEq]
  refine ⟨?_,?_,?_,?_⟩
  · rw [show (GbnPktType.code pktType+2^8*seqnum.toNat+2^40*src.toNat+2^50*dest.toNat)%2^8 =
      GbnPktType.code pktType by omega]
    exact pkt_type_code pktType
  · apply BitVec.eq_of_toNat_eq
    rw [BitVec.toNat_ofNat]
    omega
  · apply BitVec.eq_of_toNat_eq
    rw [BitVec.toNat_ofNat]
    omega
  · apply BitVec.eq_of_toNat_eq
    rw [BitVec.toNat_ofNat]
    omega

inductive UdpSendStatus where
  | udpHeader
  | gbnHeader (info : UdpInfo) (src dest : SlotId)
  | payload (buffered : Bool)
  deriving DecidableEq, Repr

structure TxOut where
  txHeader : Option UdpInfo := none
  txPayload : Option NetAxis64 := none
  checkFullReq : Option SlotId := none
  txFinishSig : Option Bool := none
  buffRouteInfo : Option RouteInfo := none
  buffPayload : Option NetAxis64 := none
  deriving DecidableEq, Repr

def sendUdpInfo (info : UdpInfo) : UdpInfo :=
  { info with srcPort := legomemPort, destPort := legomemPort, length := info.length+16 }

def srcSlotOf (info : UdpInfo) : SlotId := info.srcPort.setWidth 10

def destSlotOf (info : UdpInfo) : SlotId := info.destPort.setWidth 10

def sendHeader (info : UdpInfo) : UdpSendStatus × TxOut :=
  if info.srcPort > 0 ∧ info.destPort > 0 then
    (.gbnHeader (sendUdpInfo info) (srcSlotOf info) (destSlotOf info),
      { checkFullReq := some (srcSlotOf info) })
  else
    (.payload false,
      { txHeader := some (sendUdpInfo info)
        txPayload := some (headerBeat ⟨.data, 0, srcSlotOf info, destSlotOf info⟩) })

def sendGbnHeader (info : UdpInfo) (src dest : SlotId) (seqnum : Seqnum) :
    UdpSendStatus × TxOut :=
  (.payload true,
    { txHeader := some info
      txPayload := some (headerBeat ⟨.data, seqnum, src, dest⟩)
      buffRouteInfo := some ⟨info.destIp, info.length⟩
      buffPayload := some (headerBeat ⟨.data, seqnum, src, dest⟩) })

def sendPayload (buffered : Bool) (beat : NetAxis64) : UdpSendStatus × TxOut :=
  (if beat.last then .udpHeader else .payload buffered,
    { txPayload := some beat
      buffPayload := if buffered then some beat else none
      txFinishSig := if beat.last && buffered then some true else none })

def tx64 (state : UdpSendStatus) (usrHeader : Option UdpInfo) (usrPayload : Option NetAxis64)
    (checkFullRsp : Option Seqnum) : UdpSendStatus × TxOut :=
  match state with
  | .udpHeader =>
      match usrHeader with
      | none => (state, {})
      | some info => sendHeader info
  | .gbnHeader info src dest =>
      match checkFullRsp with
      | none => (state, {})
      | some seqnum => sendGbnHeader info src dest seqnum
  | .payload buffered =>
      match usrPayload with
      | none => (state, {})
      | some beat => sendPayload buffered beat

end Clio.Tx64
