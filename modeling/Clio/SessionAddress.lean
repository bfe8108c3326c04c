import Clio.CoreMemTypes
import Clio.Tx64

/-!
# The way of a session number into a response

A node hands out session numbers below 1024.
-/

namespace Clio.SessionAddress

open CoreMemTypes StateTable Tx64

def nrMaxSessionsPerNode : ℕ := 1024

def legomemMgmtSessionId : ℕ := 0

def findNextZeroBit (map : ℕ → Bool) (size start : ℕ) : ℕ :=
  ((List.range' start (size-start)).find? fun bit => !map bit).getD size

def allocBit (map : ℕ → Bool) (start : ℕ) : Option ℕ :=
  let bit := findNextZeroBit map nrMaxSessionsPerNode start
  if bit ≥ nrMaxSessionsPerNode then none else some bit

def hostAllocSession (map : ℕ → Bool) : Option ℕ := allocBit map 0

def boardAllocSession (map : ℕ → Bool) : Option ℕ := allocBit map (legomemMgmtSessionId+1)

/-- The management session keeps its bit. -/
def hostFreeSession (map : ℕ → Bool) (id : ℕ) : ℕ → Bool :=
  if id = legomemMgmtSessionId then map else Function.update map id false

lemma alloc_bit_bounds (map : ℕ → Bool) (start id : ℕ) (h : allocBit map start = some id) :
    id < 1024 ∧ (start < 1024 → start ≤ id) := by
  unfold allocBit findNextZeroBit nrMaxSessionsPerNode at h
  cases hf : (List.range' start (1024-start)).find? (fun bit => !map bit) with
  | none =>
    rw [hf] at h
    exact absurd h (by simp)
  | some bit =>
    have hmem := List.mem_of_find?_eq_some hf
    rw [List.mem_range'_1] at hmem
    rw [hf] at h
    by_cases hge : bit ≥ 1024
    · exact absurd h (by simp [hge])
    · have hid : bit = id := by simpa [hge] using h
      omega

lemma host_alloc_free {map : ℕ → Bool} {id : ℕ} (h : hostAllocSession map = some id) :
    id < nrMaxSessionsPerNode ∧ map id = false ∧ ∀ j, j < id → map j = true := by
  refine ⟨(alloc_bit_bounds map 0 id h).1,?_⟩
  unfold hostAllocSession allocBit findNextZeroBit at h
  cases hf : (List.range' 0 (nrMaxSessionsPerNode-0)).find? (fun bit => !map bit) with
  | none =>
    rw [hf] at h
    simp at h
  | some bit =>
    rw [hf] at h
    obtain ⟨hbit,-,hbelow⟩ := List.find?_range'_eq_some.mp hf
    dsimp only [Option.getD_some] at h
    split_ifs at h
    cases h
    exact ⟨by simpa using hbit,fun j hj => by simpa using hbelow j (Nat.zero_le j) hj⟩

lemma alloc_bit_any (start id : ℕ) (hs : start ≤ id) (hid : id < 1024) :
    allocBit (fun bit => bit != id) start = some id := by
  have hfind : (List.range' start (1024-start)).find? (fun bit => !(bit != id)) = some id := by
    rw [List.find?_range'_eq_some]
    refine ⟨by simp,by rw [List.mem_range'_1]; omega,?_⟩
    intro j hj hlt
    simp
    omega
  unfold allocBit findNextZeroBit nrMaxSessionsPerNode
  rw [hfind]
  exact if_neg (by simpa using hid)

def Allocated (host board : ℕ) : Prop :=
  (∃ map, hostAllocSession map = some host) ∧ ∃ map, boardAllocSession map = some board

lemma allocated_iff (host board : ℕ) :
    Allocated host board ↔ host < 1024 ∧ 0 < board ∧ board < 1024 := by
  constructor
  · rintro ⟨⟨m,hm⟩,n,hn⟩
    have hh := alloc_bit_bounds m 0 host hm
    have hb := alloc_bit_bounds n 1 board hn
    exact ⟨hh.1,hb.2 (by decide),hb.1⟩
  · rintro ⟨hh,hpos,hb⟩
    exact ⟨⟨_,alloc_bit_any 0 host (Nat.zero_le _) hh⟩,_,alloc_bit_any 1 board hpos hb⟩

def requestHeader (header : LegoMemHeader) (host board : ℕ) : LegoMemHeader :=
  { header with srcPort := BitVec.ofNat 8 host, destPort := BitVec.ofNat 8 board }

def responseHeader (header : LegoMemHeader) : LegoMemHeader :=
  { header with srcPort := header.destPort, destPort := header.srcPort }

/-- `outputCtrl` of the network adapter. -/
def udpHeaderOut (currentIp : BitVec 32) (memHeader : LegoMemHeader) : UdpInfo where
  srcIp := currentIp
  destIp := memHeader.destIp
  srcPort := memHeader.srcPort.setWidth 16
  destPort := memHeader.destPort.setWidth 16
  length := memHeader.size

def isMgmt (info : UdpInfo) : Bool := (sendHeader info).2.checkFullReq.isNone

/-- The transport header, given the number the state table answers. -/
def gbnHeader (info : UdpInfo) (seqnum : Seqnum) : Option GbnHeader :=
  match sendHeader info with
  | (.gbnHeader udp src dest, _) => (sendGbnHeader udp src dest seqnum).2.txPayload.map headerOf
  | (_, out) => out.txPayload.map headerOf

lemma is_mgmt_iff (info : UdpInfo) :
    isMgmt info = true ↔ info.srcPort.toNat = 0 ∨ info.destPort.toNat = 0 := by
  unfold isMgmt sendHeader
  have hpos : ∀ port : BitVec 16, port > 0 ↔ port.toNat ≠ 0 := by
    intro port
    rw [gt_iff_lt,BitVec.lt_def]
    simp
    omega
  by_cases hdata : info.srcPort > 0 ∧ info.destPort > 0
  · rw [if_pos hdata]
    rw [hpos,hpos] at hdata
    simp [hdata]
  · rw [if_neg hdata]
    rw [hpos,hpos] at hdata
    simp only [Option.isNone_none,true_iff]
    omega

lemma gbn_header_slots (info : UdpInfo) (seqnum : Seqnum) :
    ∃ header, gbnHeader info seqnum = some header ∧ header.srcSlot = info.srcPort.setWidth 10 ∧
      header.destSlot = info.destPort.setWidth 10 := by
  unfold gbnHeader sendHeader
  split_ifs
  · exact ⟨_,rfl,by rw [header_of_beat]; rfl,by rw [header_of_beat]; rfl⟩
  · exact ⟨_,rfl,by rw [header_of_beat]; rfl,by rw [header_of_beat]; rfl⟩

/-- The response goes from the slot of the board to that of the host, and is management traffic only
if one of them is. -/
def Addressed (host board : ℕ) : Prop :=
  ∀ currentIp header seqnum,
    let info := udpHeaderOut currentIp (responseHeader (requestHeader header host board))
    (∃ gbn, gbnHeader info seqnum = some gbn ∧ gbn.srcSlot.toNat = board ∧
      gbn.destSlot.toNat = host) ∧
    (isMgmt info = true ↔ host = legomemMgmtSessionId ∨ board = legomemMgmtSessionId)

lemma response_src_port (currentIp : BitVec 32) (header : LegoMemHeader) (host board : ℕ) :
    (udpHeaderOut currentIp (responseHeader (requestHeader header host board))).srcPort.toNat =
      board%256 := by
  simp only [udpHeaderOut,responseHeader,requestHeader,BitVec.toNat_setWidth, BitVec.toNat_ofNat]
  omega

lemma response_dest_port (currentIp : BitVec 32) (header : LegoMemHeader) (host board : ℕ) :
    (udpHeaderOut currentIp (responseHeader (requestHeader header host board))).destPort.toNat =
      host%256 := by
  simp only [udpHeaderOut,responseHeader,requestHeader,BitVec.toNat_setWidth, BitVec.toNat_ofNat]
  omega

/-- A response finds its session exactly when both numbers fit a byte. -/
theorem addressed_iff (host board : ℕ) (h : Allocated host board) :
    Addressed host board ↔ host < 256 ∧ board < 256 := by
  obtain ⟨hhost,hpos,hboard⟩ := (allocated_iff host board).mp h
  constructor
  · intro ha
    obtain ⟨⟨gbn,hgbn,hsrc,hdest⟩,-⟩ :=
      ha 0 ⟨0,0,0,0,false,false,0,0,0,0,0,0,0⟩ 0
    obtain ⟨gbn',hgbn',hsrc',hdest'⟩ := gbn_header_slots _ _
    obtain rfl := Option.some.inj (hgbn.symm.trans hgbn')
    rw [hsrc',BitVec.toNat_setWidth,response_src_port] at hsrc
    rw [hdest',BitVec.toNat_setWidth,response_dest_port] at hdest
    omega
  · rintro ⟨hh,hb⟩ currentIp header seqnum
    obtain ⟨gbn,hgbn,hsrc,hdest⟩ := gbn_header_slots
      (udpHeaderOut currentIp (responseHeader (requestHeader header host board))) seqnum
    refine ⟨⟨gbn,hgbn,?_,?_⟩,?_⟩
    · rw [hsrc,BitVec.toNat_setWidth,response_src_port]
      omega
    · rw [hdest,BitVec.toNat_setWidth,response_dest_port]
      omega
    · rw [is_mgmt_iff,response_src_port,response_dest_port]
      unfold legomemMgmtSessionId
      omega

theorem addressed_small : Allocated 3 7 ∧ Addressed 3 7 := by
  have h : Allocated 3 7 := (allocated_iff 3 7).mpr (by decide)
  exact ⟨h,(addressed_iff 3 7 h).mpr (by decide)⟩

/-- The response of sessions 256 and 512 is taken for management traffic. -/
theorem large_session_lost : Allocated 256 512 ∧ ¬Addressed 256 512 := by
  refine ⟨(allocated_iff 256 512).mpr (by decide),?_⟩
  intro h
  have hmgmt := (h 0 ⟨0,0,0,0,false,false,0,0,0,0,0,0,0⟩ 0).2.mp (by decide)
  revert hmgmt
  decide

end Clio.SessionAddress
