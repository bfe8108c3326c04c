import Clio.FetchUnit

/-!
# The memory access unit

A request is joined with the entry its lookup returned.
-/

namespace Clio.MemoryAccess

open CoreMemTypes FetchUnit
open BitVec (ofNat toNat_ofNat)

structure AxiStreamDMACommand where
  addr : BitVec 40
  len : BitVec 16
  deriving DecidableEq, Repr

structure Output where
  headerOut : LegoMemAccessHeader
  rdCmd : Option AxiStreamDMACommand
  wrCmd : Option AxiStreamDMACommand
  wrDataSignal : Option Bool
  deriving DecidableEq, Repr

def generateLookupRequest (header : LegoMemAccessHeader) : AddressLookupRequest where
  tag := genTag header.header.pid header.addr
  seqId := header.header.seqId.setWidth 16
  reqType := if header.header.reqType = RequestType.CACHE_SHOOTDOWN then .SHOOTDOWN else .LOOKUP

def isValidAccessRequest (header : LegoMemAccessHeader) : Bool :=
  header.header.reqType = RequestType.READ ∨ header.header.reqType = RequestType.WRITE ∨
    header.header.reqType = RequestType.READ_MIG

def checkRequest (pte : PageTableEntry) (header : LegoMemAccessHeader) : BitVec 4 :=
  if pte.used then
    if header.header.reqType = RequestType.WRITE ∨ header.header.reqType = RequestType.READ ∨
        header.header.reqType = RequestType.READ_MIG then RequestStatus.OKAY
    else RequestStatus.ERR_INVALID
  else RequestStatus.ERR_INVALID

def genSize (header : LegoMemAccessHeader) (status : BitVec 4) : BitVec 16 :=
  if status = RequestStatus.OKAY ∧ (header.header.reqType = RequestType.READ ∨
      header.header.reqType = RequestType.READ_MIG)
  then header.length.setWidth 16+packedBytes else packedBytes

def assignFromJoin (pte : PageTableEntry) (header : LegoMemAccessHeader) : AxiStreamDMACommand where
  addr := va2pa pte header.addr
  len := header.length.setWidth 16

def requestChecker (pte : PageTableEntry) (header : LegoMemAccessHeader) : LegoMemAccessHeader :=
  let status := checkRequest pte header
  { header with header := { header.header with
      reqType := RequestType.resp header.header.reqType
      reqStatus := status
      size := genSize header status } }

/-- Answers of `WRITE_RESP` go to the write port, others to the read port, if `OKAY`. -/
def memoryAccessUnit (pte : PageTableEntry) (header : LegoMemAccessHeader) : Output :=
  let parsed := requestChecker pte header
  let isWrite : Bool := parsed.header.reqType = RequestType.WRITE_RESP
  let okay : Bool := parsed.header.reqStatus = RequestStatus.OKAY
  { headerOut := parsed
    rdCmd := if !isWrite && okay then some (assignFromJoin pte header) else none
    wrCmd := if isWrite && okay then some (assignFromJoin pte header) else none
    wrDataSignal := if isWrite then some okay else none }

def Output.Issues (out : Output) (cmd : AxiStreamDMACommand) : Prop :=
  out.rdCmd = some cmd ∨ out.wrCmd = some cmd

lemma issues_command (pte : PageTableEntry) (header : LegoMemAccessHeader)
    (cmd : AxiStreamDMACommand) (h : (memoryAccessUnit pte header).Issues cmd) :
    cmd = assignFromJoin pte header := by
  rcases h with h | h <;> simp only [memoryAccessUnit] at h <;> split at h <;>
    first | exact (Option.some.inj h).symm | exact absurd h (by simp)

/-- The translation of one virtual byte by the page table of a process. -/
def translate (t : HashTable) (pid : BitVec 16) (va : ℕ) : Option ℕ :=
  if va < 2^64 then
    let pte := fetchTag t (genTag pid (BitVec.ofNat 64 va))
    if pte.used then some (va2pa pte (BitVec.ofNat 64 va)).toNat else none
  else none

variable (t : HashTable) (pid : BitVec 16)

lemma translate_some (va pa : ℕ) (h : translate t pid va = some pa) :
    va < 2^64 ∧ (fetchTag t (genTag pid (ofNat 64 va))).used = true ∧
      (va2pa (fetchTag t (genTag pid (ofNat 64 va))) (ofNat 64 va)).toNat = pa := by
  unfold translate at h
  split at h
  · rename_i hva
    simp only at h
    split at h
    · rename_i hu
      exact ⟨hva,hu,Option.some.inj h⟩
    · cases h
  · cases h

lemma translate_offset (va pa : ℕ) (h : translate t pid va = some pa) : pa%2^22 = va%2^22 := by
  obtain ⟨hva,-,hpa⟩ := translate_some t pid va pa h
  rw [← hpa,va2pa_offset,toNat_ofNat,Nat.mod_eq_of_lt hva]

lemma translate_page (va wa pa : ℕ) (hpage : wa/2^22 = va/2^22) (h : translate t pid va = some pa)
    :
    translate t pid wa = some (pa/2^22*2^22+wa%2^22) := by
  obtain ⟨hva,hused,hpa⟩ := translate_some t pid va pa h
  have hwa : wa < 2^64 := by omega
  have hto : (ofNat 64 wa).toNat/2^22 = (ofNat 64 va).toNat/2^22 := by
    rw [toNat_ofNat,toNat_ofNat,Nat.mod_eq_of_lt hva,Nat.mod_eq_of_lt hwa,hpage]
  have htag : fetchTag t (genTag pid (ofNat 64 wa)) =
      fetchTag t (genTag pid (ofNat 64 va)) :=
    fetch_tag_page t _ _ (gen_tag_page pid _ _ hto)
  have hoff := va2pa_offset (fetchTag t (genTag pid (ofNat 64 va))) (ofNat 64 wa)
  have hq := va2pa_page (fetchTag t (genTag pid (ofNat 64 va))) _ _ hto
  rw [toNat_ofNat,Nat.mod_eq_of_lt hwa] at hoff
  rw [hpa] at hq
  rw [translate,if_pos hwa,htag]
  simp only [hused,if_true]
  rw [← hq,← hoff,Nat.div_add_mod']

def Isolated (t : HashTable) (header : LegoMemAccessHeader) (cmd : AxiStreamDMACommand) : Prop :=
  ∀ j < cmd.len.toNat, ∃ k < header.length.toNat,
    translate t header.header.pid (header.addr.toNat+k) = some (cmd.addr.toNat+j)

lemma first_page_isolated (va pa j : ℕ) (h : translate t pid va = some pa) (hj : va%2^22+j < 2^22)
    :
    translate t pid (va+j) = some (pa+j) := by
  have hoff := translate_offset t pid va pa h
  rw [translate_page t pid va (va+j) pa (by omega) h]
  exact congrArg some (by omega)

lemma length_le (header : LegoMemAccessHeader) :
    (header.length.setWidth 16).toNat ≤ header.length.toNat := by
  rw [BitVec.toNat_setWidth]
  exact Nat.mod_le _ _

lemma crossing_page (va pa len length : ℕ) (h : translate t pid va = some pa) (hlen : len < 2^16)
    (hcross : 2^22 < va%2^22+len)
    (hall : ∀ j < len, ∃ k < length, translate t pid (va+k) = some (pa+j)) :
    ∃ m, len+m*2^22 ≤ length ∧ translate t pid ((va/2^22+1+m)*2^22) = some ((pa/2^22+1)*2^22) := by
  have hoff := translate_offset t pid va pa h
  obtain ⟨k,hk,hlast⟩ := hall (len-1) (by omega)
  have hlastoff := translate_offset t pid _ _ hlast
  have hne : (va+k)/2^22 ≠ va/2^22 := by
    intro hpage
    have hsame := translate_page t pid va (va+k) pa hpage h
    rw [hlast] at hsame
    have := Option.some.inj hsame
    omega
  obtain ⟨m,hm⟩ : ∃ m, (va+k)/2^22 = va/2^22+1+m := ⟨(va+k)/2^22-va/2^22-1,by omega⟩
  refine ⟨m,by omega,?_⟩
  rw [translate_page t pid (va+k) ((va/2^22+1+m)*2^22) _ (by omega) hlast]
  exact congrArg some (by omega)

lemma second_page_isolated (va pa j m : ℕ) (h : translate t pid va = some pa)
    (hj : 2^22 ≤ va%2^22+j) (hj2 : va%2^22+j < 2*2^22)
    (hnext : translate t pid ((va/2^22+1+m)*2^22) = some ((pa/2^22+1)*2^22)) :
    translate t pid (va+(j+m*2^22)) = some (pa+j) := by
  have hoff := translate_offset t pid va pa h
  rw [translate_page t pid _ (va+(j+m*2^22)) _ (by omega) hnext]
  exact congrArg some (by omega)

/-- A command touches only its own bytes exactly when it stays in pages of the request. -/
theorem dma_isolated_iff (t : HashTable) (pte : PageTableEntry) (header : LegoMemAccessHeader)
    (cmd : AxiStreamDMACommand) (hcmd : (memoryAccessUnit pte header).Issues cmd)
    (hpte : translate t header.header.pid header.addr.toNat =
      some (va2pa pte header.addr).toNat) :
    Isolated t header cmd ↔
      header.addr.toNat%2^22+header.length.toNat%2^16 ≤ 2^22 ∨
        ∃ m pa, header.length.toNat%2^16+m*2^22 ≤ header.length.toNat ∧
          translate t header.header.pid header.addr.toNat = some pa ∧
          translate t header.header.pid ((header.addr.toNat/2^22+1+m)*2^22) =
            some ((pa/2^22+1)*2^22) := by
  rw [issues_command pte header cmd hcmd]
  have hlen := length_le header
  have hmod := BitVec.toNat_setWidth 16 header.length
  simp only [Isolated,assignFromJoin]
  constructor
  · intro hall
    by_cases hcross : header.addr.toNat%2^22+header.length.toNat%2^16 ≤ 2^22
    · exact Or.inl hcross
    · right
      rw [hmod] at hall
      obtain ⟨m,hm,hnext⟩ :=
        crossing_page t _ _ _ _ _ hpte (Nat.mod_lt _ (by norm_num)) (by omega) hall
      exact ⟨m,_,hm,hpte,hnext⟩
  · intro hcond j hj
    by_cases hfirst : header.addr.toNat%2^22+j < 2^22
    · exact ⟨j,by omega,first_page_isolated t _ _ _ j hpte hfirst⟩
    · rcases hcond with hfit | ⟨m,pa,hm,hpa,hnext⟩
      · omega
      · rw [hpte] at hpa
        obtain rfl := Option.some.inj hpa
        exact ⟨j+m*2^22,by omega,second_page_isolated t _ _ _ j m hpte (by omega) (by omega) hnext⟩

/-- Processes 1 and 2 own the neighbouring pages `0x400000` and `0x800000`. -/
def twoProcesses : HashTable := fun b l i =>
  if b = 1 ∧ l = 0 ∧ i = 0 then ⟨0x540000000#40, 0, true, true, genTag 1 0x400000⟩
  else if b = 2 ∧ l = 0 ∧ i = 0 then ⟨0x540400000#40, 0, true, true, genTag 2 0x800000⟩
  else emptyBits

def readHeader (addr : BitVec 64) (length : BitVec 32) : LegoMemAccessHeader where
  header := ⟨1, 0, RequestType.READ, 0, false, false, 0, 0, 0, 0, 0, 0, 0⟩
  addr := addr
  length := length

theorem dma_isolated_inside_page :
    Isolated twoProcesses (readHeader 0x7fffc0 64) ⟨0x5407fffc0-0x400000, 64⟩ :=
  (dma_isolated_iff twoProcesses (fetchTag twoProcesses (genTag 1 0x7fffc0))
    (readHeader 0x7fffc0 64) ⟨0x5407fffc0-0x400000, 64⟩
    (by unfold Output.Issues; decide) (by decide)).mpr (Or.inl (by decide))

/-- A read across the end of a page is `OKAY` and returns a byte of another process. -/
theorem dma_reads_other_process :
    ∃ cmd, (memoryAccessUnit (fetchTag twoProcesses (genTag 1 0x7fffff))
          (readHeader 0x7fffff 2)).Issues cmd ∧
      (memoryAccessUnit (fetchTag twoProcesses (genTag 1 0x7fffff))
          (readHeader 0x7fffff 2)).headerOut.header.reqStatus = RequestStatus.OKAY ∧
      translate twoProcesses 1 0x7fffff = some cmd.addr.toNat ∧
      translate twoProcesses 2 0x800000 = some (cmd.addr.toNat+1) ∧
      ¬Isolated twoProcesses (readHeader 0x7fffff 2) cmd := by
  refine ⟨⟨0x5403fffff,2⟩,by unfold Output.Issues; decide,by decide,by decide,by decide,?_⟩
  intro h
  obtain ⟨k,hk,hk'⟩ := h 1 (by decide)
  have hk2 : k < 2 := hk
  interval_cases k <;> revert hk' <;> decide

end Clio.MemoryAccess
