import Mathlib

/-!
# Words of the core memory pipeline

Widths, request codes, page table entries and address arithmetic of the FPGA memory pipeline.
-/

namespace Clio.CoreMemTypes

open BitVec (allOnes getLsbD_allOnes getLsbD_and getLsbD_of_ge testBit_toNat)

def tagOffset : ℕ := 20

def pageSizes : List ℕ := [4*2^20, 16*2^20, 64*2^20]

def pageOffsets : List ℕ := pageSizes.map Nat.log2

namespace RequestType

def INVALID : BitVec 8 := 0x00#8
def READ : BitVec 8 := 0x40#8
def READ_RESP : BitVec 8 := 0x41#8
def READ_MIG : BitVec 8 := 0x45#8
def WRITE : BitVec 8 := 0x50#8
def WRITE_RESP : BitVec 8 := 0x51#8
def CACHE_SHOOTDOWN : BitVec 8 := 0x70#8

def resp (u : BitVec 8) : BitVec 8 :=
  if u = READ then READ_RESP else if u = WRITE then WRITE_RESP
    else if u = READ_MIG then WRITE else INVALID

end RequestType

namespace RequestStatus

def OKAY : BitVec 4 := 0#4
def ERR_INVALID : BitVec 4 := 1#4

end RequestStatus

structure LegoMemHeader where
  pid : BitVec 16
  tag : BitVec 8
  reqType : BitVec 8
  reqStatus : BitVec 4
  flagRoute : Bool
  flagRepl : Bool
  rsvd : BitVec 2
  seqId : BitVec 8
  size : BitVec 16
  cont : BitVec 16
  srcPort : BitVec 8
  destPort : BitVec 8
  destIp : BitVec 32
  deriving DecidableEq, Repr

structure LegoMemAccessHeader where
  header : LegoMemHeader
  addr : BitVec 64
  length : BitVec 32
  deriving DecidableEq, Repr

def packedBytes : BitVec 16 := 28#16

/-- An entry in the pipeline; `pteAddr` is its place in the units of `getBucketAddr`. -/
structure PageTableEntry where
  seqId : BitVec 16
  used : Bool
  allocated : Bool
  pageType : BitVec 2
  ppa : BitVec 40
  tag : BitVec 60
  pteAddr : BitVec 9
  deriving DecidableEq, Repr

def emptyPte : PageTableEntry := ⟨0, false, false, 0, 0, 0, 0⟩

def genTag (pid : BitVec 16) (va : BitVec 64) : BitVec 60 :=
  ((pid ++ va) >>> tagOffset).setWidth 60

def tag2fullTag (tag : BitVec 60) : BitVec 80 := tag ++ 0#20

def fullTagMasks : List (BitVec 80) := pageOffsets.map (fun i => BitVec.allOnes 80 <<< i)

def getFullTagMask (pageType : BitVec 2) : BitVec 80 :=
  fullTagMasks.getD pageType.toNat 0

def getTagMask (pageType : BitVec 2) : BitVec 60 :=
  (getFullTagMask pageType >>> tagOffset).setWidth 60

def getPAMask (pageType : BitVec 2) : BitVec 40 := (getFullTagMask pageType).setWidth 40

def va2pa (pte : PageTableEntry) (va : BitVec 64) : BitVec 40 :=
  (pte.ppa &&& getPAMask pte.pageType) ||| (va.setWidth 40 &&& ~~~(getPAMask pte.pageType))

def tagMatch (pageType : BitVec 2) (tag input : BitVec 60) : Bool :=
  getTagMask pageType &&& (tag ^^^ input) == 0

def pageOffset (pageType : BitVec 2) : ℕ := pageOffsets.getD pageType.toNat 40

variable (pageType : BitVec 2)

lemma page_offset_bounds : 22 ≤ pageOffset pageType ∧ pageOffset pageType ≤ 40 := by
  revert pageType
  decide

lemma pa_mask_shift : getPAMask pageType = allOnes 40 <<< pageOffset pageType := by
  revert pageType
  decide

variable (x : BitVec 40)

lemma mask_high (o : ℕ) : (x &&& (allOnes 40 <<< o)).toNat = x.toNat/2^o*2^o := by
  apply Nat.eq_of_testBit_eq
  intro i
  rw [Nat.testBit_mul_two_pow,Nat.testBit_div_two_pow,testBit_toNat,testBit_toNat,
    getLsbD_and,BitVec.getLsbD_shiftLeft,getLsbD_allOnes]
  by_cases ho : o ≤ i
  · rw [show i-o+o = i by omega]
    by_cases hi : i < 40
    · simp [ho,hi,show i-o < 40 by omega]
    · simp [getLsbD_of_ge x i (by omega)]
  · simp [ho]

lemma mask_low (o : ℕ) : (x &&& ~~~(allOnes 40 <<< o)).toNat = x.toNat%2^o := by
  apply Nat.eq_of_testBit_eq
  intro i
  rw [Nat.testBit_mod_two_pow,testBit_toNat,testBit_toNat,
    getLsbD_and,BitVec.getLsbD_not,BitVec.getLsbD_shiftLeft,getLsbD_allOnes]
  by_cases hi : i < 40
  · by_cases ho : i < o
    · simp [hi,ho]
    · simp [hi,ho]
      omega
  · simp [hi,getLsbD_of_ge x i (by omega)]

variable (pte : PageTableEntry) (va : BitVec 64)

lemma va2pa_value :
    (va2pa pte va).toNat = pte.ppa.toNat/2^pageOffset pte.pageType*2^pageOffset pte.pageType
        + va.toNat%2^pageOffset pte.pageType := by
  have ho := (page_offset_bounds pte.pageType).2
  have hlow : va.toNat%2^40%2^pageOffset pte.pageType = va.toNat%2^pageOffset pte.pageType :=
    Nat.mod_mod_of_dvd _ (pow_dvd_pow 2 ho)
  rw [va2pa,pa_mask_shift,BitVec.toNat_or,mask_high,mask_low,BitVec.toNat_setWidth,hlow,
    mul_comm,← Nat.two_pow_add_eq_or_of_lt (Nat.mod_lt _ (Nat.two_pow_pos _))]

lemma va2pa_offset : (va2pa pte va).toNat%2^22 = va.toNat%2^22 := by
  have hd : 2^22 ∣ 2^pageOffset pte.pageType := pow_dvd_pow 2 (page_offset_bounds pte.pageType).1
  obtain ⟨c,hc⟩ := hd
  rw [va2pa_value,Nat.add_mod,Nat.mod_mod_of_dvd _ ⟨c,hc⟩,
    Nat.mod_eq_zero_of_dvd (Dvd.dvd.mul_left ⟨c,hc⟩ _)]
  simp

lemma va2pa_page (wa : BitVec 64) (h : va.toNat/2^22 = wa.toNat/2^22) :
    (va2pa pte va).toNat/2^22 = (va2pa pte wa).toNat/2^22 := by
  obtain ⟨c,hc⟩ : ∃ c, pageOffset pte.pageType = 22+c :=
    ⟨_,(Nat.add_sub_of_le (page_offset_bounds pte.pageType).1).symm⟩
  have hp : (2:ℕ)^pageOffset pte.pageType = 2^22*2^c := by rw [hc,pow_add]
  have hm : ∀ x : ℕ, x%(2^22*2^c)/2^22 = x/2^22%2^c := fun x => Nat.mod_mul_right_div_self x _ _
  have hq : ∀ x y : ℕ, (x*(2^22*2^c)+y)/2^22 = x*2^c+y/2^22 := by
    intro x y
    rw [show x*(2^22*2^c) = x*2^c*2^22 by ring,add_comm,Nat.add_mul_div_right _ _ (by norm_num),
      add_comm]
  rw [va2pa_value,va2pa_value,hp,hq,hq,hm,hm,h]

lemma tag_mask_bits : getTagMask pageType = getTagMask pageType >>> 2 <<< 2 := by
  revert pageType
  decide

lemma tag_match_page (tag s t : BitVec 60) (h : s >>> 2 = t >>> 2) :
    tagMatch pageType tag s = tagMatch pageType tag t := by
  have hx : getTagMask pageType &&& (tag ^^^ s) = getTagMask pageType &&& (tag ^^^ t) := by
    rw [tag_mask_bits]
    apply BitVec.eq_of_getLsbD_eq
    intro i hi
    by_cases h2 : i < 2
    · simp [h2]
    · have hb := congrArg (fun b => b.getLsbD (i-2)) h
      simp only [BitVec.getLsbD_ushiftRight,show 2+(i-2) = i by omega] at hb
      simp [hb]
  rw [tagMatch,tagMatch,hx]

lemma tag_mask_zero : getTagMask 0 = allOnes 60 <<< 2 := by decide

lemma mask_zero_iff (x : BitVec 60) (o : ℕ) :
    allOnes 60 <<< o &&& x = 0 ↔ x >>> o = 0 := by
  constructor
  · intro h
    apply BitVec.eq_of_getLsbD_eq
    intro i hi
    rw [BitVec.getLsbD_ushiftRight,add_comm]
    by_cases hlt : i+o < 60
    · have hb := congrArg (fun b => b.getLsbD (i+o)) h
      simp only [getLsbD_and,BitVec.getLsbD_shiftLeft,getLsbD_allOnes] at hb
      simpa [hlt,hi] using hb
    · simp [getLsbD_of_ge x (i+o) (by omega)]
  · intro h
    apply BitVec.eq_of_getLsbD_eq
    intro i hi
    by_cases ho : i < o
    · simp [ho]
    · have hb := congrArg (fun b => b.getLsbD (i-o)) h
      simp [show o+(i-o) = i by omega] at hb
      simp [hb]

lemma tag_match_zero (s t : BitVec 60) : tagMatch 0 s t = true ↔ s >>> 2 = t >>> 2 := by
  rw [tagMatch,beq_iff_eq,tag_mask_zero,mask_zero_iff,BitVec.ushiftRight_xor_distrib]
  exact BitVec.xor_eq_zero_iff

variable (pid : BitVec 16)

lemma gen_tag_value (va : BitVec 64) : (genTag pid va).toNat = pid.toNat*2^44+va.toNat/2^20 := by
  have hp := pid.isLt
  have hv := va.isLt
  rw [genTag,BitVec.toNat_setWidth,BitVec.toNat_ushiftRight,BitVec.toNat_append,
    Nat.shiftRight_eq_div_pow,← Nat.shiftLeft_add_eq_or_of_lt hv,Nat.shiftLeft_eq,tagOffset]
  omega

lemma gen_tag_page_iff (qid : BitVec 16) (va wa : BitVec 64) :
    genTag pid va >>> 2 = genTag qid wa >>> 2 ↔ pid = qid ∧ va.toNat/2^22 = wa.toNat/2^22 := by
  have hva := va.isLt
  have hwa := wa.isLt
  rw [← BitVec.toNat_inj,← BitVec.toNat_inj]
  simp only [BitVec.toNat_ushiftRight,Nat.shiftRight_eq_div_pow,gen_tag_value]
  omega

lemma gen_tag_page (va wa : BitVec 64) (h : va.toNat/2^22 = wa.toNat/2^22) :
    genTag pid va >>> 2 = genTag pid wa >>> 2 :=
  (gen_tag_page_iff pid pid va wa).mpr ⟨rfl,h⟩

end Clio.CoreMemTypes
