import Clio.FetchUnit
import Clio.Pgtable

/-!
# Where the two sides keep a page table entry

The board processor writes an entry through a mapping, the fetch unit reads the bucket.
-/

namespace Clio.Placement

open CoreMemTypes FetchUnit VmArea Pgtable

def ddrBaseAddr : ℕ := 0x500000000

def hashtableBaseAddr : ℕ := ddrBaseAddr+512*2^20

def pteFullBytes : ℕ := 16

def ptePerBucket : ℕ := 16

def inBucketAddrWidth : ℕ := Nat.log2 (pteFullBytes*ptePerBucket)

def getBucketAddr (bucketNum : BitVec 9) : BitVec 40 :=
  BitVec.ofNat 40 hashtableBaseAddr+bucketNum.setWidth 40 <<< inBucketAddrWidth

def readAddr (pid : BitVec 16) (va : BitVec 64) : BitVec 40 :=
  getBucketAddr (hashFunc (genTag pid va))

def fpgaMemoryMapPgtableStart : ℕ := fpgaMemoryMapMappingBase+0x20000000

def fpgaMemoryMapPgtableEnd : ℕ := fpgaMemoryMapMappingBase+0x40000000

def sizeofPte : ℕ := 16

def sizeofBucket : ℕ := sizeofPte*fpgaNumPtePerBucket

/-- The board address of the bucket, with the check against the end of the table. -/
def addrToBucket (addr : ℕ) : Except Fault ℕ :=
  let bucket := fpgaMemoryMapPgtableStart+addrToBucketIndex addr*sizeofBucket
  if bucket ≥ fpgaMemoryMapPgtableEnd then .error .bug else .ok bucket

def storedTag (pid : BitVec 16) (va : BitVec 64) : BitVec 60 :=
  BitVec.ofNat 60 (generateTag pid.toNat va.toNat)

variable (pid : BitVec 16) (va : BitVec 64)

lemma stored_tag_eq : storedTag pid va = genTag pid va := by
  have hp := pid.isLt
  have hv := va.isLt
  apply BitVec.eq_of_toNat_eq
  rw [storedTag,BitVec.toNat_ofNat,gen_tag_value,generateTag]
  omega

lemma stored_tag_match (qid : BitVec 16) (va wa : BitVec 64) :
    tagMatch 0 (storedTag pid va) (genTag qid wa) = true ↔
      qid = pid ∧ wa.toNat/2^22 = va.toNat/2^22 := by
  rw [stored_tag_eq,tag_match_zero,gen_tag_page_iff]
  exact ⟨fun h => ⟨h.1.symm,h.2.symm⟩,fun h => ⟨h.1.symm,h.2.symm⟩⟩

lemma bucket_addr_value (bucketNum : BitVec 9) :
    (getBucketAddr bucketNum).toNat = 0x520000000+bucketNum.toNat*256 := by
  have hb := bucketNum.isLt
  have hw : inBucketAddrWidth = 8 := by decide
  have hbase : hashtableBaseAddr = 0x520000000 := by decide
  rw [getBucketAddr,hw,hbase,BitVec.toNat_add,BitVec.toNat_shiftLeft,BitVec.toNat_setWidth,
    BitVec.toNat_ofNat,Nat.shiftLeft_eq]
  omega

lemma read_addr_value : (readAddr pid va).toNat = 0x520000000+va.toNat/2^22%2^9*256 := by
  have hv := va.isLt
  rw [readAddr,bucket_addr_value,hash_value,gen_tag_value]
  omega

lemma addr_to_bucket_ok (addr : ℕ) :
    addrToBucket addr = .ok (0x520000000+addr/2^22%2^15*256) := by
  have hstart : fpgaMemoryMapPgtableStart = 0x520000000 := by decide
  have hend : fpgaMemoryMapPgtableEnd = 0x540000000 := by decide
  have hsize : sizeofBucket = 256 := by decide
  have hindex : addrToBucketIndex addr = addr/2^22%2^15 := rfl
  rw [addrToBucket,hstart,hend,hsize,hindex]
  exact if_neg (by omega)

/-- The tag finds the entry of the page alone, in the bucket that was written. -/
def Agrees (pid : BitVec 16) (va : BitVec 64) : Prop :=
  (∀ qid wa, tagMatch 0 (storedTag pid va) (genTag qid wa) = true ↔
    qid = pid ∧ wa.toNat/2^22 = va.toNat/2^22) ∧
      addrToBucket va.toNat = .ok (readAddr pid va).toNat

/-- The two agree exactly when the page number modulo `2^15` is below the 512 buckets. -/
theorem agrees_iff (pid : BitVec 16) (va : BitVec 64) :
    Agrees pid va ↔ va.toNat/2^22%2^15 < 512 := by
  have hbucket : addrToBucket va.toNat = .ok (readAddr pid va).toNat ↔
      va.toNat/2^22%2^15 < 512 := by
    rw [addr_to_bucket_ok,read_addr_value,Except.ok.injEq]
    omega
  constructor
  · intro h
    exact hbucket.mp h.2
  · intro h
    exact ⟨fun qid wa => stored_tag_match pid qid va wa,hbucket.mpr h⟩

/-- The page at 2 GiB is written to bucket 512 and looked up in bucket 0. -/
theorem second_gigabytes_apart :
    ¬Agrees 1 0x80000000 ∧ addrToBucket 0x80000000 = .ok 0x520020000 ∧
      (readAddr 1 0x80000000).toNat = 0x520000000 := by
  have hread : (readAddr 1 0x80000000).toNat = 0x520000000 := by decide
  have hwrite : addrToBucket 0x80000000 = .ok 0x520020000 := by decide
  refine ⟨?_,hwrite,hread⟩
  intro h
  have heq := h.2
  rw [hread] at heq
  exact absurd (Except.ok.inj (hwrite.symm.trans heq)) (by decide)

end Clio.Placement
