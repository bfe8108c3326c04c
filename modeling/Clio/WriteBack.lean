import Clio.Placement

/-!
# Where a fault is written back

The entry of a page fault goes back to the hash table in board memory.
-/

namespace Clio.WriteBack

/-- The table has `2^bucketNumberWidth` buckets of `2^logPtePerBucket` entries of 16 bytes. -/
structure Geometry where
  bucketNumberWidth : ℕ
  logPtePerBucket : ℕ
  physicalAddrWidth : ℕ
  hashtableBaseAddr : BitVec physicalAddrWidth
  lines : 2 ≤ logPtePerBucket
  aligned : hashtableBaseAddr.toNat%64 = 0
  fits : hashtableBaseAddr.toNat+2^bucketNumberWidth*2^(logPtePerBucket+4) ≤ 2^physicalAddrWidth

namespace Geometry

variable (g : Geometry)

def ptePerBucket : ℕ := 2^g.logPtePerBucket

def ptePerLine : ℕ := 4

def linePerBucket : ℕ := g.ptePerBucket/ptePerLine

def inBucketAddrWidth : ℕ := g.logPtePerBucket+4

def getBucketAddr (bucketNum : BitVec g.bucketNumberWidth) : BitVec g.physicalAddrWidth :=
  g.hashtableBaseAddr+BitVec.ofNat g.physicalAddrWidth (bucketNum.toNat*2^g.inBucketAddrWidth)

def pteAddr (bucket : BitVec g.bucketNumberWidth) (i : ℕ) : BitVec g.bucketNumberWidth :=
  bucket+BitVec.ofNat g.bucketNumberWidth i <<< 4

def nextPlace (isMatch : ℕ → Bool) (pteReg : Option (ℕ × ℕ)) (line : ℕ) : Option (ℕ × ℕ) :=
  match (List.range ptePerLine).find? (fun i => isMatch (ptePerLine*line+i)) with
  | some i => some (line,i)
  | none => pteReg

def found (isMatch : ℕ → Bool) : Option (ℕ × ℕ) :=
  (List.range g.linePerBucket).foldl (nextPlace isMatch) none

end Geometry

def bytePerWord : ℕ := 64

def shiftWidth (addr : ℕ) : ℕ := addr &&& (2^(bytePerWord%32)-1)

structure BusWrite (width : ℕ) where
  addr : BitVec width
  data : BitVec 512
  deriving DecidableEq, Repr

def BusWrite.stored {width : ℕ} (w : BusWrite width) : BitVec 128 :=
  w.data.extractLsb' (8*(w.addr.toNat%bytePerWord)) 128

/-- The writer and the adapter. -/
def writeBack (g : Geometry) (pteAddr : BitVec g.bucketNumberWidth) (pte : BitVec 128) :
    BusWrite g.physicalAddrWidth :=
  let addr := g.getBucketAddr pteAddr
  ⟨addr,pte.setWidth 512 <<< shiftWidth addr.toNat⟩

/-- The write stores the entry in slot `s` of bucket `b`. -/
def Hits (g : Geometry) (w : BusWrite g.physicalAddrWidth) (b : BitVec g.bucketNumberWidth) (s : ℕ)
    (pte : BitVec 128) : Prop :=
  w.addr.toNat = g.hashtableBaseAddr.toNat+b.toNat*g.ptePerBucket*16+s*16 ∧ w.stored = pte

instance (g : Geometry) (w : BusWrite g.physicalAddrWidth) (b : BitVec g.bucketNumberWidth) (s : ℕ)
    (pte : BitVec 128) : Decidable (Hits g w b s pte) := inferInstanceAs (Decidable (_ ∧ _))

lemma shift_width_zero (addr : ℕ) : shiftWidth addr = 0 := Nat.and_zero addr

section

variable (g : Geometry)

variable (bucketNum : BitVec g.bucketNumberWidth)

lemma bucket_addr_nat :
    (g.getBucketAddr bucketNum).toNat =
      g.hashtableBaseAddr.toNat+bucketNum.toNat*(g.ptePerBucket*16) := by
  have hwidth : 2^g.inBucketAddrWidth = g.ptePerBucket*16 := Nat.pow_add 2 g.logPtePerBucket 4
  have hlt : bucketNum.toNat*2^g.inBucketAddrWidth <
      2^g.bucketNumberWidth*2^(g.logPtePerBucket+4) :=
    Nat.mul_lt_mul_of_pos_right bucketNum.isLt (Nat.two_pow_pos _)
  have hfits := g.fits
  rw [Geometry.getBucketAddr,BitVec.toNat_add,BitVec.toNat_ofNat,
    Nat.mod_eq_of_lt (show bucketNum.toNat*2^g.inBucketAddrWidth < _ by omega),
    Nat.mod_eq_of_lt (by omega),hwidth]

lemma bucket_aligned : (g.getBucketAddr bucketNum).toNat%64 = 0 := by
  obtain ⟨n,hn⟩ := Nat.exists_eq_add_of_le g.lines
  have hslots : g.ptePerBucket = 4*2^n := by
    rw [Geometry.ptePerBucket,hn,Nat.pow_add]
  have haligned := g.aligned
  rw [bucket_addr_nat,hslots,show bucketNum.toNat*(4*2^n*16) = 64*(bucketNum.toNat*2^n) by ring]
  omega

lemma found_place (isMatch : ℕ → Bool) (line i : ℕ) (h : g.found isMatch = some (line,i)) :
    line < g.linePerBucket ∧ i < Geometry.ptePerLine := by
  have hscan : ∀ (ls : List ℕ) (reg : Option (ℕ × ℕ)),
      ls.foldl (Geometry.nextPlace isMatch) reg = some (line,i) →
      (line ∈ ls ∧ i < Geometry.ptePerLine) ∨ reg = some (line,i) := by
    intro ls
    induction ls with
    | nil => exact fun reg hreg => .inr hreg
    | cons l ls ih =>
      intro reg hreg
      rw [List.foldl_cons] at hreg
      rcases ih _ hreg with ⟨hmem,hrest⟩ | hlast
      · exact .inl ⟨List.mem_cons_of_mem l hmem,hrest⟩
      · unfold Geometry.nextPlace at hlast
        cases hfind : (List.range Geometry.ptePerLine).find?
            (fun i => isMatch (Geometry.ptePerLine*l+i)) with
        | none =>
          rw [hfind] at hlast
          exact .inr hlast
        | some k =>
          rw [hfind] at hlast
          cases hlast
          exact .inl ⟨List.mem_cons_self,List.mem_range.mp (List.mem_of_find?_eq_some hfind)⟩
  rcases hscan (List.range g.linePerBucket) none h with ⟨hmem,hrest⟩ | hnone
  · exact ⟨List.mem_range.mp hmem,hrest⟩
  · cases hnone

lemma slot_lt {line i : ℕ} (hline : line < g.linePerBucket) (hi : i < Geometry.ptePerLine) :
    Geometry.ptePerLine*line+i < g.ptePerBucket := by
  have hlines : Geometry.ptePerLine*g.linePerBucket ≤ g.ptePerBucket := Nat.mul_div_le _ _
  have hnext : Geometry.ptePerLine*(line+1) ≤ Geometry.ptePerLine*g.linePerBucket :=
    Nat.mul_le_mul_left _ hline
  rw [Nat.mul_succ] at hnext
  omega

lemma first_slot {slots x b s : ℕ} (hs : s < slots) (h : x*(slots*16) = b*slots*16+s*16) :
    s = 0 := by
  have hmul : x*slots = b*slots+s := by
    apply Nat.eq_of_mul_eq_mul_right (show 0 < 16 by decide)
    rw [Nat.add_mul,← h,Nat.mul_assoc]
  have hmod := congrArg (·%slots) hmul
  simpa [Nat.mod_eq_of_lt hs] using hmod.symm

lemma pte_addr_zero (b : BitVec g.bucketNumberWidth) : g.pteAddr b 0 = b := by
  simp [Geometry.pteAddr]

/-- An entry is written back to its slot exactly when that is the first of the bucket. -/
theorem fault_written_back_iff (b : BitVec g.bucketNumberWidth) (isMatch : ℕ → Bool) (line i : ℕ)
    (hfound : g.found isMatch = some (line,i)) (pte : BitVec 128) :
    Hits g (writeBack g (g.pteAddr b i) pte) b (Geometry.ptePerLine*line+i) pte ↔
      Geometry.ptePerLine*line+i = 0 := by
  obtain ⟨hline,hi⟩ := found_place g isMatch line i hfound
  constructor
  · rintro ⟨haddr,-⟩
    have hvalue : (writeBack g (g.pteAddr b i) pte).addr.toNat =
        g.hashtableBaseAddr.toNat+(g.pteAddr b i).toNat*(g.ptePerBucket*16) :=
      bucket_addr_nat g (g.pteAddr b i)
    rw [haddr,Nat.add_assoc] at hvalue
    exact first_slot (slot_lt g hline hi) (Nat.add_left_cancel hvalue).symm
  · intro hzero
    have hplace : i = 0 := by omega
    have haligned := bucket_aligned g b
    subst hplace
    rw [pte_addr_zero]
    refine ⟨?_,?_⟩
    · rw [hzero,writeBack]
      dsimp only
      rw [bucket_addr_nat,Nat.mul_assoc,Nat.zero_mul,Nat.add_zero]
    · rw [BusWrite.stored,writeBack]
      dsimp only
      rw [bytePerWord,haligned,shift_width_zero]
      ext k hk
      simp [hk]
      omega

end

lemma core_mem_lines : 2 ≤ 4 := by decide

def coreMem : Geometry where
  bucketNumberWidth := 9
  logPtePerBucket := 4
  physicalAddrWidth := 40
  hashtableBaseAddr := BitVec.ofNat 40 Placement.hashtableBaseAddr
  lines := core_mem_lines
  aligned := by decide
  fits := by decide

lemma core_mem_agrees (b : BitVec 9) (i : Fin 4) :
    coreMem.pteAddr b i.val = FetchUnit.pteAddr b i ∧
      coreMem.getBucketAddr b = Placement.getBucketAddr b := by
  refine ⟨rfl,?_⟩
  apply BitVec.eq_of_toNat_eq
  exact (bucket_addr_nat coreMem b).trans (Placement.bucket_addr_value b).symm

/-- The entry in the first slot goes back to its place. -/
theorem first_slot_written_back :
    Hits coreMem (writeBack coreMem (coreMem.pteAddr 3 0) 5) 3 0 5 :=
  (fault_written_back_iff coreMem 3 (fun s => s == 0) 0 0 (by decide +kernel) 5).mpr rfl

/-- The second slot of bucket 3 goes to bucket 19, the fifth to the first slot of bucket 3. -/
theorem other_slots_lost :
    coreMem.found (fun s => s == 1) = some (0,1) ∧
    ¬Hits coreMem (writeBack coreMem (coreMem.pteAddr 3 1) 5) 3 1 5 ∧
    Hits coreMem (writeBack coreMem (coreMem.pteAddr 3 1) 5) 19 0 5 ∧
    coreMem.found (fun s => s == 4) = some (1,0) ∧
    ¬Hits coreMem (writeBack coreMem (coreMem.pteAddr 3 0) 5) 3 4 5 ∧
    Hits coreMem (writeBack coreMem (coreMem.pteAddr 3 0) 5) 3 0 5 :=
  ⟨by decide +kernel,by decide +kernel,by decide +kernel,by decide +kernel,by decide +kernel,
    by decide +kernel⟩

end Clio.WriteBack
