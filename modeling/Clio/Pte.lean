import Clio.VmFree

/-!
# The entries of the page tables

Both tables have the same entries, and the free count of a bucket is right.
-/

namespace Clio.Pte

open Function VmArea Buddy Pgtable VmRegion VmFree

section

variable (t : Table) (b : ℕ) (i : Fin 16) (pte : LegoMemPte)

lemma pte_set (c : ℕ) (j : Fin 16) :
    setPte t b i pte c j = if c = b ∧ j = i then pte else t c j := by
  unfold setPte
  by_cases hc : c = b
  · subst hc
    by_cases hj : j = i
    · subst hj
      simp
    · simp [hj]
  · simp [hc]

def freeSlots : Finset (Fin 16) := Finset.univ.filter fun i => (t b i).allocated = false

variable {t b i pte}

lemma slots_other {c : ℕ} (h : c ≠ b) : freeSlots (setPte t b i pte) c = freeSlots t c := by
  unfold freeSlots
  simp only [pte_set,h,false_and,if_false]

lemma slots_alloc (pte : LegoMemPte) (hfree : (t b i).allocated = false)
    (h : pte.allocated = true) :
    (freeSlots (setPte t b i pte) b).card+1 = (freeSlots t b).card := by
  have hset : freeSlots (setPte t b i pte) b = (freeSlots t b).erase i := by
    ext j
    simp only [freeSlots,Finset.mem_filter,Finset.mem_univ,true_and,pte_set,Finset.mem_erase]
    by_cases hj : j = i <;> simp [hj,h]
  rw [hset]
  exact Finset.card_erase_add_one (by simp [freeSlots,hfree])

lemma slots_zap (pte : LegoMemPte) (hall : (t b i).allocated = true) (h : pte.allocated = false) :
    (freeSlots (setPte t b i pte) b).card = (freeSlots t b).card+1 := by
  have hset : freeSlots (setPte t b i pte) b = insert i (freeSlots t b) := by
    ext j
    simp only [freeSlots,Finset.mem_filter,Finset.mem_univ,true_and,pte_set,Finset.mem_insert]
    by_cases hj : j = i <;> simp [hj,h]
  rw [hset]
  exact Finset.card_insert_of_notMem (by simp [freeSlots,hall])

lemma free_slot_some {s : Soc} (h : (freeSlots s.shadow b).card ≠ 0) :
    ∃ i, freeSlot s b = some i ∧ (s.shadow b i).allocated = false := by
  obtain ⟨j,hj⟩ := Finset.card_ne_zero.mp h
  cases hf : freeSlot s b with
  | none =>
    have := List.find?_eq_none.mp hf j (List.mem_finRange j)
    simp [freeSlots] at hj
    simp [hj] at this
  | some i =>
    have := List.find?_some hf
    exact ⟨i,rfl,by simpa using this⟩

end

structure PtInv (s : Soc) : Prop where
  free : ∀ b, (s.info b).nrFree = (freeSlots s.shadow b).card
  sync : ∀ b i, (s.fpga b i).allocated = (s.shadow b i).allocated ∧
    (s.fpga b i).tag = (s.shadow b i).tag
  frames : ∀ b i, (s.fpga b i).valid = true → pfnInRange board (ppaToPfn (s.fpga b i).ppa)
  zone : ZoneOk board s.zone
  spare : s.globalSparePfn = 0 ∨ pfnInRange board s.globalSparePfn

lemma ppa_round (pfn : ℕ) (h : pfnInRange board pfn) :
    ppaToPfn (pfn*pageSize+fpgaMemoryMapMappingBase) = pfn := by
  have hlt : pfn < 512 := h.2
  unfold ppaToPfn sub64 fpgaMemoryMapMappingBase pageSize pageShift
  omega

section

variable {s : Soc} {b : ℕ} {i : Fin 16}

lemma alloc_fpga_spec (hz : ZoneOk board s.zone)
    (hspare : s.globalSparePfn = 0 ∨ pfnInRange board s.globalSparePfn) (vmFlags : ℕ)
    (hno : (s.fpga b i).allocated = false)
    (hframe : (s.fpga b i).valid = true → pfnInRange board (ppaToPfn (s.fpga b i).ppa)) :
    ∃ pte zone, allocOneFpgaPte s b i vmFlags = .ok (setFpga { s with zone := zone } b i pte) ∧
      pte.allocated = true ∧ pte.tag = (s.shadow b i).tag ∧ ZoneOk board zone ∧
      (pte.valid = true → pfnInRange board (ppaToPfn pte.ppa)) := by
  unfold allocOneFpgaPte
  simp only [hno,Bool.false_eq_true,if_false]
  by_cases hpop : vmFlags &&& vmFlagsPopulate ≠ 0
  · rw [if_pos hpop]
    obtain ⟨zone,free,halloc,hzone,hfree⟩ : ∃ zone free, allocPfn board s.zone 0 = .ok (zone,free) ∧
        ZoneOk board zone ∧ (free = 0 ∨ pfnInRange board free) := by
      cases hl : s.zone.freeList 0 with
      | nil => exact ⟨s.zone,0,alloc_pfn_empty rfl s.zone hl,hz,.inl rfl⟩
      | cons pfn rest =>
        obtain ⟨z,hrun,-,hzone⟩ := alloc_pfn_first rfl s.zone hz hl
        exact ⟨z,pfn,hrun,hzone,.inr (hz.range pfn (by simp [hl]))⟩
    have hpfn : populateFrame s vmFlags free = 0 ∨
        pfnInRange board (populateFrame s vmFlags free) := by
      unfold populateFrame
      split_ifs
      · exact hspare
      · exact hfree
    simp only [halloc,ok_bind]
    rcases hpfn with hzero | hin
    · rw [if_pos hzero]
      exact ⟨_,zone,rfl,rfl,rfl,hzone,hframe⟩
    · have hne : populateFrame s vmFlags free ≠ 0 := by
        intro h0
        rw [h0] at hin
        exact absurd hin.1 (by decide)
      rw [if_neg hne,if_pos hin]
      refine ⟨_,zone,rfl,rfl,rfl,hzone,?_⟩
      intro _
      rw [ppa_round _ hin]
      exact hin
  · rw [if_neg hpop]
    refine ⟨_,s.zone,rfl,rfl,rfl,hz,?_⟩
    intro h
    cases h

lemma alloc_fpga_mapped {vmFlags pfn : ℕ} {rest : List ℕ} (hz : ZoneOk board s.zone)
    (hno : ¬(s.fpga b i).allocated = true) (hpop : vmFlags &&& vmFlagsPopulate ≠ 0)
    (hl : s.zone.freeList 0 = pfn::rest) :
    pfnInRange board pfn ∧ ∃ zone, zone.freeList 0 = rest ∧ ZoneOk board zone ∧
      allocOneFpgaPte s b i vmFlags = .ok (setFpga { s with zone := zone } b i
        ⟨pfn*pageSize+fpgaMemoryMapMappingBase,true,true,(s.shadow b i).tag⟩) := by
  obtain ⟨zone,halloc,hrest,hzone⟩ := alloc_pfn_first rfl s.zone hz hl
  have hin : pfnInRange board pfn := hz.range pfn (by simp [hl])
  have hne : pfn ≠ 0 := by
    rintro rfl
    exact absurd hin.1 (by decide)
  refine ⟨hin,zone,hrest,hzone,?_⟩
  unfold allocOneFpgaPte
  dsimp only
  rw [if_neg hno,if_pos hpop,halloc,ok_bind]
  simp only [populateFrame,hne,false_and,if_false,if_pos hin]
  rfl

lemma alloc_fpga_unmapped {vmFlags : ℕ} (hno : ¬(s.fpga b i).allocated = true)
    (hpop : vmFlags &&& vmFlagsPopulate ≠ 0) (hspare : ¬vmFlags &&& vmFlagsUseSparePfn ≠ 0)
    (hl : s.zone.freeList 0 = []) :
    allocOneFpgaPte s b i vmFlags = .ok (setFpga s b i
      { s.fpga b i with allocated := true, tag := (s.shadow b i).tag }) := by
  unfold allocOneFpgaPte
  dsimp only
  rw [if_neg hno,if_pos hpop,alloc_pfn_empty rfl s.zone hl,ok_bind]
  simp only [populateFrame,hspare,and_false,if_false,if_true]
  rfl

/-- The state after an entry was taken for an address. -/
def taken (s : Soc) (pid addr : ℕ) (i : Fin 16) (pte : LegoMemPte) (zone : FpgaZone) : Soc :=
  let b := addrToBucketIndex addr
  { s with
    shadow := setPte s.shadow b i ⟨(s.shadow b i).ppa,true,false,generateTag pid addr⟩
    fpga := setPte s.fpga b i pte
    info := update s.info b { s.info b with nrFree := (s.info b).nrFree-1 }
    nrAllocatedPtes := s.nrAllocatedPtes+1
    zone := zone }

lemma alloc_pte_eq {pid addr : ℕ} (hslot : freeSlot s (addrToBucketIndex addr) = some i) :
    ∃ u, (u.shadow (addrToBucketIndex addr) i).tag = generateTag pid addr ∧ u.fpga = s.fpga ∧
      u.zone = s.zone ∧ u.globalSparePfn = s.globalSparePfn ∧
      (∀ pte zone, setFpga { u with zone := zone } (addrToBucketIndex addr) i pte =
        taken s pid addr i pte zone) ∧
      ∀ vmFlags, allocPte s pid addr vmFlags =
        allocOneFpgaPte u (addrToBucketIndex addr) i vmFlags := by
  unfold allocPte allocOneShadowPte
  simp only [hslot,Option.map_some]
  refine ⟨_,?_,?_,?_,?_,fun _ _ => ?_,fun _ => rfl⟩
  · simp [setPte]
  · rfl
  · rfl
  · rfl
  · rfl

lemma alloc_pte_spec (h : PtInv s) (pid addr vmFlags : ℕ)
    (hfree : (s.info (addrToBucketIndex addr)).nrFree ≠ 0) :
    ∃ i pte zone, allocPte s pid addr vmFlags = .ok (taken s pid addr i pte zone) ∧
      (s.shadow (addrToBucketIndex addr) i).allocated = false ∧ pte.allocated = true ∧
      pte.tag = generateTag pid addr ∧ PtInv (taken s pid addr i pte zone) := by
  have hcard : (freeSlots s.shadow (addrToBucketIndex addr)).card ≠ 0 := by
    rw [h.free] at hfree
    exact_mod_cast hfree
  obtain ⟨i,hslot,hno⟩ := free_slot_some hcard
  have hfpga := h.sync (addrToBucketIndex addr) i
  rw [hno] at hfpga
  obtain ⟨u,hushadow,hufpga,huzone,huspare,htaken,hpass⟩ := alloc_pte_eq hslot
  obtain ⟨pte,zone,hrun,hall,htag,hzone,hvalid⟩ := alloc_fpga_spec (s := u)
    (b := addrToBucketIndex addr) (i := i) (huzone ▸ h.zone) (huspare ▸ h.spare) vmFlags
    (hufpga ▸ hfpga.1) (hufpga ▸ h.frames _ i)
  rw [hushadow] at htag
  refine ⟨i,pte,zone,?_,hno,hall,htag,?_⟩
  · rw [hpass,hrun,htaken]
  · refine ⟨?_,?_,?_,hzone,h.spare⟩
    · intro c
      by_cases hc : c = addrToBucketIndex addr
      · subst hc
        have hcount := slots_alloc ⟨(s.shadow (addrToBucketIndex addr) i).ppa,true,false,
          generateTag pid addr⟩ hno rfl
        have hold := h.free (addrToBucketIndex addr)
        simp only [taken,update_self]
        omega
      · simp only [taken,update_of_ne hc,slots_other hc]
        exact h.free c
    · intro c j
      simp only [taken,pte_set]
      split
      · exact ⟨hall,htag⟩
      · exact h.sync c j
    · intro c j
      simp only [taken,pte_set]
      split
      · exact hvalid
      · exact h.frames c j

end

section

variable {s : Soc} {b : ℕ} {i : Fin 16}

lemma zap_pte_spec (hz : ZoneOk board s.zone) (hall : (s.fpga b i).allocated = true)
    (hframe : (s.fpga b i).valid = true → pfnInRange board (ppaToPfn (s.fpga b i).ppa)) :
    ∃ ppa zone, zapPte s b i = .ok (setFpga { s with zone := zone } b i ⟨ppa,false,false,0⟩) ∧
      ZoneOk board zone := by
  unfold zapPte
  simp only [hall,if_true]
  by_cases hv : (s.fpga b i).valid = true
  · rw [if_pos hv]
    obtain ⟨zone,hrun,hzone,-⟩ := free_pfn_spec rfl s.zone hz (hframe hv)
    simp only [hrun,ok_bind]
    exact ⟨0,zone,rfl,hzone⟩
  · rw [if_neg hv]
    have hvf : (s.fpga b i).valid = false := by simpa using hv
    refine ⟨(s.fpga b i).ppa,s.zone,?_,hz⟩
    rw [← hvf]

def cleared (s : Soc) (b : ℕ) (i : Fin 16) (vregion : ℕ → ℕ → VregionInfo) (ppa : ℕ)
    (zone : FpgaZone) : Soc :=
  { s with
    vregion := vregion
    shadow := setPte s.shadow b i ⟨(s.shadow b i).ppa,false,false,0⟩
    fpga := setPte s.fpga b i ⟨ppa,false,false,0⟩
    info := update s.info b ⟨(s.info b).nrFree+1,
      (s.info b).nrConflicts-(s.info b).conflicts.length,[]⟩
    nrAllocatedPtes := s.nrAllocatedPtes-1
    zone := zone }

variable {vregion : ℕ → ℕ → VregionInfo} {zone : FpgaZone}

lemma cleared_info {ppa c : ℕ} (hc : c ≠ b) :
    (cleared s b i vregion ppa zone).info c = s.info c := by
  simp only [cleared,update_of_ne hc]

lemma mem_cleared_conflicts {ppa c : ℕ} {ci : ConflictInfo} :
    ci ∈ ((cleared s b i vregion ppa zone).info c).conflicts ↔
      c ≠ b ∧ ci ∈ (s.info c).conflicts := by
  by_cases hc : c = b
  · simp [cleared,hc]
  · simp [cleared_info,hc]

lemma pt_inv_cleared (h : PtInv s) (hall : (s.shadow b i).allocated = true)
    (vregion : ℕ → ℕ → VregionInfo) (ppa : ℕ) (hz : ZoneOk board zone) :
    PtInv (cleared s b i vregion ppa zone) := by
  refine ⟨?_,?_,?_,hz,h.spare⟩
  · intro c
    by_cases hc : c = b
    · subst hc
      have hcount := slots_zap ⟨(s.shadow c i).ppa,false,false,0⟩ hall rfl
      have hold := h.free c
      simp only [cleared,update_self]
      omega
    · simp only [cleared,update_of_ne hc,slots_other hc]
      exact h.free c
  · intro c j
    simp only [cleared,pte_set]
    split
    · exact ⟨rfl,rfl⟩
    · exact h.sync c j
  · intro c j
    simp only [cleared,pte_set]
    split
    · intro hv
      cases hv
    · exact h.frames c j

lemma zap_both_cleared {s' : Soc} (h : PtInv s) (hall : (s.shadow b i).allocated = true)
    (hrun : zapBoth zapShadowPte s b i = .ok s') :
    ∃ t ppa zone, zapShadowPte s b i = .ok t ∧ s' = cleared s b i t.vregion ppa zone ∧
      PtInv s' := by
  obtain ⟨t,ht,hs'⟩ := (bind_ok_iff _ _ _).mp hrun
  have hframe := zap_shadow_frame hall ht
  have hfpga : t.fpga = s.fpga := by rw [hframe]
  have hzone : t.zone = s.zone := by rw [hframe]
  obtain ⟨ppa,zone,hzap,hz⟩ := zap_pte_spec (s := t) (b := b) (i := i) (hzone ▸ h.zone)
    (by rw [hfpga,(h.sync b i).1,hall]) (hfpga ▸ h.frames b i)
  rw [hzap] at hs'
  cases hs'
  have heq : setFpga { t with zone := zone } b i ⟨ppa,false,false,0⟩ =
      cleared s b i t.vregion ppa zone := by
    rw [setFpga,hframe]
    rfl
  refine ⟨t,ppa,zone,ht,heq,?_⟩
  rw [heq]
  exact pt_inv_cleared h hall t.vregion ppa hz

lemma zap_both_spec {s' : Soc} (hvm : VmInv s) (hc : ConflictInv s) (h : PtInv s)
    (hall : (s.shadow b i).allocated = true)
    (hrun : zapBoth zapShadowPte s b i = .ok s') :
    ∃ vregion ppa zone, s' = cleared s b i vregion ppa zone ∧ PtInv s' ∧ ConflictInv s' ∧
      Cut (InConflict (s.info b).conflicts) s s' := by
  obtain ⟨t,ppa,zone,ht,rfl,hpt⟩ := zap_both_cleared h hall hrun
  have hcut := zap_shadow_spec hvm hc hall ht
  exact ⟨t.vregion,ppa,zone,rfl,hpt,fun c ci hci => hc c ci (mem_cleared_conflicts.mp hci).2,
    cut_congr hcut rfl rfl⟩

lemma zap_both_total (h : PtInv s) (hall : (s.shadow b i).allocated = true)
    (hnone : (s.info b).conflicts = []) :
    ∃ ppa zone, zapBoth zapShadowPte s b i = .ok (cleared s b i s.vregion ppa zone) ∧
      PtInv (cleared s b i s.vregion ppa zone) := by
  have hshadow : zapShadowPte s b i = .ok
      { s with shadow := setPte s.shadow b i ⟨(s.shadow b i).ppa,false,false,0⟩
               info := update s.info b { s.info b with nrFree := (s.info b).nrFree+1 }
               nrAllocatedPtes := s.nrAllocatedPtes-1 } := by
    unfold zapShadowPte
    rw [if_pos hall]
    simp only [hnone,freeAllConflicts,ok_bind]
    rfl
  obtain ⟨ppa,zone,hzap,hz⟩ := zap_pte_spec
    (s := { s with shadow := setPte s.shadow b i ⟨(s.shadow b i).ppa,false,false,0⟩
                   info := update s.info b
                     { s.info b with nrFree := (s.info b).nrFree+1 }
                   nrAllocatedPtes := s.nrAllocatedPtes-1 }) (b := b) (i := i) h.zone
    ((h.sync b i).1.trans hall) (h.frames b i)
  refine ⟨ppa,zone,?_,pt_inv_cleared h hall s.vregion ppa hz⟩
  rw [zapBoth,hshadow,ok_bind,hzap]
  simp only [setFpga,cleared,hnone]
  simp

end

end Clio.Pte
