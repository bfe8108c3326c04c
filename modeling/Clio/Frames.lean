import Clio.Board
import Clio.Footprint
import Clio.Ownership
import Clio.VmAlloc

/-!
# Who has a frame

A frame is free, in the FIFO, mapped by one valid entry, or the spare frame.
-/

namespace Clio.Frames

open VmArea Buddy Pgtable Vm Board Footprint Machine Ownership Pte VmAlloc

def FreeFrame (z : FpgaZone) (pfn : ℕ) : Prop :=
  ∃ order < board.maxOrder, ∃ blk ∈ z.freeList order, blk ≤ pfn ∧ pfn < blk+2^order

lemma free_frame_iff (z : FpgaZone) (pfn : ℕ) : FreeFrame z pfn ↔ pfn ∈ z.freeList 0 := by
  constructor
  · rintro ⟨order,hlt,blk,hblk,hlo,hhi⟩
    have hzero : order = 0 := Nat.lt_one_iff.mp hlt
    subst hzero
    have heq : pfn = blk := by omega
    exact heq ▸ hblk
  · intro h
    exact ⟨0,Nat.one_pos,pfn,h,le_rfl,by omega⟩

def frameAt (s : Soc) (x : ℕ × Fin 16) : Option ℕ :=
  if (s.fpga x.1 x.2).valid then some (ppaToPfn (s.fpga x.1 x.2).ppa) else none

/-- The frames that no entry maps. -/
def idle (fifo : List ℕ) (s : Soc) : List ℕ := s.globalSparePfn::(fifo++s.zone.freeList 0)

structure FrameInv (fifo : List ℕ) (s : Soc) : Prop where
  zone : ZoneOk board s.zone
  allocated : ∀ b i, (s.fpga b i).valid = true → (s.fpga b i).allocated = true
  owned : Owned (pfnInRange board) (idle fifo s) (frameAt s)

section

variable {s s' : Soc} {fifo : List ℕ}

lemma frame_inv_congr (h : FrameInv fifo s) (hfpga : s'.fpga = s.fpga) (hzone : s'.zone = s.zone)
    (hspare : s'.globalSparePfn = s.globalSparePfn) : FrameInv fifo s' := by
  have hframe : frameAt s' = frameAt s := by
    funext x
    rw [frameAt,hfpga,frameAt]
  refine ⟨hzone ▸ h.zone,?_,?_⟩
  · rw [hfpga]
    exact h.allocated
  · rw [hframe,idle,hspare,hzone]
    exact h.owned

lemma frame_at_set (b : ℕ) (i : Fin 16) (pte : LegoMemPte) :
    frameAt (setFpga s b i pte) = Function.update (frameAt s) (b,i)
      (if pte.valid then some (ppaToPfn pte.ppa) else none) := by
  funext x
  obtain ⟨c,j⟩ := x
  simp only [frameAt,setFpga,pte_set,Function.update_apply,Prod.mk.injEq]
  split <;> rfl

lemma frame_at_invalid {b : ℕ} {i : Fin 16} (h : (s.fpga b i).valid = false) :
    frameAt s (b,i) = none := by
  simp [frameAt,h]

lemma frame_inv_unmapped (h : FrameInv fifo s) {b : ℕ} {i : Fin 16} {pte : LegoMemPte}
    (hold : (s.fpga b i).valid = false) (hnew : pte.valid = false) :
    FrameInv fifo (setFpga s b i pte) := by
  refine ⟨h.zone,?_,?_⟩
  · intro c j
    simp only [setFpga,pte_set]
    split
    · intro hv
      rw [hnew] at hv
      cases hv
    · exact h.allocated c j
  · rw [frame_at_set]
    simp only [hnew,Bool.false_eq_true,if_false]
    rw [← frame_at_invalid hold,Function.update_eq_self]
    exact h.owned

lemma frame_inv_map {fifo' : List ℕ} {zone : FpgaZone} (h : FrameInv fifo s) {b pfn : ℕ}
    {i : Fin 16} {tag : ℕ} (hold : (s.fpga b i).valid = false) (hz : ZoneOk board zone)
    (hidle : (idle fifo s).Perm (pfn::idle fifo' { s with zone := zone })) :
    FrameInv fifo' (setFpga { s with zone := zone } b i
      ⟨pfn*pageSize+fpgaMemoryMapMappingBase,true,true,tag⟩) := by
  have howned := owned_perm h.owned hidle
  have hrange : pfnInRange board pfn := owned_mem howned List.mem_cons_self
  refine ⟨hz,?_,?_⟩
  · intro c j
    simp only [setFpga,pte_set]
    split
    · exact fun _ => rfl
    · exact h.allocated c j
  · rw [frame_at_set]
    simp only [if_true,ppa_round pfn hrange]
    exact owned_take howned (frame_at_invalid hold)

lemma frame_inv_zap (h : FrameInv fifo s) {b : ℕ} {i : Fin 16} (hrun : zapPte s b i = .ok s') :
    FrameInv fifo s' ∧ (s.zone.freeList 0).length ≤ (s'.zone.freeList 0).length := by
  unfold zapPte at hrun
  dsimp only at hrun
  split_ifs at hrun with hall hv
  · have hat : frameAt s (b,i) = some (ppaToPfn (s.fpga b i).ppa) := by simp [frameAt,hv]
    have hnot := h.owned.apart _ _ hat
    obtain ⟨zone,hfree,hz,hlist⟩ := free_pfn_spec rfl s.zone h.zone (owned_held h.owned hat)
    rw [hfree] at hrun
    cases hrun
    have hno : ppaToPfn (s.fpga b i).ppa ∉ s.zone.freeList 0 := by
      intro hmem
      exact hnot (by simp [idle,hmem])
    rw [if_neg hno] at hlist
    refine ⟨⟨hz,?_,?_⟩,?_⟩
    · intro c j
      simp only [setFpga,pte_set]
      split
      · intro hc
        cases hc
      · exact h.allocated c j
    · rw [frame_at_set]
      refine owned_perm (owned_give h.owned hat) ?_
      simp only [idle,setFpga,hlist]
      refine (List.Perm.swap _ _ _).trans (List.Perm.cons _ ?_)
      exact List.perm_middle.symm
    · simp [setFpga,hlist]
  · cases hrun
    have hvf : (s.fpga b i).valid = false := by simpa using hv
    exact ⟨frame_inv_unmapped h hvf hvf,le_rfl⟩
  · cases hrun
    exact ⟨h,le_rfl⟩

end

section

variable {s s' : Soc} {fifo : List ℕ} {pid vmFlags : ℕ}

def MaySpare (vmFlags : ℕ) : Prop :=
  vmFlags &&& vmFlagsPopulate ≠ 0 ∧ vmFlags &&& vmFlagsUseSparePfn ≠ 0

instance (vmFlags : ℕ) : Decidable (MaySpare vmFlags) := by
  unfold MaySpare
  infer_instance

def Enough (fifo : List ℕ) (vmFlags n : ℕ) (s : Soc) : Prop :=
  FrameInv fifo s ∧ (MaySpare vmFlags → n ≤ (s.zone.freeList 0).length)

lemma enough_shrinks (fifo : List ℕ) (vmFlags n : ℕ) : Shrinks (Enough fifo vmFlags n) where
  vregion _ _ _ _ h := ⟨frame_inv_congr h.1 rfl rfl rfl,h.2⟩
  info _ _ _ _ h := ⟨frame_inv_congr h.1 rfl rfl rfl,h.2⟩
  shadow _ _ _ _ h := ⟨frame_inv_congr h.1 rfl rfl rfl,h.2⟩
  fpga s b i s' h hrun := by
    obtain ⟨hinv,hlen⟩ := frame_inv_zap h.1 hrun
    exact ⟨hinv,fun hf => (h.2 hf).trans hlen⟩

lemma invalid_of_free (h : FrameInv fifo s) {b : ℕ} {i : Fin 16}
    (hall : ¬(s.fpga b i).allocated = true) : (s.fpga b i).valid = false := by
  have hvalid := h.allocated b i
  cases hv : (s.fpga b i).valid
  · rfl
  · exact absurd (hvalid hv) hall

lemma alloc_fpga_enough {n b : ℕ} {i : Fin 16} (h : Enough fifo vmFlags (n+1) s)
    (hrun : allocOneFpgaPte s b i vmFlags = .ok s') : Enough fifo vmFlags n s' := by
  have hless : Enough fifo vmFlags n s := ⟨h.1,fun hf => Nat.le_of_succ_le (h.2 hf)⟩
  by_cases hall : (s.fpga b i).allocated = true
  · rw [allocOneFpgaPte,if_pos hall] at hrun
    cases hrun
    exact hless
  have hold := invalid_of_free h.1 hall
  by_cases hpop : vmFlags &&& vmFlagsPopulate ≠ 0
  · cases hl : s.zone.freeList 0 with
    | nil =>
      -- no frame is left, so the spare frame may not be used
      have hno : ¬(vmFlags &&& vmFlagsUseSparePfn ≠ 0) := by
        intro hs
        have := h.2 ⟨hpop,hs⟩
        rw [hl] at this
        simp at this
      rw [alloc_fpga_unmapped hall hpop hno hl] at hrun
      cases hrun
      exact ⟨frame_inv_unmapped h.1 hold hold,hless.2⟩
    | cons pfn rest =>
      obtain ⟨-,zone,hrest,hz,hmapped⟩ := alloc_fpga_mapped h.1.zone hall hpop hl
      rw [hmapped] at hrun
      cases hrun
      refine ⟨frame_inv_map h.1 hold hz ?_,?_⟩
      · simp only [idle,hl,hrest]
        exact (List.Perm.cons _ List.perm_middle).trans (List.Perm.swap _ _ _)
      · intro hf
        have := h.2 hf
        rw [hl,List.length_cons] at this
        simp only [setFpga,hrest]
        omega
  · rw [allocOneFpgaPte,if_neg hall,if_neg hpop] at hrun
    cases hrun
    exact ⟨frame_inv_unmapped h.1 hold rfl,hless.2⟩

lemma alloc_pte_enough {n addr : ℕ} (h : Enough fifo vmFlags (n+1) s)
    (hrun : allocPte s pid addr vmFlags = .ok s') : Enough fifo vmFlags n s' := by
  unfold allocPte at hrun
  cases hslot : allocOneShadowPte s pid addr with
  | none =>
    rw [hslot] at hrun
    cases hrun
    exact ⟨h.1,fun hf => Nat.le_of_succ_le (h.2 hf)⟩
  | some x =>
    obtain ⟨t,i⟩ := x
    rw [hslot] at hrun
    have ht : Enough fifo vmFlags (n+1) t := by
      unfold allocOneShadowPte at hslot
      obtain ⟨j,-,heq⟩ := Option.map_eq_some_iff.mp hslot
      cases heq
      exact ⟨frame_inv_congr h.1 rfl rfl rfl,h.2⟩
    exact alloc_fpga_enough ht hrun

lemma alloc_range_enough (l : List ℕ) (h : Enough fifo vmFlags l.length s)
    (hrun : l.foldlM (fun s addr => allocPte s pid addr vmFlags) s = .ok s') :
    FrameInv fifo s' := by
  induction l generalizing s with
  | nil =>
    cases hrun
    exact h.1
  | cons addr l ih =>
    obtain ⟨t,ht,hrest⟩ := (bind_ok_iff _ _ _).mp hrun
    exact ih (alloc_pte_enough h ht) hrest

lemma alloc_va_frames {idx len a : ℕ}
    (h : Enough fifo vmFlags (pageAlign len/pageSize) s)
    (hrun : allocVaVregion s pid idx len vmFlags = .ok (s',a)) : FrameInv fifo s' := by
  unfold allocVaVregion at hrun
  dsimp only at hrun
  split_ifs at hrun
  rcases alloc_retry_keeps (shrinks_keeps (enough_shrinks fifo vmFlags _))
    (fun _ _ _ h _ _ => ⟨frame_inv_congr h.1 rfl rfl rfl,h.2⟩) h hrun with
    ⟨hs',-⟩ | ⟨_,u,-,hu,htaken⟩
  · exact hs'.1
  · apply alloc_range_enough _ _ htaken.entries
    rw [pages_length _ _ (page_align_dvd len)]
    exact hu

end

def Backed (m : State) : Request → Prop
  | .alloc _ _ len vmFlags =>
      MaySpare vmFlags → pageAlign len/pageSize ≤ (m.soc.zone.freeList 0).length
  | _ => True

instance (m : State) (r : Request) : Decidable (Backed m r) := by
  cases r <;> unfold Backed <;> infer_instance

lemma frames_step {m u : State} {r : Request} (h : FrameInv m.fifo m.soc) (hb : Backed m r)
    (hrun : exec m r = some u) : FrameInv u.fifo u.soc := by
  have hrun := exec_ok hrun
  cases r with
  | alloc pid idx len vmFlags =>
    obtain ⟨⟨u,reply⟩,hcall,rfl⟩ := map_ok hrun
    obtain ⟨-,s,addr,hs,rfl,-⟩ := handle_alloc_ok hcall
    rw [put_proc_soc,put_proc_fifo]
    obtain ⟨hfifo,hsoc⟩ := open_proc_cases m pid
    rw [hfifo]
    apply alloc_va_frames _ hs
    rcases hsoc with ⟨-,hsoc⟩ | ⟨-,hsoc⟩ <;> rw [hsoc]
    · exact ⟨h,hb⟩
    · exact ⟨frame_inv_congr h rfl rfl rfl,hb⟩
  | free pid start len =>
    obtain ⟨⟨u,reply⟩,hcall,rfl⟩ := map_ok hrun
    obtain ⟨s,ret,hs,rfl,-⟩ := handle_free_ok hcall
    rw [put_proc_soc,put_proc_fifo]
    obtain ⟨hfifo,hsoc⟩ := open_proc_cases m pid
    rw [hfifo]
    refine (free_va_keeps (shrinks_keeps (enough_shrinks m.fifo 0 0)) ?_ hs).1
    rcases hsoc with ⟨-,hsoc⟩ | ⟨-,hsoc⟩ <;> rw [hsoc]
    · exact ⟨h,fun _ => Nat.zero_le _⟩
    · exact ⟨frame_inv_congr h rfl rfl rfl,fun _ => Nat.zero_le _⟩
  | refill =>
    simp only [handle,handleCtrlFreepageAck] at hrun
    cases hl : m.soc.zone.freeList 0 with
    | nil =>
      rw [alloc_pfn_empty rfl m.soc.zone hl] at hrun
      cases hrun
      exact h
    | cons pfn rest =>
      obtain ⟨zone,halloc,hrest,hz⟩ := alloc_pfn_first rfl m.soc.zone h.zone hl
      have hin : pfnInRange board pfn := h.zone.range pfn (by simp [hl])
      have hne : pfn ≠ 0 := by
        rintro rfl
        exact absurd hin.1 (by decide)
      rw [halloc] at hrun
      simp only [ok_bind,if_neg hne] at hrun
      cases hrun
      refine ⟨hz,h.allocated,owned_perm h.owned ?_⟩
      simp only [idle,hl,hrest,List.append_assoc,List.singleton_append]
      exact List.Perm.refl _
  | fault b i =>
    simp only [handle] at hrun
    cases hrun
    unfold pageFault
    cases hf : m.fifo with
    | nil =>
      simp only [hf]
      exact hf ▸ h
    | cons pfn fifo =>
      dsimp only
      split_ifs with hpte
      · have hall : (m.soc.fpga b i).allocated = true := hpte.1
        have hold : (m.soc.fpga b i).valid = false := by simpa using hpte.2
        rw [hall]
        show FrameInv fifo (setFpga { m.soc with zone := m.soc.zone } b i _)
        refine frame_inv_map h hold h.zone ?_
        simp only [idle,hf]
        exact List.Perm.swap _ _ _
      · exact hf ▸ h

lemma boot_frames : FrameInv boot.fifo boot.soc := by
  have hmem : ∀ pfn, pfn ∈ idle boot.fifo boot.soc ↔ pfnInRange board pfn := by
    intro pfn
    simp only [idle,boot,bootSoc,bootZone,if_true,List.nil_append,List.mem_cons,List.mem_map,
      List.mem_reverse,List.mem_range,pfnInRange,board]
    constructor
    · rintro (rfl | ⟨k,hk,rfl⟩) <;> omega
    · rintro ⟨hlo,hhi⟩
      by_cases h : pfn = 511
      · exact .inl h
      · exact .inr ⟨pfn-256,by omega,by omega⟩
  refine ⟨boot_zone_ok,fun b i h => (by cases h),?_,?_,?_,?_⟩
  · refine List.nodup_cons.mpr ⟨?_,boot_zone_ok.nodup⟩
    intro h
    have : (bootZone.pageMap 511).buddy = true := (boot_zone_ok.flag 511).mpr h
    cases this
  · intro x f hx
    cases hx
  · intro x y f hx
    cases hx
  · intro f
    rw [hmem]
    constructor
    · exact .inl
    · rintro (h | ⟨x,hx⟩)
      · exact h
      · cases hx

/-- No frame in use is free and no frame but the spare one is mapped twice. -/
structure Exclusive (m : State) : Prop where
  mapped : ∀ b i, (m.soc.fpga b i).valid = true →
    ¬FreeFrame m.soc.zone (ppaToPfn (m.soc.fpga b i).ppa)
  sent : ∀ pfn ∈ m.fifo, ¬FreeFrame m.soc.zone pfn
  spare : ¬FreeFrame m.soc.zone m.soc.globalSparePfn
  once : ∀ b i c j, (m.soc.fpga b i).valid = true → (m.soc.fpga c j).valid = true →
    ppaToPfn (m.soc.fpga b i).ppa = ppaToPfn (m.soc.fpga c j).ppa →
    ppaToPfn (m.soc.fpga b i).ppa ≠ m.soc.globalSparePfn → b = c ∧ i = j

lemma exclusive_of_inv {m : State} (h : FrameInv m.fifo m.soc) : Exclusive m := by
  have hat : ∀ b i, (m.soc.fpga b i).valid = true →
      frameAt m.soc (b,i) = some (ppaToPfn (m.soc.fpga b i).ppa) := by
    intro b i hv
    simp [frameAt,hv]
  obtain ⟨hspare,hnodup⟩ := List.nodup_cons.mp h.owned.nodup
  refine ⟨?_,?_,?_,?_⟩
  · intro b i hv hfree
    rw [free_frame_iff] at hfree
    exact h.owned.apart _ _ (hat b i hv) (by simp [idle,hfree])
  · intro pfn hpfn hfree
    rw [free_frame_iff] at hfree
    exact List.disjoint_of_nodup_append hnodup hpfn hfree
  · intro hfree
    rw [free_frame_iff] at hfree
    exact hspare (by simp [hfree])
  · intro b i c j hv hv' heq _
    have hc := hat c j hv'
    rw [← heq] at hc
    exact Prod.mk.inj (h.owned.single (b,i) (c,j) _ (hat b i hv) hc)

/-- In every run in which no allocation that may use the spare frame is short of frames. -/
theorem frames_exclusive (rs : List Request) (m : State) (hok : Guarded exec Backed rs boot)
    (hrun : run exec rs boot = some m) : Exclusive m := by
  apply exclusive_of_inv
  refine run_invariant exec Backed (fun m => FrameInv m.fifo m.soc) ?_ rs boot m ?_ hok hrun
  · intro s r u hs hb hu
    exact frames_step hs hb hu
  · exact boot_frames

def shared : List Request :=
  [.alloc 1 0 8388608 0x12,.alloc 2 0 1 0,.refill,.fault 255 1,.free 1 1069547520 4194304]

/-- Two processes populate pages, one frame goes through the FIFO, one range is freed. -/
theorem frames_exclusive_shared :
    ∃ m, run exec shared boot = some m ∧ m.fifo = [] ∧ (m.soc.fpga 255 1).valid = true ∧
      Exclusive m := by
  obtain ⟨m,hm,hfifo,hvalid⟩ := exists_checked (run exec shared boot)
    (fun m => m.fifo = [] ∧ (m.soc.fpga 255 1).valid) (by decide +kernel)
  exact ⟨m,hm,hfifo,hvalid,frames_exclusive shared m (by decide +kernel) hm⟩

/-- No frame is lost: each is the spare one, in the FIFO, free, or in exactly one entry. -/
theorem frames_conserved (rs : List Request) (m : State) (hok : Guarded exec Backed rs boot)
    (hrun : run exec rs boot = some m) :
    Owned (pfnInRange board) (idle m.fifo m.soc) (frameAt m.soc) :=
  (run_invariant _ _ (fun m => FrameInv m.fifo m.soc) (fun _ _ _ => frames_step) rs boot m
    boot_frames hok hrun).owned

theorem frames_conserved_shared : ∃ m, run exec shared boot = some m ∧
    Owned (pfnInRange board) (idle m.fifo m.soc) (frameAt m.soc) :=
  ⟨_,rfl,frames_conserved shared _ (by decide +kernel) rfl⟩

/-- A page populated with the spare frame is freed: the spare frame is free. -/
theorem spare_frame_freed :
    ∃ m, run exec (List.replicate 255 .refill++[.alloc 1 0 4194304 0x12,
      .free 1 1069547520 4194304]) boot = some m ∧ FreeFrame m.soc.zone m.soc.globalSparePfn ∧
      ¬Exclusive m := by
  obtain ⟨m,hm,hmem⟩ := exists_checked (run exec (List.replicate 255 .refill++
      [.alloc 1 0 4194304 0x12,.free 1 1069547520 4194304]) boot)
    (fun m => m.soc.globalSparePfn ∈ m.soc.zone.freeList 0) (by decide +kernel)
  have hfree := (free_frame_iff _ _).mpr hmem
  exact ⟨m,hm,hfree,fun h => h.spare hfree⟩

end Clio.Frames
