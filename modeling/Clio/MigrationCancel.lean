import Clio.AllocReply
import Clio.Ctrl
import Clio.Frames
import Clio.TableSteps

/-!
# Preparing a migration and cancelling it

The board that receives a vRegion reserves all of it, and cancelling frees whatever lies in the
vRegion.
-/

namespace Clio.MigrationCancel

open List VmArea Buddy Pgtable FindVaRange Vm Ranges VmRegion Errno
open VmFree VmAlloc Pte Machine Footprint TableSteps Frames Requests AllocReply Ctrl
open Board hiding Request handle exec

/-! ## What has to hold -/

def SamePte (x y : LegoMemPte) : Prop := y.allocated = x.allocated ∧ (x.allocated = true → y = x)

structure Same (s s' : Soc) : Prop where
  trees : ∀ pid idx, region s' pid idx = region s pid idx
  shadow : ∀ b i, SamePte (s.shadow b i) (s'.shadow b i)
  fpga : ∀ b i, SamePte (s.fpga b i) (s'.fpga b i)
  info : ∀ b, s'.info b = s.info b
  frames : (s'.zone.freeList 0).Perm (s.zone.freeList 0)

def vregionPages (idx : ℕ) : List ℕ :=
  pages (vregionIndexToVa idx) (vregionIndexToVa idx+vregionSize)

structure Reserved (s u : Soc) (pid idx : ℕ) : Prop where
  granted : Granted u pid idx vregionSize (vregionIndexToVa idx)
  fresh : ∀ p ∈ vregionPages idx, ∃ i, (s.shadow (addrToBucketIndex p) i).allocated = false ∧
    (u.shadow (addrToBucketIndex p) i).allocated = true ∧
    (u.shadow (addrToBucketIndex p) i).tag = generateTag pid p

/-- Cancelling undoes the preparation, which replies 0 only if the vRegion was reserved. -/
def RoundTrip (m : System) (pid idx : ℕ) : Prop :=
  ∃ u v ret, handleMigrationRecv m pid idx = .ok (u,ret) ∧
    handleMigrationRecvCancel u pid idx = .ok (v,0) ∧
    Same (openProc m.board pid).soc v.board.soc ∧
    (ret = 0 → Reserved (openProc m.board pid).soc u.board.soc pid idx)

def Unshadowed (s : Soc) (pid p : ℕ) : Prop :=
  ∀ j, (s.shadow (addrToBucketIndex p) j).allocated = true →
    (s.shadow (addrToBucketIndex p) j).tag = generateTag pid p →
    ∃ i < j, (s.shadow (addrToBucketIndex p) i).allocated = false

structure Reservable (s : Soc) (pid idx : ℕ) : Prop where
  fits : Fits s pid idx vregionSize (vregionIndexToVa idx)
  clean : ∀ p ∈ vregionPages idx, Unshadowed s pid p

/-- Only full buckets have conflicts and only allocated entries map frames. -/
structure Tidy (s : Soc) : Prop where
  full : ∀ b, (s.info b).conflicts ≠ [] → (s.info b).nrFree = 0
  mapped : ∀ b i, (s.fpga b i).valid = true → (s.fpga b i).allocated = true

/-! ## Entries on loan -/

section

variable {i : Fin 16}

lemma find_first {f : Fin 16 → Bool} :
    (List.finRange 16).find? f = some i ↔ f i = true ∧ ∀ j < i, f j = false := by
  rw [List.find?_eq_some_iff_getElem]
  refine and_congr_right fun _ => ⟨?_,fun h => ⟨i,by simp,by simp,fun j hj => ?_⟩⟩
  · rintro ⟨k,hk,rfl,hall⟩ j hj
    have := hall j (by simpa [Fin.lt_def] using hj)
    simpa using this
  · have := h ⟨j,by omega⟩ hj
    simpa using this

variable {b : ℕ}

lemma free_slot_iff {s : Soc} : freeSlot s b = some i ↔
    (s.shadow b i).allocated = false ∧ ∀ j < i, (s.shadow b j).allocated = true := by
  rw [freeSlot,find_first]
  simp

variable {pid p : ℕ} {slot : ℕ → Fin 16} {s₀ s s' : Soc} {l : List ℕ}

def lentFrames (s : Soc) (slot : ℕ → Fin 16) (l : List ℕ) : List ℕ :=
  l.flatMap fun p => (frameAt s (addrToBucketIndex p,slot p)).toList

structure Lent (pid : ℕ) (slot : ℕ → Fin 16) (s₀ : Soc) (l : List ℕ) (s : Soc) : Prop where
  pt : PtInv s
  mapped : ∀ b i, (s.fpga b i).valid = true → (s.fpga b i).allocated = true
  entry : ∀ p ∈ l, (s.shadow (addrToBucketIndex p) (slot p)).allocated = true ∧
    (s.shadow (addrToBucketIndex p) (slot p)).tag = generateTag pid p
  shadow : ∀ b i, (∀ p ∈ l, ¬(b = addrToBucketIndex p ∧ i = slot p)) →
    SamePte (s₀.shadow b i) (s.shadow b i)
  fpga : ∀ b i, (∀ p ∈ l, ¬(b = addrToBucketIndex p ∧ i = slot p)) →
    SamePte (s₀.fpga b i) (s.fpga b i)
  conflicts : ∀ b, (s.info b).conflicts = (s₀.info b).conflicts ∧
    (s.info b).nrConflicts = (s₀.info b).nrConflicts
  frames : (s₀.zone.freeList 0).Perm (lentFrames s slot l++s.zone.freeList 0)

lemma lent_perm {l' : List ℕ} (h : Lent pid slot s₀ l s) (hp : l.Perm l') :
    Lent pid slot s₀ l' s := by
  refine ⟨h.pt,h.mapped,fun p hm => h.entry p (hp.mem_iff.mpr hm),?_,?_,h.conflicts,?_⟩
  · exact fun b i hb => h.shadow b i fun p hm => hb p (hp.mem_iff.mp hm)
  · exact fun b i hb => h.fpga b i fun p hm => hb p (hp.mem_iff.mp hm)
  · exact h.frames.trans ((hp.flatMap_right _).append_right _)

lemma lent_vregion {vregion : ℕ → ℕ → VregionInfo} (h : Lent pid slot s₀ l s) :
    Lent pid slot s₀ l { s with vregion := vregion } :=
  ⟨pt_inv_info (s := s) h.pt fun _ => rfl,h.mapped,h.entry,h.shadow,h.fpga,h.conflicts,h.frames⟩

lemma lent_nil (h : PtInv s) (ht : Tidy s) : Lent pid slot s [] s :=
  ⟨h,ht.mapped,by simp,fun _ _ _ => ⟨rfl,fun _ => rfl⟩,fun _ _ _ => ⟨rfl,fun _ => rfl⟩,
    fun _ => ⟨rfl,rfl⟩,List.Perm.refl _⟩

lemma lent_back (h0 : PtInv s₀) (h : Lent pid slot s₀ [] s)
    (htrees : ∀ pid idx, region s pid idx = region s₀ pid idx) : Same s₀ s := by
  have hshadow : ∀ b i, SamePte (s₀.shadow b i) (s.shadow b i) := fun b i => h.shadow b i (by simp)
  refine ⟨htrees,hshadow,fun b i => h.fpga b i (by simp),?_,?_⟩
  · intro b
    have hslots : freeSlots s.shadow b = freeSlots s₀.shadow b := by
      unfold freeSlots
      simp only [(hshadow b _).1]
    have hfree : (s.info b).nrFree = (s₀.info b).nrFree := by
      rw [h.pt.free,h0.free,hslots]
    obtain ⟨hc,hn⟩ := h.conflicts b
    cases hs : s.info b
    cases hs0 : s₀.info b
    simp_all
  · simpa [lentFrames] using h.frames.symm

lemma lent_free_slot (h : Lent pid slot s₀ l s)
    (hp : ∀ q ∈ l, addrToBucketIndex p ≠ addrToBucketIndex q) :
    freeSlot s (addrToBucketIndex p) = freeSlot s₀ (addrToBucketIndex p) := by
  unfold freeSlot
  congr 1
  funext i
  rw [(h.shadow _ i fun q hq hc => hp q hq hc.1).1]

lemma alloc_fpga_populate {b : ℕ} {i : Fin 16} (hz : ZoneOk board s.zone)
    (hno : (s.fpga b i).allocated = false) (hv : (s.fpga b i).valid = false) :
    ∃ pte zone, allocOneFpgaPte s b i vmFlagsPopulate =
        .ok (setFpga { s with zone := zone } b i pte) ∧ pte.allocated = true ∧ s.zone.freeList 0 =
        (if pte.valid then some (ppaToPfn pte.ppa) else none).toList++zone.freeList 0 := by
  have hpop : vmFlagsPopulate &&& vmFlagsPopulate ≠ 0 := by decide
  have hspare : ¬vmFlagsPopulate &&& vmFlagsUseSparePfn ≠ 0 := by decide
  have hno' : ¬(s.fpga b i).allocated = true := by simp [hno]
  cases hl : s.zone.freeList 0 with
  | nil => exact ⟨_,s.zone,alloc_fpga_unmapped hno' hpop hspare hl,rfl,by simp [hv,hl]⟩
  | cons pfn rest =>
    obtain ⟨hin,zone,hrest,-,hrun⟩ := alloc_fpga_mapped hz hno' hpop hl
    exact ⟨_,zone,hrun,rfl,by simp [ppa_round pfn hin,hrest]⟩

lemma lent_frames_congr (h : ∀ q ∈ l, s'.fpga (addrToBucketIndex q) (slot q) =
    s.fpga (addrToBucketIndex q) (slot q)) : lentFrames s' slot l = lentFrames s slot l := by
  unfold lentFrames frameAt
  rw [flatMap_congr fun q hq => by rw [h q hq]]

lemma lent_alloc (h : Lent pid slot s₀ l s)
    (hslot : freeSlot s₀ (addrToBucketIndex p) = some (slot p))
    (hp : ∀ q ∈ l, addrToBucketIndex p ≠ addrToBucketIndex q) :
    ∃ s', allocPte s pid p vmFlagsPopulate = .ok s' ∧ s'.vregion = s.vregion ∧
      Lent pid slot s₀ (p::l) s' := by
  have hfree := lent_free_slot h hp
  rw [hslot] at hfree
  obtain ⟨hno,-⟩ := free_slot_iff.mp hfree
  have hfpga : (s.fpga (addrToBucketIndex p) (slot p)).allocated = false := by
    rw [(h.pt.sync _ _).1,hno]
  have hv : (s.fpga (addrToBucketIndex p) (slot p)).valid = false := by
    cases hv : (s.fpga (addrToBucketIndex p) (slot p)).valid
    · rfl
    · rw [h.mapped _ _ hv] at hfpga
      cases hfpga
  obtain ⟨u,-,hufpga,huzone,-,htaken,hpass⟩ := alloc_pte_eq hfree
  obtain ⟨pte,zone,hrun,hall,hlist⟩ := alloc_fpga_populate (s := u)
    (b := addrToBucketIndex p) (i := slot p) (huzone ▸ h.pt.zone) (hufpga ▸ hfpga) (hufpga ▸ hv)
  have hstep : allocPte s pid p vmFlagsPopulate = .ok (taken s pid p (slot p) pte zone) := by
    rw [hpass,hrun,htaken]
  rw [huzone] at hlist
  have hframes : lentFrames (taken s pid p (slot p) pte zone) slot l = lentFrames s slot l := by
    refine lent_frames_congr fun q hq => ?_
    simp only [taken,pte_set]
    exact if_neg fun hc => hp q hq hc.1.symm
  refine ⟨_,hstep,rfl,alloc_pte_inv h.pt hstep,?_,?_,?_,?_,?_,?_⟩
  · intro b i
    simp only [taken,pte_set]
    split
    · exact fun _ => hall
    · exact h.mapped b i
  · refine forall_mem_cons.mpr ⟨by simp [taken,pte_set],fun q hq => ?_⟩
    simp only [taken,pte_set]
    rw [if_neg fun hc => hp q hq hc.1.symm]
    exact h.entry q hq
  · intro b i hb
    obtain ⟨hfirst,hrest⟩ := forall_mem_cons.mp hb
    simp only [taken,pte_set,if_neg hfirst]
    exact h.shadow b i hrest
  · intro b i hb
    obtain ⟨hfirst,hrest⟩ := forall_mem_cons.mp hb
    simp only [taken,pte_set,if_neg hfirst]
    exact h.fpga b i hrest
  · intro b
    by_cases hb : b = addrToBucketIndex p
    · subst hb
      simpa [taken] using h.conflicts (addrToBucketIndex p)
    · simpa [taken,Function.update_of_ne hb] using h.conflicts b
  · have hhead : frameAt (taken s pid p (slot p) pte zone) (addrToBucketIndex p,slot p) =
        if pte.valid then some (ppaToPfn pte.ppa) else none := by
      simp [frameAt,taken,pte_set]
    have hperm := h.frames
    rw [hlist] at hperm
    rw [lentFrames,flatMap_cons,hhead,append_assoc]
    rw [lentFrames] at hframes
    rw [hframes]
    exact hperm.trans (perm_append_comm_assoc _ _ _)

lemma zap_pte_list (hz : ZoneOk board s.zone) (hall : (s.fpga b i).allocated = true)
    (hframe : (s.fpga b i).valid = true → pfnInRange board (ppaToPfn (s.fpga b i).ppa))
    (hout : ∀ pfn ∈ frameAt s (b,i), pfn ∉ s.zone.freeList 0) (hrun : zapPte s b i = .ok s') :
    s'.zone.freeList 0 = (frameAt s (b,i)).toList++s.zone.freeList 0 := by
  unfold zapPte at hrun
  simp only [hall,if_true] at hrun
  by_cases hv : (s.fpga b i).valid = true
  · have hat : frameAt s (b,i) = some (ppaToPfn (s.fpga b i).ppa) := by simp [frameAt,hv]
    obtain ⟨zone,hfree,-,hlist⟩ := free_pfn_spec rfl s.zone hz (hframe hv)
    rw [if_pos hv,hfree,ok_bind] at hrun
    cases hrun
    rw [if_neg (hout _ hat)] at hlist
    rw [hat]
    exact hlist
  · rw [if_neg hv] at hrun
    cases hrun
    simp [frameAt,hv,setFpga]

lemma zap_both_list (h : PtInv s) (hall : (s.shadow b i).allocated = true)
    (hout : ∀ pfn ∈ frameAt s (b,i), pfn ∉ s.zone.freeList 0)
    (hrun : zapBoth zapShadowPte s b i = .ok s') :
    s'.zone.freeList 0 = (frameAt s (b,i)).toList++s.zone.freeList 0 := by
  obtain ⟨t,ht,hs'⟩ := (bind_ok_iff _ _ _).mp hrun
  have hframe := zap_shadow_frame hall ht
  have hfpga : t.fpga = s.fpga := by rw [hframe]
  have hzone : t.zone = s.zone := by rw [hframe]
  have hat : frameAt t = frameAt s := by
    funext x
    rw [frameAt,hfpga,frameAt]
  rw [← hat,← hzone] at hout ⊢
  refine zap_pte_list (hzone ▸ h.zone) ?_ (hfpga ▸ h.frames b i) hout hs'
  rw [hfpga,(h.sync b i).1,hall]

lemma lent_free (hz : ZoneOk board s₀.zone) (h : Lent pid slot s₀ (p::l) s)
    (hno : (s₀.shadow (addrToBucketIndex p) (slot p)).allocated = false)
    (hsync : (s₀.fpga (addrToBucketIndex p) (slot p)).allocated = false)
    (hnone : (s₀.info (addrToBucketIndex p)).conflicts = [])
    (hp : ∀ q ∈ l, addrToBucketIndex p ≠ addrToBucketIndex q)
    (hfind : addrToShadowPte s pid p = some (slot p)) :
    ∃ s', freePte zapShadowPte s pid p = .ok s' ∧ s'.vregion = s.vregion ∧
      Lent pid slot s₀ l s' := by
  have hall := (h.entry p (by simp)).1
  have hempty := (h.conflicts (addrToBucketIndex p)).1.trans hnone
  obtain ⟨ppa,zone,hrun,hpt⟩ := zap_both_total h.pt hall hempty
  have hstep : freePte zapShadowPte s pid p =
      .ok (cleared s (addrToBucketIndex p) (slot p) s.vregion ppa zone) := by
    rw [freePte,hfind]
    exact hrun
  have hrest : lentFrames (cleared s (addrToBucketIndex p) (slot p) s.vregion ppa zone) slot l =
      lentFrames s slot l := by
    refine lent_frames_congr fun q hq => ?_
    simp only [cleared,pte_set]
    exact if_neg fun hc => hp q hq hc.1.symm
  -- the frame of the entry was free before, so that it is not in the list a second time
  have hnodup := h.frames.nodup_iff.mp hz.nodup
  have hframes := h.frames
  rw [lentFrames,flatMap_cons,append_assoc] at hnodup hframes
  have hlist : zone.freeList 0 =
      (frameAt s (addrToBucketIndex p,slot p)).toList++s.zone.freeList 0 := by
    refine zap_both_list h.pt hall (fun pfn hpfn hmem => ?_) hrun
    exact disjoint_of_nodup_append hnodup (Option.mem_toList.mpr hpfn) (by simp [hmem])
  refine ⟨_,hstep,rfl,hpt,?_,?_,?_,?_,?_,?_⟩
  · intro b i
    simp only [cleared,pte_set]
    split
    · intro hv
      cases hv
    · exact h.mapped b i
  · intro q hq
    simp only [cleared,pte_set]
    rw [if_neg fun hc => hp q hq hc.1.symm]
    exact h.entry q (by simp [hq])
  · intro b i hb
    simp only [cleared,pte_set]
    split
    · rename_i hc
      rw [hc.1,hc.2]
      exact ⟨hno.symm,fun hx => by rw [hno] at hx; cases hx⟩
    · rename_i hc
      exact h.shadow b i (forall_mem_cons.mpr ⟨hc,hb⟩)
  · intro b i hb
    simp only [cleared,pte_set]
    split
    · rename_i hc
      rw [hc.1,hc.2]
      exact ⟨hsync.symm,fun hx => by rw [hsync] at hx; cases hx⟩
    · rename_i hc
      exact h.fpga b i (forall_mem_cons.mpr ⟨hc,hb⟩)
  · intro b
    obtain ⟨hcon,hnum⟩ := h.conflicts b
    by_cases hb : b = addrToBucketIndex p
    · subst hb
      simp [cleared,hempty,hnone,hnum]
    · rw [cleared_info hb]
      exact ⟨hcon,hnum⟩
  · rw [hrest]
    show (s₀.zone.freeList 0).Perm (_++zone.freeList 0)
    rw [hlist]
    exact hframes.trans (perm_append_comm_assoc _ _ _)

section

variable (h : Lent pid slot s₀ (p::l) s) (hslot : freeSlot s₀ (addrToBucketIndex p) = some (slot p))
  (hp : ∀ q ∈ l, addrToBucketIndex p ≠ addrToBucketIndex q)
include h hslot hp

lemma lent_find (hu : Unshadowed s₀ pid p) :
    addrToShadowPte s pid p = some (slot p) := by
  obtain ⟨hall,htag⟩ := h.entry p (by simp)
  refine find_first.mpr ⟨by simp [hall,htag],fun j hj => ?_⟩
  have hbelow := (free_slot_iff.mp hslot).2
  have hold := hbelow j hj
  have hsame := (h.shadow (addrToBucketIndex p) j (forall_mem_cons.mpr
    ⟨fun hc => hj.ne hc.2,fun q hq hc => hp q hq hc.1⟩)).2 hold
  by_contra hmatch
  rw [hsame] at hmatch
  simp only [hold,Bool.true_and,Bool.not_eq_false,beq_iff_eq] at hmatch
  obtain ⟨i,hi,hfree⟩ := hu j hold hmatch
  rw [hbelow i (hi.trans hj)] at hfree
  cases hfree

lemma lent_stale (hu : ¬Unshadowed s₀ pid p) :
    ∃ j, addrToShadowPte s pid p = some j ∧
      (s₀.shadow (addrToBucketIndex p) j).allocated = true := by
  unfold Unshadowed at hu
  push Not at hu
  obtain ⟨k,hk,htag,hbelow⟩ := hu
  obtain ⟨hfree,-⟩ := free_slot_iff.mp hslot
  have hlt : k < slot p := by
    rcases lt_trichotomy k (slot p) with hlt | heq | hgt
    · exact hlt
    · rw [heq,hfree] at hk
      cases hk
    · exact absurd hfree (hbelow _ hgt)
  have hkeep : ∀ j, j ≠ slot p → SamePte (s₀.shadow (addrToBucketIndex p) j)
      (s.shadow (addrToBucketIndex p) j) := by
    intro j hj
    exact h.shadow _ j (forall_mem_cons.mpr ⟨fun hc => hj hc.2,fun q hq hc => hp q hq hc.1⟩)
  have hmatch : (s.shadow (addrToBucketIndex p) k).allocated = true ∧
      (s.shadow (addrToBucketIndex p) k).tag = generateTag pid p := by
    rw [(hkeep k hlt.ne).2 hk]
    exact ⟨hk,htag⟩
  cases hfind : addrToShadowPte s pid p with
  | none =>
    have := List.find?_eq_none.mp hfind k (mem_finRange k)
    simp [hmatch] at this
  | some j =>
    refine ⟨j,rfl,?_⟩
    have hle : j ≤ k := by
      by_contra hgt
      have := (find_first.mp hfind).2 k (not_le.mp hgt)
      simp [hmatch] at this
    rw [← (hkeep j (hle.trans_lt hlt).ne).1]
    exact (shadow_pte_some hfind).1

end

end

/-! ## Ranges of pages -/

section

variable {pid : ℕ} {slot : ℕ → Fin 16} {s₀ s s' : Soc} {l : List ℕ}

lemma lent_alloc_range {acc : List ℕ} (h : Lent pid slot s₀ acc s)
    (hslot : ∀ p ∈ l, freeSlot s₀ (addrToBucketIndex p) = some (slot p))
    (hl : l.Pairwise fun p q => addrToBucketIndex p ≠ addrToBucketIndex q)
    (hacc : ∀ p ∈ l, ∀ q ∈ acc, addrToBucketIndex p ≠ addrToBucketIndex q) :
    ∃ s', l.foldlM (fun s addr => allocPte s pid addr vmFlagsPopulate) s = .ok s' ∧
      s'.vregion = s.vregion ∧ Lent pid slot s₀ (l.reverse++acc) s' := by
  induction l generalizing s acc with
  | nil => exact ⟨s,rfl,rfl,h⟩
  | cons p l ih =>
    rw [pairwise_cons] at hl
    obtain ⟨hp,hslots⟩ := forall_mem_cons.mp hslot
    obtain ⟨t,ht,htv,hlent⟩ := lent_alloc h hp (hacc p (by simp))
    obtain ⟨s',hrun,hv,hlent'⟩ := ih hlent hslots hl.2 (by
      intro q hq r hr
      rcases mem_cons.mp hr with rfl | hr
      · exact (hl.1 q hq).symm
      · exact hacc q (by simp [hq]) r hr)
    refine ⟨s',?_,hv.trans htv,?_⟩
    · rw [foldlM_cons,ht]
      exact hrun
    · rw [reverse_cons,append_assoc]
      exact hlent'

variable (h0 : PtInv s₀) (hslot : ∀ p ∈ l, freeSlot s₀ (addrToBucketIndex p) = some (slot p))
  (hnone : ∀ p ∈ l, (s₀.info (addrToBucketIndex p)).conflicts = [])
  (hl : l.Pairwise fun p q => addrToBucketIndex p ≠ addrToBucketIndex q)

include h0 hslot hnone hl

lemma lent_free_range (h : Lent pid slot s₀ l s) (hu : ∀ p ∈ l, Unshadowed s₀ pid p) :
    ∃ s', l.foldlM (fun s addr => freePte zapShadowPte s pid addr) s = .ok s' ∧
      s'.vregion = s.vregion ∧ Lent pid slot s₀ [] s' := by
  induction l generalizing s with
  | nil => exact ⟨s,rfl,rfl,h⟩
  | cons p l ih =>
    rw [pairwise_cons] at hl
    obtain ⟨hp,hslots⟩ := forall_mem_cons.mp hslot
    obtain ⟨hn,hnones⟩ := forall_mem_cons.mp hnone
    obtain ⟨hup,hus⟩ := forall_mem_cons.mp hu
    obtain ⟨hno,-⟩ := free_slot_iff.mp hp
    obtain ⟨t,ht,htv,hlent⟩ := lent_free h0.zone h hno ((h0.sync _ _).1.trans hno) hn hl.1
      (lent_find h hp hl.1 hup)
    obtain ⟨s',hrun,hv,hback⟩ := ih hslots hnones hl.2 hlent hus
    refine ⟨s',?_,hv.trans htv,hback⟩
    rw [foldlM_cons,ht]
    exact hrun

omit h0 hslot hnone hl in
lemma free_stays (b : ℕ) (i : Fin 16) : Keeps fun s => (s.shadow b i).allocated = false := by
  refine shrinks_keeps ⟨fun _ _ _ _ h => h,fun _ _ _ _ h => h,?_,?_⟩
  · intro s c j ppa h
    simp only [pte_set]
    split
    · rfl
    · exact h
  · intro s c j s' h hrun
    unfold zapPte at hrun
    dsimp only at hrun
    split_ifs at hrun
    · obtain ⟨zone,-,hpure⟩ := (bind_ok_iff _ _ _).mp hrun
      cases hpure
      exact h
    · cases hrun
      exact h
    · cases hrun
      exact h

lemma unshadowed_of_kept (h : Lent pid slot s₀ l s)
    (hrun : l.foldlM (fun s addr => freePte zapShadowPte s pid addr) s = .ok s')
    (hkept : ∀ b i, (s₀.shadow b i).allocated = true → (s'.shadow b i).allocated = true) :
    ∀ p ∈ l, Unshadowed s₀ pid p := by
  induction l generalizing s with
  | nil => simp
  | cons p l ih =>
    rw [pairwise_cons] at hl
    obtain ⟨hp,hslots⟩ := forall_mem_cons.mp hslot
    obtain ⟨hn,hnones⟩ := forall_mem_cons.mp hnone
    obtain ⟨hno,-⟩ := free_slot_iff.mp hp
    rw [foldlM_cons] at hrun
    obtain ⟨t,ht,hrest⟩ := (bind_ok_iff _ _ _).mp hrun
    by_cases hup : Unshadowed s₀ pid p
    · obtain ⟨t',ht',-,hlent⟩ := lent_free h0.zone h hno ((h0.sync _ _).1.trans hno) hn hl.1
        (lent_find h hp hl.1 hup)
      rw [ht] at ht'
      cases ht'
      exact forall_mem_cons.mpr ⟨hup,ih hslots hnones hl.2 hlent hrest⟩
    · obtain ⟨j,hfind,hold⟩ := lent_stale h hp hl.1 hup
      rw [freePte,hfind] at ht
      obtain ⟨u,ppa,zone,-,rfl,-⟩ := zap_both_cleared h.pt (shadow_pte_some hfind).1 ht
      have hfree := foldlM_preserves _
        (fun s => (s.shadow (addrToBucketIndex p) j).allocated = false) l
        (fun _ _ _ _ hs hstep => free_pte_keeps (free_stays _ j) hs hstep) _ _
        (by simp [cleared,pte_set]) hrest
      rw [hkept _ j hold] at hfree
      cases hfree

end

/-! ## The whole vRegion -/

section

variable {s s' : Soc} {pid idx : ℕ}

lemma index_to_va (hidx : idx < nrVregions) : vregionIndexToVa idx = idx*vregionSize := by
  have hn : nrVregions = 1048576 := rfl
  unfold vregionIndexToVa vregionSize vregionSizeShift
  omega

lemma whole_start {a : ℕ} (hidx : idx < nrVregions)
    (h : FreeAt (region s pid idx) (vregionToStartVa idx) (vregionToEndVa idx) vregionSize a) :
    idx ≠ 0 ∧ a = vregionIndexToVa idx := by
  obtain ⟨hlo,hhi,-⟩ := h
  rw [index_to_va hidx]
  unfold vregionToEndVa at hhi
  rw [Nat.succ_mul] at hhi
  unfold vregionToStartVa at hlo
  split_ifs at hlo with hzero
  · subst hzero
    omega
  · exact ⟨hzero,by omega⟩

lemma whole_empty (h : VmInv s) (hidx : idx < nrVregions)
    (hat : FreeAt (region s pid idx) (vregionToStartVa idx) (vregionToEndVa idx) vregionSize
      (vregionIndexToVa idx)) : region s pid idx = [] := by
  obtain ⟨hne,-⟩ := whole_start hidx hat
  have hend : vregionToEndVa idx = idx*vregionSize+vregionSize := by
    rw [vregionToEndVa,Nat.succ_mul]
  have hstart : vregionToStartVa idx = idx*vregionSize := if_neg hne
  have hva := index_to_va hidx
  rw [eq_nil_iff_forall_not_mem]
  intro r hr
  have hlt := (region_sorted h pid idx).1 r hr
  obtain ⟨hlo,hhi⟩ := h.inside pid idx r hr
  rcases hat.2.2 r hr with hbelow | habove <;> omega

lemma align_whole : pageAlign vregionSize = vregionSize := by decide

lemma retry_whole (n : ℕ) (h : Base s) (hidx : idx < nrVregions) (vmFlags : ℕ)
    (hfit : Fits s pid idx vregionSize (vregionIndexToVa idx)) :
    allocRetry pid idx vregionSize vmFlags (n+1) s =
      allocFound s pid idx (vregionIndexToVa idx) vregionSize vmFlags := by
  obtain ⟨addr,hfind,hspec⟩ := find_va_range_exact (h.vm.good pid idx) (h.vm.topdown pid idx) hidx
    (show 0 < vregionSize by decide) le_rfl (fun r hr => (h.vm.inside pid idx r hr).2)
  rcases hspec with ⟨-,hnone⟩ | ⟨hat,-⟩
  · exact absurd hfit.at_ (hnone _)
  · obtain ⟨-,rfl⟩ := whole_start hidx hat
    obtain ⟨t,found,hcheck,-,-,-,hfound,hsame⟩ := check_spec h hidx hfit.toFreeRange
      (show pageSize ∣ vregionSize by decide)
    obtain rfl := hsame hfit.room
    have hno : ¬found = true := by
      intro hf
      obtain ⟨p,hp,hfull⟩ := hfound.mp hf
      exact hfit.room p hp hfull
    have hsmall : ¬isErrValue (vregionIndexToVa idx) :=
      end_va_small hidx ((Nat.le_add_right _ _).trans hat.2.1)
    have hmod : ¬vregionIndexToVa idx%pageSize ≠ 0 :=
      not_not.mpr (Nat.mod_eq_zero_of_dvd hfit.aligned)
    unfold allocRetry
    rw [hfind,ok_bind,if_neg hsmall,if_neg hmod,hcheck,ok_bind]
    exact if_neg hno

lemma alloc_whole (h : Base s) (hidx : idx < nrVregions) (vmFlags : ℕ)
    (hfit : Fits s pid idx vregionSize (vregionIndexToVa idx)) :
    allocVaVregion s pid idx vregionSize vmFlags =
      allocFound s pid idx (vregionIndexToVa idx) vregionSize vmFlags := by
  unfold allocVaVregion
  rw [align_whole]
  exact (if_neg (lt_irrefl _)).trans (retry_whole 256 h hidx vmFlags hfit)

lemma retry_none (n vmFlags : ℕ) (h : Base s) (hidx : idx < nrVregions)
    (hnone : ∀ a, ¬FreeAt (region s pid idx) (vregionToStartVa idx) (vregionToEndVa idx)
      vregionSize a) :
    allocRetry pid idx vregionSize vmFlags (n+1) s =
      .ok ({ s with cachedVregionStart := s.cachedVregionStart+1 },0) := by
  obtain ⟨addr,hfind,hspec⟩ := find_va_range_exact (h.vm.good pid idx) (h.vm.topdown pid idx) hidx
    (show 0 < vregionSize by decide) le_rfl (fun r hr => (h.vm.inside pid idx r hr).2)
  rcases hspec with ⟨rfl,-⟩ | ⟨hat,-⟩
  · unfold allocRetry
    rw [hfind,ok_bind,if_pos (by decide)]
    rfl
  · exact absurd hat (hnone addr)

lemma dvd_index_to_va (hidx : idx < nrVregions) : pageSize ∣ vregionIndexToVa idx := by
  rw [index_to_va hidx]
  exact dvd_mul_of_dvd_right (by decide) idx

lemma fits_of_reserved (h : Base s) (hidx : idx < nrVregions) {a vmFlags : ℕ}
    (hrun : allocVaVregion s pid idx vregionSize vmFlags = .ok (s',a))
    (hres : Reserved s s' pid idx) : Fits s pid idx vregionSize (vregionIndexToVa idx) := by
  by_cases hat : ∃ x, FreeAt (region s pid idx) (vregionToStartVa idx) (vregionToEndVa idx)
      vregionSize x
  · obtain ⟨x,hat⟩ := hat
    obtain ⟨-,rfl⟩ := whole_start hidx hat
    refine ⟨⟨hat,dvd_index_to_va hidx⟩,fun p hp hfull => ?_⟩
    obtain ⟨i,hfree,-⟩ := hres.fresh p hp
    rw [h.pt.free,Nat.cast_eq_zero,Finset.card_eq_zero] at hfull
    exact Finset.notMem_empty i (hfull ▸ by simp [freeSlots,hfree])
  · -- the page tables stay as they are
    push Not at hat
    unfold allocVaVregion at hrun
    rw [align_whole,if_neg (lt_irrefl _),show retries = 256+1 from rfl,
      retry_none 256 vmFlags h hidx hat] at hrun
    cases hrun
    obtain ⟨i,hfree,hall,-⟩ := hres.fresh (vregionIndexToVa idx)
      ((mem_pages _ _ _).mpr ⟨0,by simp,Nat.lt_add_of_pos_right (by decide)⟩)
    rw [show (s.shadow _ i).allocated = true from hall] at hfree
    cases hfree

structure Whole (pid idx : ℕ) (slot : ℕ → Fin 16) (s u : Soc) : Prop where
  inv : VmInv u
  area : region u pid idx =
    [⟨vregionIndexToVa idx,vregionIndexToVa idx+vregionSize,vmFlagsPopulate⟩]
  other : ∀ p i, ¬(p = pid ∧ i = idx) → region u p i = region s p i
  lent : Lent pid slot s (vregionPages idx) u

lemma recv_whole {slot : ℕ → Fin 16} (h : Base s) (ht : Tidy s)
    (hidx : idx < nrVregions) (hfit : Fits s pid idx vregionSize (vregionIndexToVa idx))
    (hslot : ∀ p ∈ vregionPages idx, freeSlot s (addrToBucketIndex p) = some (slot p)) :
    ∃ u, allocVaVregion s pid idx vregionSize vmFlagsPopulate = .ok (u,vregionIndexToVa idx) ∧
      Whole pid idx slot s u := by
  obtain ⟨hlo,hhi,hfree⟩ := hfit.at_
  obtain ⟨w,hnew,hinv,hvmas⟩ := tree_new_spec h.vm pid _ vregionSize vmFlagsPopulate (by decide)
    hfree hlo hhi
  have hstart : Lent pid slot s [] (setVregion s pid idx w) := lent_vregion (lent_nil h.pt ht)
  obtain ⟨u,hrun,hv,hlent⟩ := lent_alloc_range hstart hslot
    (pages_buckets hfit.toFreeRange (by decide)) (by simp)
  rw [whole_empty h.vm hidx hfit.at_] at hvmas
  have hregion : ∀ p i, region u p i = region (setVregion s pid idx w) p i := by
    intro p i
    rw [region,hv,region]
  refine ⟨u,?_,vm_inv_congr hinv hv,?_,?_,?_⟩
  · have hrange : allocFpgaPteRange (setVregion s pid idx w) pid (vregionIndexToVa idx)
        (vregionIndexToVa idx+vregionSize) vmFlagsPopulate = .ok u := hrun
    rw [alloc_whole h hidx _ hfit,allocFound,hnew,ok_bind]
    dsimp only
    rw [hrange,ok_bind]
    rfl
  · rw [hregion,region_set,if_pos ⟨rfl,rfl⟩,hvmas]
    rfl
  · intro p i hne
    rw [hregion,region_set,if_neg hne]
  · rw [append_nil] at hlent
    exact lent_perm hlent (reverse_perm _)

lemma reserved_of_whole {slot : ℕ → Fin 16}
    (hfit : Fits s pid idx vregionSize (vregionIndexToVa idx))
    (hslot : ∀ p ∈ vregionPages idx, freeSlot s (addrToBucketIndex p) = some (slot p))
    (h : Whole pid idx slot s s') : Reserved s s' pid idx := by
  obtain ⟨hlo,hhi,-⟩ := hfit.at_
  refine ⟨⟨by decide,hlo,hhi,fun x hx1 hx2 => ?_,fun p hp => ?_⟩,fun p hp => ?_⟩
  · rw [h.area]
    exact ⟨_,_,mem_singleton_self _,hx1,hx2,rfl⟩
  · obtain ⟨hall,htag⟩ := h.lent.entry p hp
    obtain ⟨hfall,hftag⟩ := h.lent.pt.sync (addrToBucketIndex p) (slot p)
    exact ⟨slot p,hall,htag,hfall.trans hall,hftag.trans htag⟩
  · obtain ⟨hall,htag⟩ := h.lent.entry p hp
    exact ⟨slot p,(free_slot_iff.mp (hslot p hp)).1,hall,htag⟩

lemma cancel_end (hidx : idx < nrVregions) (hne : idx ≠ 0) :
    vregionIndexToVa idx+vregionSize ≤
        vregionIndexToVa idx+sub64 (vregionIndexToVa ((idx+1)%2^32)) 1 ∧
      vregionIndexToVa idx+sub64 (vregionIndexToVa ((idx+1)%2^32)) 1 < 2^64 := by
  have hn : nrVregions = 1048576 := rfl
  unfold vregionIndexToVa sub64 vregionSize vregionSizeShift
  omega

section

variable {start size len : ℕ} (hpos : 0 < size) (hle : start+size ≤ start+len)

include hpos hle

lemma inter_whole (f : ℕ) : inter start (start+len) [(⟨start,start+size,f⟩ : Range ℕ)] =
    [⟨start,start+size,f⟩] := by
  have hmax : max start start = start := max_self _
  have hmin : min (start+size) (start+len) = start+size := min_eq_left hle
  have hlt : start < start+size := by omega
  simp only [inter,clip,filterMap_cons,filterMap_nil,hmax,hmin,if_pos hlt]

omit hpos in
lemma cut_whole (f : ℕ) : cut start (start+len) [(⟨start,start+size,f⟩ : Range ℕ)] = [] := by
  have hlow : ¬start < min (start+size) start := by omega
  have hhigh : ¬max start (start+len) < start+size := by omega
  simp only [cut,minus,flatMap_cons,flatMap_nil,if_neg hlow,if_neg hhigh, append_nil]

lemma unmap_whole {vma : VmAreaStruct}
    (hvma : VmRep.rangeOf vma = ⟨start,start+size,vmFlagsPopulate⟩) :
    unmapRange vma start (start+len) = some (start,start+size) := by
  obtain ⟨hlo,hhi,hflags⟩ : vma.vmStart = start ∧ vma.vmEnd = start+size ∧
      vma.vmFlags = vmFlagsPopulate := by
    simpa [VmRep.rangeOf] using hvma
  have hmax : max start start = start := max_self _
  have hmin : min (start+size) (start+len) = start+size := min_eq_left hle
  unfold unmapRange
  simp only [hlo,hhi,hflags,hmax,hmin]
  rw [if_neg (by omega),if_neg (by omega),if_pos ⟨by omega,by decide⟩]

end

lemma cancel_whole {slot : ℕ → Fin 16} (h : Whole pid idx slot s s') (hidx : idx < nrVregions)
    (hne : idx ≠ 0) :
    ∃ w, vmas w = [] ∧ freeVaVregion s' pid idx (vregionIndexToVa idx)
        (sub64 (vregionIndexToVa ((idx+1)%2^32)) 1) = (do
      let u ← (vregionPages idx).foldlM (fun s addr => freePte zapShadowPte s pid addr)
        (setVregion s' pid idx w)
      return (u,0)) := by
  obtain ⟨hend,hwrap⟩ := cancel_end hidx hne
  have hpos : 0 < vregionSize := by decide
  have harea := h.area
  unfold vregionPages
  generalize sub64 (vregionIndexToVa ((idx+1)%2^32)) 1 = len at hend hwrap ⊢
  generalize vregionIndexToVa idx = start at harea hend hwrap ⊢
  generalize vregionSize = size at harea hend hpos ⊢
  change vmas (s'.vregion pid idx).toVmaTree = _ at harea
  rcases free_areas_spec (h.inv.good pid idx) start len (by omega) hwrap with
    ⟨⟨r,hr,hlo,-⟩,-⟩ | ⟨-,w,det,hfree,-,hcut,hdet⟩
  · rw [harea,mem_singleton] at hr
    subst hr
    exact absurd hlo (lt_irrefl _)
  · rw [harea,cut_whole hend] at hcut
    rw [harea,inter_whole hpos hend] at hdet
    obtain ⟨vma,rfl,hvma⟩ := map_eq_singleton_iff.mp hdet
    refine ⟨w,hcut,?_⟩
    unfold freeVaVregion freeVaLocked freeVaWith
    rw [hfree,ok_bind]
    dsimp only
    rw [Nat.mod_eq_of_lt hwrap,unmapRegion,foldlM_cons,unmapSingleVma, unmap_whole hpos hend hvma]
    dsimp only
    rw [freePteRange]
    simp only [foldlM_nil,bind_pure]

end

/-! ## The two requests -/

section

variable {m u : System} {pid idx : ℕ}

lemma recv_eq (hidx : idx < nrVregions) :
    handleMigrationRecv m pid idx = (do
      let (s,addr) ← allocVaVregion (openProc m.board pid).soc pid idx vregionSize vmFlagsPopulate
      return (putSystem { openSystem m pid with
          board := { openProc m.board pid with soc := s } } pid,
        if isErrValue addr then -ENOMEM else 0)) := by
  unfold handleMigrationRecv
  exact if_neg hidx.not_ge

lemma recv_process {b c : State} (href : b.refcount pid ≠ some 0)
    (hc : c.refcount = (openProc b pid).refcount) :
    ∃ b', getProcByPid (putProcInfo c pid) pid = some b' ∧ b'.soc = c.soc := by
  have hcount : c.refcount pid = some ((b.refcount pid).getD 1+1) := by
    rw [hc,open_proc_refcount,Function.update_self]
  have hne : ¬(b.refcount pid).getD 1+1 = 1 := by
    cases hr : b.refcount pid with
    | none => simp
    | some r =>
      rw [hr] at href
      simpa using href
  rw [getProcByPid,put_proc_refcount hcount,if_neg hne,Function.update_self,Option.map_some]
  exact ⟨_,rfl,put_proc_soc ..⟩

lemma cancel_eq (hidx : idx < nrVregions) {b : State} (hget : getProcByPid m.board pid = some b) :
    handleMigrationRecvCancel m pid idx = (do
      let (s,_) ← freeVaVregion b.soc pid idx (vregionIndexToVa idx)
        (sub64 (vregionIndexToVa ((idx+1)%2^32)) 1)
      return (putSystem { m with board := { b with soc := s } } pid,0)) := by
  unfold handleMigrationRecvCancel
  rw [hget]
  exact if_neg hidx.not_ge

lemma recv_ok (hidx : idx < nrVregions) {ret : ℤ}
    (hrun : handleMigrationRecv m pid idx = .ok (u,ret)) :
    ret = 0 ∧ ∃ addr, allocVaVregion (openProc m.board pid).soc pid idx vregionSize
      vmFlagsPopulate = .ok (u.board.soc,addr) := by
  rw [recv_eq hidx] at hrun
  obtain ⟨⟨s,addr⟩,halloc,hpure⟩ := (bind_ok_iff _ _ _).mp hrun
  dsimp only at hpure
  rw [if_neg (alloc_va_not_err halloc)] at hpure
  cases hpure
  have hsoc : (putSystem { openSystem m pid with
      board := { openProc m.board pid with soc := s } } pid).board.soc = s := put_proc_soc ..
  exact ⟨rfl,addr,by rw [hsoc,halloc]⟩

variable (h : Base m.board.soc) (ht : Tidy m.board.soc) (hidx : idx < nrVregions)
  (href : m.board.refcount pid ≠ some 0)

include h in
lemma base_open : Base (openProc m.board pid).soc := by
  rcases (open_proc_cases m.board pid).2 with ⟨-,hsoc⟩ | ⟨-,hsoc⟩ <;> rw [hsoc]
  · exact h
  · exact base_new h pid

include ht in
lemma tidy_open : Tidy (openProc m.board pid).soc := by
  rcases (open_proc_cases m.board pid).2 with ⟨-,hsoc⟩ | ⟨-,hsoc⟩ <;> rw [hsoc]
  · exact ht
  · exact ⟨ht.full,ht.mapped⟩

include h ht hidx href

lemma recv_cancel_eq (hfit : Fits (openProc m.board pid).soc pid idx vregionSize
    (vregionIndexToVa idx)) :
    ∃ (slot : ℕ → Fin 16) (u : System) (s : Soc) (b : State) (w : VmaTree), (∀ p ∈ vregionPages idx,
        freeSlot (openProc m.board pid).soc (addrToBucketIndex p) = some (slot p)) ∧
      handleMigrationRecv m pid idx = .ok (u,0) ∧ u.board.soc = s ∧
      Whole pid idx slot (openProc m.board pid).soc s ∧ vmas w = [] ∧
      handleMigrationRecvCancel u pid idx = (do
        let t ← (vregionPages idx).foldlM (fun s addr => freePte zapShadowPte s pid addr)
          (setVregion s pid idx w)
        return (putSystem { u with board := { b with soc := t } } pid,0)) := by
  have hopen : Base (openProc m.board pid).soc := base_open h
  have hslots : ∀ p, ∃ i, p ∈ vregionPages idx →
      freeSlot (openProc m.board pid).soc (addrToBucketIndex p) = some i := by
    intro p
    by_cases hp : p ∈ vregionPages idx
    · have hroom := hfit.room p hp
      rw [hopen.pt.free] at hroom
      obtain ⟨i,hi,-⟩ := free_slot_some (show (freeSlots _ _).card ≠ 0 by exact_mod_cast hroom)
      exact ⟨i,fun _ => hi⟩
    · exact ⟨0,fun hp' => absurd hp' hp⟩
  choose slot hslot using hslots
  obtain ⟨s,halloc,hwhole⟩ := recv_whole hopen (tidy_open ht) hidx hfit hslot
  obtain ⟨hne,-⟩ := whole_start hidx hfit.at_
  obtain ⟨w,hw,hcancel⟩ := cancel_whole hwhole hidx hne
  have hrecv : handleMigrationRecv m pid idx = _ := recv_eq hidx
  rw [halloc,ok_bind] at hrecv
  dsimp only at hrecv
  rw [if_neg (alloc_va_not_err halloc)] at hrecv
  obtain ⟨b,hget,hsoc⟩ := recv_process (c := { openProc m.board pid with soc := s }) href rfl
  refine ⟨slot,_,s,b,w,hslot,hrecv,put_proc_soc ..,hwhole,hw,?_⟩
  rw [cancel_eq hidx hget,hsoc]
  dsimp only
  rw [hcancel]
  simp

end

/-- Cancelling undoes the preparation exactly where the whole vRegion is free. -/
theorem recv_cancel_iff (m : System) (pid idx : ℕ) (h : Base m.board.soc) (ht : Tidy m.board.soc)
    (href : m.board.refcount pid ≠ some 0) (hidx : idx < nrVregions) :
    RoundTrip m pid idx ↔ Reservable (openProc m.board pid).soc pid idx := by
  have hbase : Base (openProc m.board pid).soc := base_open h
  have htidy : Tidy (openProc m.board pid).soc := tidy_open ht
  have hnone : Fits (openProc m.board pid).soc pid idx vregionSize (vregionIndexToVa idx) →
      ∀ p ∈ vregionPages idx,
        ((openProc m.board pid).soc.info (addrToBucketIndex p)).conflicts = [] := by
    intro hfit p hp
    by_contra hsome
    exact hfit.room p hp (htidy.full _ hsome)
  have hbuckets : Fits (openProc m.board pid).soc pid idx vregionSize (vregionIndexToVa idx) →
      (vregionPages idx).Pairwise fun p q => addrToBucketIndex p ≠ addrToBucketIndex q :=
    fun hfit => pages_buckets hfit.toFreeRange (by decide)
  constructor
  · rintro ⟨u,v,ret,hrecv,hcancel,hsame,hres⟩
    obtain ⟨rfl,addr,halloc⟩ := recv_ok hidx hrecv
    have hfit := fits_of_reserved hbase hidx halloc (hres rfl)
    obtain ⟨slot,u',s,b,w,hslot,hrecv',hsoc,hwhole,hw,hcancel'⟩ :=
      recv_cancel_eq h ht hidx href hfit
    rw [hrecv] at hrecv'
    cases hrecv'
    rw [hcancel'] at hcancel
    obtain ⟨t,hfree,hpure⟩ := (bind_ok_iff _ _ _).mp hcancel
    cases hpure
    refine ⟨hfit,unshadowed_of_kept hbase.pt hslot (hnone hfit) (hbuckets hfit)
      (lent_vregion hwhole.lent) hfree ?_⟩
    intro c i hall
    have hkept := (hsame.shadow c i).1
    rw [hall] at hkept
    exact (congrArg (fun s => (s.shadow c i).allocated) (put_proc_soc ..)).symm.trans hkept
  · rintro ⟨hfit,hclean⟩
    obtain ⟨slot,u,s,b,w,hslot,hrecv,hsoc,hwhole,hw,hcancel⟩ :=
      recv_cancel_eq h ht hidx href hfit
    have hlent : Lent pid slot (openProc m.board pid).soc (vregionPages idx)
        (setVregion s pid idx w) := lent_vregion hwhole.lent
    obtain ⟨t,hfree,hv,hback⟩ := lent_free_range hbase.pt hslot (hnone hfit) (hbuckets hfit)
      hlent hclean
    have hrun : handleMigrationRecvCancel u pid idx =
        .ok (putSystem { u with board := { b with soc := t } } pid,0) := by
      rw [hcancel]
      exact congrArg (· >>= _) hfree
    have hsame : Same (openProc m.board pid).soc t := by
      refine lent_back hbase.pt hback fun p i => ?_
      have hregion : region t p i = region (setVregion s pid idx w) p i := by
        rw [region,hv,region]
      rw [hregion,region_set]
      split
      · rename_i hp
        rw [hp.1,hp.2,hw,whole_empty hbase.vm hidx hfit.at_]
      · rename_i hp
        exact hwhole.other p i hp
    refine ⟨u,_,0,hrecv,hrun,?_,fun _ => ?_⟩
    · have hv : (putSystem { u with board := { b with soc := t } } pid).board.soc = t :=
        put_proc_soc ..
      rw [hv]
      exact hsame
    · rw [hsoc]
      exact reserved_of_whole hfit hslot hwhole

lemma start_tidy : Tidy start.board.soc := by
  refine ⟨fun _ h => absurd rfl h,fun _ _ h => ?_⟩
  change false = true at h
  cases h

/-- A new process whose second vRegion is prepared and cancelled. -/
theorem recv_cancel_new : RoundTrip start 1 1 := by
  refine (recv_cancel_iff start 1 1 state_boot.base start_tidy (by decide) (by decide)).mpr ⟨?_,?_⟩
  · refine ⟨⟨⟨by decide,by decide,?_⟩,by decide⟩,fun p _ => ?_⟩
    · rw [show region (openProc start.board 1).soc 1 1 = [] from good_init.2]
      exact fun r hr => absurd hr not_mem_nil
    · show (16 : ℤ) ≠ 0
      decide
  · intro p _ j hall
    change false = true at hall
    cases hall

/-- The preparation reserves nothing and replies 0, and cancelling takes a page away. -/
theorem cancel_loses_area : ∃ m u v, run exec [.alloc 1 1 0x400000 0] start = some m ∧
    handleMigrationRecv m 1 1 = .ok (u,0) ∧ handleMigrationRecvCancel u 1 1 = .ok (v,0) ∧
    region (openProc m.board 1).soc 1 1 = [⟨0x7fc00000,0x80000000,0⟩] ∧
    region u.board.soc 1 1 = [⟨0x7fc00000,0x80000000,0⟩] ∧ region v.board.soc 1 1 = [] ∧
    ¬RoundTrip m 1 1 := by
  obtain ⟨m,hm,hrecv⟩ := exists_checked (run exec [.alloc 1 1 0x400000 0] start) (fun m =>
    (handleMigrationRecv m 1 1).toOption.any fun x =>
      (handleMigrationRecvCancel x.1 1 1).toOption.any fun y =>
        x.2 = 0 ∧ y.2 = 0 ∧
          region (openProc m.board 1).soc 1 1 = [⟨0x7fc00000,0x80000000,0⟩] ∧
          region x.1.board.soc 1 1 = [⟨0x7fc00000,0x80000000,0⟩] ∧
          region y.1.board.soc 1 1 = []) (by decide +kernel)
  obtain ⟨⟨u,ret⟩,hu,hcancel⟩ := (Option.any_eq_true _ _).mp hrecv
  obtain ⟨⟨v,ret'⟩,hv,rfl,rfl,hbefore,hbetween,hafter⟩ := ok_checked _ _ hcancel
  have hu := to_option_eq hu
  refine ⟨m,u,v,hm,hu,hv,hbefore,hbetween,hafter,?_⟩
  rintro ⟨u',v',ret,hrecv',hcancel',hsame,-⟩
  rw [hu] at hrecv'
  cases hrecv'
  rw [hv] at hcancel'
  cases hcancel'
  have := hsame.trees 1 1
  rw [hbefore,hafter] at this
  cases this

end Clio.MigrationCancel
