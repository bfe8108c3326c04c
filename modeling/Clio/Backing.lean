import Clio.AllocReply
import Clio.TableSteps

/-!
# Entries and frames for a range

At most as many pages as a vRegion has lie in different buckets.
-/

namespace Clio.Backing

open Function

open Ranges VmArea FindVaRange Buddy Pgtable Vm VmRegion VmFree Pte VmAlloc
open Board Machine Requests AllocReply
  Footprint TableSteps

lemma near_buckets {a len : ℕ} (ha : pageSize ∣ a) (hle : len ≤ vregionSize) :
    (pages a (a+len)).Pairwise fun p q => addrToBucketIndex p ≠ addrToBucketIndex q := by
  obtain ⟨n,rfl⟩ := ha
  have hv : vregionSize = 1073741824 := rfl
  unfold pages addrToBucketIndex
  rw [List.pairwise_map]
  refine List.pairwise_lt_range.imp_of_mem ?_
  intro j k hj hk hjk
  have hk := List.mem_range.mp hk
  have hpage : ∀ i, (pageSize*n+i*pageSize)/pageSize = n+i := by
    intro i
    rw [Nat.mul_comm i,← Nat.mul_add,Nat.mul_div_cancel_left _ (by decide)]
  rw [hpage,hpage]
  have hp : pageSize = 4194304 := rfl
  have hb : fpgaNumPgtableBuckets = 32768 := rfl
  rw [hv] at hle
  rw [hp] at hk
  rw [hb]
  omega

section

variable {s u : Soc} {pid vmFlags : ℕ} {l : List ℕ}

lemma found_once_iff (hl : l.Pairwise fun p q => addrToBucketIndex p ≠ addrToBucketIndex q)
    (hfill : Filled pid l s u) {p : ℕ} (hp : p ∈ l) :
    (∃! i, Found u pid p i) ↔ ∀ i, ¬Found s pid p i := by
  obtain ⟨slot,hnew,hsame⟩ := hfill.slots
  obtain ⟨hno,hall,htag⟩ := hnew p hp
  have hother : ∀ i, i ≠ slot p → (Found u pid p i ↔ Found s pid p i) := by
    intro i hi
    have hentry : u.shadow (addrToBucketIndex p) i = s.shadow (addrToBucketIndex p) i := by
      refine hsame _ i fun q hq hqi => hi ?_
      rw [← hqi.2,bucket_eq hl hq hp hqi.1]
    rw [Found,hentry,Found]
  constructor
  · rintro ⟨j,-,honly⟩ i hi
    have hne : i ≠ slot p := by
      rintro rfl
      rw [hi.1] at hno
      cases hno
    exact hne ((honly i ((hother i hne).mpr hi)).trans (honly (slot p) ⟨hall,htag⟩).symm)
  · intro hbefore
    refine ⟨slot p,⟨hall,htag⟩,fun i hi => ?_⟩
    by_contra hne
    exact hbefore i ((hother i hne).mp hi)

lemma slot_left (h : PtInv s) (hfill : Filled pid l s u) {p : ℕ}
    (hp : ∀ q ∈ l, addrToBucketIndex q ≠ addrToBucketIndex p)
    (hroom : (s.info (addrToBucketIndex p)).nrFree ≠ 0) : allocOneShadowPte u pid p ≠ none := by
  obtain ⟨slot,-,hsame⟩ := hfill.slots
  have hcard : (freeSlots u.shadow (addrToBucketIndex p)).card ≠ 0 := by
    have hslots : freeSlots u.shadow (addrToBucketIndex p) =
        freeSlots s.shadow (addrToBucketIndex p) := by
      unfold freeSlots
      congr 1
      funext i
      rw [hsame _ i fun q hq hqi => hp q hq hqi.1]
    rw [hslots]
    rw [h.free] at hroom
    exact_mod_cast hroom
  obtain ⟨i,hslot,-⟩ := free_slot_some hcard
  rw [allocOneShadowPte,hslot]
  simp

end

/-- A range that passed the check gets all entries, found once if none was found before. -/
theorem passed_check_entries (ops : List Teardown.Op) (m : State)
    (hrun : run Teardown.exec ops boot = some m) (pid idx a len vmFlags : ℕ) (ha : pageSize ∣ a)
    (hle : len ≤ vregionSize) (s : Soc)
    (hcheck : checkAndInsertShadowConflicts m.soc pid idx a len = .ok (s,false)) :
    ∃ u, allocFpgaPteRange s pid a (a+len) vmFlags = .ok u ∧
      (∀ l p r, pages a (a+len) = l++p::r →
        ∃ t, l.foldlM (fun s addr => allocPte s pid addr vmFlags) s = .ok t ∧
          allocOneShadowPte t pid p ≠ none) ∧
      ((∀ p ∈ pages a (a+len), ∃! i, Found u pid p i) ↔
        ∀ p ∈ pages a (a+len), ∀ i, ¬Found m.soc pid p i) := by
  have hpt : PtInv m.soc := (run_preserves Teardown.exec Tables step_tables ops boot m
    ⟨state_boot.base.pt,state_boot.fifo⟩ hrun).pt
  obtain ⟨rfl,hroom⟩ := check_passed hcheck
  have hbuckets := near_buckets ha hle
  obtain ⟨u,hu,hfill⟩ := alloc_range_spec pid vmFlags _ hpt hbuckets hroom
  refine ⟨u,hu,fun l p r hsplit => ?_,?_⟩
  · rw [hsplit] at hbuckets hroom
    obtain ⟨hfirst,-,hacross⟩ := List.pairwise_append.mp hbuckets
    obtain ⟨t,ht,hfill'⟩ := alloc_range_spec pid vmFlags l hpt hfirst
      fun q hq => hroom q (by simp [hq])
    exact ⟨t,ht,slot_left hpt hfill' (fun q hq => hacross q hq p (by simp)) (hroom p (by simp))⟩
  · exact forall_congr' fun p => forall_congr' fun hp => found_once_iff hbuckets hfill hp

theorem passed_check_entries_boot :
    ∃ s u, checkAndInsertShadowConflicts boot.soc 1 1 0x7fc00000 pageSize = .ok (s,false) ∧
      allocFpgaPteRange s 1 0x7fc00000 (0x7fc00000+pageSize) 0 = .ok u ∧
      ∀ p ∈ pages 0x7fc00000 (0x7fc00000+pageSize), ∃! i, Found u 1 p i := by
  have hcheck : checkAndInsertShadowConflicts boot.soc 1 1 0x7fc00000 pageSize =
      .ok (boot.soc,false) := rfl
  obtain ⟨u,hu,-,hiff⟩ := passed_check_entries [] boot rfl 1 1 0x7fc00000 pageSize 0 (by decide)
    (by decide) boot.soc hcheck
  refine ⟨_,u,hcheck,hu,hiff.mpr fun p _ i hfound => ?_⟩
  cases hfound.1

/-- A page merged into the area of a conflict keeps its entry when it is freed. -/
def merged : List Teardown.Op :=
  (List.range 17).map (fun k => .request (.alloc (k+1) 0 pageSize 0))++
    [.request (.free 17 0x3f800000 pageSize)]

/-- The freed page passes the check again and gets a second entry. -/
theorem stale_entry_found_twice :
    ∃ m u, run Teardown.exec merged boot = some m ∧
      checkAndInsertShadowConflicts m.soc 17 0 0x3f800000 pageSize = .ok (m.soc,false) ∧
      allocFpgaPteRange m.soc 17 0x3f800000 (0x3f800000+pageSize) 0 = .ok u ∧
      Found u 17 0x3f800000 0 ∧ Found u 17 0x3f800000 1 := by
  obtain ⟨m,hm,hpassed,hentered⟩ := exists_checked (run Teardown.exec merged boot) (fun m =>
    (checkAndInsertShadowConflicts m.soc 17 0 0x3f800000 pageSize).toOption.any
        (fun x => x.2 = false) ∧
      (allocFpgaPteRange m.soc 17 0x3f800000 (0x3f800000+pageSize) 0).toOption.any
        fun u => Found u 17 0x3f800000 0 ∧ Found u 17 0x3f800000 1) (by decide +kernel)
  obtain ⟨⟨s,found⟩,hcheck,rfl⟩ := ok_checked _ _ hpassed
  obtain ⟨u,hu,hentries⟩ := ok_checked _ _ hentered
  obtain ⟨rfl,-⟩ := check_passed hcheck
  exact ⟨m,u,hm,hcheck,hu,hentries⟩

/-- The page has an entry of the FPGA table that maps a managed frame. -/
def Mapped (s : Soc) (pid p : ℕ) : Prop :=
  ∃ i pfn, (s.fpga (addrToBucketIndex p) i).allocated = true ∧
    (s.fpga (addrToBucketIndex p) i).tag = generateTag pid p ∧
    (s.fpga (addrToBucketIndex p) i).valid = true ∧ pfnInRange board pfn ∧
    (s.fpga (addrToBucketIndex p) i).ppa = pfn*pageSize+fpgaMemoryMapMappingBase

/-- The tables are well formed, `n` frames are free and the buckets have room. -/
structure Ready (n : ℕ) (l : List ℕ) (s : Soc) : Prop where
  pt : PtInv s
  frames : n ≤ (s.zone.freeList 0).length
  room : ∀ p ∈ l, (s.info (addrToBucketIndex p)).nrFree ≠ 0

section

variable {s s' : Soc} {pid vmFlags n : ℕ} {l : List ℕ}

lemma zap_frames (hz : ZoneOk board s.zone) {b : ℕ} {i : Fin 16} (hrun : zapPte s b i = .ok s') :
    (s.zone.freeList 0).length ≤ (s'.zone.freeList 0).length := by
  unfold zapPte at hrun
  dsimp only at hrun
  split_ifs at hrun
  · obtain ⟨zone,hfree,hpure⟩ := (bind_ok_iff _ _ _).mp hrun
    cases hpure
    by_cases hr : pfnInRange board (ppaToPfn (s.fpga b i).ppa)
    · obtain ⟨z,hz',-,hlist⟩ := free_pfn_spec (show board.maxOrder = 1 from rfl) s.zone hz hr
      rw [hz'] at hfree
      cases hfree
      show (s.zone.freeList 0).length ≤ (zone.freeList 0).length
      rw [hlist]
      split_ifs
      · exact le_rfl
      · simp
    · rw [freePfn,if_neg hr] at hfree
      cases hfree
  · cases hrun
    exact le_rfl
  · cases hrun
    exact le_rfl

lemma ready_stable (n : ℕ) (l : List ℕ) : Stable (Ready n l) where
  vregion _ _ _ h := ⟨pt_stable.vregion _ _ _ h.pt,h.frames,h.room⟩
  zap s b i s' h hall hrun := by
    refine ⟨pt_stable.zap s b i s' h.pt hall hrun,?_,fun p hp => ?_⟩
    · obtain ⟨t,ht,hs'⟩ := (bind_ok_iff _ _ _).mp hrun
      have hzone : t.zone = s.zone := by rw [zap_shadow_frame hall ht]
      have hgrow := zap_frames (hzone ▸ h.pt.zone) hs'
      rw [hzone] at hgrow
      exact h.frames.trans hgrow
    · obtain ⟨t,ppa,zone,-,rfl,-⟩ := zap_both_cleared h.pt hall hrun
      by_cases hb : addrToBucketIndex p = b
      · have hfree := h.pt.free b
        simp only [cleared,hb,update_self]
        omega
      · simp only [cleared,update_of_ne hb]
        exact h.room p hp
  conflict s b ci h hfull := by
    refine ⟨pt_stable.conflict s b ci h.pt hfull,h.frames,fun p hp => ?_⟩
    by_cases hb : addrToBucketIndex p = b
    · have := h.room p hp
      rw [hb] at this
      exact absurd hfull this
    · simp only [setInfo,update_of_ne hb]
      exact h.room p hp

lemma alloc_pte_mapped {p : ℕ} (h : Ready (n+1) [p] s) (hpop : vmFlags &&& vmFlagsPopulate ≠ 0)
    (hrun : allocPte s pid p vmFlags = .ok s') :
    PtInv s' ∧ n ≤ (s'.zone.freeList 0).length ∧ Mapped s' pid p ∧
      ∀ c, c ≠ addrToBucketIndex p → s'.fpga c = s.fpga c ∧ s'.info c = s.info c := by
  have hpt := alloc_pte_inv h.pt hrun
  have hcard : (freeSlots s.shadow (addrToBucketIndex p)).card ≠ 0 := by
    have hroom := h.room p (by simp)
    rw [h.pt.free] at hroom
    exact_mod_cast hroom
  obtain ⟨i,hslot,hno⟩ := free_slot_some hcard
  have hfpga : ¬(s.fpga (addrToBucketIndex p) i).allocated = true := by
    rw [(h.pt.sync _ i).1,hno]
    simp
  obtain ⟨pfn,rest,hlist⟩ : ∃ pfn rest, s.zone.freeList 0 = pfn::rest := by
    cases hl : s.zone.freeList 0 with
    | nil =>
      have hframes := h.frames
      rw [hl] at hframes
      simp at hframes
    | cons pfn rest => exact ⟨pfn,rest,rfl⟩
  have hlen := h.frames
  rw [hlist,List.length_cons] at hlen
  obtain ⟨u,htag,hufpga,huzone,-,htaken,hpass⟩ := alloc_pte_eq hslot
  obtain ⟨hin,zone,hzone,-,hmapped⟩ := alloc_fpga_mapped (s := u) (b := addrToBucketIndex p)
    (i := i) (huzone ▸ h.pt.zone) (hufpga ▸ hfpga) hpop (huzone ▸ hlist)
  rw [hpass,hmapped,htag,htaken] at hrun
  cases hrun
  refine ⟨hpt,?_,⟨i,pfn,?_⟩,fun c hc => ⟨?_,update_of_ne hc _ _⟩⟩
  · show n ≤ (zone.freeList 0).length
    rw [hzone]
    omega
  · simp [taken,setPte,hin]
  · simp [taken,setPte,hc]

lemma alloc_range_mapped (hpop : vmFlags &&& vmFlagsPopulate ≠ 0) (l : List ℕ) (s : Soc)
    (h : Ready l.length l s)
    (hl : l.Pairwise fun p q => addrToBucketIndex p ≠ addrToBucketIndex q)
    (hrun : l.foldlM (fun s addr => allocPte s pid addr vmFlags) s = .ok s') :
    (∀ p ∈ l, Mapped s' pid p) ∧
      ∀ c, (∀ p ∈ l, addrToBucketIndex p ≠ c) → s'.fpga c = s.fpga c := by
  induction l generalizing s with
  | nil =>
    cases hrun
    exact ⟨by simp,fun _ _ => rfl⟩
  | cons p l ih =>
    rw [List.foldlM_cons] at hrun
    obtain ⟨t,ht,hrest⟩ := (bind_ok_iff _ _ _).mp hrun
    obtain ⟨hfirst,hothers⟩ := List.pairwise_cons.mp hl
    obtain ⟨hpt,hframes,hmapped,hsame⟩ := alloc_pte_mapped
      ⟨h.pt,h.frames,fun q hq => h.room q (by simp [List.mem_singleton.mp hq])⟩ hpop ht
    have hready : Ready l.length l t := by
      refine ⟨hpt,hframes,fun q hq => ?_⟩
      rw [(hsame _ (hfirst q hq).symm).2]
      exact h.room q (by simp [hq])
    obtain ⟨hall,hkeep⟩ := ih t hready hothers hrest
    refine ⟨List.forall_mem_cons.mpr ⟨?_,hall⟩,fun c hc => ?_⟩
    · unfold Mapped
      rw [hkeep (addrToBucketIndex p) fun q hq => (hfirst q hq).symm]
      exact hmapped
    · rw [hkeep c fun q hq => hc q (by simp [hq]),(hsame c (hc p (by simp)).symm).1]

end

/-- No entry, no frame and no area is new, but for the marks of full buckets. -/
structure Untouched (pid idx : ℕ) (s s' : Soc) : Prop where
  shadow : s'.shadow = s.shadow
  fpga : s'.fpga = s.fpga
  zone : s'.zone = s.zone
  other : ∀ q i, ¬(q = pid ∧ i = idx) → region s' q i = region s q i
  marks : ∀ x ∈ covered (region s' pid idx), x ∈ covered (region s pid idx) ∨ Full s x

/-- The range is mapped as a whole, and a call without enough frames fails and leaves nothing. -/
structure Backed (pid idx len a : ℕ) (s s' : Soc) : Prop where
  mapped : a ≠ 0 → ∀ p ∈ pages a (a+pageAlign len), Mapped s' pid p
  undone : (s.zone.freeList 0).length < pageAlign len/pageSize → a = 0 ∧ Untouched pid idx s s'

section

variable {m : State} {pid idx len vmFlags a : ℕ} {s : Soc}

lemma enough_mapped (hpt : PtInv m.soc) (hpop : vmFlags &&& vmFlagsPopulate ≠ 0)
    (hframes : pageAlign len/pageSize ≤ (m.soc.zone.freeList 0).length)
    (halloc : allocVaVregion m.soc pid idx len vmFlags = .ok (s,a)) (ha : a ≠ 0) :
    ∀ p ∈ pages a (a+pageAlign len), Mapped s pid p := by
  unfold allocVaVregion at halloc
  dsimp only at halloc
  split_ifs at halloc with hle
  have hready : Ready (pageAlign len/pageSize) [] m.soc := ⟨hpt,hframes,by simp⟩
  rcases alloc_retry_stable (ready_stable _ _) hready halloc with
    ⟨-,hzero⟩ | ⟨t,u,ht,-,htaken⟩
  · exact absurd hzero ha
  · have hlength := pages_length a (pageAlign len) (page_align_dvd len)
    have hentered := (tree_new_keeps (ready_stable (pages a (a+pageAlign len)).length
      (pages a (a+pageAlign len))).toKeeps ⟨ht.pt,hlength ▸ ht.frames,htaken.room⟩ htaken.entered).1
    exact (alloc_range_mapped hpop _ u hentered
      (near_buckets htaken.aligned (Nat.le_of_not_lt hle)) htaken.entries).1

lemma marked_untouched {t : Soc} (n : ℕ) (h : Marked pid idx s t) :
    Untouched pid idx s { t with cachedVregionStart := n } := by
  obtain ⟨A,hgrown,hfull⟩ := h
  have hframe := hgrown.frame
  refine ⟨?_,?_,?_,hgrown.other,fun x hx => ?_⟩
  · show t.shadow = s.shadow
    rw [hframe]
  · show t.fpga = s.fpga
    rw [hframe]
  · show t.zone = s.zone
    rw [hframe]
  · have hx : x ∈ covered (region s pid idx) ∪ A := hgrown.cover ▸ hx
    exact hx.imp_right fun hA => (hfull x hA).1

lemma short_backed_iff (h : StateInv m) (hidx : idx < nrVregions) (hlen : len < 2^64)
    (hshort : (m.soc.zone.freeList 0).length < pageAlign len/pageSize)
    (halloc : allocVaVregion m.soc pid idx len vmFlags = .ok (s,a)) :
    Backed pid idx len a m.soc s ↔ ∀ x, ¬Fits m.soc pid idx (pageAlign len) x := by
  have hle : len ≤ vregionSize ∧ 0 < len := by
    have hmax := alloc_va_len halloc
    have hps : pageSize = 4194304 := rfl
    unfold pageAlign at hmax hshort
    rw [hps] at hmax hshort
    omega
  rcases alloc_outcome pid vmFlags h.base h.aligned hidx hle.2 hle.1 with
    ⟨t,ht,hno,heq⟩ | ⟨t,s',b,-,hfit,-,-,heq⟩ <;> rw [halloc] at heq <;> cases heq
  · exact iff_of_true ⟨fun hne => absurd rfl hne,fun _ => ⟨rfl,marked_untouched _ ht⟩⟩ hno
  · exact iff_of_false (fun hb => fits_pos hfit (hb.undone hshort).1) fun hno => hno _ hfit

end

/-- With enough free frames every page that is populated is mapped to a managed one; without them
the call does as it should exactly if no range fits. -/
theorem populated_mapped (ops : List Teardown.Op) (m : State)
    (hrun : run Teardown.exec ops boot = some m) (pid idx len vmFlags : ℕ)
    (hpop : vmFlags &&& vmFlagsPopulate ≠ 0) (s : Soc) (a : ℕ)
    (halloc : allocVaVregion m.soc pid idx len vmFlags = .ok (s,a)) :
    (pageAlign len/pageSize ≤ (m.soc.zone.freeList 0).length → a ≠ 0 →
      ∀ p ∈ pages a (a+pageAlign len), Mapped s pid p) ∧
    (Guarded Teardown.exec WellFormed ops boot → idx < nrVregions → len < 2^64 →
      (Backed pid idx len a m.soc s ↔ pageAlign len/pageSize ≤ (m.soc.zone.freeList 0).length ∨
        ∀ x, ¬Fits m.soc pid idx (pageAlign len) x)) := by
  have hpt : PtInv m.soc := (run_preserves Teardown.exec Tables step_tables ops boot m
    ⟨state_boot.base.pt,state_boot.fifo⟩ hrun).pt
  refine ⟨fun hframes => enough_mapped hpt hpop hframes halloc,fun hok hidx hlen => ?_⟩
  have hinv : StateInv m := run_invariant Teardown.exec WellFormed StateInv
    (fun _ _ _ => state_step) ops boot m state_boot hok hrun
  by_cases hframes : pageAlign len/pageSize ≤ (m.soc.zone.freeList 0).length
  · exact iff_of_true ⟨enough_mapped hpt hpop hframes halloc,fun hlt => absurd hframes (by omega)⟩
      (.inl hframes)
  · rw [short_backed_iff hinv hidx hlen (Nat.lt_of_not_le hframes) halloc]
    exact ⟨.inr,fun h => h.resolve_left hframes⟩

/-- A page is populated, and all of vRegion 0, which begins at 0x1000, is refused. -/
theorem populated_mapped_boot :
    (∃ s a, allocVaVregion boot.soc 1 1 pageSize vmFlagsPopulate = .ok (s,a) ∧
      a ≠ 0 ∧ ∀ p ∈ pages a (a+pageAlign pageSize), Mapped s 1 p) ∧
    ∃ s, allocVaVregion boot.soc 1 0 vregionSize vmFlagsPopulate = .ok (s,0) ∧
      Backed 1 0 vregionSize 0 boot.soc s := by
  obtain ⟨⟨s,a⟩,hs,hne⟩ := ok_checked (allocVaVregion boot.soc 1 1 pageSize vmFlagsPopulate)
    (fun x => x.2 ≠ 0) (by decide +kernel)
  obtain ⟨⟨u,b⟩,hu,rfl⟩ := ok_checked (allocVaVregion boot.soc 1 0 vregionSize vmFlagsPopulate)
    (fun x => x.2 = 0) (by decide +kernel)
  refine ⟨⟨s,a,hs,hne,?_⟩,u,hu,?_⟩
  · exact (populated_mapped [] boot rfl 1 1 pageSize vmFlagsPopulate (by decide) s a hs).1
      (by decide +kernel) hne
  · refine ((populated_mapped [] boot rfl 1 0 vregionSize vmFlagsPopulate (by decide) u 0 hu).2
      trivial (by decide) (by decide)).mpr (.inr fun x hx => ?_)
    obtain ⟨hlo,hhi,-⟩ := hx.at_
    have hround : pageAlign vregionSize = vregionSize := by decide
    have hstart : vregionToStartVa 0 = 0x1000 := rfl
    have hend : vregionToEndVa 0 = vregionSize := rfl
    omega

/-- From 255 frames 256 pages are populated: the last one has no frame. -/
theorem populated_short :
    ∃ s, allocVaVregion boot.soc 1 1 vregionSize vmFlagsPopulate = .ok (s,0x40000000) ∧
      0x7fc00000 ∈ pages 0x40000000 (0x40000000+vregionSize) ∧ ¬Mapped s 1 0x7fc00000 := by
  obtain ⟨⟨s,a⟩,hs,rfl,hinvalid⟩ :=
    ok_checked (allocVaVregion boot.soc 1 1 vregionSize vmFlagsPopulate)
      (fun x => x.2 = 0x40000000 ∧ ∀ i, (x.1.fpga 511 i).valid = false) (by decide +kernel)
  refine ⟨s,hs,(mem_pages _ _ _).mpr ⟨255,by decide,by decide⟩,?_⟩
  rintro ⟨i,pfn,-,-,hvalid,-⟩
  rw [show addrToBucketIndex 0x7fc00000 = 511 from by decide,hinvalid i] at hvalid
  cases hvalid

/-- The hardware follows the shadow table and maps managed frames only, to the close of a process
that ends the run. -/
theorem tables_mirrored (ops : List Teardown.Op) (m : State)
    (hrun : run Teardown.exec ops boot = some m) : PtInv m.soc :=
  (run_preserves Teardown.exec Tables step_tables ops boot m
    ⟨state_boot.base.pt,state_boot.fifo⟩ hrun).pt

theorem tables_mirrored_freed : ∃ m,
    run Teardown.exec [.create 1,.request (.alloc 1 0 8388608 0x2),.create 2,
      .request (.alloc 2 0 4194304 0),.request (.free 1 0x3fc00000 4194304)] boot = some m ∧
    m.dead = false ∧ PtInv m.soc := by
  obtain ⟨m,hm,halive⟩ := exists_checked (run Teardown.exec [.create 1,
      .request (.alloc 1 0 8388608 0x2),.create 2,.request (.alloc 2 0 4194304 0),
      .request (.free 1 0x3fc00000 4194304)] boot) (fun m => m.dead = false) (by decide +kernel)
  exact ⟨m,hm,halive,tables_mirrored _ m hm⟩

end Clio.Backing
