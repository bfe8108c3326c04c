import Clio.Teardown

/-!
# What holds between requests

Requests for whole pages keep the vRegions, the page tables and the conflict lists well formed.
-/

namespace Clio.Requests

open Function

open Ranges VmArea Buddy FindVaRange Pgtable Vm VmRegion VmFree Pte VmAlloc Board Teardown

section

variable {s s' : Soc} {pid : ℕ}

lemma base_vregion {idx : ℕ} {w : VmaTree} (h : Base s) (hinv : VmInv (setVregion s pid idx w)) :
    Base (setVregion s pid idx w) := ⟨hinv,h.conflict,pt_inv_info (s := s) h.pt fun _ => rfl⟩

lemma free_pte_base {addr : ℕ} (h : Base s)
    (hrun : freePte zapShadowPte s pid addr = .ok s') :
    Base s' ∧ (Aligned s → Aligned s') := by
  unfold freePte at hrun
  cases hpte : addrToShadowPte s pid addr with
  | none =>
    rw [hpte] at hrun
    cases hrun
    exact ⟨h,fun ha => ha⟩
  | some i =>
    rw [hpte] at hrun
    obtain ⟨-,-,-,-,hpt,hci,hcut⟩ :=
      zap_both_spec h.vm h.conflict h.pt (shadow_pte_some hpte).1 hrun
    exact ⟨⟨hcut.inv,hci,hpt⟩,hcut.aligned⟩

lemma free_locked_base {idx start len : ℕ} {err : ℤ} (h : Base s) (hs : start < 2^64)
    (hl : len < 2^64) (hrun : freeVaLocked s pid idx start len = .ok (s',err)) :
    Base s' ∧ (Aligned s → pageSize ∣ start → pageSize ∣ len → Aligned s') := by
  obtain ⟨w,r,det,hfree,hinv,hcase⟩ := vm_inv_free h.vm pid idx start len hs hl
  unfold freeVaLocked freeVaWith at hrun
  rw [hfree,ok_bind] at hrun
  obtain ⟨t,ht,hpure⟩ := (bind_ok_iff _ _ _).mp hrun
  cases hpure
  have hstart := base_vregion h hinv
  obtain ⟨hbase,hkeep⟩ := unmap_preserves
    (fun u => Base u ∧ (Aligned (setVregion s pid idx w) → Aligned u))
    (fun u addr u' _ _ hu hstep => by
      obtain ⟨hb,hk⟩ := free_pte_base hu.1 hstep
      exact ⟨hb,fun ha => hk (hu.2 ha)⟩) ⟨hstart,fun ha => ha⟩ ht
  refine ⟨hbase,?_⟩
  intro ha hds hdl
  apply hkeep
  refine (cut_areas h.vm pid idx start len hinv ?_).aligned ha
  rcases hcase with ⟨hw,-⟩ | ⟨-,-,-,hcut,-⟩
  · exact .inl hw
  · exact .inr ⟨hcut,hds,hdl⟩

lemma sub64_dvd {a b : ℕ} (ha : pageSize ∣ a) (hb : pageSize ∣ b) :
    pageSize ∣ sub64 a b := by
  have hword : pageSize ∣ 2^64 := by decide
  unfold sub64
  refine (Nat.dvd_mod_iff hword).mpr ?_
  exact Nat.dvd_sub (dvd_add ha hword) hb

lemma piece_dvd {start len : ℕ} (hs : pageSize ∣ start) (hl : pageSize ∣ len) :
    pageSize ∣ pieceLen start len := by
  have hsub := sub64_dvd (dvd_end_va (vaToVregionIndex start)) hs
  unfold pieceLen
  rcases min_choice (sub64 (vregionToEndVa (vaToVregionIndex start)) start) len with hm | hm <;>
    rw [hm] <;> assumption

lemma free_va_base {start len : ℕ} {err : ℤ} (h : Base s) (ha : Aligned s) (hs : start < 2^64)
    (hl : len < 2^64) (hds : pageSize ∣ start) (hdl : pageSize ∣ len)
    (hrun : freeVa s pid start len = .ok (s',err)) : Base s' ∧ Aligned s' := by
  have hpiece : PieceKeeps pid (fun start len s => (Base s ∧ Aligned s) ∧ start+len < 2^64 ∧
      pageSize ∣ start ∧ pageSize ∣ len) fun s => Base s ∧ Aligned s := by
    rintro s t start len err ⟨⟨hb,ha⟩,hbound,hds,hdl⟩ _ _ hfree
    have hle := piece_le start len
    have hdv := piece_dvd hds hdl
    obtain ⟨hbt,hk⟩ := free_locked_base hb (by omega) (by omega) hfree
    have hal := hk ha hds hdv
    by_cases herr : err = 0
    · exact .inr ⟨herr,⟨hbt,hal⟩,by omega,dvd_add hds hdv,Nat.dvd_sub hdl hdv⟩
    · exact .inl ⟨herr,hbt,hal⟩
  rcases free_va_rule _ _ (fun _ _ _ h => h.1) hpiece ⟨h,ha⟩
    (fun hwrap => ⟨⟨h,ha⟩,by omega,hds,hdl⟩) hrun with ⟨-,hs'⟩ | ⟨-,-,hs',-⟩
  · exact hs'
  · exact hs'

end

section

variable {s s' : Soc} {pid idx len : ℕ}

lemma page_align_le (h : len ≤ vregionSize) : pageAlign len ≤ vregionSize := by
  have hv : vregionSize = 256*pageSize := by decide
  have hp : pageSize = 4194304 := rfl
  unfold pageAlign
  rw [hv] at h ⊢
  apply Nat.mul_le_mul_right
  rw [hp] at h ⊢
  omega

lemma le_page_align (h : len ≤ vregionSize) : len ≤ pageAlign len := by
  have hv : vregionSize = 1073741824 := rfl
  have hp : pageSize = 4194304 := rfl
  unfold pageAlign
  rw [hv] at h
  rw [hp]
  omega

lemma entered_base {a vmFlags : ℕ} (h : Base s) (hlen : pageSize ∣ len) (hpos : 0 < len)
    (hfit : Fits s pid idx len a) (he : Entered pid idx a len vmFlags s s') :
    Base s' ∧ (Aligned s → Aligned s') := by
  obtain ⟨w,hfill⟩ := he.filled
  refine ⟨⟨he.inv,?_,hfill.pt⟩,?_⟩
  · intro b ci hci
    rw [hfill.conflicts b] at hci
    exact h.conflict b ci hci
  · intro ha p i
    by_cases hpi : p = pid ∧ i = idx
    · rw [hpi.1,hpi.2,he.region]
      exact enter_ends (P := (pageSize ∣ ·)) (Q := (pageSize ∣ ·)) (region_sorted h.vm pid idx)
        hfit.at_.2.2 (by omega) hfit.aligned (dvd_add hfit.aligned hlen) (ha pid idx)
    · rw [he.other p i hpi]
      exact ha p i

lemma marked_base {t : Soc} (h : Marked pid idx s t) : Base t ∧ (Aligned s → Aligned t) := by
  obtain ⟨A,hgrown,-⟩ := h
  exact ⟨hgrown.base,hgrown.aligned⟩

lemma base_cached (h : Base s) (n : ℕ) : Base { s with cachedVregionStart := n } :=
  ⟨vm_inv_congr h.vm rfl,h.conflict,h.pt.free,h.pt.sync,h.pt.frames,h.pt.zone,h.pt.spare⟩

lemma start_va_pos (idx : ℕ) : 0 < vregionToStartVa idx := by
  unfold vregionToStartVa
  split_ifs with h
  · decide
  · exact Nat.mul_pos (Nat.pos_of_ne_zero h) (by decide)

lemma fits_pos {a : ℕ} (h : Fits s pid idx len a) : a ≠ 0 := by
  have := h.at_.1
  have := start_va_pos idx
  omega

lemma alloc_retry_rule (P : Soc → Prop) (hP : ∀ s t A, P s → Grown pid idx A s t →
      (∀ x ∈ A, InConflict (t.info (addrToBucketIndex x)).conflicts pid idx x) → P t)
    {n a vmFlags : ℕ} (h : Base s) (hs : P s) (hidx : idx < nrVregions) (hpos : 0 < len)
    (hlen : pageSize ∣ len) (hle : len ≤ vregionSize)
    (hrun : allocRetry pid idx len vmFlags n s = .ok (s',a)) :
    ∃ t, Base t ∧ P t ∧ ((a = 0 ∧ ∃ c, s' = { t with cachedVregionStart := c }) ∨
      (a ≠ 0 ∧ Fits t pid idx len a ∧ Entered pid idx a len vmFlags t s')) := by
  induction n generalizing s with
  | zero => cases hrun
  | succ n ih =>
    obtain ⟨addr,hfind,hspec⟩ := find_va_range_exact (h.vm.good pid idx) (h.vm.topdown pid idx) hidx
      hpos hle (fun r hr => (h.vm.inside pid idx r hr).2)
    unfold allocRetry at hrun
    rw [hfind,ok_bind] at hrun
    rcases hspec with ⟨rfl,-⟩ | ⟨hat,-⟩
    · rw [if_pos (by decide)] at hrun
      cases hrun
      exact ⟨_,h,hs,.inl ⟨rfl,_,rfl⟩⟩
    · rw [if_neg (end_va_small hidx (by have := hat.2.1; omega))] at hrun
      split_ifs at hrun with hmod
      · cases hrun
        exact ⟨_,h,hs,.inl ⟨rfl,_,rfl⟩⟩
      · have hr : FreeRange s pid idx len addr := ⟨hat,Nat.dvd_of_mod_eq_zero (not_not.mp hmod)⟩
        obtain ⟨t,found,hcheck,hgrown,-,hlist,hfound,hsame⟩ := check_spec h hidx hr hlen
        rw [hcheck,ok_bind] at hrun
        dsimp only at hrun
        split_ifs at hrun with hf
        · exact ih hgrown.base (hP s t _ hs hgrown hlist) hrun
        · have hroom : ∀ p ∈ pages addr (addr+len), (s.info (addrToBucketIndex p)).nrFree ≠ 0 :=
            fun p hp hfull => hf (hfound.mpr ⟨p,hp,hfull⟩)
          obtain rfl := hsame hroom
          have hfit : Fits t pid idx len addr := ⟨hr,hroom⟩
          obtain ⟨u,hu,he⟩ := alloc_found_spec h hpos hlen vmFlags hfit
          rw [hu] at hrun
          cases hrun
          exact ⟨t,h,hs,.inr ⟨fits_pos hfit,hfit,he⟩⟩

lemma alloc_va_base {a vmFlags : ℕ} (h : Base s) (hidx : idx < nrVregions)
    (hpos : pageAlign len ≠ 0) (hrun : allocVaVregion s pid idx len vmFlags = .ok (s',a)) :
    Base s' ∧ (Aligned s → Aligned s') := by
  unfold allocVaVregion at hrun
  dsimp only at hrun
  split_ifs at hrun with hle
  have hpos := Nat.pos_of_ne_zero hpos
  obtain ⟨t,hb,ht,hcase⟩ := alloc_retry_rule (fun t => Aligned s → Aligned t)
    (fun _ _ _ hu hgrown _ ha => hgrown.aligned (hu ha)) h (fun ha => ha) hidx hpos
    (page_align_dvd len) (Nat.le_of_not_lt hle) hrun
  rcases hcase with ⟨-,c,rfl⟩ | ⟨-,hfit,he⟩
  · exact ⟨base_cached hb c,ht⟩
  · obtain ⟨hb',hk⟩ := entered_base hb (page_align_dvd len) hpos hfit he
    exact ⟨hb',fun ha => hk (ht ha)⟩

lemma alloc_va_len {vmFlags a : ℕ}
    (hrun : allocVaVregion s pid idx len vmFlags = .ok (s',a)) : pageAlign len ≤ vregionSize := by
  unfold allocVaVregion at hrun
  dsimp only at hrun
  split_ifs at hrun with hle
  exact Nat.le_of_not_lt hle

lemma alloc_outcome (pid vmFlags : ℕ) (h : Base s) (ha : Aligned s) (hidx : idx < nrVregions)
    (hpos : 0 < len) (hle : len ≤ vregionSize) :
    (∃ t, Marked pid idx s t ∧ (∀ a, ¬Fits s pid idx (pageAlign len) a) ∧
      allocVaVregion s pid idx len vmFlags =
        .ok ({ t with cachedVregionStart := t.cachedVregionStart+1 },0)) ∨
    ∃ t s' a, Marked pid idx s t ∧ Fits s pid idx (pageAlign len) a ∧
      Fits t pid idx (pageAlign len) a ∧ Entered pid idx a (pageAlign len) vmFlags t s' ∧
      allocVaVregion s pid idx len vmFlags = .ok (s',a) := by
  have hround := hpos.trans_le (le_page_align hle)
  rw [allocVaVregion,if_neg (page_align_le hle).not_gt]
  rcases alloc_retry_spec pid vmFlags retries h ha hidx hround (page_align_dvd len)
    (page_align_le hle) (uncovered_le s pid idx) with hfail | ⟨t,s',a,ht,hfit,-,he,hrun⟩
  · exact .inl hfail
  · exact .inr ⟨t,s',a,ht,hfit,(fits_marked h.vm ht hround a).mpr hfit,he,hrun⟩

lemma bucket_eq {l : List ℕ}
    (hl : l.Pairwise fun p q => addrToBucketIndex p ≠ addrToBucketIndex q) {p q : ℕ} (hp : p ∈ l)
    (hq : q ∈ l) (h : addrToBucketIndex p = addrToBucketIndex q) : p = q :=
  List.inj_on_of_nodup_map (List.pairwise_map.mpr hl) hp hq h

/-- The pages of a range lie in different buckets, so a bucket loses at most one entry. -/
lemma alloc_room {a vmFlags : ℕ} (h : Base s) (ha : Aligned s) (hidx : idx < nrVregions)
    (hpos : 0 < len) (hle : len ≤ vregionSize)
    (hrun : allocVaVregion s pid idx len vmFlags = .ok (s',a)) (b : ℕ) :
    (s.info b).nrFree ≤ (s'.info b).nrFree+1 := by
  rcases alloc_outcome pid vmFlags h ha hidx hpos hle with
    ⟨t,⟨A,hgrown,-⟩,-,heq⟩ | ⟨t,u,x,⟨A,hgrown,-⟩,-,hfit,he,heq⟩
  · cases hrun.symm.trans heq
    exact (hgrown.free b).symm.le.trans (Int.le_add_one le_rfl)
  · cases hrun.symm.trans heq
    obtain ⟨w,hfill⟩ := he.filled
    obtain ⟨slot,-,hsame⟩ := hfill.slots
    have hbuckets := pages_buckets hfit.toFreeRange (page_align_dvd len)
    obtain ⟨i,hi⟩ : ∃ i, ∀ p ∈ pages a (a+pageAlign len), addrToBucketIndex p = b → slot p = i := by
      by_cases hb : ∃ p ∈ pages a (a+pageAlign len), addrToBucketIndex p = b
      · obtain ⟨p,hp,rfl⟩ := hb
        exact ⟨slot p,fun q hq hqp => by rw [bucket_eq hbuckets hq hp hqp]⟩
      · exact ⟨0,fun p hp hpb => absurd ⟨p,hp,hpb⟩ hb⟩
    have hsub : freeSlots t.shadow b ⊆ insert i (freeSlots s'.shadow b) := by
      intro j hj
      by_cases hji : j = i
      · exact hji ▸ Finset.mem_insert_self _ _
      · have hkeep : s'.shadow b j = t.shadow b j :=
          hsame b j fun p hp hpj => hji (hpj.2.symm.trans (hi p hp hpj.1))
        refine Finset.mem_insert_of_mem ?_
        simpa only [freeSlots,Finset.mem_filter,hkeep] using hj
    rw [← hgrown.free b,hgrown.base.pt.free b,hfill.pt.free b]
    exact_mod_cast (Finset.card_le_card hsub).trans (Finset.card_insert_le _ _)

lemma fits_marked_other {t : Soc} {i : ℕ} (hm : Marked pid i s t) (hne : idx ≠ i) (a : ℕ) :
    Fits t pid idx len a ↔ Fits s pid idx len a := by
  obtain ⟨A,hgrown,-⟩ := hm
  have hregion : region t pid idx = region s pid idx := hgrown.other pid idx fun h => hne h.2
  constructor
  · rintro ⟨⟨hat,ha⟩,hroom⟩
    exact ⟨⟨hregion ▸ hat,ha⟩,fun p hp => hgrown.free _ ▸ hroom p hp⟩
  · rintro ⟨⟨hat,ha⟩,hroom⟩
    exact ⟨⟨hregion.symm ▸ hat,ha⟩,fun p hp => (hgrown.free _).symm ▸ hroom p hp⟩

lemma fits_cached {n : ℕ} (a : ℕ) :
    Fits { s with cachedVregionStart := n } pid idx len a ↔ Fits s pid idx len a :=
  ⟨fun h => ⟨⟨h.at_,h.aligned⟩,h.room⟩,fun h => ⟨⟨h.at_,h.aligned⟩,h.room⟩⟩

end

section

structure StateInv (m : State) : Prop where
  base : Base m.soc
  aligned : Aligned m.soc
  fifo : ∀ pfn ∈ m.fifo, pfnInRange board pfn

/-- Allocations and frees are of whole pages, and no conflict is of a closed process. -/
def WellFormed (m : State) : Op → Prop
  | .request (.alloc _ _ len _) => pageAlign len ≠ 0
  | .request (.free _ start len) =>
      start < 2^64 ∧ len < 2^64 ∧ pageSize ∣ start ∧ pageSize ∣ len
  | .close pid => m.refcount pid = some 1 → ∀ b, ∀ ci ∈ (m.soc.info b).conflicts, ci.pid ≠ pid
  | _ => True

variable {m u : State} {pid : ℕ}

lemma region_fresh (s : Soc) (pid p i : ℕ) :
    region { s with vregion := update s.vregion pid fun _ => initVregion } p i =
      if p = pid then [] else region s p i := by
  unfold region
  dsimp only
  by_cases hp : p = pid
  · subst hp
    rw [if_pos rfl,update_self]
    exact good_init.2
  · rw [if_neg hp,update_of_ne hp]

lemma base_new {s : Soc} (h : Base s) (pid : ℕ) :
    Base { s with vregion := update s.vregion pid fun _ => initVregion } := by
  refine ⟨⟨?_,?_,?_⟩,h.conflict,pt_inv_info (s := s) h.pt fun _ => rfl⟩
  · intro p i
    by_cases hp : p = pid
    · subst hp
      simp only [update_self]
      exact good_init.1
    · simp only [update_of_ne hp]
      exact h.vm.good p i
  · intro p i
    by_cases hp : p = pid
    · subst hp
      simp only [update_self]
      rfl
    · simp only [update_of_ne hp]
      exact h.vm.topdown p i
  · intro p i r hr
    rw [region_fresh] at hr
    split_ifs at hr
    · cases hr
    · exact h.vm.inside p i r hr

lemma base_fresh {s : Soc} (h : Base s) (ha : Aligned s) (pid : ℕ) :
    Base { s with vregion := update s.vregion pid fun _ => initVregion } ∧
      Aligned { s with vregion := update s.vregion pid fun _ => initVregion } := by
  refine ⟨base_new h pid,?_⟩
  intro p i r hr
  rw [region_fresh] at hr
  split_ifs at hr
  · cases hr
  · exact ha p i r hr

lemma open_proc_inv (h : StateInv m) (pid : ℕ) : StateInv (openProc m pid) := by
  obtain ⟨hfifo,hsoc⟩ := open_proc_cases m pid
  have hbase : Base (openProc m pid).soc ∧ Aligned (openProc m pid).soc := by
    rcases hsoc with ⟨-,hsoc⟩ | ⟨-,hsoc⟩ <;> rw [hsoc]
    · exact ⟨h.base,h.aligned⟩
    · exact base_fresh h.base h.aligned pid
  refine ⟨hbase.1,hbase.2,?_⟩
  rw [hfifo]
  exact h.fifo

lemma put_proc_inv (h : StateInv m) (pid : ℕ) : StateInv (putProcInfo m pid) := by
  refine ⟨?_,?_,?_⟩
  · rw [put_proc_soc]
    exact h.base
  · rw [put_proc_soc]
    exact h.aligned
  · rw [put_proc_fifo]
    exact h.fifo

lemma refill_frame (hz : ZoneOk board m.soc.zone) (hrun : handleCtrlFreepageAck m = .ok u) :
    ∃ zone fifo, u = { m with soc := { m.soc with zone := zone }, fifo := fifo } ∧
      ZoneOk board zone ∧ ∀ pfn ∈ fifo, pfn ∈ m.fifo ∨ pfnInRange board pfn := by
  unfold handleCtrlFreepageAck at hrun
  cases hl : m.soc.zone.freeList 0 with
  | nil =>
    rw [alloc_pfn_empty (show board.maxOrder = 1 from rfl) m.soc.zone hl] at hrun
    cases hrun
    exact ⟨m.soc.zone,m.fifo,rfl,hz,fun pfn hpfn => .inl hpfn⟩
  | cons pfn rest =>
    obtain ⟨zone,halloc,-,hzone⟩ := alloc_pfn_first rfl m.soc.zone hz hl
    have hin : pfnInRange board pfn := hz.range pfn (by simp [hl])
    have hne : pfn ≠ 0 := by
      rintro rfl
      exact absurd hin.1 (by decide)
    rw [halloc,ok_bind] at hrun
    simp only [if_neg hne] at hrun
    cases hrun
    refine ⟨zone,m.fifo++[pfn],rfl,hzone,fun q hq => ?_⟩
    rcases List.mem_append.mp hq with hq | hq
    · exact .inl hq
    · rw [List.mem_singleton.mp hq]
      exact .inr hin

lemma refill_inv (h : StateInv m) (hrun : handleCtrlFreepageAck m = .ok u) : StateInv u := by
  obtain ⟨zone,fifo,rfl,hz,hfifo⟩ := refill_frame h.base.pt.zone hrun
  refine ⟨⟨vm_inv_congr h.base.vm rfl,h.base.conflict,h.base.pt.free,h.base.pt.sync,
    h.base.pt.frames,hz,h.base.pt.spare⟩,h.aligned,fun pfn hpfn => ?_⟩
  exact (hfifo pfn hpfn).elim (h.fifo pfn) id

lemma fault_tables (h : PtInv m.soc) (hf : ∀ pfn ∈ m.fifo, pfnInRange board pfn) (b : ℕ)
    (i : Fin 16) : PtInv (pageFault m b i).soc ∧
      (∀ pfn ∈ (pageFault m b i).fifo, pfnInRange board pfn) ∧
      (pageFault m b i).soc = { m.soc with fpga := (pageFault m b i).soc.fpga } := by
  unfold pageFault
  cases hl : m.fifo with
  | nil => exact ⟨h,hf,rfl⟩
  | cons pfn fifo =>
    have hin := hf pfn (by simp [hl])
    dsimp only
    split_ifs
    · refine ⟨⟨h.free,?_,?_,h.zone,h.spare⟩,fun q hq => hf q (by simp [hl,hq]),rfl⟩
      · intro c j
        simp only [setFpga,pte_set]
        split
        · next he =>
          rw [he.1,he.2]
          exact h.sync b i
        · exact h.sync c j
      · intro c j
        simp only [setFpga,pte_set]
        split
        · intro _
          rw [ppa_round pfn hin]
          exact hin
        · exact h.frames c j
    · exact ⟨h,hf,rfl⟩

lemma fault_inv (h : StateInv m) (b : ℕ) (i : Fin 16) : StateInv (pageFault m b i) := by
  obtain ⟨hpt,hfifo,hsoc⟩ := fault_tables h.base.pt h.fifo b i
  refine ⟨⟨?_,?_,hpt⟩,?_,hfifo⟩
  · rw [hsoc]
    exact vm_inv_congr h.base.vm rfl
  · rw [hsoc]
    exact h.base.conflict
  · rw [hsoc]
    exact h.aligned

lemma state_step {op : Op} (h : StateInv m) (hok : WellFormed m op)
    (hrun : Teardown.exec m op = some u) : StateInv u := by
  have hrun := (exec_serve hrun).2
  cases op with
  | request r =>
    have hrun := exec_ok hrun
    cases r with
    | alloc pid idx len vmFlags =>
      obtain ⟨⟨u,reply⟩,hcall,rfl⟩ := map_ok hrun
      obtain ⟨hidx,s,addr,hs,rfl,-⟩ := handle_alloc_ok hcall
      have hopen := open_proc_inv h pid
      obtain ⟨hb,hal⟩ := alloc_va_base hopen.base hidx hok hs
      exact put_proc_inv (m := { openProc m pid with soc := s })
        ⟨hb,hal hopen.aligned,hopen.fifo⟩ pid
    | free pid start len =>
      obtain ⟨⟨u,reply⟩,hcall,rfl⟩ := map_ok hrun
      obtain ⟨s,ret,hs,rfl,-⟩ := handle_free_ok hcall
      have hopen := open_proc_inv h pid
      obtain ⟨hs64,hl64,hds,hdl⟩ := hok
      obtain ⟨hb,hal⟩ := free_va_base hopen.base hopen.aligned hs64 hl64 hds hdl hs
      exact put_proc_inv (m := { openProc m pid with soc := s }) ⟨hb,hal,hopen.fifo⟩ pid
    | refill => exact refill_inv h hrun
    | fault b i =>
      cases hrun
      exact fault_inv h b i
  | create pid =>
    cases hrun
    unfold handleCreateProc allocProc
    cases hr : m.refcount pid with
    | some r => exact ⟨h.base,h.aligned,h.fifo⟩
    | none =>
      obtain ⟨hb,hal⟩ := base_fresh h.base h.aligned pid
      exact ⟨hb,hal,h.fifo⟩
  | close pid =>
    cases hrun
    unfold handleFreeProc getProcByPid
    cases hr : m.refcount pid with
    | none => exact h
    | some r =>
      have hget : StateInv (setRefcount m pid (some (r+1))) := ⟨h.base,h.aligned,h.fifo⟩
      exact put_proc_inv (put_proc_inv hget pid) pid

end

end Clio.Requests
