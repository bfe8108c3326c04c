import Clio.BuddyRun

/-!
# Boot of the buddy allocator in arbitrary memory

The page map comes from malloc and is not cleared before the frames are freed.
-/

namespace Clio.BuddyBoot

open VmArea Buddy Blocks BuddyZone BuddyRun

def pfnUp (x : ℕ) : ℕ := (x+pageSize-1)%2^64/pageSize

def pfnDown (x : ℕ) : ℕ := x/pageSize

def bootConfig (maxOrder start last : ℕ) : Config := ⟨maxOrder,pfnUp start,pfnDown last⟩

def mallocZone (pageMap : ℕ → Page) : FpgaZone where
  freeList _ := []
  nrFree _ := 0
  pageMap := pageMap

def bootBuddy (cfg : Config) (pageMap : ℕ → Page) : Except Fault FpgaZone :=
  initialFreePages cfg (mallocZone pageMap)

structure Partition (cfg : Config) (z : FpgaZone) : Prop where
  covers : ∀ x, pfnInRange cfg x ↔ ∃ k, ∃ p ∈ z.freeList k, p ≤ x ∧ x < p+2^k
  apart : ∀ k, ∀ p ∈ z.freeList k, ∀ j, ∀ q ∈ z.freeList j, (k,p) ≠ (j,q) →
    p+2^k ≤ q ∨ q+2^j ≤ p
  nodup : ∀ k, (z.freeList k).Nodup

def Hit (pageMap : ℕ → Page) (b : Block) : Prop :=
  (pageMap b.start).buddy = true ∧ (pageMap b.start).order = b.order

/-- No page of the range is flagged, and none at its edge finds a flagged buddy outside. -/
structure Quiet (cfg : Config) (pageMap : ℕ → Page) : Prop where
  inside : ∀ p, pfnInRange cfg p → (pageMap p).buddy = false
  edge : ∀ b : Block, b.order+1 < cfg.maxOrder → (∀ x ∈ b.pages, pfnInRange cfg x) →
    ¬pfnInRange cfg b.buddy.start → ¬Hit pageMap b.buddy

def mask (pageMap : ℕ → Page) (z : FpgaZone) : FpgaZone :=
  { z with pageMap := fun p => if (pageMap p).buddy then ⟨false,0⟩ else z.pageMap p }

structure Noisy (pageMap : ℕ → Page) (n : ℕ) (z : FpgaZone) (S : Set Block) : Prop where
  rep : Rep (mask pageMap z) S
  stray : ∀ p, (pageMap p).buddy = true → z.pageMap p = pageMap p
  missed : ∀ b ∈ S, b.order+1 < n → ¬Hit pageMap b.buddy

section

variable {pageMap : ℕ → Page} {n : ℕ} {z : FpgaZone} {S : Set Block} {b : Block}

lemma mask_set_page {p : ℕ} (hp : (pageMap p).buddy = false) (page : Page) :
    mask pageMap (setPage z p page) = setPage (mask pageMap z) p page := by
  unfold mask setPage
  congr 1
  funext q
  by_cases hq : q = p
  · subst hq
    simp [hp]
  · simp [Function.update_of_ne hq]

lemma stray_set_page {p : ℕ} (hp : (pageMap p).buddy = false) (page : Page)
    (h : ∀ q, (pageMap q).buddy = true → z.pageMap q = pageMap q) (q : ℕ)
    (hq : (pageMap q).buddy = true) : (setPage z p page).pageMap q = pageMap q := by
  have hne : q ≠ p := by
    rintro rfl
    rw [hp] at hq
    cases hq
  exact (Function.update_of_ne hne _ _).trans (h q hq)

lemma head_not_stray (h : Rep (mask pageMap z) S) (hb : b ∈ S) :
    (pageMap b.start).buddy = false := by
  have hflag := (h.flag b.start).mpr ⟨b,hb,rfl⟩
  cases hstray : (pageMap b.start).buddy with
  | false => rfl
  | true => simp [mask,hstray] at hflag

lemma flag_iff (h : Noisy pageMap n z S) (p : ℕ) :
    (z.pageMap p).buddy = true ↔ (pageMap p).buddy = true ∨ ∃ b ∈ S, b.start = p := by
  rw [← h.rep.flag]
  cases hstray : (pageMap p).buddy with
  | false => simp [mask,hstray]
  | true => simp [h.stray p hstray,hstray]

lemma parent_start (b : Block) : b.parent.start = b.start ∨ b.parent.start = b.buddy.start := by
  have hparent : b.parent.start = 2*(b.index/2)*2^b.order := by
    show b.index/2*2^(b.order+1) = _
    ring
  rw [hparent]
  by_cases heven : b.index%2 = 0
  · left
    show _ = b.index*2^b.order
    congr 1
    omega
  · right
    show _ = b.buddy.index*2^b.order
    simp only [Block.buddy,if_neg heven]
    congr 1
    omega

lemma noisy_add (h : Noisy pageMap n z S) (hb : Held n S b)
    (hstart : (pageMap b.start).buddy = false) (hmiss : b.order+1 < n → ¬Hit pageMap b.buddy) :
    Noisy pageMap n (listAdd (setPageOrder z b.start b.order) b.start b.order) (insert b S) := by
  refine ⟨?_,stray_set_page hstart _ h.stray,?_⟩
  · have hrep := rep_add h.rep hb
    rwa [setPageOrder,← mask_set_page hstart] at hrep
  · rintro c (rfl | hc)
    · exact hmiss
    · exact h.missed c hc

lemma noisy_del (h : Noisy pageMap n z S) (hS : Packed n S) (hb : b ∈ S) :
    Noisy pageMap n (rmvPageOrder (listDel z b.start b.order) b.start) (S \ {b}) := by
  have hstart := head_not_stray h.rep hb
  refine ⟨?_,stray_set_page hstart _ h.stray,fun c hc => h.missed c hc.1⟩
  have hrep := rep_del h.rep hS hb
  rwa [rmvPageOrder,show listDel (mask pageMap z) b.start b.order =
    mask pageMap (listDel z b.start b.order) from rfl,← mask_set_page hstart] at hrep

lemma page_is_buddy_noisy (h : Noisy pageMap n z S) (b : Block) :
    pageIsBuddy z b.start b.order = true ↔ Hit pageMap b ∨ b ∈ S := by
  cases hstray : (pageMap b.start).buddy with
  | false =>
    rw [← page_is_buddy h.rep]
    simp [pageIsBuddy,mask,Hit,hstray]
  | true =>
    have hnot : b ∉ S := fun hb => by
      rw [head_not_stray h.rep hb] at hstray
      cases hstray
    simp [pageIsBuddy,Hit,hstray,h.stray b.start hstray,hnot]

lemma free_loop_noisy (m : ℕ) (z : FpgaZone) (S : Set Block) (b : Block)
    (hz : Noisy pageMap n z S) (hb : Held n S b) (hstart : (pageMap b.start).buddy = false)
    (hm : b.order+1+m = n) :
    (∃ u T, freeOnePageLoop m z b.start (b.start%2^n) b.order = .ok u ∧ Noisy pageMap n u T ∧
        Packed n T ∧ covered T = covered S ∪ b.pages) ∨
      (freeOnePageLoop m z b.start (b.start%2^n) b.order = .error .bug ∧
        ∃ c : Block, c.order+1 < n ∧ c.pages ⊆ covered S ∪ b.pages ∧ Hit pageMap c.buddy) := by
  induction m generalizing z S b with
  | zero =>
    exact .inl ⟨_,_,rfl,noisy_add hz hb hstart (by omega),held_release hb (by omega),covered_insert⟩
  | succ m ih =>
    have ho : b.order < n := by omega
    rw [freeOnePageLoop]
    dsimp only
    rw [buddy_page ho,combined_index ho,combined_page ho]
    have hflag : pageIsBuddy z b.buddy.start b.order = true ↔
        Hit pageMap b.buddy ∨ b.buddy ∈ S := page_is_buddy_noisy hz b.buddy
    by_cases hhit : Hit pageMap b.buddy
    · -- the stray page is in no list
      right
      refine ⟨?_,b,by omega,Set.subset_union_right,hhit⟩
      rw [if_pos (hflag.mpr (.inl hhit)),if_neg]
      intro hmem
      obtain ⟨c,hc,-,heq⟩ := (hz.rep.mem _ _).mp hmem
      have hclear := head_not_stray hz.rep hc
      rw [heq,hhit.1] at hclear
      cases hclear
    · by_cases hbuddy : b.buddy ∈ S
      · have hlist : b.buddy.start ∈ z.freeList b.order := (hz.rep.mem _ _).mpr ⟨_,hbuddy,rfl,rfl⟩
        obtain ⟨hheld,hcov⟩ := held_merge hb hbuddy (by omega)
        have hparent : (pageMap b.parent.start).buddy = false := by
          rcases parent_start b with heq | heq
          · rw [heq,hstart]
          · rw [heq,head_not_stray hz.rep hbuddy]
        rw [if_pos (hflag.mpr (.inr hbuddy)),if_pos hlist]
        rcases ih (rmvPageOrder (listDel z b.buddy.start b.order) b.buddy.start) _ b.parent
          (noisy_del hz hb.packed hbuddy) hheld hparent (show b.order+1+1+m = n by omega) with
          ⟨u,T,hu,hrep,hpacked,hT⟩ | ⟨herr,c,hc,hsub,hc'⟩
        · exact .inl ⟨u,T,hu,hrep,hpacked,hT.trans hcov⟩
        · exact .inr ⟨herr,c,hc,hcov ▸ hsub,hc'⟩
      · rw [if_neg fun hset => (hflag.mp hset).elim hhit hbuddy]
        exact .inl ⟨_,_,rfl,noisy_add hz hb hstart fun _ => hhit,
          held_release hb fun _ => hbuddy,covered_insert⟩

lemma prepare_noisy (h : Noisy pageMap n z S) (hb : Held n S b) :
    freePagesPrepare z b.start b.order = true ↔ ∃ x ∈ b.pages, (pageMap x).buddy = true := by
  unfold freePagesPrepare
  simp only [List.any_eq_true,List.mem_range,flag_iff h,mem_pages]
  constructor
  · rintro ⟨i,hi,hstray | ⟨c,hc,heq⟩⟩
    · exact ⟨_,⟨by omega,by omega⟩,hstray⟩
    · exact absurd ⟨c,hc,start_mem c⟩ (hb.out c.start (mem_pages.mpr ⟨by omega,by omega⟩))
  · rintro ⟨x,⟨hlo,hhi⟩,hstray⟩
    refine ⟨x-b.start,by omega,.inl ?_⟩
    rwa [Nat.add_sub_cancel' hlo]

end

structure Freed (cfg : Config) (pageMap : ℕ → Page) (z : FpgaZone) (S : Set Block) (pfn : ℕ) :
    Prop where
  noisy : Noisy pageMap cfg.maxOrder z S
  packed : Packed cfg.maxOrder S
  below : ∀ x ∈ covered S, cfg.startPfn ≤ x ∧ x < pfn
  clear : ∀ x ∈ covered S, (pageMap x).buddy = false
  full : (∀ x, pfnInRange cfg x → (pageMap x).buddy = false) →
    ∀ x, cfg.startPfn ≤ x → x < pfn → x ∈ covered S

def Struck (cfg : Config) (pageMap : ℕ → Page) : Prop :=
  ∃ c : Block, c.order+1 < cfg.maxOrder ∧ (∀ x ∈ c.pages, pfnInRange cfg x) ∧
    Hit pageMap c.buddy

section

variable {cfg : Config} {pageMap : ℕ → Page}

variable {z : FpgaZone} {S : Set Block}

lemma free_block_noisy {b : Block} (h : Freed cfg pageMap z S b.start)
    (hlo : cfg.startPfn ≤ b.start) (hfit : b.start+2^b.order ≤ cfg.maxPfn)
    (ho : b.order < cfg.maxOrder) :
    (∃ u T, freePfn cfg z b.start b.order = .ok u ∧ Freed cfg pageMap u T (b.start+2^b.order)) ∨
      (freePfn cfg z b.start b.order = .error .bug ∧ Struck cfg pageMap) := by
  have hsize := Nat.two_pow_pos b.order
  have hb : Held cfg.maxOrder S b := by
    refine ⟨h.packed,ho,fun x hx hxS => ?_⟩
    have hpage := (mem_pages.mp hx).1
    have hbelow := (h.below x hxS).2
    omega
  have hr : pfnInRange cfg b.start := ⟨hlo,by omega⟩
  have hin : ∀ x ∈ b.pages, pfnInRange cfg x := by
    intro x hx
    rw [mem_pages] at hx
    exact ⟨by omega,by omega⟩
  rw [freePfn,if_pos hr,freeOnePage]
  by_cases hbad : freePagesPrepare z b.start b.order = true
  · obtain ⟨x,hx,hstray⟩ := (prepare_noisy h.noisy hb).mp hbad
    rw [if_pos hbad]
    refine .inl ⟨z,S,rfl,h.noisy,h.packed,?_,h.clear,?_⟩
    · intro y hy
      have hbelow := h.below y hy
      exact ⟨hbelow.1,by omega⟩
    · intro hall
      rw [hall x (hin x hx)] at hstray
      cases hstray
  · have hclear : ∀ x ∈ b.pages, (pageMap x).buddy = false := by
      intro x hx
      cases hstray : (pageMap x).buddy with
      | false => rfl
      | true => exact absurd ((prepare_noisy h.noisy hb).mpr ⟨x,hx,hstray⟩) hbad
    rw [if_neg hbad]
    rcases free_loop_noisy (cfg.maxOrder-1-b.order) z S b h.noisy hb
      (hclear b.start (start_mem b)) (by omega) with
      ⟨u,T,hu,hnoisy,hpacked,hcov⟩ | ⟨herr,c,hc,hsub,hhit⟩
    · refine .inl ⟨u,T,hu,hnoisy,hpacked,?_,?_,?_⟩
      · intro x hx
        rw [hcov] at hx
        rcases hx with hx | hx
        · have hbelow := h.below x hx
          exact ⟨hbelow.1,by omega⟩
        · rw [mem_pages] at hx
          exact ⟨by omega,by omega⟩
      · intro x hx
        rw [hcov] at hx
        exact hx.elim (h.clear x) (hclear x)
      · intro hall x hxlo hxhi
        rw [hcov]
        by_cases hx : x < b.start
        · exact .inl (h.full hall x hxlo hx)
        · exact .inr (mem_pages.mpr ⟨by omega,hxhi⟩)
    · refine .inr ⟨herr,c,hc,?_,hhit⟩
      intro x hx
      rcases hsub hx with hxS | hxb
      · have hbelow := h.below x hxS
        exact ⟨hbelow.1,by omega⟩
      · exact hin x hxb

lemma initial_free_noisy (hpos : 1 ≤ cfg.maxOrder) (n : ℕ) (z : FpgaZone) (S : Set Block)
    (pfn : ℕ) (h : Freed cfg pageMap z S pfn) (hlo : cfg.startPfn ≤ pfn)
    (hhi : pfn ≤ cfg.maxPfn) (hn : cfg.maxPfn ≤ pfn+n) :
    (∃ u T, initialFreeLoop cfg n z pfn = .ok u ∧ Freed cfg pageMap u T cfg.maxPfn) ∨
      (initialFreeLoop cfg n z pfn = .error .bug ∧ Struck cfg pageMap) := by
  induction n generalizing z S pfn with
  | zero =>
    obtain rfl : pfn = cfg.maxPfn := by omega
    exact .inl ⟨z,S,if_neg (lt_irrefl _),h⟩
  | succ n ih =>
    rw [initialFreeLoop]
    by_cases hlt : pfn < cfg.maxPfn
    · rw [if_pos hlt]
      obtain ⟨b,rfl,horder,hfit,ho⟩ := boot_block hpos hlt
      dsimp only
      rw [← horder]
      have hsize := Nat.two_pow_pos b.order
      rcases free_block_noisy h hlo hfit ho with ⟨u,T,hu,hfreed⟩ | ⟨herr,hstruck⟩
      · rw [hu,ok_bind]
        exact ih u T _ hfreed (by omega) hfit (by omega)
      · exact .inr ⟨by rw [herr]; rfl,hstruck⟩
    · rw [if_neg hlt]
      obtain rfl : pfn = cfg.maxPfn := by omega
      exact .inl ⟨z,S,rfl,h⟩

lemma malloc_freed : Freed cfg pageMap (mallocZone pageMap) ∅ cfg.startPfn := by
  refine ⟨⟨⟨?_,?_,?_,?_,?_⟩,fun _ _ => rfl,by simp⟩,packed_empty,by simp [covered],
    by simp [covered],fun _ x hlo hhi => by omega⟩
  · simp [mask,mallocZone]
  · simp [mask,mallocZone]
  · simp [mask,mallocZone]
  · intro p
    cases hp : (pageMap p).buddy <;> simp [mask,mallocZone,hp]
  · simp

lemma freed_covered {pfn : ℕ} (h : Freed cfg pageMap z S pfn) (x : ℕ) :
    x ∈ covered S ↔ ∃ k, ∃ p ∈ z.freeList k, p ≤ x ∧ x < p+2^k :=
  covered_iff (m := ⟨mask pageMap z,[]⟩) h.noisy.rep x

lemma freed_partition (h : Freed cfg pageMap z S cfg.maxPfn)
    (hin : ∀ x, pfnInRange cfg x → (pageMap x).buddy = false) : Partition cfg z := by
  refine ⟨?_,?_,h.noisy.rep.nodup⟩
  · intro x
    rw [← freed_covered h]
    exact ⟨fun hx => h.full hin x hx.1 hx.2,fun hx => h.below x hx⟩
  · intro k p hp j q hq hne
    obtain ⟨b,hb,rfl,rfl⟩ := (h.noisy.rep.mem k p).mp hp
    obtain ⟨c,hc,rfl,rfl⟩ := (h.noisy.rep.mem j q).mp hq
    refine (apart_iff b c).mp fun x hxb hxc => hne ?_
    rw [h.packed.apart b hb c hc x hxb hxc]

lemma partition_quiet (h : Freed cfg pageMap z S cfg.maxPfn) (hz : Partition cfg z) :
    Quiet cfg pageMap := by
  have hcov : ∀ x, pfnInRange cfg x ↔ x ∈ covered S := fun x =>
    (hz.covers x).trans (freed_covered h x).symm
  refine ⟨fun p hp => h.clear p ((hcov p).mp hp),?_⟩
  intro b ho hin hout
  apply h.noisy.missed b ?_ ho
  rw [mem_iff_full h.packed]
  refine ⟨by omega,fun x hx => (hcov x).mp (hin x hx),?_⟩
  intro c hc hsub hfull
  by_contra hne
  -- a larger covered block would contain the buddy
  have hlt : b.parent.order ≤ c.order := by
    have hle := order_le hsub
    rcases hle.eq_or_lt with heq | hlt
    · exact absurd (eq_of_mem heq.symm (hsub (start_mem b)) (start_mem b)) hne
    · exact hlt
  have hparent : b.parent.pages ⊆ c.pages :=
    pages_subset hlt (parent_pages ▸ .inl (start_mem b)) (hsub (start_mem b))
  have hbuddy : b.buddy.start ∈ c.pages := hparent (parent_pages ▸ .inr (start_mem b.buddy))
  exact hout ((hcov _).mpr (hfull hbuddy))

lemma boot_noisy (cfg : Config) (pageMap : ℕ → Page) (hpos : 1 ≤ cfg.maxOrder)
    (hle : cfg.startPfn ≤ cfg.maxPfn) :
    (∃ u T, bootBuddy cfg pageMap = .ok u ∧ Freed cfg pageMap u T cfg.maxPfn) ∨
      (bootBuddy cfg pageMap = .error .bug ∧ Struck cfg pageMap) := by
  rw [bootBuddy,initialFreePages,if_neg (by omega)]
  exact initial_free_noisy hpos _ _ ∅ _ malloc_freed le_rfl hle (by omega)

end

/-- After boot every frame is free once exactly if the page map had no stray flag. -/
theorem boot_partition_iff (maxOrder start last : ℕ) (pageMap : ℕ → Page) (hpos : 1 ≤ maxOrder) :
    (∃ z, bootBuddy (bootConfig maxOrder start last) pageMap = .ok z ∧
        Partition (bootConfig maxOrder start last) z) ↔
      pfnUp start ≤ pfnDown last ∧ Quiet (bootConfig maxOrder start last) pageMap := by
  constructor
  · rintro ⟨z,hz,hpart⟩
    have hle : pfnUp start ≤ pfnDown last := by
      by_contra hgt
      have herr : bootBuddy (bootConfig maxOrder start last) pageMap = .error .bug :=
        if_pos (Nat.lt_of_not_le hgt)
      rw [herr] at hz
      cases hz
    refine ⟨hle,?_⟩
    rcases boot_noisy (bootConfig maxOrder start last) pageMap hpos hle with
      ⟨u,T,hu,hfreed⟩ | ⟨herr,-⟩
    · rw [hu] at hz
      cases hz
      exact partition_quiet hfreed hpart
    · rw [herr] at hz
      cases hz
  · rintro ⟨hle,hquiet⟩
    rcases boot_noisy (bootConfig maxOrder start last) pageMap hpos hle with
      ⟨u,T,hu,hfreed⟩ | ⟨-,c,hc,hin,hhit⟩
    · exact ⟨u,hu,freed_partition hfreed hquiet.inside⟩
    · by_cases hr : pfnInRange (bootConfig maxOrder start last) c.buddy.start
      · have hclear := hquiet.inside _ hr
        rw [hhit.1] at hclear
        cases hclear
      · exact absurd hhit (hquiet.edge c hc hin hr)

theorem boot_partition_clear : ∃ z, bootBuddy (bootConfig 3 0x400000 0x2400000)
    (fun p => ⟨false,p⟩) = .ok z ∧ Partition (bootConfig 3 0x400000 0x2400000) z := by
  refine (boot_partition_iff 3 0x400000 0x2400000 _ (by decide)).mpr ⟨by decide,fun _ _ => rfl,?_⟩
  rintro b - - - ⟨hflag,-⟩
  cases hflag

/-- With one order and one flagged page the page is never free. -/
theorem boot_loses_page : ∃ z, bootBuddy (bootConfig 1 0x400000 0xc00000)
    (fun p => ⟨decide (p = 1),0⟩) = .ok z ∧
      pfnInRange (bootConfig 1 0x400000 0xc00000) 1 ∧ z.freeList 0 = [2] := by
  obtain ⟨z,hz,hlist⟩ := ok_checked (bootBuddy (bootConfig 1 0x400000 0xc00000)
    (fun p => ⟨decide (p = 1),0⟩)) (fun z => z.freeList 0 = [2]) (by decide +kernel)
  exact ⟨z,hz,by decide,hlist⟩

end Clio.BuddyBoot
