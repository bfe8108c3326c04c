import Clio.Blocks
import Clio.Buddy
import Mathlib.Data.Nat.Bitwise

/-!
# The blocks of a zone

The free lists, counters and page flags of a zone represent a set of blocks.
-/

namespace Clio.BuddyZone

open Function Buddy Blocks

structure Rep (z : FpgaZone) (S : Set Block) : Prop where
  mem : ∀ k p, p ∈ z.freeList k ↔ ∃ b ∈ S, b.order = k ∧ b.start = p
  nodup : ∀ k, (z.freeList k).Nodup
  count : ∀ k, z.nrFree k = (z.freeList k).length
  flag : ∀ p, (z.pageMap p).buddy = true ↔ ∃ b ∈ S, b.start = p
  order : ∀ b ∈ S, (z.pageMap b.start).order = b.order

section

variable {n : ℕ} {b : Block}

lemma xor_one (i : ℕ) : i ^^^ 1 = if i%2 = 0 then i+1 else i-1 := by
  split_ifs with h
  · exact Nat.xor_one_of_even (Nat.even_iff.mpr h)
  · exact Nat.xor_one_of_odd (Nat.odd_iff.mpr (by omega))

lemma xor_and_self (i : ℕ) : (i ^^^ 1) &&& i = 2*(i/2) := by
  apply Nat.eq_of_testBit_eq
  intro j
  cases j with
  | zero =>
    simp [Nat.testBit_zero]
    omega
  | succ j =>
    have hone : Nat.testBit 1 (j+1) = false := by simp [Nat.testBit_succ]
    have hdouble : (2*(i/2)).testBit (j+1) = i.testBit (j+1) := by
      rw [Nat.testBit_succ,Nat.testBit_succ,Nat.mul_div_cancel_left _ (by norm_num)]
    rw [Nat.testBit_and,Nat.testBit_xor,hone,hdouble,Bool.xor_false,Bool.and_self]

lemma find_buddy_shift (i k : ℕ) : findBuddyIndex (i*2^k) k = (i ^^^ 1)*2^k := by
  unfold findBuddyIndex
  rw [← Nat.shiftLeft_eq,← Nat.shiftLeft_xor_distrib,Nat.shiftLeft_eq]

lemma find_buddy_start (b : Block) : findBuddyIndex b.start b.order = b.buddy.start := by
  show findBuddyIndex (b.index*2^b.order) b.order = b.buddy.index*2^b.order
  rw [find_buddy_shift,xor_one]
  rfl

lemma masked_index (ho : b.order < n) :
    ∃ i, b.start%2^n = i*2^b.order ∧ i ≤ b.index ∧ i%2 = b.index%2 ∧
      b.parent.start%2^n = 2*(i/2)*2^b.order := by
  have hn : 2^n = 2*2^(n-b.order-1)*2^b.order := by
    rw [← Nat.pow_succ',← Nat.pow_add]
    congr 1
    omega
  refine ⟨b.index%(2*2^(n-b.order-1)),?_,Nat.mod_le _ _,Nat.mod_mul_right_mod _ _ _,?_⟩
  · show b.index*2^b.order%2^n = _
    rw [hn,Nat.mul_mod_mul_right]
  · have hparent : b.parent.start = 2*(b.index/2)*2^b.order := by
      show b.index/2*2^(b.order+1) = _
      ring
    rw [hparent,hn,Nat.mul_mod_mul_right,Nat.mod_mul_right_div_self,Nat.mul_mod_mul_left]

lemma buddy_page (ho : b.order < n) :
    b.start+findBuddyIndex (b.start%2^n) b.order-b.start%2^n = b.buddy.start := by
  obtain ⟨i,hi,hle,hpar,-⟩ := masked_index ho
  rw [hi,find_buddy_shift]
  show b.index*2^b.order+(i ^^^ 1)*2^b.order-i*2^b.order = b.buddy.index*2^b.order
  rw [← Nat.add_mul,← Nat.sub_mul,xor_one]
  congr 1
  unfold Block.buddy
  dsimp only
  rw [hpar]
  split_ifs <;> omega

lemma combined_index (ho : b.order < n) :
    findBuddyIndex (b.start%2^n) b.order &&& b.start%2^n = b.parent.start%2^n := by
  obtain ⟨i,hi,-,-,hparent⟩ := masked_index ho
  rw [hparent,hi,find_buddy_shift,← Nat.shiftLeft_eq,← Nat.shiftLeft_eq,
    ← Nat.shiftLeft_and_distrib,xor_and_self,Nat.shiftLeft_eq]

lemma combined_page (ho : b.order < n) :
    b.start+b.parent.start%2^n-b.start%2^n = b.parent.start := by
  obtain ⟨i,hi,hle,hpar,hparent⟩ := masked_index ho
  rw [hparent,hi]
  show b.index*2^b.order+2*(i/2)*2^b.order-i*2^b.order = b.index/2*2^(b.order+1)
  rw [← Nat.add_mul,← Nat.sub_mul,Nat.pow_succ',← Nat.mul_assoc]
  congr 1
  omega

end

section

variable {n : ℕ} {z : FpgaZone} {S : Set Block} {b : Block}

lemma held_start (h : Held n S b) {c : Block} (hc : c ∈ S) : c.start ≠ b.start :=
  fun heq => h.out b.start (start_mem b) ⟨c,hc,heq ▸ start_mem c⟩

lemma start_injective (h : Packed n S) {c : Block} (hb : b ∈ S) (hc : c ∈ S)
    (heq : c.start = b.start) : c = b :=
  h.apart c hc b hb c.start (start_mem c) (heq ▸ start_mem b)

lemma rep_add (h : Rep z S) (hb : Held n S b) :
    Rep (listAdd (setPageOrder z b.start b.order) b.start b.order) (insert b S) := by
  have hfresh : b.start ∉ z.freeList b.order := by
    rw [h.mem]
    rintro ⟨c,hc,-,heq⟩
    exact held_start hb hc heq
  refine ⟨?_,?_,?_,?_,?_⟩
  · intro k p
    by_cases hk : k = b.order
    · subst hk
      simp only [listAdd,setPageOrder,setPage,update_self,List.mem_cons,h.mem, Set.mem_insert_iff]
      constructor
      · rintro (rfl | ⟨c,hc,ho,hp⟩)
        · exact ⟨b,.inl rfl,rfl,rfl⟩
        · exact ⟨c,.inr hc,ho,hp⟩
      · rintro ⟨c,rfl | hc,ho,hp⟩
        · exact .inl hp.symm
        · exact .inr ⟨c,hc,ho,hp⟩
    · simp only [listAdd,setPageOrder,setPage,update_of_ne hk,h.mem, Set.mem_insert_iff]
      constructor
      · rintro ⟨c,hc,hrest⟩
        exact ⟨c,.inr hc,hrest⟩
      · rintro ⟨c,rfl | hc,ho,hp⟩
        · exact absurd ho.symm hk
        · exact ⟨c,hc,ho,hp⟩
  · intro k
    by_cases hk : k = b.order
    · subst hk
      simpa [listAdd,setPageOrder,setPage,hfresh] using h.nodup _
    · simpa [listAdd,setPageOrder,setPage,update_of_ne hk] using h.nodup k
  · intro k
    by_cases hk : k = b.order
    · subst hk
      simp [listAdd,setPageOrder,setPage,h.count]
    · simpa [listAdd,setPageOrder,setPage,update_of_ne hk] using h.count k
  · intro p
    by_cases hp : p = b.start
    · subst hp
      simp only [listAdd,setPageOrder,setPage,update_self,true_iff]
      exact ⟨b,.inl rfl,rfl⟩
    · simp only [listAdd,setPageOrder,setPage,update_of_ne hp,h.flag, Set.mem_insert_iff]
      constructor
      · rintro ⟨c,hc,heq⟩
        exact ⟨c,.inr hc,heq⟩
      · rintro ⟨c,rfl | hc,heq⟩
        · exact absurd heq.symm hp
        · exact ⟨c,hc,heq⟩
  · rintro c (rfl | hc)
    · simp [listAdd,setPageOrder,setPage]
    · simpa [listAdd,setPageOrder,setPage,update_of_ne (held_start hb hc)]
        using h.order c hc

lemma rep_del (h : Rep z S) (hS : Packed n S) (hb : b ∈ S) :
    Rep (rmvPageOrder (listDel z b.start b.order) b.start) (S \ {b}) := by
  have hmem : b.start ∈ z.freeList b.order := (h.mem _ _).mpr ⟨b,hb,rfl,rfl⟩
  refine ⟨?_,?_,?_,?_,?_⟩
  · intro k p
    by_cases hk : k = b.order
    · subst hk
      simp only [rmvPageOrder,listDel,setPage,update_self,
        (h.nodup _).mem_erase_iff,h.mem,Set.mem_sdiff,Set.mem_singleton_iff]
      constructor
      · rintro ⟨hne,c,hc,ho,hp⟩
        refine ⟨c,⟨hc,?_⟩,ho,hp⟩
        rintro rfl
        exact hne hp.symm
      · rintro ⟨c,⟨hc,hne⟩,ho,hp⟩
        exact ⟨fun heq => hne (start_injective hS hb hc (hp.trans heq)),c,hc,ho,hp⟩
    · simp only [rmvPageOrder,listDel,setPage,update_of_ne hk,h.mem,Set.mem_sdiff,
        Set.mem_singleton_iff]
      constructor
      · rintro ⟨c,hc,ho,hp⟩
        refine ⟨c,⟨hc,?_⟩,ho,hp⟩
        rintro rfl
        exact hk ho.symm
      · rintro ⟨c,⟨hc,-⟩,hrest⟩
        exact ⟨c,hc,hrest⟩
  · intro k
    by_cases hk : k = b.order
    · subst hk
      simpa [rmvPageOrder,listDel,setPage] using (h.nodup _).erase _
    · simpa [rmvPageOrder,listDel,setPage,update_of_ne hk] using h.nodup k
  · intro k
    by_cases hk : k = b.order
    · subst hk
      have hpos := List.length_pos_of_mem hmem
      simp only [rmvPageOrder,listDel,setPage,update_self,h.count, List.length_erase_of_mem hmem]
      omega
    · simpa [rmvPageOrder,listDel,setPage,update_of_ne hk] using h.count k
  · intro p
    by_cases hp : p = b.start
    · subst hp
      simp only [rmvPageOrder,listDel,setPage,update_self,Bool.false_eq_true, false_iff]
      rintro ⟨c,⟨hc,hne⟩,heq⟩
      exact hne (start_injective hS hb hc heq)
    · simp only [rmvPageOrder,listDel,setPage,update_of_ne hp,h.flag,Set.mem_sdiff,
        Set.mem_singleton_iff]
      constructor
      · rintro ⟨c,hc,heq⟩
        refine ⟨c,⟨hc,?_⟩,heq⟩
        rintro rfl
        exact hp heq.symm
      · rintro ⟨c,⟨hc,-⟩,heq⟩
        exact ⟨c,hc,heq⟩
  · rintro c ⟨hc,hne⟩
    have hstart : c.start ≠ b.start := fun heq => hne (start_injective hS hb hc heq)
    simpa [rmvPageOrder,listDel,setPage,update_of_ne hstart] using h.order c hc

lemma rep_private (h : Rep z S) {p : ℕ} (hp : ∀ b ∈ S, b.start ≠ p) (order : ℕ) :
    Rep (setPage z p {z.pageMap p with order := order}) S := by
  refine ⟨h.mem,h.nodup,h.count,?_,?_⟩
  · intro q
    by_cases hq : q = p
    · subst hq
      simpa [setPage] using h.flag q
    · simpa [setPage,update_of_ne hq] using h.flag q
  · intro b hb
    simpa [setPage,update_of_ne (hp b hb)] using h.order b hb

end

section

variable {n : ℕ} {z : FpgaZone} {S : Set Block} {b : Block}

lemma page_is_buddy (h : Rep z S) (b : Block) :
    pageIsBuddy z b.start b.order = true ↔ b ∈ S := by
  unfold pageIsBuddy
  rw [Bool.and_eq_true,beq_iff_eq,h.flag]
  constructor
  · rintro ⟨⟨c,hc,heq⟩,ho⟩
    have hco := h.order c hc
    rw [heq,ho] at hco
    exact eq_of_start hco heq.symm ▸ hc
  · intro hb
    exact ⟨⟨b,hb,rfl⟩,h.order b hb⟩

lemma free_loop_spec (m : ℕ) (z : FpgaZone) (S : Set Block) (b : Block) (hz : Rep z S)
    (hb : Held n S b) (hm : b.order+1+m = n) :
    ∃ u T, freeOnePageLoop m z b.start (b.start%2^n) b.order = .ok u ∧ Rep u T ∧ Packed n T ∧
      covered T = covered S ∪ b.pages := by
  induction m generalizing z S b with
  | zero =>
    exact ⟨_,_,rfl,rep_add hz hb,held_release hb (by omega),covered_insert⟩
  | succ m ih =>
    have ho : b.order < n := by omega
    rw [freeOnePageLoop]
    dsimp only
    rw [buddy_page ho,combined_index ho,combined_page ho]
    have hflag : pageIsBuddy z b.buddy.start b.order = true ↔ b.buddy ∈ S :=
      page_is_buddy hz b.buddy
    by_cases hbuddy : b.buddy ∈ S
    · have hlist : b.buddy.start ∈ z.freeList b.order := (hz.mem _ _).mpr ⟨_,hbuddy,rfl,rfl⟩
      obtain ⟨hheld,hcov⟩ := held_merge hb hbuddy (by omega)
      obtain ⟨u,T,hu,hrep,hpacked,hT⟩ := ih (rmvPageOrder (listDel z b.buddy.start b.order)
        b.buddy.start) _ b.parent (rep_del hz hb.packed hbuddy) hheld
        (show b.order+1+1+m = n by omega)
      rw [if_pos (hflag.mpr hbuddy),if_pos hlist]
      exact ⟨u,T,hu,hrep,hpacked,hT.trans hcov⟩
    · rw [if_neg fun hset => hbuddy (hflag.mp hset)]
      exact ⟨_,_,rfl,rep_add hz hb,held_release hb fun _ => hbuddy,covered_insert⟩

lemma prepare_iff (h : Rep z S) (pfn order : ℕ) :
    freePagesPrepare z pfn order = true ↔ ∃ b ∈ S, pfn ≤ b.start ∧ b.start < pfn+2^order := by
  unfold freePagesPrepare
  simp only [List.any_eq_true,List.mem_range,h.flag]
  constructor
  · rintro ⟨i,hi,b,hb,heq⟩
    exact ⟨b,hb,by omega,by omega⟩
  · rintro ⟨b,hb,hlo,hhi⟩
    exact ⟨b.start-pfn,by omega,b,hb,by omega⟩

lemma free_pfn_held {cfg : Config} (hz : Rep z S) (hb : Held cfg.maxOrder S b)
    (hr : pfnInRange cfg b.start) :
    ∃ u T, freePfn cfg z b.start b.order = .ok u ∧ Rep u T ∧ Packed cfg.maxOrder T ∧
      covered T = covered S ∪ b.pages := by
  have hclear : ¬freePagesPrepare z b.start b.order = true := by
    rw [prepare_iff hz]
    rintro ⟨c,hc,hlo,hhi⟩
    exact hb.out c.start (mem_pages.mpr ⟨hlo,hhi⟩) ⟨c,hc,start_mem c⟩
  have ho := hb.order
  rw [freePfn,if_pos hr,freeOnePage,if_neg hclear]
  exact free_loop_spec _ z S b hz hb (by omega)

lemma expand_spec (low m : ℕ) (z : FpgaZone) (S : Set Block) (b : Block) (hz : Rep z S)
    (hb : Held n S b) (hm : b.order = low+m) :
    ∃ T c, Rep (expand low b.start m z) T ∧ Held n T c ∧ c.order = low ∧ c.start = b.start ∧
      covered T ∪ c.pages = covered S ∪ b.pages := by
  induction m generalizing z S b with
  | zero => exact ⟨S,b,hz,hb,hm,rfl,rfl⟩
  | succ m ih =>
    have hpos : 0 < b.order := by omega
    have hhigh : b.upper.order = low+m := by
      show b.order-1 = low+m
      omega
    have hheld := held_split hb hpos
    have hup : Held n S b.upper := by
      refine ⟨hb.packed,?_,fun x hx => hb.out x (halves_pages hpos ▸ .inr hx)⟩
      have := hb.order
      omega
    have hrep := rep_add hz hup
    obtain ⟨T,c,hT,hc,hco,hcs,hcov⟩ := ih _ _ b.lower hrep hheld hhigh
    have hstart : b.upper.start = b.start+2^(low+m) := by
      rw [upper_start hpos,← hhigh]
      rfl
    rw [hhigh,hstart,lower_start hpos] at hT
    refine ⟨T,c,hT,hc,hco,hcs.trans (lower_start hpos),?_⟩
    rw [hcov,covered_insert,halves_pages hpos,Set.union_assoc,Set.union_comm b.upper.pages]

lemma rmqueue_spec (order m current : ℕ) (hz : Rep z S) (hS : Packed n S)
    (hle : order ≤ current) (hm : current+m = n) :
    (rmqueueLoop order m current z = (z,none) ∧ ∀ b ∈ S, b.order < current) ∨
      ∃ u T c, rmqueueLoop order m current z = (u,some c.start) ∧ Rep u T ∧ Held n T c ∧
        c.order = order ∧ covered T ∪ c.pages = covered S := by
  induction m generalizing current with
  | zero =>
    refine .inl ⟨rfl,fun b hb => ?_⟩
    have := hS.order b hb
    omega
  | succ m ih =>
    rw [rmqueueLoop]
    cases hlist : z.freeList current with
    | nil =>
      rcases ih (current+1) (by omega) (by omega) with ⟨heq,hnone⟩ | hsome
      · refine .inl ⟨heq,fun b hb => ?_⟩
        have hlt := hnone b hb
        have hne : b.order ≠ current := by
          intro ho
          have hmem := (hz.mem current b.start).mpr ⟨b,hb,ho,rfl⟩
          rw [hlist] at hmem
          exact List.not_mem_nil hmem
        omega
      · exact .inr hsome
    | cons pfn rest =>
      obtain ⟨b,hb,rfl,rfl⟩ := (hz.mem current pfn).mp (by rw [hlist]; exact List.mem_cons_self)
      have hheld := held_take hS hb
      obtain ⟨T,c,hT,hc,hco,hcs,hcov⟩ := expand_spec order (b.order-order) _ _ b
        (rep_del hz hS hb) hheld (by omega)
      refine .inr ⟨_,T,c,by rw [hcs],hT,hc,hco,?_⟩
      have hsub : b.pages ⊆ covered S := fun x hx => ⟨b,hb,hx⟩
      rw [hcov,covered_remove hS hb,Set.sdiff_union_of_subset hsub]

lemma alloc_page_spec {cfg : Config} {order : ℕ} (ho : order < cfg.maxOrder) (hz : Rep z S)
    (hS : Packed cfg.maxOrder S) :
    (allocPage cfg z order = (z,none) ∧ ∀ b ∈ S, b.order < order) ∨
      ∃ u T c, allocPage cfg z order = (u,some c.start) ∧ Rep u T ∧ Held cfg.maxOrder T c ∧
        c.order = order ∧ covered T ∪ c.pages = covered S := by
  rw [allocPage,if_neg (by omega)]
  rcases rmqueue_spec order (cfg.maxOrder-order) order hz hS le_rfl (by omega) with
    ⟨heq,hnone⟩ | ⟨u,T,c,heq,hrep,hheld,hco,hcov⟩
  · exact .inl ⟨by rw [heq],hnone⟩
  · refine .inr ⟨_,T,c,by rw [heq],rep_private hrep ?_ 0,hheld,hco,hcov⟩
    exact fun d hd => held_start hheld hd

end

end Clio.BuddyZone
