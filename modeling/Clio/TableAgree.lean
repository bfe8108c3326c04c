import Clio.CoveredSet

/-!
# The page table and the live pages

A page of a process is live from the allocation that returned it to its free.
-/

namespace Clio.TableAgree

open Ranges VmArea VmRep FindVaRange Pgtable Vm VmRegion
open Set (Ico)
open VmFree Pte VmAlloc Board Machine Requests AllocReply CoveredSet

section

structure Page (pid p : ℕ) : Prop where
  pid : pid < 2^16
  word : p < 2^64
  aligned : pageSize ∣ p

variable {s s' : Soc} {pid p : ℕ} {L L' : ℕ → Set ℕ}

lemma tag_inj {pid' p' : ℕ} (h : Page pid p) (h' : Page pid' p')
    (ht : generateTag pid p = generateTag pid' p') : pid = pid' ∧ p = p' := by
  obtain ⟨hpid,hword,k,rfl⟩ := h
  obtain ⟨hpid',hword',k',rfl⟩ := h'
  have hps : pageSize = 4194304 := rfl
  unfold generateTag at ht
  rw [hps] at ht hword hword' ⊢
  omega

/-- The pages in `L` are the ones that have entries, each has one. -/
structure Mapped (L : ℕ → Set ℕ) (s : Soc) : Prop where
  some : ∀ pid p, Page pid p → p ∈ L pid → ∃ i, Found s pid p i ∧ ∀ j, Found s pid p j → j = i
  only : ∀ b i, (s.shadow b i).allocated = true → ∃ pid p, Page pid p ∧ p ∈ L pid ∧
    addrToBucketIndex p = b ∧ (s.shadow b i).tag = generateTag pid p

lemma mapped_congr (h : Mapped L s) (hs : s'.shadow = s.shadow)
    (hL : ∀ pid p, Page pid p → (p ∈ L' pid ↔ p ∈ L pid)) : Mapped L' s' := by
  have hentry : ∀ pid p i, Found s' pid p i ↔ Found s pid p i := by
    intro pid p i
    rw [Found,hs,Found]
  refine ⟨?_,?_⟩
  · intro pid p hp hmem
    simp only [hentry]
    exact h.some pid p hp ((hL pid p hp).mp hmem)
  · intro b i hall
    rw [hs] at hall ⊢
    obtain ⟨q,p,hp,hmem,hrest⟩ := h.only b i hall
    exact ⟨q,p,hp,(hL q p hp).mpr hmem,hrest⟩

lemma entry_live (h : Mapped L s) (hp : Page pid p) {i : Fin 16} (he : Found s pid p i) :
    p ∈ L pid := by
  obtain ⟨q,p',hp',hmem,-,htag⟩ := h.only _ i he.1
  obtain ⟨rfl,rfl⟩ := tag_inj hp hp' (he.2.symm.trans htag)
  exact hmem

lemma mapped_iff (h : Mapped L s) (hp : Page pid p) :
    p ∈ L pid ↔ ∃ i, Found s pid p i ∧ ∀ j, Found s pid p j → j = i := by
  constructor
  · exact h.some pid p hp
  · rintro ⟨i,he,-⟩
    exact entry_live h hp he

/-- The pages of one process lose a set. -/
def without (L : ℕ → Set ℕ) (pid : ℕ) (A : Set ℕ) (q : ℕ) : Set ℕ :=
  if q = pid then L q \ A else L q

lemma mem_without (A : Set ℕ) (q x : ℕ) :
    x ∈ without L pid A q ↔ x ∈ L q ∧ ¬(q = pid ∧ x ∈ A) := by
  unfold without
  split_ifs with h <;> simp [h]

lemma mapped_clear (h : Mapped L s) (hp : Page pid p) {i : Fin 16} (he : Found s pid p i)
    {ppa : ℕ} (hs : s'.shadow = setPte s.shadow (addrToBucketIndex p) i ⟨ppa,false,false,0⟩) :
    Mapped (without L pid {p}) s' := by
  obtain ⟨i',-,huniq⟩ := h.some pid p hp (entry_live h hp he)
  have hold : ∀ q x j, Found s' q x j ↔ Found s q x j ∧
      ¬(addrToBucketIndex x = addrToBucketIndex p ∧ j = i) := by
    intro q x j
    unfold Found
    rw [hs,pte_set]
    split_ifs with hc
    · simp [hc]
    · simp [hc]
  refine ⟨?_,?_⟩
  · intro q x hx hmem
    rw [mem_without] at hmem
    obtain ⟨j,hj,hju⟩ := h.some q x hx hmem.1
    refine ⟨j,(hold q x j).mpr ⟨hj,?_⟩,fun k hk => hju k ((hold q x k).mp hk).1⟩
    rintro ⟨hb,rfl⟩
    have htag : generateTag q x = generateTag pid p := by
      rw [← hj.2,← he.2,hb]
    obtain ⟨rfl,rfl⟩ := tag_inj hx hp htag
    exact hmem.2 ⟨rfl,rfl⟩
  · intro b j hall
    rw [hs,pte_set] at hall ⊢
    split_ifs at hall ⊢ with hc
    obtain ⟨q,x,hx,hmem,hb,htag⟩ := h.only b j hall
    refine ⟨q,x,hx,?_,hb,htag⟩
    rw [mem_without]
    refine ⟨hmem,?_⟩
    rintro ⟨rfl,rfl⟩
    -- a second entry of the page
    have hej : Found s q x j := ⟨hb ▸ hall,hb ▸ htag⟩
    exact hc ⟨hb.symm,(huniq j hej).trans (huniq i he).symm⟩

lemma mapped_filled {l : List ℕ} (h : Mapped L s) (hf : Filled pid l s s')
    (hl : ∀ p ∈ l, Page pid p ∧ p ∉ L pid)
    (hinj : ∀ p ∈ l, ∀ q ∈ l, addrToBucketIndex p = addrToBucketIndex q → p = q)
    (hL : ∀ q p, Page q p → (p ∈ L' q ↔ p ∈ L q ∨ q = pid ∧ p ∈ l)) : Mapped L' s' := by
  obtain ⟨slot,hnew,hold⟩ := hf.slots
  -- an entry is one of the new ones or an old one
  have hcase : ∀ b i, (∃ p ∈ l, addrToBucketIndex p = b ∧ slot p = i) ∨
      s'.shadow b i = s.shadow b i := by
    intro b i
    by_cases hc : ∃ p ∈ l, addrToBucketIndex p = b ∧ slot p = i
    · exact .inl hc
    · push Not at hc
      exact .inr (hold b i fun p hp hb => hc p hp hb.1 hb.2)
  refine ⟨?_,?_⟩
  · intro q x hx hmem
    rcases (hL q x hx).mp hmem with hmem | ⟨rfl,hxl⟩
    · obtain ⟨i,hi,hiu⟩ := h.some q x hx hmem
      have hnot : ∀ p ∈ l, ¬(generateTag pid p = generateTag q x) := by
        intro p hp ht
        obtain ⟨rfl,rfl⟩ := tag_inj (hl p hp).1 hx ht
        exact (hl p hp).2 hmem
      refine ⟨i,?_,?_⟩
      · rcases hcase (addrToBucketIndex x) i with ⟨p,hp,hb,rfl⟩ | hsame
        · have := (hnew p hp).1
          rw [hb,hi.1] at this
          cases this
        · rw [Found,hsame]
          exact hi
      · intro j hj
        rcases hcase (addrToBucketIndex x) j with ⟨p,hp,hb,rfl⟩ | hsame
        · have htag := (hnew p hp).2.2
          rw [hb,hj.2] at htag
          exact absurd htag.symm (hnot p hp)
        · rw [Found,hsame] at hj
          exact hiu j hj
    · obtain ⟨-,hall,htag⟩ := hnew x hxl
      refine ⟨slot x,⟨hall,htag⟩,?_⟩
      intro j hj
      rcases hcase (addrToBucketIndex x) j with ⟨p,hp,hb,rfl⟩ | hsame
      · rw [hinj p hp x hxl hb]
      · rw [Found,hsame] at hj
        exact absurd (entry_live h hx hj) (hl x hxl).2
  · intro b i hall
    rcases hcase b i with ⟨p,hp,rfl,rfl⟩ | hsame
    · exact ⟨pid,p,(hl p hp).1,(hL pid p (hl p hp).1).mpr (.inr ⟨rfl,hp⟩),rfl,(hnew p hp).2.2⟩
    · rw [hsame] at hall ⊢
      obtain ⟨q,x,hx,hmem,hrest⟩ := h.only b i hall
      exact ⟨q,x,hx,(hL q x hx).mpr (.inl hmem),hrest⟩

end

section

structure Agree (L C : ℕ → Set ℕ) (s : Soc) : Prop where
  base : Base s
  mapped : Mapped L s
  full : ∀ b, (s.info b).conflicts ≠ [] → (s.info b).nrFree = 0
  apart : ∀ b, ∀ ci ∈ (s.info b).conflicts, ci.start ∉ C ci.pid
  cover : ∀ pid p, Page pid p → p ∈ C pid → p ∈ coverOf s pid

variable {s s' : Soc} {pid : ℕ} {L C : ℕ → Set ℕ}

lemma page_eq {p q : ℕ} (hp : pageSize ∣ p) (hq : pageSize ∣ q) (hlo : p ≤ q)
    (hhi : q < p+pageSize) : q = p := by
  obtain ⟨a,rfl⟩ := hp
  obtain ⟨b,rfl⟩ := hq
  have hba : b < a+1 := by
    apply Nat.lt_of_mul_lt_mul_left (a := pageSize)
    rwa [Nat.mul_succ]
  have hab : a ≤ b := Nat.le_of_mul_le_mul_left hlo page_size_pos
  rw [Nat.le_antisymm (Nat.le_of_lt_succ hba) hab]

lemma mem_cover_of_has {idx x f : ℕ} (hidx : idx < nrVregions) (h : Has (region s pid idx) x f) :
    x ∈ coverOf s pid := ⟨idx,hidx,f,h⟩

lemma free_pte_agree {p : ℕ} (h : Agree L C s) (hp : Page pid p)
    (hrun : freePte zapShadowPte s pid p = .ok s') :
    Agree (without L pid {p}) C s' ∧
      ∀ q i x f, Has (region s' q i) x f → Has (region s q i) x f := by
  unfold freePte at hrun
  cases hpte : addrToShadowPte s pid p with
  | none =>
    rw [hpte] at hrun
    cases hrun
    -- the page has no entry, so it is not live
    have hno : p ∉ L pid := by
      intro hmem
      obtain ⟨i,hi,-⟩ := h.mapped.some pid p hp hmem
      have := List.find?_eq_none.mp hpte i (List.mem_finRange i)
      simp [hi.1,hi.2] at this
    refine ⟨⟨h.base,?_,h.full,h.apart,h.cover⟩,fun _ _ _ _ hx => hx⟩
    refine mapped_congr h.mapped rfl fun q x _ => ?_
    rw [mem_without]
    constructor
    · exact fun hx => hx.1
    · intro hx
      refine ⟨hx,?_⟩
      rintro ⟨rfl,rfl⟩
      exact hno hx
  | some i =>
    rw [hpte] at hrun
    have he : Found s pid p i := shadow_pte_some hpte
    obtain ⟨vregion,ppa,zone,heq,hpt,hci,hcut⟩ :=
      zap_both_spec h.base.vm h.base.conflict h.base.pt he.1 hrun
    have hlist : ∀ b, ∀ ci ∈ (s'.info b).conflicts, b ≠ addrToBucketIndex p ∧
        ci ∈ (s.info b).conflicts := by
      intro b ci hci
      rw [heq] at hci
      exact mem_cleared_conflicts.mp hci
    refine ⟨⟨⟨hcut.inv,hci,hpt⟩,?_,?_,?_,?_⟩,hcut.has⟩
    · have hshadow : s'.shadow = setPte s.shadow (addrToBucketIndex p) i
          ⟨(s.shadow (addrToBucketIndex p) i).ppa,false,false,0⟩ := by
        rw [heq]
        rfl
      exact mapped_clear h.mapped hp he hshadow
    · intro b hb
      obtain ⟨ci,hci⟩ := List.exists_mem_of_ne_nil _ hb
      obtain ⟨hbp,hci⟩ := hlist b ci hci
      rw [heq,cleared_info hbp]
      exact h.full b (List.ne_nil_of_mem hci)
    · exact fun b ci hci => h.apart b ci (hlist b ci hci).2
    · intro q x hx hmem
      obtain ⟨idx,hidx,f,hf⟩ := h.cover q x hx hmem
      apply mem_cover_of_has hidx
      apply hcut.kept q idx x f hf
      rintro ⟨ci,hcim,rfl,-,hlo,hhi⟩
      have hok := h.base.conflict _ ci hcim
      rw [page_eq hok.aligned hx.aligned hlo hhi] at hmem
      exact h.apart _ ci hcim hmem

def zapped (det : List VmAreaStruct) (start stop : ℕ) : Set ℕ :=
  {p | ∃ vma ∈ det, ∃ lo hi, unmapRange vma start stop = some (lo,hi) ∧ p ∈ pages lo hi}

lemma without_empty (pid : ℕ) : without L pid ∅ = L := by
  funext q
  ext x
  simp [mem_without]

lemma without_union (A B : Set ℕ) : without (without L pid A) pid B = without L pid (A ∪ B) := by
  funext q
  ext x
  simp only [mem_without,Set.mem_union]
  tauto

lemma agree_same {L' : ℕ → Set ℕ} (h : Agree L C s)
    (hL : ∀ q x, Page q x → (x ∈ L' q ↔ x ∈ L q)) : Agree L' C s :=
  ⟨h.base,mapped_congr h.mapped rfl hL,h.full,h.apart,h.cover⟩

lemma free_pages_agree (l : List ℕ) (h : Agree L C s) (hl : ∀ p ∈ l, Page pid p)
    (hrun : l.foldlM (fun s addr => freePte zapShadowPte s pid addr) s = .ok s') :
    Agree (without L pid {p | p ∈ l}) C s' ∧
      ∀ q i x f, Has (region s' q i) x f → Has (region s q i) x f := by
  induction l generalizing s L with
  | nil =>
    cases hrun
    refine ⟨agree_same h fun q x _ => ?_,fun _ _ _ _ hx => hx⟩
    simp [mem_without]
  | cons p l ih =>
    obtain ⟨t,ht,hrest⟩ := (bind_ok_iff _ _ _).mp hrun
    obtain ⟨hagree,hhas⟩ := free_pte_agree h (hl p (by simp)) ht
    obtain ⟨hagree',hhas'⟩ := ih hagree (fun q hq => hl q (by simp [hq])) hrest
    refine ⟨agree_same hagree' fun q x _ => ?_,fun q i x f hx => hhas q i x f (hhas' q i x f hx)⟩
    simp only [mem_without,List.mem_cons,Set.mem_singleton_iff,Set.mem_ofPred_eq]
    tauto

lemma unmap_agree (det : List VmAreaStruct) (start stop : ℕ) (h : Agree L C s)
    (hdet : ∀ p ∈ zapped det start stop, Page pid p)
    (hrun : unmapRegion zapShadowPte s pid det start stop = .ok s') :
    Agree (without L pid (zapped det start stop)) C s' ∧
      ∀ q i x f, Has (region s' q i) x f → Has (region s q i) x f := by
  induction det generalizing s L with
  | nil =>
    cases hrun
    refine ⟨agree_same h fun q x _ => ?_,fun _ _ _ _ hx => hx⟩
    simp [mem_without,zapped]
  | cons vma det ih =>
    obtain ⟨t,ht,hrest⟩ := (bind_ok_iff _ _ _).mp hrun
    replace ht : unmapSingleVma zapShadowPte s pid vma start stop = .ok t := ht
    have htail : ∀ p ∈ zapped det start stop, Page pid p := by
      rintro p ⟨v,hv,hrange⟩
      exact hdet p ⟨v,by simp [hv],hrange⟩
    cases hr : unmapRange vma start stop with
    | none =>
      unfold unmapSingleVma at ht
      rw [hr] at ht
      cases ht
      obtain ⟨hagree,hhas⟩ := ih h htail hrest
      refine ⟨agree_same hagree fun q x _ => ?_,hhas⟩
      have hset : zapped (vma::det) start stop = zapped det start stop := by
        ext p
        simp [zapped,hr]
      rw [hset]
    | some r =>
      obtain ⟨lo,hi⟩ := r
      unfold unmapSingleVma at ht
      rw [hr] at ht
      obtain ⟨hagree,hhas⟩ := free_pages_agree (pages lo hi) h
        (fun p hp => hdet p ⟨vma,by simp,lo,hi,hr,hp⟩) ht
      obtain ⟨hagree',hhas'⟩ := ih hagree htail hrest
      refine ⟨agree_same hagree' fun q x _ => ?_,fun q i x f hx => hhas q i x f (hhas' q i x f hx)⟩
      have hset : zapped (vma::det) start stop = {p | p ∈ pages lo hi} ∪ zapped det start stop := by
        ext p
        simp [zapped,hr]
      rw [hset,without_union]

section

variable {idx start len : ℕ} (ha : Aligned s) (hds : pageSize ∣ start) {det : List VmAreaStruct}
  (hdet : det.map rangeOf = inter start (start+len) (region s pid idx))
include idx start len ha hds det hdet

lemma detached_aligned :
    ∀ vma ∈ det, pageSize ∣ vma.vmStart := by
  intro vma hvma
  have hmem : rangeOf vma ∈ inter start (start+len) (region s pid idx) := by
    rw [← hdet]
    exact List.mem_map_of_mem hvma
  obtain ⟨r,hr,hclip⟩ := List.mem_filterMap.mp hmem
  unfold clip at hclip
  split_ifs at hclip
  have hlo : vma.vmStart = max r.lo start := (congrArg Range.lo (Option.some.inj hclip)).symm
  rw [hlo]
  rcases max_choice r.lo start with hm | hm <;> rw [hm]
  · exact (ha pid idx r hr).1
  · exact hds

lemma mem_zapped {p : ℕ} :
    p ∈ zapped det start (start+len) ↔ pageSize ∣ p ∧ start ≤ p ∧ p < start+len ∧
      ∃ f, f ≠ vmFlagsConflict ∧ Has (region s pid idx) p f := by
  constructor
  · rintro ⟨vma,hvma,lo,hi,hr,hp⟩
    obtain ⟨rfl,rfl,hflags⟩ := unmap_range_some hr
    have hstart := detached_aligned ha hds hdet vma hvma
    have hd : pageSize ∣ max vma.vmStart start := by
      rcases max_choice vma.vmStart start with hm | hm <;> rw [hm] <;> assumption
    have hpd := dvd_pages hp hd
    obtain ⟨k,hk,hlt⟩ := (mem_pages _ _ _).mp hp
    have hlo : max vma.vmStart start ≤ p := by
      rw [hk]
      exact Nat.le_add_right _ _
    refine ⟨hpd,by omega,by omega,vma.vmFlags,hflags,?_⟩
    have hmem : rangeOf vma ∈ inter start (start+len) (region s pid idx) := by
      rw [← hdet]
      exact List.mem_map_of_mem hvma
    exact ((has_inter start (start+len) _ p vma.vmFlags).mp
      ⟨rangeOf vma,hmem,show vma.vmStart ≤ p by omega,show p < vma.vmEnd by omega,rfl⟩).1
  · rintro ⟨hpd,hlo,hhi,f,hflags,hhas⟩
    obtain ⟨r,hr,hr1,hr2,hr3⟩ := (has_inter start (start+len) _ p f).mpr ⟨hhas,hlo,hhi⟩
    rw [← hdet] at hr
    obtain ⟨vma,hvma,rfl⟩ := List.mem_map.mp hr
    replace hr1 : vma.vmStart ≤ p := hr1
    replace hr2 : p < vma.vmEnd := hr2
    replace hr3 : vma.vmFlags = f := hr3
    have hstart := detached_aligned ha hds hdet vma hvma
    have hd : pageSize ∣ max vma.vmStart start := by
      rcases max_choice vma.vmStart start with hm | hm <;> rw [hm] <;> assumption
    refine ⟨vma,hvma,max vma.vmStart start,min vma.vmEnd (start+len),?_,?_⟩
    · unfold unmapRange
      dsimp only
      rw [if_neg (by omega),if_neg (by omega),if_pos ⟨by omega,hr3 ▸ hflags⟩]
    · obtain ⟨a,hda⟩ := hd
      obtain ⟨b,rfl⟩ := hpd
      have hab : a ≤ b := by
        apply Nat.le_of_mul_le_mul_left _ page_size_pos
        rw [← hda]
        omega
      refine (mem_pages _ _ _).mpr ⟨b-a,?_,by omega⟩
      rw [hda,mul_comm _ pageSize,← Nat.mul_add]
      congr 1
      omega

end

lemma free_locked_agree {idx start len : ℕ} {err : ℤ} (h : Agree L L s) (ha : Aligned s)
    (hpid : pid < 2^16) (hidx : idx < nrVregions) (hlen : len ≠ 0) (hwrap : start+len < 2^64)
    (hds : pageSize ∣ start) (hdl : pageSize ∣ len)
    (hown : ∀ i < nrVregions, ∀ x, start ≤ x → x < start+len → x ∈ covered (region s pid i) →
      i = idx)
    (hflags : ∀ x, x ∈ L pid → start ≤ x → x < start+len →
      ¬Has (region s pid idx) x vmFlagsConflict)
    (hrun : freeVaLocked s pid idx start len = .ok (s',err)) :
    (err ≠ 0 ∧ s' = s) ∨ (err = 0 ∧ Agree (without L pid (Ico start (start+len)))
        (without L pid (Ico start (start+len))) s' ∧
      ∀ q i x f, Has (region s' q i) x f → Has (region s q i) x f) := by
  rcases free_with_cases h.base.vm hlen hwrap hrun with
    ⟨hne,hsame,-⟩ | ⟨hzero,w,det,hinv,hcut,hdet,hu⟩
  · exact .inl ⟨hne,hsame⟩
  · right
    have hareas := cut_areas h.base.vm pid idx start len hinv (.inr ⟨hcut,hds,hdl⟩)
    -- the areas are gone, the entries are still there
    have hstart : Agree L (without L pid (Ico start (start+len))) (setVregion s pid idx w) := by
      refine ⟨base_vregion h.base hinv,mapped_congr h.mapped rfl fun _ _ _ => Iff.rfl,h.full,?_,?_⟩
      · intro b ci hci hmem
        rw [mem_without] at hmem
        exact h.apart b ci hci hmem.1
      · intro q x hx hmem
        rw [mem_without] at hmem
        obtain ⟨i,hi,f,hf⟩ := h.cover q x hx hmem.1
        apply mem_cover_of_has hi
        apply hareas.kept q i x f hf
        rintro ⟨rfl,-,hlo,hhi⟩
        exact hmem.2 ⟨rfl,hlo,hhi⟩
    have hz := fun p => mem_zapped (p := p) ha hds hdet
    obtain ⟨hagree,hhas⟩ := unmap_agree det start (start+len) hstart (by
      intro p hp
      obtain ⟨hpd,hlo,hhi,-⟩ := (hz p).mp hp
      exact ⟨hpid,by omega,hpd⟩) hu
    refine ⟨hzero,agree_same hagree ?_,fun q i x f hx => hareas.has q i x f (hhas q i x f hx)⟩
    intro q x hx
    simp only [mem_without]
    refine and_congr_right fun hmem => not_congr (and_congr_right ?_)
    rintro rfl
    -- a live page of the range was covered by an area that is no conflict
    constructor
    · rintro ⟨hlo,hhi⟩
      obtain ⟨i,hi,f,hf⟩ := h.cover q x hx hmem
      obtain rfl := hown i hi x hlo hhi ⟨f,hf⟩
      refine (hz x).mpr ⟨hx.aligned,hlo,hhi,f,?_,hf⟩
      rintro rfl
      exact hflags x hmem hlo hhi hf
    · intro hzap
      obtain ⟨-,hlo,hhi,-⟩ := (hz x).mp hzap
      exact ⟨hlo,hhi⟩

lemma free_va_agree {start len : ℕ} (h : Agree L L s) (ha : Aligned s) (hpid : pid < 2^16)
    (hs : start < 2^64) (hl : len < 2^64) (hds : pageSize ∣ start) (hdl : pageSize ∣ len)
    (hflags : ∀ x, x ∈ L pid → start ≤ x → x < start+len → ∀ i < nrVregions,
      ¬Has (region s pid i) x vmFlagsConflict)
    (hrun : freeVa s pid start len = .ok (s',0)) :
    Agree (without L pid (Ico start (start+len)))
      (without L pid (Ico start (start+len))) s' := by
  -- the pages before `at_` are gone
  let I : ℕ → ℕ → Soc → Prop := fun at_ rest t =>
    (start ≤ at_ ∧ at_+rest = start+len ∧ at_+rest < 2^64 ∧ pageSize ∣ at_ ∧ pageSize ∣ rest) ∧
    Agree (without L pid (Ico start at_)) (without L pid (Ico start at_)) t ∧ Aligned t ∧
    ∀ q i x f, Has (region t q i) x f → Has (region s q i) x f
  have hpiece : PieceKeeps pid I fun _ => True := by
    rintro t u at_ rest err ⟨⟨hle,hsum,hbound,hda,hdr⟩,hagree,hal,hhas⟩ hidx hz hfree
    have hpl := piece_le at_ rest
    have hdv := piece_dvd hda hdr
    have hal' := (free_locked_base hagree.base (by omega) (by omega) hfree).2 hal hda hdv
    rcases free_locked_agree hagree hal hpid hidx hz (by omega) hda hdv
      (fun i hi x hlo hhi hx => piece_own hagree.base.vm hi hlo hhi hx)
      (fun x hx hlo hhi hf => hflags x ((mem_without _ _ _).mp hx).1 (by omega) (by omega) _ hidx
        (hhas _ _ _ _ hf)) hfree with ⟨hne,-⟩ | ⟨rfl,hagree',hhas'⟩
    · exact .inl ⟨hne,trivial⟩
    · rw [without_union,Set.Ico_union_Ico_eq_Ico hle (by omega)] at hagree'
      exact .inr ⟨rfl,⟨by omega,by omega,by omega,dvd_add hda hdv,Nat.dvd_sub hdr hdv⟩,hagree',hal',
        fun q i x f hx => hhas q i x f (hhas' q i x f hx)⟩
  have hstart : ¬(start+len)%2^64 < start → I start len s := by
    intro hwrap
    refine ⟨⟨le_rfl,rfl,by omega,hds,hdl⟩,?_,ha,fun _ _ _ _ hx => hx⟩
    rwa [Set.Ico_self,without_empty]
  rcases free_va_rule I (fun _ => True) (fun _ _ _ _ => trivial) hpiece trivial hstart hrun with
    ⟨hne,-⟩ | ⟨-,rest,⟨hle,hsum,hbound,-⟩,hagree,-⟩
  · exact absurd rfl hne
  · have hword : (start+len)%2^64 = start+len := by omega
    rwa [hword] at hagree

end

section

variable {s t s' : Soc} {pid idx len : ℕ} {L : ℕ → Set ℕ}

lemma mem_pages_iff {a p : ℕ} (ha : pageSize ∣ a) (hp : pageSize ∣ p) :
    p ∈ pages a (a+len) ↔ a ≤ p ∧ p < a+len := by
  rw [mem_pages]
  constructor
  · rintro ⟨k,rfl,hlt⟩
    exact ⟨Nat.le_add_right _ _,hlt⟩
  · rintro ⟨hlo,hhi⟩
    obtain ⟨k,hk⟩ := Nat.dvd_sub hp ha
    exact ⟨k,by rw [mul_comm,← hk]; omega,hhi⟩

lemma marked_agree (h : Agree L L s) (hpid : pid < 2^16) (hm : Marked pid idx s t) :
    Agree L L t := by
  obtain ⟨A,hgrown,hfull⟩ := hm
  have hshadow : t.shadow = s.shadow := by rw [hgrown.frame]
  refine ⟨hgrown.base,mapped_congr h.mapped hshadow fun _ _ _ => Iff.rfl,?_,?_,?_⟩
  · intro b hb
    rw [hgrown.free b]
    obtain ⟨ci,hci⟩ := List.exists_mem_of_ne_nil _ hb
    rcases hgrown.new b ci hci with hold | ⟨hzero,-⟩
    · exact h.full b (List.ne_nil_of_mem hold)
    · exact hzero
  · intro b ci hci hmem
    rcases hgrown.new b ci hci with hold | ⟨-,hp,hi,hA⟩
    · exact h.apart b ci hold hmem
    · have hok := hgrown.base.conflict b ci hci
      have hps := page_size_pos
      have hhigh := hok.high
      have hword := end_va_bound hok.idx hok.high
      rw [hp] at hmem
      obtain ⟨i,-,hcov⟩ := h.cover pid ci.start ⟨hpid,by omega,hok.aligned⟩ hmem
      have hhere : i = idx := by
        rw [← (covered_index h.base.vm hcov).1,← hi]
        exact vregion_index hok.low (by omega)
      rw [hhere] at hcov
      exact (hfull _ hA).2 hcov
  · intro q p hp hmem
    obtain ⟨i,hi,hcov⟩ := h.cover q p hp hmem
    refine ⟨i,hi,?_⟩
    by_cases hqi : q = pid ∧ i = idx
    · rw [hqi.1,hqi.2] at hcov ⊢
      rw [hgrown.cover]
      exact .inl hcov
    · rw [hgrown.other q i hqi]
      exact hcov

/-- The pages of one process gain a range. -/
def adding (L : ℕ → Set ℕ) (pid : ℕ) (A : Set ℕ) (q : ℕ) : Set ℕ :=
  if q = pid then L q ∪ A else L q

lemma mem_adding (A : Set ℕ) (q x : ℕ) :
    x ∈ adding L pid A q ↔ x ∈ L q ∨ q = pid ∧ x ∈ A := by
  unfold adding
  split_ifs with h <;> simp [h]

lemma entered_agree {a vmFlags : ℕ} (h : Agree L L s) (hpid : pid < 2^16)
    (hidx : idx < nrVregions) (hpos : 0 < len) (hlen : pageSize ∣ len)
    (hfit : Fits s pid idx len a) (he : Entered pid idx a len vmFlags s s') :
    Agree (adding L pid (Ico a (a+len))) (adding L pid (Ico a (a+len))) s' := by
  have hps := page_size_pos
  have hbase := (entered_base h.base hlen hpos hfit he).1
  obtain ⟨w,hfill⟩ := he.filled
  obtain ⟨slot,hnew,hold⟩ := hfill.slots
  have hpage := free_range_pages hfit.toFreeRange hlen
  have hlive : ∀ p ∈ pages a (a+len), Page pid p ∧ p ∉ L pid := by
    intro p hp
    obtain ⟨hp1,hp2,hp3,hp4⟩ := hpage p hp
    have hword := end_va_bound hidx hp3
    have hpp : Page pid p := ⟨hpid,by omega,hp1⟩
    refine ⟨hpp,?_⟩
    intro hmem
    obtain ⟨i,-,hcov⟩ := h.cover pid p hpp hmem
    have hhere : i = idx := by
      rw [← (covered_index h.base.vm hcov).1]
      exact vregion_index hp2 (by omega)
    rw [hhere] at hcov
    exact (free_iff (region_sorted h.base.vm pid idx) (by omega)).mp hp4 p le_rfl (by omega) hcov
  have hinj : ∀ p ∈ pages a (a+len), ∀ q ∈ pages a (a+len),
      addrToBucketIndex p = addrToBucketIndex q → p = q := by
    intro p hp q hq hb
    obtain ⟨hp1,hp2,hp3,-⟩ := hpage p hp
    obtain ⟨hq1,hq2,hq3,-⟩ := hpage q hq
    exact bucket_inj hp1 hq1 (vregion_index hp2 (by omega)) (vregion_index hq2 (by omega)) hb
  -- a bucket with conflicts is full, so none of the pages is in it
  have hroom : ∀ b, (s.info b).conflicts ≠ [] → ∀ p ∈ pages a (a+len), addrToBucketIndex p ≠ b := by
    rintro b hb p hp rfl
    exact hfit.room p hp (h.full _ hb)
  refine ⟨hbase,?_,?_,?_,?_⟩
  · have hstart : Mapped L (setVregion s pid idx w) :=
      mapped_congr h.mapped rfl fun _ _ _ => Iff.rfl
    refine mapped_filled hstart hfill hlive hinj ?_
    intro q p hp
    rw [mem_adding,mem_pages_iff hfit.aligned hp.aligned]
    rfl
  · intro b hb
    rw [hfill.conflicts b] at hb
    have hsame : s'.shadow b = s.shadow b := by
      funext i
      exact hold b i fun p hp hc => hroom b hb p hp hc.1
    rw [hfill.pt.free b,freeSlots,hsame]
    have := h.full b hb
    rw [h.base.pt.free b] at this
    exact this
  · intro b ci hci hmem
    rw [hfill.conflicts b] at hci
    have hok := h.base.conflict b ci hci
    rcases (mem_adding _ _ _).mp hmem with hmem | ⟨-,hmem⟩
    · exact h.apart b ci hci hmem
    · exact hroom b (List.ne_nil_of_mem hci) ci.start
        ((mem_pages_iff hfit.aligned hok.aligned).mpr hmem) hok.bucket
  · intro q p hp hmem
    have henter : covered (region s' pid idx) = covered (region s pid idx) ∪ Ico a (a+len) := by
      rw [he.region,covered_enter (region_sorted h.base.vm pid idx) hfit.at_.2.2 (by omega)]
    have hcover := cover_enter hidx henter he.other q
    rw [hcover]
    rcases (mem_adding _ _ _).mp hmem with hlow | ⟨hq,hrange⟩
    · have hold := h.cover q p hp hlow
      split_ifs
      · exact .inl hold
      · exact hold
    · rw [if_pos hq]
      exact .inr hrange

end

def exec (m : Tracked) : Call → Option Tracked
  | .alloc pid idx len vmFlags => CoveredSet.exec m (.alloc pid idx len vmFlags)
  | .free pid start len =>
      match freeVa m.soc pid start len with
      | .error _ => none
      | .ok (s,ret) => some ⟨s,if ret = 0 then .free pid start len::m.log else m.log⟩

section

variable {s s' : Soc} {pid start len : ℕ} {err : ℤ}

lemma free_locked_fails {idx : ℕ} (h : VmInv s) (hlen : len ≠ 0) (hword : start+len < 2^64)
    (hrun : freeVaLocked s pid idx start len = .ok (s',err)) :
    err = 0 ∨ s' = s ∧ ¬vregionSize ∣ start := by
  rcases free_with_cases h hlen hword hrun with ⟨-,hsame,r,hr,hlo,hhi⟩ | ⟨hzero,-⟩
  · obtain ⟨hstart,hend⟩ := h.inside pid idx r hr
    refine .inr ⟨hsame,?_⟩
    rintro ⟨k,rfl⟩
    have hv : vregionSize = 1073741824 := rfl
    unfold vregionToStartVa at hstart
    unfold vregionToEndVa at hend
    rw [hv] at hstart hend hlo hhi
    split_ifs at hstart <;> omega
  · exact .inl hzero

lemma piece_pos (hword : start+len < 2^64) (hlen : len ≠ 0) : pieceLen start len ≠ 0 := by
  have hv : vregionSize = 1073741824 := rfl
  unfold pieceLen sub64 vregionToEndVa vaToVregionIndex
  rw [hv]
  omega

lemma next_piece (hword : start+len < 2^64) (hidx : vaToVregionIndex start < nrVregions)
    (hrest : pieceLen start len ≠ len) : vregionSize ∣ start+pieceLen start len := by
  have hv : vregionSize = 1073741824 := rfl
  have hn : nrVregions = 1048576 := rfl
  have hle := piece_le start len
  unfold pieceLen sub64 vregionToEndVa vaToVregionIndex at *
  rw [hv] at hidx hrest hle ⊢
  rw [hn] at hidx
  omega

/-- Only the first vRegion of a free can refuse: the others are cut at a boundary. -/
lemma free_loop_fails {stop n : ℕ} (h : Base s) (hlen : len ≠ 0)
    (hstop : start+len = stop) (hword : stop < 2^64)
    (hrun : freeVaLoop pid stop n s start len = .ok (s',err)) :
    err = 0 ∨ s' = s ∧ ¬vregionSize ∣ start := by
  induction n generalizing s start len with
  | zero => cases hrun
  | succ n ih =>
    unfold freeVaLoop at hrun
    dsimp only at hrun
    split_ifs at hrun with hidx
    obtain ⟨⟨t,ret⟩,ht,hrest⟩ := (bind_ok_iff _ _ _).mp hrun
    rw [← pieceLen] at ht hrest
    have hle := piece_le start len
    have hfirst := free_locked_fails h.vm (piece_pos (hstop ▸ hword) hlen) (by omega) ht
    dsimp only at hrest
    split_ifs at hrest with hend
    · cases hrest
      exact hfirst
    · rw [not_or,not_not] at hend
      have hnext := ih (free_locked_base h (by omega) (by omega) ht).1 (by omega) (by omega) hrest
      exact hnext.imp_right fun hfail =>
        absurd (next_piece (hstop ▸ hword) (Nat.lt_of_not_le hidx) (by omega)) hfail.2

/-- A free that fails has changed nothing. -/
lemma free_va_fails (h : Base s) (hs : start < 2^64) (hl : len < 2^64)
    (hrun : freeVa s pid start len = .ok (s',err)) (herr : err ≠ 0) : s' = s := by
  unfold freeVa at hrun
  dsimp only at hrun
  split_ifs at hrun with hz hwrap
  · cases hrun
    rfl
  · cases hrun
    rfl
  · rw [not_or] at hz
    exact ((free_loop_fails h hz.1 (by omega) (Nat.mod_lt _ (by decide)) hrun).resolve_left herr).1

end

/-- Pages are whole and no live page that is freed is in a conflict's area. -/
def Separate (m : Tracked) : Call → Prop
  | .alloc pid _ len _ => pid < 2^16 ∧ len < 2^64 ∧ len ≠ 0 ∧ pageSize ∣ len
  | .free pid start len =>
      pid < 2^16 ∧ start < 2^64 ∧ len < 2^64 ∧ len ≠ 0 ∧ pageSize ∣ start ∧ pageSize ∣ len ∧
      (∀ x ∈ live m.log pid, start ≤ x → x < start+len → ∀ i < nrVregions,
        ¬Has (region m.soc pid i) x vmFlagsConflict)

structure LiveInv (m : Tracked) : Prop where
  agree : Agree (live m.log) (live m.log) m.soc
  aligned : Aligned m.soc

lemma page_align_self {len : ℕ} (hl : len < 2^64) (hd : pageSize ∣ len) : pageAlign len = len := by
  obtain ⟨k,rfl⟩ := hd
  have hp : pageSize = 4194304 := rfl
  unfold pageAlign
  rw [hp] at hl ⊢
  omega

lemma live_alloc (log : List Event) (pid a len : ℕ) :
    live (.alloc pid a len::log) = adding (live log) pid (Ico a (a+len)) := rfl

lemma live_free (log : List Event) (pid start len : ℕ) :
    live (.free pid start len::log) = without (live log) pid (Ico start (start+len)) := rfl

lemma alloc_live {m u : Tracked} {pid idx len vmFlags : ℕ} (h : LiveInv m)
    (hok : Separate m (.alloc pid idx len vmFlags))
    (hrun : exec m (.alloc pid idx len vmFlags) = some u) : LiveInv u := by
  obtain ⟨hpid,hl,hpos,hd⟩ := hok
  have hself := page_align_self hl hd
  unfold exec CoveredSet.exec at hrun
  dsimp only at hrun
  split_ifs at hrun with hidx
  split at hrun
  · cases hrun
  · next s a halloc =>
    cases hrun
    refine ⟨?_,(alloc_va_base h.agree.base hidx (hself.symm ▸ hpos) halloc).2 h.aligned⟩
    have hle : len ≤ vregionSize := by
      rw [← hself]
      exact alloc_va_len halloc
    rcases alloc_outcome pid vmFlags h.agree.base h.aligned hidx (Nat.pos_of_ne_zero hpos) hle with
      ⟨t,ht,-,heq⟩ | ⟨t,u,b,ht,hfit,hfit',he,heq⟩
    · rw [halloc] at heq
      cases heq
      have hm := marked_agree h.agree hpid ht
      exact ⟨base_cached hm.base _,mapped_congr hm.mapped rfl fun _ _ _ => Iff.rfl,hm.full,hm.apart,
        hm.cover⟩
    · rw [halloc] at heq
      cases heq
      have hm := marked_agree h.agree hpid ht
      dsimp only
      rw [if_neg (fits_pos hfit),live_alloc]
      rw [hself] at he hfit' ⊢
      exact entered_agree hm hpid hidx (Nat.pos_of_ne_zero hpos) hd hfit' he

lemma free_live {m u : Tracked} {pid start len : ℕ} (h : LiveInv m)
    (hok : Separate m (.free pid start len)) (hrun : exec m (.free pid start len) = some u) :
    LiveInv u := by
  obtain ⟨hpid,hs,hl,-,hds,hdl,hflags⟩ := hok
  unfold exec at hrun
  dsimp only at hrun
  split at hrun
  · cases hrun
  · next s ret hfree =>
    cases hrun
    refine ⟨?_,(free_va_base h.agree.base h.aligned hs hl hds hdl hfree).2⟩
    dsimp only
    by_cases hret : ret = 0
    · subst hret
      rw [if_pos rfl,live_free]
      exact free_va_agree h.agree h.aligned hpid hs hl hds hdl hflags hfree
    · rw [if_neg hret,free_va_fails h.agree.base hs hl hfree hret]
      exact h.agree

lemma live_step {m u : Tracked} {c : Call} (h : LiveInv m) (hok : Separate m c)
    (hrun : exec m c = some u) : LiveInv u := by
  cases c with
  | alloc pid idx len vmFlags => exact alloc_live h hok hrun
  | free pid start len => exact free_live h hok hrun

lemma live_boot : LiveInv CoveredSet.start := by
  refine ⟨⟨state_boot.base,⟨?_,?_⟩,?_,?_,?_⟩,state_boot.aligned⟩
  · intro pid p _ hmem
    cases hmem
  · intro b i hall
    cases hall
  · intro b hb
    exact absurd rfl hb
  · intro b ci hci
    cases hci
  · intro pid p _ hmem
    cases hmem

/-- In such runs a page is live exactly if its bucket has one entry with its tag. -/
theorem live_iff_one_entry (cs : List Call) (m : Tracked)
    (hok : Guarded exec Separate cs CoveredSet.start)
    (hrun : run exec cs CoveredSet.start = some m) (pid p : ℕ) (hp : Page pid p) :
    p ∈ live m.log pid ↔ ∃ i, Found m.soc pid p i ∧ ∀ j, Found m.soc pid p j → j = i := by
  have hinv : LiveInv m := run_invariant exec Separate LiveInv (fun _ _ _ => live_step) cs
    CoveredSet.start m live_boot hok hrun
  exact mapped_iff hinv.agree.mapped hp

theorem live_iff_one_entry_first :
    ∃ m, run exec [.alloc 1 0 4194304 0] CoveredSet.start = some m ∧
      1069547520 ∈ live m.log 1 ∧ ∃ i, Found m.soc 1 1069547520 i := by
  obtain ⟨m,hm,hlog⟩ := exists_checked (run exec [.alloc 1 0 4194304 0] CoveredSet.start)
    (fun m => m.log = [.alloc 1 1069547520 4194304]) (by decide +kernel)
  have hguard : Guarded exec Separate [.alloc 1 0 4194304 0] CoveredSet.start := by
    refine ⟨⟨by decide,by decide,by decide,by decide⟩,?_⟩
    cases exec CoveredSet.start (.alloc 1 0 4194304 0) <;> trivial
  have hmem : 1069547520 ∈ live m.log 1 := by
    rw [hlog]
    exact .inr ⟨le_rfl,by decide⟩
  obtain ⟨i,hi,-⟩ := (live_iff_one_entry _ m hguard hm 1 1069547520
    ⟨by decide,by decide,by decide⟩).mp hmem
  exact ⟨m,hm,hmem,i,hi⟩

/-- A page is merged into the area of a conflict, and its free leaves the entry. -/
def merged : List Call :=
  (List.range 17).map (fun k => .alloc (k+1) 0 4194304 0)++[.free 17 1065353216 4194304]

theorem freed_page_mapped : ∃ m, run exec merged CoveredSet.start = some m ∧
    1065353216 ∉ live m.log 17 ∧ Found m.soc 17 1065353216 0 ∧
    ∀ j, Found m.soc 17 1065353216 j → j = 0 := by
  obtain ⟨m,hm,hlog,hentry⟩ := exists_checked (run exec merged CoveredSet.start) (fun m =>
    m.log.head? = some (.free 17 1065353216 4194304) ∧ Found m.soc 17 1065353216 0 ∧
      ∀ j, Found m.soc 17 1065353216 j → j = 0) (by decide +kernel)
  refine ⟨m,hm,?_,hentry⟩
  obtain ⟨log,hlog⟩ := List.head?_eq_some_iff.mp hlog
  rw [hlog]
  rintro ⟨-,hout⟩
  exact hout ⟨le_rfl,by decide⟩

end Clio.TableAgree
