import Clio.VmArea
import Clio.Dll
import Clio.Ranges

/-!
# What the VMA tree of a vRegion represents

The list, the tree, the counters and the gaps describe one sorted list of labelled ranges.
-/

namespace Clio.VmRep

open List Rbtree Dll Ranges VmArea

def rangeOf (a : VmAreaStruct) : Range ℕ := ⟨a.vmStart,a.vmEnd,a.vmFlags⟩

def areas (v : VmaTree) (ps : List ℕ) : List (Range ℕ) := ps.map fun p => rangeOf (v.area p)

def lastEnd (l : List (Range ℕ)) : ℕ := l.getLast?.elim 0 (·.hi)

structure Shape (v : VmaTree) (ps : List ℕ) : Prop where
  tree : v.mmRb.toList = ps
  mmap : v.mmap = ps.head?
  linked : Linked (fun p => (v.area p).vmNext) (fun p => (v.area p).vmPrev) ps
  nodup : ps.Nodup
  fresh : ∀ p ∈ ps, p < v.fresh
  count : v.nrVmas = ps.length

structure Rep (v : VmaTree) (ps : List ℕ) : Prop extends Shape v ps where
  sorted : Sorted (areas v ps)
  highest : v.highestVmEnd = lastEnd (areas v ps)
  gaps : AugOk (vmaComputeGap v.area) v.mmRb

/-! ## Reading and writing areas -/

section

variable (v : VmaTree)
include v

lemma area_set (p y : ℕ) (f : VmAreaStruct → VmAreaStruct) :
    (setArea v p f).area y = if y = p then f (v.area y) else v.area y := by
  show Function.update v.area p (f (v.area p)) y = _
  rw [Function.update_apply]
  split
  · next h => rw [h]
  · rfl

lemma area_set_next_of (prev next : Option ℕ) (y : ℕ) :
    (setNextOf v prev next).area y =
      if prev = some y then {v.area y with vmNext := next} else v.area y := by
  cases prev with
  | none => rfl
  | some q =>
    show (setNext v q next).area y = _
    rw [setNext,area_set]
    simp only [Option.some.injEq,eq_comm (a := y)]

lemma area_set_prev_of (next prev : Option ℕ) (y : ℕ) :
    (setPrevOf v next prev).area y =
      if next = some y then {v.area y with vmPrev := prev} else v.area y := by
  cases next with
  | none => rfl
  | some n =>
    show (setPrev v n prev).area y = _
    rw [setPrev,area_set]
    simp only [Option.some.injEq,eq_comm (a := y)]

lemma areas_append (l1 l2 : List ℕ) :
    areas v (l1++l2) = areas v l1++areas v l2 := List.map_append

lemma areas_cons (p : ℕ) (l : List ℕ) :
    areas v (p::l) = rangeOf (v.area p)::areas v l := rfl

lemma areas_congr (w : VmaTree) (ps : List ℕ)
    (h : ∀ p ∈ ps, rangeOf (w.area p) = rangeOf (v.area p)) : areas w ps = areas v ps :=
  List.map_congr_left h

lemma areas_set_range (p s e : ℕ) (l : List ℕ) (hp : p ∉ l) :
    areas (setRange v p s e) l = areas v l := by
  apply areas_congr
  intro q hq
  have hne : q ≠ p := fun h => hp (h ▸ hq)
  rw [setRange,area_set,if_neg hne]

lemma range_set_range (p s e : ℕ) :
    rangeOf ((setRange v p s e).area p) = ⟨s,e,(v.area p).vmFlags⟩ := by
  rw [setRange,area_set,if_pos rfl]
  rfl

end

/-! ## Gaps -/

variable (area : ℕ → VmAreaStruct)

lemma gap_congr (area' : ℕ → VmAreaStruct) (p : ℕ) (hs : (area' p).vmStart = (area p).vmStart)
    (hp : (area' p).vmPrev = (area p).vmPrev)
    (he : ∀ q, (area p).vmPrev = some q → (area' q).vmEnd = (area q).vmEnd) :
    vmaComputeGap area' p = vmaComputeGap area p := by
  unfold vmaComputeGap
  rw [hs,hp]
  cases h : (area p).vmPrev with
  | none => rfl
  | some q => simp only [he q h]

/-! ## Places in the list -/

variable {v : VmaTree} {l1 l2 ps : List ℕ} {p : ℕ}

lemma Shape.prev_eq (h : Shape v (l1++p::l2)) : (v.area p).vmPrev = l1.getLast? :=
  (h.linked l1 p l2 rfl).1

lemma Shape.next_eq (h : Shape v (l1++p::l2)) : (v.area p).vmNext = l2.head? :=
  (h.linked l1 p l2 rfl).2

lemma Shape.next_of_eq (h : Shape v (l1++l2)) : nextOf v l1.getLast? = l2.head? := by
  cases hl : l1.getLast? with
  | none =>
    rw [List.getLast?_eq_none_iff] at hl
    subst hl
    exact h.mmap
  | some q =>
    obtain ⟨a,rfl⟩ := List.getLast?_eq_some_iff.mp hl
    rw [append_assoc] at h
    exact h.next_eq

lemma Shape.not_mem (h : Shape v (l1++p::l2)) : p ∉ l1 ∧ p ∉ l2 := by
  have hn := h.nodup
  simp only [nodup_append,nodup_cons,mem_cons] at hn
  grind

lemma Shape.areas_set_range (h : Shape v (l1++p::l2)) (s e : ℕ) :
    areas (setRange v p s e) (l1++p::l2) = areas v l1++⟨s,e,(v.area p).vmFlags⟩::areas v l2 := by
  rw [areas_append,areas_cons,range_set_range,VmRep.areas_set_range v p s e l1 h.not_mem.1,
    VmRep.areas_set_range v p s e l2 h.not_mem.2]

lemma Shape.congr {w : VmaTree} (h : Shape v ps) (htree : w.mmRb.toList = v.mmRb.toList)
    (hmmap : w.mmap = v.mmap) (hfresh : v.fresh ≤ w.fresh) (hcount : w.nrVmas = v.nrVmas)
    (hnext : ∀ q ∈ ps, (w.area q).vmNext = (v.area q).vmNext)
    (hprev : ∀ q ∈ ps, (w.area q).vmPrev = (v.area q).vmPrev) : Shape w ps where
  tree := htree.trans h.tree
  mmap := hmmap.trans h.mmap
  linked := linked_congr _ _ _ _ ps h.linked hnext hprev
  nodup := h.nodup
  fresh := fun q hq => (h.fresh q hq).trans_le hfresh
  count := hcount.trans h.count

lemma shape_set_range (h : Shape v ps) (q s e : ℕ) : Shape (setRange v q s e) ps := by
  have harea : ∀ y, ((setRange v q s e).area y).vmNext = (v.area y).vmNext ∧
      ((setRange v q s e).area y).vmPrev = (v.area y).vmPrev := by
    intro y
    rw [setRange,area_set]
    split <;> exact ⟨rfl,rfl⟩
  exact h.congr rfl rfl le_rfl rfl (fun y _ => (harea y).1) (fun y _ => (harea y).2)

lemma shape_gap_update (h : Shape v ps) (q : ℕ) : Shape (vmaGapUpdate v q) ps :=
  h.congr (to_list_update ..) rfl le_rfl rfl (fun _ _ => rfl) (fun _ _ => rfl)

/-! ## Linking an area -/

section

variable {x : ℕ}

lemma link_list_next (h : Shape v (l1++l2)) (y : ℕ) :
    ((vmaLinkList v x l1.getLast?).area y).vmNext =
      if y = x then l2.head? else if l1.getLast? = some y then some x else (v.area y).vmNext := by
  simp only [vmaLinkList,area_set_prev_of,setNext,setPrev,area_set,area_set_next_of, h.next_of_eq]
  grind

lemma link_list_prev (h : Shape v (l1++l2)) (hx : x ∉ l1++l2) (y : ℕ) :
    ((vmaLinkList v x l1.getLast?).area y).vmPrev =
      if y = x then l1.getLast? else if l2.head? = some y then some x
        else (v.area y).vmPrev := by
  have hhead : l2.head? ≠ some x := fun hh => hx (by simp [mem_of_head? hh])
  simp only [vmaLinkList,area_set_prev_of,setNext,setPrev,area_set,area_set_next_of, h.next_of_eq]
  grind

lemma link_list_range (v : VmaTree) (x : ℕ) (prev : Option ℕ) (y : ℕ) :
    rangeOf ((vmaLinkList v x prev).area y) = rangeOf (v.area y) := by
  simp only [vmaLinkList,area_set_prev_of,setNext,setPrev,area_set,area_set_next_of,rangeOf]
  grind

lemma link_list_mmap (h : Shape v (l1++l2)) :
    (vmaLinkList v x l1.getLast?).mmap = (l1++x::l2).head? := by
  have hset : ∀ (w : VmaTree) (n : Option ℕ) (q : Option ℕ), (setPrevOf w n q).mmap = w.mmap := by
    intro w n q
    cases n <;> rfl
  rw [vmaLinkList,hset]
  cases l1 with
  | nil => rfl
  | cons a l =>
    rw [List.getLast?_cons]
    exact h.mmap

lemma link_list_other (v : VmaTree) (x : ℕ) (prev : Option ℕ) :
    (vmaLinkList v x prev).mmRb = v.mmRb ∧ (vmaLinkList v x prev).fresh = v.fresh ∧
      (vmaLinkList v x prev).nrVmas = v.nrVmas ∧
      (vmaLinkList v x prev).highestVmEnd = v.highestVmEnd := by
  unfold vmaLinkList
  cases prev <;> cases nextOf v _ <;> exact ⟨rfl,rfl,rfl,rfl⟩

lemma link_list_linked (h : Shape v (l1++l2)) (hx : x ∉ l1++l2) :
    Linked (fun p => ((vmaLinkList v x l1.getLast?).area p).vmNext)
      (fun p => ((vmaLinkList v x l1.getLast?).area p).vmPrev) (l1++x::l2) := by
  have hn := nodup_append.mp h.nodup
  have hlist : l1++x::l2 = l1++[x]++l2 := by simp
  rw [hlist]
  apply linked_splice (fun p => (v.area p).vmNext) (fun p => (v.area p).vmPrev) _ _ l1 [] [x] l2
    (by simpa using h.linked) hn.1 hn.2.1
  · intro p hp
    have hpx : p ≠ x := fun he => hx (by simp [← he,hp])
    have hhead : l2.head? ≠ some p := fun hh => hn.2.2 p hp p (mem_of_head? hh) rfl
    simp [link_list_next h,link_list_prev h hx,hpx,hhead]
  · intro p hp
    have hpx : p ≠ x := fun he => hx (by simp [← he,hp])
    have hlast : l1.getLast? ≠ some p := fun hl => hn.2.2 p (mem_of_getLast? hl) p hp rfl
    simp [link_list_next h,link_list_prev h hx,hpx,hlast]
  · intro a p b hs
    cases a with
    | cons q a => simp at hs
    | nil =>
      obtain ⟨rfl,rfl⟩ := List.cons.inj hs
      simp [link_list_next h,link_list_prev h hx]

lemma link_list_gap (h : Shape v (l1++l2)) (hx : x ∉ l1++l2) (y : ℕ) (hy : y ∈ l1++l2)
    (hhead : l2.head? ≠ some y) :
    vmaComputeGap (vmaLinkList v x l1.getLast?).area y = vmaComputeGap v.area y := by
  have hrange := link_list_range v x l1.getLast?
  have hyx : y ≠ x := fun he => hx (he ▸ hy)
  apply gap_congr
  · exact congrArg Range.lo (hrange y)
  · rw [link_list_prev h hx,if_neg hyx,if_neg hhead]
  · intro q hq
    exact congrArg Range.hi (hrange q)

lemma vma_link_area (v : VmaTree) (x : ℕ) (prev : Option ℕ) (link : List Dir) :
    (vmaLink v x prev link).area = (vmaLinkList v x prev).area := by
  unfold vmaLink vmaLinkRb
  dsimp only
  split <;> rfl

variable (link : List Dir)

lemma shape_vma_link (h : Shape v (l1++l2)) (hx : x ∉ l1++l2) (hfresh : x < v.fresh)
    (hslot : Slot link v.mmRb l1 l2) :
    Shape (vmaLink v x l1.getLast? link) (l1++x::l2) where
  tree := by
    unfold vmaLink vmaLinkRb
    dsimp only
    obtain ⟨hrb,-,-,-⟩ := link_list_other v x l1.getLast?
    split
    · apply to_list_insert_slot
      apply slot_update
      rwa [hrb]
    · apply to_list_insert_slot
      rwa [hrb]
  mmap := by
    rw [← link_list_mmap h]
    unfold vmaLink vmaLinkRb
    dsimp only
    split <;> rfl
  linked := by
    rw [vma_link_area]
    exact link_list_linked h hx
  nodup := by
    have hn := h.nodup
    simp only [nodup_append,nodup_cons,mem_append,mem_cons] at hn hx ⊢
    grind
  fresh := by
    have hf : (vmaLink v x l1.getLast? link).fresh = v.fresh := by
      rw [← (link_list_other v x l1.getLast?).2.1]
      unfold vmaLink vmaLinkRb
      dsimp only
      split <;> rfl
    intro q hq
    rw [hf]
    simp only [mem_append,mem_cons] at hq
    rcases hq with hq | rfl | hq
    · exact h.fresh q (by simp [hq])
    · exact hfresh
    · exact h.fresh q (by simp [hq])
  count := by
    have hc : (vmaLink v x l1.getLast? link).nrVmas = v.nrVmas+1 := by
      rw [← (link_list_other v x l1.getLast?).2.2.1]
      unfold vmaLink vmaLinkRb
      dsimp only
      split <;> rfl
    rw [hc,h.count]
    simp only [length_append,length_cons]
    push_cast
    ring

variable (own : ℕ → ℕ)

lemma gaps_vma_link (h : Shape v (l1++l2)) (hx : x ∉ l1++l2)
    (hown : ∀ y ∈ l1++l2, l2.head? ≠ some y → own y = vmaComputeGap v.area y)
    (hok : AugOk own v.mmRb) :
    AugOk (vmaComputeGap (vmaLink v x l1.getLast? link).area)
      (vmaLink v x l1.getLast? link).mmRb := by
  obtain ⟨hrb,-,-,-⟩ := link_list_other v x l1.getLast?
  have hgap : ∀ y ∈ l1++l2, l2.head? ≠ some y →
      own y = vmaComputeGap (vmaLinkList v x l1.getLast?).area y := fun y hy hh =>
    (hown y hy hh).trans (link_list_gap h hx y hy hh).symm
  rw [vma_link_area]
  unfold vmaLink vmaLinkRb
  dsimp only
  rw [link_list_next h,if_pos rfl]
  cases hl : l2 with
  | nil =>
    apply insert_at_ok
    show AugOk _ (vmaLinkList v x l1.getLast?).mmRb
    rw [hrb]
    apply aug_ok_congr own _ _ _ hok
    intro y hy
    rw [h.tree] at hy
    exact hgap y hy (by simp [hl])
  | cons n l =>
    apply insert_at_ok
    show AugOk _ (update _ n (vmaLinkList v x l1.getLast?).mmRb)
    rw [hrb]
    apply update_ok own _ n v.mmRb
    · rw [h.tree,hl]
      simp
    · rw [h.tree]
      exact h.nodup
    · intro y hy hne
      rw [h.tree] at hy
      exact hgap y hy (by simpa [hl] using fun he => hne he.symm)
    · exact hok

lemma highest_vma_link (h : Shape v (l1++l2)) :
    (vmaLink v x l1.getLast? link).highestVmEnd =
      if l2 = [] then (v.area x).vmEnd else v.highestVmEnd := by
  obtain ⟨-,-,-,hhigh⟩ := link_list_other v x l1.getLast?
  unfold vmaLink vmaLinkRb
  dsimp only
  rw [link_list_next h,if_pos rfl]
  cases l2 with
  | nil => exact congrArg Range.hi (link_list_range v x l1.getLast? x)
  | cons n l =>
    rw [if_neg (by simp)]
    exact hhigh

lemma areas_vma_link (v : VmaTree) (x : ℕ) (prev : Option ℕ) (link : List Dir)
    (ps : List ℕ) : areas (vmaLink v x prev link) ps = areas v ps := by
  apply areas_congr
  intro q hq
  rw [vma_link_area]
  exact link_list_range v x prev q

lemma rep_vma_link (h : Shape v (l1++l2)) (hx : x ∉ l1++l2) (hfresh : x < v.fresh)
    (hslot : Slot link v.mmRb l1 l2)
    (hown : ∀ y ∈ l1++l2, l2.head? ≠ some y → own y = vmaComputeGap v.area y)
    (hok : AugOk own v.mmRb) (hsorted : Sorted (areas v (l1++x::l2)))
    (hhigh : l2 ≠ [] → v.highestVmEnd = lastEnd (areas v l2)) :
    Rep (vmaLink v x l1.getLast? link) (l1++x::l2) where
  toShape := shape_vma_link link h hx hfresh hslot
  sorted := by rwa [areas_vma_link]
  gaps := gaps_vma_link link own h hx hown hok
  highest := by
    rw [areas_vma_link,highest_vma_link link h]
    cases l2 with
    | nil => simp [areas,lastEnd,rangeOf]
    | cons n l =>
      rw [if_neg (by simp),hhigh (by simp)]
      simp [areas,lastEnd,List.getLast?_append,List.getLast?_cons]

end

/-! ## Searching the tree -/

def Ordered (area : ℕ → VmAreaStruct) (ps : List ℕ) : Prop :=
  (∀ p ∈ ps, (area p).vmStart < (area p).vmEnd) ∧
    ps.Pairwise fun p q => (area p).vmEnd ≤ (area q).vmStart

lemma sorted_iff_ordered (v : VmaTree) (ps : List ℕ) :
    Sorted (areas v ps) ↔ Ordered v.area ps := by
  simp [Sorted,Ordered,areas,pairwise_map,rangeOf]

lemma ordered_node (a b : List ℕ) (x : ℕ) (h : Ordered area (a++x::b)) :
    Ordered area a ∧ Ordered area b ∧
      (area x).vmStart < (area x).vmEnd ∧ (∀ q ∈ a, (area q).vmEnd ≤ (area x).vmStart) ∧
      ∀ q ∈ b, (area x).vmEnd ≤ (area q).vmStart ∧ (area q).vmStart < (area q).vmEnd := by
  obtain ⟨hne,hp⟩ := h
  simp only [pairwise_append,pairwise_cons,mem_append,mem_cons] at hne hp
  refine ⟨⟨fun q hq => hne q (.inl hq),hp.1⟩,⟨fun q hq => hne q (.inr (.inr hq)),hp.2.1.2⟩,
    hne x (.inr (.inl rfl)),fun q hq => hp.2.2 q hq x (.inl rfl),
    fun q hq => ⟨hp.2.1.1 q hq,hne q (.inr (.inr hq))⟩⟩

lemma find_vma_loop_eq (addr : ℕ) (t : RbTree ℕ) (vma : Option ℕ) (h : Ordered area t.toList) :
    findVmaLoop area addr t vma = (t.toList.find? fun p => addr < (area p).vmEnd).or vma := by
  induction t generalizing vma with
  | nil => rfl
  | node c l x g r ihl ihr =>
    obtain ⟨hl,hr,hx,hlx,hxr⟩ := ordered_node area l.toList r.toList x h
    rw [findVmaLoop,RbTree.toList,List.find?_append]
    by_cases hend : (area x).vmEnd > addr
    · rw [if_pos hend,List.find?_cons_of_pos (by simpa using hend)]
      split
      · next hstart =>
        -- the areas to the left end before this one starts
        have hnone : l.toList.find? (fun p => addr < (area p).vmEnd) = none := by
          rw [List.find?_eq_none]
          intro q hq
          have := hlx q hq
          simp
          omega
        rw [hnone]
        rfl
      · rw [ihl (some x) hl]
        cases l.toList.find? fun p => addr < (area p).vmEnd <;> rfl
    · have hnone : l.toList.find? (fun p => addr < (area p).vmEnd) = none := by
        rw [List.find?_eq_none]
        intro q hq
        have := hlx q hq
        simp
        omega
      rw [if_neg hend,ihr vma hr,hnone,List.find?_cons_of_neg (by simpa using hend)]
      rfl

lemma find_vma_some (h : Rep v ps) (addr p : ℕ) (hf : findVma v addr = some p) :
    ∃ l1 l2, ps = l1++p::l2 ∧ (∀ q ∈ l1, (v.area q).vmEnd ≤ addr) ∧ addr < (v.area p).vmEnd := by
  have hord := (sorted_iff_ordered v ps).mp h.sorted
  rw [findVma,find_vma_loop_eq v.area addr v.mmRb none (h.tree ▸ hord),h.tree, Option.or_none] at hf
  obtain ⟨hp,l1,l2,hps,hl⟩ := List.find?_eq_some_iff_append.mp hf
  exact ⟨l1,l2,hps,fun q hq => by simpa using hl q hq,by simpa using hp⟩

lemma find_vma_none (h : Rep v ps) (addr : ℕ) (hf : findVma v addr = none) :
    ∀ q ∈ ps, (v.area q).vmEnd ≤ addr := by
  have hord := (sorted_iff_ordered v ps).mp h.sorted
  rw [findVma,find_vma_loop_eq v.area addr v.mmRb none (h.tree ▸ hord),h.tree,
    Option.or_none,List.find?_eq_none] at hf
  intro q hq
  simpa using hf q hq

lemma find_links_loop_some (addr stop : ℕ) (t : RbTree ℕ) (prev pr : Option ℕ) (link : List Dir)
    (h : Ordered area t.toList) (hf : findVmaLinksLoop area addr stop t prev = some (pr,link)) :
    ∃ a b, t.toList = a++b ∧ (∀ q ∈ a, (area q).vmEnd ≤ addr) ∧
      (∀ q ∈ b, addr < (area q).vmEnd ∧ stop ≤ (area q).vmStart) ∧ pr = a.getLast?.or prev ∧
      ∀ f : Path ℕ, ∃ f', descend link t f = some f' ∧ pre f' = pre f++a ∧ post f' = b++post f := by
  induction t generalizing prev pr link with
  | nil =>
    obtain ⟨rfl,rfl⟩ := Prod.mk.inj (Option.some.inj hf)
    exact ⟨[],[],rfl,by simp,by simp,rfl,fun f => ⟨f,rfl,by simp,by simp⟩⟩
  | node c l x g r ihl ihr =>
    obtain ⟨hl,hr,hx,hlx,hxr⟩ := ordered_node area l.toList r.toList x h
    rw [findVmaLinksLoop] at hf
    split at hf
    · next hend =>
      split at hf
      · exact absurd hf (by simp)
      · next hstart =>
        obtain ⟨⟨pr',link'⟩,hrec,heq⟩ := Option.map_eq_some_iff.mp hf
        obtain ⟨rfl,rfl⟩ := Prod.mk.inj heq
        obtain ⟨a,b,hab,ha,hb,hpr,hpath⟩ := ihl prev pr' link' hl hrec
        refine ⟨a,b++x::r.toList,by simp [RbTree.toList,hab],ha,?_,hpr,?_⟩
        · intro q hq
          simp only [mem_append,mem_cons] at hq
          rcases hq with hq | rfl | hq
          · exact hb q hq
          · exact ⟨hend,by omega⟩
          · have := hxr q hq
            omega
        · intro f
          obtain ⟨f',hd,hpre,hpost⟩ := hpath (⟨.left,c,x,g,r⟩::f)
          exact ⟨f',hd,by simpa [pre] using hpre,by simpa [post] using hpost⟩
    · next hend =>
      obtain ⟨⟨pr',link'⟩,hrec,heq⟩ := Option.map_eq_some_iff.mp hf
      obtain ⟨rfl,rfl⟩ := Prod.mk.inj heq
      obtain ⟨a,b,hab,ha,hb,hpr,hpath⟩ := ihr (some x) pr' link' hr hrec
      refine ⟨l.toList++x::a,b,by simp [RbTree.toList,hab],?_,hb,?_,?_⟩
      · intro q hq
        simp only [mem_append,mem_cons] at hq
        rcases hq with hq | rfl | hq
        · have := hlx q hq
          omega
        · omega
        · exact ha q hq
      · rw [hpr,List.getLast?_append,List.getLast?_cons]
        cases a.getLast? <;> rfl
      · intro f
        obtain ⟨f',hd,hpre,hpost⟩ := hpath (⟨.right,c,x,g,l⟩::f)
        exact ⟨f',hd,by simpa [pre] using hpre,by simpa [post] using hpost⟩

lemma find_links_loop_none (addr stop : ℕ) (t : RbTree ℕ) (prev : Option ℕ)
    (hf : findVmaLinksLoop area addr stop t prev = none) :
    ∃ q ∈ t.toList, addr < (area q).vmEnd ∧ (area q).vmStart < stop := by
  induction t generalizing prev with
  | nil => exact absurd hf (by simp [findVmaLinksLoop])
  | node c l x g r ihl ihr =>
    rw [findVmaLinksLoop] at hf
    split at hf
    · next hend =>
      split at hf
      · next hstart => exact ⟨x,by simp [RbTree.toList],hend,hstart⟩
      · obtain ⟨q,hq,h⟩ := ihl prev (Option.map_eq_none_iff.mp hf)
        exact ⟨q,by simp [RbTree.toList,hq],h⟩
    · obtain ⟨q,hq,h⟩ := ihr (some x) (Option.map_eq_none_iff.mp hf)
      exact ⟨q,by simp [RbTree.toList,hq],h⟩

lemma find_links_some (h : v.mmRb.toList = ps) (hs : Sorted (areas v ps)) (addr stop : ℕ)
    (prev : Option ℕ) (link : List Dir) (hf : findVmaLinks v addr stop = some (prev,link)) :
    ∃ a b, ps = a++b ∧ (∀ q ∈ a, (v.area q).vmEnd ≤ addr) ∧
      (∀ q ∈ b, addr < (v.area q).vmEnd ∧ stop ≤ (v.area q).vmStart) ∧
      prev = a.getLast? ∧ Slot link v.mmRb a b := by
  have hord := (sorted_iff_ordered v ps).mp hs
  obtain ⟨a,b,hab,ha,hb,hprev,hpath⟩ :=
    find_links_loop_some v.area addr stop v.mmRb none prev link (h ▸ hord) hf
  obtain ⟨f,hd,hpre,hpost⟩ := hpath []
  exact ⟨a,b,h ▸ hab,ha,hb,by simpa using hprev,f,hd,by simpa [pre] using hpre,
    by simpa [post] using hpost⟩

lemma split_unique {α : Type} (P : α → Prop) (a b c d : List α) (h : a++b = c++d)
    (ha : ∀ x ∈ a, P x) (hb : ∀ x ∈ b, ¬P x) (hc : ∀ x ∈ c, P x) (hd : ∀ x ∈ d, ¬P x) :
    a = c ∧ b = d := by
  rcases append_eq_append_iff.mp h with ⟨e,rfl,rfl⟩ | ⟨e,rfl,rfl⟩
  · cases e with
    | nil => simp
    | cons x e => exact absurd (hc x (by simp)) (hb x (by simp))
  · cases e with
    | nil => simp
    | cons x e => exact absurd (ha x (by simp)) (hd x (by simp))

lemma find_links_between (h : v.mmRb.toList = l1++l2) (hs : Sorted (areas v (l1++l2)))
    (addr stop : ℕ) (h1 : ∀ q ∈ l1, (v.area q).vmEnd ≤ addr)
    (h2 : ∀ q ∈ l2, addr < (v.area q).vmEnd ∧ stop ≤ (v.area q).vmStart) :
    ∃ link, findVmaLinks v addr stop = some (l1.getLast?,link) ∧ Slot link v.mmRb l1 l2 := by
  cases hf : findVmaLinks v addr stop with
  | none =>
    obtain ⟨q,hq,hend,hstart⟩ := find_links_loop_none v.area addr stop v.mmRb none hf
    rw [h,mem_append] at hq
    rcases hq with hq | hq
    · have := h1 q hq
      omega
    · have := h2 q hq
      omega
  | some z =>
    obtain ⟨prev,link⟩ := z
    obtain ⟨a,b,hab,ha,hb,rfl,hslot⟩ := find_links_some h hs addr stop prev link hf
    obtain ⟨rfl,rfl⟩ := split_unique (fun q => (v.area q).vmEnd ≤ addr) l1 l2 a b hab h1
      (fun q hq => by have := h2 q hq; omega) ha (fun q hq => by have := hb q hq; omega)
    exact ⟨link,rfl,hslot⟩

/-! ## Splitting an area -/

lemma last_end_append (a l : List (Range ℕ)) (r : Range ℕ) :
    lastEnd (a++r::l) = l.getLast?.elim r.hi (·.hi) := by
  rw [lastEnd,List.getLast?_append,List.getLast?_cons]
  cases l.getLast? <;> rfl

lemma last_end_cons (l : List (Range ℕ)) (r : Range ℕ) :
    lastEnd (r::l) = l.getLast?.elim r.hi (·.hi) := last_end_append [] l r

lemma Shape.prev_mem (h : Shape v ps) {y q : ℕ} (hy : y ∈ ps)
    (hq : (v.area y).vmPrev = some q) : q ∈ ps := by
  obtain ⟨a,b,rfl⟩ := append_of_mem hy
  rw [h.prev_eq] at hq
  simp [mem_of_getLast? hq]

lemma Shape.head_of_prev (h : Shape v (l1++p::l2)) {y : ℕ} (hy : y ∈ l1++p::l2)
    (hp : (v.area y).vmPrev = some p) : l2.head? = some y := by
  obtain ⟨a,b,hab⟩ := append_of_mem hy
  replace hp := (h.linked a y b hab).1.symm.trans hp
  obtain ⟨c,rfl⟩ := List.getLast?_eq_some_iff.mp hp
  rw [append_assoc] at hab
  obtain ⟨-,rfl⟩ := append_cons_unique p l1 l2 c (y::b) h.nodup hab
  rfl

variable (own : ℕ → ℕ)

lemma insert_rep {x : ℕ} (h : Shape v (l1++l2)) (hx : x ∉ l1++l2) (hfresh : x < v.fresh)
    (hown : ∀ y ∈ l1++l2, l2.head? ≠ some y → own y = vmaComputeGap v.area y)
    (hok : AugOk own v.mmRb) (hsorted : Sorted (areas v (l1++x::l2)))
    (hhigh : l2 ≠ [] → v.highestVmEnd = lastEnd (areas v l2)) :
    ∃ u, insertVmStruct v x = .ok u ∧ Rep u (l1++x::l2) ∧
      areas u (l1++x::l2) = areas v (l1++x::l2) := by
  have hord := ordered_node v.area l1 l2 x ((sorted_iff_ordered ..).mp hsorted)
  obtain ⟨-,-,hne,hl,hr⟩ := hord
  have hs : Sorted (areas v (l1++l2)) := by
    rw [areas_append,areas_cons,sorted_append,sorted_cons] at hsorted
    rw [areas_append,sorted_append]
    exact ⟨hsorted.1,hsorted.2.1.2.1,fun a ha b hb => hsorted.2.2 a ha b (by simp [hb])⟩
  obtain ⟨link,hf,hslot⟩ := find_links_between h.tree hs (v.area x).vmStart (v.area x).vmEnd hl
    (fun q hq => ⟨by have := hr q hq; omega,(hr q hq).1⟩)
  refine ⟨_,?_,rep_vma_link link own h hx hfresh hslot hown hok hsorted hhigh,
    areas_vma_link v x _ link _⟩
  rw [insertVmStruct,hf]

lemma set_range_gap (h : Shape v (l1++p::l2)) (s e y : ℕ) (hy : y ∈ l1++p::l2)
    (hs : s = (v.area p).vmStart ∨ y ≠ p) (he : e = (v.area p).vmEnd ∨ l2.head? ≠ some y) :
    vmaComputeGap v.area y = vmaComputeGap (setRange v p s e).area y := by
  symm
  apply gap_congr
  · rw [setRange,area_set]
    split
    · next hyp => rw [hyp,hs.resolve_right (fun hn => hn hyp)]
    · rfl
  · rw [setRange,area_set]
    split <;> rfl
  · intro q hq
    rw [setRange,area_set]
    split
    · next hqp =>
      subst hqp
      exact he.resolve_right (fun hn => hn (h.head_of_prev hy hq))
    · rfl

lemma alloc_area (h : Shape v ps) (a : VmAreaStruct) (q : ℕ) (hq : q ∈ ps) :
    (vmAreaAlloc v a).area q = v.area q :=
  Function.update_of_ne (h.fresh q hq).ne _ _

lemma rep_alloc (h : Rep v ps) (a : VmAreaStruct) :
    Rep (vmAreaAlloc v a) ps ∧ areas (vmAreaAlloc v a) ps = areas v ps ∧
      (vmAreaAlloc v a).area v.fresh = a ∧ v.fresh ∉ ps := by
  have harea := alloc_area h.toShape a
  have hareas : areas (vmAreaAlloc v a) ps = areas v ps :=
    areas_congr v _ ps fun q hq => by rw [harea q hq]
  refine ⟨⟨?_,?_,?_,?_⟩,hareas,Function.update_self ..,fun hm => (h.fresh _ hm).ne rfl⟩
  · exact h.congr rfl rfl (Nat.le_succ _) rfl (fun q hq => by rw [harea q hq])
      (fun q hq => by rw [harea q hq])
  · rw [hareas]
    exact h.sorted
  · rw [hareas]
    exact h.highest
  · apply aug_ok_congr _ _ _ _ h.gaps
    intro y hy
    rw [h.tree] at hy
    symm
    apply gap_congr
    · rw [harea y hy]
    · rw [harea y hy]
    · intro q hq
      rw [harea q (h.prev_mem hy hq)]

section

variable {x : ℕ}

lemma split_areas (h : Shape v (l1++p::l2)) (s e : ℕ) (hx : x ≠ p) :
    areas (setRange v p s e) l1 = areas v l1 ∧ areas (setRange v p s e) l2 = areas v l2 ∧
      rangeOf ((setRange v p s e).area p) = ⟨s,e,(v.area p).vmFlags⟩ ∧
      rangeOf ((setRange v p s e).area x) = rangeOf (v.area x) := by
  refine ⟨VmRep.areas_set_range v p s e l1 h.not_mem.1,
    VmRep.areas_set_range v p s e l2 h.not_mem.2,range_set_range v p s e,?_⟩
  rw [setRange,area_set,if_neg hx]

/-- The areas after `p` was split at `addr`. -/
def halves (v : VmaTree) (l1 l2 : List ℕ) (p addr : ℕ) : List (Range ℕ) :=
  areas v l1++⟨(v.area p).vmStart,addr,(v.area p).vmFlags⟩::
    ⟨addr,(v.area p).vmEnd,(v.area p).vmFlags⟩::areas v l2

lemma sorted_halves (a b : List (Range ℕ)) (s m e f : ℕ) (h : Sorted (a++⟨s,e,f⟩::b))
    (hs : s < m) (he : m < e) : Sorted (a++⟨s,m,f⟩::⟨m,e,f⟩::b) := by
  rw [sorted_node] at h
  obtain ⟨ha,hb,-,hlo,hhi⟩ := h
  rw [sorted_node,sorted_cons]
  simp only [mem_cons,forall_eq_or_imp]
  exact ⟨ha,⟨he,hb,hhi⟩,hs,hlo,le_rfl,fun y hy => he.le.trans (hhi y hy)⟩

lemma insert_below_rep (h : Rep v (l1++p::l2)) (hx : x ∉ l1++p::l2) (hfresh : x < v.fresh)
    (addr : ℕ) (hrange : rangeOf (v.area x) = ⟨(v.area p).vmStart,addr,(v.area p).vmFlags⟩)
    (hs : (v.area p).vmStart < addr) (he : addr < (v.area p).vmEnd) :
    ∃ w, insertVmStruct (setRange v p addr (v.area p).vmEnd) x = .ok w ∧ Rep w (l1++x::p::l2) ∧
      areas w (l1++x::p::l2) = halves v l1 l2 p addr := by
  have hxp : x ≠ p := fun he => hx (by simp [he])
  obtain ⟨ha1,ha2,hap,han⟩ := split_areas h.toShape addr (v.area p).vmEnd hxp
  have hareas : areas (setRange v p addr (v.area p).vmEnd) (l1++x::p::l2) =
      halves v l1 l2 p addr := by
    rw [areas_append,areas_cons,areas_cons,ha1,ha2,hap,han,hrange,halves]
  have hsorted := h.sorted
  rw [areas_append,areas_cons] at hsorted
  obtain ⟨u,hu,hrep,heq⟩ := insert_rep (vmaComputeGap v.area)
    (shape_set_range h.toShape p addr (v.area p).vmEnd) hx hfresh
    (fun y hy hn => set_range_gap h.toShape addr (v.area p).vmEnd y hy
      (.inr fun he => hn (by simp [he])) (.inl rfl))
    h.gaps (by rw [hareas]; exact sorted_halves _ _ _ _ _ _ hsorted hs he)
    (fun _ => by
      show v.highestVmEnd = _
      rw [h.highest,areas_append,areas_cons,areas_cons,ha2,hap,last_end_append, last_end_cons]
      rfl)
  exact ⟨u,hu,hrep,heq.trans hareas⟩

lemma insert_above_rep (h : Rep v (l1++p::l2)) (hx : x ∉ l1++p::l2) (hfresh : x < v.fresh)
    (addr : ℕ) (hrange : rangeOf (v.area x) = ⟨addr,(v.area p).vmEnd,(v.area p).vmFlags⟩)
    (hs : (v.area p).vmStart < addr) (he : addr < (v.area p).vmEnd) :
    ∃ w, insertVmStruct (setRange v p (v.area p).vmStart addr) x = .ok w ∧ Rep w (l1++p::x::l2) ∧
      areas w (l1++p::x::l2) = halves v l1 l2 p addr := by
  have hxp : x ≠ p := fun he => hx (by simp [he])
  have hlist : ∀ l, l1++p::l = l1++[p]++l := by simp
  obtain ⟨ha1,ha2,hap,han⟩ := split_areas h.toShape (v.area p).vmStart addr hxp
  have hareas : areas (setRange v p (v.area p).vmStart addr) (l1++p::x::l2) =
      halves v l1 l2 p addr := by
    rw [areas_append,areas_cons,areas_cons,ha1,ha2,hap,han,hrange,halves]
  have hsorted := h.sorted
  rw [areas_append,areas_cons] at hsorted
  have hgap := fun y hy hn => set_range_gap h.toShape (v.area p).vmStart addr y hy (.inl rfl)
    (.inr hn)
  have hshape := shape_set_range h.toShape p (v.area p).vmStart addr
  rw [hlist l2] at hshape hx hgap
  obtain ⟨u,hu,hrep,heq⟩ := insert_rep (vmaComputeGap v.area) hshape hx hfresh hgap h.gaps
    (by rw [← hlist,hareas]; exact sorted_halves _ _ _ _ _ _ hsorted hs he)
    (fun hne => by
      obtain ⟨n,l,rfl⟩ := exists_cons_of_ne_nil hne
      show v.highestVmEnd = _
      rw [ha2,h.highest,areas_append,areas_cons,areas_cons,last_end_append,last_end_cons,
        List.getLast?_cons]
      cases (areas v l).getLast? <;> rfl)
  rw [← hlist] at hrep heq
  exact ⟨u,hu,hrep,heq.trans hareas⟩

end

lemma split_below_rep (h : Rep v (l1++p::l2)) (addr : ℕ)
    (hs : (v.area p).vmStart < addr) (he : addr < (v.area p).vmEnd) :
    ∃ w, splitVma v p addr true true = .ok (w,0) ∧ Rep w (l1++v.fresh::p::l2) ∧
      areas w (l1++v.fresh::p::l2) = halves v l1 l2 p addr := by
  obtain ⟨hrep,hareas,hnew,hx⟩ := rep_alloc h {v.area p with vmEnd := addr}
  have hp := alloc_area h.toShape {v.area p with vmEnd := addr} p (by simp)
  rw [areas_append,areas_append,areas_cons,areas_cons] at hareas
  obtain ⟨ha1,ha2⟩ := append_inj hareas (by simp [areas])
  obtain ⟨w,hw,hrepw,hareasw⟩ := insert_below_rep hrep hx (Nat.lt_succ_self _) addr
    (by rw [hnew,hp]; rfl) (by rw [hp]; exact hs) (by rw [hp]; exact he)
  rw [halves,hp] at hareasw
  rw [hp] at hw
  refine ⟨w,?_,hrepw,by rw [hareasw,ha1,(List.cons.inj ha2).2,halves]⟩
  show (insertVmStruct _ v.fresh >>= fun w => pure (w,(0 : ℤ)) : Except Fault _) = _
  exact congrArg (fun r => r >>= fun w => pure (w,(0 : ℤ))) hw

lemma split_above_rep (h : Rep v (l1++p::l2)) (addr : ℕ)
    (hs : (v.area p).vmStart < addr) (he : addr < (v.area p).vmEnd) :
    ∃ w, splitVma v p addr false true = .ok (w,0) ∧ Rep w (l1++p::v.fresh::l2) ∧
      areas w (l1++p::v.fresh::l2) = halves v l1 l2 p addr := by
  obtain ⟨hrep,hareas,hnew,hx⟩ := rep_alloc h {v.area p with vmStart := addr}
  have hp := alloc_area h.toShape {v.area p with vmStart := addr} p (by simp)
  rw [areas_append,areas_append,areas_cons,areas_cons] at hareas
  obtain ⟨ha1,ha2⟩ := append_inj hareas (by simp [areas])
  obtain ⟨w,hw,hrepw,hareasw⟩ := insert_above_rep hrep hx (Nat.lt_succ_self _) addr
    (by rw [hnew,hp]; rfl) (by rw [hp]; exact hs) (by rw [hp]; exact he)
  rw [halves,hp] at hareasw
  rw [hp] at hw
  refine ⟨w,?_,hrepw,by rw [hareasw,ha1,(List.cons.inj ha2).2,halves]⟩
  show (insertVmStruct _ v.fresh >>= fun w => pure (w,(0 : ℤ)) : Except Fault _) = _
  exact congrArg (fun r => r >>= fun w => pure (w,(0 : ℤ))) hw

end Clio.VmRep
