import Clio.VmRep

/-!
# Extending, merging and detaching areas

Edits of the areas as edits of ranges: `Ranges.enter` and `Ranges.cut`.
-/

namespace Clio.VmEdit

open List Rbtree Dll Ranges VmArea VmRep Errno

variable {v : VmaTree} {l1 l2 ps : List ℕ} {p : ℕ}

/-! ## Resizing an area -/

lemma resize_end_rep (h : Rep v (l1++p::l2)) (stop : ℕ) (hlt : (v.area p).vmStart < stop)
    (hne : stop ≠ (v.area p).vmEnd) (hle : ∀ q ∈ l2, stop ≤ (v.area q).vmStart) :
    Rep (vmaResize v p (v.area p).vmStart stop l2.head? 0) (l1++p::l2) ∧
      areas (vmaResize v p (v.area p).vmStart stop l2.head? 0) (l1++p::l2) =
        areas v l1++⟨(v.area p).vmStart,stop,(v.area p).vmFlags⟩::areas v l2 := by
  have hareas := h.areas_set_range (v.area p).vmStart stop
  have hshape := shape_set_range h.toShape p (v.area p).vmStart stop
  have hsorted := h.sorted
  rw [areas_append,areas_cons,sorted_node] at hsorted
  obtain ⟨hs1,hs2,-,hlo,-⟩ := hsorted
  have hnew : Sorted (areas (setRange v p (v.area p).vmStart stop) (l1++p::l2)) := by
    rw [hareas,sorted_node]
    refine ⟨hs1,hs2,hlt,hlo,?_⟩
    intro r hr
    obtain ⟨q,hq,rfl⟩ := mem_map.mp hr
    exact hle q hq
  have hgap := fun y hy hn => set_range_gap h.toShape (v.area p).vmStart stop y hy (.inl rfl)
    (.inr hn)
  cases hl : l2 with
  | nil =>
    have hres : vmaResize v p (v.area p).vmStart stop none 0 =
        {setRange v p (v.area p).vmStart stop with highestVmEnd := stop} := by
      simp only [vmaResize,ne_eq,not_true_eq_false,if_false,hne,not_false_eq_true,if_true]
      rw [setRange,area_set,if_pos rfl]
    rw [List.head?_nil,hres]
    subst hl
    refine ⟨⟨hshape.congr rfl rfl le_rfl rfl (fun _ _ => rfl) (fun _ _ => rfl),hnew,?_,?_⟩,hareas⟩
    · show stop = lastEnd (areas (setRange v p (v.area p).vmStart stop) (l1++[p]))
      rw [hareas,last_end_append]
      rfl
    · apply aug_ok_congr _ _ _ _ h.gaps
      intro y hy
      exact hgap y (h.tree ▸ hy) (by simp)
  | cons n l =>
    have hres : vmaResize v p (v.area p).vmStart stop (some n) 0 =
        vmaGapUpdate (setRange v p (v.area p).vmStart stop) n := by
      simp only [vmaResize,ne_eq,not_true_eq_false,if_false,hne,not_false_eq_true,if_true]
    rw [List.head?_cons,hres]
    subst hl
    refine ⟨⟨shape_gap_update hshape n,hnew,?_,?_⟩,hareas⟩
    · show v.highestVmEnd = lastEnd (areas (setRange v p (v.area p).vmStart stop) _)
      rw [hareas,h.highest,areas_append,areas_cons,last_end_append,last_end_append,areas_cons,
        List.getLast?_cons]
      rfl
    · show AugOk _ (update _ n v.mmRb)
      apply update_ok (vmaComputeGap v.area) _ n v.mmRb
      · simp [h.tree]
      · exact h.tree ▸ h.nodup
      · intro y hy hyn
        exact hgap y (h.tree ▸ hy) (by simpa using fun he => hyn he.symm)
      · exact h.gaps

lemma resize_start_rep (h : Rep v (l1++p::l2)) (start : ℕ) (hlt : start < (v.area p).vmEnd)
    (hne : start ≠ (v.area p).vmStart) (hle : ∀ q ∈ l1, (v.area q).vmEnd ≤ start) :
    Rep (vmaResize v p start (v.area p).vmEnd l2.head? 0) (l1++p::l2) ∧
      areas (vmaResize v p start (v.area p).vmEnd l2.head? 0) (l1++p::l2) =
        areas v l1++⟨start,(v.area p).vmEnd,(v.area p).vmFlags⟩::areas v l2 := by
  have hareas := h.areas_set_range start (v.area p).vmEnd
  have hshape := shape_set_range h.toShape p start (v.area p).vmEnd
  have hsorted := h.sorted
  rw [areas_append,areas_cons,sorted_node] at hsorted
  obtain ⟨hs1,hs2,-,-,hhi⟩ := hsorted
  have hres : vmaResize v p start (v.area p).vmEnd l2.head? 0 =
      vmaGapUpdate (setRange v p start (v.area p).vmEnd) p := by
    cases l2 with
    | nil | cons n l => simp [vmaResize,hne]
  rw [hres]
  refine ⟨⟨shape_gap_update hshape p,?_,?_,?_⟩,hareas⟩
  · show Sorted (areas (setRange v p start (v.area p).vmEnd) _)
    rw [hareas,sorted_node]
    refine ⟨hs1,hs2,hlt,?_,hhi⟩
    intro r hr
    obtain ⟨q,hq,rfl⟩ := mem_map.mp hr
    exact hle q hq
  · show v.highestVmEnd = lastEnd (areas (setRange v p start (v.area p).vmEnd) _)
    rw [hareas,h.highest,areas_append,areas_cons,last_end_append,last_end_append]
    rfl
  · show AugOk _ (update _ p v.mmRb)
    apply update_ok (vmaComputeGap v.area) _ p v.mmRb
    · simp [h.tree]
    · exact h.tree ▸ h.nodup
    · intro y hy hyp
      exact set_range_gap h.toShape start (v.area p).vmEnd y (h.tree ▸ hy) (.inr hyp) (.inl rfl)
    · exact h.gaps

/-! ## Removing an area that its neighbour took over -/

lemma unlink_next {x : ℕ} (hn : (v.area x).vmNext = l2.head?)
    (hp : (v.area x).vmPrev = l1.getLast?) (y : ℕ) :
    ((vmaUnlinkList v x).area y).vmNext =
      if l1.getLast? = some y then l2.head? else (v.area y).vmNext := by
  simp only [vmaUnlinkList,area_set_prev_of,area_set_next_of,hn,hp]
  grind

lemma unlink_prev {x : ℕ} (hn : (v.area x).vmNext = l2.head?)
    (hp : (v.area x).vmPrev = l1.getLast?) (y : ℕ) :
    ((vmaUnlinkList v x).area y).vmPrev =
      if l2.head? = some y then l1.getLast? else (v.area y).vmPrev := by
  simp only [vmaUnlinkList,area_set_prev_of,area_set_next_of,hn,hp]
  grind

lemma unlink_range (v : VmaTree) (x y : ℕ) :
    rangeOf ((vmaUnlinkList v x).area y) = rangeOf (v.area y) := by
  simp only [vmaUnlinkList,area_set_prev_of,area_set_next_of,rangeOf]
  grind

lemma unlink_other (v : VmaTree) (x : ℕ) :
    (vmaUnlinkList v x).mmRb = v.mmRb ∧ (vmaUnlinkList v x).fresh = v.fresh ∧
      (vmaUnlinkList v x).nrVmas = v.nrVmas ∧
      (vmaUnlinkList v x).highestVmEnd = v.highestVmEnd := by
  unfold vmaUnlinkList
  cases (v.area x).vmPrev <;> cases (v.area x).vmNext <;> exact ⟨rfl,rfl,rfl,rfl⟩

lemma unlink_mmap {x : ℕ} (hm : v.mmap = (l1++x::l2).head?)
    (hn : (v.area x).vmNext = l2.head?) (hp : (v.area x).vmPrev = l1.getLast?) :
    (vmaUnlinkList v x).mmap = (l1++l2).head? := by
  have hset : ∀ (w : VmaTree) (n q : Option ℕ), (setPrevOf w n q).mmap = w.mmap := by
    intro w n q
    cases n <;> rfl
  rw [vmaUnlinkList,hset,hn,hp]
  cases l1 with
  | nil => rfl
  | cons a l =>
    rw [List.getLast?_cons]
    exact hm

lemma unlink_linked {x : ℕ} (hn : (v.area x).vmNext = l2.head?)
    (hp : (v.area x).vmPrev = l1.getLast?) (hnd : (l1++x::l2).Nodup)
    (hl : Linked (fun p => (v.area p).vmNext) (fun p => (v.area p).vmPrev) (l1++x::l2)) :
    Linked (fun p => ((vmaUnlinkList v x).area p).vmNext)
      (fun p => ((vmaUnlinkList v x).area p).vmPrev) (l1++l2) := by
  have hn' := hnd
  simp only [nodup_append,nodup_cons,mem_cons] at hn'
  have h := linked_splice (fun p => (v.area p).vmNext) (fun p => (v.area p).vmPrev)
    (fun p => ((vmaUnlinkList v x).area p).vmNext) (fun p => ((vmaUnlinkList v x).area p).vmPrev)
    l1 [x] [] l2 (by simpa using hl) hn'.1 hn'.2.1.2
  rw [append_nil] at h
  apply h
  · intro q hq
    have hhead : l2.head? ≠ some q := fun hh =>
      hn'.2.2 q hq q (.inr (mem_of_head? hh)) rfl
    simp [unlink_next hn hp,unlink_prev hn hp,hhead]
  · intro q hq
    have hlast : l1.getLast? ≠ some q := fun hh =>
      hn'.2.2 q (mem_of_getLast? hh) q (.inr hq) rfl
    simp [unlink_next hn hp,unlink_prev hn hp,hlast]
  · intro a q b hs
    simp at hs

section

variable {n : ℕ}

def takenOver (v : VmaTree) (p n : ℕ) : VmaTree :=
  vmaRbErase (setRange v p (v.area p).vmStart (v.area n).vmEnd) n

lemma remove_next_eq (v : VmaTree) (p n : ℕ) :
    vmaRemoveNext v p (v.area p).vmStart (v.area n).vmEnd n =
      {vmaUnlinkList (takenOver v p n) n with
        nrVmas := (vmaUnlinkList (takenOver v p n) n).nrVmas-1} := rfl

lemma cons_cons_append (l1 l2 : List ℕ) (p n : ℕ) : l1++p::n::l2 = l1++[p]++n::l2 := by
  simp

lemma taken_over_links (h : Rep v (l1++p::n::l2)) :
    ((takenOver v p n).area n).vmNext = l2.head? ∧
      ((takenOver v p n).area n).vmPrev = (l1++[p]).getLast? ∧
      Linked (fun q => ((takenOver v p n).area q).vmNext)
        (fun q => ((takenOver v p n).area q).vmPrev) (l1++[p]++n::l2) ∧ n ∉ l1++p::l2 := by
  have hshape := shape_set_range h.toShape p (v.area p).vmStart (v.area n).vmEnd
  rw [cons_cons_append] at hshape
  have hnot := hshape.not_mem
  simp only [mem_append,mem_singleton] at hnot
  exact ⟨hshape.next_eq,hshape.prev_eq,hshape.linked,by simp; tauto⟩

lemma taken_over_tree (h : Rep v (l1++p::n::l2)) :
    (takenOver v p n).mmRb.toList = l1++p::l2 := by
  have ht : v.mmRb.toList = l1++[p]++n::l2 := h.tree.trans (cons_cons_append ..)
  rw [show l1++p::l2 = l1++[p]++l2 by simp]
  exact to_list_erase _ n v.mmRb (l1++[p]) l2 ht (h.tree ▸ h.nodup)

lemma shape_remove_next (h : Rep v (l1++p::n::l2)) :
    Shape (vmaRemoveNext v p (v.area p).vmStart (v.area n).vmEnd n) (l1++p::l2) := by
  obtain ⟨hnext,hprev,hlinked,-⟩ := taken_over_links h
  obtain ⟨hrb,hfr,hnr,-⟩ := unlink_other (takenOver v p n) n
  have hlist : l1++p::l2 = l1++[p]++l2 := by simp
  rw [remove_next_eq]
  constructor
  · show (vmaUnlinkList (takenOver v p n) n).mmRb.toList = _
    rw [hrb,taken_over_tree h]
  · show (vmaUnlinkList (takenOver v p n) n).mmap = _
    rw [hlist]
    exact unlink_mmap (h.mmap.trans (by rw [cons_cons_append])) hnext hprev
  · rw [hlist]
    exact unlink_linked hnext hprev (cons_cons_append l1 l2 p n ▸ h.nodup) hlinked
  · have hn := h.nodup
    simp only [nodup_append,nodup_cons,mem_cons] at hn ⊢
    grind
  · intro q hq
    show q < (vmaUnlinkList (takenOver v p n) n).fresh
    rw [hfr]
    apply h.fresh q
    simp only [mem_append,mem_cons] at hq ⊢
    tauto
  · show (vmaUnlinkList (takenOver v p n) n).nrVmas-1 = _
    rw [hnr]
    show v.nrVmas-1 = _
    rw [h.count]
    simp only [length_append,length_cons]
    push_cast
    ring

lemma areas_remove_next (h : Rep v (l1++p::n::l2)) :
    areas (vmaRemoveNext v p (v.area p).vmStart (v.area n).vmEnd n) (l1++p::l2) =
      areas v l1++⟨(v.area p).vmStart,(v.area n).vmEnd,(v.area p).vmFlags⟩::areas v l2 := by
  have hmem := h.not_mem
  show areas (vmaUnlinkList (takenOver v p n) n) (l1++p::l2) = _
  rw [areas_congr (setRange v p (v.area p).vmStart (v.area n).vmEnd) _ _
    (fun q _ => unlink_range (takenOver v p n) n q),areas_append,areas_cons,range_set_range,
    VmRep.areas_set_range v p _ _ l1 hmem.1,
    VmRep.areas_set_range v p _ _ l2 (fun hp => hmem.2 (by simp [hp]))]

lemma gaps_remove_next (h : Rep v (l1++p::n::l2)) :
    AugOk (vmaComputeGap (vmaRemoveNext v p (v.area p).vmStart (v.area n).vmEnd n).area)
      (vmaRemoveNext v p (v.area p).vmStart (v.area n).vmEnd n).mmRb := by
  obtain ⟨hnext,hprev,-,hnot⟩ := taken_over_links h
  obtain ⟨hrb,-,-,-⟩ := unlink_other (takenOver v p n) n
  have herase : AugOk (vmaComputeGap (takenOver v p n).area) (takenOver v p n).mmRb := by
    apply erase_ok (vmaComputeGap v.area) _ n v.mmRb
    · simp [h.tree]
    · exact h.tree ▸ h.nodup
    · intro y hy hyn
      exact set_range_gap h.toShape (v.area p).vmStart (v.area n).vmEnd y (h.tree ▸ hy) (.inl rfl)
        (.inr (by simpa using fun he => hyn he.symm))
    · exact h.gaps
  rw [remove_next_eq]
  show AugOk (vmaComputeGap (vmaUnlinkList (takenOver v p n) n).area)
    (vmaUnlinkList (takenOver v p n) n).mmRb
  rw [hrb]
  apply aug_ok_congr _ _ _ _ herase
  intro y hy
  rw [taken_over_tree h] at hy
  by_cases hhead : l2.head? = some y
  · -- the area behind had the removed one before it and now has `p`, with the same end
    have hyn : (takenOver v p n).area y = v.area y := by
      have hmem := mem_of_head? hhead
      have hyp : y ≠ p := fun he => h.not_mem.2 (by simp [← he,hmem])
      show (setRange v p _ _).area y = _
      rw [setRange,area_set,if_neg hyp]
    have hold : (v.area y).vmPrev = some n := by
      obtain ⟨l,hl⟩ := List.head?_eq_some_iff.mp hhead
      have hs := h.toShape
      rw [hl,show l1++p::n::y::l = (l1++[p,n])++y::l by simp] at hs
      rw [hs.prev_eq]
      simp
    have hnp : n ≠ p := fun he => hnot (by simp [he])
    have hend : ((takenOver v p n).area n).vmEnd = ((takenOver v p n).area p).vmEnd := by
      show ((setRange v p _ _).area n).vmEnd = ((setRange v p _ _).area p).vmEnd
      rw [setRange,area_set,area_set,if_neg hnp,if_pos rfl]
    have hr := unlink_range (takenOver v p n) n
    unfold vmaComputeGap
    rw [unlink_prev hnext hprev,if_pos hhead,hyn,hold]
    simp only [List.getLast?_append,List.getLast?_singleton,Option.some_or]
    rw [show ((vmaUnlinkList (takenOver v p n) n).area y).vmStart = (v.area y).vmStart from
      (congrArg Range.lo (hr y)).trans (by rw [hyn]; rfl),
      show ((vmaUnlinkList (takenOver v p n) n).area p).vmEnd =
        ((takenOver v p n).area p).vmEnd from congrArg Range.hi (hr p),hend]
  · symm
    apply gap_congr
    · exact congrArg Range.lo (unlink_range (takenOver v p n) n y)
    · rw [unlink_prev hnext hprev,if_neg hhead]
    · intro q hq
      exact congrArg Range.hi (unlink_range (takenOver v p n) n q)

lemma rep_gap_update (h : Rep v ps) (q : ℕ) (hq : q ∈ ps) : Rep (vmaGapUpdate v q) ps where
  toShape := shape_gap_update h.toShape q
  sorted := h.sorted
  highest := h.highest
  gaps := update_ok _ _ q v.mmRb (h.tree ▸ hq) (h.tree ▸ h.nodup) (fun _ _ _ => rfl) h.gaps

lemma remove_next_rep (h : Rep v (l1++p::n::l2)) :
    Rep (vmaGapUpdateNext (vmaRemoveNext v p (v.area p).vmStart (v.area n).vmEnd n) p)
        (l1++p::l2) ∧
      areas (vmaGapUpdateNext (vmaRemoveNext v p (v.area p).vmStart (v.area n).vmEnd n) p)
        (l1++p::l2) =
        areas v l1++⟨(v.area p).vmStart,(v.area n).vmEnd,(v.area p).vmFlags⟩::areas v l2 := by
  have hareas := areas_remove_next h
  have hsorted := h.sorted
  rw [areas_append,areas_cons,areas_cons,sorted_node,sorted_cons] at hsorted
  simp only [mem_cons,forall_eq_or_imp] at hsorted
  obtain ⟨hs1,⟨hn,hs2,hhi⟩,hp,hlo,hpn,-⟩ := hsorted
  have hrep : Rep (vmaRemoveNext v p (v.area p).vmStart (v.area n).vmEnd n) (l1++p::l2) := by
    refine ⟨shape_remove_next h,?_,?_,gaps_remove_next h⟩
    · rw [hareas,sorted_node]
      exact ⟨hs1,hs2,(hp.trans_le hpn).trans hn,hlo,hhi⟩
    · rw [hareas,last_end_append,remove_next_eq]
      show (vmaUnlinkList (takenOver v p n) n).highestVmEnd = _
      rw [(unlink_other (takenOver v p n) n).2.2.2]
      show v.highestVmEnd = _
      rw [h.highest,areas_append,areas_cons,areas_cons,last_end_append,List.getLast?_cons]
      cases (areas v l2).getLast? <;> rfl
  have hnext := hrep.next_eq
  rw [vmaGapUpdateNext,hnext]
  cases l2 with
  | nil => exact ⟨hrep,hareas⟩
  | cons m l => exact ⟨rep_gap_update hrep m (by simp),hareas⟩

end

/-! ## Entering a free range -/

lemma adjust_below {n : ℕ} (h : Rep v (l1++p::n::l2)) :
    vmaAdjust v p (v.area p).vmStart (v.area n).vmEnd none (some p) =
      .ok (vmaGapUpdateNext (vmaRemoveNext v p (v.area p).vmStart (v.area n).vmEnd n) p) := by
  have hnp : p ≠ n := by
    have := h.not_mem.2
    simp at this
    exact this.1
  simp [vmaAdjust,h.next_eq,hnp]

lemma adjust_resize (h : Rep v (l1++p::l2)) (start stop : ℕ) (expand : Option ℕ)
    (hge : (v.area p).vmEnd ≤ stop) (hle : ∀ q ∈ l2, stop ≤ (v.area q).vmStart) :
    vmaAdjust v p start stop none expand = .ok (vmaResize v p start stop l2.head? 0) := by
  rw [vmaAdjust,h.next_eq]
  cases l2 with
  | nil => rfl
  | cons n l =>
    have hn := hle n (by simp)
    have hsorted := h.sorted
    rw [areas_append,areas_cons,areas_cons,sorted_node,sorted_cons] at hsorted
    have hne : (v.area n).vmStart < (v.area n).vmEnd := hsorted.2.1.1
    show (if stop ≥ (v.area n).vmEnd then _ else if stop > (v.area n).vmStart then _
      else if stop < (v.area p).vmEnd then _ else _) = _
    rw [if_neg (by omega),if_neg (by omega),if_neg (by omega)]
    rfl

lemma merge_next (h : Rep v (l1++l2)) (stop : ℕ)
    (h2 : ∀ q ∈ l2, stop ≤ (v.area q).vmStart) :
    mergeNext v l2.head? stop = l2.head? := by
  cases l2 with
  | nil => rfl
  | cons n l =>
    have hne : (v.area n).vmStart < (v.area n).vmEnd :=
      ((sorted_iff_ordered v _).mp h.sorted).1 n (by simp)
    have := h2 n (by simp)
    exact if_neg (by omega)

lemma merge_rep (h : Rep v (l1++l2)) (addr stop vmFlags : ℕ) (hlt : addr < stop)
    (h1 : ∀ q ∈ l1, (v.area q).vmEnd ≤ addr) (h2 : ∀ q ∈ l2, stop ≤ (v.area q).vmStart) :
    ∃ w r, vmaMerge v l1.getLast? addr stop vmFlags = .ok (w,r) ∧
      (r = none → w = v ∧ enterBetween (areas v l1) (areas v l2) addr stop vmFlags =
        areas v l1++⟨addr,stop,vmFlags⟩::areas v l2) ∧
      (r ≠ none → ∃ qs, Rep w qs ∧
        areas w qs = enterBetween (areas v l1) (areas v l2) addr stop vmFlags) := by
  have hlow : ∀ q, l1.getLast? = some q → ∃ l, l1 = l++[q] := fun q hq =>
    List.getLast?_eq_some_iff.mp hq
  have hranges : ∀ r ∈ (areas v l1).getLast?, ∃ q, l1.getLast? = some q ∧
      r = rangeOf (v.area q) := by
    intro r hr
    rw [areas,List.getLast?_map] at hr
    obtain ⟨q,hq,rfl⟩ := Option.map_eq_some_iff.mp hr
    exact ⟨q,hq,rfl⟩
  have hranges' : ∀ r ∈ (areas v l2).head?, ∃ q, l2.head? = some q ∧ r = rangeOf (v.area q) := by
    intro r hr
    rw [areas,List.head?_map] at hr
    obtain ⟨q,hq,rfl⟩ := Option.map_eq_some_iff.mp hr
    exact ⟨q,hq,rfl⟩
  have hnext := merge_next h stop h2
  simp only [vmaMerge,h.next_of_eq,canVmaMerge,Bool.and_true,hnext]
  rcases hb : l1.getLast?.filter (fun q => (v.area q).vmEnd = addr) with _ | q
  · rw [Option.filter_eq_none_iff] at hb
    have hnb : ∀ r ∈ (areas v l1).getLast?, r.hi ≠ addr := by
      intro r hr
      obtain ⟨q,hq,rfl⟩ := hranges r hr
      simpa [rangeOf] using hb q hq
    rcases ha : l2.head?.filter (fun n => stop = (v.area n).vmStart) with _ | n
    · rw [Option.filter_eq_none_iff] at ha
      refine ⟨v,none,rfl,fun _ => ⟨rfl,enter_new _ _ _ _ _ hnb ?_⟩,fun hn => absurd rfl hn⟩
      intro r hr
      obtain ⟨q,hq,rfl⟩ := hranges' r hr
      simpa [rangeOf,eq_comm] using ha q hq
    · obtain ⟨hn,hstop⟩ := Option.filter_eq_some_iff.mp ha
      obtain ⟨l,rfl⟩ := List.head?_eq_some_iff.mp hn
      have hstart : stop = (v.area n).vmStart := by simpa using hstop
      have hcase4 : l1.getLast?.filter (fun q => addr < (v.area q).vmEnd) = none := by
        rw [Option.filter_eq_none_iff]
        intro q hq
        simpa using h1 q (mem_of_getLast? hq)
      have hord := ordered_node v.area l1 l n ((sorted_iff_ordered v _).mp h.sorted)
      obtain ⟨hrep,hareas⟩ := resize_start_rep h addr (by omega) (by omega) h1
      have hrun := adjust_resize h addr (v.area n).vmEnd (some n) le_rfl
        (fun q hq => (hord.2.2.2.2 q hq).1)
      rw [hcase4,hn]
      simp only [hrun]
      refine ⟨_,some n,rfl,by simp,fun _ => ⟨_,hrep,?_⟩⟩
      rw [hareas,areas_cons,enter_high _ _ _ _ _ _ hnb hstart.symm]
      rfl
  · obtain ⟨hq,hend⟩ := Option.filter_eq_some_iff.mp hb
    obtain ⟨l,rfl⟩ := hlow q hq
    have hend : (v.area q).vmEnd = addr := by simpa using hend
    have hord := ((sorted_iff_ordered v _).mp h.sorted)
    have hqne : (v.area q).vmStart < (v.area q).vmEnd := hord.1 q (by simp)
    rw [append_assoc,singleton_append] at h
    rcases ha : l2.head?.filter (fun n => stop = (v.area n).vmStart) with _ | n
    · rw [Option.filter_eq_none_iff] at ha
      obtain ⟨hrep,hareas⟩ := resize_end_rep h stop (by omega) (by omega) h2
      simp only [adjust_resize h (v.area q).vmStart stop (some q) (by omega) h2]
      refine ⟨_,some q,rfl,by simp,fun _ => ⟨_,hrep,?_⟩⟩
      rw [hareas,areas_append,areas_cons]
      symm
      apply enter_low _ _ (rangeOf (v.area q)) _ _ _ hend
      intro r hr
      obtain ⟨n,hn,rfl⟩ := hranges' r hr
      simpa [rangeOf,eq_comm] using ha n hn
    · obtain ⟨hn,hstop⟩ := Option.filter_eq_some_iff.mp ha
      obtain ⟨l',rfl⟩ := List.head?_eq_some_iff.mp hn
      have hstart : stop = (v.area n).vmStart := by simpa using hstop
      obtain ⟨hrep,hareas⟩ := remove_next_rep h
      simp only [adjust_below h]
      refine ⟨_,some q,rfl,by simp,fun _ => ⟨_,hrep,?_⟩⟩
      rw [hareas,areas_append,areas_cons,areas_cons]
      exact (enter_both _ _ (rangeOf (v.area q)) (rangeOf (v.area n)) _ _ _ hend
        hstart.symm).symm

lemma tree_insert_rep (h : Rep v (l1++l2)) (link : List Dir)
    (hslot : Slot link v.mmRb l1 l2) (addr stop vmFlags : ℕ) (malloc : Bool) (hlt : addr < stop)
    (h1 : ∀ q ∈ l1, (v.area q).vmEnd ≤ addr) (h2 : ∀ q ∈ l2, stop ≤ (v.area q).vmStart) :
    ∃ w ok, vmaTreeInsert v l1.getLast? link addr stop vmFlags malloc = .ok (w,ok) ∧
      (ok = false → w = v ∧ malloc = false) ∧
      (ok = true → ∃ qs, Rep w qs ∧
        areas w qs = enterBetween (areas v l1) (areas v l2) addr stop vmFlags) := by
  obtain ⟨w,r,hrun,hnone,hsome⟩ := merge_rep h addr stop vmFlags hlt h1 h2
  simp only [vmaTreeInsert,hrun]
  cases r with
  | some q => exact ⟨w,true,rfl,by simp,fun _ => hsome (by simp)⟩
  | none =>
    obtain ⟨rfl,henter⟩ := hnone rfl
    cases malloc with
    | false => exact ⟨w,false,rfl,fun _ => ⟨rfl,rfl⟩,by simp⟩
    | true =>
      obtain ⟨hrep,hareas,hnew,hx⟩ := rep_alloc h ⟨addr,stop,none,none,vmFlags⟩
      have hall := hareas
      rw [areas_append,areas_append] at hareas
      obtain ⟨ha1,ha2⟩ := append_inj hareas (by simp [areas])
      have hareas' : areas (vmAreaAlloc w ⟨addr,stop,none,none,vmFlags⟩) (l1++w.fresh::l2) =
          areas w l1++⟨addr,stop,vmFlags⟩::areas w l2 := by
        rw [areas_append,areas_cons,ha1,ha2,hnew]
        rfl
      have hsorted := h.sorted
      rw [areas_append,sorted_append] at hsorted
      have hlink := rep_vma_link link _ hrep.toShape hx (Nat.lt_succ_self _) hslot
        (fun y _ _ => rfl) hrep.gaps
        (by
          rw [hareas',sorted_node]
          refine ⟨hsorted.1,hsorted.2.1,hlt,?_,?_⟩
          · intro r hr
            obtain ⟨q,hq,rfl⟩ := mem_map.mp hr
            exact h1 q hq
          · intro r hr
            obtain ⟨q,hq,rfl⟩ := mem_map.mp hr
            exact h2 q hq)
        (fun hne => by
          obtain ⟨n,l,rfl⟩ := exists_cons_of_ne_nil hne
          rw [hrep.highest,areas_append,areas_cons,last_end_append,last_end_cons])
      refine ⟨_,true,rfl,by simp,fun _ => ⟨_,hlink,?_⟩⟩
      rw [areas_vma_link,hareas',henter]

/-! ## Detaching areas -/

lemma detach_loop_rep (stop : ℕ) (d : List ℕ) (n : ℕ) (own : ℕ → ℕ)
    (htree : v.mmRb.toList = l1++p::(d++l2)) (hnodup : v.mmRb.toList.Nodup)
    (hnext : ∀ a q b, p::d = a++q::b → (v.area q).vmNext = (b++l2).head?)
    (hd : ∀ q ∈ d, (v.area q).vmStart < stop) (hl : ∀ q ∈ l2.head?, stop ≤ (v.area q).vmStart)
    (hfuel : d.length < n) (hown : ∀ y ∈ v.mmRb.toList, y ≠ p → own y = vmaComputeGap v.area y)
    (hok : AugOk own v.mmRb) :
    ∃ t, detachLoop stop n v p =
        .ok ({v with mmRb := t, nrVmas := v.nrVmas-(d.length+1)},p::d,l2.head?) ∧
      t.toList = l1++l2 ∧ AugOk (vmaComputeGap v.area) t := by
  induction d generalizing v p n own with
  | nil =>
    obtain ⟨n,rfl⟩ := Nat.exists_eq_add_of_lt hfuel
    have hp := hnext [] p [] rfl
    refine ⟨erase (vmaComputeGap v.area) p v.mmRb,?_,to_list_erase _ p v.mmRb l1 l2 htree hnodup,
      erase_ok own _ p v.mmRb (by simp [htree]) hnodup hown hok⟩
    simp only [length_nil,Nat.zero_add,detachLoop]
    rw [show ((vmaRbErase v p).area p).vmNext = l2.head? from hp]
    cases hh : l2.head? with
    | none => simp [vmaRbErase]
    | some q =>
      have := hl q hh
      show (if (v.area q).vmStart < stop then _ else _) = _
      rw [if_neg (by omega)]
      simp [vmaRbErase]
  | cons q d ih =>
    obtain ⟨n,rfl⟩ := Nat.exists_eq_add_of_lt hfuel
    have hp := hnext [] p (q::d) rfl
    have htree' : (erase (vmaComputeGap v.area) p v.mmRb).toList = l1++q::(d++l2) :=
      to_list_erase _ p v.mmRb l1 (q::(d++l2)) htree hnodup
    obtain ⟨t,ht,hlist,haug⟩ := ih (v := {vmaRbErase v p with nrVmas := v.nrVmas-1}) (p := q)
      (d.length+1+n) (vmaComputeGap v.area) htree'
      (by
        show (erase _ p v.mmRb).toList.Nodup
        rw [htree']
        rw [htree] at hnodup
        have := (nodup_append.mp hnodup)
        rw [nodup_append]
        refine ⟨this.1,(nodup_cons.mp this.2.1).2,fun a ha b hb => ?_⟩
        exact this.2.2 a ha b (mem_cons_of_mem _ hb))
      (fun a r b hs => hnext (p::a) r b (by rw [hs]; rfl))
      (fun r hr => hd r (by simp [hr])) hl (by omega) (fun _ _ _ => rfl)
      (erase_ok own _ p v.mmRb (by simp [htree]) hnodup hown hok)
    refine ⟨t,?_,hlist,haug⟩
    rw [show (q::d).length+n+1 = d.length+1+n+1 by simp,detachLoop]
    rw [show ((vmaRbErase v p).area p).vmNext = some q from hp]
    show (if (v.area q).vmStart < stop then _ else _) = _
    rw [if_pos (hd q (by simp)),ht]
    show Except.ok _ = Except.ok _
    simp only [vmaRbErase,length_cons]
    congr 3
    push_cast
    ring

def closeList (v : VmaTree) (prev rest : Option ℕ) : VmaTree :=
  match rest with
  | some r => vmaGapUpdate (setPrev (setNextOf v prev rest) r prev) r
  | none => {setNextOf v prev rest with highestVmEnd := match prev with
      | some q => ((setNextOf v prev rest).area q).vmEnd
      | none => 0}

lemma close_list_area (v : VmaTree) (prev rest : Option ℕ) (y : ℕ) :
    (closeList v prev rest).area y = (setPrevOf (setNextOf v prev rest) rest prev).area y := by
  cases rest <;> rfl

lemma close_list_next (v : VmaTree) (prev rest : Option ℕ) (y : ℕ) :
    ((closeList v prev rest).area y).vmNext =
      if prev = some y then rest else (v.area y).vmNext := by
  rw [close_list_area,area_set_prev_of,area_set_next_of]
  grind

lemma close_list_prev (v : VmaTree) (prev rest : Option ℕ) (y : ℕ) :
    ((closeList v prev rest).area y).vmPrev =
      if rest = some y then prev else (v.area y).vmPrev := by
  rw [close_list_area,area_set_prev_of,area_set_next_of]
  grind

lemma close_list_range (v : VmaTree) (prev rest : Option ℕ) (y : ℕ) :
    rangeOf ((closeList v prev rest).area y) = rangeOf (v.area y) := by
  rw [close_list_area,area_set_prev_of,area_set_next_of]
  unfold rangeOf
  grind

lemma close_list_other (v : VmaTree) (prev rest : Option ℕ) :
    (closeList v prev rest).mmRb.toList = v.mmRb.toList ∧
      (closeList v prev rest).fresh = v.fresh ∧ (closeList v prev rest).nrVmas = v.nrVmas ∧
      (closeList v prev rest).mmap = prev.elim rest (fun _ => v.mmap) := by
  cases rest <;> cases prev <;> simp [closeList,setNextOf,vmaGapUpdate,setPrev,setNext,setArea]

structure Erased (v u : VmaTree) (l1 : List ℕ) (p : ℕ) (d l2 : List ℕ) : Prop where
  tree : u.mmRb.toList = l1++l2
  area : ∀ y, u.area y = if y = p then {v.area y with vmPrev := none} else v.area y
  gaps : AugOk (vmaComputeGap u.area) u.mmRb
  mmap : u.mmap = v.mmap
  fresh : u.fresh = v.fresh
  count : u.nrVmas = v.nrVmas-(d.length+1)
  highest : u.highestVmEnd = v.highestVmEnd

section

variable {u : VmaTree} {d : List ℕ}

lemma Erased.range (he : Erased v u l1 p d l2) (y : ℕ) :
    rangeOf (u.area y) = rangeOf (v.area y) := by
  rw [he.area]
  split <;> rfl

lemma segment_append (l1 d l2 : List ℕ) (p : ℕ) : l1++(p::d)++l2 = l1++p::(d++l2) := by
  simp

lemma segment_nodup (h : Rep v (l1++(p::d)++l2)) : l1.Nodup ∧ l2.Nodup ∧
    (∀ a ∈ l1, ∀ b ∈ l2, a ≠ b) ∧ ∀ y ∈ l1++l2, y ≠ p := by
  have hn := h.nodup
  simp only [nodup_append,nodup_cons,mem_append,mem_cons] at hn ⊢
  grind

lemma detach_loop_erased (stop : ℕ) (h : Rep v (l1++(p::d)++l2))
    (hd : ∀ q ∈ d, (v.area q).vmStart < stop) (hl : ∀ q ∈ l2.head?, stop ≤ (v.area q).vmStart) :
    ∃ u, detachLoop stop v.mmRb.toList.length (setPrev v p none) p = .ok (u,p::d,l2.head?) ∧
      Erased v u l1 p d l2 := by
  have htree : v.mmRb.toList = l1++p::(d++l2) := h.tree.trans (segment_append ..)
  have harea : ∀ y, (setPrev v p none).area y =
      if y = p then {v.area y with vmPrev := none} else v.area y := fun y => area_set ..
  have hrange : ∀ y, rangeOf ((setPrev v p none).area y) = rangeOf (v.area y) := by
    intro y
    rw [harea]
    split <;> rfl
  have hstart : ∀ y, ((setPrev v p none).area y).vmStart = (v.area y).vmStart := fun y =>
    congrArg Range.lo (hrange y)
  have hnext : ∀ a q b, p::d = a++q::b → ((setPrev v p none).area q).vmNext = (b++l2).head? := by
    intro a q b hs
    have := (h.linked (l1++a) q (b++l2) (by rw [hs]; simp)).2
    rw [harea]
    split <;> exact this
  have hown : ∀ y ∈ v.mmRb.toList, y ≠ p →
      vmaComputeGap v.area y = vmaComputeGap (setPrev v p none).area y := by
    intro y hy hyp
    symm
    apply gap_congr
    · exact hstart y
    · rw [harea,if_neg hyp]
    · intro q hq
      exact congrArg Range.hi (hrange q)
  obtain ⟨t,ht,hlist,haug⟩ := detach_loop_rep (v := setPrev v p none) stop d
    v.mmRb.toList.length (vmaComputeGap v.area) htree (h.tree ▸ h.nodup) hnext
    (fun q hq => by rw [hstart]; exact hd q hq) (fun q hq => by rw [hstart]; exact hl q hq)
    (by rw [htree]; simp; omega) hown h.gaps
  exact ⟨_,ht,hlist,harea,haug,rfl,rfl,rfl,rfl⟩

lemma close_list_shape (h : Rep v (l1++(p::d)++l2)) (he : Erased v u l1 p d l2) :
    Shape (closeList u l1.getLast? l2.head?) (l1++l2) := by
  obtain ⟨hn1,hn2,hdisj,hne⟩ := segment_nodup h
  obtain ⟨htr,hfr,hnr,hmm⟩ := close_list_other u l1.getLast? l2.head?
  constructor
  · rw [htr,he.tree]
  · rw [hmm,he.mmap]
    cases l1 with
    | nil => rfl
    | cons a l =>
      rw [List.getLast?_cons]
      exact h.mmap.trans (by simp)
  · have hs := linked_splice (fun q => (v.area q).vmNext) (fun q => (v.area q).vmPrev)
      (fun q => ((closeList u l1.getLast? l2.head?).area q).vmNext)
      (fun q => ((closeList u l1.getLast? l2.head?).area q).vmPrev)
      l1 (p::d) [] l2 h.linked hn1 hn2
    rw [append_nil] at hs
    apply hs
    · intro q hq
      have hhead : l2.head? ≠ some q := fun hh => hdisj q hq q (mem_of_head? hh) rfl
      rw [close_list_next,close_list_prev,he.area,if_neg (hne q (by simp [hq]))]
      simp [hhead]
    · intro q hq
      have hlast : l1.getLast? ≠ some q := fun hh => hdisj q (mem_of_getLast? hh) q hq rfl
      rw [close_list_next,close_list_prev,he.area,if_neg (hne q (by simp [hq]))]
      simp [hlast]
    · intro a q b hnil
      simp at hnil
  · rw [nodup_append]
    exact ⟨hn1,hn2,hdisj⟩
  · intro q hq
    rw [hfr,he.fresh]
    apply h.fresh q
    simp only [mem_append,mem_cons] at hq ⊢
    tauto
  · rw [hnr,he.count,h.count]
    simp only [length_append,length_cons]
    push_cast
    ring

lemma close_list_gaps (h : Rep v (l1++(p::d)++l2)) (he : Erased v u l1 p d l2) :
    AugOk (vmaComputeGap (closeList u l1.getLast? l2.head?).area)
      (closeList u l1.getLast? l2.head?).mmRb := by
  have hgap : ∀ y, l2.head? ≠ some y → vmaComputeGap u.area y =
      vmaComputeGap (closeList u l1.getLast? l2.head?).area y := by
    intro y hhead
    symm
    apply gap_congr
    · exact congrArg Range.lo (close_list_range u _ _ y)
    · rw [close_list_prev,if_neg hhead]
    · intro q hq
      exact congrArg Range.hi (close_list_range u _ _ q)
  cases l2 with
  | nil =>
    have hrb : (closeList u l1.getLast? none).mmRb = u.mmRb := by
      cases l1.getLast? <;> rfl
    rw [List.head?_nil,hrb]
    exact aug_ok_congr _ _ _ (fun y _ => hgap y (by simp)) he.gaps
  | cons r l =>
    have hrb : (closeList u l1.getLast? (some r)).mmRb =
        update (vmaComputeGap (closeList u l1.getLast? (some r)).area) r u.mmRb := by
      cases l1.getLast? <;> rfl
    rw [List.head?_cons,hrb]
    apply update_ok (vmaComputeGap u.area) _ r u.mmRb
    · simp [he.tree]
    · rw [he.tree]
      exact (close_list_shape h he).nodup
    · intro y _ hyr
      exact hgap y (by simpa using fun hr => hyr hr.symm)
    · exact he.gaps

lemma close_list_highest (h : Rep v (l1++(p::d)++l2)) (he : Erased v u l1 p d l2) :
    (closeList u l1.getLast? l2.head?).highestVmEnd = lastEnd (areas v (l1++l2)) := by
  cases l2 with
  | nil =>
    rw [append_nil]
    cases hl : l1.getLast? with
    | none =>
      rw [List.getLast?_eq_none_iff] at hl
      rw [hl]
      rfl
    | some q =>
      show ((setNext u q none).area q).vmEnd = _
      obtain ⟨a,rfl⟩ := List.getLast?_eq_some_iff.mp hl
      rw [setNext,area_set,if_pos rfl,areas_append]
      show (rangeOf (u.area q)).hi = lastEnd (areas v a++[rangeOf (v.area q)])
      rw [last_end_append,he.range]
      rfl
  | cons r l =>
    have hh : (closeList u l1.getLast? (some r)).highestVmEnd = u.highestVmEnd := by
      cases l1.getLast? <;> rfl
    rw [List.head?_cons,hh,he.highest,h.highest,areas_append,areas_append _ l1 (r::l),
      areas_cons,last_end_append,last_end_append]

lemma detach_rep (stop : ℕ) (h : Rep v (l1++(p::d)++l2))
    (hd : ∀ q ∈ d, (v.area q).vmStart < stop) (hl : ∀ q ∈ l2.head?, stop ≤ (v.area q).vmStart) :
    ∃ w, detachVmasToBeUnmapped v p l1.getLast? stop = .ok (w,p::d) ∧ Rep w (l1++l2) ∧
      ∀ q, rangeOf (w.area q) = rangeOf (v.area q) := by
  obtain ⟨u,hu,he⟩ := detach_loop_erased stop h hd hl
  have hrange : ∀ q, rangeOf ((closeList u l1.getLast? l2.head?).area q) =
      rangeOf (v.area q) := fun q => (close_list_range ..).trans (he.range q)
  have hareas : areas (closeList u l1.getLast? l2.head?) (l1++l2) = areas v (l1++l2) :=
    areas_congr _ _ _ fun q _ => hrange q
  refine ⟨closeList u l1.getLast? l2.head?,?_,⟨close_list_shape h he,?_,?_,
    close_list_gaps h he⟩,hrange⟩
  · show (detachLoop stop v.mmRb.toList.length (setPrev v p none) p >>= _) = _
    rw [hu]
    show Except.ok _ = Except.ok _
    cases l2.head? <;> rfl
  · have hs := h.sorted
    rw [areas_append,areas_append,sorted_append,sorted_append] at hs
    rw [hareas,areas_append,sorted_append]
    exact ⟨hs.1.1,hs.2.1,fun a ha b hb => hs.2.2 a (by simp [ha]) b hb⟩
  · rw [hareas,close_list_highest h he]

end

/-! ## Cutting a range -/

lemma areas_lo (hs : ∀ q ∈ ps, p ≤ (v.area q).vmStart) : ∀ r ∈ areas v ps, p ≤ r.lo := by
  intro r hr
  obtain ⟨q,hq,rfl⟩ := mem_map.mp hr
  exact hs q hq

lemma areas_hi (hs : ∀ q ∈ ps, (v.area q).vmEnd ≤ p) : ∀ r ∈ areas v ps, r.hi ≤ p := by
  intro r hr
  obtain ⟨q,hq,rfl⟩ := mem_map.mp hr
  exact hs q hq

lemma split_last_rep (start stop : ℕ) (m : List ℕ) (malloc : Bool) (h : Rep v (l1++m))
    (hlt : start < stop) (h1 : ∀ q ∈ l1, (v.area q).vmEnd ≤ start)
    (hm : ∀ q ∈ m, start ≤ (v.area q).vmStart) :
    (splitLast v stop malloc = .ok (v,-ENOMEM) ∧ malloc = false) ∨
      ∃ w d r, splitLast v stop malloc = .ok (w,0) ∧ Rep w (l1++d++r) ∧
        areas w l1 = areas v l1 ∧ areas w d = inter start stop (areas v m) ∧
        areas w r = cut start stop (areas v m) := by
  have hsorted := h.sorted
  rw [areas_append,sorted_append] at hsorted
  have hne := hsorted.2.1.1
  rw [splitLast]
  cases hf : findVma v stop with
  | none =>
    have hend := find_vma_none h stop hf
    have hin : ∀ r ∈ areas v m, start ≤ r.lo ∧ r.hi ≤ stop := fun r hr =>
      ⟨areas_lo hm r hr,areas_hi (fun q hq => hend q (by simp [hq])) r hr⟩
    exact .inr ⟨v,m,[],rfl,by simpa using h,rfl,(inter_inside _ _ _ hne hin).symm,
      (cut_inside _ _ _ hin).symm⟩
  | some last =>
    obtain ⟨a,b,hab,ha,hlast⟩ := find_vma_some h stop last hf
    rcases split_append _ _ _ _ _ hab with ⟨c,rfl,-⟩ | ⟨c,rfl,rfl⟩
    · have := h1 last (by simp)
      omega
    · rw [← append_assoc] at h
      have hord := ordered_node v.area (l1++c) b last ((sorted_iff_ordered v _).mp h.sorted)
      obtain ⟨-,-,hln,-,hb⟩ := hord
      rw [areas_append,sorted_append] at hsorted
      have hcin : ∀ r ∈ areas v c, start ≤ r.lo ∧ r.hi ≤ stop := fun r hr =>
        ⟨areas_lo (fun q hq => hm q (by simp [hq])) r hr,
          areas_hi (fun q hq => ha q (by simp [hq])) r hr⟩
      have hcne := hsorted.2.1.1.1
      show (if stop > (v.area last).vmStart then splitVma v last stop true malloc
        else .ok (v,0)) = _ ∧ _ ∨ ∃ w d r, (if stop > (v.area last).vmStart then
        splitVma v last stop true malloc else .ok (v,0)) = _ ∧ _
      by_cases hsplit : stop > (v.area last).vmStart
      · rw [if_pos hsplit]
        cases malloc with
        | false => exact .inl ⟨rfl,rfl⟩
        | true =>
          obtain ⟨w,hw,hrep,hareas⟩ := split_below_rep h stop hsplit hlast
          have hbabove : ∀ r ∈ areas v b, stop ≤ r.lo := areas_lo fun q hq => by
            have := hb q hq
            omega
          have hstart := hm last (by simp)
          rw [halves,areas_append,areas_append,areas_append,areas_cons,areas_cons] at hareas
          obtain ⟨hlc,hrest⟩ := append_inj hareas (by simp [areas])
          obtain ⟨hl,hc⟩ := append_inj hlc (by simp [areas])
          simp only [List.cons.injEq] at hrest
          refine .inr ⟨w,c++[v.fresh],last::b,hw,?_,hl,?_,?_⟩
          · rw [show l1++(c++[v.fresh])++last::b = l1++c++v.fresh::last::b by simp]
            exact hrep
          · rw [areas_append,areas_append,inter_append,inter_inside _ _ _ hcne hcin,hc,
              areas_cons v,inter,filterMap_cons,
              clip_crossing _ _ (rangeOf (v.area last)) hstart hsplit hlast,← inter,
              inter_outside _ _ _ (fun r hr => .inr (hbabove r hr)),areas_cons,hrest.1]
            rfl
          · rw [areas_append,cut_append,cut_inside _ _ _ hcin,areas_cons v,cut_cons,
              minus_crossing _ _ (rangeOf (v.area last)) hstart hsplit.le hlast,
              cut_outside _ _ _ hlt.le (fun r hr => hsorted.2.1.2.1.1 r (by simp [areas_cons,hr]))
                (fun r hr => .inr (hbabove r hr)),areas_cons,hrest.2.1,hrest.2.2]
            rfl
      · rw [if_neg hsplit]
        have habove : ∀ r ∈ areas v (last::b), stop ≤ r.lo := by
          apply areas_lo
          intro q hq
          rcases mem_cons.mp hq with rfl | hq
          · omega
          · have := hb q hq
            omega
        refine .inr ⟨v,c,last::b,rfl,h,rfl,?_,?_⟩
        · rw [areas_append,inter_append,inter_inside _ _ _ hcne hcin,
            inter_outside _ _ _ (fun r hr => .inr (habove r hr)),append_nil]
        · rw [areas_append,cut_append,cut_inside _ _ _ hcin,
            cut_outside _ _ _ hlt.le hsorted.2.1.2.1.1 (fun r hr => .inr (habove r hr))]
          rfl

lemma free_tail_rep (start stop : ℕ) (m : List ℕ) (malloc : Bool) (h : Rep v (l1++m))
    (hlt : start < stop) (h1 : ∀ q ∈ l1, (v.area q).vmEnd ≤ start)
    (hm : ∀ q ∈ m, start ≤ (v.area q).vmStart)
    (hfirst : ∃ q ∈ m, (v.area q).vmStart < stop) :
    (freeVaTail v l1.getLast? stop malloc = .ok (v,-ENOMEM,[]) ∧ malloc = false) ∨
      ∃ w r det, freeVaTail v l1.getLast? stop malloc = .ok (w,0,det) ∧ Rep w (l1++r) ∧
        areas w (l1++r) = areas v l1++cut start stop (areas v m) ∧
        det.map rangeOf = inter start stop (areas v m) := by
  rcases split_last_rep start stop m malloc h hlt h1 hm with ⟨hrun,hmal⟩ |
    ⟨w,d,r,hrun,hrep,hl,hd,hr⟩
  · refine .inl ⟨?_,hmal⟩
    rw [freeVaTail,hrun]
    rfl
  · -- some area starts in the range, so the segment is not empty
    obtain ⟨p,d,rfl⟩ : ∃ p d', d = p::d' := by
      apply exists_cons_of_ne_nil
      rintro rfl
      obtain ⟨q,hq,hqs⟩ := hfirst
      have hin : Has (areas v m) (v.area q).vmStart (v.area q).vmFlags :=
        ⟨rangeOf (v.area q),mem_map.mpr ⟨q,hq,rfl⟩,le_rfl,
          ((sorted_iff_ordered v _).mp h.sorted).1 q (by simp [hq]),rfl⟩
      have hboth := (has_inter start stop _ _ _).mpr ⟨hin,hm q hq,hqs⟩
      rw [← hd] at hboth
      exact has_nil _ _ hboth
    have hmemd : ∀ q ∈ p::d, (w.area q).vmStart < stop := by
      intro q hq
      have hqr : rangeOf (w.area q) ∈ inter start stop (areas v m) := by
        rw [← hd]
        exact mem_map.mpr ⟨q,hq,rfl⟩
      obtain ⟨r',-,hclip⟩ := mem_filterMap.mp hqr
      rw [clip] at hclip
      split at hclip
      · have := congrArg Range.lo (Option.some.inj hclip)
        simp only [rangeOf] at this
        omega
      · exact absurd hclip (by simp)
    have hmemr : ∀ q ∈ r, stop ≤ (w.area q).vmStart := by
      intro q hq
      have hqr : rangeOf (w.area q) ∈ cut start stop (areas v m) := by
        rw [← hr]
        exact mem_map.mpr ⟨q,hq,rfl⟩
      obtain ⟨r',hr',hmin⟩ := mem_flatMap.mp hqr
      have hlo := areas_lo hm r' hr'
      simp only [minus,mem_append,mem_ite_nil_right,mem_singleton,rangeOf, Range.mk.injEq] at hmin
      omega
    obtain ⟨u,hu,hrepu,hrange⟩ := detach_rep stop hrep (fun q hq => hmemd q (by simp [hq]))
      (fun q hq => hmemr q (mem_of_head? hq))
    have hnext : nextOf w l1.getLast? = some p := by
      have := hrep.toShape
      rw [append_assoc] at this
      exact this.next_of_eq
    refine .inr ⟨u,r,(p::d).map u.area,?_,hrepu,?_,?_⟩
    · rw [freeVaTail,hrun,ok_bind]
      dsimp only
      rw [hnext]
      dsimp only
      rw [hu]
      rfl
    · rw [areas_congr w u _ (fun q _ => hrange q),areas_append,hl,hr]
    · rw [← hd,areas,map_map]
      exact map_congr_left fun q _ => hrange q

/-- The areas in `[start, stop)` are detached, or every address keeps its flags. -/
def Freed (v w : VmaTree) (ps : List ℕ) (start stop : ℕ) (malloc : ℕ → Bool) (r : ℤ)
    (det : List VmAreaStruct) : Prop :=
  ∃ qs, Rep w qs ∧
    ((r = 0 ∧ ¬Inside start stop (areas v ps) ∧ areas w qs = cut start stop (areas v ps) ∧
        det.map rangeOf = inter start stop (areas v ps)) ∨
      (r = -ENOMEM ∧ det = [] ∧ (∀ x f, Has (areas w qs) x f ↔ Has (areas v ps) x f) ∧
        ((w = v ∧ Inside start stop (areas v ps)) ∨ malloc 0 = false ∨ malloc 1 = false)))

lemma freed_untouched (start stop : ℕ) (malloc : ℕ → Bool) (h : Rep v ps) (hlt : start < stop)
    (hout : ∀ r ∈ areas v ps, r.hi ≤ start ∨ stop ≤ r.lo) :
    Freed v v ps start stop malloc 0 [] := by
  refine ⟨ps,h,.inl ⟨rfl,?_,(cut_outside _ _ _ hlt.le h.sorted.1 hout).symm,
    (inter_outside _ _ _ hout).symm⟩⟩
  rintro ⟨r,hr,hlo,hhi⟩
  rcases hout r hr with hr | hr <;> omega

lemma freed_from_start (start stop : ℕ) (malloc : ℕ → Bool) (m : List ℕ) (h : Rep v (l1++m))
    (hlt : start < stop) (h1 : ∀ q ∈ l1, (v.area q).vmEnd ≤ start)
    (hm : ∀ q ∈ m, start ≤ (v.area q).vmStart)
    (hfirst : ∃ q ∈ m, (v.area q).vmStart < stop) :
    ∃ w r det, freeVaTail v l1.getLast? stop (malloc 1) = .ok (w,r,det) ∧
      Freed v w (l1++m) start stop malloc r det := by
  have hlow := areas_hi h1
  have hne : ∀ r ∈ areas v l1, r.lo < r.hi := fun r hr => h.sorted.1 r (by
    rw [areas_append]
    simp [hr])
  rcases free_tail_rep start stop m (malloc 1) h hlt h1 hm hfirst with ⟨hrun,hmal⟩ |
    ⟨w,r,det,hrun,hrep,hareas,hdet⟩
  · exact ⟨v,-ENOMEM,[],hrun,l1++m,h,.inr ⟨rfl,rfl,fun _ _ => Iff.rfl,.inr (.inr hmal)⟩⟩
  · refine ⟨w,0,det,hrun,l1++r,hrep,.inl ⟨rfl,?_,?_,?_⟩⟩
    · rintro ⟨x,hx,hlo,hhi⟩
      rw [areas_append,mem_append] at hx
      rcases hx with hx | hx
      · have := hlow x hx
        omega
      · have := areas_lo hm x hx
        omega
    · rw [hareas,areas_append,cut_append,cut_outside _ _ _ hlt.le hne
        (fun x hx => .inl (hlow x hx))]
    · rw [hdet,areas_append,inter_append,inter_outside _ _ (areas v l1)
        (fun x hx => .inl (hlow x hx)),nil_append]

lemma freed_across (h : Rep v (l1++p::l2)) (start stop : ℕ) (malloc : ℕ → Bool)
    (h1 : ∀ q ∈ l1, (v.area q).vmEnd ≤ start) (hs : (v.area p).vmStart < start)
    (he : start < (v.area p).vmEnd) (hstop : (v.area p).vmEnd ≤ stop) (hlt : start < stop) :
    ∃ w r det, (do
      let (v,err) ← splitVma v p start false (malloc 0)
      if err ≠ 0 then return (v,err,[]) else freeVaTail v (some p) stop (malloc 1) :
        Except Fault (VmaTree × ℤ × List VmAreaStruct)) = .ok (w,r,det) ∧
      Freed v w (l1++p::l2) start stop malloc r det := by
  cases hmal : malloc 0 with
  | false =>
    exact ⟨v,-ENOMEM,[],rfl,_,h,.inr ⟨rfl,rfl,fun _ _ => Iff.rfl,.inr (.inl hmal)⟩⟩
  | true =>
    obtain ⟨w,hw,hrep,hareas⟩ := split_above_rep h start hs he
    rw [halves] at hareas
    have hlist : l1++p::v.fresh::l2 = l1++[p]++v.fresh::l2 := by simp
    have hold : areas v (l1++p::l2) = areas v l1++
        ⟨(v.area p).vmStart,(v.area p).vmEnd,(v.area p).vmFlags⟩::areas v l2 := areas_append ..
    have hsplit := hareas
    rw [areas_append,areas_cons,areas_cons] at hsplit
    obtain ⟨ha,hrest⟩ := append_inj hsplit (by simp [areas])
    simp only [List.cons.injEq] at hrest
    have hord := ordered_node w.area l1 (v.fresh::l2) p ((sorted_iff_ordered w _).mp hrep.sorted)
    have hpend : (w.area p).vmEnd = start := congrArg Range.hi hrest.1
    have hfstart : (w.area v.fresh).vmStart = start := congrArg Range.lo hrest.2.1
    obtain ⟨u,r,det,hrun,qs,hrepu,hfreed⟩ := freed_from_start start stop malloc (v.fresh::l2)
      (hlist ▸ hrep) hlt
      (by
        intro q hq
        rcases mem_append.mp hq with hq | hq
        · have := hord.2.2.2.1 q hq
          have := hord.2.2.1
          omega
        · rw [mem_singleton.mp hq,hpend])
      (by
        intro q hq
        have := (hord.2.2.2.2 q hq).1
        omega)
      ⟨v.fresh,by simp,by omega⟩
    refine ⟨u,r,det,?_,qs,hrepu,?_⟩
    · rw [hw]
      rw [List.getLast?_append] at hrun
      exact hrun
    · rw [← hlist,hareas,cut_halves _ _ _ _ _ _ _ hs he hstop,
        inter_halves _ _ _ _ _ _ _ hs he hstop,← hold] at hfreed
      rcases hfreed with ⟨hr,hin,hcut,hdet⟩ | ⟨hr,hdet,hhas,hcause⟩
      · refine .inl ⟨hr,?_,hcut,hdet⟩
        rintro ⟨x,hx,hxlo,hxhi⟩
        rw [hold,mem_append,mem_cons] at hx
        rcases hx with hx | rfl | hx
        · have := areas_hi h1 x hx
          omega
        · exact absurd hxhi (by simp; omega)
        · exact hin ⟨x,by simp [hx],hxlo,hxhi⟩
      · refine .inr ⟨hr,hdet,fun x f => ?_,?_⟩
        · rw [hhas,has_halves _ _ _ _ _ _ hs he,hold]
        · rcases hcause with ⟨-,hin⟩ | hcause
          · -- no half sticks out of the range on both sides
            have hsorted := h.sorted
            rw [hold,sorted_node] at hsorted
            obtain ⟨x,hx,hxlo,hxhi⟩ := hin
            simp only [mem_append,mem_cons] at hx
            rcases hx with hx | rfl | rfl | hx
            · have := areas_hi h1 x hx
              omega
            · exact absurd hxhi (by simp; omega)
            · exact absurd hxlo (by simp)
            · have := hsorted.2.2.2.2 x hx
              simp only at this
              omega
          · exact .inr hcause

lemma free_areas_rep (h : Rep v ps) (start len : ℕ) (malloc : ℕ → Bool) (hlen : len ≠ 0)
    (hwrap : start+len < 2^64) :
    ∃ w r det, freeVaAreas v start len malloc = .ok (w,r,det) ∧
      Freed v w ps start (start+len) malloc r det := by
  have hmod : (start+len)%2^64 = start+len := Nat.mod_eq_of_lt hwrap
  simp only [freeVaAreas,hlen,if_false,hmod]
  cases hf : findVma v start with
  | none =>
    have hend := find_vma_none h start hf
    exact ⟨v,0,[],rfl,freed_untouched _ _ _ h (by omega) fun r hr => .inl (areas_hi hend r hr)⟩
  | some p =>
    obtain ⟨a,b,rfl,ha,hp⟩ := find_vma_some h start p hf
    have hord := ordered_node v.area a b p ((sorted_iff_ordered v _).mp h.sorted)
    obtain ⟨-,-,hpne,-,hb⟩ := hord
    show ∃ w r det, (if (v.area p).vmStart ≥ start+len then _ else _) = _ ∧ _
    by_cases hover : (v.area p).vmStart ≥ start+len
    · rw [if_pos hover]
      refine ⟨v,0,[],rfl,freed_untouched _ _ _ h (by omega) ?_⟩
      intro r hr
      rw [areas_append,areas_cons,mem_append,mem_cons] at hr
      rcases hr with hr | rfl | hr
      · exact .inl (areas_hi ha r hr)
      · exact .inr hover
      · refine .inr (areas_lo (fun q hq => ?_) r hr)
        have := hb q hq
        omega
    · rw [if_neg hover]
      by_cases hcut : start > (v.area p).vmStart
      · rw [if_pos hcut]
        by_cases hmid : start+len < (v.area p).vmEnd
        · rw [if_pos hmid]
          refine ⟨v,-ENOMEM,[],rfl,a++p::b,h,.inr ⟨rfl,rfl,fun _ _ => Iff.rfl,.inl ⟨rfl,?_⟩⟩⟩
          exact ⟨rangeOf (v.area p),mem_map.mpr ⟨p,by simp,rfl⟩,hcut,hmid⟩
        · rw [if_neg hmid]
          exact freed_across h start (start+len) malloc ha hcut hp (by omega) (by omega)
      · rw [if_neg hcut,h.prev_eq]
        apply freed_from_start start (start+len) malloc (p::b) h (by omega) ha
        · intro q hq
          rcases mem_cons.mp hq with rfl | hq
          · omega
          · have := hb q hq
            omega
        · exact ⟨p,by simp,by omega⟩

lemma free_areas_wrap (h : Rep v ps) (start len : ℕ) (malloc : ℕ → Bool) (hs : start < 2^64)
    (hl : len < 2^64) (hwrap : 2^64 ≤ start+len) :
    ∃ r, freeVaAreas v start len malloc = .ok (v,r,[]) := by
  have hmod : (start+len)%2^64 = start+len-2^64 := by
    rw [Nat.mod_eq_sub_mod hwrap,Nat.mod_eq_of_lt (by omega)]
  simp only [freeVaAreas,show len ≠ 0 by omega,if_false,hmod]
  cases hf : findVma v start with
  | none => exact ⟨0,rfl⟩
  | some p =>
    obtain ⟨a,b,-,-,hp⟩ := find_vma_some h start p hf
    show ∃ r, (if (v.area p).vmStart ≥ start+len-2^64 then _ else _) = _
    split
    · exact ⟨0,rfl⟩
    · rw [if_pos (by omega),if_pos (by omega)]
      exact ⟨-ENOMEM,rfl⟩

end Clio.VmEdit
