import Clio.FindVaLoop
import Clio.VmEdit

/-!
# Merging a new range into the areas

`vma_merge` either leaves the tree alone or takes up the range.
-/

namespace Clio.VmMerge

open List Ranges VmArea VmRep VmEdit FindVaLoop

variable {v : VmaTree} {l1 l2 : List ℕ}

/-- Neither neighbour touches the range. -/
lemma merge_apart (h : Rep v (l1++l2)) (addr stop vmFlags : ℕ)
    (h2 : ∀ q ∈ l2, stop ≤ (v.area q).vmStart)
    (hapart : ¬∃ a ∈ areas v (l1++l2), a.hi = addr ∨ a.lo = stop) :
    vmaMerge v l1.getLast? addr stop vmFlags = .ok (v,none) := by
  have hout : ∀ q ∈ l1++l2, (v.area q).vmEnd ≠ addr ∧ stop ≠ (v.area q).vmStart := fun q hq =>
    ⟨fun heq => hapart ⟨_,mem_map_of_mem hq,.inl heq⟩,
      fun heq => hapart ⟨_,mem_map_of_mem hq,.inr heq.symm⟩⟩
  have hb : l1.getLast?.filter (fun q => (v.area q).vmEnd = addr) = none :=
    Option.filter_eq_none_iff.mpr fun q hq => by simp [hout q (by simp [mem_of_getLast? hq])]
  have ha : l2.head?.filter (fun n => stop = (v.area n).vmStart) = none :=
    Option.filter_eq_none_iff.mpr fun q hq => by simp [hout q (by simp [mem_of_mem_head? hq])]
  simp only [vmaMerge,h.next_of_eq,canVmaMerge,Bool.and_true,merge_next h stop h2,hb,ha]
  rfl

/-- A range that touches no area leaves the tree as it is, any other range is taken up. -/
theorem vma_merge_covers (v : VmaTree) (ps : List ℕ) (h : Rep v ps) (addr stop vmFlags : ℕ)
    (hlt : addr < stop) (hfree : Free (areas v ps) addr stop) :
    ∃ w r, vmaMerge v (ps.filter fun p => (v.area p).vmEnd ≤ addr).getLast? addr stop vmFlags =
        .ok (w,r) ∧
      (r = none ↔ ¬∃ a ∈ areas v ps, a.hi = addr ∨ a.lo = stop) ∧ (r = none → w = v) ∧
      (r ≠ none → ∃ qs, Rep w qs ∧
        covered (areas w qs) = covered (areas v ps) ∪ Set.Ico addr stop ∧
        w.nrVmas = v.nrVmas-if (∃ a ∈ areas v ps, a.hi = addr) ∧ ∃ a ∈ areas v ps, a.lo = stop
          then 1 else 0) := by
  obtain ⟨a,b,hab,ha,hb⟩ := free_split _ addr stop h.sorted hfree
  obtain ⟨l1,l2,rfl,rfl,rfl⟩ := map_eq_append_iff.mp hab
  have h1 : ∀ q ∈ l1, (v.area q).vmEnd ≤ addr := fun q hq => ha _ (mem_map_of_mem hq)
  have h2 : ∀ q ∈ l2, stop ≤ (v.area q).vmStart := fun q hq => hb _ (mem_map_of_mem hq)
  have hsorted := h.sorted
  have hlen := enter_length (areas v l1) (areas v l2) addr stop vmFlags hlt (hab ▸ hsorted) ha hb
  have hcover := covered_enter (f := vmFlags) hsorted hfree hlt
  rw [areas_append] at hcover hsorted
  rw [enter_split addr stop vmFlags _ _ hlt hsorted ha hb] at hcover
  rw [areas_append]
  have hprev : (l1++l2).filter (fun p => (v.area p).vmEnd ≤ addr) = l1 := by
    rw [filter_append,filter_eq_self.mpr (by simpa using h1),filter_eq_nil_iff.mpr,append_nil]
    intro q hq
    have := h2 q hq
    have := ((sorted_iff_ordered v _).mp h.sorted).1 q (by simp [hq])
    simp
    omega
  obtain ⟨w,r,hrun,hnone,hsome⟩ := merge_rep h addr stop vmFlags hlt h1 h2
  have hiff : r = none ↔ ¬∃ a ∈ areas v l1++areas v l2, a.hi = addr ∨ a.lo = stop := by
    constructor
    · rintro hr ⟨a,hmem,htouch⟩
      rw [(hnone hr).2,length_append,length_cons] at hlen
      rcases htouch with heq | heq
      · rw [if_pos ⟨a,hmem,heq⟩] at hlen
        omega
      · rw [if_pos (c := ∃ r ∈ _, r.lo = stop) ⟨a,hmem,heq⟩] at hlen
        omega
    · intro hapart
      rw [merge_apart h addr stop vmFlags h2 (by rwa [areas_append])] at hrun
      cases hrun
      rfl
  refine ⟨w,r,by rw [hprev,hrun],hiff,fun hr => (hnone hr).1,fun hr => ?_⟩
  obtain ⟨qs,hrep,hareas⟩ := hsome hr
  refine ⟨qs,hrep,hareas ▸ hcover,?_⟩
  have hcount : qs.length = (areas w qs).length := (length_map _).symm
  have hold : (areas v l1).length+(areas v l2).length = (l1++l2).length := by simp [areas]
  rw [hareas] at hcount
  rw [hrep.count,h.count]
  by_cases hlow : ∃ a ∈ areas v l1++areas v l2, a.hi = addr <;>
    by_cases hhigh : ∃ a ∈ areas v l1++areas v l2, a.lo = stop
  · rw [if_pos hlow,if_pos hhigh] at hlen
    rw [if_pos ⟨hlow,hhigh⟩]
    omega
  · rw [if_pos hlow,if_neg hhigh] at hlen
    rw [if_neg fun h => hhigh h.2]
    omega
  · rw [if_neg hlow,if_pos hhigh] at hlen
    rw [if_neg fun h => hlow h.1]
    omega
  · exact absurd (hiff.mpr (by grind)) hr

/-- A range below the area grows it. -/
theorem vma_merge_covers_one :
    ∃ w r, vmaMerge oneArea.toVmaTree none 0x700000 0x800000 0 = .ok (w,r) ∧ r ≠ none := by
  obtain ⟨w,r,hrun,hiff,-⟩ := vma_merge_covers oneArea.toVmaTree [0] one_area_rep 0x700000 0x800000
    0 (by decide) (by simp [Free,areas,rangeOf,oneArea])
  exact ⟨w,r,hrun,fun hr => hiff.mp hr ⟨_,mem_singleton.mpr rfl,.inr rfl⟩⟩

end Clio.VmMerge
