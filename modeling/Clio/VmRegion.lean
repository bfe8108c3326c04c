import Clio.Vm
import Clio.VmEdit

/-!
# The vRegions as lists of ranges

A free cuts a range out of the sorted list of ranges, an allocation enters one.
-/

namespace Clio.VmRegion

open Ranges VmArea VmRep VmEdit FindVaRange Pgtable Vm Errno

section

variable {v : VmaTree}

/-- The ranges of a VMA tree in order. -/
def vmas (v : VmaTree) : List (Range ℕ) := areas v v.mmRb.toList

def Good (v : VmaTree) : Prop := Rep v v.mmRb.toList

lemma good_of_rep {ps : List ℕ} (h : Rep v ps) : Good v ∧ vmas v = areas v ps := by
  have ht := h.tree
  subst ht
  exact ⟨h,rfl⟩

lemma good_init : Good initVregion.toVmaTree ∧ vmas initVregion.toVmaTree = [] := by
  refine ⟨⟨⟨rfl,rfl,?_,List.nodup_nil,by simp [initVregion,Rbtree.RbTree.toList],rfl⟩,?_,rfl,
    trivial⟩,rfl⟩
  · intro a p b h
    simp [initVregion,Rbtree.RbTree.toList] at h
  · exact ⟨by simp [areas,initVregion,Rbtree.RbTree.toList],List.Pairwise.nil⟩

lemma free_areas_spec (h : Good v) (start len : ℕ) (hlen : len ≠ 0) (hwrap : start+len < 2^64) :
    (Inside start (start+len) (vmas v) ∧
      freeVaAreas v start len (fun _ => true) = .ok (v,-ENOMEM,[])) ∨
    (¬Inside start (start+len) (vmas v) ∧
      ∃ w det, freeVaAreas v start len (fun _ => true) = .ok (w,0,det) ∧ Good w ∧
        vmas w = cut start (start+len) (vmas v) ∧
        det.map rangeOf = inter start (start+len) (vmas v)) := by
  obtain ⟨w,r,det,hrun,qs,hrep,hcase⟩ := free_areas_rep h start len (fun _ => true) hlen hwrap
  rcases hcase with ⟨rfl,hin,hcut,hdet⟩ | ⟨rfl,rfl,-,⟨rfl,hin⟩ | hm | hm⟩
  · obtain ⟨hgood,hareas⟩ := good_of_rep hrep
    exact .inr ⟨hin,w,det,hrun,hgood,hareas.trans hcut,hdet⟩
  · exact .inl ⟨hin,hrun⟩
  · cases hm
  · cases hm

lemma free_areas_total (h : Good v) (start len : ℕ) (hs : start < 2^64) (hl : len < 2^64) :
    ∃ w r det, freeVaAreas v start len (fun _ => true) = .ok (w,r,det) ∧ Good w ∧
      ((w = v ∧ det = []) ∨ (start+len < 2^64 ∧ len ≠ 0 ∧ r = 0 ∧
        vmas w = cut start (start+len) (vmas v) ∧
        det.map rangeOf = inter start (start+len) (vmas v))) := by
  by_cases hz : len = 0
  · subst hz
    exact ⟨v,_,[],rfl,h,.inl ⟨rfl,rfl⟩⟩
  · by_cases hwrap : start+len < 2^64
    · rcases free_areas_spec h start len hz hwrap with ⟨-,hrun⟩ | ⟨-,w,det,hrun,hgood,hcut,hdet⟩
      · exact ⟨v,_,[],hrun,h,.inl ⟨rfl,rfl⟩⟩
      · exact ⟨w,0,det,hrun,hgood,.inr ⟨hwrap,hz,rfl,hcut,hdet⟩⟩
    · obtain ⟨r,hrun⟩ := free_areas_wrap h start len (fun _ => true) hs hl (by omega)
      exact ⟨v,r,[],hrun,h,.inl ⟨rfl,rfl⟩⟩

lemma insert_spec (h : Good v) (addr stop vmFlags : ℕ) (hlt : addr < stop)
    (hfree : Free (vmas v) addr stop) :
    ∃ prev link w, findVmaLinks v addr stop = some (prev,link) ∧
      vmaTreeInsert v prev link addr stop vmFlags true = .ok (w,true) ∧ Good w ∧
      vmas w = enter addr stop vmFlags (vmas v) := by
  cases hf : findVmaLinks v addr stop with
  | none =>
    obtain ⟨q,hq,hend,hstart⟩ := find_links_loop_none v.area addr stop v.mmRb none hf
    have := hfree (rangeOf (v.area q)) (List.mem_map.mpr ⟨q,hq,rfl⟩)
    simp only [rangeOf] at this
    omega
  | some x =>
    obtain ⟨prev,link⟩ := x
    obtain ⟨a,b,hab,ha,hb,rfl,hslot⟩ := find_links_some h.tree h.sorted addr stop prev link hf
    have hrep : Rep v (a++b) := hab ▸ h
    obtain ⟨w,ok,hrun,hno,hyes⟩ := tree_insert_rep hrep link hslot addr stop vmFlags true hlt ha
      (fun q hq => (hb q hq).2)
    cases ok with
    | false => cases (hno rfl).2
    | true =>
      obtain ⟨qs,hqs,hareas⟩ := hyes rfl
      obtain ⟨hgood,hvmas⟩ := good_of_rep hqs
      refine ⟨_,link,w,rfl,hrun,hgood,?_⟩
      have hold : vmas v = areas v a++areas v b := by rw [vmas,hab,areas_append]
      rw [hvmas,hareas,hold]
      symm
      apply enter_split _ _ _ _ _ hlt
      · rw [← hold]
        exact h.sorted
      · exact areas_hi ha
      · exact areas_lo (fun q hq => (hb q hq).2)

end

section

/-- The ranges of a vRegion. -/
def region (s : Soc) (pid idx : ℕ) : List (Range ℕ) := vmas (s.vregion pid idx).toVmaTree

structure VmInv (s : Soc) : Prop where
  good : ∀ pid idx, Good (s.vregion pid idx).toVmaTree
  topdown : ∀ pid idx, (s.vregion pid idx).flags = vregionTopdown
  inside : ∀ pid idx, ∀ r ∈ region s pid idx,
    vregionToStartVa idx ≤ r.lo ∧ r.hi ≤ vregionToEndVa idx

variable {s : Soc} {pid idx : ℕ}

lemma vregion_set (s : Soc) (pid idx : ℕ) (v : VmaTree) (pid' idx' : ℕ) :
    (setVregion s pid idx v).vregion pid' idx' =
      if pid' = pid ∧ idx' = idx then { s.vregion pid idx with toVmaTree := v }
      else s.vregion pid' idx' := by
  unfold setVregion
  by_cases hp : pid' = pid
  · subst hp
    by_cases hi : idx' = idx
    · subst hi
      simp
    · simp [hi]
  · simp [hp]

lemma region_set (s : Soc) (pid idx : ℕ) (v : VmaTree) (pid' idx' : ℕ) :
    region (setVregion s pid idx v) pid' idx' =
      if pid' = pid ∧ idx' = idx then vmas v else region s pid' idx' := by
  rw [region,vregion_set]
  split <;> rfl

lemma set_vregion_same (s : Soc) (pid idx : ℕ) :
    setVregion s pid idx (s.vregion pid idx).toVmaTree = s := by
  unfold setVregion
  simp

lemma vm_inv_set (h : VmInv s) (v : VmaTree) (hgood : Good v)
    (hin : ∀ r ∈ vmas v, vregionToStartVa idx ≤ r.lo ∧ r.hi ≤ vregionToEndVa idx) :
    VmInv (setVregion s pid idx v) := by
  refine ⟨?_,?_,?_⟩
  · intro pid' idx'
    rw [vregion_set]
    split
    · exact hgood
    · exact h.good pid' idx'
  · intro pid' idx'
    rw [vregion_set]
    split
    · exact h.topdown pid idx
    · exact h.topdown pid' idx'
  · intro pid' idx'
    rw [region_set]
    split
    · next he =>
      rw [he.2]
      exact hin
    · exact h.inside pid' idx'

lemma vm_inv_congr {s' : Soc} (h : VmInv s) (heq : s'.vregion = s.vregion) : VmInv s' := by
  refine ⟨?_,?_,?_⟩
  · rw [heq]
    exact h.good
  · rw [heq]
    exact h.topdown
  · intro pid idx
    rw [region,heq]
    exact h.inside pid idx

lemma vm_inv_cut (h : VmInv s) (pid idx start stop : ℕ) (w : VmaTree) (hgood : Good w)
    (hcut : vmas w = cut start stop (region s pid idx)) : VmInv (setVregion s pid idx w) := by
  apply vm_inv_set h w hgood
  intro q hq
  rw [hcut] at hq
  obtain ⟨q',hq',hlo,hhi⟩ := mem_cut _ _ _ q hq
  obtain ⟨h1,h2⟩ := h.inside pid idx q' hq'
  exact ⟨h1.trans hlo,hhi.trans h2⟩

lemma vm_inv_free (h : VmInv s) (pid idx start len : ℕ) (hs : start < 2^64) (hl : len < 2^64) :
    ∃ w r det, freeVaAreas (s.vregion pid idx).toVmaTree start len (fun _ => true) =
      .ok (w,r,det) ∧ VmInv (setVregion s pid idx w) ∧
      ((w = (s.vregion pid idx).toVmaTree ∧ det = []) ∨ (start+len < 2^64 ∧ len ≠ 0 ∧ r = 0 ∧
        vmas w = cut start (start+len) (region s pid idx) ∧
        det.map rangeOf = inter start (start+len) (region s pid idx))) := by
  obtain ⟨w,r,det,hrun,hgood,hcase⟩ := free_areas_total (h.good pid idx) start len hs hl
  refine ⟨w,r,det,hrun,?_,hcase⟩
  rcases hcase with ⟨rfl,-⟩ | ⟨-,-,-,hcut,-⟩
  · exact vm_inv_set h _ hgood (h.inside pid idx)
  · exact vm_inv_cut h pid idx _ _ w hgood hcut

lemma tree_new_spec (h : VmInv s) (pid addr len vmFlags : ℕ) (hlen : 0 < len)
    (hfree : Free (region s pid idx) addr (addr+len)) (hlo : vregionToStartVa idx ≤ addr)
    (hhi : addr+len ≤ vregionToEndVa idx) :
    ∃ w, vmaTreeNew s pid idx addr len vmFlags = .ok (setVregion s pid idx w,some addr) ∧
      VmInv (setVregion s pid idx w) ∧
      vmas w = enter addr (addr+len) vmFlags (region s pid idx) := by
  obtain ⟨prev,link,w,hlinks,hins,hgood,hvmas⟩ :=
    insert_spec (h.good pid idx) addr (addr+len) vmFlags (by omega) hfree
  refine ⟨w,?_,?_,hvmas⟩
  · unfold vmaTreeNew vmaTreeNewLoop
    simp only [hlinks,hins,ok_bind]
    rfl
  · apply vm_inv_set h w hgood
    rw [hvmas]
    exact enter_ends (P := (vregionToStartVa idx ≤ ·)) (Q := (· ≤ vregionToEndVa idx))
      (h.good pid idx).sorted hfree (by omega) hlo hhi (h.inside pid idx)

end

end Clio.VmRegion
