import Clio.AllocReply

/-!
# The VMA trees stay valid

The checks of `validate_vregion` hold of every vRegion after any calls of the allocator.
-/

namespace Clio.Validate

open Ranges Rbtree Dll VmArea VmRep FindVaRange Pgtable Vm
open VmRegion VmAlloc Board Machine Requests AllocReply

def GapsOk (own : ℕ → ℕ) : RbTree ℕ → Prop
  | .nil => True
  | .node c l x g r =>
      (∀ y ∈ (RbTree.node c l x g r).toList, own y ≤ g) ∧
      (∃ y ∈ (RbTree.node c l x g r).toList, own y = g) ∧ GapsOk own l ∧ GapsOk own r

structure Valid (v : VmaTree) : Prop where
  first : v.mmap = v.mmRb.toList.head?
  links : Linked (fun p => (v.area p).vmNext) (fun p => (v.area p).vmPrev) v.mmRb.toList
  apart : Sorted (vmas v)
  count : v.nrVmas = v.mmRb.toList.length
  highest : v.highestVmEnd = lastEnd (vmas v)
  gaps : GapsOk (vmaComputeGap v.area) v.mmRb

variable (own : ℕ → ℕ) (t : RbTree ℕ)

lemma aug_attained (h : AugOk own t) : t.aug = 0 ∨ ∃ y ∈ t.toList, own y = t.aug := by
  induction t with
  | nil => exact .inl rfl
  | node c l x g r ihl ihr =>
    obtain ⟨hg,hl,hr⟩ := h
    have hg : g = max (own x) (max l.aug r.aug) := hg
    show g = 0 ∨ ∃ y ∈ l.toList++x::r.toList, own y = g
    -- the largest of the three is the own gap or comes from below
    by_cases hx : own x = g
    · exact .inr ⟨x,by simp,hx⟩
    · rcases le_total l.aug r.aug with hlr | hlr
      · rcases ihr hr with hzero | ⟨y,hy,hown⟩
        · omega
        · exact .inr ⟨y,by simp [hy],by omega⟩
      · rcases ihl hl with hzero | ⟨y,hy,hown⟩
        · omega
        · exact .inr ⟨y,by simp [hy],by omega⟩

lemma gaps_ok (h : AugOk own t) : GapsOk own t := by
  induction t with
  | nil => trivial
  | node c l x g r ihl ihr =>
    have hle := own_le_aug own _ h
    refine ⟨hle,?_,ihl h.2.1,ihr h.2.2⟩
    rcases aug_attained own _ h with hzero | hsome
    · have hg : g = 0 := hzero
      have hx : x ∈ (RbTree.node c l x g r).toList := by simp [RbTree.toList]
      have hown : own x ≤ g := hle x hx
      exact ⟨x,hx,by omega⟩
    · exact hsome

lemma valid_of_good {v : VmaTree} (h : Good v) : Valid v where
  first := h.mmap
  links := h.linked
  apart := h.sorted
  count := h.count
  highest := h.highest
  gaps := gaps_ok _ _ h.gaps

/-- The two calls on a vRegion. -/
inductive Call where
  | alloc (pid idx len vmFlags : ℕ)
  | free (pid idx start len : ℕ)
  deriving DecidableEq, Repr

def exec (s : Soc) : Call → Option Soc
  | .alloc pid idx len vmFlags =>
      if idx < nrVregions then
        (allocVaVregion s pid idx len vmFlags).toOption.map Prod.fst
      else none
  | .free pid idx start len => (freeVaVregion s pid idx start len).toOption.map Prod.fst

def Rounded (_ : Soc) : Call → Prop
  | .alloc _ _ len _ => pageAlign len ≠ 0
  | .free _ _ start len => start < 2^64 ∧ len < 2^64

instance (s : Soc) (c : Call) : Decidable (Rounded s c) := by
  cases c <;> unfold Rounded <;> infer_instance

lemma call_base {s s' : Soc} {c : Call} (h : Base s) (hok : Rounded s c)
    (hrun : exec s c = some s') : Base s' := by
  cases c with
  | alloc pid idx len vmFlags =>
    unfold exec at hrun
    dsimp only at hrun
    split_ifs at hrun with hidx
    obtain ⟨⟨_,a⟩,hcall,rfl⟩ := Option.map_eq_some_iff.mp hrun
    exact (alloc_va_base h hidx hok (to_option_eq hcall)).1
  | free pid idx start len =>
    obtain ⟨⟨_,r⟩,hcall,rfl⟩ := Option.map_eq_some_iff.mp hrun
    exact (free_locked_base h hok.1 hok.2 (to_option_eq hcall)).1

/-- After any calls, with the conflicts that come and go with them, in every vRegion. -/
theorem vregions_valid (cs : List Call) (s : Soc) (hok : Guarded exec Rounded cs bootSoc)
    (hrun : run exec cs bootSoc = some s) (pid idx : ℕ) :
    Valid (s.vregion pid idx).toVmaTree := by
  have hbase : Base s := run_invariant exec Rounded Base (fun _ _ _ => call_base) cs bootSoc s
    state_boot.base hok hrun
  exact valid_of_good (hbase.vm.good pid idx)

def calls : List Call :=
  [.alloc 1 0 8388608 0,.alloc 1 0 1 0,.free 1 0 1069547520 4194304,.free 1 0 1061158912 4096]

theorem vregions_valid_split : ∃ s, run exec calls bootSoc = some s ∧
    (s.vregion 1 0).nrVmas = 1 ∧ Valid (s.vregion 1 0).toVmaTree := by
  obtain ⟨s,hs,hcount⟩ := exists_checked (run exec calls bootSoc)
    (fun s => (s.vregion 1 0).nrVmas = 1) (by decide +kernel)
  exact ⟨s,hs,hcount,vregions_valid calls s (by decide +kernel) hs 1 0⟩

/-- The largest length is rounded to nothing and an empty area is linked. -/
theorem empty_area_linked : ∃ s, run exec [.alloc 1 0 (2^64-1) 0] bootSoc = some s ∧
    vmas (s.vregion 1 0).toVmaTree = [⟨1073741824,1073741824,0⟩] ∧
    ¬Valid (s.vregion 1 0).toVmaTree := by
  obtain ⟨s,hs,hvmas⟩ := exists_checked (run exec [.alloc 1 0 (2^64-1) 0] bootSoc)
    (fun s => vmas (s.vregion 1 0).toVmaTree = [⟨1073741824,1073741824,0⟩]) (by decide +kernel)
  refine ⟨s,hs,hvmas,?_⟩
  intro h
  have hne := h.apart.1 ⟨1073741824,1073741824,0⟩ (by simp [hvmas])
  exact absurd hne (lt_irrefl _)

/-- The search down the tree finds the area that a walk along the list would find. -/
theorem find_vma_scans (cs : List Call) (s : Soc) (hok : Guarded exec Rounded cs bootSoc)
    (hrun : run exec cs bootSoc = some s) (pid idx addr : ℕ) :
    let v := (s.vregion pid idx).toVmaTree
    findVma v addr = v.mmRb.toList.find? fun p => addr < (v.area p).vmEnd := by
  have hbase : Base s := run_invariant exec Rounded Base (fun _ _ _ => call_base) cs bootSoc s
    state_boot.base hok hrun
  have hord := (sorted_iff_ordered _ _).mp (hbase.vm.good pid idx).sorted
  exact (find_vma_loop_eq _ addr _ none hord).trans Option.or_none

theorem find_vma_scans_split : ∃ s, run exec calls bootSoc = some s ∧
    let v := (s.vregion 1 0).toVmaTree
    findVma v 4096 = v.mmRb.toList.find? fun p => 4096 < (v.area p).vmEnd :=
  ⟨_,rfl,find_vma_scans calls _ (by decide +kernel) rfl 1 0 4096⟩

end Clio.Validate
