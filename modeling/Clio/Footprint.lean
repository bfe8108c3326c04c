import Clio.VmFree

/-!
# What the operations can touch

A free moves areas of the vRegions and clears entries of the tables, whatever the vRegions look
like.
-/

namespace Clio.Footprint

open VmArea FindVaRange Pgtable Vm VmFree Machine

structure Shrinks (P : Soc → Prop) : Prop where
  vregion : ∀ s vregion n c, P s →
    P { s with vregion := vregion, nrAllocatedPtes := n, cachedVregionStart := c }
  info : ∀ s b info, info.conflicts ⊆ (s.info b).conflicts → P s → P (setInfo s b info)
  shadow : ∀ s b i ppa, P s → P { s with shadow := setPte s.shadow b i ⟨ppa,false,false,0⟩ }
  fpga : ∀ s b i s', P s → zapPte s b i = .ok s' → P s'

structure Keeps (P : Soc → Prop) : Prop where
  vregion : ∀ s vregion c, P s → P { s with vregion := vregion, cachedVregionStart := c }
  zap : ∀ s b i s', P s → (s.shadow b i).allocated = true →
    zapBoth zapShadowPte s b i = .ok s' → P s'

lemma shrinks_keeps {P : Soc → Prop} (hP : Shrinks P) : Keeps P where
  vregion s vregion c h := hP.vregion s vregion s.nrAllocatedPtes c h
  zap s b i s' h hall hrun := by
    obtain ⟨t,ht,hs'⟩ := (bind_ok_iff _ _ _).mp hrun
    refine hP.fpga t b i s' ?_ hs'
    have hinfo := hP.info s b ⟨(s.info b).nrFree+1,
      (s.info b).nrConflicts-(s.info b).conflicts.length,[]⟩ (List.nil_subset _) h
    rw [zap_shadow_frame hall ht]
    exact hP.vregion _ t.vregion (s.nrAllocatedPtes-1) s.cachedVregionStart
      (hP.shadow _ b i (s.shadow b i).ppa hinfo)

section

variable {P : Soc → Prop} (hP : Keeps P) {s s' : Soc} {pid : ℕ}

include hP

lemma free_pte_keeps {addr : ℕ} (h : P s) (hrun : freePte zapShadowPte s pid addr = .ok s') :
    P s' := by
  unfold freePte at hrun
  cases hpte : addrToShadowPte s pid addr with
  | none =>
    rw [hpte] at hrun
    cases hrun
    exact h
  | some i =>
    rw [hpte] at hrun
    exact hP.zap s _ i s' h (shadow_pte_some hpte).1 hrun

lemma free_locked_keeps {idx start len : ℕ} {err : ℤ} (h : P s)
    (hrun : freeVaLocked s pid idx start len = .ok (s',err)) : P s' := by
  obtain ⟨⟨v,err',det⟩,-,hrest⟩ := (bind_ok_iff _ _ _).mp hrun
  obtain ⟨u,hu,hpure⟩ := (bind_ok_iff _ _ _).mp hrest
  cases hpure
  exact unmap_preserves P (fun _ _ _ _ _ => free_pte_keeps hP) (hP.vregion _ _ _ h) hu

lemma free_va_keeps {start len : ℕ} {err : ℤ} (h : P s)
    (hrun : freeVa s pid start len = .ok (s',err)) : P s' := by
  have hpiece : PieceKeeps pid (fun _ _ => P) P := by
    intro s t start len err hs _ _ hfree
    have hPt := free_locked_keeps hP hs hfree
    by_cases herr : err = 0
    · exact .inr ⟨herr,hPt⟩
    · exact .inl ⟨herr,hPt⟩
  rcases free_va_rule (fun _ _ => P) P (fun _ _ _ h => h) hpiece h (fun _ => h) hrun with
    ⟨-,hs'⟩ | ⟨-,-,hs'⟩
  · exact hs'
  · exact hs'

end

lemma check_passed {s s' : Soc} {pid idx addr len : ℕ}
    (hrun : checkAndInsertShadowConflicts s pid idx addr len = .ok (s',false)) :
    s' = s ∧ ∀ p ∈ pages addr (addr+len), (s.info (addrToBucketIndex p)).nrFree ≠ 0 := by
  unfold checkAndInsertShadowConflicts at hrun
  generalize pages addr (addr+len) = l at hrun ⊢
  -- once a conflict was found the answer is true
  have htrue : ∀ (l : List ℕ) (s s' : Soc) (f : Bool), f = true →
      l.foldlM (fun (x : Soc × Bool) start =>
        if (x.1.info (addrToBucketIndex start)).nrFree = 0 then do
          let s ← insertConflict x.1 pid idx start
          return (s,true)
        else .ok x) (s,f) ≠ .ok (s',false) := by
    intro l s s' f hf hall
    refine absurd (foldlM_preserves _ (fun x : Soc × Bool => x.2 = true) l ?_ (s,f) (s',false) hf
      hall) (by simp)
    rintro ⟨u,flag⟩ start u' _ hu hstep
    dsimp only at hstep
    split_ifs at hstep
    · obtain ⟨t,-,hpure⟩ := (bind_ok_iff _ _ _).mp hstep
      cases hpure
      rfl
    · cases hstep
      exact hu
  induction l with
  | nil =>
    cases hrun
    exact ⟨rfl,by simp⟩
  | cons p l ih =>
    rw [List.foldlM_cons] at hrun
    obtain ⟨⟨u,flag⟩,hu,hrest⟩ := (bind_ok_iff _ _ _).mp hrun
    dsimp only at hu
    split_ifs at hu with hfull
    · obtain ⟨t,-,hpure⟩ := (bind_ok_iff _ _ _).mp hu
      cases hpure
      exact absurd hrest (htrue l _ _ _ rfl)
    · cases hu
      obtain ⟨heq,hroom⟩ := ih hrest
      exact ⟨heq,List.forall_mem_cons.mpr ⟨hfull,hroom⟩⟩

lemma find_va_range_le {v : VregionInfo} {idx len addr : ℕ}
    (hrun : findVaRange v idx len = .ok addr)
    (hno : ¬isErrValue addr) : idx < nrVregions ∧ addr+len ≤ vregionToEndVa idx := by
  have hroom : vregionSize ≤ vregionToEndVa idx := Nat.le_mul_of_pos_left _ (Nat.succ_pos idx)
  have herr : ¬isErrValue addr → addr ≠ errEnomem := by
    rintro h rfl
    exact h (by decide)
  have hcheck : ∀ (x : Except Fault ℕ) (high : ℕ), (do
      let a ← x
      if a > high-len then return errEnomem else return a) = .ok addr → addr ≤ high-len := by
    intro x high hx
    obtain ⟨a,-,hrest⟩ := (bind_ok_iff _ _ _).mp hx
    split_ifs at hrest
    · cases hrest
      exact absurd rfl (herr hno)
    · cases hrest
      omega
  unfold findVaRange at hrun
  split_ifs at hrun with hlen hidx htop
  · cases hrun
    exact absurd rfl (herr hno)
  all_goals
    have hle := hcheck _ _ hrun
    generalize vregionToEndVa idx = high at hle hroom ⊢
    omega

structure Taken (pid idx len vmFlags a : ℕ) (t u s' : Soc) : Prop where
  noErr : ¬isErrValue a
  aligned : pageSize ∣ a
  index : idx < nrVregions
  high : a+len ≤ vregionToEndVa idx
  room : ∀ p ∈ pages a (a+len), (t.info (addrToBucketIndex p)).nrFree ≠ 0
  entered : vmaTreeNew t pid idx a len vmFlags = .ok (u,some a)
  entries : allocFpgaPteRange u pid a (a+len) vmFlags = .ok s'

section

variable {P : Soc → Prop} (hP : Keeps P) {s s' : Soc} {pid idx len vmFlags : ℕ}

include hP

lemma tree_new_keeps {addr : ℕ} {entered : Option ℕ} (h : P s)
    (hrun : vmaTreeNew s pid idx addr len vmFlags = .ok (s',entered)) :
    P s' ∧ (entered = none ∨ entered = some addr) := by
  unfold vmaTreeNew at hrun
  generalize 2 = n at hrun
  induction n generalizing s with
  | zero => cases hrun
  | succ n ih =>
    unfold vmaTreeNewLoop at hrun
    dsimp only at hrun
    split at hrun
    · obtain ⟨⟨t,err⟩,ht,hrest⟩ := (bind_ok_iff _ _ _).mp hrun
      have hPt := free_locked_keeps hP h ht
      dsimp only at hrest
      split_ifs at hrest
      · cases hrest
        exact ⟨hPt,.inl rfl⟩
      · exact ih hPt hrest
    · obtain ⟨⟨v,done⟩,-,hpure⟩ := (bind_ok_iff _ _ _).mp hrun
      cases hpure
      refine ⟨hP.vregion _ _ _ h,?_⟩
      cases done <;> simp

variable (hins : ∀ s b ci, P s → (s.info b).nrFree = 0 → ci.pid = pid →
  P (setInfo s b { s.info b with conflicts := ci::(s.info b).conflicts
                                 nrConflicts := (s.info b).nrConflicts+1 }))

include hins

lemma check_keeps {addr : ℕ} {found : Bool} (h : P s)
    (hrun : checkAndInsertShadowConflicts s pid idx addr len = .ok (s',found)) : P s' := by
  refine foldlM_preserves _ (fun x => P x.1) _ ?_ (s,false) (s',found) h hrun
  rintro ⟨u,flag⟩ start ⟨u',flag'⟩ _ hu hstep
  dsimp only at hstep
  split_ifs at hstep with hfull
  · obtain ⟨t,ht,hpure⟩ := (bind_ok_iff _ _ _).mp hstep
    cases hpure
    obtain ⟨⟨w,entered⟩,hw,hpure⟩ := (bind_ok_iff _ _ _).mp ht
    cases hpure
    exact (tree_new_keeps hP (hins u _ ⟨pid,idx,start,pageSize⟩ hu hfull rfl) hw).1
  · cases hstep
    exact hu

lemma alloc_retry_keeps {n a : ℕ} (h : P s)
    (hrun : allocRetry pid idx len vmFlags n s = .ok (s',a)) :
    (P s' ∧ a = 0) ∨ ∃ t u, P t ∧ P u ∧ Taken pid idx len vmFlags a t u s' := by
  induction n generalizing s with
  | zero => cases hrun
  | succ n ih =>
    unfold allocRetry at hrun
    obtain ⟨addr,haddr,hrest⟩ := (bind_ok_iff _ _ _).mp hrun
    split_ifs at hrest with herr halign
    · cases hrest
      exact .inl ⟨hP.vregion _ _ _ h,rfl⟩
    · cases hrest
      exact .inl ⟨h,rfl⟩
    · obtain ⟨⟨t,found⟩,ht,hcheck⟩ := (bind_ok_iff _ _ _).mp hrest
      have hPt := check_keeps hP hins h ht
      dsimp only at hcheck
      split_ifs at hcheck with hfound
      · exact ih hPt hcheck
      · obtain rfl : found = false := by simpa using hfound
        obtain ⟨rfl,hroom⟩ := check_passed ht
        obtain ⟨⟨u,entered⟩,hu,hrange⟩ := (bind_ok_iff _ _ _).mp hcheck
        obtain ⟨hPu,he⟩ := tree_new_keeps hP hPt hu
        rcases he with rfl | rfl
        · cases hrange
          exact .inl ⟨hPu,rfl⟩
        · obtain ⟨w,hw,hpure⟩ := (bind_ok_iff _ _ _).mp hrange
          cases hpure
          obtain ⟨hidx,hle⟩ := find_va_range_le haddr herr
          exact .inr ⟨t,u,hPt,hPu,herr,Nat.dvd_of_mod_eq_zero (not_not.mp halign),hidx,hle,hroom,
            hu,hw⟩

end

end Clio.Footprint
