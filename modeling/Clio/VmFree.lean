import Clio.Machine
import Clio.VmRegion

/-!
# Freeing and what it touches

Clearing an entry of the shadow table frees the conflict pages of its bucket in whatever vRegion
they are.
-/

namespace Clio.VmFree

open Function

open Ranges VmArea FindVaRange Pgtable Vm VmRegion Machine

lemma page_size_pos : 0 < pageSize := by decide

lemma mem_pages (start stop x : ℕ) :
    x ∈ pages start stop ↔ ∃ k, x = start+k*pageSize ∧ x < stop := by
  have hp := page_size_pos
  unfold pages
  simp only [List.mem_map,List.mem_range]
  constructor
  · rintro ⟨k,hk,rfl⟩
    refine ⟨k,rfl,?_⟩
    rw [Nat.lt_div_iff_mul_lt hp] at hk
    omega
  · rintro ⟨k,rfl,hlt⟩
    refine ⟨k,?_,rfl⟩
    rw [Nat.lt_div_iff_mul_lt hp]
    omega

lemma shadow_pte_some {s : Soc} {pid addr : ℕ} {i : Fin 16}
    (h : addrToShadowPte s pid addr = some i) : Found s pid addr i := by
  simpa [Found] using List.find?_some h

lemma unmap_range_some {vma : VmAreaStruct} {start stop lo hi : ℕ}
    (h : unmapRange vma start stop = some (lo,hi)) :
    lo = max vma.vmStart start ∧ hi = min vma.vmEnd stop ∧ vma.vmFlags ≠ vmFlagsConflict := by
  unfold unmapRange at h
  dsimp only at h
  split_ifs at h with h1 h2 h3
  cases h
  exact ⟨rfl,rfl,h3.2⟩

lemma unmap_preserves (P : Soc → Prop) {s s' : Soc} {pid start stop : ℕ}
    (hP : ∀ s addr s', start ≤ addr → addr < stop → P s →
      freePte zapShadowPte s pid addr = .ok s' → P s')
    {det : List VmAreaStruct} (h : P s)
    (hrun : unmapRegion zapShadowPte s pid det start stop = .ok s') : P s' := by
  refine foldlM_preserves _ P _ ?_ s s' h hrun
  intro u vma u' _ hu hstep
  unfold unmapSingleVma at hstep
  split at hstep
  · cases hstep
    exact hu
  · next lo hi hr =>
    obtain ⟨rfl,rfl,-⟩ := unmap_range_some hr
    refine foldlM_preserves _ P _ ?_ _ _ hu hstep
    intro u addr u' haddr
    obtain ⟨k,hk,hlt⟩ := (mem_pages _ _ _).mp haddr
    exact hP u addr u' (by omega) (by omega)

section

def Aligned (s : Soc) : Prop :=
  ∀ pid idx, ∀ r ∈ region s pid idx, pageSize ∣ r.lo ∧ pageSize ∣ r.hi

structure Cut (A : ℕ → ℕ → ℕ → Prop) (s s' : Soc) : Prop where
  inv : VmInv s'
  has : ∀ pid idx x f, Has (region s' pid idx) x f → Has (region s pid idx) x f
  kept : ∀ pid idx x f, Has (region s pid idx) x f → ¬A pid idx x → Has (region s' pid idx) x f
  aligned : Aligned s → Aligned s'

variable {A B : ℕ → ℕ → ℕ → Prop} {s s' s'' : Soc}

lemma cut_refl (h : VmInv s) (heq : s'.vregion = s.vregion) : Cut A s s' := by
  have hregion : ∀ pid idx, region s' pid idx = region s pid idx := by
    intro pid idx
    rw [region,heq,region]
  refine ⟨vm_inv_congr h heq,?_,?_,?_⟩
  · intro pid idx x f hx
    rwa [hregion] at hx
  · intro pid idx x f hx _
    rwa [hregion]
  · intro ha pid idx
    rw [hregion]
    exact ha pid idx

lemma cut_trans (h : Cut A s s') (h' : Cut A s' s'') : Cut A s s'' where
  inv := h'.inv
  has pid idx x f hx := h.has pid idx x f (h'.has pid idx x f hx)
  kept pid idx x f hx hA := h'.kept pid idx x f (h.kept pid idx x f hx hA) hA
  aligned ha := h'.aligned (h.aligned ha)

lemma cut_mono (h : Cut A s s') (hAB : ∀ pid idx x, A pid idx x → B pid idx x) : Cut B s s' where
  inv := h.inv
  has := h.has
  kept pid idx x f hx hB := h.kept pid idx x f hx (fun hA => hB (hAB pid idx x hA))
  aligned := h.aligned

lemma cut_congr {t t' : Soc} (h : Cut A s s') (ht : t.vregion = s.vregion)
    (ht' : t'.vregion = s'.vregion) : Cut A t t' := by
  have hs : ∀ pid idx, region t pid idx = region s pid idx := by
    intro pid idx
    rw [region,ht,region]
  have hs' : ∀ pid idx, region t' pid idx = region s' pid idx := by
    intro pid idx
    rw [region,ht',region]
  refine ⟨vm_inv_congr h.inv ht',?_,?_,?_⟩
  · intro pid idx x f hx
    rw [hs'] at hx
    rw [hs]
    exact h.has pid idx x f hx
  · intro pid idx x f hx hA
    rw [hs] at hx
    rw [hs']
    exact h.kept pid idx x f hx hA
  · intro ha pid idx
    rw [hs']
    exact h.aligned (fun p i => hs p i ▸ ha p i) pid idx

def InRange (pid idx start stop : ℕ) (p i x : ℕ) : Prop :=
  p = pid ∧ i = idx ∧ start ≤ x ∧ x < stop

lemma cut_areas (h : VmInv s) (pid idx start len : ℕ) {w : VmaTree}
    (hgood : VmInv (setVregion s pid idx w))
    (hw : w = (s.vregion pid idx).toVmaTree ∨
      vmas w = cut start (start+len) (region s pid idx) ∧ pageSize ∣ start ∧ pageSize ∣ len) :
    Cut (InRange pid idx start (start+len)) s (setVregion s pid idx w) := by
  rcases hw with rfl | ⟨hcut,hstart,hlen⟩
  · apply cut_refl h
    rw [set_vregion_same]
  · refine ⟨hgood,?_,?_,?_⟩
    · intro p i x f hx
      rw [region_set] at hx
      split at hx
      · next he =>
        rw [he.1,he.2]
        rw [hcut,has_cut _ _ _ _ _ (by omega)] at hx
        exact hx.1
      · exact hx
    · intro p i x f hx hA
      rw [region_set]
      split
      · next he =>
        rw [he.1,he.2] at hx
        rw [hcut,has_cut _ _ _ _ _ (by omega)]
        exact ⟨hx,fun hr => hA ⟨he.1,he.2,hr⟩⟩
      · exact hx
    · intro ha p i
      rw [region_set]
      split
      · rw [hcut]
        exact cut_ends _ _ _ hstart (dvd_add hstart hlen) (ha pid idx)
      · exact ha p i

end

structure ConflictOk (b : ℕ) (ci : ConflictInfo) : Prop where
  size : ci.pageSize = pageSize
  aligned : pageSize ∣ ci.start
  bucket : addrToBucketIndex ci.start = b
  idx : ci.idx < nrVregions
  low : vregionToStartVa ci.idx ≤ ci.start
  high : ci.start+pageSize ≤ vregionToEndVa ci.idx

def ConflictInv (s : Soc) : Prop := ∀ b, ∀ ci ∈ (s.info b).conflicts, ConflictOk b ci

def InConflict (cis : List ConflictInfo) (pid idx x : ℕ) : Prop :=
  ∃ ci ∈ cis, ci.pid = pid ∧ ci.idx = idx ∧ ci.start ≤ x ∧ x < ci.start+pageSize

lemma range_deadlock {s s' : Soc} {pid lo hi : ℕ}
    (h : freePteRange (fun _ _ _ => .error .deadlock) s pid lo hi = .ok s') : s' = s := by
  refine foldlM_preserves _ (fun u => u = s) _ ?_ s s' rfl h
  intro u addr u' _ hu hstep
  subst hu
  unfold freePte at hstep
  cases hpte : addrToShadowPte u pid addr with
  | none =>
    rw [hpte] at hstep
    cases hstep
    rfl
  | some i =>
    rw [hpte] at hstep
    cases hstep

lemma unmap_deadlock {s s' : Soc} {pid start stop : ℕ} {vmas : List VmAreaStruct}
    (h : unmapRegion (fun _ _ _ => .error .deadlock) s pid vmas start stop = .ok s') : s' = s := by
  refine foldlM_preserves _ (fun u => u = s) _ ?_ s s' rfl h
  intro u vma u' _ hu hstep
  subst hu
  unfold unmapSingleVma at hstep
  cases hr : unmapRange vma start stop with
  | none =>
    rw [hr] at hstep
    cases hstep
    rfl
  | some r =>
    rw [hr] at hstep
    exact range_deadlock hstep

lemma end_va_bound {idx x : ℕ} (hidx : idx < nrVregions) (hx : x ≤ vregionToEndVa idx) :
    x < 2^64 := hx.trans_lt (end_va_lt hidx)

lemma free_conflict_frame {s s' : Soc} {ci : ConflictInfo} (hrun : freeConflict s ci = .ok s') :
    s' = { s with vregion := s'.vregion } := by
  obtain ⟨⟨t,err⟩,ht,hs'⟩ := (bind_ok_iff _ _ _).mp hrun
  cases hs'
  obtain ⟨⟨v,err',det⟩,-,hrest⟩ := (bind_ok_iff _ _ _).mp ht
  obtain ⟨u,hu,hpure⟩ := (bind_ok_iff _ _ _).mp hrest
  cases hpure
  obtain rfl := unmap_deadlock hu
  rfl

lemma free_all_conflicts_frame {b : ℕ} {cis : List ConflictInfo} {s s' : Soc}
    (hlist : (s.info b).conflicts = cis) (hrun : freeAllConflicts b cis s = .ok s') :
    s' = { s with vregion := s'.vregion
                  info := update s.info b
                    ⟨(s.info b).nrFree,(s.info b).nrConflicts-cis.length,[]⟩ } := by
  induction cis generalizing s with
  | nil =>
    cases hrun
    have hinfo : update s'.info b ⟨(s'.info b).nrFree,
        (s'.info b).nrConflicts-([] : List ConflictInfo).length,[]⟩ = s'.info := by
      rw [List.length_nil,Nat.cast_zero,sub_zero,← hlist]
      exact update_eq_self b s'.info
    rw [hinfo]
  | cons ci cis ih =>
    rw [freeAllConflicts] at hrun
    obtain ⟨t,ht,hrest⟩ := (bind_ok_iff _ _ _).mp hrun
    have hframe := free_conflict_frame ht
    have hinfo : t.info = update s.info b
        { s.info b with conflicts := cis, nrConflicts := (s.info b).nrConflicts-1 } := by
      rw [hframe]
      rfl
    have hcount : (s.info b).nrConflicts-1-(cis.length : ℤ) =
        (s.info b).nrConflicts-((ci::cis).length : ℤ) := by
      rw [List.length_cons]
      push_cast
      ring
    have hlast := ih (by rw [hinfo,update_self]) hrest
    rw [hinfo,update_self,update_idem,hframe] at hlast
    dsimp only at hlast
    rw [hcount] at hlast
    exact hlast

lemma zap_shadow_frame {s s' : Soc} {b : ℕ} {i : Fin 16}
    (hall : (s.shadow b i).allocated = true) (hrun : zapShadowPte s b i = .ok s') :
    s' = { s with vregion := s'.vregion
                  shadow := setPte s.shadow b i ⟨(s.shadow b i).ppa,false,false,0⟩
                  info := update s.info b ⟨(s.info b).nrFree+1,
                    (s.info b).nrConflicts-(s.info b).conflicts.length,[]⟩
                  nrAllocatedPtes := s.nrAllocatedPtes-1 } := by
  unfold zapShadowPte at hrun
  rw [if_pos hall] at hrun
  obtain ⟨t,ht,hs'⟩ := (bind_ok_iff _ _ _).mp hrun
  cases hs'
  have hframe := free_all_conflicts_frame (by simp [setInfo]) ht
  simp only [setInfo,update_self,update_idem] at hframe
  rw [hframe]

/-- A range is refused, or its areas are cut out and then its entries removed. -/
lemma free_with_cases {zap : Soc → ℕ → Fin 16 → Except Fault Soc} {s s' : Soc}
    {pid idx start len : ℕ} {err : ℤ} (h : VmInv s) (hlen : len ≠ 0) (hwrap : start+len < 2^64)
    (hrun : freeVaWith zap s pid idx start len = .ok (s',err)) :
    (err ≠ 0 ∧ s' = s ∧ Inside start (start+len) (region s pid idx)) ∨
    (err = 0 ∧ ∃ w det, VmInv (setVregion s pid idx w) ∧
      vmas w = cut start (start+len) (region s pid idx) ∧
      det.map VmRep.rangeOf = inter start (start+len) (region s pid idx) ∧
      unmapRegion zap (setVregion s pid idx w) pid det start (start+len) = .ok s') := by
  unfold freeVaWith at hrun
  rcases free_areas_spec (h.good pid idx) start len hlen hwrap with
    ⟨hin,hfree⟩ | ⟨-,w,det,hfree,hgood,hcut,hdet⟩
  · rw [hfree,ok_bind] at hrun
    dsimp only at hrun
    rw [set_vregion_same] at hrun
    cases hrun
    exact .inl ⟨by decide,rfl,hin⟩
  · rw [hfree,ok_bind] at hrun
    dsimp only at hrun
    rw [Nat.mod_eq_of_lt hwrap] at hrun
    obtain ⟨u,hu,hpure⟩ := (bind_ok_iff _ _ _).mp hrun
    cases hpure
    exact .inr ⟨rfl,w,det,vm_inv_cut h pid idx start (start+len) w hgood hcut,hcut,hdet,hu⟩

lemma free_conflict_cases {s s' : Soc} {b : ℕ} {ci : ConflictInfo} (h : VmInv s)
    (hci : ConflictOk b ci) (hrun : freeConflict s ci = .ok s') :
    (s' = s ∧ Inside ci.start (ci.start+pageSize) (region s ci.pid ci.idx)) ∨
    ∃ w, s' = setVregion s ci.pid ci.idx w ∧ VmInv s' ∧
      vmas w = cut ci.start (ci.start+pageSize) (region s ci.pid ci.idx) := by
  have hbound : ci.start+pageSize < 2^64 := end_va_bound hci.idx hci.high
  unfold freeConflict at hrun
  rw [hci.size] at hrun
  obtain ⟨⟨t,err⟩,ht,hs'⟩ := (bind_ok_iff _ _ _).mp hrun
  cases hs'
  rcases free_with_cases h page_size_pos.ne' hbound ht with
    ⟨-,hsame,hin⟩ | ⟨-,w,det,hinv,hcut,-,hunmap⟩
  · exact .inl ⟨hsame,hin⟩
  · obtain rfl := unmap_deadlock hunmap
    exact .inr ⟨w,rfl,hinv,hcut⟩

lemma free_conflict_spec {s s' : Soc} {b : ℕ} {ci : ConflictInfo} (h : VmInv s)
    (hci : ConflictOk b ci) (hrun : freeConflict s ci = .ok s') : Cut (InConflict [ci]) s s' := by
  rcases free_conflict_cases h hci hrun with ⟨rfl,-⟩ | ⟨w,rfl,hinv,hcut⟩
  · exact cut_refl h rfl
  · refine cut_mono (cut_areas h ci.pid ci.idx ci.start pageSize hinv
      (.inr ⟨hcut,hci.aligned,dvd_rfl⟩)) ?_
    rintro p i x ⟨hp,hi,hlo,hhi⟩
    exact ⟨ci,by simp,hp.symm,hi.symm,hlo,hhi⟩

lemma free_all_conflicts_spec {b : ℕ} {cis : List ConflictInfo} {s s' : Soc} (h : VmInv s)
    (hok : ∀ ci ∈ cis, ConflictOk b ci) (hrun : freeAllConflicts b cis s = .ok s') :
    Cut (InConflict cis) s s' := by
  induction cis generalizing s with
  | nil =>
    cases hrun
    exact cut_refl h rfl
  | cons ci cis ih =>
    rw [freeAllConflicts] at hrun
    obtain ⟨t,ht,hrest⟩ := (bind_ok_iff _ _ _).mp hrun
    have hstart : VmInv (setInfo s b ⟨(s.info b).nrFree,(s.info b).nrConflicts-1,cis⟩) :=
      vm_inv_congr h rfl
    have hcut := free_conflict_spec hstart (hok ci (by simp)) ht
    have hfirst : Cut (InConflict (ci::cis)) s t := by
      refine cut_mono (cut_congr hcut rfl rfl) ?_
      rintro p i x ⟨c,hc,hx⟩
      exact ⟨c,by simp [List.mem_singleton.mp hc],hx⟩
    refine cut_trans hfirst (cut_mono (ih hcut.inv (fun c hc => hok c (by simp [hc])) hrest) ?_)
    rintro p i x ⟨c,hc,hx⟩
    exact ⟨c,by simp [hc],hx⟩

lemma zap_shadow_spec {s s' : Soc} {b : ℕ} {i : Fin 16} (h : VmInv s) (hc : ConflictInv s)
    (hall : (s.shadow b i).allocated = true) (hrun : zapShadowPte s b i = .ok s') :
    Cut (InConflict (s.info b).conflicts) s s' := by
  unfold zapShadowPte at hrun
  rw [if_pos hall] at hrun
  obtain ⟨t,ht,hs'⟩ := (bind_ok_iff _ _ _).mp hrun
  cases hs'
  have hstart : VmInv { setInfo s b { s.info b with nrFree := (s.info b).nrFree+1 } with
      nrAllocatedPtes := s.nrAllocatedPtes-1 } := vm_inv_congr h rfl
  exact cut_congr (free_all_conflicts_spec hstart (fun ci hci => hc b ci hci) ht) rfl rfl

section

def pieceLen (start len : ℕ) : ℕ :=
  min (sub64 (vregionToEndVa (vaToVregionIndex start)) start) len

lemma piece_le (start len : ℕ) : pieceLen start len ≤ len := min_le_right _ _

/-- Freeing one piece leads from `I` to `I`, or to `E` with an error. -/
def PieceKeeps (pid : ℕ) (I : ℕ → ℕ → Soc → Prop) (E : Soc → Prop) : Prop :=
  ∀ s t start len err, I start len s → vaToVregionIndex start < nrVregions →
    pieceLen start len ≠ 0 →
    freeVaLocked s pid (vaToVregionIndex start) start (pieceLen start len) = .ok (t,err) →
    (err ≠ 0 ∧ E t) ∨ (err = 0 ∧ I (start+pieceLen start len) (len-pieceLen start len) t)

variable {pid : ℕ} (I : ℕ → ℕ → Soc → Prop) (E : Soc → Prop)
  (herr : ∀ s start len, I start len s → E s)
  (hpiece : PieceKeeps pid I E)
  {s s' : Soc} {start len : ℕ} {err : ℤ}

include herr hpiece

lemma free_loop_rule {stop n : ℕ} (h : I start len s)
    (hrun : freeVaLoop pid stop n s start len = .ok (s',err)) :
    (err ≠ 0 ∧ E s') ∨ (err = 0 ∧ ∃ rest, I stop rest s') := by
  induction n generalizing s start len with
  | zero => cases hrun
  | succ n ih =>
    unfold freeVaLoop at hrun
    dsimp only at hrun
    split_ifs at hrun with hidx
    obtain ⟨⟨t,ret⟩,ht,hrest⟩ := (bind_ok_iff _ _ _).mp hrun
    rw [← pieceLen] at ht hrest
    dsimp only at hrest
    by_cases hz : pieceLen start len = 0
    · -- nothing to free is an error
      rw [hz] at ht
      cases ht
      rw [if_pos (.inl (by decide))] at hrest
      cases hrest
      rw [set_vregion_same]
      exact .inl ⟨by decide,herr s start len h⟩
    · rcases hpiece s t start len ret h (Nat.lt_of_not_le hidx) hz ht with ⟨hne,hE⟩ | ⟨rfl,hI⟩
      · rw [if_pos (.inl hne)] at hrest
        cases hrest
        exact .inl ⟨hne,hE⟩
      · split_ifs at hrest with hend
        · cases hrest
          have hlast : start+pieceLen start len = stop := hend.resolve_left (fun hc => hc rfl)
          rw [hlast] at hI
          exact .inr ⟨rfl,_,hI⟩
        · exact ih hI hrest

lemma free_va_rule (hE : E s) (h : ¬(start+len)%2^64 < start → I start len s)
    (hrun : freeVa s pid start len = .ok (s',err)) :
    (err ≠ 0 ∧ E s') ∨ (err = 0 ∧ ∃ rest, I ((start+len)%2^64) rest s') := by
  unfold freeVa at hrun
  dsimp only at hrun
  split_ifs at hrun with hz hwrap
  · cases hrun
    exact .inl ⟨by decide,hE⟩
  · cases hrun
    exact .inl ⟨by decide,hE⟩
  · exact free_loop_rule I E herr hpiece (h hwrap) hrun

end

end Clio.VmFree
