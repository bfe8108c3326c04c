import Clio.Accounting
import Clio.TableAgree

/-!
# The release of conflict pages

A page that was refused because its bucket is full is covered by an area and listed in the bucket.
-/

namespace Clio.ConflictRelease

open Ranges VmArea Pgtable Vm VmRegion VmFree Pte VmAlloc Board Machine Requests CoveredSet
open AllocReply TableAgree TableSteps Footprint

section

def Pieces (s s' : Soc) : Prop :=
  ∀ pid idx, ∀ r ∈ region s' pid idx, ∃ q ∈ region s pid idx, q.lo ≤ r.lo ∧ r.hi ≤ q.hi

variable {s t s' : Soc} {pid idx b : ℕ}

lemma pieces_congr {u u' : Soc} (h : Pieces s s') (hu : u.vregion = s.vregion)
    (hu' : u'.vregion = s'.vregion) : Pieces u u' := by
  intro pid idx r hr
  rw [region,hu'] at hr
  rw [region,hu]
  exact h pid idx r hr

lemma pieces_refl (s : Soc) : Pieces s s := fun _ _ r hr => ⟨r,hr,le_rfl,le_rfl⟩

lemma pieces_trans (h : Pieces s t) (h' : Pieces t s') : Pieces s s' := by
  intro pid idx r hr
  obtain ⟨q,hq,hq1,hq2⟩ := h' pid idx r hr
  obtain ⟨p,hp,hp1,hp2⟩ := h pid idx q hq
  exact ⟨p,hp,hp1.trans hq1,hq2.trans hp2⟩

lemma pieces_cut {start stop : ℕ} {w : VmaTree}
    (hcut : vmas w = cut start stop (region s pid idx)) : Pieces s (setVregion s pid idx w) := by
  intro p i r hr
  rw [region_set] at hr
  split_ifs at hr with hpi
  · rw [hcut] at hr
    rw [hpi.1,hpi.2]
    exact mem_cut _ _ _ r hr
  · exact ⟨r,hr,le_rfl,le_rfl⟩

lemma pieces_cover (h : Pieces s s') {x : ℕ} (hx : x ∈ covered (region s' pid idx)) :
    x ∈ covered (region s pid idx) := by
  obtain ⟨r,hr,hlo,hhi⟩ := (mem_covered _ x).mp hx
  obtain ⟨q,hq,h1,h2⟩ := h pid idx r hr
  exact (mem_covered _ x).mpr ⟨q,hq,h1.trans hlo,hhi.trans_le h2⟩

lemma pieces_inside (h : Pieces s s') {lo hi : ℕ} (hin : Inside lo hi (region s' pid idx)) :
    Inside lo hi (region s pid idx) := by
  obtain ⟨r,hr,hlo,hhi⟩ := hin
  obtain ⟨q,hq,h1,h2⟩ := h pid idx r hr
  exact ⟨q,hq,h1.trans_lt hlo,hhi.trans_le h2⟩

def Buried (s : Soc) (ci : ConflictInfo) : Prop :=
  Inside ci.start (ci.start+pageSize) (region s ci.pid ci.idx)

lemma free_conflict_release {ci : ConflictInfo} (h : VmInv s) (hci : ConflictOk b ci)
    (hout : ¬Buried s ci) (hrun : freeConflict s ci = .ok s') :
    Pieces s s' ∧ ∀ x, ci.start ≤ x → x < ci.start+pageSize →
      x ∉ covered (region s' ci.pid ci.idx) := by
  rcases free_conflict_cases h hci hrun with ⟨-,hin⟩ | ⟨w,rfl,-,hcut⟩
  · exact absurd hin hout
  · refine ⟨pieces_cut hcut,?_⟩
    intro x hlo hhi hx
    rw [region_set,if_pos ⟨rfl,rfl⟩,hcut,covered_cut _ _ _ (by omega)] at hx
    exact hx.2 ⟨hlo,hhi⟩

lemma free_all_release {cis : List ConflictInfo} (h : VmInv s)
    (hok : ∀ ci ∈ cis, ConflictOk b ci) (hout : ∀ ci ∈ cis, ¬Buried s ci)
    (hrun : freeAllConflicts b cis s = .ok s') :
    Pieces s s' ∧ ∀ pid idx x, InConflict cis pid idx x → x ∉ covered (region s' pid idx) := by
  induction cis generalizing s with
  | nil =>
    cases hrun
    refine ⟨pieces_refl _,?_⟩
    rintro pid idx x ⟨ci,hci,-⟩
    cases hci
  | cons ci cis ih =>
    rw [freeAllConflicts] at hrun
    obtain ⟨t,ht,hrest⟩ := (bind_ok_iff _ _ _).mp hrun
    have hstart : VmInv (setInfo s b ⟨(s.info b).nrFree,(s.info b).nrConflicts-1,cis⟩) :=
      vm_inv_congr h rfl
    have hcut := free_conflict_spec hstart (hok ci (by simp)) ht
    obtain ⟨hp,hgone⟩ := free_conflict_release hstart (hok ci (by simp)) (hout ci (by simp)) ht
    replace hp : Pieces s t := pieces_congr hp rfl rfl
    obtain ⟨hp',hgone'⟩ := ih hcut.inv (fun c hc => hok c (by simp [hc]))
      (fun c hc hin => hout c (by simp [hc]) (pieces_inside hp hin)) hrest
    refine ⟨pieces_trans hp hp',?_⟩
    rintro pid idx x ⟨c,hc,rfl,rfl,hlo,hhi⟩ hx
    rcases List.mem_cons.mp hc with rfl | hc
    · exact hgone x hlo hhi (pieces_cover hp' hx)
    · exact hgone' _ _ x ⟨c,hc,rfl,rfl,hlo,hhi⟩ hx

lemma zap_shadow_release {i : Fin 16} (h : Base s) (hall : (s.shadow b i).allocated = true)
    (hout : ∀ ci ∈ (s.info b).conflicts, ¬Buried s ci) (hrun : zapShadowPte s b i = .ok s') :
    Pieces s s' ∧ ∀ pid idx x, InConflict (s.info b).conflicts pid idx x →
      x ∉ covered (region s' pid idx) := by
  unfold zapShadowPte at hrun
  rw [if_pos hall] at hrun
  obtain ⟨t,ht,hs'⟩ := (bind_ok_iff _ _ _).mp hrun
  cases hs'
  have hstart : VmInv { setInfo s b { s.info b with nrFree := (s.info b).nrFree+1 } with
      nrAllocatedPtes := s.nrAllocatedPtes-1 } := vm_inv_congr h.vm rfl
  obtain ⟨hp,hgone⟩ := free_all_release hstart (fun ci hci => h.conflict b ci hci) hout ht
  exact ⟨pieces_congr hp rfl rfl,hgone⟩

end

section

def Listed (L : ℕ → Set ℕ) (s : Soc) : Prop :=
  ∀ pid idx x, idx < nrVregions → x ∈ covered (region s pid idx) →
    x ∈ L pid ∨ ∃ b, InConflict (s.info b).conflicts pid idx x

structure Loose (L : ℕ → Set ℕ) (B : Set ℕ) (s : Soc) : Prop where
  base : Base s
  listed : Listed L s
  clear : ∀ b ∈ B, ∀ ci ∈ (s.info b).conflicts, ¬Buried s ci

variable {s s' : Soc} {pid : ℕ} {L L' : ℕ → Set ℕ} {B : Set ℕ}

lemma listed_mono (h : Listed L s) (hL : ∀ q x, x ∈ L q → x ∈ L' q) : Listed L' s :=
  fun pid idx x hidx hx => (h pid idx x hidx hx).imp_left (hL pid x)

lemma free_pte_loose {addr : ℕ} (h : Loose L B s) (hB : addrToBucketIndex addr ∈ B)
    (hrun : freePte zapShadowPte s pid addr = .ok s') : Loose L B s' := by
  have hbase := (free_pte_base h.base hrun).1
  unfold freePte at hrun
  cases hpte : addrToShadowPte s pid addr with
  | none =>
    rw [hpte] at hrun
    cases hrun
    exact h
  | some i =>
    rw [hpte] at hrun
    have hall := (shadow_pte_some hpte).1
    obtain ⟨t,ppa,zone,ht,rfl,-⟩ := zap_both_cleared h.base.pt hall hrun
    obtain ⟨hp,hgone⟩ := zap_shadow_release h.base hall (h.clear _ hB) ht
    generalize addrToBucketIndex addr = b at *
    replace hp : Pieces s (cleared s b i t.vregion ppa zone) := pieces_congr hp rfl rfl
    refine ⟨hbase,?_,?_⟩
    · intro q idx x hidx hx
      rcases h.listed q idx x hidx (pieces_cover hp hx) with hlive | ⟨c,hc⟩
      · exact .inl hlive
      · refine .inr ⟨c,?_⟩
        have hcb : c ≠ b := by
          rintro rfl
          exact hgone q idx x hc hx
        rwa [cleared_info hcb]
    · intro c hcB ci hci hin
      exact h.clear c hcB ci (mem_cleared_conflicts.mp hci).2 (pieces_inside hp hin)

lemma free_locked_loose {idx start len : ℕ} {err : ℤ} (h : Loose L B s) (hlen : len ≠ 0)
    (hwrap : start+len < 2^64)
    (hB : ∀ x, start ≤ x → x < start+len → addrToBucketIndex x ∈ B)
    (hown : ∀ i < nrVregions, ∀ x, start ≤ x → x < start+len → x ∈ covered (region s pid i) →
      i = idx)
    (hrun : freeVaLocked s pid idx start len = .ok (s',err)) :
    (err ≠ 0 ∧ s' = s) ∨ (err = 0 ∧ Loose (without L pid (Set.Ico start (start+len))) B s') := by
  rcases free_with_cases h.base.vm hlen hwrap hrun with
    ⟨hne,hsame,-⟩ | ⟨hzero,w,det,hinv,hcut,-,hu⟩
  · exact .inl ⟨hne,hsame⟩
  · right
    have hp : Pieces s (setVregion s pid idx w) := pieces_cut hcut
    refine ⟨hzero,unmap_preserves _ (fun _ addr _ hlo hhi hu => free_pte_loose hu (hB addr hlo hhi))
      ⟨base_vregion h.base hinv,?_,?_⟩ hu⟩
    · intro q i x hi hx
      refine (h.listed q i x hi (pieces_cover hp hx)).imp_left fun hlive => ?_
      rw [mem_without]
      refine ⟨hlive,?_⟩
      rintro ⟨rfl,hlo,hhi⟩
      -- the range is gone from its vRegion, and no other one has it
      obtain rfl := hown i hi x hlo hhi (pieces_cover hp hx)
      rw [region_set,if_pos ⟨rfl,rfl⟩,hcut,covered_cut _ _ _ (by omega)] at hx
      exact hx.2 ⟨hlo,hhi⟩
    · exact fun b hb ci hci hin => h.clear b hb ci hci (pieces_inside hp hin)

def NoneBuried (s : Soc) (start len : ℕ) : Prop :=
  ∀ x, start ≤ x → x < start+len → ∀ ci ∈ (s.info (addrToBucketIndex x)).conflicts, ¬Buried s ci

lemma free_va_listed {start len : ℕ} {err : ℤ} (h : Base s) (hL : Listed L s)
    (hs : start < 2^64) (hl : len < 2^64) (hout : NoneBuried s start len)
    (hrun : freeVa s pid start len = .ok (s',err)) :
    Base s' ∧ Listed (if err = 0 then without L pid (Set.Ico start (start+len)) else L) s' := by
  let B : Set ℕ := {b | ∃ x, start ≤ x ∧ x < start+len ∧ addrToBucketIndex x = b}
  -- the addresses before `at_` are gone
  let I : ℕ → ℕ → Soc → Prop := fun at_ rest t => start ≤ at_ ∧ at_+rest = start+len ∧
    at_+rest < 2^64 ∧ Loose (without L pid (Set.Ico start at_)) B t
  let E : Soc → Prop := fun t => Base t ∧ Listed L t
  have herr : ∀ t at_ rest, I at_ rest t → E t := fun t _ _ ⟨_,_,_,hloose⟩ =>
    ⟨hloose.base,listed_mono hloose.listed fun q x hx => ((mem_without _ q x).mp hx).1⟩
  have hpiece : PieceKeeps pid I E := by
    intro t u at_ rest err hI _ hz hfree
    obtain ⟨hle,hsum,hbound,hloose⟩ := hI
    have hpl := piece_le at_ rest
    rcases free_locked_loose hloose hz (by omega)
      (fun x hlo hhi => ⟨x,by omega,by omega,rfl⟩)
      (fun i hi x hlo hhi hx => piece_own hloose.base.vm hi hlo hhi hx) hfree with
      ⟨hne,rfl⟩ | ⟨rfl,hloose'⟩
    · exact .inl ⟨hne,herr u at_ rest ⟨hle,hsum,hbound,hloose⟩⟩
    · rw [without_union,Set.Ico_union_Ico_eq_Ico hle (by omega)] at hloose'
      exact .inr ⟨rfl,by omega,by omega,by omega,hloose'⟩
  have hstart : ¬(start+len)%2^64 < start → I start len s := by
    intro hwrap
    refine ⟨le_rfl,rfl,by omega,?_⟩
    rw [Set.Ico_self,without_empty]
    refine ⟨h,hL,?_⟩
    rintro b ⟨x,hlo,hhi,rfl⟩
    exact hout x hlo hhi
  rcases free_va_rule I E herr hpiece ⟨h,hL⟩ hstart hrun with
    ⟨hne,hE⟩ | ⟨rfl,rest,hle,hsum,hbound,hloose⟩
  · rw [if_neg hne]
    exact hE
  · have hword : (start+len)%2^64 = start+len := by omega
    rw [hword] at hloose
    rw [if_pos rfl]
    exact ⟨hloose.base,hloose.listed⟩

end

section

variable {s s' : Soc} {pid idx len : ℕ} {L : ℕ → Set ℕ}

lemma grown_listed {A : Set ℕ} (h : Listed L s) (hg : Grown pid idx A s s')
    (hA : ∀ x ∈ A, InConflict (s'.info (addrToBucketIndex x)).conflicts pid idx x) :
    Listed L s' := by
  have hold : ∀ q i x, i < nrVregions → x ∈ covered (region s q i) →
      x ∈ L q ∨ ∃ b, InConflict (s'.info b).conflicts q i x := by
    intro q i x hi hx
    rcases h q i x hi hx with hlive | ⟨b,ci,hci,hpage⟩
    · exact .inl hlive
    · exact .inr ⟨b,ci,hg.old b ci hci,hpage⟩
  intro q i x hi hx
  by_cases hqi : q = pid ∧ i = idx
  · obtain ⟨rfl,rfl⟩ := hqi
    rw [hg.cover] at hx
    rcases hx with hx | hx
    · exact hold q i x hi hx
    · exact .inr ⟨_,hA x hx⟩
  · rw [hg.other q i hqi] at hx
    exact hold q i x hi hx

lemma entered_listed {a vmFlags : ℕ} (h : Base s) (hL : Listed L s) (hpos : 0 < len)
    (hfit : Fits s pid idx len a) (he : Entered pid idx a len vmFlags s s') :
    Listed (adding L pid (Set.Ico a (a+len))) s' := by
  obtain ⟨w,hfill⟩ := he.filled
  have hold : ∀ q i x, i < nrVregions → x ∈ covered (region s q i) →
      x ∈ adding L pid (Set.Ico a (a+len)) q ∨ ∃ b, InConflict (s'.info b).conflicts q i x := by
    intro q i x hi hx
    simp only [hfill.conflicts,mem_adding]
    exact (hL q i x hi hx).imp_left .inl
  intro q i x hi hx
  by_cases hqi : q = pid ∧ i = idx
  · obtain ⟨rfl,rfl⟩ := hqi
    rw [he.region,covered_enter (region_sorted h.vm q i) hfit.at_.2.2 (by omega)] at hx
    rcases hx with hx | hx
    · exact hold q i x hi hx
    · exact .inl ((mem_adding _ q x).mpr (.inr ⟨rfl,hx⟩))
  · rw [he.other q i hqi] at hx
    exact hold q i x hi hx

lemma alloc_va_listed {a vmFlags : ℕ} (h : Base s) (hL : Listed L s) (hidx : idx < nrVregions)
    (hpos : pageAlign len ≠ 0) (hrun : allocVaVregion s pid idx len vmFlags = .ok (s',a)) :
    Base s' ∧ Listed (if a = 0 then L else adding L pid (Set.Ico a (a+pageAlign len))) s' := by
  unfold allocVaVregion at hrun
  dsimp only at hrun
  split_ifs at hrun with hle
  have hpos := Nat.pos_of_ne_zero hpos
  have hlen := page_align_dvd len
  obtain ⟨t,hb,ht,hcase⟩ := alloc_retry_rule (Listed L) (fun _ _ _ => grown_listed) h hL hidx hpos
    hlen (Nat.le_of_not_lt hle) hrun
  rcases hcase with ⟨rfl,c,rfl⟩ | ⟨hne,hfit,he⟩
  · rw [if_pos rfl]
    exact ⟨base_cached hb c,ht⟩
  · rw [if_neg hne]
    exact ⟨(entered_base hb hlen hpos hfit he).1,entered_listed hb ht hpos hfit he⟩

end

section

open Accounting (Books books_stable books_alloc books_init)

def Unburied (m : Tracked) : Call → Prop
  | .alloc _ _ len _ => pageAlign len ≠ 0
  | .free _ start len => start < 2^64 ∧ len < 2^64 ∧ NoneBuried m.soc start len

structure ReleaseInv (m : Tracked) : Prop where
  base : Base m.soc
  books : Books m.soc
  listed : Listed (live m.log) m.soc

lemma alloc_release {m u : Tracked} {pid idx len vmFlags : ℕ} (h : ReleaseInv m)
    (hpos : pageAlign len ≠ 0) (hrun : TableAgree.exec m (.alloc pid idx len vmFlags) = some u) :
    ReleaseInv u := by
  unfold TableAgree.exec CoveredSet.exec at hrun
  dsimp only at hrun
  split_ifs at hrun with hidx
  split at hrun
  · cases hrun
  · next s a halloc =>
    cases hrun
    have hbooks := (alloc_va_stable (books_stable False)
      (fun _ _ _ _ _ hb hstep => ⟨books_alloc hb.1 hstep,False.elim⟩) ⟨h.books,False.elim⟩ halloc).1
    obtain ⟨hbase,hlisted⟩ := alloc_va_listed h.base h.listed hidx hpos halloc
    refine ⟨hbase,hbooks,?_⟩
    dsimp only
    split_ifs at hlisted ⊢
    · exact hlisted
    · rw [live_alloc]
      exact hlisted

lemma free_release {m u : Tracked} {pid start len : ℕ} (h : ReleaseInv m)
    (hok : Unburied m (.free pid start len))
    (hrun : TableAgree.exec m (.free pid start len) = some u) : ReleaseInv u := by
  obtain ⟨hs,hl,hout⟩ := hok
  unfold TableAgree.exec at hrun
  dsimp only at hrun
  split at hrun
  · cases hrun
  · next s err hfree =>
    cases hrun
    have hbooks := (free_va_keeps (books_stable False).toKeeps ⟨h.books,False.elim⟩ hfree).1
    obtain ⟨hbase,hlisted⟩ := free_va_listed h.base h.listed hs hl hout hfree
    refine ⟨hbase,hbooks,?_⟩
    dsimp only
    split_ifs at hlisted ⊢
    · rw [live_free]
      exact hlisted
    · exact hlisted

lemma release_step {m u : Tracked} {c : Call} (h : ReleaseInv m) (hok : Unburied m c)
    (hrun : TableAgree.exec m c = some u) : ReleaseInv u := by
  cases c with
  | alloc pid idx len vmFlags => exact alloc_release h hok hrun
  | free pid start len => exact free_release h hok hrun

lemma release_boot : ReleaseInv CoveredSet.start := by
  refine ⟨state_boot.base,(books_init bootSoc).1,?_⟩
  intro pid idx x _ hx
  have hnil : region CoveredSet.start.soc pid idx = [] := good_init.2
  obtain ⟨r,hr,-⟩ := (mem_covered _ x).mp hx
  rw [hnil] at hr
  cases hr

/-- If no free meets a buried conflict, a covered page that is not live has a full bucket. -/
theorem conflict_released (cs : List Call) (m : Tracked)
    (hok : Guarded TableAgree.exec Unburied cs CoveredSet.start)
    (hrun : run TableAgree.exec cs CoveredSet.start = some m) (pid x : ℕ)
    (hx : x ∈ coverOf m.soc pid) (hdead : x ∉ live m.log pid) :
    (m.soc.info (addrToBucketIndex x)).nrFree = 0 := by
  have hinv : ReleaseInv m := run_invariant TableAgree.exec Unburied ReleaseInv
    (fun _ _ _ => release_step) cs CoveredSet.start m release_boot hok hrun
  obtain ⟨idx,hidx,hx⟩ := hx
  obtain ⟨b,ci,hci,-,-,hlo,hhi⟩ := (hinv.listed pid idx x hidx hx).resolve_left hdead
  have hcok := hinv.base.conflict b ci hci
  rw [bucket_of_page hcok.aligned hlo hhi,hcok.bucket]
  exact hinv.books.full b (List.ne_nil_of_mem hci)

def crowd : List Call := (List.range 17).map fun k => .alloc (k+1) 0 4194304 0

theorem conflict_released_crowd : ∃ m, run TableAgree.exec crowd CoveredSet.start = some m ∧
    1069547520 ∈ coverOf m.soc 17 ∧ 1069547520 ∉ live m.log 17 ∧
    (m.soc.info (addrToBucketIndex 1069547520)).nrFree = 0 := by
  obtain ⟨m,hm,hlog,hregion⟩ := exists_checked (run TableAgree.exec crowd CoveredSet.start)
    (fun m => m.log = .alloc 17 1065353216 4194304::
        (List.range 16).reverse.map (fun k => .alloc (k+1) 1069547520 4194304) ∧
      region m.soc 17 0 = [⟨1065353216,1073741824,vmFlagsConflict⟩]) (by decide +kernel)
  have hcover : 1069547520 ∈ coverOf m.soc 17 := by
    refine ⟨0,by decide,?_⟩
    rw [hregion]
    exact (mem_covered _ _).mpr ⟨_,List.mem_singleton.mpr rfl,by decide,by decide⟩
  have hdead : 1069547520 ∉ live m.log 17 := by
    rw [hlog]
    simp [live,List.range_succ]
  have hguard : Guarded TableAgree.exec Unburied crowd CoveredSet.start := by
    apply guarded_of_forall
    intro c hc m
    obtain ⟨k,-,rfl⟩ := List.mem_map.mp hc
    show pageAlign 4194304 ≠ 0
    decide
  exact ⟨m,hm,hcover,hdead,conflict_released crowd m hguard hm 17 1069547520 hcover hdead⟩

/-- A conflict of process 17 lies between two allocations when its bucket gets room. -/
def buriedRun : List Call :=
  .alloc 17 0 4194304 0::(List.range 15).map (fun k => .alloc (k+1) 0 8388608 0)++
    [.alloc 16 0 4194304 0,.alloc 17 0 4194304 0,.free 1 1065353216 4194304]

def buriedLog : List Event :=
  [.free 1 1065353216 4194304,.alloc 17 1061158912 4194304,.alloc 16 1065353216 4194304]++
    (List.range 15).reverse.map (fun k => .alloc (k+1) 1065353216 8388608)++
    [.alloc 17 1069547520 4194304]

theorem buried_page_kept : ∃ m, run TableAgree.exec buriedRun CoveredSet.start = some m ∧
    1065353216 ∈ coverOf m.soc 17 ∧ 1065353216 ∉ live m.log 17 ∧
    (m.soc.info (addrToBucketIndex 1065353216)).nrFree = 1 := by
  obtain ⟨m,hm,hlog,hregion,hfree⟩ := exists_checked
    (run TableAgree.exec buriedRun CoveredSet.start) (fun m => m.log = buriedLog ∧ region m.soc 17 0 = [⟨1061158912,1073741824,0⟩] ∧
      (m.soc.info (addrToBucketIndex 1065353216)).nrFree = 1) (by decide +kernel)
  refine ⟨m,hm,⟨0,by decide,?_⟩,?_,hfree⟩
  · rw [hregion]
    exact (mem_covered _ _).mpr ⟨_,List.mem_singleton.mpr rfl,by decide,by decide⟩
  · rw [hlog]
    simp [buriedLog,live,List.range_succ]

end

end Clio.ConflictRelease
