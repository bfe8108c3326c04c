import Clio.Validate

/-!
# The allocator as a set of addresses

While no bucket is full the areas cover what allocations returned and was not freed.
-/

namespace Clio.CoveredSet

open Ranges VmArea FindVaRange Pgtable Vm VmRegion VmFree
open Pte VmAlloc Board Machine Requests AllocReply Errno

section

/-- A well-formed state without conflicts. -/
structure Calm (s : Soc) : Prop where
  base : Base s
  none : ∀ b, (s.info b).conflicts = []

variable {s s' : Soc} {pid idx : ℕ}

lemma free_pte_calm (h : Calm s) (pid addr : ℕ) :
    ∃ s', freePte zapShadowPte s pid addr = .ok s' ∧ Calm s' ∧ s'.vregion = s.vregion := by
  unfold freePte
  cases hpte : addrToShadowPte s pid addr with
  | none => exact ⟨s,rfl,h,rfl⟩
  | some i =>
    obtain ⟨ppa,zone,hrun,hpt⟩ := zap_both_total h.base.pt (shadow_pte_some hpte).1 (h.none _)
    have hinfo : ∀ b, ((cleared s (addrToBucketIndex addr) i s.vregion ppa zone).info b).conflicts =
        [] := by
      intro b
      apply List.eq_nil_iff_forall_not_mem.mpr
      intro ci hci
      have hmem := (mem_cleared_conflicts.mp hci).2
      rw [h.none b] at hmem
      cases hmem
    refine ⟨_,hrun,⟨⟨vm_inv_congr h.base.vm rfl,?_,hpt⟩,hinfo⟩,rfl⟩
    intro b ci hci
    rw [hinfo b] at hci
    cases hci

lemma unmap_calm (h : Calm s) (pid start stop : ℕ) (det : List VmAreaStruct) :
    ∃ s', unmapRegion zapShadowPte s pid det start stop = .ok s' ∧ Calm s' ∧
      s'.vregion = s.vregion := by
  have hpte : ∀ u addr, Calm u ∧ u.vregion = s.vregion →
      ∃ u', freePte zapShadowPte u pid addr = .ok u' ∧ Calm u' ∧ u'.vregion = s.vregion := by
    rintro u addr ⟨hu,hv⟩
    obtain ⟨u',hrun,hcalm,hsame⟩ := free_pte_calm hu pid addr
    exact ⟨u',hrun,hcalm,hsame.trans hv⟩
  refine foldlM_total _ (fun u => Calm u ∧ u.vregion = s.vregion) det ?_ s ⟨h,rfl⟩
  intro u vma _ hu
  unfold unmapSingleVma
  cases unmapRange vma start stop with
  | none => exact ⟨u,rfl,hu⟩
  | some r =>
    exact foldlM_total _ (fun u => Calm u ∧ u.vregion = s.vregion) _ (fun u addr _ => hpte u addr)
      u hu

lemma free_locked_calm (h : Calm s) (pid idx start len : ℕ) (hlen : len ≠ 0)
    (hwrap : start+len < 2^64) :
    (Inside start (start+len) (region s pid idx) ∧
      freeVaLocked s pid idx start len = .ok (s,-ENOMEM)) ∨
    (¬Inside start (start+len) (region s pid idx) ∧
      ∃ s', freeVaLocked s pid idx start len = .ok (s',0) ∧ Calm s' ∧
        region s' pid idx = cut start (start+len) (region s pid idx) ∧
        ∀ p i, ¬(p = pid ∧ i = idx) → region s' p i = region s p i) := by
  have hstart : start < 2^64 := by omega
  have hl : len < 2^64 := by omega
  rcases free_areas_spec (h.base.vm.good pid idx) start len hlen hwrap with
    ⟨hin,hfree⟩ | ⟨hin,w,det,hfree,hgood,hcut,-⟩
  · left
    refine ⟨hin,?_⟩
    unfold freeVaLocked freeVaWith
    rw [hfree,ok_bind]
    dsimp only
    rw [set_vregion_same]
    rfl
  · right
    refine ⟨hin,?_⟩
    have hinv : VmInv (setVregion s pid idx w) :=
      vm_inv_cut h.base.vm pid idx start (start+len) w hgood hcut
    have hcalm : Calm (setVregion s pid idx w) := ⟨base_vregion h.base hinv,h.none⟩
    obtain ⟨s',hrun,hcalm',hv⟩ := unmap_calm hcalm pid start ((start+len)%2^64) det
    refine ⟨s',?_,hcalm',?_,?_⟩
    · unfold freeVaLocked freeVaWith
      rw [hfree,ok_bind]
      dsimp only
      rw [hrun,ok_bind]
      rfl
    · rw [region,hv]
      exact (region_set s pid idx w pid idx).trans (by rw [if_pos ⟨rfl,rfl⟩,hcut]; rfl)
    · intro p i hne
      rw [region,hv]
      exact (region_set s pid idx w p i).trans (if_neg hne)

lemma marked_calm {t : Soc} (h : Calm s) (hroom : ∀ b, (s.info b).nrFree ≠ 0)
    (hm : Marked pid idx s t) :
    Calm t ∧ covered (region t pid idx) = covered (region s pid idx) ∧
      ∀ p i, ¬(p = pid ∧ i = idx) → region t p i = region s p i := by
  obtain ⟨A,hgrown,hfull⟩ := hm
  have hA : A = ∅ := by
    apply Set.eq_empty_of_forall_notMem
    intro x hx
    exact hroom _ (hfull x hx).1
  refine ⟨⟨hgrown.base,?_⟩,?_,hgrown.other⟩
  · intro b
    apply List.eq_nil_iff_forall_not_mem.mpr
    intro ci hci
    rcases hgrown.new b ci hci with hci | ⟨hzero,-⟩
    · rw [h.none b] at hci
      cases hci
    · exact hroom b hzero
  · rw [hgrown.cover,hA,Set.union_empty]

end

section

def coverOf (s : Soc) (pid : ℕ) : Set ℕ :=
  {x | ∃ idx < nrVregions, x ∈ covered (region s pid idx)}

variable {s s' : Soc} {pid idx : ℕ}

lemma covered_index (h : VmInv s) {x : ℕ} (hx : x ∈ covered (region s pid idx)) :
    x/vregionSize = idx ∧ x < vregionToEndVa idx := by
  obtain ⟨r,hr,hlo,hhi⟩ := (mem_covered _ x).mp hx
  obtain ⟨h1,h2⟩ := h.inside pid idx r hr
  exact ⟨vregion_index (h1.trans hlo) (hhi.trans_le h2),hhi.trans_le h2⟩

lemma cover_cut {start stop : ℕ} (hse : start ≤ stop) (hidx : idx < nrVregions)
    (hcut : region s' pid idx = cut start stop (region s pid idx))
    (hother : ∀ p i, ¬(p = pid ∧ i = idx) → region s' p i = region s p i)
    (hown : ∀ i < nrVregions, i ≠ idx → ∀ x, start ≤ x → x < stop → x ∉ covered (region s pid i))
    (p : ℕ) : coverOf s' p = if p = pid then coverOf s p \ Set.Ico start stop else coverOf s p := by
  by_cases hp : p = pid
  · subst hp
    rw [if_pos rfl]
    ext x
    constructor
    · rintro ⟨i,hi,hx⟩
      by_cases hii : i = idx
      · rw [hii,hcut,covered_cut _ _ _ hse] at hx
        exact ⟨⟨idx,hidx,hx.1⟩,hx.2⟩
      · rw [hother p i (fun hc => hii hc.2)] at hx
        exact ⟨⟨i,hi,hx⟩,fun hr => hown i hi hii x hr.1 hr.2 hx⟩
    · rintro ⟨⟨i,hi,hx⟩,hr⟩
      refine ⟨i,hi,?_⟩
      by_cases hii : i = idx
      · rw [hii] at hx ⊢
        rw [hcut,covered_cut _ _ _ hse]
        exact ⟨hx,hr⟩
      · rw [hother p i (fun hc => hii hc.2)]
        exact hx
  · rw [if_neg hp]
    ext x
    have hsame : ∀ i, region s' p i = region s p i := fun i => hother p i (fun hc => hp hc.1)
    simp only [coverOf,hsame]

lemma cover_enter {A : Set ℕ} (hidx : idx < nrVregions)
    (hnew : covered (region s' pid idx) = covered (region s pid idx) ∪ A)
    (hother : ∀ p i, ¬(p = pid ∧ i = idx) → region s' p i = region s p i) (p : ℕ) :
    coverOf s' p = if p = pid then coverOf s p ∪ A else coverOf s p := by
  by_cases hp : p = pid
  · subst hp
    rw [if_pos rfl]
    ext x
    constructor
    · rintro ⟨i,hi,hx⟩
      by_cases hii : i = idx
      · rw [hii,hnew] at hx
        rcases hx with hx | hx
        · exact .inl ⟨idx,hidx,hx⟩
        · exact .inr hx
      · rw [hother p i (fun hc => hii hc.2)] at hx
        exact .inl ⟨i,hi,hx⟩
    · rintro (⟨i,hi,hx⟩ | hx)
      · refine ⟨i,hi,?_⟩
        by_cases hii : i = idx
        · rw [hii] at hx ⊢
          rw [hnew]
          exact .inl hx
        · rw [hother p i (fun hc => hii hc.2)]
          exact hx
      · exact ⟨idx,hidx,by rw [hnew]; exact .inr hx⟩
  · rw [if_neg hp]
    ext x
    have hsame : ∀ i, region s' p i = region s p i := fun i => hother p i (fun hc => hp hc.1)
    simp only [coverOf,hsame]

end

section

variable {s s' : Soc} {pid : ℕ}

lemma end_va_le {idx : ℕ} (hidx : idx < nrVregions) : vregionToEndVa idx ≤ 2^50 :=
  Nat.mul_le_mul_right vregionSize hidx

lemma piece_own (h : VmInv s) {start len i x : ℕ} (hi : i < nrVregions)
    (hlo : start ≤ x)
    (hhi : x < start+min (sub64 (vregionToEndVa (vaToVregionIndex start)) start) len)
    (hx : x ∈ covered (region s pid i)) : i = vaToVregionIndex start := by
  obtain ⟨hdiv,hend⟩ := covered_index h hx
  have hbound := end_va_le hi
  have hv : vregionSize = 1073741824 := rfl
  have hidx : vaToVregionIndex start = start/vregionSize := by
    unfold vaToVregionIndex
    rw [hv]
    omega
  rw [hidx] at hhi ⊢
  unfold vregionToEndVa sub64 at hhi
  rw [hv] at hdiv hhi ⊢
  omega

lemma free_va_cover {start len : ℕ} (h : Calm s) (hs : start < 2^64) (hl : len < 2^64)
    (hrun : freeVa s pid start len = .ok (s',0)) :
    Calm s' ∧ ∀ p, coverOf s' p =
      if p = pid then coverOf s p \ Set.Ico start (start+len) else coverOf s p := by
  -- the part of the range before `at_` is gone
  let I : ℕ → ℕ → Soc → Prop := fun at_ rest t => start ≤ at_ ∧ at_+rest = start+len ∧
    at_+rest < 2^64 ∧ Calm t ∧ ∀ p, coverOf t p =
      if p = pid then coverOf s p \ Set.Ico start at_ else coverOf s p
  have hpiece : PieceKeeps pid I fun _ => True := by
    rintro t u at_ rest err ⟨hle,hsum,hbound,hcalm,hcover⟩ hidx hz hfree
    have hpl := piece_le at_ rest
    rcases free_locked_calm hcalm pid (vaToVregionIndex at_) at_ (pieceLen at_ rest) hz (by omega)
      with ⟨-,hfail⟩ | ⟨-,w,hdone,hcalm',hcut,hother⟩
    · rw [hfail] at hfree
      cases hfree
      exact .inl ⟨by decide,trivial⟩
    · rw [hdone] at hfree
      cases hfree
      have hcover' := cover_cut (Nat.le_add_right at_ (pieceLen at_ rest)) hidx hcut hother
        fun i hi hne x hlo hhi hx => hne (piece_own hcalm.base.vm hi hlo hhi hx)
      refine .inr ⟨rfl,by omega,by omega,by omega,hcalm',fun p => ?_⟩
      rw [hcover' p,hcover p]
      split_ifs
      · rw [Set.sdiff_sdiff,Set.Ico_union_Ico_eq_Ico hle (by omega)]
      · rfl
  have hstart : ¬(start+len)%2^64 < start → I start len s := by
    intro hwrap
    refine ⟨le_rfl,rfl,by omega,h,fun p => ?_⟩
    rw [Set.Ico_self,Set.sdiff_empty]
    exact (ite_self _).symm
  rcases free_va_rule I (fun _ => True) (fun _ _ _ _ => trivial) hpiece trivial hstart hrun with
    ⟨hne,-⟩ | ⟨-,rest,hle,hsum,hbound,hcalm,hcover⟩
  · exact absurd rfl hne
  · have hword : (start+len)%2^64 = start+len := by omega
    rw [hword] at hcover
    exact ⟨hcalm,hcover⟩

lemma free_va_one {idx start len : ℕ} (hidx : idx < nrVregions) (hpos : len ≠ 0)
    (hlo : vregionToStartVa idx ≤ start) (hhi : start+len ≤ vregionToEndVa idx) :
    freeVa s pid start len = freeVaLocked s pid idx start len := by
  have hdiv := vregion_index hlo (show start < vregionToEndVa idx by omega)
  have hbound := end_va_le hidx
  have hn : nrVregions = 1048576 := rfl
  have hat : vaToVregionIndex start = idx := by
    unfold vaToVregionIndex
    rw [hdiv]
    omega
  have hstart : ¬(len = 0 ∨ start = 0) := by
    have := start_va_pos idx
    omega
  have hword : (start+len)%2^64 = start+len := by omega
  have hvlen : min (sub64 (vregionToEndVa idx) start) len = len := by
    rw [sub64_eq _ _ (by omega) (by omega)]
    omega
  unfold freeVa
  rw [if_neg hstart,hword,if_neg (by omega)]
  unfold freeVaLoop
  rw [hat,if_neg (by omega),hvlen]
  unfold freeVaVregion
  dsimp only
  cases hrun : freeVaLocked s pid idx start len with
  | error e => rfl
  | ok x =>
    rw [ok_bind,if_pos (.inr rfl)]
    rfl

end

inductive Call where
  | alloc (pid idx len vmFlags : ℕ)
  | free (pid start len : ℕ)
  deriving DecidableEq, Repr

inductive Event where
  | alloc (pid addr len : ℕ)
  | free (pid start len : ℕ)
  deriving DecidableEq, Repr

structure Tracked where
  soc : Soc
  log : List Event

/-- The abstract allocator: a set of addresses for every process. -/
def live : List Event → ℕ → Set ℕ
  | [], _ => ∅
  | .alloc p addr len::log, pid =>
      if pid = p then live log pid ∪ Set.Ico addr (addr+len) else live log pid
  | .free p start len::log, pid =>
      if pid = p then live log pid \ Set.Ico start (start+len) else live log pid

def exec (m : Tracked) : Call → Option Tracked
  | .alloc pid idx len vmFlags =>
      if idx < nrVregions then
        match allocVaVregion m.soc pid idx len vmFlags with
        | .error _ => none
        | .ok (s,a) => some ⟨s,if a = 0 then m.log else .alloc pid a (pageAlign len)::m.log⟩
      else none
  | .free pid start len =>
      match freeVa m.soc pid start len with
      | .ok (s,0) => some ⟨s,.free pid start len::m.log⟩
      | _ => none

def Roomy (m : Tracked) (c : Call) : Prop :=
  (∀ b, (m.soc.info b).nrFree ≠ 0) ∧ match c with
  | .alloc _ _ len _ => 1 ≤ len ∧ len ≤ vregionSize
  | .free _ start len => start < 2^64 ∧ len < 2^64 ∧ pageSize ∣ start ∧ pageSize ∣ len

structure SetInv (m : Tracked) : Prop where
  calm : Calm m.soc
  aligned : Aligned m.soc
  cover : ∀ pid, coverOf m.soc pid = live m.log pid

lemma alloc_cover {s s' : Soc} {pid idx len vmFlags a : ℕ} (h : Calm s) (ha : Aligned s)
    (hroom : ∀ b, (s.info b).nrFree ≠ 0) (hidx : idx < nrVregions) (hpos : 1 ≤ len)
    (hle : len ≤ vregionSize) (hrun : allocVaVregion s pid idx len vmFlags = .ok (s',a)) :
    Calm s' ∧ Aligned s' ∧ (a = 0 ∧ (∀ p, coverOf s' p = coverOf s p) ∨
      a ≠ 0 ∧ Fits s pid idx (pageAlign len) a ∧
        ∀ p, coverOf s' p = if p = pid then coverOf s p ∪ Set.Ico a (a+pageAlign len)
          else coverOf s p) := by
  have hround := le_page_align hle
  obtain ⟨hbase,hkeep⟩ := alloc_va_base h.base hidx (by omega) hrun
  have hal := hkeep ha
  rcases alloc_outcome pid vmFlags h.base ha hidx hpos hle with
    ⟨t,ht,-,heq⟩ | ⟨t,u,b,ht,hfit,hfit',he,heq⟩
  · rw [hrun] at heq
    cases heq
    obtain ⟨hcalm,hcov,hother⟩ := marked_calm h hroom ht
    refine ⟨⟨hbase,hcalm.none⟩,hal,.inl ⟨rfl,?_⟩⟩
    intro p
    have := cover_enter (A := ∅) hidx (by rw [hcov,Set.union_empty]) hother p
    rw [Set.union_empty,ite_self] at this
    exact this
  · rw [hrun] at heq
    cases heq
    obtain ⟨hcalm,hcov,hother⟩ := marked_calm h hroom ht
    obtain ⟨w,hfill⟩ := he.filled
    refine ⟨⟨hbase,?_⟩,hal,.inr ⟨fits_pos hfit,hfit,?_⟩⟩
    · intro b
      rw [hfill.conflicts b]
      exact hcalm.none b
    · apply cover_enter hidx
      · rw [he.region,covered_enter (region_sorted hcalm.base.vm pid idx) hfit'.at_.2.2 (by omega),
          hcov]
      · intro p i hne
        rw [he.other p i hne,hother p i hne]

lemma set_step {m u : Tracked} {c : Call} (h : SetInv m) (hok : Roomy m c)
    (hrun : exec m c = some u) : SetInv u := by
  obtain ⟨hroom,hc⟩ := hok
  cases c with
  | alloc pid idx len vmFlags =>
    unfold exec at hrun
    dsimp only at hrun
    split_ifs at hrun with hidx
    split at hrun
    · cases hrun
    · next s a halloc =>
      cases hrun
      obtain ⟨hcalm,hal,hcase⟩ := alloc_cover h.calm h.aligned hroom hidx hc.1 hc.2 halloc
      refine ⟨hcalm,hal,?_⟩
      intro p
      rcases hcase with ⟨hzero,hcov⟩ | ⟨hne,-,hcov⟩
      · rw [if_pos hzero,hcov p]
        exact h.cover p
      · rw [if_neg hne,hcov p,live,h.cover p]
  | free pid start len =>
    unfold exec at hrun
    dsimp only at hrun
    split at hrun
    · next s hfree =>
      cases hrun
      obtain ⟨hs,hl,hds,hdl⟩ := hc
      obtain ⟨hcalm,hcov⟩ := free_va_cover h.calm hs hl hfree
      refine ⟨hcalm,(free_va_base h.calm.base h.aligned hs hl hds hdl hfree).2,?_⟩
      intro p
      rw [hcov p,live,h.cover p]
    · cases hrun

def start : Tracked := ⟨bootSoc,[]⟩

lemma set_boot : SetInv start := by
  refine ⟨⟨state_boot.base,fun _ => rfl⟩,state_boot.aligned,?_⟩
  intro pid
  ext x
  constructor
  · rintro ⟨i,-,hx⟩
    rw [show region start.soc pid i = [] from region_boot pid i] at hx
    obtain ⟨f,r,hr,-⟩ := hx
    cases hr
  · intro hx
    cases hx

lemma run_set_inv {cs : List Call} {m : Tracked} (hok : Guarded exec Roomy cs start)
    (hrun : run exec cs start = some m) : SetInv m :=
  run_invariant exec Roomy SetInv (fun _ _ _ => set_step) cs start m set_boot hok hrun

/-- The areas cover what was allocated and not freed, and the next range is new. -/
theorem covered_refines (cs : List Call) (m : Tracked) (hok : Guarded exec Roomy cs start)
    (hrun : run exec cs start = some m) (pid : ℕ) :
    coverOf m.soc pid = live m.log pid ∧
      ∀ idx len vmFlags u a, Roomy m (.alloc pid idx len vmFlags) → idx < nrVregions →
        allocVaVregion m.soc pid idx len vmFlags = .ok (u,a) → a ≠ 0 →
        pageSize ∣ a ∧ vregionToStartVa idx ≤ a ∧ a+pageAlign len ≤ vregionToEndVa idx ∧
          Disjoint (Set.Ico a (a+pageAlign len)) (live m.log pid) := by
  have hinv := run_set_inv hok hrun
  refine ⟨hinv.cover pid,?_⟩
  intro idx len vmFlags u a hroomy hidx halloc hne
  obtain ⟨hroom,hlen⟩ := hroomy
  obtain ⟨-,-,⟨hzero,-⟩ | ⟨-,hfit,-⟩⟩ :=
    alloc_cover hinv.calm hinv.aligned hroom hidx hlen.1 hlen.2 halloc
  · exact absurd hzero hne
  · obtain ⟨hlo,hhi,hfree⟩ := hfit.at_
    refine ⟨hfit.aligned,hlo,hhi,?_⟩
    rw [← hinv.cover pid,Set.disjoint_left]
    rintro x ⟨hx1,hx2⟩ ⟨i,hi,hx⟩
    have hhere : i = idx := by
      rw [← (covered_index hinv.calm.base.vm hx).1]
      exact vregion_index (hlo.trans hx1) (hx2.trans_le hhi)
    rw [hhere] at hx
    exact (free_iff (region_sorted hinv.calm.base.vm pid idx) (by omega)).mp hfree x hx1 hx2 hx

lemma first_guarded : Guarded exec Roomy [.alloc 1 0 4194304 0] start := by
  refine ⟨⟨?_,by decide⟩,?_⟩
  · intro b
    show (16 : ℤ) ≠ 0
    decide
  · cases exec start (.alloc 1 0 4194304 0) <;> trivial

lemma exec_alloc_room {m u : Tracked} {pid idx len vmFlags : ℕ} (h : SetInv m)
    (hok : Roomy m (.alloc pid idx len vmFlags))
    (hexec : exec m (.alloc pid idx len vmFlags) = some u) (b : ℕ) :
    (m.soc.info b).nrFree ≤ (u.soc.info b).nrFree+1 := by
  simp only [exec] at hexec
  split_ifs at hexec with hidx
  split at hexec
  · cases hexec
  · next s' a hrun =>
    cases hexec
    exact alloc_room h.calm.base h.aligned hidx hok.2.1 hok.2.2 hrun b

def twoThenFree : List Call :=
  [.alloc 1 0 4194304 0,.alloc 1 0 4194304 0,.free 1 1069547520 4194304]

lemma freed_guarded : Guarded exec Roomy twoThenFree start := by
  refine ⟨first_guarded.1,?_⟩
  cases hm : exec start (.alloc 1 0 4194304 0) with
  | none => trivial
  | some m =>
    have hroom : ∀ b, 16 ≤ (m.soc.info b).nrFree+1 := exec_alloc_room set_boot first_guarded.1 hm
    have hok : Roomy m (.alloc 1 0 4194304 0) := ⟨fun b => by have := hroom b; omega,by decide⟩
    refine ⟨hok,?_⟩
    cases hu : exec m (.alloc 1 0 4194304 0) with
    | none => trivial
    | some u =>
      have hroom' := exec_alloc_room (set_step set_boot first_guarded.1 hm) hok hu
      refine ⟨⟨fun b => ?_,by decide⟩,by cases exec u _ <;> trivial⟩
      have := hroom b
      have := hroom' b
      omega

/-- Of two pages the first is freed again. -/
theorem covered_refines_freed :
    ∃ m, run exec twoThenFree start = some m ∧
      m.log = [.free 1 1069547520 4194304,.alloc 1 1065353216 4194304,
        .alloc 1 1069547520 4194304] ∧
      coverOf m.soc 1 = live m.log 1 := by
  obtain ⟨m,hm,hlog⟩ := exists_checked (run exec twoThenFree start)
    (fun m => m.log = [.free 1 1069547520 4194304,.alloc 1 1065353216 4194304,
      .alloc 1 1069547520 4194304]) (by decide +kernel)
  exact ⟨m,hm,hlog,(covered_refines twoThenFree m freed_guarded hm 1).1⟩

/-- A range of whole pages can be freed exactly if no area sticks out on both sides. -/
theorem free_alone_iff (cs : List Call) (m : Tracked) (hok : Guarded exec Roomy cs start)
    (hrun : run exec cs start = some m) (pid idx addr len : ℕ) (hidx : idx < nrVregions)
    (hpos : len ≠ 0) (hlo : vregionToStartVa idx ≤ addr) (hhi : addr+len ≤ vregionToEndVa idx) :
    (∃ s', freeVa m.soc pid addr len = .ok (s',0) ∧
      coverOf s' pid = coverOf m.soc pid \ Set.Ico addr (addr+len) ∧
      ∀ p, p ≠ pid → coverOf s' p = coverOf m.soc p) ↔
    ¬Inside addr (addr+len) (region m.soc pid idx) := by
  have hinv := run_set_inv hok hrun
  have hbound := end_va_le hidx
  have hone : freeVa m.soc pid addr len = freeVaLocked m.soc pid idx addr len :=
    free_va_one hidx hpos hlo hhi
  rcases free_locked_calm hinv.calm pid idx addr len hpos (by omega) with
    ⟨hin,hfail⟩ | ⟨hin,s',hfree,-⟩
  · rw [hone,hfail]
    constructor
    · rintro ⟨s',h,-⟩
      cases h
    · intro h
      exact absurd hin h
  · constructor
    · intro _
      exact hin
    · intro _
      rw [hfree] at hone
      obtain ⟨-,hcov⟩ := free_va_cover hinv.calm (by omega) (by omega) hone
      refine ⟨s',hone,?_,?_⟩
      · rw [hcov pid,if_pos rfl]
      · intro p hp
        rw [hcov p,if_neg hp]

/-- The allocation is freed, and a page below it, which no area has. -/
theorem free_alone_iff_first :
    ∃ m, run exec [.alloc 1 0 4194304 0] start = some m ∧ ∀ addr ∈ [1065353216,1069547520],
      ∃ s', freeVa m.soc 1 addr 4194304 = .ok (s',0) ∧
        coverOf s' 1 = coverOf m.soc 1 \ Set.Ico addr (addr+4194304) ∧
        ∀ p, p ≠ 1 → coverOf s' p = coverOf m.soc p := by
  obtain ⟨m,hm,hregion⟩ := exists_checked (run exec [.alloc 1 0 4194304 0] start)
    (fun m => region m.soc 1 0 = [⟨1069547520,1073741824,0⟩]) (by decide +kernel)
  refine ⟨m,hm,fun addr haddr => ?_⟩
  simp only [List.mem_cons,List.not_mem_nil,or_false] at haddr
  rcases haddr with rfl | rfl <;> exact (free_alone_iff _ m first_guarded hm 1 0 _ 4194304
    (by decide) (by decide) (by decide) (by decide)).mpr (by simp [hregion,Inside])

/-- Three neighbours become one area and the one in the middle cannot be freed. -/
theorem middle_not_freed :
    ∃ m, run exec [.alloc 1 0 4194304 0,.alloc 1 0 4194304 0,.alloc 1 0 4194304 0] start = some m ∧
      .alloc 1 1065353216 4194304 ∈ m.log ∧
      ∃ s', freeVa m.soc 1 1065353216 4194304 = .ok (s',-ENOMEM) := by
  obtain ⟨m,hm,hlog,hret⟩ := exists_checked
    (run exec [.alloc 1 0 4194304 0,.alloc 1 0 4194304 0,.alloc 1 0 4194304 0] start)
    (fun m => .alloc 1 1065353216 4194304 ∈ m.log ∧
      (freeVa m.soc 1 1065353216 4194304).toOption.any (fun x => x.2 = -ENOMEM)) (by decide +kernel)
  obtain ⟨⟨s',r⟩,hs',rfl⟩ := ok_checked _ _ hret
  exact ⟨m,hm,hlog,s',hs'⟩

end Clio.CoveredSet
