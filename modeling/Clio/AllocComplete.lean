import Clio.AllocReply

/-!
# When an allocation fails

An allocation fails exactly if every free range of the length meets a full bucket.
-/

namespace Clio.AllocComplete

open Function

open Ranges VmArea FindVaRange Pgtable Vm VmRegion VmFree
open Pte VmAlloc Board Machine Requests AllocReply

def Fails (s : Soc) (pid idx len vmFlags : ℕ) : Prop :=
  ∃ s', allocVaVregion s pid idx len vmFlags = .ok (s',0)

section

variable {s : Soc} {pid idx len vmFlags : ℕ}

lemma fails_iff (h : Base s) (ha : Aligned s) (hidx : idx < nrVregions) (hpos : 0 < len)
    (hle : len ≤ vregionSize) :
    Fails s pid idx len vmFlags ↔ ∀ a, ¬Fits s pid idx (pageAlign len) a := by
  rcases alloc_outcome pid vmFlags h ha hidx hpos hle with
    ⟨t,-,hno,hrun⟩ | ⟨t,s',a,-,hfit,-,-,hrun⟩
  · exact ⟨fun _ => hno,fun _ => ⟨_,hrun⟩⟩
  · refine ⟨?_,fun hno => absurd hfit (hno a)⟩
    rintro ⟨u,hu⟩
    rw [hrun] at hu
    cases hu
    exact absurd rfl (fits_pos hfit)

lemma free_round_up (ha : Aligned s) (hlen : pageSize ∣ len) {x : ℕ}
    (h : FreeAt (region s pid idx) (vregionToStartVa idx) (vregionToEndVa idx) len x) :
    ∃ y, FreeRange s pid idx len y ∧ x ≤ y ∧ y < x+pageSize := by
  obtain ⟨hlo,hhi,hmiss⟩ := h
  have hsize : pageSize = 4194304 := rfl
  obtain ⟨n,rfl⟩ := hlen
  have hup : ∀ c, pageSize ∣ c → x+pageSize*n ≤ c →
      (x+pageSize-1)/pageSize*pageSize+pageSize*n ≤ c := by
    rintro c ⟨k,rfl⟩ hc
    rw [hsize] at hc ⊢
    omega
  refine ⟨(x+pageSize-1)/pageSize*pageSize,⟨⟨?_,hup _ (dvd_end_va idx) hhi,?_⟩,dvd_mul_left _ _⟩,
    ?_,?_⟩
  · rw [hsize]
    omega
  · intro r hr
    rcases hmiss r hr with hbelow | habove
    · left
      rw [hsize]
      omega
    · exact .inr (hup _ (ha pid idx r hr).1 habove)
  · rw [hsize]
    omega
  · rw [hsize]
    omega

lemma full_bucket (h : PtInv s) {b : ℕ} (hfull : (s.info b).nrFree = 0) (i : Fin 16) :
    (s.shadow b i).allocated = true := by
  have hcard : (freeSlots s.shadow b).card = 0 := by
    have := h.free b
    omega
  by_contra hno
  have hmem : i ∈ freeSlots s.shadow b := by simpa [freeSlots] using hno
  rw [Finset.card_eq_zero.mp hcard] at hmem
  exact absurd hmem (Finset.notMem_empty i)

lemma full_of_fails (h : Base s) (ha : Aligned s) (hlen : pageSize ∣ len)
    (hno : ∀ a, ¬Fits s pid idx len a) {x : ℕ}
    (hx : FreeAt (region s pid idx) (vregionToStartVa idx) (vregionToEndVa idx) len x) :
    ∃ p, pageSize ∣ p ∧ x < p+pageSize ∧ p < x+len ∧
      ∀ i, (s.shadow (addrToBucketIndex p) i).allocated = true := by
  obtain ⟨y,hy,hxy,hyx⟩ := free_round_up ha hlen hx
  have hfull : ∃ p ∈ pages y (y+len), (s.info (addrToBucketIndex p)).nrFree = 0 := by
    by_contra hroom
    push Not at hroom
    exact hno y ⟨hy,hroom⟩
  obtain ⟨p,hp,hfull⟩ := hfull
  obtain ⟨k,rfl,hlt⟩ := (mem_pages _ _ _).mp hp
  obtain ⟨n,rfl⟩ := hlen
  have hsize : pageSize = 4194304 := rfl
  refine ⟨_,dvd_add hy.aligned (dvd_mul_left _ _),by omega,?_,full_bucket h.pt hfull⟩
  rw [hsize] at hlt hyx ⊢
  omega

end

/-- An allocation ends, and returns 0 only if every free range meets a full bucket. -/
theorem alloc_ends_complete (ops : List Teardown.Op) (m : State)
    (hok : Guarded Teardown.exec WellFormed ops boot) (hrun : run Teardown.exec ops boot = some m)
    (pid idx len vmFlags : ℕ) (hidx : idx < nrVregions) (hpos : 0 < len) (hlen : pageSize ∣ len)
    (hle : len ≤ vregionSize) :
    ∃ s' a, allocVaVregion m.soc pid idx len vmFlags = .ok (s',a) ∧
      (a = 0 → ∀ x,
        FreeAt (region m.soc pid idx) (vregionToStartVa idx) (vregionToEndVa idx) len x →
        ∃ p, pageSize ∣ p ∧ x < p+pageSize ∧ p < x+len ∧
          ∀ i, (m.soc.shadow (addrToBucketIndex p) i).allocated = true) := by
  have hinv : StateInv m := run_invariant Teardown.exec WellFormed StateInv
    (fun _ _ _ => state_step) ops boot m state_boot hok hrun
  have hround : pageAlign len = len := by
    obtain ⟨n,rfl⟩ := hlen
    have hv : vregionSize = 1073741824 := rfl
    have hp : pageSize = 4194304 := rfl
    unfold pageAlign
    rw [hv,hp] at hle
    rw [hp]
    omega
  rcases alloc_outcome pid vmFlags hinv.base hinv.aligned hidx hpos hle with
    ⟨t,-,hno,halloc⟩ | ⟨t,s',a,-,hfit,-,-,halloc⟩
  · rw [hround] at hno
    exact ⟨_,0,halloc,fun _ x hx => full_of_fails hinv.base hinv.aligned hlen hno hx⟩
  · exact ⟨s',a,halloc,fun hzero => absurd hzero (fits_pos hfit)⟩

/-- A page of vRegion 1 is taken, and a request for all of it is refused. -/
theorem alloc_ends_complete_taken :
    ∃ m s', run Teardown.exec [.request (.alloc 1 1 pageSize 0)] boot = some m ∧
      allocVaVregion m.soc 1 1 vregionSize 0 = .ok (s',0) ∧
      ∀ x, FreeAt (region m.soc 1 1) (vregionToStartVa 1) (vregionToEndVa 1) vregionSize x →
        ∃ p, pageSize ∣ p ∧ x < p+pageSize ∧ p < x+vregionSize ∧
          ∀ i, (m.soc.shadow (addrToBucketIndex p) i).allocated = true := by
  obtain ⟨m,hm,hzero⟩ := exists_checked (run Teardown.exec [.request (.alloc 1 1 pageSize 0)] boot)
    (fun m => (allocVaVregion m.soc 1 1 vregionSize 0).toOption.any (fun x => x.2 = 0))
    (by decide +kernel)
  obtain ⟨⟨s',a⟩,hs',rfl⟩ := ok_checked _ _ hzero
  obtain ⟨u,b,hu,hall⟩ := alloc_ends_complete [.request (.alloc 1 1 pageSize 0)] m
    ⟨(by decide : pageAlign pageSize ≠ 0),by cases Teardown.exec boot _ <;> trivial⟩ hm
    1 1 vregionSize 0 (by decide) (by decide) (by decide) (by decide)
  cases hs'.symm.trans hu
  exact ⟨m,s',hm,hs',hall rfl⟩

/-- After a free of 4096 bytes the highest free page is not aligned and the allocator gives up. -/
theorem unaligned_free_blocks :
    ∃ m, run Teardown.exec [.request (.alloc 1 1 pageSize 0),.request (.free 1 0x7fc00000 4096)]
        boot = some m ∧
      (∃ s', allocVaVregion m.soc 1 1 pageSize 0 = .ok (s',0)) ∧
      FreeAt (region m.soc 1 1) (vregionToStartVa 1) (vregionToEndVa 1) pageSize 0x7f800000 ∧
      ∀ i, (m.soc.shadow (addrToBucketIndex 0x7f800000) i).allocated = false := by
  obtain ⟨m,hm,hzero,hfree,hroom⟩ := exists_checked (run Teardown.exec
      [.request (.alloc 1 1 pageSize 0),.request (.free 1 0x7fc00000 4096)] boot) (fun m : State =>
    (allocVaVregion m.soc 1 1 pageSize 0).toOption.any (fun x => x.2 = 0) ∧
      (∀ r ∈ region m.soc 1 1, r.hi ≤ 0x7f800000 ∨ 0x7f800000+pageSize ≤ r.lo) ∧
      ∀ i, (m.soc.shadow (addrToBucketIndex 0x7f800000) i).allocated = false) (by decide +kernel)
  obtain ⟨⟨s',a⟩,hs',rfl⟩ := ok_checked _ _ hzero
  exact ⟨m,hm,⟨s',hs'⟩,⟨by decide,by decide,hfree⟩,hroom⟩

section

variable {s s' : Soc} {pid idx len vmFlags : ℕ}

lemma scan_loop_spec (pid vmFlags : ℕ) (hpos : 0 < len) (hle : len ≤ vregionSize) (n i : ℕ)
    (s : Soc) (h : Base s) (ha : Aligned s) (hn : i+n = nrVregions) :
    ∃ s' a, allocVaLoop pid len vmFlags n i s = .ok (s',a) ∧
      (a = errEnomem ↔ ∀ j, i ≤ j → j < nrVregions → ∀ x, ¬Fits s pid j (pageAlign len) x) := by
  induction n generalizing i s with
  | zero => exact ⟨s,errEnomem,rfl,by simp; omega⟩
  | succ n ih =>
    rw [allocVaLoop]
    rcases alloc_outcome pid vmFlags h ha (show i < nrVregions by omega) hpos hle with
      ⟨t,ht,hno,hrun⟩ | ⟨t,u,a,-,hfit,-,-,hrun⟩
    · obtain ⟨hb,hk⟩ := marked_base ht
      obtain ⟨s',a,hloop,hiff⟩ := ih (i+1) { t with cachedVregionStart := t.cachedVregionStart+1 }
        (base_cached hb _) (hk ha) (by omega)
      refine ⟨s',a,?_,hiff.trans ?_⟩
      · rw [hrun,ok_bind]
        exact (if_neg (by simp)).trans hloop
      · -- what fails here does not change the others
        constructor
        · intro hall j hij hj x
          by_cases hji : j = i
          · rw [hji]
            exact hno x
          · rw [← fits_marked_other ht hji,← fits_cached]
            exact hall j (by omega) hj x
        · intro hall j hij hj x
          rw [fits_cached,fits_marked_other ht (by omega)]
          exact hall j (by omega) hj x
    · have herr := alloc_va_not_err hrun
      refine ⟨u,a,?_,?_⟩
      · rw [hrun,ok_bind]
        exact if_pos ⟨fits_pos hfit,herr⟩
      · constructor
        · rintro rfl
          exact absurd (show isErrValue errEnomem by decide) herr
        · intro hall
          exact absurd hfit (hall i le_rfl (by omega) a)

lemma scan_loop_base (hpos : pageAlign len ≠ 0) (n i : ℕ) (s : Soc) (h : Base s) (ha : Aligned s)
    (hn : i+n = nrVregions) {a : ℕ} (hrun : allocVaLoop pid len vmFlags n i s = .ok (s',a)) :
    Base s' ∧ Aligned s' := by
  induction n generalizing i s with
  | zero =>
    cases hrun
    exact ⟨h,ha⟩
  | succ n ih =>
    rw [allocVaLoop] at hrun
    obtain ⟨⟨t,b⟩,ht,hrest⟩ := (bind_ok_iff _ _ _).mp hrun
    obtain ⟨hb,hal⟩ := alloc_va_base h (show i < nrVregions by omega) hpos ht
    dsimp only at hrest
    split_ifs at hrest
    · cases hrest
      exact ⟨hb,hal ha⟩
    · exact ih (i+1) t hb (hal ha) (by omega) hrest

lemma alloc_va_eq (hpos : 0 < len) (hle : len ≤ vregionSize) :
    allocVa s pid len vmFlags = allocVaLoop pid len vmFlags
      (nrVregions-s.cachedVregionStart%nrVregions) (s.cachedVregionStart%nrVregions) s := by
  have hone : (len+vregionSize-1)%2^64/vregionSize%2^32 = 1 := by
    have hv : vregionSize = 1073741824 := rfl
    rw [hv] at hle ⊢
    omega
  rw [allocVa,if_neg (by omega),if_neg (not_not_intro hone)]

end

inductive Op where
  | board (op : Teardown.Op)
  | scan (pid len vmFlags : ℕ)

def exec (m : State) : Op → Option State
  | .board op => Teardown.exec m op
  | .scan pid len vmFlags =>
      if m.refcount pid = none then some m
      else (allocVa m.soc pid len vmFlags).toOption.map fun x => { m with soc := x.1 }

def Regular (m : State) : Op → Prop
  | .board op => WellFormed m op
  | .scan _ len _ => len = 0 ∨ pageAlign len ≠ 0

lemma op_step {m u : State} {op : Op} (h : StateInv m) (hok : Regular m op)
    (hrun : exec m op = some u) : StateInv u := by
  cases op with
  | board op => exact state_step h hok hrun
  | scan pid len vmFlags =>
    dsimp only [exec] at hrun
    split_ifs at hrun
    · exact Option.some.inj hrun ▸ h
    · cases ha : allocVa m.soc pid len vmFlags with
      | error e =>
        rw [ha] at hrun
        cases hrun
      | ok x =>
        rw [ha] at hrun
        cases hrun
        unfold allocVa at ha
        split_ifs at ha with hz
        · cases ha
          exact h
        · have hlt := Nat.mod_lt m.soc.cachedVregionStart (show 0 < nrVregions by decide)
          obtain ⟨hb,hal⟩ := scan_loop_base (hok.resolve_left hz) _ _ m.soc h.base h.aligned
            (by omega) ha
          exact ⟨hb,hal,h.fifo⟩

lemma state_run {ops : List Op} {m : State} (hok : Guarded exec Regular ops boot)
    (hrun : run exec ops boot = some m) : StateInv m :=
  run_invariant exec Regular StateInv (fun _ _ _ => op_step) ops boot m state_boot hok hrun

/-- A failed scan is complete exactly if a vRegion above the cursor fits or none below does. -/
theorem scan_complete_iff (ops : List Op) (m : State) (hok : Guarded exec Regular ops boot)
    (hrun : run exec ops boot = some m) (pid len vmFlags : ℕ) (hpos : 1 ≤ len)
    (hle : len ≤ vregionSize) :
    ∃ s' a, allocVa m.soc pid len vmFlags = .ok (s',a) ∧
      ((a = errEnomem → ∀ idx < nrVregions, Fails m.soc pid idx len vmFlags) ↔
        ((∃ idx, m.soc.cachedVregionStart%nrVregions ≤ idx ∧ idx < nrVregions ∧
            ¬Fails m.soc pid idx len vmFlags) ∨
          ∀ idx < m.soc.cachedVregionStart%nrVregions, Fails m.soc pid idx len vmFlags)) := by
  have hinv := state_run hok hrun
  have hlt := Nat.mod_lt m.soc.cachedVregionStart (show 0 < nrVregions by decide)
  have hfails : ∀ idx < nrVregions, Fails m.soc pid idx len vmFlags ↔
      ∀ x, ¬Fits m.soc pid idx (pageAlign len) x :=
    fun idx hidx => fails_iff hinv.base hinv.aligned hidx hpos hle
  rw [alloc_va_eq hpos hle]
  generalize m.soc.cachedVregionStart%nrVregions = first at hlt ⊢
  obtain ⟨s',a,hloop,hiff⟩ := scan_loop_spec pid vmFlags hpos hle
    (nrVregions-first) first m.soc hinv.base hinv.aligned (by omega)
  have htried : a = errEnomem ↔ ∀ j, first ≤ j → j < nrVregions → Fails m.soc pid j len vmFlags :=
    hiff.trans (forall_congr' fun j => forall_congr' fun _ => forall_congr' fun hj =>
      (hfails j hj).symm)
  refine ⟨s',a,hloop,?_⟩
  rw [htried]
  constructor
  · intro hcomplete
    by_cases hserved : ∃ idx, first ≤ idx ∧ idx < nrVregions ∧ ¬Fails m.soc pid idx len vmFlags
    · exact .inl hserved
    · push Not at hserved
      exact .inr fun idx hidx => hcomplete hserved idx (by omega)
  · rintro (⟨idx,hlo,hhi,hserve⟩ | hbelow) hall
    · exact absurd (hall idx hlo hhi) hserve
    · intro idx hidx
      by_cases hi : idx < first
      · exact hbelow idx hi
      · exact hall idx (by omega) hidx

/-- A request that vRegion 0 refuses has moved the cursor on. -/
theorem scan_complete_moved :
    ∃ m, run exec [.board (.request (.alloc 1 0 vregionSize 0))] boot = some m ∧
      m.soc.cachedVregionStart = 1 ∧ ∃ s' a, allocVa m.soc 1 5 0 = .ok (s',a) ∧
        ((a = errEnomem → ∀ idx < nrVregions, Fails m.soc 1 idx 5 0) ↔
          ((∃ idx, m.soc.cachedVregionStart%nrVregions ≤ idx ∧ idx < nrVregions ∧
              ¬Fails m.soc 1 idx 5 0) ∨
            ∀ idx < m.soc.cachedVregionStart%nrVregions, Fails m.soc 1 idx 5 0)) := by
  obtain ⟨m,hm,hcursor⟩ := exists_checked
    (run exec [.board (.request (.alloc 1 0 vregionSize 0))] boot)
    (fun m => m.soc.cachedVregionStart = 1) (by decide +kernel)
  exact ⟨m,hm,hcursor,scan_complete_iff [.board (.request (.alloc 1 0 vregionSize 0))] m
    ⟨(by decide : pageAlign vregionSize ≠ 0),by cases exec boot _ <;> trivial⟩ hm 1 5 0
    (by decide) (by decide)⟩

section

variable {m : State} {s : Soc} {pid idx len vmFlags : ℕ}

lemma alloc_no_room (vmFlags : ℕ) (h : Base s) (hidx : idx < nrVregions) (hpos : 0 < len)
    (hle : len ≤ vregionSize)
    (hno : ∀ a, ¬FreeAt (region s pid idx) (vregionToStartVa idx) (vregionToEndVa idx)
      (pageAlign len) a) :
    allocVaVregion s pid idx len vmFlags =
      .ok ({ s with cachedVregionStart := s.cachedVregionStart+1 },0) := by
  obtain ⟨addr,hfind,hspec⟩ := find_va_range_exact (h.vm.good pid idx) (h.vm.topdown pid idx) hidx
    (hpos.trans_le (le_page_align hle)) (page_align_le hle)
    (fun r hr => (h.vm.inside pid idx r hr).2)
  obtain ⟨rfl,-⟩ := hspec.resolve_right fun hfree => hno addr hfree.1
  rw [allocVaVregion,if_neg (page_align_le hle).not_gt,retries,allocRetry,hfind,ok_bind,
    if_pos (by decide)]
  rfl

lemma first_short (l : List (Range ℕ)) (a : ℕ) :
    ¬FreeAt l (vregionToStartVa 0) (vregionToEndVa 0) (pageAlign vregionSize) a := by
  rintro ⟨hlo,hhi,-⟩
  have hstart : vregionToStartVa 0 = 0x1000 := rfl
  have hend : vregionToEndVa 0 = pageAlign vregionSize := by decide
  omega

lemma whole_first (h : StateInv m) (hp : m.refcount 1 = some 1) (hlive : m.dead = false) :
    exec m (.board (.request (.alloc 1 0 vregionSize 0))) = some { m with soc := { m.soc with
        cachedVregionStart := m.soc.cachedVregionStart+1 } } := by
  have hopen := open_proc_inv h 1
  have hsoc : (openProc m 1).soc = m.soc := by
    rcases (open_proc_cases m 1).2 with ⟨-,hsoc⟩ | ⟨hnone,-⟩
    · exact hsoc
    · rw [hp] at hnone
      cases hnone
  have halloc := alloc_no_room 0 hopen.base (show 0 < nrVregions by decide)
    (show 0 < vregionSize by decide) le_rfl (first_short (region (openProc m 1).soc 1 0))
  have hput : putProcInfo { openProc m 1 with soc := { m.soc with
      cachedVregionStart := m.soc.cachedVregionStart+1 } } 1 = { m with soc := { m.soc with
        cachedVregionStart := m.soc.cachedVregionStart+1 } } := by
    have hcount : update (update m.refcount 1 (some 2)) 1 (some 1) = m.refcount := by
      rw [update_idem,← hp,update_eq_self]
    simp [openProc,getProcByPid,hp,putProcInfo,setRefcount,hcount]
  rw [hsoc] at halloc
  show (if m.dead then none else ((handleAlloc m 1 0 vregionSize 0).map Prod.fst).toOption) = _
  rw [if_neg (by simp [hlive]),handle_alloc_eq (by decide),hsoc,halloc,ok_bind]
  show some (putProcInfo { openProc m 1 with soc := _ } 1) = _
  rw [hput]

lemma whole_first_run (n : ℕ) (h : StateInv m) (hp : m.refcount 1 = some 1)
    (hlive : m.dead = false) :
    run exec (List.replicate n (.board (.request (.alloc 1 0 vregionSize 0)))) m =
        some { m with soc := { m.soc with
          cachedVregionStart := m.soc.cachedVregionStart+n } } ∧
      Guarded exec Regular (List.replicate n (.board (.request (.alloc 1 0 vregionSize 0)))) m := by
  induction n generalizing m with
  | zero => exact ⟨rfl,trivial⟩
  | succ n ih =>
    have hstep := whole_first h hp hlive
    have hok : Regular m (.board (.request (.alloc 1 0 vregionSize 0))) := by
      show pageAlign vregionSize ≠ 0
      decide
    obtain ⟨hrest,hguard⟩ := ih (op_step h hok hstep) hp hlive
    rw [List.replicate_succ]
    constructor
    · rw [run,hstep,Option.bind_some,hrest]
      show some { m with soc := { m.soc with
        cachedVregionStart := m.soc.cachedVregionStart+1+n } } = _
      rw [Nat.add_assoc,Nat.add_comm 1 n]
    · exact ⟨hok,by rw [hstep]; exact hguard⟩

end

lemma page_in_last : ∃ u a,
    allocVaVregion (openProc boot 1).soc 1 (nrVregions-1) pageSize 0 = .ok (u,a) ∧
      u.cachedVregionStart = 0 ∧ region u 1 1 = [] ∧ (∀ b, (u.info b).nrFree ≠ 0) ∧
      vregionToStartVa (nrVregions-1) ≤ a ∧ a < vregionToEndVa (nrVregions-1) ∧
      a ∈ covered (region u 1 (nrVregions-1)) := by
  have hopen := open_proc_inv state_boot 1
  have hempty : ∀ idx, region (openProc boot 1).soc 1 idx = [] := fun _ => good_init.2
  have hfits : Fits (openProc boot 1).soc 1 (nrVregions-1) (pageAlign pageSize)
      ((nrVregions-1)*vregionSize) := by
    refine ⟨⟨⟨by decide,by decide,?_⟩,by decide⟩,fun p _ => ?_⟩
    · rw [hempty]
      exact fun r hr => absurd hr List.not_mem_nil
    · show (16 : ℤ) ≠ 0
      decide
  have hsize : pageAlign pageSize = 4194304 := by decide
  rcases alloc_outcome 1 0 hopen.base hopen.aligned (show nrVregions-1 < nrVregions by decide)
    page_size_pos (show pageSize ≤ vregionSize by decide) with
    ⟨t,-,hno,-⟩ | ⟨t,u,a,hmarked,hfit,hfit',he,halloc⟩
  · exact absurd hfits (hno _)
  have hfree := hfit'.at_.2.2
  obtain ⟨A,hgrown,-⟩ := hmarked
  obtain ⟨w,hfill⟩ := he.filled
  obtain ⟨hlo,hhi,-⟩ := hfit.at_
  refine ⟨u,a,halloc,?_,?_,?_,hlo,by omega,?_⟩
  · rw [hfill.frame]
    show t.cachedVregionStart = 0
    rw [hgrown.frame]
    rfl
  · rw [he.other 1 1 (by decide),hgrown.other 1 1 (by decide),hempty]
  · intro b
    have hroom : 16 ≤ (u.info b).nrFree+1 :=
      alloc_room hopen.base hopen.aligned (by decide) page_size_pos (by decide) halloc b
    omega
  · rw [he.region,covered_enter (region_sorted hgrown.base.vm 1 (nrVregions-1)) hfree (by omega)]
    exact .inr ⟨le_rfl,by omega⟩

/-- The cursor stands in the last vRegion and the scan fails, though the second one is free. -/
theorem room_behind_cursor :
    ∃ ops m, Guarded exec Regular ops boot ∧ run exec ops boot = some m ∧
      (∃ s', allocVa m.soc 1 vregionSize 0 = .ok (s',errEnomem)) ∧
      ¬Fails m.soc 1 1 vregionSize 0 := by
  obtain ⟨u,a,halloc,hcached,hempty,hroom,hlo,hhi,hpage⟩ := page_in_last
  have hstep : exec boot (.board (.request (.alloc 1 (nrVregions-1) pageSize 0))) =
      some (putProcInfo { openProc boot 1 with soc := u } 1) := by
    show (((handleAlloc boot 1 (nrVregions-1) pageSize 0).map Prod.fst).toOption) = _
    rw [handle_alloc_eq (by decide),halloc,ok_bind]
    rfl
  have hok : Regular boot (.board (.request (.alloc 1 (nrVregions-1) pageSize 0))) := by
    show pageAlign pageSize ≠ 0
    decide
  have hinv := op_step state_boot hok hstep
  obtain ⟨hrest,hguard⟩ := whole_first_run (nrVregions-1) hinv rfl rfl
  have hsoc := put_proc_soc { openProc boot 1 with soc := u } 1
  generalize putProcInfo { openProc boot 1 with soc := u } 1 = n at hstep hinv hrest hguard hsoc
  obtain rfl : n.soc = u := hsoc
  have hrun : run exec (.board (.request (.alloc 1 (nrVregions-1) pageSize 0))::List.replicate
      (nrVregions-1) (.board (.request (.alloc 1 0 vregionSize 0)))) boot = some { n with
        soc := { n.soc with cachedVregionStart := n.soc.cachedVregionStart+(nrVregions-1) } } := by
    rw [run,hstep,Option.bind_some,hrest]
  have hguarded : Guarded exec Regular (.board (.request (.alloc 1 (nrVregions-1) pageSize 0))::
      List.replicate (nrVregions-1) (.board (.request (.alloc 1 0 vregionSize 0)))) boot :=
    ⟨hok,by rw [hstep]; exact hguard⟩
  have hinv2 := state_run hguarded hrun
  refine ⟨_,_,hguarded,hrun,?_,?_⟩
  · -- the scan looks at the last vRegion only, and a whole one does not fit there
    rw [alloc_va_eq (by decide) le_rfl]
    have hfirst : (n.soc.cachedVregionStart+(nrVregions-1))%nrVregions = nrVregions-1 := by
      rw [hcached]
      decide
    have hno : ∀ x, ¬FreeAt (region n.soc 1 (nrVregions-1)) (vregionToStartVa (nrVregions-1))
        (vregionToEndVa (nrVregions-1)) (pageAlign vregionSize) x := by
      rintro x ⟨hxlo,hxhi,hmiss⟩
      have hsize : vregionToEndVa (nrVregions-1) =
          vregionToStartVa (nrVregions-1)+pageAlign vregionSize := by decide
      have hpos : 0 < pageAlign vregionSize := by decide
      exact (free_iff (region_sorted hinv.base.vm 1 (nrVregions-1)) (by omega)).mp hmiss a
        (by omega) (by omega) hpage
    have hfail := alloc_no_room 0 hinv2.base (show nrVregions-1 < nrVregions by decide)
      (show 0 < vregionSize by decide) le_rfl hno
    dsimp only at hfail ⊢
    rw [hfirst,show nrVregions-(nrVregions-1) = 0+1 by decide,allocVaLoop,hfail,ok_bind]
    exact ⟨_,(if_neg (by simp)).trans rfl⟩
  · rw [fails_iff hinv2.base hinv2.aligned (by decide) (by decide) le_rfl]
    intro hnone
    refine hnone vregionSize ⟨⟨⟨by decide,by decide,?_⟩,by decide⟩,fun p _ => hroom _⟩
    show ∀ r ∈ region n.soc 1 1, _
    rw [hempty]
    exact fun r hr => absurd hr List.not_mem_nil

end Clio.AllocComplete
