import Clio.Board
import Clio.Footprint
import Clio.VmAlloc

/-!
# Closing a process

Dropping the last reference takes a process out of the hash table.
-/

namespace Clio.Teardown

open Function

open VmArea Buddy Pgtable Vm Board Footprint Machine Pte VmAlloc VmFree

def Carries (pid : ℕ) (pte : LegoMemPte) : Prop :=
  pte.allocated = true ∧ pte.tag/2^44 = pid%2^16

instance (pid : ℕ) (pte : LegoMemPte) : Decidable (Carries pid pte) := by
  unfold Carries
  infer_instance

/-- Nothing in the tables belongs to the process. -/
structure Clean (pid : ℕ) (s : Soc) : Prop where
  shadow : ∀ b i, ¬Carries pid (s.shadow b i)
  fpga : ∀ b i, ¬Carries pid (s.fpga b i)
  conflicts : ∀ b, ∀ ci ∈ (s.info b).conflicts, ci.pid ≠ pid

section

variable {s s' : Soc} {pid other : ℕ}

lemma not_carries_cleared (pid ppa : ℕ) (valid : Bool) (tag : ℕ) :
    ¬Carries pid ⟨ppa,false,valid,tag⟩ := by
  rintro ⟨h,-⟩
  cases h

lemma not_carries_set {t : Table} {b : ℕ} {i : Fin 16} {pte : LegoMemPte}
    (h : ∀ c j, ¬Carries pid (t c j)) (hpte : ¬Carries pid pte) (c : ℕ) (j : Fin 16) :
    ¬Carries pid (setPte t b i pte c j) := by
  rw [pte_set]
  split
  · exact hpte
  · exact h c j

lemma clean_shrinks (pid : ℕ) : Shrinks (Clean pid) where
  vregion _ _ _ _ h := ⟨h.shadow,h.fpga,h.conflicts⟩
  info s b info hsub h := by
    refine ⟨h.shadow,h.fpga,?_⟩
    intro c ci hci
    by_cases hc : c = b
    · subst hc
      simp only [setInfo,update_self] at hci
      exact h.conflicts c ci (hsub hci)
    · simp only [setInfo,update_of_ne hc] at hci
      exact h.conflicts c ci hci
  shadow s b i ppa h :=
    ⟨not_carries_set h.shadow (not_carries_cleared pid ppa false 0),h.fpga,h.conflicts⟩
  fpga s b i s' h hrun := by
    unfold zapPte at hrun
    dsimp only at hrun
    split_ifs at hrun
    · obtain ⟨zone,-,hpure⟩ := (bind_ok_iff _ _ _).mp hrun
      cases hpure
      exact ⟨h.shadow,not_carries_set h.fpga (not_carries_cleared pid 0 false 0),h.conflicts⟩
    · cases hrun
      exact ⟨h.shadow,not_carries_set h.fpga (not_carries_cleared pid _ _ 0),h.conflicts⟩
    · cases hrun
      exact h

lemma tag_pid (pid addr : ℕ) (h : addr < 2^64) : generateTag pid addr/2^44 = pid%2^16 := by
  have hlow : addr/2^20 < 2^44 := by omega
  unfold generateTag
  rw [Nat.mul_add_div (by norm_num),Nat.div_eq_of_lt hlow,Nat.add_zero]

lemma clean_alloc_pte {addr vmFlags : ℕ} (h : Clean other s) (hne : pid%2^16 ≠ other%2^16)
    (haddr : addr < 2^64) (hrun : allocPte s pid addr vmFlags = .ok s') : Clean other s' := by
  have htag : ∀ ppa a v, ¬Carries other ⟨ppa,a,v,generateTag pid addr⟩ := by
    rintro ppa a v ⟨-,htag⟩
    exact hne ((tag_pid pid addr haddr).symm.trans htag)
  unfold allocPte at hrun
  cases hslot : allocOneShadowPte s pid addr with
  | none =>
    rw [hslot] at hrun
    cases hrun
    exact h
  | some x =>
    obtain ⟨t,i⟩ := x
    rw [hslot] at hrun
    dsimp only at hrun
    -- the shadow entry is taken for the page
    obtain ⟨ht,hslot⟩ : Clean other t ∧
        (t.shadow (addrToBucketIndex addr) i).tag = generateTag pid addr := by
      unfold allocOneShadowPte at hslot
      obtain ⟨j,-,heq⟩ := Option.map_eq_some_iff.mp hslot
      cases heq
      have hinfo := (clean_shrinks other).info s (addrToBucketIndex addr)
        { s.info (addrToBucketIndex addr) with
          nrFree := (s.info (addrToBucketIndex addr)).nrFree-1 } (fun _ h => h) h
      exact ⟨⟨not_carries_set h.shadow (htag _ _ _),h.fpga,hinfo.conflicts⟩,by simp [setPte]⟩
    have hset : ∀ (zone : FpgaZone) (pte : LegoMemPte), pte.tag = generateTag pid addr →
        Clean other (setFpga { t with zone := zone } (addrToBucketIndex addr) i pte) := by
      intro zone pte hpte
      refine ⟨ht.shadow,not_carries_set ht.fpga ?_,ht.conflicts⟩
      rintro ⟨-,hc⟩
      rw [hpte] at hc
      exact hne ((tag_pid pid addr haddr).symm.trans hc)
    unfold allocOneFpgaPte at hrun
    dsimp only at hrun
    split_ifs at hrun
    · cases hrun
      exact ht
    · obtain ⟨⟨zone,free⟩,-,hrest⟩ := (bind_ok_iff _ _ _).mp hrun
      dsimp only at hrest
      split_ifs at hrest
      · cases hrest
        exact hset zone _ hslot
      · cases hrest
        exact hset zone _ hslot
    · cases hrun
      exact hset t.zone _ hslot

lemma clean_alloc {idx len vmFlags a : ℕ} (h : Clean other s) (hne : pid%2^16 ≠ other%2^16)
    (hrun : allocVaVregion s pid idx len vmFlags = .ok (s',a)) : Clean other s' := by
  unfold allocVaVregion at hrun
  dsimp only at hrun
  split_ifs at hrun
  have hins : ∀ (s : Soc) (b : ℕ) (ci : ConflictInfo), Clean other s → (s.info b).nrFree = 0 →
      ci.pid = pid →
      Clean other (setInfo s b { s.info b with conflicts := ci::(s.info b).conflicts
                                               nrConflicts := (s.info b).nrConflicts+1 }) := by
    intro s b ci h _ hci
    refine ⟨h.shadow,h.fpga,fun c cj hcj => ?_⟩
    rcases mem_set_conflicts.mp hcj with hcj | ⟨rfl,rfl⟩
    · exact h.conflicts c cj hcj
    · rintro rfl
      exact hne (by rw [hci])
  rcases alloc_retry_keeps (shrinks_keeps (clean_shrinks other)) hins h hrun with
    ⟨hs',-⟩ | ⟨_,t,-,ht,htaken⟩
  · exact hs'
  · refine foldlM_preserves _ (Clean other) _ ?_ t s' ht htaken.entries
    intro u addr u' hmem hu hstep
    obtain ⟨k,-,hlt⟩ := (mem_pages _ _ _).mp hmem
    exact clean_alloc_pte hu hne (end_va_bound htaken.index (hlt.le.trans htaken.high)) hstep

end

section

inductive Op where
  | request (r : Request)
  | create (pid : ℕ)
  | close (pid : ℕ)
  deriving DecidableEq, Repr

def serve (m : State) : Op → Option State
  | .request r => Board.exec m r
  | .create pid => some (handleCreateProc m pid).1
  | .close pid => some (handleFreeProc m pid).1

def exec (m : State) (op : Op) : Option State := if m.dead then none else serve m op

lemma exec_serve {m u : State} {op : Op} (h : exec m op = some u) :
    m.dead = false ∧ serve m op = some u := by
  unfold exec at h
  split_ifs at h with hdead
  exact ⟨by simpa using hdead,h⟩

/-- The number of a process has 16 bits. -/
def Named : Op → Prop
  | .request (.alloc pid _ _ _) => pid < 2^16
  | .request (.free pid _ _) => pid < 2^16
  | .request _ => True
  | .create pid => pid < 2^16
  | .close pid => pid < 2^16

/-- While the board lives no process has gone, so that a number without one has left nothing. -/
structure TearInv (m : State) : Prop where
  positive : ∀ pid r, m.refcount pid = some r → 1 ≤ r
  clean : m.dead = false → ∀ pid < 2^16, m.refcount pid = none → Clean pid m.soc

variable {m u : State} {pid : ℕ}

lemma clean_vregion {s : Soc} {vregion : ℕ → ℕ → VregionInfo} (h : Clean pid s) :
    Clean pid { s with vregion := vregion } := ⟨h.shadow,h.fpga,h.conflicts⟩

lemma served_inv {s : Soc} (hdead : m.dead = false) (h : TearInv m)
    (hclean : ∀ q < 2^16, q ≠ pid → Clean q (openProc m pid).soc → Clean q s) :
    TearInv (putProcInfo { openProc m pid with soc := s } pid) := by
  have href := open_proc_refcount m pid
  have hpos : 1 ≤ (m.refcount pid).getD 1 := by
    cases hr : m.refcount pid with
    | none => exact le_rfl
    | some r => exact h.positive pid r hr
  generalize (m.refcount pid).getD 1 = r at href hpos
  have hput : (putProcInfo { openProc m pid with soc := s } pid).refcount =
      update m.refcount pid (some r) := by
    have hr0 : r ≠ 0 := by omega
    simp [putProcInfo,href,setRefcount,hr0]
  refine ⟨?_,?_⟩
  · intro q n hq
    rw [hput] at hq
    by_cases hqp : q = pid
    · rw [hqp,update_self] at hq
      cases hq
      exact hpos
    · rw [update_of_ne hqp] at hq
      exact h.positive q n hq
  · intro _ q hlt hq
    rw [hput] at hq
    by_cases hqp : q = pid
    · rw [hqp,update_self] at hq
      cases hq
    · rw [update_of_ne hqp] at hq
      rw [put_proc_soc]
      apply hclean q hlt hqp
      rcases (open_proc_cases m pid).2 with ⟨-,hsoc⟩ | ⟨-,hsoc⟩ <;> rw [hsoc]
      · exact h.clean hdead q hlt hq
      · exact clean_vregion (h.clean hdead q hlt hq)

lemma tear_inv_soc (h : TearInv m) (hdead : u.dead = m.dead) (href : u.refcount = m.refcount)
    (hclean : ∀ q, Clean q m.soc → Clean q u.soc) : TearInv u := by
  refine ⟨?_,?_⟩
  · rw [href]
    exact h.positive
  · intro hu q hlt hq
    rw [href] at hq
    exact hclean q (h.clean (hdead ▸ hu) q hlt hq)

lemma request_inv {r : Request} (hdead : m.dead = false) (h : TearInv m)
    (hok : Named (.request r))
    (hrun : Board.exec m r = some u) : TearInv u := by
  have hrun := exec_ok hrun
  cases r with
  | alloc pid idx len vmFlags =>
    obtain ⟨⟨u,reply⟩,hcall,rfl⟩ := map_ok hrun
    obtain ⟨-,s,addr,hs,rfl,-⟩ := handle_alloc_ok hcall
    apply served_inv hdead h
    intro q hlt hqp hq
    have hpid : pid < 2^16 := hok
    refine clean_alloc hq ?_ hs
    rw [Nat.mod_eq_of_lt hpid,Nat.mod_eq_of_lt hlt]
    exact fun heq => hqp heq.symm
  | free pid start len =>
    obtain ⟨⟨u,reply⟩,hcall,rfl⟩ := map_ok hrun
    obtain ⟨s,ret,hs,rfl,-⟩ := handle_free_ok hcall
    apply served_inv hdead h
    intro q hlt hqp hq
    exact free_va_keeps (shrinks_keeps (clean_shrinks q)) hq hs
  | refill =>
    obtain ⟨⟨zone,pfn⟩,-,hrest⟩ := (bind_ok_iff _ _ _).mp hrun
    dsimp only at hrest
    split_ifs at hrest
    · cases hrest
      exact tear_inv_soc h rfl rfl fun q hq => ⟨hq.shadow,hq.fpga,hq.conflicts⟩
    · cases hrest
      exact tear_inv_soc h rfl rfl fun q hq => ⟨hq.shadow,hq.fpga,hq.conflicts⟩
  | fault b i =>
    cases hrun
    unfold pageFault
    split
    · exact h
    · dsimp only
      split_ifs with hpte
      · refine tear_inv_soc h rfl rfl fun q hq =>
          ⟨hq.shadow,not_carries_set hq.fpga ?_,hq.conflicts⟩
        exact hq.fpga b i
      · exact h

lemma create_inv (hdead : m.dead = false) (h : TearInv m) (pid : ℕ) :
    TearInv (handleCreateProc m pid).1 := by
  unfold handleCreateProc allocProc
  cases hr : m.refcount pid with
  | some r => exact ⟨h.positive,nofun⟩
  | none =>
    refine ⟨?_,?_⟩
    · intro q n hq
      simp only [setRefcount] at hq
      by_cases hqp : q = pid
      · rw [hqp,update_self] at hq
        cases hq
        exact le_rfl
      · rw [update_of_ne hqp] at hq
        exact h.positive q n hq
    · intro _ q hlt hq
      simp only [setRefcount] at hq
      by_cases hqp : q = pid
      · rw [hqp,update_self] at hq
        cases hq
      · rw [update_of_ne hqp] at hq
        exact clean_vregion (h.clean hdead q hlt hq)

lemma close_inv (hdead : m.dead = false) (h : TearInv m) : TearInv (handleFreeProc m pid).1 := by
  cases hr : m.refcount pid with
  | none =>
    simp only [handleFreeProc,getProcByPid,hr,Option.map_none]
    exact h
  | some r =>
    have hpos := h.positive pid r hr
    rw [free_proc_spec m pid r hr hpos]
    refine ⟨?_,?_⟩
    · intro q n hq
      simp only [setRefcount] at hq
      by_cases hqp : q = pid
      · rw [hqp,update_self] at hq
        split_ifs at hq
        cases hq
        omega
      · rw [update_of_ne hqp] at hq
        exact h.positive q n hq
    · intro hlive q hlt hq
      have h1 : r ≠ 1 := by simpa [hdead] using hlive
      simp only [setRefcount] at hq ⊢
      by_cases hqp : q = pid
      · rw [hqp,update_self,if_neg h1] at hq
        cases hq
      · rw [update_of_ne hqp] at hq
        exact h.clean hdead q hlt hq

lemma tear_step {op : Op} (h : TearInv m) (hok : Named op) (hrun : exec m op = some u) :
    TearInv u := by
  obtain ⟨hdead,hrun⟩ := exec_serve hrun
  cases op with
  | request r => exact request_inv hdead h hok hrun
  | create pid =>
    cases hrun
    exact create_inv hdead h pid
  | close pid =>
    cases hrun
    exact close_inv hdead h

lemma tear_boot : TearInv boot := by
  refine ⟨?_,?_⟩
  · intro pid r hr
    cases hr
  · intro _ pid _ _
    refine ⟨fun b i => not_carries_cleared pid 0 false 0,
      fun b i => not_carries_cleared pid 0 false 0,?_⟩
    intro b ci hci
    cases hci

lemma no_translation {s : Soc} (h : Clean pid s) (addr : ℕ) (haddr : addr < 2^64) :
    addrToShadowPte s pid addr = none ∧
      ∀ b i, ¬((s.fpga b i).allocated = true ∧ (s.fpga b i).tag = generateTag pid addr) := by
  refine ⟨?_,?_⟩
  · apply List.find?_eq_none.mpr
    intro i _ hi
    simp only [Bool.and_eq_true,beq_iff_eq] at hi
    exact h.shadow (addrToBucketIndex addr) i ⟨hi.1,by rw [hi.2,tag_pid pid addr haddr]⟩
  · rintro b i ⟨hall,htag⟩
    exact h.fpga b i ⟨hall,by rw [htag,tag_pid pid addr haddr]⟩

end

/-- No entry, no frame and no conflict of the process is left. -/
structure NothingLeft (pid : ℕ) (before after : Soc) : Prop where
  shadow : ∀ b i, ¬Carries pid (after.shadow b i)
  fpga : ∀ b i, ¬Carries pid (after.fpga b i)
  frames : ∀ b i, Carries pid (before.fpga b i) → (before.fpga b i).valid = true →
    ppaToPfn (before.fpga b i).ppa ∈ after.zone.freeList 0
  conflicts : ∀ b, ∀ ci ∈ (after.info b).conflicts, ci.pid ≠ pid

/-- The last close kills the board, with nothing of the process left exactly if nothing was there;
while the board lives a number without a process has nothing. -/
theorem teardown_leaves_nothing (m : State) (pid : ℕ) (hlt : pid < 2^16) :
    (m.refcount pid = some 1 →
      (handleFreeProc m pid).1.refcount pid = none ∧ (handleFreeProc m pid).1.dead = true ∧
      (NothingLeft pid m.soc (handleFreeProc m pid).1.soc ↔ Clean pid m.soc)) ∧
    ∀ ops : List Op, (∀ op ∈ ops, Named op) → run exec ops boot = some m → m.dead = false →
      m.refcount pid = none → Clean pid m.soc ∧
        ∀ addr < 2^64, ∀ u ∈ [(handleCreateProc m pid).1,openProc m pid],
          u.refcount pid ≠ none ∧ addrToShadowPte u.soc pid addr = none ∧
          ∀ b i, ¬((u.soc.fpga b i).allocated = true ∧
            (u.soc.fpga b i).tag = generateTag pid addr) := by
  constructor
  · intro hr
    rw [free_proc_spec m pid 1 hr le_rfl]
    refine ⟨by simp [setRefcount],by simp,?_⟩
    constructor
    · intro h
      exact ⟨h.shadow,h.fpga,h.conflicts⟩
    · intro h
      exact ⟨h.shadow,h.fpga,fun b i hc => absurd hc (h.fpga b i),h.conflicts⟩
  · intro ops hok hrun hdead hnone
    have hinv : TearInv m :=
      run_invariant exec (fun _ => Named) TearInv (fun _ _ _ => tear_step) ops
      boot m tear_boot (guarded_of_forall exec _ ops boot fun op hop _ => hok op hop) hrun
    have hclean := hinv.clean hdead pid hlt hnone
    refine ⟨hclean,?_⟩
    intro addr haddr u hu
    obtain ⟨href,hsoc⟩ : u.refcount pid ≠ none ∧ Clean pid u.soc := by
      rcases List.mem_cons.mp hu with rfl | hu
      · simp only [handleCreateProc,allocProc,hnone]
        exact ⟨by simp [setRefcount],clean_vregion hclean⟩
      · rw [List.mem_singleton.mp hu]
        refine ⟨by simp [open_proc_refcount],?_⟩
        rcases (open_proc_cases m pid).2 with ⟨-,hsoc⟩ | ⟨-,hsoc⟩ <;> rw [hsoc]
        · exact hclean
        · exact clean_vregion hclean
    exact ⟨href,no_translation hsoc addr haddr⟩

/-- A process is created and closed while another one has two populated pages. -/
theorem teardown_leaves_nothing_idle :
    ∃ m, run exec [.request (.alloc 2 0 8388608 0x2),.create 1] boot = some m ∧
      NothingLeft 1 m.soc (handleFreeProc m 1).1.soc := by
  obtain ⟨m,hm,hdead,hnone⟩ := exists_checked (run exec [.request (.alloc 2 0 8388608 0x2)] boot)
    (fun m => m.dead = false ∧ m.refcount 1 = none) (by decide +kernel)
  have hclean := ((teardown_leaves_nothing m 1 (by norm_num)).2 _ (by simp [Named]) hm hdead
    hnone).1
  have href : (handleCreateProc m 1).1.refcount 1 = some 1 := by
    simp [handleCreateProc,allocProc,hnone,setRefcount]
  refine ⟨(handleCreateProc m 1).1,(run_append _ [_] [_] _ _).mpr ⟨m,hm,?_⟩,
    ((teardown_leaves_nothing _ 1 (by norm_num)).1 href).2.2.mpr ?_⟩
  · simp [run,exec,hdead,serve]
  · simp only [handleCreateProc,allocProc,hnone]
    exact clean_vregion hclean

/-- The close ends in the crash, and the entry, its frame and the translation are still there. -/
theorem closed_process_translated :
    ∃ m, run exec [.request (.alloc 1 0 4194304 0x2),.close 1] boot = some m ∧
      m.refcount 1 = none ∧ m.dead = true ∧ addrToShadowPte m.soc 1 1069547520 = some 0 ∧
      (m.soc.fpga 255 0).valid = true ∧ Carries 1 (m.soc.fpga 255 0) :=
  exists_checked _ _ (by decide +kernel)

end Clio.Teardown
