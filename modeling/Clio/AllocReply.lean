import Clio.Requests

/-!
# The replies to allocations

A failure is address 0, which the handler takes for a success.
-/

namespace Clio.AllocReply

open Ranges VmArea FindVaRange Pgtable Vm VmRegion VmFree VmAlloc Board Machine Footprint Requests

def HasPte (s : Soc) (pid p : ℕ) : Prop :=
  ∃ i, (s.shadow (addrToBucketIndex p) i).allocated = true ∧
    (s.shadow (addrToBucketIndex p) i).tag = generateTag pid p ∧
    (s.fpga (addrToBucketIndex p) i).allocated = true ∧
    (s.fpga (addrToBucketIndex p) i).tag = generateTag pid p

/-- The range is in the vRegion, covered and mapped. -/
structure Granted (s : Soc) (pid idx len addr : ℕ) : Prop where
  nonempty : 0 < len
  low : vregionToStartVa idx ≤ addr
  high : addr+len ≤ vregionToEndVa idx
  covered : ∀ x, addr ≤ x → x < addr+len → x ∈ covered (region s pid idx)
  ptes : ∀ p ∈ pages addr (addr+len), HasPte s pid p

structure Untouched (s s' : Soc) : Prop where
  vregion : s'.vregion = s.vregion
  shadow : s'.shadow = s.shadow
  fpga : s'.fpga = s.fpga

/-- The reply is 0 for a grant and negative if nothing was done. -/
def Truthful (m : State) (pid idx len vmFlags : ℕ) : Prop :=
  ∃ m' reply, handleAlloc m pid idx len vmFlags = .ok (m',reply) ∧
    ((reply.ret = 0 ∧ Granted m'.soc pid idx len reply.addr) ∨
      (reply.ret < 0 ∧ Untouched (openProc m pid).soc m'.soc))

section

variable {m : State} {pid idx len vmFlags : ℕ}

lemma handle_alloc_eq (hidx : idx < nrVregions) :
    handleAlloc m pid idx len vmFlags = (do
      let (s,addr) ← allocVaVregion (openProc m pid).soc pid idx len vmFlags
      return (putProcInfo { openProc m pid with soc := s } pid,allocReply addr)) := by
  have hword : idx%2^32 = idx := Nat.mod_eq_of_lt (hidx.trans (by decide))
  unfold handleAlloc
  simp only [hword,if_neg hidx.not_ge]

lemma alloc_va_not_err {s s' : Soc} {a : ℕ}
    (hrun : allocVaVregion s pid idx len vmFlags = .ok (s',a)) : ¬isErrValue a := by
  unfold allocVaVregion at hrun
  dsimp only at hrun
  split_ifs at hrun
  have htrue : Keeps fun _ => True := ⟨by simp,by simp⟩
  rcases alloc_retry_keeps htrue (fun _ _ _ _ _ _ => trivial) trivial hrun with
    ⟨-,rfl⟩ | ⟨_,_,-,-,htaken⟩
  · decide
  · exact htaken.noErr

lemma inside_le {a : ℕ} (hlo : vregionToStartVa idx ≤ a) (hhi : a+len ≤ vregionToEndVa idx) :
    len ≤ vregionSize := by
  have hstart : idx*vregionSize ≤ vregionToStartVa idx := by
    unfold vregionToStartVa
    split_ifs with h
    · rw [h,Nat.zero_mul]
      exact Nat.zero_le _
    · exact le_rfl
  have hstop : vregionToEndVa idx = idx*vregionSize+vregionSize := Nat.succ_mul _ _
  rw [hstop] at hhi
  omega

lemma granted_of_entered {s s' : Soc} {a : ℕ} (h : Base s) (hpos : 0 < len)
    (hle : len ≤ vregionSize) (hfit : Fits s pid idx (pageAlign len) a)
    (he : Entered pid idx a (pageAlign len) vmFlags s s') : Granted s' pid idx len a := by
  have hround := le_page_align hle
  obtain ⟨w,hfill⟩ := he.filled
  obtain ⟨slot,hnew,-⟩ := hfill.slots
  obtain ⟨hlo,hhi,hfree⟩ := hfit.at_
  refine ⟨hpos,hlo,by omega,?_,?_⟩
  · intro x hx1 hx2
    rw [he.region,covered_enter (region_sorted h.vm pid idx) hfree (by omega)]
    exact .inr ⟨hx1,by omega⟩
  · intro p hp
    obtain ⟨k,rfl,hlt⟩ := (mem_pages _ _ _).mp hp
    obtain ⟨-,hall,htag⟩ := hnew _ ((mem_pages a (a+pageAlign len) _).mpr ⟨k,rfl,by omega⟩)
    obtain ⟨hfall,hftag⟩ := hfill.pt.sync (addrToBucketIndex (a+k*pageSize)) (slot (a+k*pageSize))
    exact ⟨slot (a+k*pageSize),hall,htag,hfall.trans hall,hftag.trans htag⟩

lemma truthful_of_fits (h : StateInv m) (hidx : idx < nrVregions) (hpos : 0 < len)
    (hle : len ≤ vregionSize) {a : ℕ} (hfit : Fits (openProc m pid).soc pid idx (pageAlign len) a) :
    Truthful m pid idx len vmFlags := by
  have hopen := open_proc_inv h pid
  rcases alloc_outcome pid vmFlags hopen.base hopen.aligned hidx hpos hle with
    ⟨t,-,hno,-⟩ | ⟨t,s',b,ht,-,hfit',he,halloc⟩
  · exact absurd hfit (hno a)
  · have hreply : allocReply b = ⟨0,b⟩ := if_neg (alloc_va_not_err halloc)
    refine ⟨putProcInfo { openProc m pid with soc := s' } pid,allocReply b,?_,.inl ?_⟩
    · rw [handle_alloc_eq hidx,halloc]
      rfl
    · rw [hreply,put_proc_soc]
      exact ⟨rfl,granted_of_entered (marked_base ht).1 hpos hle hfit' he⟩

lemma fits_of_truthful (h : StateInv m) (hidx : idx < nrVregions)
    (ht : Truthful m pid idx len vmFlags) :
    0 < len ∧ len ≤ vregionSize ∧ ∃ a, Fits (openProc m pid).soc pid idx (pageAlign len) a := by
  have hopen := open_proc_inv h pid
  obtain ⟨m',reply,hrun,hcase⟩ := ht
  rw [handle_alloc_eq hidx] at hrun
  obtain ⟨⟨s',b⟩,halloc,hpure⟩ := (bind_ok_iff _ _ _).mp hrun
  cases hpure
  have hreply : allocReply b = ⟨0,b⟩ := if_neg (alloc_va_not_err halloc)
  rw [hreply] at hcase
  rcases hcase with ⟨-,hgrant⟩ | ⟨hneg,-⟩
  · have hpos := hgrant.nonempty
    have hle := inside_le hgrant.low hgrant.high
    refine ⟨hpos,hle,?_⟩
    rcases alloc_outcome pid vmFlags hopen.base hopen.aligned hidx hpos hle with
      ⟨t,-,-,hfail⟩ | ⟨t,u,c,-,hfit,-⟩
    · rw [hfail] at halloc
      cases halloc
      exact absurd hgrant.low (start_va_pos idx).not_ge
    · exact ⟨c,hfit⟩
  · exact absurd hneg (lt_irrefl 0)

end

lemma region_boot (pid idx : ℕ) : region bootSoc pid idx = [] := good_init.2

lemma state_boot : StateInv boot := by
  refine ⟨⟨⟨fun _ _ => good_init.1,fun _ _ => rfl,?_⟩,?_,⟨?_,fun _ _ => ⟨rfl,rfl⟩,?_,?_,?_⟩⟩,?_,?_⟩
  · intro pid idx r hr
    rw [show region boot.soc pid idx = [] from region_boot pid idx] at hr
    cases hr
  · intro b ci hci
    cases hci
  · intro b
    show ((16 : ℕ) : ℤ) = ((Finset.univ.filter fun _ : Fin 16 => false = false).card : ℤ)
    rfl
  · intro b i hv
    cases hv
  · exact boot_zone_ok
  · exact .inr (by decide)
  · intro pid idx r hr
    rw [show region boot.soc pid idx = [] from region_boot pid idx] at hr
    cases hr
  · intro pfn hpfn
    cases hpfn

/-- The reply to an allocation request after any run of well-formed requests. -/
theorem alloc_reply_truthful (ops : List Teardown.Op) (m : State)
    (hok : Guarded Teardown.exec WellFormed ops boot) (hrun : run Teardown.exec ops boot = some m)
    (pid idx len vmFlags : ℕ) (hidx : idx < nrVregions) :
    Truthful m pid idx len vmFlags ↔
      0 < len ∧ len ≤ vregionSize ∧ ∃ a, Fits (openProc m pid).soc pid idx (pageAlign len) a := by
  have hinv : StateInv m := run_invariant Teardown.exec WellFormed StateInv
    (fun _ _ _ => state_step) ops boot m state_boot hok hrun
  constructor
  · exact fits_of_truthful hinv hidx
  · rintro ⟨hpos,hle,a,hfit⟩
    exact truthful_of_fits hinv hidx hpos hle hfit

/-- The first page of a process that was just created is the highest one of the vRegion. -/
theorem alloc_reply_truthful_first :
    ∃ m, run Teardown.exec [.create 1] boot = some m ∧ Truthful m 1 0 5 0 := by
  refine ⟨(handleCreateProc boot 1).1,rfl,?_⟩
  have hempty : region (openProc (handleCreateProc boot 1).1 1).soc 1 0 = [] := good_init.2
  apply (alloc_reply_truthful [.create 1] _ ⟨trivial,trivial⟩ rfl 1 0 5 0 (by decide)).mpr
  refine ⟨by decide,by decide,0x3fc00000,⟨⟨?_,by decide⟩,?_⟩⟩
  · refine ⟨by decide,by decide,?_⟩
    intro r hr
    rw [hempty] at hr
    cases hr
  · intro p _
    show (16 : ℤ) ≠ 0
    decide

/-- A whole vRegion does not fit into the first one: the reply is 0 and no error. -/
theorem failed_alloc_replies_zero :
    (∃ m', handleAlloc boot 1 0 vregionSize 0 = .ok (m',⟨0,0⟩)) ∧
      ¬Truthful boot 1 0 vregionSize 0 ∧
      handleAlloc boot 1 0 (vregionSize+1) 0 = .error .bug ∧
      ¬Truthful boot 1 0 (vregionSize+1) 0 := by
  have hreply : (handleAlloc boot 1 0 vregionSize 0).toOption.any
      (fun x => x.2 = ⟨0,0⟩) = true := by
    decide +kernel
  obtain ⟨m',hm'⟩ : ∃ m', handleAlloc boot 1 0 vregionSize 0 = .ok (m',⟨0,0⟩) := by
    cases hrun : handleAlloc boot 1 0 vregionSize 0 with
    | error e =>
      rw [hrun] at hreply
      cases hreply
    | ok x =>
      rw [hrun] at hreply
      exact ⟨x.1,by rw [← of_decide_eq_true hreply]⟩
  have hbug : handleAlloc boot 1 0 (vregionSize+1) 0 = .error .bug := by rfl
  refine ⟨⟨m',hm'⟩,?_,hbug,?_⟩
  · rintro ⟨m,reply,hrun,hcase⟩
    rw [hm'] at hrun
    cases hrun
    rcases hcase with ⟨-,hgrant⟩ | ⟨hneg,-⟩
    · exact absurd hgrant.low (start_va_pos 0).not_ge
    · exact absurd hneg (lt_irrefl 0)
  · rintro ⟨m,reply,hrun,-⟩
    rw [hbug] at hrun
    cases hrun

end Clio.AllocReply
