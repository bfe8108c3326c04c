import Clio.Requests

/-!
# Steps of the page tables

A request clears entries, adds conflicts to full buckets and takes entries, and nothing else.
-/

namespace Clio.TableSteps

open Buddy Pgtable Vm Pte Board Machine Requests Footprint

structure Stable (P : Soc → Prop) : Prop extends Keeps P where
  conflict : ∀ s b ci, P s → (s.info b).nrFree = 0 →
    P (setInfo s b { s.info b with conflicts := ci::(s.info b).conflicts
                                   nrConflicts := (s.info b).nrConflicts+1 })

section

variable {P : Soc → Prop} (hP : Stable P) {s s' : Soc} {pid idx len vmFlags : ℕ}

include hP

lemma check_stable {addr : ℕ} {found : Bool} (h : P s)
    (hrun : checkAndInsertShadowConflicts s pid idx addr len = .ok (s',found)) : P s' :=
  check_keeps hP.toKeeps (fun s b ci h hfull _ => hP.conflict s b ci h hfull) h hrun

lemma alloc_retry_stable {n a : ℕ} (h : P s)
    (hrun : allocRetry pid idx len vmFlags n s = .ok (s',a)) :
    (P s' ∧ a = 0) ∨ ∃ t u, P t ∧ P u ∧ Taken pid idx len vmFlags a t u s' :=
  alloc_retry_keeps hP.toKeeps (fun s b ci h hfull _ => hP.conflict s b ci h hfull) h hrun

lemma alloc_va_stable (halloc : ∀ s pid addr vmFlags s', P s →
    allocPte s pid addr vmFlags = .ok s' → P s') {a : ℕ} (h : P s)
    (hrun : allocVaVregion s pid idx len vmFlags = .ok (s',a)) : P s' := by
  unfold allocVaVregion at hrun
  dsimp only at hrun
  split_ifs at hrun
  rcases alloc_retry_stable hP h hrun with ⟨hs',-⟩ | ⟨t,u,-,hu,htaken⟩
  · exact hs'
  · exact foldlM_preserves _ P _ (fun s addr s' _ => halloc s pid addr vmFlags s') u s' hu
      htaken.entries

end

lemma pt_stable : Stable PtInv where
  vregion _ _ _ h := ⟨h.free,h.sync,h.frames,h.zone,h.spare⟩
  zap _ _ _ _ h hall hrun := (zap_both_cleared h hall hrun).elim fun _ ⟨_,_,_,_,hpt⟩ => hpt
  conflict s b ci h _ := by
    refine ⟨fun c => ?_,h.sync,h.frames,h.zone,h.spare⟩
    by_cases hc : c = b
    · subst hc
      simp only [setInfo,Function.update_self]
      exact h.free c
    · simp only [setInfo,Function.update_of_ne hc]
      exact h.free c

lemma slot_free {s : Soc} {b : ℕ} {i : Fin 16} (h : freeSlot s b = some i) :
    (s.shadow b i).allocated = false := by
  have := List.find?_some h
  simpa using this

lemma room_of_slot {s : Soc} (h : PtInv s) {b : ℕ} {i : Fin 16} (hslot : freeSlot s b = some i) :
    (s.info b).nrFree ≠ 0 := by
  rw [h.free b]
  have hmem : i ∈ freeSlots s.shadow b := by simpa [freeSlots] using slot_free hslot
  exact_mod_cast (Finset.card_pos.mpr ⟨i,hmem⟩).ne'

lemma alloc_pte_inv {s s' : Soc} {pid addr vmFlags : ℕ} (h : PtInv s)
    (hrun : allocPte s pid addr vmFlags = .ok s') : PtInv s' := by
  cases hslot : freeSlot s (addrToBucketIndex addr) with
  | none =>
    rw [allocPte,allocOneShadowPte,hslot] at hrun
    cases hrun
    exact h
  | some i =>
    obtain ⟨j,pte,zone,hpte,-,-,-,hpt⟩ := alloc_pte_spec h pid addr vmFlags (room_of_slot h hslot)
    rw [hpte] at hrun
    cases hrun
    exact hpt

structure Tables (m : State) : Prop where
  pt : PtInv m.soc
  fifo : ∀ pfn ∈ m.fifo, pfnInRange board pfn

section

variable {m u : State}

lemma open_proc_tables (h : Tables m) (pid : ℕ) : Tables (openProc m pid) := by
  obtain ⟨hfifo,hsoc⟩ := open_proc_cases m pid
  refine ⟨?_,by rw [hfifo]; exact h.fifo⟩
  rcases hsoc with ⟨-,hsoc⟩ | ⟨-,hsoc⟩ <;> rw [hsoc]
  · exact h.pt
  · exact pt_stable.vregion _ _ _ h.pt

lemma put_proc_tables (h : Tables m) (pid : ℕ) : Tables (putProcInfo m pid) :=
  ⟨by rw [put_proc_soc]; exact h.pt,by rw [put_proc_fifo]; exact h.fifo⟩

lemma step_tables (m : State) (op : Teardown.Op) (u : State) (h : Tables m)
    (hrun : Teardown.exec m op = some u) : Tables u := by
  have hrun := (Teardown.exec_serve hrun).2
  cases op with
  | request r =>
    have hrun := exec_ok hrun
    cases r with
    | alloc pid idx len vmFlags =>
      obtain ⟨⟨u,reply⟩,hcall,rfl⟩ := VmArea.map_ok hrun
      obtain ⟨-,s,addr,hs,rfl,-⟩ := handle_alloc_ok hcall
      have hopen := open_proc_tables h pid
      exact put_proc_tables (m := { openProc m pid with soc := s })
        ⟨alloc_va_stable pt_stable (fun _ _ _ _ _ => alloc_pte_inv) hopen.pt hs,hopen.fifo⟩ pid
    | free pid start len =>
      obtain ⟨⟨u,reply⟩,hcall,rfl⟩ := VmArea.map_ok hrun
      obtain ⟨s,ret,hs,rfl,-⟩ := handle_free_ok hcall
      have hopen := open_proc_tables h pid
      exact put_proc_tables (m := { openProc m pid with soc := s })
        ⟨free_va_keeps pt_stable.toKeeps hopen.pt hs,hopen.fifo⟩ pid
    | refill =>
      obtain ⟨zone,fifo,rfl,hz,hfifo⟩ := refill_frame h.pt.zone hrun
      exact ⟨⟨h.pt.free,h.pt.sync,h.pt.frames,hz,h.pt.spare⟩,
        fun pfn hpfn => (hfifo pfn hpfn).elim (h.fifo pfn) id⟩
    | fault b i =>
      cases hrun
      obtain ⟨hpt,hfifo,-⟩ := fault_tables h.pt h.fifo b i
      exact ⟨hpt,hfifo⟩
  | create pid =>
    cases hrun
    unfold handleCreateProc allocProc
    cases hr : m.refcount pid with
    | some r => exact ⟨h.pt,h.fifo⟩
    | none => exact ⟨pt_stable.vregion _ _ _ h.pt,h.fifo⟩
  | close pid =>
    cases hrun
    unfold handleFreeProc getProcByPid
    cases hr : m.refcount pid with
    | none => exact h
    | some r =>
      have hget : Tables (setRefcount m pid (some (r+1))) := ⟨h.pt,h.fifo⟩
      exact put_proc_tables (put_proc_tables hget pid) pid

end

end Clio.TableSteps
