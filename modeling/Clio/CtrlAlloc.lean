import Clio.AllocReply
import Clio.Ctrl

/-!
# Processes and addresses of the control path

A module gets the number of its process in 32 bits and names it in 8, and it gets addresses in 32
bits.
-/

namespace Clio.CtrlAlloc

open Function

open VmArea FindVaRange Pgtable Vm VmRegion VmFree VmAlloc Machine Requests AllocReply Ctrl
open Board hiding Request handle exec

section

variable {s s' : Soc} {pid size vmFlags : ℕ}

lemma size_le (hword : size < 2^32) (h : pageAlign size ≤ vregionSize) : size ≤ vregionSize := by
  have hv : vregionSize = 1073741824 := rfl
  have hp : pageSize = 4194304 := rfl
  unfold pageAlign at h
  rw [hp,hv] at h
  rw [hv]
  omega

lemma ctrl_loop_size (hword : size < 2^32) {n idx : ℕ} {r : Soc × Option (ℕ × ℕ)}
    (hrun : ctrlAllocLoop pid size vmFlags n s idx = .ok r) : size ≤ vregionSize := by
  cases n with
  | zero => cases hrun
  | succ n =>
    obtain ⟨x,hx,-⟩ := (bind_ok_iff _ _ _).mp hrun
    apply size_le hword
    unfold allocVaVregion at hx
    dsimp only at hx
    split_ifs at hx with hbig
    exact le_of_not_gt hbig

/-- The first vRegion with room from `first` on. -/
structure FirstFit (s : Soc) (pid len first i : ℕ) : Prop where
  le : first ≤ i
  lt : i < nrVregions
  fits : ∃ a, Fits s pid i len a
  least : ∀ j, first ≤ j → j < i → ∀ a, ¬Fits s pid j len a

lemma ctrl_loop_spec (pid vmFlags : ℕ) (hpos : 0 < size) (hle : size ≤ vregionSize) (n : ℕ)
    (s : Soc) (idx : ℕ) (h : Base s) (ha : Aligned s) (hn : idx+n = nrVregions)
    (hidx : idx < nrVregions) :
    ∃ s' found, ctrlAllocLoop pid size vmFlags n s idx = .ok (s',found) ∧ (Base s' ∧ Aligned s') ∧
      ((found = none ∧ ∀ j, idx ≤ j → j < nrVregions → ∀ a, ¬Fits s pid j (pageAlign size) a) ∨
        ∃ i a, found = some (i,a) ∧ a ≠ 0 ∧ Granted s' pid i size a ∧
          FirstFit s pid (pageAlign size) idx i) := by
  induction n generalizing s idx with
  | zero => omega
  | succ n ih =>
    rw [ctrlAllocLoop]
    rcases alloc_outcome pid (vmFlagsPopulate ||| vmFlags) h ha hidx hpos hle with
      ⟨t,ht,hno,hrun⟩ | ⟨t,u,a,ht,hfits,hfit,he,hrun⟩
    · obtain ⟨hb,hk⟩ := marked_base ht
      rw [hrun,ok_bind]
      simp only [ne_eq,not_true_eq_false,if_false]
      split_ifs with hlast
      · refine ⟨_,none,rfl,⟨base_cached hb _,hk ha⟩,.inl ⟨rfl,fun j hij hj => ?_⟩⟩
        obtain rfl : j = idx := by omega
        exact hno
      · obtain ⟨s',found,hloop,hinv,hcase⟩ := ih { t with
          cachedVregionStart := t.cachedVregionStart+1 } (idx+1) (base_cached hb _)
            (hk ha) (by omega)
          (by omega)
        -- what fails here does not change the others
        have hsame : ∀ j, idx+1 ≤ j → ∀ a, Fits { t with
            cachedVregionStart := t.cachedVregionStart+1 } pid j (pageAlign size) a ↔
              Fits s pid j (pageAlign size) a :=
          fun j hj a => (fits_cached a).trans (fits_marked_other ht (by omega) a)
        have hstay : ∀ j, idx ≤ j → (idx+1 ≤ j → ∀ a, ¬Fits { t with
            cachedVregionStart := t.cachedVregionStart+1 } pid j (pageAlign size) a) →
              ∀ a, ¬Fits s pid j (pageAlign size) a := by
          intro j hij hnot a
          rcases hij.eq_or_lt with rfl | hlt
          · exact hno a
          · rw [← hsame j hlt]
            exact hnot hlt a
        refine ⟨s',found,hloop,hinv,hcase.imp ?_ ?_⟩
        · rintro ⟨rfl,hall⟩
          exact ⟨rfl,fun j hij hj => hstay j hij fun hlt => hall j hlt hj⟩
        · rintro ⟨i,a,rfl,hne,hgrant,hlo,hhi,⟨x,hx⟩,hleast⟩
          exact ⟨i,a,rfl,hne,hgrant,by omega,hhi,⟨x,(hsame i hlo x).mp hx⟩,
            fun j hij hji => hstay j hij fun hlt => hleast j hlt hji⟩
    · have hne := fits_pos hfit
      obtain ⟨hb,hk⟩ := marked_base ht
      obtain ⟨hb',hk'⟩ := entered_base hb (page_align_dvd size)
        (hpos.trans_le (le_page_align hle)) hfit he
      refine ⟨u,some (idx,a),?_,⟨hb',hk' (hk ha)⟩,.inr ⟨idx,a,rfl,hne,
        granted_of_entered hb hpos hle hfit he,le_rfl,hidx,⟨a,hfits⟩,?_⟩⟩
      · rw [hrun,ok_bind]
        exact if_pos hne
      · intro j hij hji
        omega

end

section

variable {m u : System} {pid size vmFlags addr : ℕ}

def CacheInRange (cached : ℕ → ℕ) : Prop := ∀ pid, cached pid < nrVregions

/-- A vRegion from the cached one on has room. -/
def Room (m : System) (pid size : ℕ) : Prop :=
  ∃ i, m.cachedVregionIndex pid ≤ i ∧ i < nrVregions ∧
    ∃ a, Fits m.board.soc pid i (pageAlign size) a

lemma ctrl_alloc_spec (h : StateInv m.board) (hcache : CacheInRange m.cachedVregionIndex)
    (hpos : 0 < size) (hword : size < 2^32) (hrun : ctrlAlloc m pid size vmFlags = .ok (u,addr)) :
    StateInv u.board ∧ CacheInRange u.cachedVregionIndex ∧ u.sysPidMap = m.sysPidMap ∧
      (Room m pid size → addr ≠ 0) ∧
      (addr ≠ 0 → ∃ idx, Granted u.board.soc pid idx size addr ∧
        FirstFit m.board.soc pid (pageAlign size) (m.cachedVregionIndex pid) idx) := by
  unfold ctrlAlloc at hrun
  dsimp only at hrun
  obtain ⟨⟨s,found⟩,hs,hpure⟩ := (bind_ok_iff _ _ _).mp hrun
  have hfirst := hcache pid
  obtain ⟨t,found',hloop,⟨hbase,haligned⟩,hcase⟩ := ctrl_loop_spec pid vmFlags hpos
    (ctrl_loop_size hword hs) _ _ _ h.base h.aligned (Nat.add_sub_cancel' hfirst.le) hfirst
  obtain ⟨rfl,rfl⟩ := Prod.mk.inj (Except.ok.inj (hs.symm.trans hloop))
  rcases hcase with ⟨rfl,hno⟩ | ⟨idx,a,rfl,hne,hgrant,hfit⟩
  · cases hpure
    refine ⟨⟨hbase,haligned,h.fifo⟩,hcache,rfl,?_,fun hne => absurd rfl hne⟩
    rintro ⟨i,hlo,hhi,x,hx⟩
    exact absurd hx (hno i hlo hhi x)
  · cases hpure
    refine ⟨⟨hbase,haligned,h.fifo⟩,?_,rfl,fun _ => hne,fun _ => ⟨idx,hgrant,hfit⟩⟩
    intro p
    dsimp only
    by_cases hp : p = pid
    · subst hp
      rw [update_self]
      exact hfit.lt
    · rw [update_of_ne hp]
      exact hcache p

lemma reset_cache_range (h : CacheInRange m.cachedVregionIndex) (pid : ℕ) :
    CacheInRange (resetCache m pid).cachedVregionIndex := by
  unfold resetCache
  cases m.board.refcount pid with
  | some r => exact h
  | none =>
    intro p
    dsimp only
    by_cases hp : p = pid
    · subst hp
      rw [update_self]
      decide
    · rw [update_of_ne hp]
      exact h p

lemma alloc_proc_refcount {b b' : State} (hrun : allocProc b pid = some b') :
    b'.refcount = update b.refcount pid (some 1) ∧ b'.dead = b.dead := by
  unfold allocProc at hrun
  cases hr : b.refcount pid with
  | some r => simp [hr] at hrun
  | none =>
    simp only [hr] at hrun
    cases hrun
    exact ⟨rfl,rfl⟩

lemma alloc_proc_inv {b b' : State} (h : StateInv b) (hrun : allocProc b pid = some b') :
    StateInv b' := by
  unfold allocProc at hrun
  cases hr : b.refcount pid with
  | some r => simp [hr] at hrun
  | none =>
    simp only [hr] at hrun
    cases hrun
    obtain ⟨hbase,haligned⟩ := base_fresh h.base h.aligned pid
    exact ⟨hbase,haligned,h.fifo⟩

end

section

variable {map : ℕ → Bool} {size first : ℕ}

lemma find_next_zero_bit_spec (h : findNextZeroBit map size first < size) :
    first ≤ findNextZeroBit map size first ∧ map (findNextZeroBit map size first) = false := by
  unfold findNextZeroBit at h ⊢
  cases hf : (List.range' first (size-first)).find? fun i => !map i with
  | none =>
    rw [hf] at h
    exact absurd h (lt_irrefl _)
  | some i =>
    have hmem := List.mem_of_find?_eq_some hf
    rw [List.mem_range'_1] at hmem
    have hbit := List.find?_some hf
    simp only [Bool.not_eq_true'] at hbit
    exact ⟨hmem.1,hbit⟩

end

structure CtrlInv (m : System) : Prop where
  state : StateInv m.board
  cache : CacheInRange m.cachedVregionIndex
  pids : ∀ pid, m.board.refcount pid ≠ none →
    ∃ bit, pid = bit+nrMaxUserPid ∧ 1 ≤ bit ∧ bit < 2^8 ∧ m.sysPidMap bit = true

/-- Numbers fit into 8 bits, requests are not empty, and if a vRegion has room then one of the
first four has, all below `2^32`. -/
def Small (m : System) : Request → Prop
  | .ctrlCreate => findNextZeroBit m.sysPidMap nrSystemPid 1 < 2^8
  | .ctrlAlloc param8 param32 => 0 < param32.toNat ∧
      (Room m (param8.toNat+nrMaxUserPid) param32.toNat →
        ∃ i < 4, m.cachedVregionIndex (param8.toNat+nrMaxUserPid) ≤ i ∧
          ∃ a, Fits m.board.soc (param8.toNat+nrMaxUserPid) i (pageAlign param32.toNat) a)
  | _ => True

def IsCtrl : Request → Prop
  | .ctrlCreate => True
  | .ctrlAlloc _ _ => True
  | _ => False

/-- The reply names the process that was created, or the start of the range granted to it. -/
def Answers (m : System) : Request → Prop
  | .ctrlCreate => ∀ u id, handleCtrlCreateProc m = .ok (u,id) →
      (id = 0 → u.board.refcount = m.board.refcount) ∧
      (id ≠ 0 → ∃ pid, (id.setWidth 8).toNat+nrMaxUserPid = pid ∧ m.board.refcount pid = none ∧
        u.board.refcount = update m.board.refcount pid (some 1))
  | .ctrlAlloc param8 param32 => ∀ u addr, handleCtrlAlloc m param8 param32 = .ok (u,addr) →
      addr ≠ 0 → m.board.refcount (param8.toNat+nrMaxUserPid) ≠ none ∧
        ∃ idx, Granted u.board.soc (param8.toNat+nrMaxUserPid) idx param32.toNat addr.toNat
  | _ => True

section

variable {m u : System}

lemma create_free {bit : ℕ} (hbit : findNextZeroBit m.sysPidMap nrSystemPid 1 = bit)
    (hlt : bit < nrSystemPid) (hnone : m.board.refcount (bit+nrMaxUserPid) = none) :
    ∃ u, handleCtrlCreateProc m = .ok (u,BitVec.ofNat 32 bit) ∧
      u.sysPidMap = update m.sysPidMap bit true ∧
      u.board.refcount = update m.board.refcount (bit+nrMaxUserPid) (some 1) ∧
      u.board.dead = m.board.dead ∧ (StateInv m.board → StateInv u.board) ∧
      (CacheInRange m.cachedVregionIndex → CacheInRange u.cachedVregionIndex) := by
  subst hbit
  unfold handleCtrlCreateProc createSysProc
  rw [show allocSysPid m = _ from if_neg (by omega)]
  generalize findNextZeroBit m.sysPidMap nrSystemPid 1 = bit at hnone ⊢
  have hpid : ((bit : ℤ)+nrMaxUserPid).toNat = bit+nrMaxUserPid := by omega
  obtain ⟨b,hproc⟩ : ∃ b, allocProc m.board (bit+nrMaxUserPid) = some b := by
    simp [allocProc,hnone]
  have hneg : ¬(bit : ℤ)+nrMaxUserPid < 0 := by omega
  have hzero : ¬(bit : ℤ)+nrMaxUserPid = 0 := by
    unfold nrMaxUserPid
    omega
  have hid : BitVec.ofInt 32 ((bit : ℤ)+nrMaxUserPid-nrMaxUserPid) = BitVec.ofNat 32 bit := by
    rw [Int.add_sub_cancel]
    exact BitVec.ofInt_natCast 32 bit
  have hreset : resetCache { m with sysPidMap := update m.sysPidMap bit true }
      (bit+nrMaxUserPid) = { m with
        sysPidMap := update m.sysPidMap bit true
        cachedVregionIndex := update m.cachedVregionIndex (bit+nrMaxUserPid) 0 } := by
    simp [resetCache,hnone]
  simp only [hneg,if_false,hpid,hproc,hreset,ok_bind,hzero,hid]
  obtain ⟨hcount,hdead⟩ := alloc_proc_refcount hproc
  refine ⟨_,rfl,rfl,hcount,hdead,fun h => alloc_proc_inv h hproc,fun h p => ?_⟩
  by_cases hp : p = bit+nrMaxUserPid
  · subst hp
    dsimp only
    rw [update_self]
    decide
  · dsimp only
    rw [update_of_ne hp]
    exact h p

lemma create_small (h : CtrlInv m) (hok : Small m .ctrlCreate) :
    ∃ u bit, handleCtrlCreateProc m = .ok (u,BitVec.ofNat 32 bit) ∧ CtrlInv u ∧ 1 ≤ bit ∧
      bit < 2^8 ∧ m.board.refcount (bit+nrMaxUserPid) = none ∧
      u.board.refcount = update m.board.refcount (bit+nrMaxUserPid) (some 1) := by
  have hlt : findNextZeroBit m.sysPidMap nrSystemPid 1 < nrSystemPid := hok.trans (by decide)
  obtain ⟨hlo,hclear⟩ := find_next_zero_bit_spec hlt
  have hnone : m.board.refcount (findNextZeroBit m.sysPidMap nrSystemPid 1+nrMaxUserPid) =
      none := by
    by_contra hlive
    obtain ⟨c,hc,-,-,hset⟩ := h.pids _ hlive
    rw [Nat.add_right_cancel hc] at hclear
    rw [hclear] at hset
    cases hset
  obtain ⟨u,hu,hmap,hcount,-,hstate,hcache⟩ := create_free rfl hlt hnone
  refine ⟨u,_,hu,⟨hstate h.state,hcache h.cache,?_⟩,hlo,hok,hnone,hcount⟩
  intro pid hlive
  rw [hmap]
  rw [hcount] at hlive
  by_cases hp : pid = findNextZeroBit m.sysPidMap nrSystemPid 1+nrMaxUserPid
  · exact ⟨_,hp,hlo,hok,update_self _ _ _⟩
  · rw [update_of_ne hp] at hlive
    obtain ⟨c,hc,hclo,hchi,hset⟩ := h.pids pid hlive
    refine ⟨c,hc,hclo,hchi,?_⟩
    rw [update_apply,hset,ite_self]

lemma alloc_small (h : CtrlInv m) {param8 : BitVec 8} {param32 : BitVec 32}
    (hok : Small m (.ctrlAlloc param8 param32)) {addr : BitVec 32}
    (hrun : handleCtrlAlloc m param8 param32 = .ok (u,addr)) :
    CtrlInv u ∧ (addr ≠ 0 → m.board.refcount (param8.toNat+nrMaxUserPid) ≠ none ∧
      ∃ idx, Granted u.board.soc (param8.toNat+nrMaxUserPid) idx param32.toNat addr.toNat) := by
  unfold handleCtrlAlloc at hrun
  dsimp only at hrun
  cases hget : getProcByPid m.board (param8.toNat+nrMaxUserPid) with
  | none =>
    rw [hget] at hrun
    cases hrun
    exact ⟨h,fun hne => absurd rfl hne⟩
  | some b =>
    rw [hget] at hrun
    obtain ⟨⟨v,a⟩,hv,hpure⟩ := (bind_ok_iff _ _ _).mp hrun
    cases hpure
    obtain ⟨r,hr,rfl⟩ := Option.map_eq_some_iff.mp hget
    have hstate : StateInv (setRefcount m.board (param8.toNat+nrMaxUserPid) (some (r+1))) :=
      ⟨h.state.base,h.state.aligned,h.state.fifo⟩
    have hspec := ctrl_alloc_spec (m := ⟨_,_,_,_,_⟩) hstate h.cache hok.1 param32.isLt hv
    obtain ⟨hinv,hcache,hmap,-,hgrant⟩ := hspec
    have hcount := ctrl_alloc_refcount hv
    refine ⟨⟨hinv,hcache,?_⟩,fun hne => ⟨by rw [hr]; exact Option.some_ne_none r,?_⟩⟩
    · intro pid hlive
      rw [hmap]
      apply h.pids pid
      rw [hcount] at hlive
      by_cases hp : pid = param8.toNat+nrMaxUserPid
      · rw [hp,hr]
        exact Option.some_ne_none r
      · simpa [setRefcount,update_of_ne hp] using hlive
    · have ha : a ≠ 0 := by
        rintro rfl
        exact hne rfl
      obtain ⟨idx,hrange,hfirst⟩ := hgrant ha
      have hlow : idx < 4 := by
        obtain ⟨i,hi,hle,x,hx⟩ := hok.2 ⟨idx,hfirst.le,hfirst.lt,hfirst.fits⟩
        by_contra hhigh
        exact hfirst.least i hle (by omega) x hx
      have hlt : a < 2^32 := by
        have hend : vregionToEndVa idx ≤ 4*2^30 := Nat.mul_le_mul_right _ hlow
        have := hrange.high
        have := hok.1
        omega
      rw [BitVec.toNat_ofNat,Nat.mod_eq_of_lt hlt]
      exact ⟨idx,hrange⟩

lemma step_ctrl {r : Request} (h : CtrlInv m) (hok : Small m r ∧ IsCtrl r)
    (hrun : exec m r = some u) : CtrlInv u := by
  have hrun := Ctrl.exec_ok hrun
  cases r with
  | ctrlCreate =>
    obtain ⟨⟨v,id⟩,hv,rfl⟩ := map_ok hrun
    obtain ⟨w,bit,hw,hinv,-⟩ := create_small h hok.1
    rw [hw] at hv
    cases hv
    exact hinv
  | ctrlAlloc param8 param32 =>
    obtain ⟨⟨v,addr⟩,hv,rfl⟩ := map_ok hrun
    exact (alloc_small h hok.1 hv).1
  | _ => exact hok.2.elim

lemma answers_small {r : Request} (h : CtrlInv m) (hok : Small m r) : Answers m r := by
  cases r with
  | ctrlCreate =>
    intro u id hrun
    obtain ⟨w,bit,hw,-,hlo,hhi,hnone,hcount⟩ := create_small h hok
    rw [hw] at hrun
    cases hrun
    have hid : ((BitVec.ofNat 32 bit).setWidth 8).toNat = bit := by
      rw [BitVec.toNat_setWidth,BitVec.toNat_ofNat]
      omega
    refine ⟨fun hzero => ?_,fun _ => ⟨bit+nrMaxUserPid,by rw [hid],hnone,hcount⟩⟩
    have hval := congrArg BitVec.toNat hzero
    rw [BitVec.toNat_ofNat,Nat.mod_eq_of_lt (by omega)] at hval
    exact absurd (show bit = 0 from hval) (by omega)
  | ctrlAlloc param8 param32 => exact fun u addr hrun => (alloc_small h hok hrun).2
  | _ => trivial

end

lemma start_ctrl : CtrlInv start :=
  ⟨state_boot,fun _ => show 0 < nrVregions by decide,fun _ hlive => absurd rfl hlive⟩

structure Created (k : ℕ) (m : System) : Prop where
  alive : m.board.dead = false
  map : ∀ i, m.sysPidMap i = decide (1 ≤ i ∧ i ≤ k)
  pids : ∀ pid, m.board.refcount pid =
    if nrMaxUserPid < pid ∧ pid ≤ k+nrMaxUserPid then some 1 else none

section

variable {m : System} {k : ℕ}

lemma created_next (h : Created k m) (hk : k+1 < nrSystemPid) :
    ∃ u, handleCtrlCreateProc m = .ok (u,BitVec.ofNat 32 (k+1)) ∧ Created (k+1) u := by
  have hbit : findNextZeroBit m.sysPidMap nrSystemPid 1 = k+1 := by
    have hfind : (List.range' 1 (nrSystemPid-1)).find? (fun i => !m.sysPidMap i) = some (k+1) := by
      rw [List.find?_range'_eq_some]
      refine ⟨by simp [h.map],by rw [List.mem_range'_1]; omega,?_⟩
      intro j hlo hhi
      simp only [h.map,Bool.not_not,decide_eq_true_eq]
      omega
    rw [findNextZeroBit,hfind,Option.getD_some]
  have hnone : m.board.refcount (k+1+nrMaxUserPid) = none := by
    rw [h.pids,if_neg (by omega)]
  obtain ⟨u,hu,hmap,hcount,hdead,-⟩ := create_free hbit hk hnone
  refine ⟨u,hu,hdead.trans h.alive,?_,?_⟩
  · intro i
    rw [hmap]
    by_cases hi : i = k+1
    · subst hi
      simp
    · rw [update_of_ne hi,h.map]
      congr 1
      apply propext
      omega
  · intro pid
    rw [hcount]
    by_cases hp : pid = k+1+nrMaxUserPid
    · subst hp
      rw [update_self,if_pos (by omega)]
    · rw [update_of_ne hp,h.pids]
      congr 1
      apply propext
      omega

lemma created_run (k : ℕ) (hk : k < nrSystemPid) :
    ∃ m, run exec (List.replicate k .ctrlCreate) start = some m ∧ Created k m := by
  induction k with
  | zero =>
    refine ⟨start,rfl,rfl,?_,?_⟩
    · intro i
      refine (decide_eq_false ?_).symm
      omega
    · intro pid
      rw [if_neg (by omega)]
      rfl
  | succ k ih =>
    obtain ⟨m,hm,hcreated⟩ := ih (by omega)
    obtain ⟨u,hu,hnext⟩ := created_next hcreated hk
    refine ⟨u,?_,hnext⟩
    rw [List.replicate_succ',run_append]
    refine ⟨m,hm,?_⟩
    simp [run,exec,hcreated.alive,handle,hu,Except.map,Except.toOption]

lemma created_full (h : Created k m) (hk : k+1 = nrSystemPid) :
    ∃ u, handleCtrlCreateProc m = .ok (u,0xffffffff) ∧ u.board.refcount 59999 = some 1 := by
  have hfull : findNextZeroBit m.sysPidMap nrSystemPid 1 = nrSystemPid := by
    have hfind : (List.range' 1 (nrSystemPid-1)).find? (fun i => !m.sysPidMap i) = none := by
      rw [List.find?_range'_eq_none]
      intro j hlo hhi
      simp only [h.map,Bool.not_not,decide_eq_true_eq]
      omega
    rw [findNextZeroBit,hfind,Option.getD_none]
  have hnone : m.board.refcount 59999 = none := by
    rw [h.pids,if_neg]
    unfold nrMaxUserPid
    omega
  have hpid : (-1+(nrMaxUserPid : ℤ)).toNat = 59999 := rfl
  have hneg : ¬-1+(nrMaxUserPid : ℤ) < 0 := by decide
  have hzero : ¬-1+(nrMaxUserPid : ℤ) = 0 := by decide
  have hid : BitVec.ofInt 32 (-1+(nrMaxUserPid : ℤ)-nrMaxUserPid) = 0xffffffff := by decide
  unfold handleCtrlCreateProc createSysProc
  rw [show allocSysPid m = _ from if_pos hfull.ge]
  simp only [hneg,if_false,hpid,allocProc,hnone,ok_bind,hzero,hid]
  exact ⟨_,rfl,by simp [setRefcount]⟩

end

end Clio.CtrlAlloc
