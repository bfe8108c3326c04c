import Clio.Board
import Clio.Machine

/-!
# The control path and reference counts

Beside the host, modules on the board ask for processes and memory.
-/

namespace Clio.Ctrl

open Function VmArea Pgtable Vm Board Machine Errno

def nrMaxSystemPid : ℕ := 65535

def nrMaxUserPid : ℕ := 60000

def nrSystemPid : ℕ := nrMaxSystemPid-nrMaxUserPid

structure System where
  board : State
  cachedVregionIndex : ℕ → ℕ
  sysPidMap : ℕ → Bool
  mvBaseVaddr : ℕ
  mvBaseLimit : ℕ

def start : System := ⟨boot,fun _ => 0,fun _ => false,0,0⟩

def findNextZeroBit (map : ℕ → Bool) (size first : ℕ) : ℕ :=
  ((List.range' first (size-first)).find? fun i => !map i).getD size

def allocSysPid (m : System) : System × ℤ :=
  let bit := findNextZeroBit m.sysPidMap nrSystemPid 1
  if bit ≥ nrSystemPid then (m,-1+nrMaxUserPid)
  else ({ m with sysPidMap := update m.sysPidMap bit true },bit+nrMaxUserPid)

def freeSysPid (m : System) (pid : ℤ) : Except Fault System :=
  if pid < nrMaxUserPid ∨ pid ≥ nrMaxSystemPid then .ok m
  else
    let bit := (pid-nrMaxUserPid).toNat
    if m.sysPidMap bit then .ok { m with sysPidMap := update m.sysPidMap bit false }
    else .error .bug

def resetCache (m : System) (pid : ℕ) : System :=
  match m.board.refcount pid with
  | some _ => m
  | none => { m with cachedVregionIndex := update m.cachedVregionIndex pid 0 }

def openSystem (m : System) (pid : ℕ) : System :=
  { resetCache m pid with board := openProc m.board pid }

def putSystem (m : System) (pid : ℕ) : System := { m with board := putProcInfo m.board pid }

def createSysProc (m : System) : Except Fault (System × ℤ) :=
  let (u,pid) := allocSysPid m
  if pid < 0 then .ok (u,0)
  else match allocProc u.board pid.toNat with
    | none => do
        let u ← freeSysPid u pid
        return ({ u with board := { u.board with dead := true } },0)
    | some b => .ok ({ resetCache u pid.toNat with board := b },pid)

/-- The reply is `param32`. -/
def handleCtrlCreateProc (m : System) : Except Fault (System × BitVec 32) := do
  let (m,pid) ← createSysProc m
  return (m,if pid = 0 then 0 else BitVec.ofInt 32 (pid-nrMaxUserPid))

def ctrlAllocLoop (pid size vmFlags : ℕ) : ℕ → Soc → ℕ → Except Fault (Soc × Option (ℕ × ℕ))
  | 0, _, _ => .error .bug
  | n+1, s, idx => do
      let (s,addr) ← allocVaVregion s pid idx size (vmFlagsPopulate ||| vmFlags)
      if addr ≠ 0 then return (s,some (idx,addr))
      else if idx+1 = nrVregions then return (s,none)
      else ctrlAllocLoop pid size vmFlags n s (idx+1)

/-- `__handle_ctrl_alloc`; address 0 stands for failure. -/
def ctrlAlloc (m : System) (pid size vmFlags : ℕ) : Except Fault (System × ℕ) := do
  let first := m.cachedVregionIndex pid
  let (s,found) ← ctrlAllocLoop pid size vmFlags (nrVregions-first) m.board.soc first
  let m := { m with board := { m.board with soc := s } }
  match found with
  | none => return (m,0)
  | some (idx,addr) =>
      return ({ m with cachedVregionIndex := update m.cachedVregionIndex pid idx },addr)

def handleCtrlAlloc (m : System) (param8 : BitVec 8) (param32 : BitVec 32) :
    Except Fault (System × BitVec 32) :=
  let pid := param8.toNat+nrMaxUserPid
  match getProcByPid m.board pid with
  | none => .ok (m,0)
  | some b => do
      let (m,addr) ← ctrlAlloc { m with board := b } pid param32.toNat 0
      return (m,BitVec.ofNat 32 addr)

def mvIndex : ℕ := 0xFFFFFFFFDEADBEEF

def mvBaseSize : ℕ := vregionSize/2

def mvPrepare (m : System) (pid : ℕ) : Except Fault System :=
  if m.mvBaseVaddr = 0 then do
    let (m,addr) ← ctrlAlloc m pid mvBaseSize 0
    return { m with mvBaseVaddr := addr, mvBaseLimit := (addr+mvBaseSize)%2^64 }
  else .ok m

def handleAllocMv (m : System) (pid len : ℕ) : Except Fault (System × Reply) := do
  let m ← mvPrepare (openSystem m pid) pid
  return (putSystem { m with mvBaseVaddr := (m.mvBaseVaddr+len)%2^64 } pid,⟨0,m.mvBaseVaddr⟩)

def handleAllocFree (m : System) (pid idx len vmFlags : ℕ) : Except Fault (System × Reply) :=
  if idx = mvIndex then handleAllocMv m pid len
  else do
    let (b,reply) ← handleAlloc m.board pid idx len vmFlags
    return ({ resetCache m pid with board := b },reply)

def vregionIndexToVa (idx : ℕ) : ℕ := idx*2^vregionSizeShift%2^64

/-- The allocator does not return error values, so that the reply is always 0. -/
def handleMigrationRecv (m : System) (pid idx : ℕ) : Except Fault (System × ℤ) :=
  let m := openSystem m pid
  if idx ≥ nrVregions then .error .bug
  else do
    let (s,addr) ← allocVaVregion m.board.soc pid idx vregionSize vmFlagsPopulate
    return (putSystem { m with board := { m.board with soc := s } } pid,
      if isErrValue addr then -ENOMEM else 0)

def handleMigrationRecvCancel (m : System) (pid idx : ℕ) : Except Fault (System × ℤ) :=
  match getProcByPid m.board pid with
  | none => .ok (m,-esrch)
  | some b =>
      if idx ≥ nrVregions then .error .bug
      else do
        let (s,_) ← freeVaVregion b.soc pid idx (vregionIndexToVa idx)
          (sub64 (vregionIndexToVa ((idx+1)%2^32)) 1)
        return (putSystem { m with board := { b with soc := s } } pid,0)

inductive Request where
  | alloc (pid idx len vmFlags : ℕ)
  | free (pid start len : ℕ)
  | recv (pid idx : ℕ)
  | cancel (pid idx : ℕ)
  | ctrlAlloc (param8 : BitVec 8) (param32 : BitVec 32)
  | ctrlCreate
  | create (pid : ℕ)
  | close (pid : ℕ)
  deriving DecidableEq, Repr

def handle (m : System) : Request → Except Fault System
  | .alloc pid idx len vmFlags => (handleAllocFree m pid idx len vmFlags).map Prod.fst
  | .free pid start len =>
      (handleFree m.board pid start len).map fun x => { resetCache m pid with board := x.1 }
  | .recv pid idx => (handleMigrationRecv m pid idx).map Prod.fst
  | .cancel pid idx => (handleMigrationRecvCancel m pid idx).map Prod.fst
  | .ctrlAlloc param8 param32 => (handleCtrlAlloc m param8 param32).map Prod.fst
  | .ctrlCreate => (handleCtrlCreateProc m).map Prod.fst
  | .create pid => .ok { resetCache m pid with board := (handleCreateProc m.board pid).1 }
  | .close pid => .ok { m with board := (handleFreeProc m.board pid).1 }

def exec (m : System) (r : Request) : Option System :=
  if m.board.dead then none else (handle m r).toOption

lemma exec_ok {m u : System} {r : Request} (h : exec m r = some u) : handle m r = .ok u := by
  unfold exec at h
  split_ifs at h
  exact to_option_eq h

def Single (refcount : ℕ → Option ℕ) : Prop := ∀ pid r, refcount pid = some r → r = 1

section

variable {m : State} {pid : ℕ}

lemma single_update {refcount : ℕ → Option ℕ} (h : Single refcount) {r : Option ℕ}
    (hr : ∀ k, r = some k → k = 1) : Single (update refcount pid r) := by
  intro p k hk
  by_cases hp : p = pid
  · subst hp
    rw [update_self] at hk
    exact hr k hk
  · rw [update_of_ne hp] at hk
    exact h p k hk

lemma open_put_single (h : Single m.refcount) {u : State}
    (hu : u.refcount = (openProc m pid).refcount) : Single (putProcInfo u pid).refcount := by
  rw [open_proc_refcount] at hu
  have hone : (m.refcount pid).getD 1 = 1 := by
    cases hr : m.refcount pid with
    | none => rfl
    | some r => exact h pid r hr
  rw [put_proc_refcount (r := 2) (by rw [hu,hone,update_self]),hu, update_idem]
  exact single_update h (by simp)

lemma alloc_proc_single (h : Single m.refcount) {u : State} (hu : allocProc m pid = some u) :
    Single u.refcount := by
  unfold allocProc at hu
  cases hr : m.refcount pid with
  | some r => simp [hr] at hu
  | none =>
    simp only [hr] at hu
    cases hu
    exact single_update h (by simp)

end

def Balanced (m : System) : Request → Prop
  | .ctrlAlloc param8 _ => m.board.refcount (param8.toNat+nrMaxUserPid) = none
  | _ => True

instance decidableBalanced (m : System) : (r : Request) → Decidable (Balanced m r)
  | .ctrlAlloc param8 _ =>
      inferInstanceAs (Decidable (m.board.refcount (param8.toNat+nrMaxUserPid) = none))
  | .alloc _ _ _ _ => .isTrue trivial
  | .free _ _ _ => .isTrue trivial
  | .recv _ _ => .isTrue trivial
  | .cancel _ _ => .isTrue trivial
  | .ctrlCreate => .isTrue trivial
  | .create _ => .isTrue trivial
  | .close _ => .isTrue trivial

section

variable {m u : System}

variable {pid : ℕ}

lemma ctrl_alloc_refcount {size vmFlags addr : ℕ}
    (h : ctrlAlloc m pid size vmFlags = .ok (u,addr)) : u.board.refcount = m.board.refcount := by
  unfold ctrlAlloc at h
  obtain ⟨⟨s,found⟩,-,hpure⟩ := (bind_ok_iff _ _ _).mp h
  cases found with
  | none | some x =>
    cases hpure
    rfl

lemma mv_prepare_refcount (h : mvPrepare m pid = .ok u) :
    u.board.refcount = m.board.refcount := by
  unfold mvPrepare at h
  split_ifs at h
  · obtain ⟨⟨v,addr⟩,hv,hpure⟩ := (bind_ok_iff _ _ _).mp h
    cases hpure
    have hboard := ctrl_alloc_refcount hv
    exact hboard
  · cases h
    rfl

variable {reply : Reply}

lemma alloc_mv_single (h : Single m.board.refcount) {len : ℕ}
    (hrun : handleAllocMv m pid len = .ok (u,reply)) : Single u.board.refcount := by
  unfold handleAllocMv at hrun
  obtain ⟨v,hv,hpure⟩ := (bind_ok_iff _ _ _).mp hrun
  cases hpure
  exact open_put_single h (mv_prepare_refcount hv)

lemma handle_alloc_single {b b' : State} (h : Single b.refcount) {idx len vmFlags : ℕ}
    (hrun : handleAlloc b pid idx len vmFlags = .ok (b',reply)) : Single b'.refcount := by
  obtain ⟨-,s,addr,-,rfl,-⟩ := handle_alloc_ok hrun
  exact open_put_single h rfl

lemma handle_free_single {b b' : State} (h : Single b.refcount) {start len : ℕ}
    (hrun : handleFree b pid start len = .ok (b',reply)) : Single b'.refcount := by
  obtain ⟨s,ret,-,rfl,-⟩ := handle_free_ok hrun
  exact open_put_single h rfl

lemma recv_single (h : Single m.board.refcount) {idx : ℕ} {ret : ℤ}
    (hrun : handleMigrationRecv m pid idx = .ok (u,ret)) : Single u.board.refcount := by
  unfold handleMigrationRecv at hrun
  dsimp only at hrun
  split_ifs at hrun
  obtain ⟨⟨s,addr⟩,-,hpure⟩ := (bind_ok_iff _ _ _).mp hrun
  cases hpure
  exact open_put_single h rfl

lemma get_proc_open {b b' : State} (h : getProcByPid b pid = some b') : openProc b pid = b' := by
  unfold openProc
  rw [h]

lemma cancel_single (h : Single m.board.refcount) {idx : ℕ} {ret : ℤ}
    (hrun : handleMigrationRecvCancel m pid idx = .ok (u,ret)) : Single u.board.refcount := by
  unfold handleMigrationRecvCancel at hrun
  cases hget : getProcByPid m.board pid with
  | none =>
    rw [hget] at hrun
    cases hrun
    exact h
  | some b =>
    rw [hget] at hrun
    dsimp only at hrun
    split_ifs at hrun
    obtain ⟨⟨s,err⟩,-,hpure⟩ := (bind_ok_iff _ _ _).mp hrun
    cases hpure
    exact open_put_single h (congrArg State.refcount (get_proc_open hget)).symm

lemma alloc_sys_pid_board (m : System) : (allocSysPid m).1.board = m.board := by
  unfold allocSysPid
  dsimp only
  split_ifs <;> rfl

lemma free_sys_pid_board {pid : ℤ} (h : freeSysPid m pid = .ok u) : u.board = m.board := by
  unfold freeSysPid at h
  dsimp only at h
  split_ifs at h <;> cases h <;> rfl

lemma create_sys_single (h : Single m.board.refcount) {pid : ℤ}
    (hrun : createSysProc m = .ok (u,pid)) : Single u.board.refcount := by
  unfold createSysProc at hrun
  dsimp only at hrun
  rw [← alloc_sys_pid_board m] at h
  split_ifs at hrun
  · cases hrun
    exact h
  · cases hproc : allocProc (allocSysPid m).1.board (allocSysPid m).2.toNat with
    | none =>
      rw [hproc] at hrun
      obtain ⟨v,hv,hpure⟩ := (bind_ok_iff _ _ _).mp hrun
      cases hpure
      rwa [free_sys_pid_board hv]
    | some b =>
      rw [hproc] at hrun
      cases hrun
      exact alloc_proc_single h hproc

lemma step_single {r : Request} (h : Single m.board.refcount) (hok : Balanced m r)
    (hrun : exec m r = some u) : Single u.board.refcount := by
  have hrun := exec_ok hrun
  cases r with
  | alloc pid idx len vmFlags =>
    obtain ⟨⟨v,reply⟩,hv,rfl⟩ := map_ok hrun
    unfold handleAllocFree at hv
    split_ifs at hv
    · exact alloc_mv_single h hv
    · obtain ⟨⟨b,reply⟩,hb,hpure⟩ := (bind_ok_iff _ _ _).mp hv
      cases hpure
      exact handle_alloc_single h hb
  | free pid start len =>
    obtain ⟨⟨b,reply⟩,hb,rfl⟩ := map_ok hrun
    exact handle_free_single h hb
  | recv pid idx =>
    obtain ⟨⟨v,ret⟩,hv,rfl⟩ := map_ok hrun
    exact recv_single h hv
  | cancel pid idx =>
    obtain ⟨⟨v,ret⟩,hv,rfl⟩ := map_ok hrun
    exact cancel_single h hv
  | ctrlAlloc param8 param32 =>
    -- the process does not exist
    have hnone : getProcByPid m.board (param8.toNat+nrMaxUserPid) = none := by
      rw [getProcByPid,show m.board.refcount _ = none from hok]
      rfl
    obtain ⟨⟨v,reply⟩,hv,rfl⟩ := map_ok hrun
    unfold handleCtrlAlloc at hv
    dsimp only at hv
    rw [hnone] at hv
    cases hv
    exact h
  | ctrlCreate =>
    obtain ⟨⟨v,reply⟩,hv,rfl⟩ := map_ok hrun
    obtain ⟨⟨w,pid⟩,hw,hpure⟩ := (bind_ok_iff _ _ _).mp hv
    cases hpure
    exact create_sys_single h hw
  | create pid =>
    cases hrun
    dsimp only
    unfold handleCreateProc
    cases hproc : allocProc m.board pid with
    | none => exact h
    | some b => exact alloc_proc_single h hproc
  | close pid =>
    cases hrun
    dsimp only
    cases hr : m.board.refcount pid with
    | none =>
      have hget : getProcByPid m.board pid = none := by simp [getProcByPid,hr]
      simpa [handleFreeProc,hget] using h
    | some r =>
      obtain rfl := h pid r hr
      rw [free_proc_spec _ pid 1 hr le_rfl]
      exact single_update h (by simp)

end

/-- Every process has one reference if no module allocates for one that exists. Its close takes it
out of the table and ends in the crash of `free`. -/
theorem refcounts_balanced (rs : List Request) (m : System)
    (hok : Guarded exec Balanced rs start) (hrun : run exec rs start = some m) (pid : ℕ)
    (hlive : m.board.refcount pid ≠ none) :
    m.board.refcount pid = some 1 ∧ (handleFreeProc m.board pid).1.refcount pid = none ∧
      (handleFreeProc m.board pid).1.dead = true := by
  have hsingle : Single m.board.refcount := run_invariant exec Balanced
    (fun m => Single m.board.refcount) (fun _ _ _ => step_single) rs start m
    (fun _ _ h => by cases h) hok hrun
  obtain ⟨r,hr⟩ := Option.ne_none_iff_exists'.mp hlive
  obtain rfl := hsingle pid r hr
  rw [free_proc_spec _ pid 1 hr le_rfl]
  exact ⟨hr,by simp [setRefcount],by simp⟩

theorem refcounts_balanced_two : ∃ m, run exec [.create 5,.ctrlAlloc 7 4096,.ctrlCreate] start =
    some m ∧ m.board.refcount 60001 = some 1 ∧
      (handleFreeProc m.board 60001).1.refcount 60001 = none ∧
      (handleFreeProc m.board 60001).1.dead = true := by
  obtain ⟨m,hm,hlive⟩ := exists_checked (run exec [.create 5,.ctrlAlloc 7 4096,.ctrlCreate] start)
    (fun m => m.board.refcount 60001 ≠ none) (by decide +kernel)
  exact ⟨m,hm,refcounts_balanced _ m (by decide +kernel) hm 60001 hlive⟩

/-- A process that a module created and allocated for outlives its close. -/
theorem ctrl_alloc_leaks : ∃ m, run exec [.ctrlCreate,.ctrlAlloc 1 4194304] start = some m ∧
    m.board.refcount 60001 = some 2 ∧ (handleFreeProc m.board 60001).1.refcount 60001 = some 1 :=
  exists_checked _ _ (by decide +kernel)

end Clio.Ctrl
