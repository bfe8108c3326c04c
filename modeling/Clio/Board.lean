import Clio.Vm

/-!
# The board software

The handlers over the processes, the page tables and vRegions and the frames in the FIFO.
-/

namespace Clio.Board

open VmArea Buddy Pgtable Vm Errno

def esrch : ℤ := 3

structure State where
  soc : Soc
  /-- Frames sent to the FIFO and not yet mapped. -/
  fifo : List ℕ
  /-- The reference count of a process that is in the hash table. -/
  refcount : ℕ → Option ℕ
  /-- `free` was called on a record that came from `mmap`: the board software has died. -/
  dead : Bool

def bootZone : FpgaZone where
  freeList order := if order = 0 then (List.range 255).reverse.map (256+·) else []
  nrFree order := if order = 0 then 255 else 0
  pageMap pfn := ⟨decide (256 ≤ pfn ∧ pfn < 511),0⟩

def bootSoc : Soc where
  vregion _ _ := initVregion
  shadow _ _ := ⟨0,false,false,0⟩
  fpga _ _ := ⟨0,false,false,0⟩
  info _ := ⟨fpgaNumPtePerBucket,0,[]⟩
  nrAllocatedPtes := 0
  zone := bootZone
  globalSparePfn := 511
  cachedVregionStart := 0

def boot : State := ⟨bootSoc,[],fun _ => none,false⟩

def setRefcount (m : State) (pid : ℕ) (r : Option ℕ) : State :=
  { m with refcount := Function.update m.refcount pid r }

def allocProc (m : State) (pid : ℕ) : Option State :=
  match m.refcount pid with
  | some _ => none
  | none => some (setRefcount { m with soc := { m.soc with
      vregion := Function.update m.soc.vregion pid fun _ => initVregion } } pid (some 1))

def getProcByPid (m : State) (pid : ℕ) : Option State :=
  (m.refcount pid).map fun r => setRefcount m pid (some (r+1))

/-- With its last reference a process leaves the hash table, and `free` of its record kills the
board. -/
def putProcInfo (m : State) (pid : ℕ) : State :=
  match m.refcount pid with
  | none => m
  | some r =>
      { setRefcount m pid (if r = 1 then none else some (r-1)) with dead := m.dead || r == 1 }

def openProc (m : State) (pid : ℕ) : State :=
  match getProcByPid m pid with
  | some m => m
  | none => match allocProc m pid with
    | none => m
    | some m => (getProcByPid m pid).getD m

structure Reply where
  ret : ℤ
  addr : ℕ
  deriving DecidableEq, Repr

def allocReply (addr : ℕ) : Reply :=
  if isErrValue addr then ⟨-ENOMEM,0xdeadbeef⟩ else ⟨0,addr⟩

/-- `board_soc_handle_alloc_free` for `OP_REQ_ALLOC` with the index of a vRegion. -/
def handleAlloc (m : State) (pid idx len vmFlags : ℕ) : Except Fault (State × Reply) :=
  let m := openProc m pid
  let idx := idx%2^32
  if idx ≥ nrVregions then .error .bug
  else do
    let (s,addr) ← allocVaVregion m.soc pid idx len vmFlags
    return (putProcInfo { m with soc := s } pid,allocReply addr)

def handleFree (m : State) (pid start len : ℕ) : Except Fault (State × Reply) :=
  let m := openProc m pid
  do
    let (s,ret) ← freeVa m.soc pid start len
    return (putProcInfo { m with soc := s } pid,⟨ret,0⟩)

def handleCtrlFreepageAck (m : State) : Except Fault State := do
  let (zone,pfn) ← allocPfn board m.soc.zone 0
  if pfn = 0 then return { m with soc := { m.soc with zone := zone } }
  else return { m with soc := { m.soc with zone := zone }, fifo := m.fifo++[pfn] }

def pageFault (m : State) (b : ℕ) (i : Fin 16) : State :=
  let pte := m.soc.fpga b i
  match m.fifo with
  | [] => m
  | pfn::fifo =>
      if pte.allocated ∧ ¬pte.valid then
        { m with
          soc := setFpga m.soc b i
            { pte with ppa := pfn*pageSize+fpgaMemoryMapMappingBase, valid := true }
          fifo := fifo }
      else m

inductive Request where
  | alloc (pid idx len vmFlags : ℕ)
  | free (pid start len : ℕ)
  | refill
  | fault (b : ℕ) (i : Fin 16)
  deriving DecidableEq, Repr

def handle (m : State) : Request → Except Fault State
  | .alloc pid idx len vmFlags => (handleAlloc m pid idx len vmFlags).map Prod.fst
  | .free pid start len => (handleFree m pid start len).map Prod.fst
  | .refill => handleCtrlFreepageAck m
  | .fault b i => .ok (pageFault m b i)

def exec (m : State) (r : Request) : Option State := (handle m r).toOption

lemma exec_ok {m u : State} {r : Request} (h : exec m r = some u) : handle m r = .ok u :=
  to_option_eq h

def handleCreateProc (m : State) (pid : ℕ) : State × ℤ :=
  match allocProc m pid with
  -- the number exists: `alloc_proc` frees its new record
  | none => ({ m with dead := true },-ENOMEM)
  | some m => (m,0)

def handleFreeProc (m : State) (pid : ℕ) : State × ℤ :=
  match getProcByPid m pid with
  | none => (m,-esrch)
  | some m => (putProcInfo (putProcInfo m pid) pid,0)

lemma boot_zone_ok : ZoneOk board bootZone := by
  have hmem : ∀ pfn, pfn ∈ bootZone.freeList 0 ↔ 256 ≤ pfn ∧ pfn < 511 := by
    intro pfn
    simp only [bootZone,if_true,List.mem_map,List.mem_reverse,List.mem_range]
    constructor
    · rintro ⟨k,hk,rfl⟩
      omega
    · rintro ⟨hlo,hhi⟩
      exact ⟨pfn-256,by omega,by omega⟩
  refine ⟨?_,?_,?_⟩
  · exact (List.nodup_reverse.mpr List.nodup_range).map (fun a b h => Nat.add_left_cancel h)
  · intro pfn
    rw [hmem]
    simp [bootZone]
  · intro pfn hpfn
    obtain ⟨hlo,hhi⟩ := (hmem pfn).mp hpfn
    exact ⟨hlo,show pfn < 512 by omega⟩

section

variable (m : State) (pid : ℕ)

lemma put_proc_soc : (putProcInfo m pid).soc = m.soc := by
  unfold putProcInfo
  split <;> rfl

lemma put_proc_fifo : (putProcInfo m pid).fifo = m.fifo := by
  unfold putProcInfo
  split <;> rfl

lemma open_proc_cases : (openProc m pid).fifo = m.fifo ∧
    ((m.refcount pid ≠ none ∧ (openProc m pid).soc = m.soc) ∨
      (m.refcount pid = none ∧ (openProc m pid).soc = { m.soc with
        vregion := Function.update m.soc.vregion pid fun _ => initVregion })) := by
  unfold openProc getProcByPid
  cases hr : m.refcount pid with
  | some r => exact ⟨rfl,.inl ⟨by simp,rfl⟩⟩
  | none =>
    simp only [Option.map_none,allocProc,hr]
    simp [setRefcount]

lemma open_proc_refcount : (openProc m pid).refcount =
    Function.update m.refcount pid (some ((m.refcount pid).getD 1+1)) := by
  unfold openProc getProcByPid
  cases hr : m.refcount pid with
  | some r => rfl
  | none => simp [allocProc,hr,setRefcount]

end

section

variable {m u : State} {pid : ℕ} {reply : Reply}

lemma put_proc_refcount {r : ℕ} (h : m.refcount pid = some r) : (putProcInfo m pid).refcount =
    Function.update m.refcount pid (if r = 1 then none else some (r-1)) := by
  simp [putProcInfo,h,setRefcount]

lemma free_proc_spec (m : State) (pid r : ℕ) (hr : m.refcount pid = some r) (hpos : 1 ≤ r) :
    (handleFreeProc m pid).1 = { setRefcount m pid (if r = 1 then none else some (r-1)) with
      dead := m.dead || r == 1 } := by
  have hr1 : r ≠ 0 := by omega
  have hzero : (r == 0) = false := beq_false_of_ne hr1
  by_cases h1 : r = 1
  · subst h1
    simp [handleFreeProc,getProcByPid,hr,putProcInfo,setRefcount]
  · simp [handleFreeProc,getProcByPid,hr,putProcInfo,setRefcount,hr1,h1,hzero]

lemma handle_alloc_ok {idx len vmFlags : ℕ}
    (hrun : handleAlloc m pid idx len vmFlags = .ok (u,reply)) :
    idx%2^32 < nrVregions ∧ ∃ s addr,
      allocVaVregion (openProc m pid).soc pid (idx%2^32) len vmFlags = .ok (s,addr) ∧
      u = putProcInfo { openProc m pid with soc := s } pid ∧ reply = allocReply addr := by
  unfold handleAlloc at hrun
  dsimp only at hrun
  split_ifs at hrun with hidx
  obtain ⟨⟨s,addr⟩,hs,hpure⟩ := (bind_ok_iff _ _ _).mp hrun
  cases hpure
  exact ⟨Nat.lt_of_not_le hidx,s,addr,hs,rfl,rfl⟩

lemma handle_free_ok {start len : ℕ} (hrun : handleFree m pid start len = .ok (u,reply)) :
    ∃ s ret, freeVa (openProc m pid).soc pid start len = .ok (s,ret) ∧
      u = putProcInfo { openProc m pid with soc := s } pid ∧ reply = ⟨ret,0⟩ := by
  obtain ⟨⟨s,ret⟩,hs,hpure⟩ := (bind_ok_iff _ _ _).mp hrun
  cases hpure
  exact ⟨s,ret,hs,rfl,rfl⟩

end

end Clio.Board
