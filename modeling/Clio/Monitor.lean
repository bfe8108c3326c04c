import Clio.Migration
import Clio.SessionAddress
import Clio.VmArea

/-!
# The processes of the monitor

Process numbers come from a bitmap, and each process has a counted record.
-/

namespace Clio.Monitor

open List Function Machine SessionAddress VmArea Errno
open Option (bind_some map_some)
open Migration (Board MigrationReq)

def nrMaxUserPid : ℕ := 60000

structure ProcInfo where
  pid : BitVec 32
  refcount : ℤ
  freeList : List ℕ
  board : ℕ → Board

structure State where
  pidMap : ℕ → Bool
  procs : List ProcInfo
  boards : List Board

structure Reply where
  ret : ℤ
  pid : BitVec 32 := 0
  vregionIdx : ℕ := 0
  deriving DecidableEq, Repr

/-! ## Process numbers -/

/-- The error is -1 as an unsigned number. -/
def allocPid (map : ℕ → Bool) : (ℕ → Bool) × BitVec 32 :=
  let bit := findNextZeroBit map nrMaxUserPid 1
  if bit ≥ nrMaxUserPid then (map,-1)
  else (update map bit true,BitVec.ofNat 32 bit)

def freePid (map : ℕ → Bool) (pid : BitVec 32) : Option (ℕ → Bool) :=
  if pid.toNat ≥ nrMaxUserPid then none
  else if map pid.toNat then some (update map pid.toNat false)
  else none

/-- All vRegions but the first are unused. -/
def initProcInfo (pid : BitVec 32) (memory : ℕ → Board) : ProcInfo where
  pid := pid
  refcount := 1
  freeList := List.range' 1 (nrVregions-1)
  board := memory

def handleCreateProc (m : State) (malloc : Option (ℕ → Board)) : Option (State × Reply) :=
  let (map,pid) := allocPid m.pidMap
  -- no number is below zero
  match malloc with
  | none => (freePid map pid).map fun map => ({ m with pidMap := map },{ ret := -ENOMEM })
  | some memory =>
      some ({ m with pidMap := map, procs := initProcInfo pid memory::m.procs },
        { ret := 0, pid := pid })

/-! ## References -/

def hasPid (pid : BitVec 32) (pi : ProcInfo) : Bool := pi.pid = pid

def setProc (pid : BitVec 32) (f : ProcInfo → ProcInfo) : List ProcInfo → List ProcInfo
  | [] => []
  | pi::procs => if hasPid pid pi then f pi::procs else pi::setProc pid f procs

def getProcInfo (pi : ProcInfo) : ProcInfo := { pi with refcount := pi.refcount+1 }

/-- Outer `none`: the count is below 1. -/
def getProcByPid (m : State) (pid : BitVec 32) : Option (Option (State × ProcInfo)) :=
  match m.procs.find? (hasPid pid) with
  | none => some none
  | some pi =>
      if pi.refcount < 1 then none
      else some (some ({ m with procs := setProc pid getProcInfo m.procs },pi))

def putProcInfo (m : State) (pid : BitVec 32) : State :=
  { m with
    procs :=
      if (m.procs.find? (hasPid pid)).any (·.refcount = 1) then m.procs.eraseP (hasPid pid)
      else setProc pid (fun pi => { pi with refcount := pi.refcount-1 }) m.procs }

def handleFreeProc (m : State) (pid : BitVec 32) : Option (State × Reply) :=
  (getProcByPid m pid).map fun found =>
    match found with
    | none => (m,{ ret := -ESRCH })
    | some (m,_) => (putProcInfo (putProcInfo m pid) pid,{ ret := 0 })

def setFreeList (m : State) (pid : BitVec 32) (vs : List ℕ) : State :=
  { m with procs := setProc pid (fun pi => { pi with freeList := vs }) m.procs }

/-- `board` is the board found online. -/
def handleAlloc (m : State) (pid : BitVec 32) (len : ℕ) (board : Option Board) :
    Option (State × Reply) :=
  (getProcByPid m pid).map fun found =>
    match found with
    | none => (m,{ ret := -ESRCH })
    | some (m,pi) =>
        if len = 0 then (putProcInfo m pid,{ ret := -EINVAL })
        else
          match pi.freeList with
          | [] => (putProcInfo m pid,{ ret := -ENOMEM })
          | v::vs =>
              match board with
              | none => (putProcInfo (setFreeList m pid (vs++[v])) pid,{ ret := -ENODEV })
              | some _ => (putProcInfo (setFreeList m pid vs) pid,{ ret := 0, vregionIdx := v })

/-- The boards are known and both agree. -/
def Agreed (m : State) (req : MigrationReq) (notifyRecv notifySend : ℤ) : Prop :=
  req.src ∈ m.boards ∧ req.dst ∈ m.boards ∧ notifyRecv = 0 ∧ notifySend = 0

instance (m : State) (req : MigrationReq) (notifyRecv notifySend : ℤ) :
    Decidable (Agreed m req notifyRecv notifySend) := inferInstanceAs (Decidable (_ ∧ _))

def recordBoard (v : ℕ) (board : Board) (pi : ProcInfo) : ProcInfo :=
  { pi with board := update pi.board v board }

def handleMigrationH2m (m : State) (pid : BitVec 32) (req : MigrationReq)
    (notifyRecv notifySend : ℤ) : Option (State × Reply) :=
  if Agreed m req notifyRecv notifySend then
    (getProcByPid m pid).bind fun found =>
      found.bind fun (m,_) =>
        if req.vregionIndex ≥ nrVregions then none
        else some ({ m with procs := setProc pid (recordBoard req.vregionIndex req.dst) m.procs },
          { ret := 0 })
  else some (m,{ ret := -EFAULT })

/-- The header of a request has 16 bits for the process. -/
inductive Request where
  | create (malloc : Option (ℕ → Board))
  | free (pid : BitVec 16)
  | alloc (pid : BitVec 16) (len : ℕ) (board : Option Board)
  | migrate (pid : BitVec 16) (req : MigrationReq) (notifyRecv notifySend : ℤ)

def handle (m : State) : Request → Option (State × Reply)
  | .create malloc => handleCreateProc m malloc
  | .free pid => handleFreeProc m (pid.setWidth 32)
  | .alloc pid len board => handleAlloc m (pid.setWidth 32) len board
  | .migrate pid req recv send => handleMigrationH2m m (pid.setWidth 32) req recv send

def exec (m : State) (r : Request) : Option State := (handle m r).map Prod.fst

def boot (boards : List Board) : State := ⟨fun _ => false,[],boards⟩

/-! ## References kept and released -/

section

variable {m : State} {pid : BitVec 32} {f g : ProcInfo → ProcInfo} {pi : ProcInfo}

variable (procs : List ProcInfo)

lemma set_set (hg : ∀ pi, (g pi).pid = pi.pid) :
    setProc pid f (setProc pid g procs) = setProc pid (fun pi => f (g pi)) procs := by
  induction procs with
  | nil => rfl
  | cons pi procs ih =>
    by_cases h : hasPid pid pi
    · have hgpi : hasPid pid (g pi) := by simpa [hasPid,hg] using h
      simp [setProc,h,hgpi]
    · simp [setProc,h,ih]

lemma set_same (hf : ∀ pi, f pi = pi) : setProc pid f procs = procs := by
  induction procs with
  | nil => rfl
  | cons pi procs ih =>
    rw [setProc,hf,ih]
    exact ite_self _

lemma find_set (hf : ∀ pi, (f pi).pid = pi.pid) (q : BitVec 32) :
    (setProc pid f procs).find? (hasPid q) =
      if q = pid then (procs.find? (hasPid pid)).map f else procs.find? (hasPid q) := by
  induction procs with
  | nil => simp [setProc]
  | cons pi procs ih =>
    rw [setProc]
    by_cases h : hasPid pid pi
    · have hfpi : ∀ q, hasPid q (f pi) = hasPid q pi := fun q => by simp [hasPid,hf]
      by_cases hq : q = pid
      · subst hq
        simp [h,hfpi]
      · have hno : hasPid q pi = false := by
          have hpi : pi.pid = pid := by simpa [hasPid] using h
          simp [hasPid,hpi,Ne.symm hq]
        simp [h,hfpi,hno,hq]
    · by_cases hq : q = pid
      · subst hq
        simpa [h] using ih
      · simp only [h,hq,if_false] at ih ⊢
        cases hpi : hasPid q pi <;> simp [hpi,ih]

lemma mem_set {procs : List ProcInfo} (h : pi ∈ setProc pid f procs) :
    pi ∈ procs ∨ ∃ old, procs.find? (hasPid pid) = some old ∧ pi = f old := by
  induction procs with
  | nil => cases h
  | cons p procs ih =>
    rw [setProc] at h
    split at h
    case isTrue hp =>
      rcases mem_cons.mp h with rfl | h
      · exact .inr ⟨p,by simp [hp],rfl⟩
      · exact .inl (by simp [h])
    case isFalse hp =>
      rcases mem_cons.mp h with rfl | h
      · exact .inl (by simp)
      · rcases ih h with h | ⟨old,hold,he⟩
        · exact .inl (by simp [h])
        · exact .inr ⟨old,by simpa [hp] using hold,he⟩

section

variable (hfind : m.procs.find? (hasPid pid) = some pi) (hpi : 1 ≤ pi.refcount)
include hfind hpi

lemma put_held (hg : ∀ pi, (g pi).pid = pi.pid ∧ (g pi).refcount = pi.refcount+1) :
    putProcInfo { m with procs := setProc pid g m.procs } pid =
      { m with
        procs := setProc pid (fun pi => { g pi with refcount := pi.refcount }) m.procs } := by
  have hfound : (setProc pid g m.procs).find? (hasPid pid) = some (g pi) := by
    rw [find_set _ (fun pi => (hg pi).1),if_pos rfl,hfind,map_some]
  have hmore : (g pi).refcount ≠ 1 := by
    rw [(hg pi).2]
    omega
  rw [putProcInfo,hfound,Option.any_some,decide_eq_false hmore]
  simp [set_set _ (fun pi => (hg pi).1),(hg _).2]

lemma put_got :
    putProcInfo { m with procs := setProc pid getProcInfo m.procs } pid = m := by
  rw [put_held (g := getProcInfo) hfind hpi (fun _ => ⟨rfl,rfl⟩)]
  exact congrArg (fun procs => { m with procs := procs }) (set_same m.procs fun _ => rfl)

lemma handle_free_found :
    handleFreeProc m pid = some (putProcInfo m pid,{ ret := 0 }) := by
  rw [handleFreeProc,getProcByPid,hfind]
  simp only [if_neg (not_lt.mpr hpi),map_some,put_got hfind hpi]

lemma handle_alloc_found (len : ℕ) (board : Option Board) : handleAlloc m pid len board = some (
      if len = 0 then (m,{ ret := -EINVAL })
      else
        match pi.freeList with
        | [] => (m,{ ret := -ENOMEM })
        | v::vs =>
            match board with
            | none => (setFreeList m pid (vs++[v]),{ ret := -ENODEV })
            | some _ => (setFreeList m pid vs,{ ret := 0, vregionIdx := v })) := by
  have hgot (vs : List ℕ) : putProcInfo (setFreeList
      { m with procs := setProc pid getProcInfo m.procs } pid vs) pid = setFreeList m pid vs := by
    rw [setFreeList,set_set (g := getProcInfo) _ (fun _ => rfl)]
    exact put_held hfind hpi (fun _ => ⟨rfl,rfl⟩)
  rw [handleAlloc,getProcByPid,hfind]
  simp only [if_neg (not_lt.mpr hpi),map_some,put_got hfind hpi,hgot]

variable {req : MigrationReq} {recv send : ℤ}

lemma handle_migration_found (hagreed : Agreed m req recv send)
    (hidx : req.vregionIndex < nrVregions) :
    handleMigrationH2m m pid req recv send = some ({ m with
      procs := setProc pid (fun pi => recordBoard req.vregionIndex req.dst (getProcInfo pi))
        m.procs },{ ret := 0 }) := by
  rw [handleMigrationH2m,if_pos hagreed,getProcByPid,hfind]
  simp only [if_neg (not_lt.mpr hpi),bind_some,if_neg (not_le.mpr hidx),
    set_set (g := getProcInfo) m.procs (fun _ => rfl)]

/-- The answer and the record of the process are those of the monitor in `Migration`. -/
lemma handle_migration_agrees (s : Migration.State) (hboards : s.monitorBoards = m.boards)
    (howners : pi.board = s.owners) (hidx : req.vregionIndex < nrVregions) :
    ∃ m' reply pi', handleMigrationH2m m pid req recv send = some (m',reply) ∧
      m'.procs.find? (hasPid pid) = some pi' ∧
      reply.ret = (Migration.handleMigrationH2m s req recv send).2 ∧
      pi'.board = (Migration.handleMigrationH2m s req recv send).1.owners := by
  have hcases : Migration.handleMigrationH2m s req recv send =
      if Agreed m req recv send then
        ({ s with owners := update s.owners req.vregionIndex req.dst },0)
      else (s,-EFAULT) := by
    rw [Migration.handleMigrationH2m,hboards]
    unfold Agreed
    split_ifs <;> simp_all
  rw [hcases]
  by_cases hagreed : Agreed m req recv send
  · rw [handle_migration_found hfind hpi hagreed hidx,if_pos hagreed]
    refine ⟨_,_,recordBoard req.vregionIndex req.dst (getProcInfo pi),rfl,?_,rfl,?_⟩
    · rw [find_set (f := fun pi => recordBoard _ _ (getProcInfo pi)) _ (fun _ => rfl),if_pos rfl,
        hfind]
      rfl
    · rw [recordBoard,getProcInfo,howners]
  · rw [handleMigrationH2m,if_neg hagreed,if_neg hagreed]
    exact ⟨m,_,pi,rfl,hfind,rfl,howners⟩

end

end

/-! ## Balanced references -/

def Balanced (m : State) : Prop := ∀ pi ∈ m.procs, pi.refcount = 1

/-- The counts are 1, a free takes the process out, and a migration comes back. -/
def Served (m : State) (r : Request) : Prop :=
  (∀ m' reply, handle m r = some (m',reply) → Balanced m' ∧
    ∀ pid : BitVec 16, (m'.procs.find? (hasPid (pid.setWidth 32))).isSome →
      handle m' (.free pid) = some
        ({ m' with procs := m'.procs.eraseP (hasPid (pid.setWidth 32)) },{ ret := 0 })) ∧
  ∀ pid req recv send, r = .migrate pid req recv send → ∃ m' reply, handle m r = some (m',reply) ∧
    (m.procs.find? (hasPid (pid.setWidth 32)) = none → m' = m ∧ reply.ret ≠ 0)

def Refused (m : State) (r : Request) : Prop :=
  ∀ pid req recv send, r = .migrate pid req recv send → ¬Agreed m req recv send

section

variable {m m' : State} {r : Request} {reply : Reply}

lemma balanced_find (hm : Balanced m) {pid : BitVec 32} {pi : ProcInfo}
    (hfind : m.procs.find? (hasPid pid) = some pi) : pi.refcount = 1 :=
  hm pi (List.mem_of_find?_eq_some hfind)

lemma balanced_free (hm : Balanced m) {pid : BitVec 32} {pi : ProcInfo}
    (hfind : m.procs.find? (hasPid pid) = some pi) : handleFreeProc m pid =
      some ({ m with procs := m.procs.eraseP (hasPid pid) },{ ret := 0 }) := by
  have hpi := balanced_find hm hfind
  rw [handle_free_found hfind hpi.ge,putProcInfo,hfind]
  simp [hpi]

lemma not_found {pid : BitVec 32} (h : m.procs.find? (hasPid pid) = none) (len : ℕ)
    (board : Option Board) : handleFreeProc m pid = some (m,{ ret := -ESRCH }) ∧
      handleAlloc m pid len board = some (m,{ ret := -ESRCH }) := by
  simp [handleFreeProc,handleAlloc,getProcByPid,h]

lemma set_refs (P : ℤ → Prop) (hm : ∀ pi ∈ m.procs, P pi.refcount) (pid : BitVec 32) (vs : List ℕ) :
    ∀ pi ∈ (setFreeList m pid vs).procs, P pi.refcount := by
  intro pi hpi
  rcases mem_set hpi with h | ⟨old,h,rfl⟩
  · exact hm pi h
  · exact hm old (mem_of_find?_eq_some h)

lemma alloc_refs (P : ℤ → Prop) (hpos : ∀ n, P n → 1 ≤ n) (hm : ∀ pi ∈ m.procs, P pi.refcount)
    (pid : BitVec 32) (len : ℕ) (board : Option Board)
    (h : handleAlloc m pid len board = some (m',reply)) : ∀ pi ∈ m'.procs, P pi.refcount := by
  cases hfind : m.procs.find? (hasPid pid) with
  | none =>
    rw [(not_found hfind len board).2] at h
    cases h
    exact hm
  | some pi =>
    rw [handle_alloc_found hfind (hpos _ (hm pi (mem_of_find?_eq_some hfind)))] at h
    split_ifs at h
    · cases h
      exact hm
    · cases hv : pi.freeList with
      | nil =>
        simp only [hv,Option.some.injEq,Prod.mk.injEq] at h
        exact h.1 ▸ hm
      | cons v vs =>
        cases board <;> simp only [hv,Option.some.injEq,Prod.mk.injEq] at h <;>
          exact h.1 ▸ set_refs P hm pid _

lemma migrate_cases {pid : BitVec 32} {req : MigrationReq} {recv send : ℤ}
    (hagreed : Agreed m req recv send)
    (h : handleMigrationH2m m pid req recv send = some (m',reply)) :
    ∃ pi, m.procs.find? (hasPid pid) = some pi ∧ 1 ≤ pi.refcount ∧ m'.procs =
      setProc pid (fun pi => recordBoard req.vregionIndex req.dst (getProcInfo pi)) m.procs := by
  have hcall := h
  rw [handleMigrationH2m,if_pos hagreed,getProcByPid] at hcall
  cases hfind : m.procs.find? (hasPid pid) with
  | none => simp [hfind] at hcall
  | some pi =>
    by_cases hpi : pi.refcount < 1
    · simp [hfind,hpi] at hcall
    · by_cases hidx : req.vregionIndex ≥ nrVregions
      · simp [hfind,hpi,hidx] at hcall
      · rw [handle_migration_found hfind (not_lt.mp hpi) hagreed (not_le.mp hidx)] at h
        cases h
        exact ⟨pi,rfl,not_lt.mp hpi,rfl⟩

lemma balanced_step (hm : Balanced m) (hr : Refused m r) (h : handle m r = some (m',reply)) :
    Balanced m' := by
  cases r with
  | create malloc =>
    cases malloc with
    | none =>
      obtain ⟨map,-,hmap⟩ := Option.map_eq_some_iff.mp h
      cases hmap
      exact hm
    | some memory =>
      cases h
      intro pi hpi
      rcases mem_cons.mp hpi with rfl | hpi
      · rfl
      · exact hm pi hpi
  | free pid =>
    cases hfind : m.procs.find? (hasPid (pid.setWidth 32)) with
    | none =>
      rw [handle,(not_found hfind 0 none).1] at h
      cases h
      exact hm
    | some pi =>
      rw [handle,balanced_free hm hfind] at h
      cases h
      exact fun pi hpi => hm pi (mem_of_mem_eraseP hpi)
  | alloc pid len board => exact alloc_refs (· = 1) (fun _ hn => hn.ge) hm _ len board h
  | migrate pid req recv send =>
    rw [handle,handleMigrationH2m,if_neg (hr pid req recv send rfl)] at h
    cases h
    exact hm

lemma served_iff (hm : Balanced m) : Served m r ↔ Refused m r := by
  constructor
  · rintro ⟨hserved,hback⟩ pid req recv send rfl hagreed
    obtain ⟨m',reply,h,hunknown⟩ := hback pid req recv send rfl
    obtain ⟨pi,hfind,-,hm'⟩ := migrate_cases hagreed h
    have hpi := balanced_find hm hfind
    -- the reference taken for the record is still there
    obtain ⟨hbal,-⟩ := hserved _ _ h
    have hfound : m'.procs.find? (hasPid (pid.setWidth 32)) =
        some (recordBoard req.vregionIndex req.dst (getProcInfo pi)) := by
      rw [hm',find_set (f := fun pi => recordBoard _ _ (getProcInfo pi)) _ (fun _ => rfl),
        if_pos rfl,hfind]
      rfl
    have htwo : pi.refcount+1 = 1 := hbal _ (mem_of_find?_eq_some hfound)
    omega
  · intro hr
    refine ⟨fun m' reply h => ?_,?_⟩
    · have hbal := balanced_step hm hr h
      refine ⟨hbal,fun pid hpid => ?_⟩
      obtain ⟨pi,hpi⟩ := Option.isSome_iff_exists.mp hpid
      exact balanced_free hbal hpi
    · rintro pid req recv send rfl
      rw [handle,handleMigrationH2m,if_neg (hr pid req recv send rfl)]
      exact ⟨m,_,rfl,fun _ => ⟨rfl,by decide⟩⟩

lemma balance_iff (reqs : List Request) (hm : Balanced m) :
    Guarded exec Served reqs m ↔ Guarded exec Refused reqs m := by
  induction reqs generalizing m with
  | nil => exact Iff.rfl
  | cons r reqs ih =>
    rw [Guarded,Guarded,served_iff hm]
    refine and_congr_right fun hr => ?_
    cases h : handle m r with
    | none => simp [exec,h]
    | some next => simpa [exec,h] using ih (balanced_step hm hr h)

end

/-- The references are balanced exactly as long as no migration is agreed on. -/
theorem references_balance_iff (boards : List Board) (reqs : List Request) :
    Guarded exec Served reqs (boot boards) ↔ Guarded exec Refused reqs (boot boards) :=
  balance_iff reqs fun _ hpi => by cases hpi

def moved : Request := .migrate 1 ⟨⟨7,1⟩,⟨8,1⟩,3⟩ 0 0

/-- After a migration a free leaves the process, and one of an unknown process stops the monitor. -/
theorem freed_process_stays : ∃ m m' : State,
    run exec [.create (some fun _ => ⟨0,0⟩),moved] (boot [⟨7,1⟩,⟨8,1⟩]) = some m ∧
    m.procs.map (·.refcount) = [2] ∧ handle m (.free 1) = some (m',{ ret := 0 }) ∧
    m'.procs.map (·.pid) = [1] ∧ handle (boot [⟨7,1⟩,⟨8,1⟩]) moved = none := by
  refine ⟨_,_,rfl,rfl,rfl,rfl,rfl⟩

/-! ## Unique numbers -/

/-- The bits are those of the live processes, and a creation fails only if all are taken. -/
def PidsExact (m : State) : Prop :=
  (∀ p, m.pidMap p = true ↔ ∃ pi ∈ m.procs, pi.pid.toNat = p) ∧
  m.procs.Pairwise (fun a b => a.pid ≠ b.pid) ∧
  ∀ memory m' reply, handleCreateProc m (some memory) = some (m',reply) →
    (reply.ret = 0 → 1 ≤ reply.pid.toNat ∧ reply.pid.toNat < nrMaxUserPid) ∧
    (reply.ret = -ENOMEM ↔ m.procs.length = nrMaxUserPid-1)

def Request.creates : Request → Bool
  | .create malloc => malloc.isSome
  | _ => false

def Request.ofPids : Request → Bool
  | .create _ => true
  | .free _ => true
  | _ => false

/-- No process is freed. -/
def FreesNone (m : State) (r : Request) : Prop :=
  ∀ pid, r = .free pid → m.procs.find? (hasPid (pid.setWidth 32)) = none

/-- `n` processes were created, with the numbers up to `n`. -/
structure Numbered (n : ℕ) (m : State) : Prop where
  map : ∀ p, m.pidMap p = decide (1 ≤ p ∧ p ≤ n)
  pids : m.procs.map (fun pi => pi.pid.toNat) = (List.range' 1 n).reverse

variable {n : ℕ}

lemma alloc_numbered {m : State} (h : Numbered n m) (hn : n < nrMaxUserPid-1) :
    allocPid m.pidMap = (update m.pidMap (n+1) true,BitVec.ofNat 32 (n+1)) := by
  have hfind : (List.range' 1 (nrMaxUserPid-1)).find? (fun bit => !m.pidMap bit) = some (n+1) := by
    rw [List.find?_range'_eq_some,mem_range'_1]
    refine ⟨by simp [h.map],by omega,fun j hj hlt => ?_⟩
    rw [h.map,decide_eq_true (by omega)]
    rfl
  rw [allocPid,findNextZeroBit,hfind,Option.getD_some]
  exact if_neg (by omega)

lemma pid_nat (h : n < nrMaxUserPid) : (BitVec.ofNat 32 n).toNat = n := by
  have hnr : nrMaxUserPid = 60000 := rfl
  rw [BitVec.toNat_ofNat,Nat.mod_eq_of_lt (by omega)]

lemma created_numbered {n : ℕ} {m : State} (h : Numbered n m) (hn : n < nrMaxUserPid-1)
    (memory : ℕ → Board) :
    Numbered (n+1) { m with
      pidMap := update m.pidMap (n+1) true
      procs := initProcInfo (BitVec.ofNat 32 (n+1)) memory::m.procs } := by
  refine ⟨fun p => ?_,?_⟩
  · change update m.pidMap (n+1) true p = _
    rw [update_apply,h.map]
    split_ifs with hp
    · exact (decide_eq_true (by omega)).symm
    · exact decide_eq_decide.mpr (by omega)
  · rw [map_cons,h.pids,List.range'_1_concat,reverse_append,initProcInfo,
      pid_nat (by omega),Nat.add_comm]
    rfl

lemma step_numbered {m m' : State} {reply : Reply} (h : Numbered n m) (hn : n < nrMaxUserPid-1)
    {r : Request} (hr : r.ofPids) (hnone : FreesNone m r) (hcall : handle m r = some (m',reply)) :
    Numbered (n+if r.creates then 1 else 0) m' := by
  cases r with
  | create malloc =>
    rw [handle,handleCreateProc,alloc_numbered h hn] at hcall
    cases malloc with
    | some memory =>
      cases hcall
      exact created_numbered h hn memory
    | none =>
      have hback : update m.pidMap (n+1) false = m.pidMap := by
        rw [update_eq_self_iff,h.map,decide_eq_false (by omega)]
      have hlt : ¬n+1 ≥ nrMaxUserPid := by omega
      simp only [freePid,pid_nat (n := n+1) (by omega),if_neg hlt,update_self,if_true,
        map_some,update_idem,hback] at hcall
      cases hcall
      exact h
  | free pid =>
    rw [handle,(not_found (hnone pid rfl) 0 none).1] at hcall
    cases hcall
    exact h
  | alloc pid len board | migrate pid req recv send => cases hr

lemma run_numbered {m m' : State} (h : Numbered n m) (reqs : List Request)
    (hreqs : ∀ r ∈ reqs, r.ofPids) (hrun : run exec reqs m = some m')
    (hnone : Guarded exec FreesNone reqs m) (hn : n+reqs.countP Request.creates < nrMaxUserPid-1) :
    Numbered (n+reqs.countP Request.creates) m' := by
  induction reqs generalizing n m with
  | nil =>
    cases hrun
    exact h
  | cons r reqs ih =>
    obtain ⟨u,hu,hrest⟩ := run_cons exec r reqs m m' hrun
    obtain ⟨⟨u,reply⟩,hcall,rfl⟩ := Option.map_eq_some_iff.mp hu
    have hguard : Guarded exec FreesNone reqs u := by simpa [exec,hcall] using hnone.2
    rw [countP_cons] at hn ⊢
    have hstep := step_numbered h (by omega) (hreqs r (by simp)) hnone.1 hcall
    have hlast := ih hstep (fun r hr => hreqs r (by simp [hr])) hrest hguard (by omega)
    rwa [Nat.add_right_comm,Nat.add_assoc] at hlast

/-- The numbers are exact as long as no process is freed and a number is left. -/
theorem pids_exact (boards : List Board) (reqs : List Request) (hreqs : ∀ r ∈ reqs, r.ofPids)
    (m : State) (hrun : run exec reqs (boot boards) = some m)
    (hnone : Guarded exec FreesNone reqs (boot boards))
    (hleft : reqs.countP Request.creates < nrMaxUserPid-1) : PidsExact m := by
  have hboot : Numbered 0 (boot boards) :=
    ⟨fun p => (decide_eq_false (by omega)).symm,rfl⟩
  have h := run_numbered hboot reqs hreqs hrun hnone (by omega)
  rw [Nat.zero_add] at h
  have hmem : ∀ p, (∃ pi ∈ m.procs, pi.pid.toNat = p) ↔
      1 ≤ p ∧ p ≤ reqs.countP Request.creates := by
    intro p
    rw [← mem_map,h.pids,mem_reverse,mem_range'_1]
    omega
  refine ⟨fun p => by rw [h.map,hmem,decide_eq_true_iff],?_,?_⟩
  · have hnodup : (m.procs.map fun pi => pi.pid.toNat).Nodup := by
      rw [h.pids,nodup_reverse]
      exact nodup_range'
    exact (pairwise_map.mp hnodup).imp fun hne he => hne (congrArg BitVec.toNat he)
  · intro memory m' reply hcall
    rw [handleCreateProc,alloc_numbered h hleft] at hcall
    cases hcall
    have hlen := congrArg List.length h.pids
    rw [length_map,length_reverse,length_range'] at hlen
    refine ⟨fun _ => by rw [pid_nat (by omega)]; omega,iff_of_false ?_ (by omega)⟩
    exact (by decide : (0 : ℤ) ≠ -ENOMEM)

def oneProcess : List Request := [.create (some fun _ => ⟨0,0⟩)]

theorem pids_exact_one : ∃ m, run exec oneProcess (boot []) = some m ∧ PidsExact m := by
  refine ⟨_,rfl,pids_exact [] oneProcess (by simp [oneProcess,Request.ofPids]) _ rfl
    (guarded_of_forall exec FreesNone _ _ ?_) (by decide)⟩
  rintro r hr s pid rfl
  simp [oneProcess] at hr

/-- The number of a process that was freed stays taken. -/
theorem pid_not_recycled : ∃ m, run exec (oneProcess++[.free 1]) (boot []) = some m ∧
    m.pidMap 1 = true ∧ m.procs.length = 0 ∧ ¬PidsExact m := by
  refine ⟨_,rfl,rfl,rfl,?_⟩
  rintro ⟨hbits,-⟩
  obtain ⟨pi,hpi,-⟩ := (hbits 1).mp rfl
  cases hpi

/-! ## vRegions handed out once -/

/-- Allocation requests one after the other, with the vRegions handed out to a process. -/
def allocs (pid : BitVec 32) :
    List (BitVec 32 × ℕ × Option Board) → State → Option (State × List ℕ)
  | [], m => some (m,[])
  | (q,len,board)::reqs, m =>
      (handleAlloc m q len board).bind fun (m,reply) =>
        (allocs pid reqs m).map fun (m,vs) =>
          (m,if reply.ret = 0 ∧ q = pid then reply.vregionIdx::vs else vs)

def Available (m : State) (pid : BitVec 32) (v : ℕ) : Prop :=
  ∃ pi, m.procs.find? (hasPid pid) = some pi ∧ v ∈ pi.freeList

section

variable {m : State} {pid : BitVec 32} {used : List ℕ}

structure Shared (m : State) (pid : BitVec 32) (used vs : List ℕ) : Prop where
  refs : ∀ pi ∈ m.procs, 1 ≤ pi.refcount
  found : ∃ pi, m.procs.find? (hasPid pid) = some pi ∧ pi.freeList = vs
  perm : (used++vs).Perm (List.range' 1 (nrVregions-1))

variable {vs : List ℕ}

lemma shared_set {q : BitVec 32} {pi : ProcInfo} (ws : List ℕ) {used' : List ℕ}
    (h : Shared m pid used vs) (hq : m.procs.find? (hasPid q) = some pi)
    (hperm : (used'++if q = pid then ws else vs).Perm (List.range' 1 (nrVregions-1))) :
    Shared (setFreeList m q ws) pid used' (if q = pid then ws else vs) := by
  refine ⟨fun p hp => ?_,?_,hperm⟩
  · rcases mem_set hp with hp | ⟨old,hold,rfl⟩
    · exact h.refs p hp
    · exact h.refs old (mem_of_find?_eq_some hold)
  · rw [setFreeList,find_set (f := fun pi => { pi with freeList := ws }) _ (fun _ => rfl)]
    by_cases he : q = pid
    · subst he
      exact ⟨{ pi with freeList := ws },by simp [hq],by simp⟩
    · rw [if_neg (Ne.symm he),if_neg he]
      exact h.found

lemma alloc_shared (h : Shared m pid used vs) (q : BitVec 32) (len : ℕ) (board : Option Board) :
    ∃ m' reply vs', handleAlloc m q len board = some (m',reply) ∧
      (q = pid → (reply.ret = 0 ↔ len ≠ 0 ∧ board.isSome ∧ vs ≠ [])) ∧
      (reply.ret = 0 ∧ q = pid → Shared m' pid (used++[reply.vregionIdx]) vs') ∧
      (¬(reply.ret = 0 ∧ q = pid) → Shared m' pid used vs' ∧ vs'.Perm vs) := by
  cases hq : m.procs.find? (hasPid q) with
  | none =>
    refine ⟨m,_,vs,(not_found hq len board).2,?_,fun hf => absurd hf.1 (by decide),
      fun _ => ⟨h,.refl vs⟩⟩
    rintro rfl
    obtain ⟨pi,hpi,-⟩ := h.found
    rw [hq] at hpi
    cases hpi
  | some pi =>
    have hlist : q = pid → pi.freeList = vs := by
      rintro rfl
      obtain ⟨pi',hpi',hvs⟩ := h.found
      cases hq.symm.trans hpi'
      exact hvs
    rw [handle_alloc_found hq (h.refs pi (mem_of_find?_eq_some hq))]
    by_cases hlen : len = 0
    · simp only [hlen,if_true]
      exact ⟨m,_,vs,rfl,fun _ => by simp [EINVAL],fun hf => absurd hf.1 (by decide),
        fun _ => ⟨h,.refl vs⟩⟩
    simp only [hlen,if_false]
    cases hv : pi.freeList with
    | nil =>
      refine ⟨m,_,vs,rfl,fun he => ?_,fun hf => absurd hf.1 (by decide),fun _ => ⟨h,.refl vs⟩⟩
      simp [ENOMEM,← hlist he,hv]
    | cons v rest =>
      have hcons : q = pid → vs = v::rest := fun he => (hlist he).symm.trans hv
      cases board with
      | none =>
        have hperm : (if q = pid then rest++[v] else vs).Perm vs := by
          split_ifs with he
          · rw [hcons he]
            exact perm_append_singleton v rest
          · exact .refl vs
        exact ⟨_,_,_,rfl,fun _ => by simp [ENODEV],fun hf => absurd hf.1 (by decide),
          fun _ => ⟨shared_set _ h hq ((hperm.append_left used).trans h.perm),hperm⟩⟩
      | some b =>
        refine ⟨_,_,if q = pid then rest else vs,rfl,fun he => by simp [hlen,hcons he],
          fun hf => shared_set rest h hq ?_,fun hf => ?_⟩
        · have hperm := h.perm
          rw [hcons hf.2] at hperm
          simpa [hf.2] using hperm
        · have he : q ≠ pid := fun he => hf ⟨rfl,he⟩
          rw [if_neg he]
          refine ⟨?_,.refl vs⟩
          have hset := shared_set rest h hq
            (show (used++if q = pid then rest else vs).Perm _ by rw [if_neg he]; exact h.perm)
          rwa [if_neg he] at hset

lemma allocs_shared (reqs : List (BitVec 32 × ℕ × Option Board)) {ps : List ℕ}
    (h : Shared m pid used ps) : ∃ m' vs ps', allocs pid reqs m = some (m',vs) ∧
      Shared m' pid (used++vs) ps' := by
  induction reqs generalizing m used ps with
  | nil => exact ⟨m,[],ps,rfl,by simpa using h⟩
  | cons req reqs ih =>
    obtain ⟨q,len,board⟩ := req
    obtain ⟨m',reply,ps',hcall,-,hyes,hno⟩ := alloc_shared h q len board
    by_cases hgiven : reply.ret = 0 ∧ q = pid
    · obtain ⟨u,vs,qs,hrun,hu⟩ := ih (hyes hgiven)
      refine ⟨u,reply.vregionIdx::vs,qs,?_,by simpa using hu⟩
      simp only [allocs,hcall,bind_some,hrun,map_some,if_pos hgiven]
    · obtain ⟨u,vs,qs,hrun,hu⟩ := ih (hno hgiven).1
      refine ⟨u,vs,qs,?_,hu⟩
      simp only [allocs,hcall,bind_some,hrun,map_some,if_neg hgiven]

lemma available_iff (h : Shared m pid used vs) (v : ℕ) : Available m pid v ↔ v ∈ vs := by
  obtain ⟨pi,hpi,rfl⟩ := h.found
  constructor
  · rintro ⟨pi',hpi',hv⟩
    cases hpi.symm.trans hpi'
    exact hv
  · exact fun hv => ⟨pi,hpi,hv⟩

end

lemma refs_step {m m' : State} (hm : ∀ pi ∈ m.procs, 1 ≤ pi.refcount) (r : Request)
    (hexec : exec m r = some m') : ∀ pi ∈ m'.procs, 1 ≤ pi.refcount := by
  obtain ⟨⟨m',reply⟩,h,rfl⟩ := Option.map_eq_some_iff.mp hexec
  cases r with
  | create malloc =>
    cases malloc with
    | none =>
      obtain ⟨map,-,hmap⟩ := Option.map_eq_some_iff.mp h
      cases hmap
      exact hm
    | some memory =>
      cases h
      exact forall_mem_cons.mpr ⟨le_rfl,hm⟩
  | free pid =>
    cases hfind : m.procs.find? (hasPid (pid.setWidth 32)) with
    | none =>
      rw [handle,(not_found hfind 0 none).1] at h
      cases h
      exact hm
    | some pi =>
      have hpi := hm pi (mem_of_find?_eq_some hfind)
      rw [handle,handle_free_found hfind hpi] at h
      cases h
      intro p hp
      rw [putProcInfo,hfind,Option.any_some] at hp
      split_ifs at hp with hone
      · exact hm p (mem_of_mem_eraseP hp)
      · -- only the record found loses a reference, and it has two or more
        rcases mem_set hp with hp | ⟨old,hold,rfl⟩
        · exact hm p hp
        · cases hfind.symm.trans hold
          have : pi.refcount ≠ 1 := by simpa using hone
          show 1 ≤ pi.refcount-1
          omega
  | alloc pid len board => exact alloc_refs (1 ≤ ·) (fun _ hn => hn) hm _ len board h
  | migrate pid req recv send =>
    by_cases hagreed : Agreed m req recv send
    · obtain ⟨pi,hfind,hpi,hm'⟩ := migrate_cases hagreed h
      intro p hp
      rw [hm'] at hp
      rcases mem_set hp with hp | ⟨old,hold,rfl⟩
      · exact hm p hp
      · have := hm old (mem_of_find?_eq_some hold)
        show 1 ≤ old.refcount+1
        omega
    · rw [handle,handleMigrationH2m,if_neg hagreed] at h
      cases h
      exact hm

/-- The counts of a monitor that was booted are never below 1. -/
lemma refs_of_run (boards : List Board) (reqs : List Request) (m : State)
    (hrun : run exec reqs (boot boards) = some m) : ∀ pi ∈ m.procs, 1 ≤ pi.refcount :=
  run_preserves exec (fun m => ∀ pi ∈ m.procs, 1 ≤ pi.refcount)
    (fun _ r _ hm h => refs_step hm r h) reqs _ m (fun _ hpi => by cases hpi) hrun

/-- No vRegion is handed out twice, and a request succeeds exactly if one and a board are left. -/
theorem vregions_once (m : State) (hrefs : ∀ pi ∈ m.procs, 1 ≤ pi.refcount) (pid : BitVec 32)
    (memory : ℕ → Board) (hnew : m.procs.find? (hasPid pid) = some (initProcInfo pid memory))
    (reqs : List (BitVec 32 × ℕ × Option Board)) : ∃ m' vs,
      allocs pid reqs m = some (m',vs) ∧ vs.Nodup ∧ (∀ v ∈ vs, 1 ≤ v ∧ v < nrVregions) ∧
      ∀ len board, ∃ m'' reply, handleAlloc m' pid len board = some (m'',reply) ∧
        (reply.ret = 0 ↔ len ≠ 0 ∧ board.isSome ∧ vs.length < nrVregions-1) ∧
        (reply.ret ≠ 0 → ∀ v, Available m'' pid v ↔ Available m' pid v) := by
  have hstart : Shared m pid [] (List.range' 1 (nrVregions-1)) :=
    ⟨hrefs,⟨_,hnew,rfl⟩,by rw [nil_append]⟩
  obtain ⟨m',vs,ps,hrun,h⟩ := allocs_shared reqs hstart
  have hperm : (vs++ps).Perm (List.range' 1 (nrVregions-1)) := h.perm
  have hlen : vs.length+ps.length = nrVregions-1 := by
    rw [← length_append,hperm.length_eq,length_range']
  refine ⟨m',vs,hrun,(nodup_append.mp (hperm.nodup_iff.mpr nodup_range')).1,?_,?_⟩
  · intro v hv
    have hmem := mem_range'_1.mp (hperm.subset (mem_append_left ps hv))
    omega
  · intro len board
    obtain ⟨m'',reply,ps',hcall,hret,-,hno⟩ := alloc_shared h pid len board
    refine ⟨m'',reply,hcall,?_,fun hfail v => ?_⟩
    · have hleft : 0 < ps.length ↔ vs.length < nrVregions-1 := by omega
      rw [hret rfl,← length_pos_iff,hleft]
    · obtain ⟨h',hsame⟩ := hno fun hf => hfail hf.1
      rw [available_iff h',available_iff h,hsame.mem_iff]

/-- A process that another one, migrated before, does not disturb. -/
theorem vregions_once_second : ∃ m m' vs,
    run exec [.create (some fun _ => ⟨0,0⟩),moved,.create (some fun _ => ⟨0,0⟩)]
        (boot [⟨7,1⟩,⟨8,1⟩]) = some m ∧
      allocs 2 [(2,8,none),(1,8,some ⟨7,1⟩),(2,8,some ⟨7,1⟩)] m = some (m',vs) ∧ vs = [2] ∧
      vs.Nodup := by
  refine ⟨_,_,_,rfl,rfl,rfl,?_⟩
  obtain ⟨m',vs,hrun,hnodup,-⟩ := vregions_once _ (refs_of_run [⟨7,1⟩,⟨8,1⟩]
    [.create (some fun _ => ⟨0,0⟩),moved,.create (some fun _ => ⟨0,0⟩)] _ rfl) 2
    (fun _ => ⟨0,0⟩) rfl [(2,8,none),(1,8,some ⟨7,1⟩),(2,8,some ⟨7,1⟩)]
  cases hrun
  exact hnodup

end Clio.Monitor
