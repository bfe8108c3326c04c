import Clio.Pgtable

/-!
# Allocating and freeing virtual addresses

An allocation marks pages that fall into full buckets as conflicts and searches again.
-/

namespace Clio.Vm

open VmArea Pgtable FindVaRange Errno

def vmaTreeNewLoop (pid idx addr len vmFlags : ℕ) : ℕ → Soc → Except Fault (Soc × Option ℕ)
  | 0, _ => .error .fuel
  | n+1, s =>
      let v := (s.vregion pid idx).toVmaTree
      match findVmaLinks v addr (addr+len) with
      | none => do
          let (s,err) ← freeVaLocked s pid idx addr len
          if err ≠ 0 then return (s,none) else vmaTreeNewLoop pid idx addr len vmFlags n s
      | some (prev,link) => do
          let (v,done) ← vmaTreeInsert v prev link addr (addr+len) vmFlags true
          return (setVregion s pid idx v,if done then some addr else none)

def vmaTreeNew (s : Soc) (pid idx addr len vmFlags : ℕ) : Except Fault (Soc × Option ℕ) :=
  vmaTreeNewLoop pid idx addr len vmFlags 2 s

def insertConflict (s : Soc) (pid idx addr : ℕ) : Except Fault Soc := do
  let b := addrToBucketIndex addr
  let info := s.info b
  let s := setInfo s b { info with conflicts := ⟨pid,idx,addr,pageSize⟩::info.conflicts,
                                   nrConflicts := info.nrConflicts+1 }
  let (s,_) ← vmaTreeNew s pid idx addr pageSize vmFlagsConflict
  return s

def checkAndInsertShadowConflicts (s : Soc) (pid idx addr len : ℕ) :
    Except Fault (Soc × Bool) :=
  (pages addr (addr+len)).foldlM (fun (x : Soc × Bool) start =>
    if (x.1.info (addrToBucketIndex start)).nrFree = 0 then do
      let s ← insertConflict x.1 pid idx start
      return (s,true)
    else .ok x) (s,false)

def allocFound (s : Soc) (pid idx addr len vmFlags : ℕ) : Except Fault (Soc × ℕ) := do
  let (s,entered) ← vmaTreeNew s pid idx addr len vmFlags
  match entered with
  | none => return (s,0)
  | some addr =>
      let s ← allocFpgaPteRange s pid addr (addr+len) vmFlags
      return (s,addr)

def allocRetry (pid idx len vmFlags : ℕ) : ℕ → Soc → Except Fault (Soc × ℕ)
  | 0, _ => .error .fuel
  | n+1, s => do
      let addr ← findVaRange (s.vregion pid idx) idx len
      if isErrValue addr then
        return ({ s with cachedVregionStart := s.cachedVregionStart+1 },0)
      else if addr%pageSize ≠ 0 then return (s,0)
      else
        let (s,hasConflict) ← checkAndInsertShadowConflicts s pid idx addr len
        if hasConflict then allocRetry pid idx len vmFlags n s
        else allocFound s pid idx addr len vmFlags

def retries : ℕ := 257

/-- `__alloc_va`; address 0 stands for failure. -/
def allocVaVregion (s : Soc) (pid idx len vmFlags : ℕ) : Except Fault (Soc × ℕ) :=
  let len := pageAlign len
  if len > vregionSize then .error .bug else allocRetry pid idx len vmFlags retries s

def allocVaLoop (pid len vmFlags : ℕ) : ℕ → ℕ → Soc → Except Fault (Soc × ℕ)
  | 0, _, s => .ok (s,errEnomem)
  | n+1, i, s => do
      let (s,addr) ← allocVaVregion s pid i len vmFlags
      if addr ≠ 0 ∧ ¬isErrValue addr then return (s,addr)
      else allocVaLoop pid len vmFlags n (i+1) s

/-- The scan begins at the cursor that failed searches advance. -/
def allocVa (s : Soc) (pid len vmFlags : ℕ) : Except Fault (Soc × ℕ) :=
  if len = 0 then .ok (s,errEinval)
  else if (len+vregionSize-1)%2^64/vregionSize%2^32 ≠ 1 then .error .bug
  else
    let first := s.cachedVregionStart%nrVregions
    allocVaLoop pid len vmFlags (nrVregions-first) first s

def freeVaVregion (s : Soc) (pid idx start len : ℕ) : Except Fault (Soc × ℤ) :=
  freeVaLocked s pid idx start len

def vaToVregionIndex (va : ℕ) : ℕ := va/vregionSize%2^32

def freeVaLoop (pid stop : ℕ) : ℕ → Soc → ℕ → ℕ → Except Fault (Soc × ℤ)
  | 0, _, _, _ => .error .fuel
  | n+1, s, start, len =>
      let idx := vaToVregionIndex start
      if idx ≥ nrVregions then .error .bug
      else do
        let vlen := min (sub64 (vregionToEndVa idx) start) len
        let (s,ret) ← freeVaVregion s pid idx start vlen
        if ret ≠ 0 ∨ start+vlen = stop then return (s,ret)
        else freeVaLoop pid stop n s (start+vlen) (len-vlen)

def freeVa (s : Soc) (pid start len : ℕ) : Except Fault (Soc × ℤ) :=
  if len = 0 ∨ start = 0 then .ok (s,-EINVAL)
  else
    let stop := (start+len)%2^64
    if stop < start then .ok (s,-EINVAL)
    else freeVaLoop pid stop (len/vregionSize+2) s start len

end Clio.Vm
