import Clio.Buddy
import Clio.FindVaRange

/-!
# The page tables of the board

One hashed page table serves all processes.
-/

namespace Clio.Pgtable

open Function VmArea Buddy

structure LegoMemPte where
  ppa : ℕ
  allocated : Bool
  valid : Bool
  tag : ℕ
  deriving DecidableEq, Repr

def fpgaNumPtePerBucket : ℕ := 16
def fpgaNumPgtableBuckets : ℕ := 2^15
def fpgaMemoryMapMappingBase : ℕ := 0x500000000

abbrev Table := ℕ → Fin 16 → LegoMemPte

structure ConflictInfo where
  pid : ℕ
  idx : ℕ
  start : ℕ
  pageSize : ℕ
  deriving DecidableEq, Repr

structure ShadowBucketInfo where
  nrFree : ℤ
  nrConflicts : ℤ
  conflicts : List ConflictInfo
  deriving DecidableEq, Repr

/-- The vRegions of every process, both page tables and the buddy allocator. -/
structure Soc where
  vregion : ℕ → ℕ → VregionInfo
  shadow : Table
  fpga : Table
  info : ℕ → ShadowBucketInfo
  nrAllocatedPtes : ℤ
  zone : FpgaZone
  globalSparePfn : ℕ
  cachedVregionStart : ℕ

def board : Config := ⟨1,256,512⟩

def addrToBucketIndex (addr : ℕ) : ℕ := addr/pageSize%fpgaNumPgtableBuckets

def generateTag (pid addr : ℕ) : ℕ := 2^44*(pid%2^16)+addr/2^20

def setPte (t : Table) (b : ℕ) (i : Fin 16) (pte : LegoMemPte) : Table :=
  update t b (update (t b) i pte)

def setInfo (s : Soc) (b : ℕ) (info : ShadowBucketInfo) : Soc :=
  { s with info := update s.info b info }

def setVregion (s : Soc) (pid idx : ℕ) (v : VmaTree) : Soc :=
  { s with vregion := update s.vregion pid (update (s.vregion pid) idx
      { s.vregion pid idx with toVmaTree := v }) }

/-- The entry of the shadow table for an address. -/
def addrToShadowPte (s : Soc) (pid addr : ℕ) : Option (Fin 16) :=
  (List.finRange 16).find? fun i =>
    let pte := s.shadow (addrToBucketIndex addr) i
    pte.allocated && pte.tag == generateTag pid addr

/-- The entry is found for the page. -/
def Found (s : Soc) (pid p : ℕ) (i : Fin 16) : Prop :=
  (s.shadow (addrToBucketIndex p) i).allocated = true ∧
    (s.shadow (addrToBucketIndex p) i).tag = generateTag pid p

instance (s : Soc) (pid p : ℕ) (i : Fin 16) : Decidable (Found s pid p i) :=
  inferInstanceAs (Decidable (_ ∧ _))

def pages (start stop : ℕ) : List ℕ :=
  (List.range ((stop-start+pageSize-1)/pageSize)).map fun k => start+k*pageSize

def freeSlot (s : Soc) (b : ℕ) : Option (Fin 16) :=
  (List.finRange 16).find? fun i => !(s.shadow b i).allocated

/-- The first entry that is not allocated is taken. -/
def allocOneShadowPte (s : Soc) (pid addr : ℕ) : Option (Soc × Fin 16) :=
  let b := addrToBucketIndex addr
  (freeSlot s b).map fun i =>
    ({ setInfo s b { s.info b with nrFree := (s.info b).nrFree-1 } with
        shadow := setPte s.shadow b i ⟨(s.shadow b i).ppa,true,false,generateTag pid addr⟩
        nrAllocatedPtes := s.nrAllocatedPtes+1 },i)

def setFpga (s : Soc) (b : ℕ) (i : Fin 16) (pte : LegoMemPte) : Soc :=
  { s with fpga := setPte s.fpga b i pte }

def populateFrame (s : Soc) (vmFlags pfn : ℕ) : ℕ :=
  if pfn = 0 ∧ vmFlags &&& vmFlagsUseSparePfn ≠ 0 then s.globalSparePfn else pfn

def allocOneFpgaPte (s : Soc) (b : ℕ) (i : Fin 16) (vmFlags : ℕ) : Except Fault Soc :=
  let pte := s.fpga b i
  if pte.allocated then .ok s
  else
    let pte := { pte with allocated := true, tag := (s.shadow b i).tag }
    if vmFlags &&& vmFlagsPopulate ≠ 0 then do
      let (zone,free) ← allocPfn board s.zone 0
      let pfn := populateFrame s vmFlags free
      let s := { s with zone := zone }
      if pfn = 0 then return setFpga s b i pte
      else if pfnInRange board pfn then
        return setFpga s b i
          { pte with ppa := pfn*pageSize+fpgaMemoryMapMappingBase, valid := true }
      else .error .bug
    else .ok (setFpga s b i { pte with ppa := 0, valid := false })

def allocPte (s : Soc) (pid addr vmFlags : ℕ) : Except Fault Soc :=
  match allocOneShadowPte s pid addr with
  | none => .ok s
  | some (s,i) => allocOneFpgaPte s (addrToBucketIndex addr) i vmFlags

def allocFpgaPteRange (s : Soc) (pid start stop vmFlags : ℕ) : Except Fault Soc :=
  (pages start stop).foldlM (fun s addr => allocPte s pid addr vmFlags) s

def ppaToPfn (ppa : ℕ) : ℕ := sub64 ppa fpgaMemoryMapMappingBase/pageSize

/-- A valid entry gives its frame back. -/
def zapPte (s : Soc) (b : ℕ) (i : Fin 16) : Except Fault Soc :=
  let pte := s.fpga b i
  if pte.allocated then
    if pte.valid then do
      let zone ← freePfn board s.zone (ppaToPfn pte.ppa) 0
      return setFpga { s with zone := zone } b i ⟨0,false,false,0⟩
    else .ok (setFpga s b i { pte with allocated := false, tag := 0 })
  else .ok s

def zapBoth (zapShadow : Soc → ℕ → Fin 16 → Except Fault Soc) (s : Soc) (b : ℕ) (i : Fin 16) :
    Except Fault Soc := do
  let s ← zapShadow s b i
  zapPte s b i

def freePte (zapShadow : Soc → ℕ → Fin 16 → Except Fault Soc) (s : Soc) (pid addr : ℕ) :
    Except Fault Soc :=
  match addrToShadowPte s pid addr with
  | none => .ok s
  | some i => zapBoth zapShadow s (addrToBucketIndex addr) i

def freePteRange (zapShadow : Soc → ℕ → Fin 16 → Except Fault Soc) (s : Soc)
    (pid start stop : ℕ) : Except Fault Soc :=
  (pages start stop).foldlM (fun s addr => freePte zapShadow s pid addr) s

def unmapRange (vma : VmAreaStruct) (start stop : ℕ) : Option (ℕ × ℕ) :=
  let lo := max vma.vmStart start
  let hi := min vma.vmEnd stop
  if lo ≥ vma.vmEnd then none
  else if hi ≤ vma.vmStart then none
  else if lo ≠ hi ∧ vma.vmFlags ≠ vmFlagsConflict then some (lo,hi)
  else none

def unmapSingleVma (zapShadow : Soc → ℕ → Fin 16 → Except Fault Soc) (s : Soc) (pid : ℕ)
    (vma : VmAreaStruct) (start stop : ℕ) : Except Fault Soc :=
  match unmapRange vma start stop with
  | none => .ok s
  | some (lo,hi) => freePteRange zapShadow s pid lo hi

def unmapRegion (zapShadow : Soc → ℕ → Fin 16 → Except Fault Soc) (s : Soc) (pid : ℕ)
    (vmas : List VmAreaStruct) (start stop : ℕ) : Except Fault Soc :=
  vmas.foldlM (fun s vma => unmapSingleVma zapShadow s pid vma start stop) s

def freeVaWith (zapShadow : Soc → ℕ → Fin 16 → Except Fault Soc) (s : Soc)
    (pid idx start len : ℕ) : Except Fault (Soc × ℤ) := do
  let (v,err,vmas) ← freeVaAreas (s.vregion pid idx).toVmaTree start len (fun _ => true)
  let s ← unmapRegion zapShadow (setVregion s pid idx v) pid vmas start ((start+len)%2^64)
  return (s,err)

def freeConflict (s : Soc) (ci : ConflictInfo) : Except Fault Soc := do
  let (s,_) ← freeVaWith (fun _ _ _ => .error .deadlock) s ci.pid ci.idx ci.start ci.pageSize
  return s

def freeAllConflicts (b : ℕ) : List ConflictInfo → Soc → Except Fault Soc
  | [], s => .ok s
  | ci::cis, s => do
      let info := s.info b
      let s := setInfo s b { info with conflicts := cis, nrConflicts := info.nrConflicts-1 }
      let s ← freeConflict s ci
      freeAllConflicts b cis s

def zapShadowPte (s : Soc) (b : ℕ) (i : Fin 16) : Except Fault Soc :=
  if (s.shadow b i).allocated then do
    let info := { s.info b with nrFree := (s.info b).nrFree+1 }
    let s := { setInfo s b info with nrAllocatedPtes := s.nrAllocatedPtes-1 }
    let s ← freeAllConflicts b info.conflicts s
    return { s with shadow := setPte s.shadow b i ⟨(s.shadow b i).ppa,false,false,0⟩ }
  else .ok s

/-- `__free_va`. -/
def freeVaLocked (s : Soc) (pid idx start len : ℕ) : Except Fault (Soc × ℤ) :=
  freeVaWith zapShadowPte s pid idx start len

end Clio.Pgtable
