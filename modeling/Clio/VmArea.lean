import Clio.Errno
import Clio.Rbtree

/-!
# The VMA tree of a vRegion

The ranges of a vRegion are in a list and in a red-black tree that records the gaps.
-/

namespace Clio.VmArea

open Rbtree Errno

def pageShift : ℕ := 22
def pageSize : ℕ := 2^pageShift
def vregionSizeShift : ℕ := 30
def vregionSize : ℕ := 2^vregionSizeShift
def nrVregions : ℕ := 2^20

def vmFlagsPopulate : ℕ := 0x2
def vmFlagsConflict : ℕ := 0x8
def vmFlagsUseSparePfn : ℕ := 0x10

def vregionTopdown : ℕ := 0x2

/-- `-ENOMEM` as an `unsigned long`. -/
def errEnomem : ℕ := 2^64-12

/-- `-EINVAL` as an `unsigned long`. -/
def errEinval : ℕ := 2^64-22

def isErrValue (x : ℕ) : Prop := 2^64-4095 ≤ x

instance (x : ℕ) : Decidable (isErrValue x) := by
  unfold isErrValue
  infer_instance

/-- The difference of two `unsigned long`. -/
def sub64 (a b : ℕ) : ℕ := (a+2^64-b)%2^64

def pageAlign (x : ℕ) : ℕ := (x+pageSize-1)%2^64/pageSize*pageSize

inductive Fault where
  | bug
  | deadlock
  | fuel
  deriving DecidableEq, Repr

@[simp] lemma ok_bind {α β : Type} (a : α) (f : α → Except Fault β) :
    (Except.ok a >>= f) = f a := rfl

lemma bind_ok_iff {α β : Type} (x : Except Fault α) (f : α → Except Fault β) (b : β) :
    (x >>= f) = .ok b ↔ ∃ a, x = .ok a ∧ f a = .ok b := by
  cases x with
  | error e => simp [Bind.bind,Except.bind]
  | ok a => simp

lemma to_option_eq {α : Type} {x : Except Fault α} {a : α} (h : x.toOption = some a) :
    x = .ok a := by
  cases x with
  | error e => cases h
  | ok b =>
    cases h
    rfl

lemma ok_checked {α : Type} (x : Except Fault α) (P : α → Prop) [DecidablePred P]
    (h : x.toOption.any (fun a => decide (P a)) = true) : ∃ a, x = .ok a ∧ P a := by
  cases x with
  | error e => cases h
  | ok a => exact ⟨a,rfl,of_decide_eq_true h⟩

lemma map_ok {α β : Type} {f : α → β} {x : Except Fault α} {b : β} (h : x.map f = .ok b) :
    ∃ a, x = .ok a ∧ f a = b := by
  cases x with
  | error e => cases h
  | ok a =>
    cases h
    exact ⟨a,rfl,rfl⟩

structure VmAreaStruct where
  vmStart : ℕ
  vmEnd : ℕ
  vmNext : Option ℕ
  vmPrev : Option ℕ
  vmFlags : ℕ
  deriving DecidableEq, Repr

structure VmaTree where
  mmap : Option ℕ
  mmRb : RbTree ℕ
  nrVmas : ℤ
  highestVmEnd : ℕ
  area : ℕ → VmAreaStruct
  /-- The pointer the next allocation of an area returns. -/
  fresh : ℕ

structure VregionInfo extends VmaTree where
  flags : ℕ

def initVregion : VregionInfo where
  flags := vregionTopdown
  mmap := none
  mmRb := .nil
  nrVmas := 0
  highestVmEnd := 0
  area := fun _ => ⟨0,0,none,none,0⟩
  fresh := 0

def setArea (v : VmaTree) (p : ℕ) (f : VmAreaStruct → VmAreaStruct) : VmaTree :=
  {v with area := Function.update v.area p (f (v.area p))}

def setNext (v : VmaTree) (p : ℕ) (next : Option ℕ) : VmaTree :=
  setArea v p fun a => {a with vmNext := next}

def setPrev (v : VmaTree) (p : ℕ) (prev : Option ℕ) : VmaTree :=
  setArea v p fun a => {a with vmPrev := prev}

def setRange (v : VmaTree) (p start stop : ℕ) : VmaTree :=
  setArea v p fun a => {a with vmStart := start, vmEnd := stop}

/-- The free space below an area. -/
def vmaComputeGap (area : ℕ → VmAreaStruct) (p : ℕ) : ℕ :=
  match (area p).vmPrev with
  | none => (area p).vmStart
  | some q => if (area p).vmStart > (area q).vmEnd then (area p).vmStart-(area q).vmEnd else 0

def vmaGapUpdate (v : VmaTree) (p : ℕ) : VmaTree :=
  {v with mmRb := update (vmaComputeGap v.area) p v.mmRb}

def vmaRbErase (v : VmaTree) (p : ℕ) : VmaTree :=
  {v with mmRb := erase (vmaComputeGap v.area) p v.mmRb}

def nextOf (v : VmaTree) : Option ℕ → Option ℕ
  | some q => (v.area q).vmNext
  | none => v.mmap

def setNextOf (v : VmaTree) (prev next : Option ℕ) : VmaTree :=
  match prev with
  | some q => setNext v q next
  | none => {v with mmap := next}

def setPrevOf (v : VmaTree) (next prev : Option ℕ) : VmaTree :=
  match next with
  | some n => setPrev v n prev
  | none => v

def vmaLinkList (v : VmaTree) (vma : ℕ) (prev : Option ℕ) : VmaTree :=
  let next := nextOf v prev
  let v := setNextOf (setPrev v vma prev) prev (some vma)
  setPrevOf (setNext v vma next) next (some vma)

def vmaUnlinkList (v : VmaTree) (vma : ℕ) : VmaTree :=
  let next := (v.area vma).vmNext
  let prev := (v.area vma).vmPrev
  setPrevOf (setNextOf v prev next) next prev

def vmaLinkRb (v : VmaTree) (vma : ℕ) (link : List Dir) : VmaTree :=
  let v := match (v.area vma).vmNext with
    | some n => vmaGapUpdate v n
    | none => {v with highestVmEnd := (v.area vma).vmEnd}
  {v with mmRb := insertAt (vmaComputeGap v.area) link vma v.mmRb}

def vmaLink (v : VmaTree) (vma : ℕ) (prev : Option ℕ) (link : List Dir) : VmaTree :=
  let v := vmaLinkRb (vmaLinkList v vma prev) vma link
  {v with nrVmas := v.nrVmas+1}

def findVmaLinksLoop (area : ℕ → VmAreaStruct) (addr stop : ℕ) :
    RbTree ℕ → Option ℕ → Option (Option ℕ × List Dir)
  | .nil, prev => some (prev,[])
  | .node _ l x _ r, prev =>
      if (area x).vmEnd > addr then
        -- fail if an existing area overlaps
        if (area x).vmStart < stop then none
        else (findVmaLinksLoop area addr stop l prev).map fun z => (z.1,.left::z.2)
      else (findVmaLinksLoop area addr stop r (some x)).map fun z => (z.1,.right::z.2)

def findVmaLinks (v : VmaTree) (addr stop : ℕ) : Option (Option ℕ × List Dir) :=
  findVmaLinksLoop v.area addr stop v.mmRb none

def findVmaLoop (area : ℕ → VmAreaStruct) (addr : ℕ) : RbTree ℕ → Option ℕ → Option ℕ
  | .nil, vma => vma
  | .node _ l x _ r, vma =>
      if (area x).vmEnd > addr then
        if (area x).vmStart ≤ addr then some x else findVmaLoop area addr l (some x)
      else findVmaLoop area addr r vma

/-- The first area that ends above `addr`. -/
def findVma (v : VmaTree) (addr : ℕ) : Option ℕ :=
  findVmaLoop v.area addr v.mmRb none

def insertVmStruct (v : VmaTree) (vma : ℕ) : Except Fault VmaTree :=
  match findVmaLinks v (v.area vma).vmStart (v.area vma).vmEnd with
  | none => .error .bug
  | some (prev,link) => .ok (vmaLink v vma prev link)

def vmaResize (v : VmaTree) (vma start stop : ℕ) (next : Option ℕ) (adjustNext : ℤ) :
    VmaTree :=
  let startChanged := start ≠ (v.area vma).vmStart
  let endChanged := stop ≠ (v.area vma).vmEnd
  let v := setRange v vma start stop
  let v := match next with
    | some n => if adjustNext ≠ 0 then
        setArea v n fun a => {a with vmStart := ((a.vmStart : ℤ)+adjustNext).toNat} else v
    | none => v
  let v := if startChanged then vmaGapUpdate v vma else v
  if endChanged then match next with
    | none => {v with highestVmEnd := (v.area vma).vmEnd}
    | some n => if adjustNext = 0 then vmaGapUpdate v n else v
  else v

def vmaRemoveNext (v : VmaTree) (vma start stop next : ℕ) : VmaTree :=
  let v := setRange v vma start stop
  let v := vmaUnlinkList (vmaRbErase v next) next
  {v with nrVmas := v.nrVmas-1}

def vmaGapUpdateNext (v : VmaTree) (vma : ℕ) : VmaTree :=
  match (v.area vma).vmNext with
  | some n => vmaGapUpdate v n
  | none => v

def vmaAdjust (v : VmaTree) (vma start stop : ℕ) (insert expand : Option ℕ) :
    Except Fault VmaTree :=
  match insert with
  | some new => insertVmStruct (setRange v vma start stop) new
  | none => match (v.area vma).vmNext with
    | none => .ok (vmaResize v vma start stop none 0)
    | some next =>
        if stop ≥ (v.area next).vmEnd then
          if expand = some next then
            -- case 8: next is expanded and vma removed
            .ok (vmaGapUpdate (vmaRemoveNext v next start stop vma) next)
          else if stop > (v.area next).vmEnd then
            -- case 6: the area behind next is removed in a second pass
            let v := vmaRemoveNext v vma start (v.area next).vmEnd next
            match (v.area vma).vmNext with
            | none => .error .bug
            | some next' => .ok (vmaGapUpdateNext
                (vmaRemoveNext v vma start (v.area next').vmEnd next') vma)
          else .ok (vmaGapUpdateNext (vmaRemoveNext v vma start stop next) vma)
        else if stop > (v.area next).vmStart then
          .ok (vmaResize v vma start stop (some next) (stop-(v.area next).vmStart))
        else if stop < (v.area vma).vmEnd then
          .ok (vmaResize v vma start stop (some next) (-((v.area vma).vmEnd-stop)))
        else .ok (vmaResize v vma start stop (some next) 0)

/-- A fresh cell that holds `a`. -/
def vmAreaAlloc (v : VmaTree) (a : VmAreaStruct) : VmaTree :=
  {v with area := Function.update v.area v.fresh a, fresh := v.fresh+1}

def splitVma (v : VmaTree) (vma addr : ℕ) (newBelow malloc : Bool) :
    Except Fault (VmaTree × ℤ) :=
  if malloc then do
    let old := v.area vma
    let new := v.fresh
    let dup := if newBelow then {old with vmEnd := addr} else {old with vmStart := addr}
    let v := vmAreaAlloc v dup
    let v ← if newBelow then vmaAdjust v vma addr old.vmEnd (some new) none
      else vmaAdjust v vma old.vmStart addr (some new) none
    return (v,0)
  else return (v,-ENOMEM)

def canVmaMerge (_ : VmAreaStruct) (_ : ℕ) : Bool := true

def mergeNext (v : VmaTree) (area : Option ℕ) (stop : ℕ) : Option ℕ :=
  match area with
  | some a => if (v.area a).vmEnd = stop then (v.area a).vmNext else area
  | none => none

def vmaMerge (v : VmaTree) (prev : Option ℕ) (addr stop vmFlags : ℕ) :
    Except Fault (VmaTree × Option ℕ) :=
  let area := nextOf v prev
  let next := mergeNext v area stop
  let below := prev.filter fun q => (v.area q).vmEnd = addr && canVmaMerge (v.area q) vmFlags
  let above := next.filter fun n => stop = (v.area n).vmStart && canVmaMerge (v.area n) vmFlags
  match below, above with
  | some q, some n => do
      -- cases 1, 6
      let v ← vmaAdjust v q (v.area q).vmStart (v.area n).vmEnd none (some q)
      return (v,some q)
  | some q, none => do
      -- cases 2, 5, 7
      let v ← vmaAdjust v q (v.area q).vmStart stop none (some q)
      return (v,some q)
  | none, some n => match prev.filter (fun q => addr < (v.area q).vmEnd), area with
    | some q, _ => do
        -- case 4
        let v ← vmaAdjust v q (v.area q).vmStart addr none (some n)
        return (v,area)
    | none, some a => do
        -- cases 3, 8
        let v ← vmaAdjust v a addr (v.area n).vmEnd none (some n)
        return (v,some n)
    | none, none => .error .bug
  | none, none => return (v,none)

def detachLoop (stop : ℕ) : ℕ → VmaTree → ℕ → Except Fault (VmaTree × List ℕ × Option ℕ)
  | 0, _, _ => .error .fuel
  | n+1, v, vma =>
      let v := {vmaRbErase v vma with nrVmas := v.nrVmas-1}
      match (v.area vma).vmNext with
      | none => .ok (v,[vma],none)
      | some q =>
          if (v.area q).vmStart < stop then do
            let (v,ps,rest) ← detachLoop stop n v q
            return (v,vma::ps,rest)
          else .ok (v,[vma],some q)

def detachVmasToBeUnmapped (v : VmaTree) (vma : ℕ) (prev : Option ℕ) (stop : ℕ) :
    Except Fault (VmaTree × List ℕ) := do
  let v := setPrev v vma none
  let (v,ps,rest) ← detachLoop stop v.mmRb.toList.length v vma
  let v := setNextOf v prev rest
  let v := match rest with
    | some r => vmaGapUpdate (setPrev v r prev) r
    | none => {v with highestVmEnd := match prev with
        | some q => (v.area q).vmEnd
        | none => 0}
  return (v,ps)

def splitLast (v : VmaTree) (stop : ℕ) (malloc : Bool) : Except Fault (VmaTree × ℤ) :=
  match findVma v stop with
  | some last =>
      if stop > (v.area last).vmStart then splitVma v last stop true malloc else .ok (v,0)
  | none => .ok (v,0)

def freeVaTail (v : VmaTree) (prev : Option ℕ) (stop : ℕ) (malloc : Bool) :
    Except Fault (VmaTree × ℤ × List VmAreaStruct) := do
  let (v,err) ← splitLast v stop malloc
  if err ≠ 0 then return (v,err,[])
  else
    match nextOf v prev with
    | none => .error .bug
    | some vma =>
        let (v,ps) ← detachVmasToBeUnmapped v vma prev stop
        return (v,0,ps.map v.area)

def freeVaAreas (v : VmaTree) (start len : ℕ) (malloc : ℕ → Bool) :
    Except Fault (VmaTree × ℤ × List VmAreaStruct) :=
  if len = 0 then .ok (v,-EINVAL,[])
  else
    let stop := (start+len)%2^64
    match findVma v start with
    | none => .ok (v,0,[])
    | some vma =>
        if (v.area vma).vmStart ≥ stop then .ok (v,0,[])
        else if start > (v.area vma).vmStart then
          if stop < (v.area vma).vmEnd then .ok (v,-ENOMEM,[])
          else do
            let (v,err) ← splitVma v vma start false (malloc 0)
            if err ≠ 0 then return (v,err,[])
            else freeVaTail v (some vma) stop (malloc 1)
        else freeVaTail v (v.area vma).vmPrev stop (malloc 1)

def vmaTreeInsert (v : VmaTree) (prev : Option ℕ) (link : List Dir)
    (addr stop vmFlags : ℕ) (malloc : Bool) : Except Fault (VmaTree × Bool) := do
  let (v,merged) ← vmaMerge v prev addr stop vmFlags
  match merged with
  | some _ => return (v,true)
  | none =>
      if malloc then
        return (vmaLink (vmAreaAlloc v ⟨addr,stop,none,none,vmFlags⟩) v.fresh prev link,true)
      else return (v,false)

end Clio.VmArea
