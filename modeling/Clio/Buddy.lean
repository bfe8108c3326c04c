import Clio.VmArea

/-!
# The buddy allocator of physical pages

A zone keeps one free list for each order.
-/

namespace Clio.Buddy

open Function VmArea

structure Page where
  buddy : Bool
  order : ℕ
  deriving DecidableEq, Repr

structure FpgaZone where
  freeList : ℕ → List ℕ
  nrFree : ℕ → ℤ
  pageMap : ℕ → Page

structure Config where
  maxOrder : ℕ
  startPfn : ℕ
  maxPfn : ℕ

variable (cfg : Config)

def pfnInRange (pfn : ℕ) : Prop := cfg.startPfn ≤ pfn ∧ pfn < cfg.maxPfn

instance (pfn : ℕ) : Decidable (pfnInRange cfg pfn) := by
  unfold pfnInRange
  infer_instance

def findBuddyIndex (pageIdx order : ℕ) : ℕ := pageIdx ^^^ 1 <<< order

def setPage (z : FpgaZone) (pfn : ℕ) (p : Page) : FpgaZone :=
  {z with pageMap := update z.pageMap pfn p}

def setPageOrder (z : FpgaZone) (pfn order : ℕ) : FpgaZone := setPage z pfn ⟨true,order⟩

def rmvPageOrder (z : FpgaZone) (pfn : ℕ) : FpgaZone := setPage z pfn ⟨false,0⟩

def listAdd (z : FpgaZone) (pfn order : ℕ) : FpgaZone :=
  {z with
    freeList := update z.freeList order (pfn::z.freeList order)
    nrFree := update z.nrFree order (z.nrFree order+1)}

def listDel (z : FpgaZone) (pfn order : ℕ) : FpgaZone :=
  {z with
    freeList := update z.freeList order ((z.freeList order).erase pfn)
    nrFree := update z.nrFree order (z.nrFree order-1)}

def pageIsBuddy (z : FpgaZone) (pfn order : ℕ) : Bool :=
  (z.pageMap pfn).buddy && (z.pageMap pfn).order == order

def freeOnePageLoop : ℕ → FpgaZone → ℕ → ℕ → ℕ → Except Fault FpgaZone
  | 0, z, pfn, _, order => .ok (listAdd (setPageOrder z pfn order) pfn order)
  | n+1, z, pfn, pageIdx, order =>
      let buddyIdx := findBuddyIndex pageIdx order
      let buddy := pfn+buddyIdx-pageIdx
      if pageIsBuddy z buddy order then
        if buddy ∈ z.freeList order then
          let z := rmvPageOrder (listDel z buddy order) buddy
          let combinedIdx := buddyIdx &&& pageIdx
          freeOnePageLoop n z (pfn+combinedIdx-pageIdx) combinedIdx (order+1)
        else .error .bug
      else .ok (listAdd (setPageOrder z pfn order) pfn order)

def freePagesPrepare (z : FpgaZone) (pfn order : ℕ) : Bool :=
  (List.range (2^order)).any fun i => (z.pageMap (pfn+i)).buddy

def freeOnePage (z : FpgaZone) (pfn order : ℕ) : Except Fault FpgaZone :=
  if freePagesPrepare z pfn order then .ok z
  else freeOnePageLoop (cfg.maxOrder-1-order) z pfn (pfn%2^cfg.maxOrder) order

def freePfn (z : FpgaZone) (pfn order : ℕ) : Except Fault FpgaZone :=
  if pfnInRange cfg pfn then freeOnePage cfg z pfn order else .error .bug

def expand (low pfn : ℕ) : ℕ → FpgaZone → FpgaZone
  | 0, z => z
  | n+1, z =>
      let high := low+n
      expand low pfn n (setPageOrder (listAdd z (pfn+2^high) high) (pfn+2^high) high)

def rmqueueLoop (order : ℕ) : ℕ → ℕ → FpgaZone → FpgaZone × Option ℕ
  | 0, _, z => (z,none)
  | n+1, current, z => match z.freeList current with
    | [] => rmqueueLoop order n (current+1) z
    | pfn::_ =>
        let z := rmvPageOrder (listDel z pfn current) pfn
        (expand order pfn (current-order) z,some pfn)

def allocPage (z : FpgaZone) (order : ℕ) : FpgaZone × Option ℕ :=
  if order ≥ cfg.maxOrder then (z,none)
  else match rmqueueLoop order (cfg.maxOrder-order) order z with
    | (z,none) => (z,none)
    | (z,some pfn) => (setPage z pfn {z.pageMap pfn with order := 0},some pfn)

/-- Frame 0 stands for no page. -/
def allocPfn (z : FpgaZone) (order : ℕ) : Except Fault (FpgaZone × ℕ) :=
  match allocPage cfg z order with
  | (z,none) => .ok (z,0)
  | (z,some pfn) => if pfnInRange cfg pfn then .ok (z,pfn) else .error .bug

def ffs (word : ℕ) : ℕ := ((List.range 64).find? fun i => word.testBit i).getD 64

def adjustOrder (startPfn endPfn : ℕ) : ℕ → ℕ
  | 0 => 0
  | order+1 =>
      if startPfn+2^(order+1) > endPfn then adjustOrder startPfn endPfn order else order+1

def initialFreeLoop : ℕ → FpgaZone → ℕ → Except Fault FpgaZone
  | 0, z, pfn => if pfn < cfg.maxPfn then .error .fuel else .ok z
  | n+1, z, pfn =>
      if pfn < cfg.maxPfn then
        let order := adjustOrder pfn cfg.maxPfn (min (cfg.maxOrder-1) (ffs pfn))
        do
          let z ← freePfn cfg z pfn order
          initialFreeLoop n z (pfn+2^order)
      else .ok z

def initialFreePages (z : FpgaZone) : Except Fault FpgaZone :=
  if cfg.startPfn > cfg.maxPfn then .error .bug
  else initialFreeLoop cfg (cfg.maxPfn-cfg.startPfn) z cfg.startPfn

def emptyZone (order : ℕ → ℕ) : FpgaZone where
  freeList _ := []
  nrFree _ := 0
  pageMap pfn := ⟨false,order pfn⟩

def initBuddy (order : ℕ → ℕ) : Except Fault FpgaZone := initialFreePages cfg (emptyZone order)

/-! With one order every block is a single page and nothing is split or merged. -/

section

variable {cfg} (hcfg : cfg.maxOrder = 1) (z : FpgaZone)

structure ZoneOk (cfg : Config) (z : FpgaZone) : Prop where
  nodup : (z.freeList 0).Nodup
  flag : ∀ pfn, (z.pageMap pfn).buddy = true ↔ pfn ∈ z.freeList 0
  range : ∀ pfn ∈ z.freeList 0, pfnInRange cfg pfn

include hcfg

lemma alloc_pfn_empty (h : z.freeList 0 = []) : allocPfn cfg z 0 = .ok (z,0) := by
  simp [allocPfn,allocPage,hcfg,rmqueueLoop,h]

lemma alloc_pfn_first (hz : ZoneOk cfg z) {pfn : ℕ} {rest : List ℕ}
    (h : z.freeList 0 = pfn::rest) :
    ∃ z', allocPfn cfg z 0 = .ok (z',pfn) ∧ z'.freeList 0 = rest ∧ ZoneOk cfg z' := by
  have hrange := hz.range pfn (by simp [h])
  have hnodup := hz.nodup
  rw [h,List.nodup_cons] at hnodup
  refine ⟨setPage (expand 0 pfn 0 (rmvPageOrder (listDel z pfn 0) pfn)) pfn ⟨false,0⟩,?_,?_,?_⟩
  · simp [allocPfn,allocPage,hcfg,rmqueueLoop,h,hrange,expand,rmvPageOrder,setPage,listDel]
  · simp [expand,rmvPageOrder,setPage,listDel,h]
  · refine ⟨?_,?_,?_⟩
    · simpa [expand,rmvPageOrder,setPage,listDel,h] using hnodup.2
    · intro q
      by_cases hq : q = pfn
      · subst hq
        simpa [expand,rmvPageOrder,setPage,listDel,h] using hnodup.1
      · have hflag := hz.flag q
        rw [h,List.mem_cons] at hflag
        simpa [expand,rmvPageOrder,setPage,listDel,h,hq] using hflag
    · intro q hq
      apply hz.range q
      simp [expand,rmvPageOrder,setPage,listDel,h] at hq
      simp [h,hq]

lemma free_pfn_spec (hz : ZoneOk cfg z) {pfn : ℕ} (hr : pfnInRange cfg pfn) :
    ∃ z', freePfn cfg z pfn 0 = .ok z' ∧ ZoneOk cfg z' ∧
      z'.freeList 0 = if pfn ∈ z.freeList 0 then z.freeList 0 else pfn::z.freeList 0 := by
  by_cases hmem : pfn ∈ z.freeList 0
  · refine ⟨z,?_,hz,by rw [if_pos hmem]⟩
    simp [freePfn,hr,freeOnePage,freePagesPrepare,(hz.flag pfn).mpr hmem]
  · have hflag : (z.pageMap pfn).buddy = false := by
      simpa [hmem] using hz.flag pfn
    refine ⟨listAdd (setPageOrder z pfn 0) pfn 0,?_,⟨?_,?_,?_⟩,?_⟩
    · simp [freePfn,hr,freeOnePage,freePagesPrepare,hflag,hcfg,freeOnePageLoop]
    · simpa [listAdd,setPageOrder,setPage,hmem] using hz.nodup
    · intro q
      by_cases hq : q = pfn
      · subst hq
        simp [listAdd,setPageOrder,setPage]
      · simpa [listAdd,setPageOrder,setPage,hq] using hz.flag q
    · intro q hq
      simp [listAdd,setPageOrder,setPage] at hq
      rcases hq with rfl | hq
      · exact hr
      · exact hz.range q hq
    · rw [if_neg hmem]
      simp [listAdd,setPageOrder,setPage]

end

end Clio.Buddy
