import Clio.LookupTable
import Clio.MemoryAccess

/-!
# The translation cache and its shootdown

The cache answers a lookup from a matching cell or forwards it to the fetch unit.
-/

namespace Clio.BramCache

open CoreMemTypes FetchUnit MemoryAccess LookupTable

structure CompactBits where
  ppa : BitVec 40
  used : Bool
  allocated : Bool
  pageType : BitVec 2
  deriving DecidableEq, Repr

def asCompactBits (pte : PageTableEntry) : CompactBits :=
  ⟨pte.ppa, pte.used, pte.allocated, pte.pageType⟩

def compact (pte : PageTableEntry) (bits : CompactBits) : PageTableEntry :=
  { pte with used := bits.used, allocated := bits.allocated, pageType := bits.pageType,
             ppa := bits.ppa }

abbrev Cache := Table 6 60 CompactBits

inductive Answer where
  | res (pte : PageTableEntry)
  | fwd (req : AddressLookupRequest)
  | none
  deriving DecidableEq, Repr

def lookupCtrl (cache : Cache) (req : AddressLookupRequest) : Cache × Answer :=
  match req.reqType with
  | .SHOOTDOWN =>
      (if hit cache req.tag then shootDown cache (rdaddr cache req.tag) else cache, .none)
  | .LOOKUP =>
      (cache, if hit cache req.tag
        then .res { compact emptyPte (rdvalue cache req.tag) with seqId := req.seqId }
        else .fwd req)

def insertReq (cache : Cache) (cell : BitVec 6) (pte : PageTableEntry) : Cache :=
  write cache cell pte.tag (getTagMask pte.pageType) (asCompactBits pte)

lemma inserted_matches (used : Bool) (tag input : BitVec 60) (pageType : BitVec 2)
    (value : CompactBits) :
    matchCell ⟨used, tag, getTagMask pageType, value⟩ input = tagMatch pageType tag input := by
  rw [Bool.eq_iff_iff,match_cell_iff,tagMatch,beq_iff_eq]

def tlbFlush (buf : LegoMemHeader) (pid : BitVec 16) (va size : BitVec 64) :
    LegoMemAccessHeader where
  header := { buf with pid := pid, reqType := RequestType.CACHE_SHOOTDOWN, cont := 1, size := 28 }
  addr := va
  length := size.setWidth 32

/-- The cache after the request sent for the range `[start, stop)`. -/
def flushRange (cache : Cache) (buf : LegoMemHeader) (pid : BitVec 16)
    (start stop : BitVec 64) : Cache :=
  (lookupCtrl cache (generateLookupRequest (tlbFlush buf pid start (stop-start)))).1

def PageOf (start stop va : BitVec 64) : Prop :=
  va.toNat%2^22 = 0 ∧ start.toNat ≤ va.toNat ∧ va.toNat < stop.toNat

def Flushed (cache : Cache) (pid : BitVec 16) (start stop : BitVec 64) : Prop :=
  ∀ va, PageOf start stop va → ∀ i, resVec cache (genTag pid va) i = false

variable (buf : LegoMemHeader) (pid : BitVec 16) (va : BitVec 64)

lemma flush_request (size : BitVec 64) :
    generateLookupRequest (tlbFlush buf pid va size) =
      ⟨buf.seqId.setWidth 16, genTag pid va, .SHOOTDOWN⟩ := by
  simp [generateLookupRequest,tlbFlush]

variable (cache : Cache)

lemma shootdown_cells (req : AddressLookupRequest) (htype : req.reqType = .SHOOTDOWN)
    (hone : ∀ i j, resVec cache req.tag i = true → resVec cache req.tag j = true → i = j)
    (key : BitVec 60) (i : BitVec 6) :
    resVec (lookupCtrl cache req).1 key i = true ↔
      resVec cache key i = true ∧ resVec cache req.tag i = false := by
  simp only [lookupCtrl,htype]
  by_cases hh : hit cache req.tag = true
  · obtain ⟨j,hj⟩ := (hit_iff cache req.tag).mp hh
    have haddr : rdaddr cache req.tag = j :=
      rdaddr_unique cache req.tag j hj (fun m hm => hone m j hm hj)
    rw [if_pos hh,haddr,shoot_down_res]
    refine and_congr_right (fun _ => ?_)
    rw [← Bool.not_eq_true]
    exact not_congr ⟨fun h => h ▸ hj,fun h => hone i j h hj⟩
  · have hnone : resVec cache req.tag i = false := by
      rw [← Bool.not_eq_true]
      exact fun hi => hh ((hit_iff cache req.tag).mpr ⟨i,hi⟩)
    simp [hh,hnone]

lemma flush_cells (buf : LegoMemHeader) (pid : BitVec 16) (start stop : BitVec 64)
    (hone : OnePerKey cache) (key : BitVec 60) (i : BitVec 6) :
    resVec (flushRange cache buf pid start stop) key i = true ↔
      resVec cache key i = true ∧ resVec cache (genTag pid start) i = false := by
  rw [flushRange,flush_request]
  exact shootdown_cells cache _ rfl (hone _) key i

/-- The shootdown of a freed range suffices if its first page matches all cells of the range. -/
theorem flush_covers_range_iff (cache : Cache) (buf : LegoMemHeader) (pid : BitVec 16)
    (start stop : BitVec 64) (hone : OnePerKey cache) :
    Flushed (flushRange cache buf pid start stop) pid start stop ↔
      ∀ va, PageOf start stop va → ∀ i, resVec cache (genTag pid va) i = true →
        resVec cache (genTag pid start) i = true := by
  constructor
  · intro h va hva i hi
    by_contra hfirst
    have hkeep := (flush_cells cache buf pid start stop hone (genTag pid va) i).mpr
      ⟨hi,by simpa using hfirst⟩
    rw [h va hva i] at hkeep
    cases hkeep
  · intro h va hva i
    rw [← Bool.not_eq_true]
    intro hi
    obtain ⟨hold,hfirst⟩ := (flush_cells cache buf pid start stop hone (genTag pid va) i).mp hi
    rw [h va hva i hold] at hfirst
    cases hfirst

def noCells : Cache := ⟨fun _ => ⟨false, 0, 0, ⟨0, false, false, 0⟩⟩, fun _ => true⟩

def oneCell (pid : BitVec 16) (va : BitVec 64) : Cache :=
  insertReq noCells 0 ⟨0, true, true, 0, 0x540000000, genTag pid va, 0⟩

lemma one_cell_res (key : BitVec 60) (i : BitVec 6) :
    resVec (oneCell pid va) key i = true ↔ i = 0 ∧ tagMatch 0 (genTag pid va) key = true := by
  rw [oneCell,insertReq,write_res,inserted_matches]
  have hno : resVec noCells key i = false := by simp [resVec,noCells]
  simp [hno]

lemma one_cell_once : OnePerKey (oneCell pid va) := by
  intro key i j hi hj
  rw [((one_cell_res pid va key i).mp hi).1,((one_cell_res pid va key j).mp hj).1]

lemma flush_all_caches_iff (start stop : BitVec 64) (hstart : start.toNat%2^22 = 0) :
    (∀ cache, OnePerKey cache → Flushed (flushRange cache buf pid start stop) pid start stop) ↔
      stop.toNat ≤ start.toNat+2^22 := by
  constructor
  · intro h
    by_contra hlong
    have hstop := stop.isLt
    have hnext : (start+0x400000#64).toNat = start.toNat+2^22 := by
      rw [BitVec.toNat_add]
      simp
      omega
    have hva : PageOf start stop (start+0x400000#64) := ⟨by omega,by omega,by omega⟩
    have hgone := h _ (one_cell_once pid (start+0x400000#64)) _ hva 0
    have hkeep := (flush_cells _ buf pid start stop (one_cell_once pid (start+0x400000#64))
      (genTag pid (start+0x400000#64)) 0).mpr ⟨(one_cell_res _ _ _ _).mpr
        ⟨rfl,(tag_match_zero _ _).mpr rfl⟩,?_⟩
    · rw [hgone] at hkeep
      cases hkeep
    · rw [← Bool.not_eq_true,one_cell_res,tag_match_zero,gen_tag_page_iff]
      omega
  · intro hshort cache hone va hva i
    have hpage : va = start := by
      obtain ⟨hal,hlo,hhi⟩ := hva
      apply BitVec.eq_of_toNat_eq
      omega
    rw [← Bool.not_eq_true,hpage,flush_cells cache buf pid start stop hone]
    rintro ⟨hold,hgone⟩
    rw [hold] at hgone
    cases hgone

def zeroHeader : LegoMemHeader := ⟨0, 0, 0, 0, false, false, 0, 0, 0, 0, 0, 0, 0⟩

theorem flush_covers_one_page :
    Flushed (flushRange (oneCell 1 0x400000) zeroHeader 1 0x400000 0x800000) 1 0x400000 0x800000 :=
  (flush_covers_range_iff (oneCell 1 0x400000) zeroHeader 1 0x400000 0x800000
    (one_cell_once 1 0x400000)).mpr (by
      intro va hva i hi
      have hpage : va = 0x400000 := by
        obtain ⟨hal,hlo,hhi⟩ := hva
        apply BitVec.eq_of_toNat_eq
        simp at hlo hhi ⊢
        omega
      rwa [hpage] at hi)

/-- Freeing two pages leaves the translation of the second one in the cache. -/
theorem flush_misses_second_page :
    OnePerKey (oneCell 1 0x800000) ∧
      ¬Flushed (flushRange (oneCell 1 0x800000) zeroHeader 1 0x400000 0xc00000)
        1 0x400000 0xc00000 := by
  refine ⟨one_cell_once 1 0x800000,?_⟩
  intro h
  have hsecond := h 0x800000 (by unfold PageOf; decide) 0
  revert hsecond
  decide

end Clio.BramCache
