import Clio.BramCache
import Clio.TableUpdate

/-!
# The translation cache cycle by cycle

Every answer of the page fault unit is inserted, and a shootdown comes some cycles after its lookup.
-/

namespace Clio.CacheOnce

open CoreMemTypes BramCache LookupTable Machine StoppableTable TableUpdate
open Function (update update_self update_of_ne)

/-- The inputs of the table in a cycle: the answer to insert with the cell it may evict, the cell of
a shootdown and the read port. -/
structure Inputs where
  updateValid : Bool
  updateReq : PageTableEntry
  evictionId : BitVec 6
  shootDown : Option (BitVec 6)
  rdValid : Bool
  rdKey : BitVec 60
  rdReady : Bool

def bram : Params := ⟨true,true⟩

def insertWrite (i : Inputs) : LookupWrite 6 60 CompactBits :=
  ⟨getTagMask i.updateReq.pageType,false,i.evictionId,i.updateReq.tag,asCompactBits i.updateReq⟩

def toCycle (i : Inputs) : Cycle 6 60 CompactBits :=
  ⟨i.updateValid,insertWrite i,i.shootDown,i.rdValid,i.rdKey,i.rdReady⟩

/-- The table with the key whose comparison the CAM holds. -/
structure Reads where
  regs : Regs 6 60 CompactBits
  camKey : BitVec 60

def next (m : Reads) (i : Inputs) : Reads :=
  ⟨step bram m.regs (toCycle i),if camEnable m.regs (toCycle i) then i.rdKey else m.camKey⟩

def exec (m : Reads) (i : Inputs) : Option Reads := some (next m i)

/-- The cell that is valid with the key of the insert after the cycle. A shootdown in the cycle of
an insert makes it the cell that is shot down. -/
def filled (m : Reads) (i : Inputs) : Option (BitVec 6) :=
  if wrCellValid bram m.regs (toCycle i) then camCell bram m.regs (toCycle i) else none

/-- The keys differ in a bit that both masks keep. -/
def Differ (key mask key' mask' : BitVec 60) : Prop := (key ^^^ key') &&& (mask &&& mask') ≠ 0

instance (key mask key' mask' : BitVec 60) : Decidable (Differ key mask key' mask') :=
  inferInstanceAs (Decidable (_ ≠ _))

/-- A cell is filled when no other valid one overlaps its page, and not while a lookup waits in the
CAM that was compared with what the cell held before. -/
structure Apart (m : Reads) (i : Inputs) : Prop where
  fresh : ∀ cell, filled m i = some cell → ∀ j, j ≠ cell → m.regs.used j = true →
    Differ i.updateReq.tag (getTagMask i.updateReq.pageType) (m.regs.keyRegs j) (m.regs.maskRegs j)
  unmet : ∀ cell, filled m i = some cell → (next m i).regs.camValid = true →
    (next m i).regs.validVec cell = false

/-- Valid cells are apart, and those in the match vector of a lookup match its key. -/
structure Held (m : Reads) : Prop where
  apart : ∀ i j, i ≠ j → m.regs.used i = true → m.regs.used j = true →
    Differ (m.regs.keyRegs i) (m.regs.maskRegs i) (m.regs.keyRegs j) (m.regs.maskRegs j)
  vec : m.regs.camValid = true → ∀ i, camVec m.regs i = true →
    resVec (content m.regs) m.camKey i = true

lemma differ_comm {key mask key' mask' : BitVec 60} (h : Differ key mask key' mask') :
    Differ key' mask' key mask := by
  unfold Differ
  rwa [BitVec.xor_comm,BitVec.and_comm mask']

lemma not_both {key mask key' mask' tag : BitVec 60} (h : mask &&& (key ^^^ tag) = 0)
    (h' : mask' &&& (key' ^^^ tag) = 0) : ¬Differ key mask key' mask' := by
  rw [Differ,not_not]
  apply BitVec.eq_of_getLsbD_eq
  intro b _
  have hb := congrArg (fun x => x.getLsbD b) h
  have hb' := congrArg (fun x => x.getLsbD b) h'
  simp only [BitVec.getLsbD_and,BitVec.getLsbD_xor,BitVec.ofNat_eq_ofNat,BitVec.getLsbD_zero] at *
  revert hb hb'
  cases key.getLsbD b <;> cases key'.getLsbD b <;> cases mask.getLsbD b <;>
    cases mask'.getLsbD b <;> cases tag.getLsbD b <;> decide

section

variable {m : Reads} {i : Inputs}

lemma held_once (h : Held m) : OnePerKey (content m.regs) := by
  intro key a b ha hb
  by_contra hne
  obtain ⟨hma,hua⟩ := Bool.and_eq_true_iff.mp ha
  obtain ⟨hmb,hub⟩ := Bool.and_eq_true_iff.mp hb
  exact not_both ((match_cell_iff _ _).mp hma) ((match_cell_iff _ _).mp hmb)
    (h.apart a b hne hua hub)

/-- A cell in use before and not written keeps its key, and its match bit is that of its key. -/
lemma kept_vec (h : Held m) {a : BitVec 6} (hkey : (next m i).regs.keyRegs a = m.regs.keyRegs a)
    (hmask : (next m i).regs.maskRegs a = m.regs.maskRegs a)
    (hused : (next m i).regs.used a = m.regs.used a) (hcam : (next m i).regs.camValid = true)
    (hvec : camVec (next m i).regs a = true) :
    resVec (content (next m i).regs) (next m i).camKey a = true := by
  obtain ⟨hvalid,hset⟩ := Bool.and_eq_true_iff.mp hvec
  have hmatch : ∀ key, resVec (content (next m i).regs) key a = resVec (content m.regs) key a := by
    intro key
    simp [resVec,matchCell,content,hkey,hmask,hused]
  rw [hmatch]
  cases hen : camEnable m.regs (toCycle i) with
  | true =>
    simp only [next,step,hen,if_true] at hvalid
    rw [hused] at hset
    simp only [next,hen,if_true]
    exact Bool.and_eq_true_iff.mpr ⟨hvalid,hset⟩
  | false =>
    simp only [next,step,hen] at hvalid hcam
    simp only [next,hen]
    exact h.vec hcam a (Bool.and_eq_true_iff.mpr ⟨hvalid,hused ▸ hset⟩)

lemma next_held (h : Held m) (hok : Apart m i) : Held (next m i) := by
  cases hcell : camCell bram m.regs (toCycle i) with
  | none =>
    have hsame : (next m i).regs.keyRegs = m.regs.keyRegs ∧
        (next m i).regs.maskRegs = m.regs.maskRegs ∧ (next m i).regs.used = m.regs.used := by
      simp [next,step,hcell]
    obtain ⟨hkey,hmask,hused⟩ := hsame
    refine ⟨?_,fun hcam a => kept_vec h (by rw [hkey]) (by rw [hmask]) (by rw [hused]) hcam⟩
    rw [hkey,hmask,hused]
    exact h.apart
  | some cell =>
    have hother : ∀ a, a ≠ cell → (next m i).regs.keyRegs a = m.regs.keyRegs a ∧
        (next m i).regs.maskRegs a = m.regs.maskRegs a ∧
        (next m i).regs.used a = m.regs.used a := by
      intro a ha
      simp [next,step,hcell,update_of_ne ha]
    have hown : (next m i).regs.keyRegs cell = i.updateReq.tag ∧
        (next m i).regs.maskRegs cell = getTagMask i.updateReq.pageType ∧
        (next m i).regs.used cell = wrCellValid bram m.regs (toCycle i) := by
      simp only [next,step,hcell,update_self]
      exact ⟨rfl,rfl,trivial⟩
    have hfilled : (next m i).regs.used cell = true → filled m i = some cell := by
      intro hset
      rw [filled,← hown.2.2,if_pos hset,hcell]
    -- a valid cell beside the one that was written
    have hbeside : ∀ a, a ≠ cell → (next m i).regs.used a = true →
        (next m i).regs.used cell = true → Differ ((next m i).regs.keyRegs cell)
          ((next m i).regs.maskRegs cell) ((next m i).regs.keyRegs a)
          ((next m i).regs.maskRegs a) := by
      intro a ha hset hcellset
      obtain ⟨hkey,hmask,hused⟩ := hother a ha
      rw [hown.1,hown.2.1,hkey,hmask]
      exact hok.fresh cell (hfilled hcellset) a ha (hused ▸ hset)
    refine ⟨fun a b hab ha hb => ?_,fun hcam a hvec => ?_⟩
    · by_cases hac : a = cell
      · subst hac
        exact hbeside b (Ne.symm hab) hb ha
      · by_cases hbc : b = cell
        · subst hbc
          exact differ_comm (hbeside a hac ha hb)
        · obtain ⟨hka,hma,hua⟩ := hother a hac
          obtain ⟨hkb,hmb,hub⟩ := hother b hbc
          rw [hka,hma,hkb,hmb]
          exact h.apart a b hab (hua ▸ ha) (hub ▸ hb)
    · by_cases hac : a = cell
      · subst hac
        obtain ⟨hvalid,hset⟩ := Bool.and_eq_true_iff.mp hvec
        rw [hok.unmet a (hfilled hset) hcam] at hvalid
        cases hvalid
      · obtain ⟨hka,hma,hua⟩ := hother a hac
        exact kept_vec h hka hma hua hcam hvec

lemma index_matches (h : Held m) (hcam : m.regs.camValid = true) (hhit : camHit m.regs = true) :
    resVec (content m.regs) m.camKey (camAddr m.regs) = true := by
  obtain ⟨a,ha⟩ := (any_indices _).mp hhit
  have hone : ∀ b, camVec m.regs b = true → b = a := fun b hb =>
    held_once h m.camKey b a (h.vec hcam b hb) (h.vec hcam a ha)
  rw [camAddr,ohToUInt,fold_index _ a hone ha (indices 6) (mem_indices a)]
  exact h.vec hcam a ha

end

/-- If answers are inserted apart, a tag matches one cell at most and the index read is that of a
matching cell. -/
theorem pages_held_once (s : Regs 6 60 CompactBits) (hs : Reset s) (is : List Inputs) (m : Reads)
    (hok : Guarded exec Apart is ⟨s,0⟩) (hrun : run exec is ⟨s,0⟩ = some m) :
    (∀ (pid : BitVec 16) (va : BitVec 64) i j, resVec (content m.regs) (genTag pid va) i = true →
      resVec (content m.regs) (genTag pid va) j = true → i = j) ∧
    (m.regs.camValid = true → camHit m.regs = true → resVec (content m.regs) m.camKey
      (camAddr m.regs) = true) := by
  have hheld : Held m := by
    refine run_invariant exec Apart Held ?_ is _ m ⟨?_,?_⟩ hok hrun
    · intro m i u hm hi hu
      cases hu
      exact next_held hm hi
    · intro i j _ hi
      exact absurd hi (by simp [hs.used])
    · intro _ i hi
      exact absurd hi (by simp [camVec,hs.used])
  exact ⟨fun pid va => held_once hheld (genTag pid va),index_matches hheld⟩

/-- The answer for the page at 4 MiB of process `pid`. -/
def pageOf (pid : BitVec 16) : PageTableEntry :=
  ⟨0,true,true,0,0x540000000,genTag pid 0x400000,0⟩

def insert (pid : BitVec 16) : Inputs := ⟨true,pageOf pid,0,none,false,0,true⟩

def ask (pid : BitVec 16) : Inputs := ⟨false,emptyPte,0,none,true,genTag pid 0x400000,true⟩

def resetCells : Regs 6 60 CompactBits := resetRegs ⟨0,false,false,0⟩

/-- Two pages are inserted and the second one is asked for. -/
theorem pages_held_once_two : ∃ m, run exec [insert 0,insert 1,ask 1] ⟨resetCells,0⟩ = some m ∧
    camAddr m.regs = 1 ∧ resVec (content m.regs) m.camKey (camAddr m.regs) = true := by
  refine ⟨_,rfl,by decide +kernel,(pages_held_once resetCells (reset_regs _)
    [insert 0,insert 1,ask 1] _ ?_ rfl).2 (by decide +kernel) (by decide +kernel)⟩
  refine ⟨⟨?_,?_⟩,⟨?_,?_⟩,⟨?_,?_⟩,trivial⟩ <;> decide +kernel

/-- Three misses of one page are in flight together and their answers fill three cells; the index
read is a fourth. -/
theorem page_held_thrice :
    ∃ m, run exec [insert 0,insert 0,insert 0,ask 0] ⟨resetCells,0⟩ = some m ∧
    resVec (content m.regs) (genTag 0 0x400000) 0 = true ∧
    resVec (content m.regs) (genTag 0 0x400000) 1 = true ∧
    camAddr m.regs = 3 ∧ m.regs.used 3 = false :=
  ⟨_,rfl,by decide +kernel,by decide +kernel,by decide +kernel,by decide +kernel⟩

end Clio.CacheOnce
