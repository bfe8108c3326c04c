import Clio.BramCache

/-!
# The page fault unit

An entry that is allocated and not yet in use takes a physical page from the free page FIFO of its
page type. The unit is seen as a sequence of transfers here: a lookup of its CAM and a write to it
are one step each.
-/

namespace Clio.PageFault

open Function CoreMemTypes BramCache LookupTable

/-- An entry on its way, with the tag looked up and the entry as it came. -/
structure Item where
  req : BitVec 60
  orig : PageTableEntry
  pte : PageTableEntry
  deriving DecidableEq, Repr

structure State where
  cam : Table 4 60 CompactBits
  addrFifos : Fin 3 → List (BitVec 40)
  lookupResult : List Item
  bramWr : List (Bool × Item)
  faultRpt : List (Bool × Item)
  faultFwd : List (Bool × Item)
  memWriteUser : List (BitVec 4)
  memWriteData : List PageTableEntry

def camLookup (cam : Table 4 60 CompactBits) (pte : PageTableEntry) : PageTableEntry :=
  if hit cam pte.tag && pte.used then compact pte (rdvalue cam pte.tag) else pte

instance neZeroThree : NeZero (3 : ℕ) := ⟨by decide⟩

def fifoOf (pageType : BitVec 2) : Fin 3 :=
  if pageType = 0 then 0 else if pageType = 1 then 1 else 2

def noAlloc (pte : PageTableEntry) : Bool := pte.used || !pte.allocated

def arrive (s : State) (tag : BitVec 60) (pte : PageTableEntry) : State :=
  { s with lookupResult := s.lookupResult++[⟨tag, pte, camLookup s.cam pte⟩] }

def fork (s : State) (b : Bool × Item) : State :=
  { s with bramWr := s.bramWr++[b], faultRpt := s.faultRpt++[b], faultFwd := s.faultFwd++[b] }

def Item.fill (it : Item) (ppa : BitVec 40) : Item :=
  { it with pte := { it.pte with used := true, ppa := ppa } }

def merge (s : State) : Option State :=
  match s.lookupResult with
  | [] => none
  | it::rest =>
      if noAlloc it.pte then some (fork { s with lookupResult := rest } (true, it))
      else match s.addrFifos (fifoOf it.pte.pageType) with
        | [] => none
        | ppa::fifo => some (fork { s with
            lookupResult := rest
            addrFifos := update s.addrFifos (fifoOf it.pte.pageType) fifo } (false, it.fill ppa))

def camWrite (s : State) (cell : BitVec 4) : Option State :=
  match s.bramWr with
  | [] => none
  | (true, _)::rest => some { s with bramWr := rest }
  | (false, it)::rest =>
      if s.cam.ids cell then some { s with
        bramWr := rest
        cam := write s.cam cell it.pte.tag 0 (asCompactBits it.pte)
        memWriteUser := s.memWriteUser++[cell] }
      else none

def report (s : State) : Option State :=
  match s.faultRpt with
  | [] => none
  | (true, _)::rest => some { s with faultRpt := rest }
  | (false, it)::rest =>
      some { s with faultRpt := rest, memWriteData := s.memWriteData++[it.pte] }

def memWriteRes (s : State) (cell : BitVec 4) : Option State :=
  if cell ∈ s.memWriteUser then
    some { s with memWriteUser := s.memWriteUser.erase cell, cam := shootDown s.cam cell }
  else none

def refill (s : State) (fifo : Fin 3) (ppa : BitVec 40) : State :=
  { s with addrFifos := update s.addrFifos fifo (s.addrFifos fifo++[ppa]) }

def init (addrFifos : Fin 3 → List (BitVec 40)) : State where
  cam := ⟨fun _ => ⟨false, 0, 0, ⟨0, false, false, 0⟩⟩, fun _ => true⟩
  addrFifos := addrFifos
  lookupResult := []
  bramWr := []
  faultRpt := []
  faultFwd := []
  memWriteUser := []
  memWriteData := []

variable (s u : State)

lemma merge_cases (h : merge s = some u) :
    ∃ it rest, s.lookupResult = it::rest ∧
      ((noAlloc it.pte = true ∧ u = fork { s with lookupResult := rest } (true, it)) ∨
        (noAlloc it.pte = false ∧ ∃ ppa fifo, s.addrFifos (fifoOf it.pte.pageType) = ppa::fifo ∧
          u = fork { s with
            lookupResult := rest
            addrFifos := update s.addrFifos (fifoOf it.pte.pageType) fifo }
            (false, it.fill ppa))) := by
  unfold merge at h
  split at h
  · cases h
  · rename_i it rest hq
    refine ⟨it,rest,hq,?_⟩
    split at h
    · rename_i hn
      exact Or.inl ⟨hn,(Option.some.inj h).symm⟩
    · rename_i hn
      split at h
      · cases h
      · rename_i ppa fifo hf
        exact Or.inr ⟨by simpa using hn,ppa,fifo,hf,(Option.some.inj h).symm⟩

variable (cell : BitVec 4)

lemma cam_write_cases (h : camWrite s cell = some u) :
    ∃ b it rest, s.bramWr = (b, it)::rest ∧ ((b = true ∧ u = { s with bramWr := rest }) ∨
        (b = false ∧ s.cam.ids cell = true ∧ u = { s with
          bramWr := rest
          cam := write s.cam cell it.pte.tag 0 (asCompactBits it.pte)
          memWriteUser := s.memWriteUser++[cell] })) := by
  unfold camWrite at h
  split at h
  · cases h
  · rename_i it rest hq
    exact ⟨true,it,rest,hq,Or.inl ⟨rfl,(Option.some.inj h).symm⟩⟩
  · rename_i it rest hq
    split at h
    · rename_i hid
      exact ⟨false,it,rest,hq,Or.inr ⟨rfl,hid,(Option.some.inj h).symm⟩⟩
    · cases h

lemma report_cases (h : report s = some u) :
    ∃ b it rest, s.faultRpt = (b, it)::rest ∧ ((b = true ∧ u = { s with faultRpt := rest }) ∨
        (b = false ∧ u = { s with
          faultRpt := rest, memWriteData := s.memWriteData++[it.pte] })) := by
  unfold report at h
  split at h
  · cases h
  · rename_i it rest hq
    exact ⟨true,it,rest,hq,Or.inl ⟨rfl,(Option.some.inj h).symm⟩⟩
  · rename_i it rest hq
    exact ⟨false,it,rest,hq,Or.inr ⟨rfl,(Option.some.inj h).symm⟩⟩

lemma mem_write_res_cases (h : memWriteRes s cell = some u) :
    cell ∈ s.memWriteUser ∧
      u = { s with memWriteUser := s.memWriteUser.erase cell, cam := shootDown s.cam cell } := by
  unfold memWriteRes at h
  split at h
  · rename_i hc
    exact ⟨hc,(Option.some.inj h).symm⟩
  · cases h

end Clio.PageFault
