import Clio.PageFault
import Clio.TableUpdate

/-!
# The page fault unit cycle by cycle

An entry is compared with the pending faults in one cycle, reads their value in the next and then
takes a page.
-/

namespace Clio.FaultPipeline

open CoreMemTypes BramCache LookupTable PageFault StoppableTable TableUpdate
open Machine (run Guarded run_invariant)
open Function (update_self update_of_ne)

structure Inputs where
  reqValid : Bool
  req : PageTableEntry
  /-- The heads of the free page FIFOs. -/
  addrFifos : Fin 3 → Option (BitVec 40)
  memWriteRes : Option (BitVec 4)
  memReady : Bool
  resReady : Bool

/-- An entry, the answer to it and the number of pages taken until then. -/
structure Answer where
  req : PageTableEntry
  res : PageTableEntry
  pops : ℕ
  deriving DecidableEq

/-- The registers of the unit: the CAM, the two of `originalPte`, the stage behind `afterAlloc` and
the outputs of the fork that have not taken it, followed by what has come and gone. -/
structure State where
  cam : Ledger 4 60 CompactBits
  first : PageTableEntry
  second : PageTableEntry
  stageValid : Bool
  noAlloc : Bool
  stage : PageTableEntry
  toCam : Bool
  toMem : Bool
  toRes : Bool
  arrived : List PageTableEntry
  popped : List (BitVec 60 × BitVec 40)
  answers : List Answer

section

variable (m : State) (i : Inputs)

def lookupResult : PageTableEntry :=
  if m.cam.regs.hit && m.second.used then compact m.second m.cam.regs.value else m.second

def camReady : Bool := m.noAlloc || i.memWriteRes.isNone && m.cam.regs.ids.valid

def memReady : Bool := m.noAlloc || i.memReady

def forkReady : Bool :=
  (!m.toCam || camReady m i) && (!m.toMem || memReady m i) && (!m.toRes || i.resReady)

def stageReady : Bool := !m.stageValid || forkReady m i

def selectedAddr : Option (BitVec 40) := i.addrFifos (fifoOf (lookupResult m).pageType)

def mergeReady : Bool := PageFault.noAlloc (lookupResult m) || (selectedAddr m i).isSome

def afterAlloc : PageTableEntry :=
  if PageFault.noAlloc (lookupResult m) then lookupResult m
  else { lookupResult m with used := true, ppa := (selectedAddr m i).getD 0 }

/-- The CAM entry is written with mask 0. -/
def toCycle : Cycle 4 60 CompactBits where
  wrValid := m.stageValid && m.toCam && !m.noAlloc
  wr := ⟨0,false,0,m.stage.tag,asCompactBits m.stage⟩
  shootDown := i.memWriteRes
  rdValid := i.reqValid
  rdKey := i.req.tag
  rdReady := stageReady m i && mergeReady m i

def fires : Bool := m.cam.regs.resValid && stageReady m i && mergeReady m i

def pops : List (BitVec 60 × BitVec 40) :=
  if fires m i && !PageFault.noAlloc (lookupResult m) then
    m.popped++[((afterAlloc m i).tag,(afterAlloc m i).ppa)]
  else m.popped

def next : State where
  cam := TableUpdate.next plain m.cam (toCycle m i)
  first := if enable m.cam.regs (toCycle m i) then i.req else m.first
  second := if enable m.cam.regs (toCycle m i) then m.first else m.second
  stageValid := if stageReady m i then fires m i else m.stageValid
  noAlloc := if stageReady m i then PageFault.noAlloc (lookupResult m) else m.noAlloc
  stage := if stageReady m i then afterAlloc m i else m.stage
  toCam := forkReady m i || m.toCam && !(m.stageValid && camReady m i)
  toMem := forkReady m i || m.toMem && !(m.stageValid && memReady m i)
  toRes := forkReady m i || m.toRes && !(m.stageValid && i.resReady)
  arrived := if i.reqValid && camEnable m.cam.regs (toCycle m i) then m.arrived++[i.req]
    else m.arrived
  popped := pops m i
  answers := if fires m i then m.answers++[⟨m.second,afterAlloc m i,(pops m i).length⟩]
    else m.answers

def exec : Option State := some (next m i)

/-- The entry at the output after the cycle is allocated, in use and has a hit. -/
def Overridden : Prop :=
  (next m i).second.allocated = true ∧ (next m i).second.used = true ∧
    (next m i).cam.regs.resValid = true ∧ (next m i).cam.regs.hit = true

instance : Decidable (Overridden m i) := inferInstanceAs (Decidable (_ ∧ _))

/-- No write-back completes under a pending write of the CAM, no entry comes during a stall, and an
entry in use is overridden from the one matching cell, which was written for its tag and whose value
has arrived. -/
structure Orderly : Prop where
  calm : Calm plain m.cam (toCycle m i)
  aligned : i.reqValid = true → enable m.cam.regs (toCycle m i) = true
  own : Overridden m i → ∃ cell, (∀ j, camVec m.cam.regs j = true ↔ j = cell) ∧
    m.cam.regs.keyRegs cell = (next m i).second.tag ∧
    ¬(m.cam.regs.delayedValid = true ∧ m.cam.regs.delayedAddr = cell)

instance : Decidable (Calm plain m.cam (toCycle m i)) :=
  decidable_of_iff (_ ∧ _ ∧ _) ⟨fun h => ⟨h.1,h.2.1,h.2.2⟩,fun h => ⟨h.1,h.2,h.3⟩⟩

instance : Decidable (Orderly m i) :=
  decidable_of_iff (_ ∧ _ ∧ _) ⟨fun h => ⟨h.1,h.2.1,h.2.2⟩,fun h => ⟨h.1,h.2,h.3⟩⟩

end

/-- The answer has the page in the entry, or one that was taken for its tag by then. -/
def Owned (popped : List (BitVec 60 × BitVec 40)) (a : Answer) : Prop :=
  a.req.allocated = true → a.res.tag = a.req.tag ∧
    (a.req.used = true ∧ a.res.ppa = a.req.ppa ∨ (a.req.tag,a.res.ppa) ∈ popped.take a.pops)

structure Inv (m : State) : Prop where
  table : TableUpdate.Inv plain m.cam
  stored : ∀ cell wr, m.cam.stored cell = some wr → (wr.key,wr.value.ppa) ∈ m.popped
  staged : m.stageValid = true → m.noAlloc = false → (m.stage.tag,m.stage.ppa) ∈ m.popped
  output : m.cam.regs.resValid = true → m.cam.regs.hit = true → m.second.allocated = true →
    m.second.used = true → (m.second.tag,m.cam.regs.value.ppa) ∈ m.popped
  first : m.cam.regs.camValid = true → m.first ∈ m.arrived
  second : m.cam.regs.resValid = true → m.second ∈ m.arrived
  answers : ∀ a ∈ m.answers, a.req ∈ m.arrived ∧ a.pops ≤ m.popped.length ∧ Owned m.popped a

section

variable {m : State} {i : Inputs}

lemma popped_next : m.popped <+: (next m i).popped := by
  show m.popped <+: pops m i
  unfold pops
  split_ifs
  · exact List.prefix_append _ _
  · exact List.prefix_rfl

lemma arrived_next : m.arrived ⊆ (next m i).arrived := by
  show m.arrived ⊆ if _ then m.arrived++[i.req] else m.arrived
  split_ifs
  · exact List.subset_append_left _ _
  · exact List.Subset.refl _

lemma popped_mem (h : fires m i = true) (hno : PageFault.noAlloc (lookupResult m) = false) :
    ((afterAlloc m i).tag,(afterAlloc m i).ppa) ∈ (next m i).popped := by
  show _ ∈ pops m i
  simp [pops,h,hno]

lemma lookup_tag : (lookupResult m).tag = m.second.tag := by
  unfold lookupResult
  split_ifs <;> rfl

lemma after_tag : (afterAlloc m i).tag = m.second.tag := by
  rw [← lookup_tag]
  unfold afterAlloc
  split_ifs <;> rfl

/-- What leaves is the page in the entry, the one of the override or a new one. -/
lemma answer_owned (h : Inv m) (hfire : fires m i = true) :
    Owned (next m i).popped ⟨m.second,afterAlloc m i,(next m i).popped.length⟩ := by
  intro halloc
  change m.second.allocated = true at halloc
  refine ⟨after_tag,?_⟩
  rw [List.take_length]
  have hres : m.cam.regs.resValid = true := by
    simp only [fires,Bool.and_eq_true] at hfire
    exact hfire.1.1
  cases hno : PageFault.noAlloc (lookupResult m) with
  | false =>
    refine .inr ?_
    have hmem := popped_mem hfire hno
    rwa [after_tag] at hmem
  | true =>
    rw [show afterAlloc m i = lookupResult m by rw [afterAlloc,if_pos hno]]
    by_cases hsel : (m.cam.regs.hit && m.second.used) = true
    · obtain ⟨hhit,hused⟩ := Bool.and_eq_true_iff.mp hsel
      have hold := h.output hres hhit halloc hused
      rw [lookupResult,if_pos hsel]
      exact .inr (popped_next.subset hold)
    · rw [lookupResult,if_neg hsel] at hno ⊢
      refine .inl ⟨?_,rfl⟩
      simpa [PageFault.noAlloc,halloc] using hno

lemma owned_mono {popped more : List (BitVec 60 × BitVec 40)} {a : Answer} (hpre : popped <+: more)
    (hle : a.pops ≤ popped.length) (h : Owned popped a) : Owned more a := by
  obtain ⟨rest,rfl⟩ := hpre
  intro halloc
  rw [List.take_append_of_le_length hle]
  exact h halloc

lemma stored_cases {cell : BitVec 4} {wr : LookupWrite 4 60 CompactBits}
    (hwr : (next m i).cam.stored cell = some wr) : m.cam.stored cell = some wr ∨
      (m.stageValid = true ∧ m.noAlloc = false) ∧ wr = (toCycle m i).wr := by
  change record plain m.cam (toCycle m i) cell = some wr at hwr
  cases hshoot : (toCycle m i).shootDown with
  | some freed =>
    rw [record,hshoot] at hwr
    by_cases hc : cell = freed
    · simp [hc] at hwr
    · exact .inl (by simpa [hc] using hwr)
  | none =>
    rw [record,hshoot] at hwr
    dsimp only at hwr
    split_ifs at hwr with hvalid
    · by_cases hc : cell = wrCell plain m.cam.regs (toCycle m i)
      · rw [hc,update_self] at hwr
        cases hwr
        have hstage : (m.stageValid = true ∧ m.toCam = true) ∧ m.noAlloc = false := by
          have : (toCycle m i).wrValid = true := by
            unfold wrCellValid at hvalid
            split_ifs at hvalid
            · exact hvalid
            · exact (Bool.and_eq_true_iff.mp hvalid).1
          simpa [toCycle] using this
        exact .inr ⟨⟨hstage.1.1,hstage.2⟩,rfl⟩
      · rw [update_of_ne hc] at hwr
        exact .inl hwr
    · exact .inl hwr

lemma next_stored (h : Inv m) (cell : BitVec 4) (wr : LookupWrite 4 60 CompactBits)
    (hwr : (next m i).cam.stored cell = some wr) : (wr.key,wr.value.ppa) ∈ (next m i).popped := by
  apply popped_next.subset
  rcases stored_cases hwr with hold | ⟨⟨hvalid,hno⟩,rfl⟩
  · exact h.stored cell wr hold
  · exact h.staged hvalid hno

lemma stage_cases (hvalid : (next m i).stageValid = true) :
    (fires m i = true ∧ (next m i).noAlloc = PageFault.noAlloc (lookupResult m) ∧
        (next m i).stage = afterAlloc m i) ∨
      (m.stageValid = true ∧ (next m i).noAlloc = m.noAlloc ∧ (next m i).stage = m.stage) := by
  cases hready : stageReady m i with
  | true =>
    simp only [next,hready,if_true] at hvalid ⊢
    exact .inl ⟨hvalid,trivial,trivial⟩
  | false =>
    simp only [next,hready] at hvalid ⊢
    exact .inr ⟨hvalid,rfl,rfl⟩

lemma next_staged (h : Inv m) (hvalid : (next m i).stageValid = true)
    (hno : (next m i).noAlloc = false) :
    ((next m i).stage.tag,(next m i).stage.ppa) ∈ (next m i).popped := by
  rcases stage_cases hvalid with ⟨hfire,hnew,hstage⟩ | ⟨hold,hnew,hstage⟩
  · rw [hstage]
    exact popped_mem hfire (hnew ▸ hno)
  · rw [hstage]
    exact popped_next.subset (h.staged hold (hnew ▸ hno))

/-- The value of an override is that of a write for the tag. -/
lemma output_stored (h : TableUpdate.Inv plain m.cam) (hok : Orderly m i) (hover : Overridden m i) :
    ∃ cell wr, m.cam.stored cell = some wr ∧ wr.key = (next m i).second.tag ∧
      (next m i).cam.regs.value = wr.value := by
  obtain ⟨cell,hone,hkey,hplace⟩ := hok.own hover
  have hvec := (hone cell).mpr rfl
  have haddr : camAddr m.cam.regs = cell :=
    fold_index _ cell (fun j hj => (hone j).mp hj) hvec (indices 4) (mem_indices cell)
  have hset : (m.cam.stored cell).isSome = true := by
    rw [← h.composed.used]
    exact (Bool.and_eq_true_iff.mp hvec).2
  obtain ⟨wr,hwr⟩ := Option.isSome_iff_exists.mp hset
  refine ⟨cell,wr,hwr,(h.composed.key cell wr hwr).1 ▸ hkey,?_⟩
  show m.cam.regs.mem (camAddr m.cam.regs) = wr.value
  rw [haddr,← h.composed.value cell wr hwr (toCycle m i)]
  show m.cam.regs.mem cell = (if m.cam.regs.delayedValid then _ else m.cam.regs.mem) cell
  split_ifs with hdelayed
  · exact (update_of_ne (fun hc => hplace ⟨hdelayed,hc.symm⟩) _ _).symm
  · rfl

lemma next_output (h : Inv m) (hok : Orderly m i) (hres : (next m i).cam.regs.resValid = true)
    (hhit : (next m i).cam.regs.hit = true) (halloc : (next m i).second.allocated = true)
    (hused : (next m i).second.used = true) :
    ((next m i).second.tag,(next m i).cam.regs.value.ppa) ∈ (next m i).popped := by
  obtain ⟨cell,wr,hwr,hkey,hvalue⟩ := output_stored h.table hok ⟨halloc,hused,hres,hhit⟩
  rw [hvalue,← hkey]
  exact popped_next.subset (h.stored cell wr hwr)

lemma first_cases (hok : Orderly m i) (hcam : (next m i).cam.regs.camValid = true) :
    (enable m.cam.regs (toCycle m i) = true ∧ i.reqValid = true ∧ (next m i).first = i.req) ∨
      (enable m.cam.regs (toCycle m i) = false ∧ m.cam.regs.camValid = true ∧
        (next m i).first = m.first) := by
  change (if camEnable m.cam.regs (toCycle m i) then i.reqValid else m.cam.regs.camValid) = true
    at hcam
  cases hcen : camEnable m.cam.regs (toCycle m i) with
  | true =>
    rw [hcen,if_pos rfl] at hcam
    have hen := hok.aligned hcam
    exact .inl ⟨hen,hcam,by simp [next,hen]⟩
  | false =>
    rw [hcen] at hcam
    have hen : enable m.cam.regs (toCycle m i) = false := by
      simp only [camEnable,Bool.or_eq_false_iff] at hcen
      exact hcen.1
    exact .inr ⟨hen,hcam,by simp [next,hen]⟩

lemma next_first (h : Inv m) (hok : Orderly m i) (hcam : (next m i).cam.regs.camValid = true) :
    (next m i).first ∈ (next m i).arrived := by
  rcases first_cases hok hcam with ⟨hen,hreq,hfirst⟩ | ⟨-,hold,hfirst⟩
  · rw [hfirst]
    simp [next,camEnable,hen,hreq]
  · rw [hfirst]
    exact arrived_next (h.first hold)

lemma second_cases (hres : (next m i).cam.regs.resValid = true) :
    (enable m.cam.regs (toCycle m i) = true ∧ m.cam.regs.camValid = true ∧
        (next m i).second = m.first) ∨
      (enable m.cam.regs (toCycle m i) = false ∧ m.cam.regs.resValid = true ∧
        (next m i).second = m.second) := by
  change (if enable m.cam.regs (toCycle m i) then m.cam.regs.camValid else m.cam.regs.resValid) =
    true at hres
  cases hen : enable m.cam.regs (toCycle m i) with
  | true =>
    rw [hen,if_pos rfl] at hres
    exact .inl ⟨rfl,hres,by simp [next,hen]⟩
  | false =>
    rw [hen] at hres
    exact .inr ⟨rfl,hres,by simp [next,hen]⟩

lemma next_second (h : Inv m) (hres : (next m i).cam.regs.resValid = true) :
    (next m i).second ∈ (next m i).arrived := by
  apply arrived_next
  rcases second_cases hres with ⟨-,hold,hsecond⟩ | ⟨-,hold,hsecond⟩
  · rw [hsecond]
    exact h.first hold
  · rw [hsecond]
    exact h.second hold

lemma next_answers (h : Inv m) (a : Answer) (ha : a ∈ (next m i).answers) :
    a.req ∈ (next m i).arrived ∧ a.pops ≤ (next m i).popped.length ∧
      Owned (next m i).popped a := by
  have hold : ∀ a ∈ m.answers, a.req ∈ (next m i).arrived ∧ a.pops ≤ (next m i).popped.length ∧
      Owned (next m i).popped a := by
    intro a ha
    obtain ⟨hreq,hle,hown⟩ := h.answers a ha
    exact ⟨arrived_next hreq,hle.trans popped_next.length_le,owned_mono popped_next hle hown⟩
  change a ∈ if fires m i then m.answers++[_] else m.answers at ha
  split_ifs at ha with hfire
  · rcases List.mem_append.mp ha with ha | ha
    · exact hold a ha
    · obtain rfl := List.mem_singleton.mp ha
      have hres : m.cam.regs.resValid = true := by
        simp only [fires,Bool.and_eq_true] at hfire
        exact hfire.1.1
      exact ⟨arrived_next (h.second hres),le_rfl,answer_owned h hfire⟩
  · exact hold a ha

lemma next_inv (h : Inv m) (hok : Orderly m i) : Inv (next m i) :=
  ⟨step_inv h.table hok.calm,next_stored h,next_staged h,next_output h hok,next_first h hok,
    next_second h,next_answers h⟩

end

def reset : State :=
  ⟨⟨resetRegs ⟨0,false,false,0⟩,fun _ => none⟩,emptyPte,emptyPte,false,false,emptyPte,true,true,true,
    [],[],[]⟩

lemma reset_owned : Inv reset := by
  refine ⟨reset_inv (reset_regs _),?_,?_,?_,?_,?_,?_⟩ <;> simp [reset,resetRegs]

/-- In orderly runs every answer has the page of its entry or one that was taken for its tag. -/
theorem answers_owned (is : List Inputs) (m : State) (hok : Guarded exec Orderly is reset)
    (hrun : run exec is reset = some m) :
    ∀ a ∈ m.answers, a.req ∈ m.arrived ∧ Owned m.popped a := by
  have hinv : Inv m := by
    refine run_invariant exec Orderly Inv ?_ is reset m reset_owned hok hrun
    intro m i u hm hi hu
    cases hu
    exact next_inv hm hi
  exact fun a ha => ⟨(hinv.answers a ha).1,(hinv.answers a ha).2.2⟩

def fault : PageTableEntry := ⟨0,false,true,0,0,4,0⟩

def mapped (tag : BitVec 60) (ppa : BitVec 40) : PageTableEntry := ⟨1,true,true,0,ppa,tag,0⟩

def idle : Inputs := ⟨false,emptyPte,fun _ => some 0x540000000,none,true,true⟩

def enter (pte : PageTableEntry) : Inputs := { idle with reqValid := true, req := pte }

/-- A used entry of the tag of a pending fault gets the page of the fault. -/
theorem answers_owned_pending :
    ∃ m, run exec [enter fault,idle,idle,idle,idle,enter (mapped 4 0x550000000),idle,idle,idle]
        reset = some m ∧
      m.answers.map (fun a => (a.req.used,a.res.ppa)) =
        [(false,0x540000000),(true,0x540000000)] ∧
      ∀ a ∈ m.answers, a.req ∈ m.arrived ∧ Owned m.popped a :=
  ⟨_,rfl,by decide +kernel,answers_owned [enter fault,idle,idle,idle,idle,
    enter (mapped 4 0x550000000),idle,idle,idle] _ (by decide +kernel) rfl⟩

/-- A used entry of another tag comes while a fault is pending, and gets the page of the fault. -/
theorem answers_page_of_other_tag :
    ∃ m, run exec [enter fault,idle,idle,idle,idle,enter (mapped 8 0x550000000),idle,idle,idle]
        reset = some m ∧
      m.answers.map (fun a => (a.req.tag,a.req.used,a.res.ppa)) =
        [(4,false,0x540000000),(8,true,0x540000000)] ∧ m.popped = [(4,0x540000000)] :=
  ⟨_,rfl,by decide +kernel,by decide +kernel⟩

end Clio.FaultPipeline
