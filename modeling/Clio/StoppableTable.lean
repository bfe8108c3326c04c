import Clio.LookupTable
import Clio.Machine

/-!
# The lookup table cycle by cycle

One clock cycle of the ternary CAM, its value memory and its pool of free cells.
-/

namespace Clio.StoppableTable

open Function LookupTable Machine

structure Params where
  useUsed : Bool
  autoUpdate : Bool
  deriving DecidableEq, Repr

structure LookupWrite (k w : ℕ) (V : Type) where
  mask : BitVec w
  used : Bool
  usedCell : BitVec k
  key : BitVec w
  value : V

structure Cycle (k w : ℕ) (V : Type) where
  wrValid : Bool
  wr : LookupWrite k w V
  shootDown : Option (BitVec k)
  rdValid : Bool
  rdKey : BitVec w
  rdReady : Bool

structure IdPool (k : ℕ) where
  bitmap : BitVec k → Bool
  select : BitVec k
  valid : Bool

structure Regs (k w : ℕ) (V : Type) where
  keyRegs : BitVec k → BitVec w
  maskRegs : BitVec k → BitVec w
  used : BitVec k → Bool
  /-- The comparison of the CAM, without the bits in `used`. -/
  validVec : BitVec k → Bool
  camValid : Bool
  mem : BitVec k → V
  delayedValue : V
  delayedValid : Bool
  delayedAddr : BitVec k
  ids : IdPool k
  hit : Bool
  resValid : Bool
  /-- The output register of the memory. -/
  value : V

variable {k w : ℕ} {V : Type}

/-- A one at `i` if `x` has one below `i`. -/
def leftOr (x : BitVec k → Bool) (i : BitVec k) : Bool :=
  (indices k).any fun j => decide (j < i) && x j

def initPool : IdPool k := ⟨fun _ => true,0,true⟩

/-- The registers after reset; `v` stands for what the memory and its registers hold then. -/
def resetRegs (v : V) : Regs k w V where
  keyRegs _ := 0
  maskRegs _ := 0
  used _ := false
  validVec _ := false
  camValid := false
  mem _ := v
  delayedValue := v
  delayedValid := false
  delayedAddr := 0
  ids := initPool
  hit := false
  resValid := false
  value := v

def bitmap1 (p : IdPool k) (allocReady : Bool) (free : Option (BitVec k)) (i : BitVec k) : Bool :=
  p.bitmap i && !(allocReady && i == p.select) || free == some i

def select1 (bitmap : BitVec k → Bool) : BitVec k := ohToUInt fun i => !leftOr bitmap i && bitmap i

def stepPool (p : IdPool k) (allocReady : Bool) (free : Option (BitVec k)) : IdPool k where
  bitmap := if allocReady || free.isSome then bitmap1 p allocReady free else p.bitmap
  valid := if allocReady || free.isSome then (indices k).any (bitmap1 p allocReady free)
    else p.valid
  select := if allocReady || !p.valid && free.isSome then select1 (bitmap1 p allocReady free)
    else p.select

section

variable (P : Params) (s : Regs k w V) (c : Cycle k w V)

def isUpdate : Bool := P.useUsed && if P.autoUpdate then !s.ids.valid else c.wr.used

def wrCellValid : Bool := if isUpdate P s c then c.wrValid else c.wrValid && s.ids.valid

def wrCell : BitVec k := if isUpdate P s c then c.wr.usedCell else s.ids.select

def wrCellReady : Bool := c.shootDown.isNone

def allocReady : Bool :=
  if P.useUsed then !isUpdate P s c && wrCellReady c && c.wrValid
  else wrCellValid P s c && wrCellReady c

def camCell : Option (BitVec k) :=
  match c.shootDown with
  | some i => some i
  | none => if wrCellValid P s c then some (wrCell P s c) else none

end

section

variable (s : Regs k w V) (c : Cycle k w V)

def enable : Bool := c.rdReady || !s.resValid

def camEnable : Bool := enable s c || !s.camValid

def camVec (i : BitVec k) : Bool := s.validVec i && s.used i

def camHit : Bool := (indices k).any (camVec s)

def camAddr : BitVec k := ohToUInt (camVec s)

end

/-- One cycle; a cell written in the cycle of its shootdown becomes valid. -/
def step (P : Params) (s : Regs k w V) (c : Cycle k w V) : Regs k w V where
  keyRegs := match camCell P s c with
    | some i => update s.keyRegs i c.wr.key
    | none => s.keyRegs
  maskRegs := match camCell P s c with
    | some i => update s.maskRegs i c.wr.mask
    | none => s.maskRegs
  used := match camCell P s c with
    | some i => update s.used i (wrCellValid P s c)
    | none => s.used
  validVec := if camEnable s c then
      fun i => ~~~(s.keyRegs i ^^^ c.rdKey) ||| ~~~s.maskRegs i == BitVec.allOnes w
    else s.validVec
  camValid := if camEnable s c then c.rdValid else s.camValid
  mem := if s.delayedValid then update s.mem s.delayedAddr s.delayedValue else s.mem
  delayedValue := c.wr.value
  delayedValid := wrCellValid P s c
  delayedAddr := wrCell P s c
  ids := stepPool s.ids (allocReady P s c) c.shootDown
  hit := if enable s c then camHit s else s.hit
  resValid := if enable s c then s.camValid else s.resValid
  value := s.mem (camAddr s)

structure ReadLog (k w : ℕ) (V : Type) where
  regs : Regs k w V
  asked : List (BitVec w)
  answered : List (Bool × V)

def read (P : Params) (m : ReadLog k w V) (c : Cycle k w V) : ReadLog k w V where
  regs := step P m.regs c
  asked := if c.rdValid && camEnable m.regs c then m.asked++[c.rdKey] else m.asked
  answered := if m.regs.resValid && c.rdReady then m.answered++[(m.regs.hit,m.regs.value)]
    else m.answered

def exec (P : Params) (m : ReadLog k w V) (c : Cycle k w V) : Option (ReadLog k w V) :=
  some (read P m c)

def content (s : Regs k w V) : Table k w V where
  cells i := ⟨s.used i,s.keyRegs i,s.maskRegs i,s.mem i⟩
  ids := s.ids.bitmap

/-- The response to a key: the value of a matching cell, or a miss if there is none. -/
def Correct (t : Table k w V) (res : Bool × V) (key : BitVec w) : Prop :=
  (res.1 = true ∧ ∃ i, resVec t key i = true ∧ res.2 = (t.cells i).value) ∨
    (res.1 = false ∧ ∀ i, resVec t key i = false)

/-- Neither a write nor a shootdown. -/
def Reading (c : Cycle k w V) : Prop := c.wrValid = false ∧ c.shootDown = none

def Steady (m : ReadLog k w V) (c : Cycle k w V) : Prop :=
  m.regs.resValid = true → c.rdReady = false → m.regs.hit = true →
    m.regs.mem (camAddr m.regs) = m.regs.value

def drain (c : Cycle k w V) : Cycle k w V := { c with rdValid := false, rdReady := true }

/-- The table is idle and holds `t`. -/
structure Idle (t : Table k w V) (s : Regs k w V) : Prop where
  content : content s = t
  cam : s.camValid = false
  res : s.resValid = false
  delayed : s.delayedValid = false

structure Piped (t : Table k w V) (m : ReadLog k w V) (done : List (BitVec w))
    (camKey resKey : BitVec w) : Prop where
  content : content m.regs = t
  delayed : m.regs.delayedValid = false
  asked : m.asked = done++(if m.regs.resValid then [resKey] else [])++
    (if m.regs.camValid then [camKey] else [])
  answered : List.Forall₂ (Correct t) m.answered done
  cam : m.regs.camValid = true → camVec m.regs = resVec t camKey
  res : m.regs.resValid = true → m.regs.hit = hit t resKey ∧
    (m.regs.hit = true → m.regs.value = rdvalue t resKey)

section

variable {P : Params} {t : Table k w V} {m : ReadLog k w V} {c : Cycle k w V}
  {done : List (BitVec w)} {camKey resKey : BitVec w}

lemma correct_of_unique (hone : OnePerKey t) {res : Bool × V} {key : BitVec w}
    (hhit : res.1 = hit t key) (hval : res.1 = true → res.2 = rdvalue t key) :
    Correct t res key := by
  cases hres : res.1 with
  | true =>
    rw [hres] at hhit
    obtain ⟨i,hi⟩ := (hit_iff t key).mp hhit.symm
    refine .inl ⟨hres,i,hi,?_⟩
    rw [hval hres,rdvalue,rdaddr_unique t key i hi fun j hj => hone key j i hj hi]
  | false =>
    refine .inr ⟨hres,fun i => ?_⟩
    rw [hres] at hhit
    by_contra hi
    rw [Bool.not_eq_false] at hi
    rw [(hit_iff t key).mpr ⟨i,hi⟩] at hhit
    cases hhit

section

variable (hc : Reading c) (hd : m.regs.delayedValid = false)
include hc hd

lemma reading_content :
    (step P m.regs c).keyRegs = m.regs.keyRegs ∧ (step P m.regs c).maskRegs = m.regs.maskRegs ∧
      (step P m.regs c).used = m.regs.used ∧ (step P m.regs c).mem = m.regs.mem ∧
      (step P m.regs c).ids.bitmap = m.regs.ids.bitmap ∧
      (step P m.regs c).delayedValid = false := by
  obtain ⟨hwr,hshoot⟩ := hc
  have hvalid : wrCellValid P m.regs c = false := by simp [wrCellValid,hwr]
  have hcell : camCell P m.regs c = none := by simp [camCell,hshoot,hvalid]
  have halloc : allocReady P m.regs c = false := by simp [allocReady,hwr,hvalid]
  refine ⟨?_,?_,?_,?_,?_,?_⟩
  · simp [step,hcell]
  · simp [step,hcell]
  · simp [step,hcell]
  · simp [step,hd]
  · simp [step,stepPool,halloc,hshoot]
  · simp [step,hvalid]

lemma content_step (ht : content m.regs = t) : content (step P m.regs c) = t := by
  obtain ⟨hkey,hmask,hused,hmem,hids,-⟩ := reading_content (P := P) hc hd
  rw [← ht]
  simp [content,hkey,hmask,hused,hmem,hids]

lemma cam_vec_step (ht : content m.regs = t) (hen : camEnable m.regs c = true) :
    camVec (step P m.regs c) = resVec t c.rdKey := by
  obtain ⟨-,-,hused,-,-,-⟩ := reading_content (P := P) hc hd
  funext i
  rw [camVec,hused,← ht]
  simp [step,hen,resVec,matchCell,content]

end

lemma cam_hit_eq (h : camVec m.regs = resVec t camKey) : camHit m.regs = hit t camKey := by
  rw [camHit,h]
  rfl

lemma cam_value_eq (ht : content m.regs = t) (h : camVec m.regs = resVec t camKey) :
    m.regs.mem (camAddr m.regs) = rdvalue t camKey := by
  rw [camAddr,h,← ht]
  rfl

lemma piped_step (hone : OnePerKey t) (h : Piped t m done camKey resKey) (hc : Reading c)
    (hs : Steady m c) : ∃ done' camKey' resKey', Piped t (read P m c) done' camKey' resKey' := by
  have hcontent := content_step (P := P) hc h.delayed h.content
  obtain ⟨-,-,-,-,-,hdelayed⟩ := reading_content (P := P) hc h.delayed
  have hvec : camEnable m.regs c = true → camVec (step P m.regs c) = resVec t c.rdKey :=
    cam_vec_step hc h.delayed h.content
  cases hen : enable m.regs c with
  | true =>
    -- the response leaves, the CAM stage becomes the response and the request enters
    have hcam : camEnable m.regs c = true := by simp [camEnable,hen]
    refine ⟨if m.regs.resValid then done++[resKey] else done,c.rdKey,camKey,hcontent,hdelayed,
      ?_,?_,fun _ => hvec hcam,?_⟩
    · have hasked := h.asked
      cases hres : m.regs.resValid <;> cases hcv : m.regs.camValid <;> cases hrd : c.rdValid <;>
        simp [read,step,hen,hcam,hasked,hres,hcv,hrd]
    · cases hres : m.regs.resValid with
      | false => simpa [read,hres] using h.answered
      | true =>
        have hready : c.rdReady = true := by simpa [enable,hres] using hen
        obtain ⟨hhit,hval⟩ := h.res hres
        simp only [read,hres,hready,Bool.and_self,if_true]
        exact List.rel_append h.answered (.cons (correct_of_unique hone hhit hval) .nil)
    · intro hres
      have hcv : m.regs.camValid = true := by simpa [read,step,hen] using hres
      have heq := h.cam hcv
      refine ⟨?_,fun _ => ?_⟩
      · simp [read,step,hen,cam_hit_eq heq]
      · simp [read,step,cam_value_eq h.content heq]
  | false =>
    obtain ⟨hready,hres⟩ : c.rdReady = false ∧ m.regs.resValid = true := by
      simpa [enable] using hen
    obtain ⟨hhit,hval⟩ := h.res hres
    have hstay : (read P m c).regs.hit = hit t resKey ∧
        ((read P m c).regs.hit = true → (read P m c).regs.value = rdvalue t resKey) := by
      refine ⟨by simp [read,step,hen,hhit],fun hset => ?_⟩
      have hold : m.regs.hit = true := by simpa [read,step,hen] using hset
      exact (hs hres hready hold).trans (hval hold)
    cases hcv : m.regs.camValid with
    | true =>
      -- both stages hold
      have hcam : camEnable m.regs c = false := by simp [camEnable,hen,hcv]
      refine ⟨done,camKey,resKey,hcontent,hdelayed,?_,?_,?_,fun _ => hstay⟩
      · simp [read,step,hen,hcam,h.asked,hres,hcv]
      · simpa [read,hready] using h.answered
      · intro _
        obtain ⟨-,-,hused,-,-,-⟩ := reading_content (P := P) hc h.delayed
        have hheld : (step P m.regs c).validVec = m.regs.validVec := by simp [step,hcam]
        rw [← h.cam hcv]
        funext i
        simp only [read,camVec,hused,hheld]
    | false =>
      -- the empty CAM stage takes a request during the stall
      have hcam : camEnable m.regs c = true := by simp [camEnable,hcv]
      refine ⟨done,c.rdKey,resKey,hcontent,hdelayed,?_,?_,fun _ => hvec hcam,fun _ => hstay⟩
      · cases hrd : c.rdValid <;> simp [read,step,hen,hcam,h.asked,hres,hcv,hrd]
      · simpa [read,hready] using h.answered

lemma idle_piped {s : Regs k w V} (h : Idle t s) : Piped t ⟨s,[],[]⟩ [] 0 0 := by
  refine ⟨h.content,h.delayed,by simp [h.cam,h.res],.nil,?_,?_⟩
  · intro hcam
    exact absurd (h.cam.symm.trans hcam) (by simp)
  · intro hres
    exact absurd (h.res.symm.trans hres) (by simp)

lemma drain_step (P : Params) (m : ReadLog k w V) (c : Cycle k w V) :
    (read P m (drain c)).asked = m.asked ∧ (read P m (drain c)).regs.resValid = m.regs.camValid ∧
      (read P m (drain c)).regs.camValid = false := by
  have hen : enable m.regs (drain c) = true := by simp [enable,drain]
  have hcam : camEnable m.regs (drain c) = true := by simp [camEnable,hen]
  refine ⟨?_,?_,?_⟩
  · simp [read,drain]
  · simp [read,step,hen]
  · show (if camEnable m.regs (drain c) then false else m.regs.camValid) = false
    rw [if_pos hcam]

lemma drain_steady (m : ReadLog k w V) (c : Cycle k w V) : Steady m (drain c) :=
  fun _ hready => absurd hready (by simp [drain])

end

/-- If no stalled response loses its value, responses come in order and all but two are out. -/
theorem reads_in_order (P : Params) (t : Table k w V) (hone : OnePerKey t) (s : Regs k w V)
    (hs : Idle t s) (cs : List (Cycle k w V)) (m : ReadLog k w V) (hread : ∀ c ∈ cs, Reading c)
    (hok : Guarded (exec P) Steady cs ⟨s,[],[]⟩) (hrun : run (exec P) cs ⟨s,[],[]⟩ = some m) :
    (∃ done rest, m.asked = done++rest ∧ rest.length ≤ 2 ∧
        List.Forall₂ (Correct t) m.answered done) ∧
      ∀ c, Reading c → List.Forall₂ (Correct t)
        (read P (read P m (drain c)) (drain c)).answered m.asked := by
  have hinv : ∃ done camKey resKey, Piped t m done camKey resKey := by
    refine run_invariant (exec P) _ (fun m => ∃ done camKey resKey, Piped t m done camKey resKey)
      ?_ cs _ m ⟨[],0,0,idle_piped hs⟩ (guarded_and (exec P) Steady Reading cs _ hok hread) hrun
    rintro m c u ⟨done,camKey,resKey,hpiped⟩ ⟨hsteady,hc⟩ hu
    cases hu
    exact piped_step hone hpiped hc hsteady
  obtain ⟨done,camKey,resKey,hpiped⟩ := hinv
  constructor
  · refine ⟨done,_,by rw [hpiped.asked,List.append_assoc],?_,hpiped.answered⟩
    cases m.regs.resValid <;> cases m.regs.camValid <;> simp
  · intro c hc
    obtain ⟨done1,cam1,res1,hfirst⟩ := piped_step (P := P) hone hpiped
      (show Reading (drain c) from hc) (drain_steady m c)
    obtain ⟨done2,cam2,res2,hsecond⟩ := piped_step (P := P) hone hfirst
      (show Reading (drain c) from hc) (drain_steady _ c)
    obtain ⟨hasked1,-,hcam1⟩ := drain_step P m c
    obtain ⟨hasked2,hres2,hcam2⟩ := drain_step P (read P m (drain c)) c
    have hall := hsecond.asked
    rw [hres2,hcam1,hcam2,hasked2,hasked1] at hall
    simp only [Bool.false_eq_true,if_false,List.append_nil] at hall
    rw [hall]
    exact hsecond.answered

def twoCells : Regs 1 1 ℕ :=
  { (resetRegs 0 : Regs 1 1 ℕ) with
    keyRegs := fun i => i
    maskRegs := fun _ => 1
    used := fun _ => true
    mem := fun i => if i = 0 then 10 else 20
    ids := ⟨fun _ => false,0,false⟩ }

def readCycle (valid : Bool) (key : BitVec 1) (ready : Bool) : Cycle 1 1 ℕ :=
  ⟨false,⟨0,false,0,0,0⟩,none,valid,key,ready⟩

def plain : Params := ⟨false,false⟩

lemma two_cells_idle : Idle (content twoCells) twoCells := ⟨rfl,rfl,rfl,rfl⟩

lemma two_cells_once : OnePerKey (content twoCells) := by
  intro key i j hi hj
  have hkey : ∀ key i : BitVec 1, resVec (content twoCells) key i = true → i = key := by decide
  rw [hkey key i hi,hkey key j hj]

instance decidableSteady (m : ReadLog k w V) (c : Cycle k w V) [DecidableEq V] :
    Decidable (Steady m c) :=
  inferInstanceAs (Decidable (m.regs.resValid = true → c.rdReady = false → m.regs.hit = true →
    m.regs.mem (camAddr m.regs) = m.regs.value))

/-- Two reads, the second one stalled for a cycle with its own key on the port. -/
def twoReads : List (Cycle 1 1 ℕ) :=
  [readCycle true 0 true,readCycle true 1 true,readCycle false 1 true,readCycle false 1 false,
    readCycle false 1 true]

theorem reads_in_order_two : ∃ m, run (exec plain) twoReads ⟨twoCells,[],[]⟩ = some m ∧
    m.asked = [0,1] ∧ m.answered = [(true,10),(true,20)] ∧ ∃ done rest, m.asked = done++rest ∧
      rest.length ≤ 2 ∧ List.Forall₂ (Correct (content twoCells)) m.answered done := by
  refine ⟨_,rfl,by decide,by decide,?_⟩
  refine (reads_in_order plain (content twoCells) two_cells_once twoCells two_cells_idle
    twoReads _ ?_ (by decide) rfl).1
  intro c hc
  simp only [twoReads,List.mem_cons,List.not_mem_nil,or_false] at hc
  rcases hc with rfl | rfl | rfl | rfl | rfl <;> exact ⟨rfl,rfl⟩

/-- The first of two responses is stalled and comes with the value of the second. -/
theorem stalled_read_changes : ∃ m, run (exec plain) [readCycle true 0 true,readCycle true 1 true,
    readCycle false 0 false,readCycle false 0 true,readCycle false 0 true] ⟨twoCells,[],[]⟩ =
      some m ∧ m.asked = [0,1] ∧ m.answered = [(true,20),(true,20)] :=
  ⟨_,rfl,by decide,by decide⟩

end Clio.StoppableTable
