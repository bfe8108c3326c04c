import Clio.StoppableTable

/-!
# Writes and shootdowns of the lookup table

The cells in use are those written and not shot down since, and the pool has the others.
-/

namespace Clio.TableUpdate

open LookupTable Machine StoppableTable
open Function (update_apply update_of_ne update_self)

variable {k w : ℕ} {V : Type}

structure PoolOk (p : IdPool k) : Prop where
  valid : p.valid = true ↔ ∃ i, p.bitmap i = true
  select : p.valid = true → p.bitmap p.select = true

section

variable {p : IdPool k} {ready : Bool} {free : Option (BitVec k)}

lemma any_indices (x : BitVec k → Bool) : (indices k).any x = true ↔ ∃ i, x i = true := by
  rw [List.any_eq_true]
  exact ⟨fun ⟨i,_,hi⟩ => ⟨i,hi⟩,fun ⟨i,hi⟩ => ⟨i,mem_indices i,hi⟩⟩

lemma left_or_iff (x : BitVec k → Bool) (i : BitVec k) :
    leftOr x i = true ↔ ∃ j, j < i ∧ x j = true := by
  rw [leftOr,any_indices]
  simp

lemma select1_spec {x : BitVec k → Bool} (h : ∃ i, x i = true) : x (select1 x) = true := by
  obtain ⟨i,hi,hmin⟩ : ∃ i, x i = true ∧ ∀ j, x j = true → ¬j < i := by
    obtain ⟨a,ha⟩ := h
    obtain ⟨i,hi,hmin⟩ := WellFounded.has_min (measure BitVec.toNat).wf {j | x j = true} ⟨a,ha⟩
    exact ⟨i,hi,fun j hj hlt => hmin j hj (BitVec.lt_def.mp hlt)⟩
  have hlow : (!leftOr x i && x i) = true := by
    rw [Bool.and_eq_true,Bool.not_eq_true',Bool.eq_false_iff]
    refine ⟨fun hbelow => ?_,hi⟩
    obtain ⟨j,hlt,hj⟩ := (left_or_iff x i).mp hbelow
    exact hmin j hj hlt
  have hone : ∀ j, (!leftOr x j && x j) = true → j = i := by
    intro j hj
    rw [Bool.and_eq_true,Bool.not_eq_true',Bool.eq_false_iff] at hj
    obtain ⟨hnone,hj⟩ := hj
    apply BitVec.eq_of_toNat_eq
    apply Nat.le_antisymm
    · by_contra hlt
      exact hnone ((left_or_iff x j).mpr ⟨i,BitVec.lt_def.mpr (by omega),hi⟩)
    · by_contra hlt
      exact hmin j hj (BitVec.lt_def.mpr (by omega))
  rw [select1,ohToUInt,fold_index _ i hone hlow (indices k) (mem_indices i)]
  exact hi

lemma step_pool_bitmap (p : IdPool k) (ready : Bool) (free : Option (BitVec k)) :
    (stepPool p ready free).bitmap = bitmap1 p ready free := by
  funext i
  cases ready <;> cases free <;> simp [stepPool,bitmap1]

lemma step_pool_ok (h : PoolOk p) : PoolOk (stepPool p ready free) := by
  by_cases hidle : (ready || free.isSome) = true
  · have hvalid : (stepPool p ready free).valid = true ↔
        ∃ i, (stepPool p ready free).bitmap i = true := by
      rw [step_pool_bitmap,← any_indices]
      simp only [stepPool,hidle,if_true]
    refine ⟨hvalid,fun hset => ?_⟩
    obtain ⟨i,hi⟩ := hvalid.mp hset
    rw [step_pool_bitmap] at hi ⊢
    by_cases hsel : (ready || !p.valid && free.isSome) = true
    · simp only [stepPool,hsel,if_true]
      exact select1_spec ⟨i,hi⟩
    · -- a cell was given back and the one on offer stays
      have hready : ready = false := by
        cases ready with
        | false => rfl
        | true => simp at hsel
      subst hready
      have hold : p.valid = true := by
        cases hv : p.valid with
        | true => rfl
        | false =>
          rw [Bool.false_or] at hidle
          simp [hv,hidle] at hsel
      simp only [stepPool,hsel,Bool.false_eq_true,if_false,bitmap1,Bool.false_and]
      simp [h.select hold]
  · obtain ⟨hready,hfree⟩ : ready = false ∧ free = none := by
      cases ready <;> cases free <;> simp at hidle ⊢
    subst hready hfree
    exact ⟨by simpa [stepPool] using h.valid,by simpa [stepPool] using h.select⟩

end

structure Ledger (k w : ℕ) (V : Type) where
  regs : Regs k w V
  stored : BitVec k → Option (LookupWrite k w V)

def record (P : Params) (m : Ledger k w V) (c : Cycle k w V) :
    BitVec k → Option (LookupWrite k w V) :=
  match c.shootDown with
  | some i => Function.update m.stored i none
  | none => if wrCellValid P m.regs c then Function.update m.stored (wrCell P m.regs c) (some c.wr)
    else m.stored

def next (P : Params) (m : Ledger k w V) (c : Cycle k w V) : Ledger k w V :=
  ⟨step P m.regs c,record P m c⟩

def exec (P : Params) (m : Ledger k w V) (c : Cycle k w V) : Option (Ledger k w V) :=
  some (next P m c)

/-- The cells in use are those filled, with their values after the next cycle. -/
structure Composed (P : Params) (m : Ledger k w V) : Prop where
  used : ∀ i, m.regs.used i = (m.stored i).isSome
  key : ∀ i wr, m.stored i = some wr → m.regs.keyRegs i = wr.key ∧ m.regs.maskRegs i = wr.mask
  value : ∀ i wr, m.stored i = some wr → ∀ c, (step P m.regs c).mem i = wr.value
  free : ∀ i, m.regs.ids.bitmap i = !m.regs.used i

/-- A shootdown is of a cell in use and meets no pending write. -/
structure Calm (P : Params) (m : Ledger k w V) (c : Cycle k w V) : Prop where
  occupied : ∀ i, c.shootDown = some i → m.regs.used i = true
  alone : c.shootDown ≠ none → wrCellValid P m.regs c = false
  update : P.useUsed = true → P.autoUpdate = false → c.wrValid = true → c.wr.used = true →
    m.regs.used c.wr.usedCell = true

structure Reset (s : Regs k w V) : Prop where
  used : ∀ i, s.used i = false
  ids : s.ids = initPool

lemma reset_regs (v : V) : Reset (resetRegs v : Regs k w V) := ⟨fun _ => rfl,rfl⟩

structure Inv (P : Params) (m : Ledger k w V) : Prop where
  composed : Composed P m
  pool : PoolOk m.regs.ids

section

variable {P : Params} {m : Ledger k w V} {c : Cycle k w V}

def settled (s : Regs k w V) : BitVec k → V :=
  if s.delayedValid then Function.update s.mem s.delayedAddr s.delayedValue else s.mem

lemma settled_step (s : Regs k w V) (c : Cycle k w V) : settled (step P s c) =
    if wrCellValid P s c then Function.update (settled s) (wrCell P s c) c.wr.value
      else settled s := rfl

lemma write_cell (h : Inv P m) (hc : Calm P m c) (hshoot : c.shootDown = none)
    (hvalid : wrCellValid P m.regs c = true) :
    (allocReady P m.regs c = true ∧ wrCell P m.regs c = m.regs.ids.select ∧
        m.regs.ids.valid = true) ∨
      (allocReady P m.regs c = false ∧ m.regs.used (wrCell P m.regs c) = true) := by
  have hready : wrCellReady c = true := by simp [wrCellReady,hshoot]
  cases hup : isUpdate P m.regs c with
  | false =>
    left
    have hboth : c.wrValid = true ∧ m.regs.ids.valid = true := by
      simpa [wrCellValid,hup] using hvalid
    refine ⟨?_,by simp [wrCell,hup],hboth.2⟩
    cases huse : P.useUsed <;> simp [allocReady,huse,hup,hready,hboth.1,hvalid]
  | true =>
    right
    have huse : P.useUsed = true ∧ (if P.autoUpdate then !m.regs.ids.valid else c.wr.used) =
        true := by
      simpa [isUpdate] using hup
    have hwr : c.wrValid = true := by simpa [wrCellValid,hup] using hvalid
    refine ⟨by simp [allocReady,huse.1,hup],?_⟩
    rw [show wrCell P m.regs c = c.wr.usedCell by simp [wrCell,hup]]
    cases hauto : P.autoUpdate with
    | false => exact hc.update huse.1 hauto hwr (by simpa [hauto] using huse.2)
    | true =>
      -- the pool is empty
      have hnone : ¬∃ i, m.regs.ids.bitmap i = true := by
        rw [← h.pool.valid]
        simpa [hauto] using huse.2
      have hfree := h.composed.free c.wr.usedCell
      cases hu : m.regs.used c.wr.usedCell with
      | true => rfl
      | false => exact absurd ⟨c.wr.usedCell,by rw [hfree,hu]; rfl⟩ hnone

lemma idle_bitmap (h : Inv P m) (hshoot : c.shootDown = none)
    (hvalid : wrCellValid P m.regs c = false) (i : BitVec k) :
    (stepPool m.regs.ids (allocReady P m.regs c) c.shootDown).bitmap i = m.regs.ids.bitmap i := by
  rw [step_pool_bitmap,hshoot]
  cases ha : allocReady P m.regs c with
  | false => simp [bitmap1]
  | true =>
    -- the pool was asked although it is empty
    have huse : P.useUsed = true := by
      cases hu : P.useUsed with
      | true => rfl
      | false => simp [allocReady,hu,hvalid] at ha
    have hask : isUpdate P m.regs c = false ∧ c.wrValid = true := by
      simp only [allocReady,huse,if_true,Bool.and_eq_true,Bool.not_eq_true'] at ha
      exact ⟨ha.1.1,ha.2⟩
    have hempty : m.regs.ids.valid = false := by
      simpa [wrCellValid,hask.1,hask.2] using hvalid
    have hbit : m.regs.ids.bitmap i = false := by
      by_contra hset
      rw [Bool.not_eq_false] at hset
      rw [h.pool.valid.mpr ⟨i,hset⟩] at hempty
      cases hempty
    simp [bitmap1,hbit]

lemma shoot_down_step (h : Inv P m) (hc : Calm P m c) {i : BitVec k}
    (hshoot : c.shootDown = some i) : Composed P (next P m c) := by
  have hvalid : wrCellValid P m.regs c = false := hc.alone (by simp [hshoot])
  have hcell : camCell P m.regs c = some i := by simp [camCell,hshoot]
  have hready : allocReady P m.regs c = false := by
    cases huse : P.useUsed <;> simp [allocReady,huse,wrCellReady,hshoot]
  have hused : (step P m.regs c).used = Function.update m.regs.used i false := by
    simp [step,hcell,hvalid]
  have hkeep : ∀ j wr, record P m c j = some wr → j ≠ i ∧ m.stored j = some wr := by
    intro j wr hj
    simp only [record,hshoot,update_apply] at hj
    split_ifs at hj with hji
    exact ⟨hji,hj⟩
  refine ⟨?_,?_,?_,?_⟩
  · intro j
    show (step P m.regs c).used j = (record P m c j).isSome
    rw [hused,record,hshoot]
    dsimp only
    simp only [update_apply]
    split_ifs
    · rfl
    · exact h.composed.used j
  · intro j wr hj
    obtain ⟨hji,hj⟩ := hkeep j wr hj
    have hkey := h.composed.key j wr hj
    simpa [next,step,hcell,update_of_ne hji] using hkey
  · intro j wr hj d
    obtain ⟨-,hj⟩ := hkeep j wr hj
    show settled (step P m.regs c) j = wr.value
    rw [settled_step,hvalid]
    exact h.composed.value j wr hj c
  · intro j
    show (stepPool m.regs.ids (allocReady P m.regs c) c.shootDown).bitmap j =
      !(step P m.regs c).used j
    rw [step_pool_bitmap,hused,hready,hshoot,bitmap1,h.composed.free]
    by_cases hji : j = i
    · subst hji
      simp
    · have hne : ¬i = j := fun heq => hji heq.symm
      simp [update_of_ne hji,hne]

lemma write_step (h : Inv P m) (hc : Calm P m c) (hshoot : c.shootDown = none)
    (hvalid : wrCellValid P m.regs c = true) : Composed P (next P m c) := by
  have hcell : camCell P m.regs c = some (wrCell P m.regs c) := by
    simp [camCell,hshoot,hvalid]
  have hused : (step P m.regs c).used = Function.update m.regs.used (wrCell P m.regs c) true := by
    simp [step,hcell,hvalid]
  have hrecord : record P m c = Function.update m.stored (wrCell P m.regs c) (some c.wr) := by
    simp [record,hshoot,hvalid]
  refine ⟨?_,?_,?_,?_⟩
  · intro j
    show (step P m.regs c).used j = (record P m c j).isSome
    rw [hused,hrecord]
    simp only [update_apply]
    split_ifs
    · rfl
    · exact h.composed.used j
  · intro j wr hj
    replace hj : record P m c j = some wr := hj
    rw [hrecord] at hj
    by_cases hji : j = wrCell P m.regs c
    · subst hji
      rw [update_self] at hj
      cases hj
      simp [next,step,hcell]
    · rw [update_of_ne hji] at hj
      simpa [next,step,hcell,update_of_ne hji] using h.composed.key j wr hj
  · intro j wr hj d
    replace hj : record P m c j = some wr := hj
    show settled (step P m.regs c) j = wr.value
    rw [settled_step,hvalid,if_pos rfl]
    rw [hrecord] at hj
    by_cases hji : j = wrCell P m.regs c
    · subst hji
      rw [update_self] at hj ⊢
      cases hj
      rfl
    · rw [update_of_ne hji] at hj ⊢
      exact h.composed.value j wr hj c
  · intro j
    show (stepPool m.regs.ids (allocReady P m.regs c) c.shootDown).bitmap j =
      !(step P m.regs c).used j
    rw [step_pool_bitmap,hused,hshoot,bitmap1,h.composed.free]
    rcases write_cell h hc hshoot hvalid with ⟨ha,hsel,-⟩ | ⟨ha,hold⟩
    · rw [ha,hsel]
      by_cases hji : j = m.regs.ids.select
      · subst hji
        simp
      · simp [hji]
    · rw [ha]
      by_cases hji : j = wrCell P m.regs c
      · subst hji
        simp [hold]
      · simp [update_of_ne hji]

lemma idle_step (h : Inv P m) (hshoot : c.shootDown = none)
    (hvalid : wrCellValid P m.regs c = false) : Composed P (next P m c) := by
  have hcell : camCell P m.regs c = none := by simp [camCell,hshoot,hvalid]
  have hrecord : record P m c = m.stored := by simp [record,hshoot,hvalid]
  refine ⟨?_,?_,?_,?_⟩
  · intro j
    simpa [next,hrecord,step,hcell] using h.composed.used j
  · intro j wr hj
    replace hj : record P m c j = some wr := hj
    rw [hrecord] at hj
    simpa [next,step,hcell] using h.composed.key j wr hj
  · intro j wr hj d
    replace hj : record P m c j = some wr := hj
    rw [hrecord] at hj
    show settled (step P m.regs c) j = wr.value
    rw [settled_step,hvalid]
    exact h.composed.value j wr hj c
  · intro j
    show (stepPool m.regs.ids (allocReady P m.regs c) c.shootDown).bitmap j =
      !(step P m.regs c).used j
    rw [idle_bitmap h hshoot hvalid,h.composed.free]
    simp [step,hcell]

lemma step_inv (h : Inv P m) (hc : Calm P m c) : Inv P (next P m c) := by
  refine ⟨?_,?_⟩
  · cases hshoot : c.shootDown with
    | some i => exact shoot_down_step h hc hshoot
    | none =>
      cases hvalid : wrCellValid P m.regs c with
      | true => exact write_step h hc hshoot hvalid
      | false => exact idle_step h hshoot hvalid
  · exact step_pool_ok h.pool

lemma reset_inv {s : Regs k w V} (h : Reset s) : Inv P ⟨s,fun _ => none⟩ := by
  refine ⟨⟨h.used,by simp,by simp,?_⟩,?_,?_⟩
  · intro i
    show s.ids.bitmap i = !s.used i
    rw [h.ids,h.used]
    rfl
  · show s.ids.valid = true ↔ ∃ i, s.ids.bitmap i = true
    rw [h.ids]
    simp [initPool]
  · show s.ids.valid = true → s.ids.bitmap s.ids.select = true
    rw [h.ids]
    simp [initPool]

end

/-- If no write is pending at a shootdown, the table holds the writes that still count. -/
theorem updates_compose (P : Params) (s : Regs k w V) (hs : Reset s) (cs : List (Cycle k w V))
    (m : Ledger k w V) (hok : Guarded (exec P) (Calm P) cs ⟨s,fun _ => none⟩)
    (hrun : run (exec P) cs ⟨s,fun _ => none⟩ = some m) : Composed P m := by
  have hinv : Inv P m := by
    refine run_invariant (exec P) (Calm P) (Inv P) ?_ cs _ m (reset_inv hs) hok hrun
    intro m c u hm hc hu
    cases hu
    exact step_inv hm hc
  exact hinv.composed

def updateCycle (valid : Bool) (key : BitVec 1) (value : ℕ) (shootDown : Option (BitVec 1)) :
    Cycle 1 1 ℕ := ⟨valid,⟨1,false,0,key,value⟩,shootDown,false,0,true⟩

def fresh : Ledger 1 1 ℕ := ⟨resetRegs 0,fun _ => none⟩

/-- Two writes, a shootdown and a third write. -/
theorem updates_compose_four : ∃ m, run (exec plain) [updateCycle true 0 10 none,
    updateCycle true 1 20 none,updateCycle false 0 0 (some 0),updateCycle true 1 30 none] fresh =
      some m ∧ Composed plain m := by
  refine ⟨_,rfl,updates_compose plain (resetRegs 0) (reset_regs 0) [updateCycle true 0 10 none,
    updateCycle true 1 20 none,updateCycle false 0 0 (some 0),updateCycle true 1 30 none] _ ?_ rfl⟩
  refine ⟨⟨by decide,by decide,by decide⟩,⟨by decide,by decide,by decide⟩,
    ⟨by decide,by decide,by decide⟩,⟨by decide,by decide,by decide⟩,trivial⟩

/-- Cell 0 is shot down under a pending write: it stays in use, and the pool has it. -/
theorem shoot_down_refilled : ∃ m, run (exec plain) [updateCycle true 0 10 none,
    updateCycle true 1 20 (some 0)] fresh = some m ∧
      m.stored 0 = none ∧ m.regs.used 0 = true ∧ m.regs.keyRegs 0 = 1 ∧
      m.regs.ids.bitmap 0 = true :=
  ⟨_,rfl,rfl,by decide,by decide,by decide⟩

end Clio.TableUpdate
