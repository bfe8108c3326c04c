import Clio.TableUpdate

/-!
# Identifiers handed out by the pool

A pool of any size with the identifiers that are handed out.
-/

namespace Clio.FreeIds

open Machine StoppableTable TableUpdate

/-- The pool and the identifiers that are handed out. -/
structure Handed (k : ℕ) where
  pool : IdPool k
  out : BitVec k → Bool

structure Cycle (k : ℕ) where
  allocReady : Bool
  free : Option (BitVec k)

variable {k : ℕ}

/-- The bits from `numIds` on do not exist and stay zero. -/
def start (numIds : ℕ) : Handed (Nat.clog 2 numIds) :=
  ⟨⟨fun i => decide (i.toNat < numIds),0,true⟩,fun _ => false⟩

def exec (m : Handed k) (c : Cycle k) : Option (Handed k) :=
  some ⟨stepPool m.pool c.allocReady c.free,fun i =>
    m.out i && c.free != some i || c.allocReady && m.pool.valid && i == m.pool.select⟩

/-- Only identifiers that are handed out are freed. -/
def FreesHanded (m : Handed k) (c : Cycle k) : Prop := ∀ i ∈ c.free, m.out i = true

/-- The condition that the assertion rules out. -/
def doubleFree (m : Handed k) (c : Cycle k) : Bool :=
  c.free.any fun i => m.pool.bitmap i && !(c.allocReady && i == m.pool.select)

structure Inv (numIds : ℕ) (m : Handed k) : Prop where
  pool : PoolOk m.pool
  bits : ∀ i, m.pool.bitmap i = true ↔ i.toNat < numIds ∧ m.out i = false
  out : ∀ i, m.out i = true → i.toNat < numIds

lemma exec_inv {numIds : ℕ} (m : Handed k) (c : Cycle k) (u : Handed k) (h : Inv numIds m)
    (hc : FreesHanded m c) (hu : exec m c = some u) : Inv numIds u := by
  cases hu
  have hsel := h.pool.select
  have hvalid := h.pool.valid
  have hbits := h.bits
  have hout := h.out
  refine ⟨step_pool_ok h.pool,fun i => ?_,fun i => ?_⟩
  · have hi := hc i
    simp only [step_pool_bitmap,bitmap1]
    grind
  · simp only
    grind

/-- Every free identifier can be had, one that is offered stays, and none is handed out twice. -/
theorem pool_hands_out (numIds : ℕ) (hn : 2 ≤ numIds) (cycles : List (Cycle (Nat.clog 2 numIds)))
    (m : Handed (Nat.clog 2 numIds)) (hok : Guarded exec FreesHanded cycles (start numIds))
    (hrun : run exec cycles (start numIds) = some m) :
    (m.pool.valid = true ↔ ∃ i, i.toNat < numIds ∧ m.out i = false) ∧
      (m.pool.valid = true → m.pool.select.toNat < numIds ∧ m.out m.pool.select = false) ∧
      (∀ i, m.pool.bitmap i = true ↔ i.toNat < numIds ∧ m.out i = false) ∧
      ∀ c, FreesHanded m c → doubleFree m c = false ∧
        (c.allocReady = false → m.pool.valid = true →
          (stepPool m.pool c.allocReady c.free).valid = true ∧
          (stepPool m.pool c.allocReady c.free).select = m.pool.select) := by
  have hstart : Inv numIds (start numIds) := by
    refine ⟨⟨?_,?_⟩,?_,?_⟩
    · simp only [start,true_iff,decide_eq_true_eq]
      exact ⟨0,by simp; omega⟩
    · simp [start]
      omega
    · simp [start]
    · simp [start]
  have h := run_invariant exec FreesHanded (Inv numIds) exec_inv cycles _ m hstart hok hrun
  refine ⟨by rw [h.pool.valid]; exact exists_congr h.bits,
    fun hv => (h.bits _).mp (h.pool.select hv),h.bits,fun c hc => ⟨?_,fun hready hv => ?_⟩⟩
  · rw [doubleFree,Option.any_eq_false]
    intro i hi
    simp [(h.bits i).not.mpr (by simp [hc i hi])]
  · refine ⟨(step_pool_ok h.pool).valid.mpr ⟨m.pool.select,?_⟩,by simp [stepPool,hready,hv]⟩
    rw [step_pool_bitmap]
    simp [bitmap1,hready,h.pool.select hv]

theorem pool_hands_out_three :
    ∃ m, run exec [⟨true,none⟩, ⟨true,some 0⟩] (start 3) = some m ∧ m.pool.valid = true := by
  have hok : Guarded exec FreesHanded [⟨true,none⟩,⟨true,some 0⟩] (start 3) := by
    simp [Guarded,exec,FreesHanded,start]
  exact ⟨_,rfl,(pool_hands_out 3 (by decide) _ _ hok rfl).1.mpr ⟨0,by decide,by decide⟩⟩

end Clio.FreeIds
