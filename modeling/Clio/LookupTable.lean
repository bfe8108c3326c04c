import Mathlib

/-!
# Ternary lookup tables

A table has `2^k` cells. A cell in use matches a key when the two agree on every bit its mask keeps.
-/

namespace Clio.LookupTable

open Function

structure Cell (w : ℕ) (V : Type) where
  used : Bool
  key : BitVec w
  mask : BitVec w
  value : V
  deriving DecidableEq, Repr

structure Table (k w : ℕ) (V : Type) where
  cells : BitVec k → Cell w V
  ids : BitVec k → Bool

variable {k w : ℕ} {V : Type}

def matchCell (cell : Cell w V) (rdkey : BitVec w) : Bool :=
  ~~~(cell.key ^^^ rdkey) ||| ~~~cell.mask == BitVec.allOnes w

def resVec (t : Table k w V) (rdkey : BitVec w) (i : BitVec k) : Bool :=
  matchCell (t.cells i) rdkey && (t.cells i).used

def indices (k : ℕ) : List (BitVec k) := (List.finRange (2^k)).map BitVec.ofFin

def ohToUInt (v : BitVec k → Bool) : BitVec k :=
  (indices k).foldl (fun acc i => if v i then acc ||| i else acc) 0

def hit (t : Table k w V) (rdkey : BitVec w) : Bool := (indices k).any (resVec t rdkey)

def rdaddr (t : Table k w V) (rdkey : BitVec w) : BitVec k := ohToUInt (resVec t rdkey)

def rdvalue (t : Table k w V) (rdkey : BitVec w) : V := (t.cells (rdaddr t rdkey)).value

def write (t : Table k w V) (i : BitVec k) (key mask : BitVec w) (value : V) : Table k w V where
  cells := update t.cells i ⟨true, key, mask, value⟩
  ids := update t.ids i false

def shootDown (t : Table k w V) (i : BitVec k) : Table k w V where
  cells := update t.cells i { t.cells i with used := false }
  ids := update t.ids i true

def OnePerKey (t : Table k w V) : Prop :=
  ∀ key i j, resVec t key i = true → resVec t key j = true → i = j

lemma mem_indices (i : BitVec k) : i ∈ indices k :=
  List.mem_map.mpr ⟨i.toFin,List.mem_finRange _,rfl⟩

lemma hit_iff (t : Table k w V) (key : BitVec w) :
    hit t key = true ↔ ∃ i, resVec t key i = true := by
  rw [hit,List.any_eq_true]
  exact ⟨fun ⟨i,_,hi⟩ => ⟨i,hi⟩,fun ⟨i,hi⟩ => ⟨i,mem_indices i,hi⟩⟩

lemma fold_index_stays (v : BitVec k → Bool) (i : BitVec k) (hv : ∀ j, v j = true → j = i)
    (is : List (BitVec k)) :
    is.foldl (fun acc j => if v j then acc ||| j else acc) i = i := by
  induction is with
  | nil => rfl
  | cons j is ih =>
    rw [List.foldl_cons]
    by_cases hj : v j = true
    · rw [if_pos hj,hv j hj,BitVec.or_self]
      exact ih
    · rw [if_neg hj]
      exact ih

lemma fold_index (v : BitVec k → Bool) (i : BitVec k) (hv : ∀ j, v j = true → j = i)
    (hi : v i = true) (is : List (BitVec k)) (hmem : i ∈ is) :
    is.foldl (fun acc j => if v j then acc ||| j else acc) 0 = i := by
  induction is with
  | nil => cases hmem
  | cons j is ih =>
    rw [List.foldl_cons]
    by_cases hj : v j = true
    · rw [if_pos hj,hv j hj]
      simpa using fold_index_stays v i hv is
    · rw [if_neg hj]
      rcases List.mem_cons.mp hmem with rfl | hmem
      · exact absurd hi hj
      · exact ih hmem

section

variable (t : Table k w V) (key : BitVec w)
include t key

lemma rdaddr_unique (i : BitVec k) (hi : resVec t key i = true)
    (hone : ∀ j, resVec t key j = true → j = i) :
    rdaddr t key = i :=
  fold_index (resVec t key) i hone hi (indices k) (mem_indices i)

lemma res_vec_used (i : BitVec k) (h : resVec t key i = true) : (t.cells i).used = true := by
  rw [resVec,Bool.and_eq_true] at h
  exact h.2

lemma shoot_down_res (i j : BitVec k) :
    resVec (shootDown t i) key j = true ↔ resVec t key j = true ∧ j ≠ i := by
  by_cases h : j = i
  · subst h
    simp [resVec,shootDown]
  · simp [resVec,shootDown,h]

lemma write_res (wkey mask : BitVec w) (value : V) (i j : BitVec k) :
    resVec (write t i wkey mask value) key j = true ↔
      (j = i ∧ matchCell ⟨true, wkey, mask, value⟩ key = true) ∨
        (j ≠ i ∧ resVec t key j = true) := by
  by_cases h : j = i
  · subst h
    simp [resVec,write]
  · simp [resVec,write,h]

end

lemma match_cell_iff (cell : Cell w V) (key : BitVec w) :
    matchCell cell key = true ↔ cell.mask &&& (cell.key ^^^ key) = 0 := by
  rw [matchCell,beq_iff_eq]
  constructor
  · intro h
    have hn := congrArg (fun x => ~~~x) h
    simp only [BitVec.not_or,BitVec.not_not,BitVec.not_allOnes] at hn
    rw [BitVec.and_comm]
    exact hn
  · intro h
    rw [← BitVec.not_and,BitVec.and_comm,h]
    simp

end Clio.LookupTable
