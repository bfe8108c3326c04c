import Mathlib.Data.List.Basic
import Mathlib.Tactic.Common

/-!
# Memory as a function from addresses to cells

A load reads a run of cells, a store writes one.
-/

namespace Clio.Memory

variable {α : Type}

def load (mem : ℕ → α) (address n : ℕ) : List α := (List.range n).map (fun i => mem (address+i))

def store (mem : ℕ → α) (address : ℕ) (cells : List α) : ℕ → α :=
  fun x => if h : address ≤ x ∧ x-address < cells.length then cells.get ⟨x-address,h.2⟩ else mem x

variable (mem : ℕ → α)

@[simp] lemma length_load (address n : ℕ) : (load mem address n).length = n := by
  simp [load]

lemma load_add (address m n : ℕ) :
    load mem address (m+n) = load mem address m++load mem (address+m) n := by
  simp [load,List.range_add,Nat.add_assoc,Function.comp_def]

lemma load_store (address : ℕ) (cells : List α) :
    load (store mem address cells) address cells.length = cells := by
  apply List.ext_getElem
  · simp
  · intro i h1 h2
    simp [load,store,h2]

lemma load_store_apart (address target n : ℕ) (cells : List α)
    (h : address+cells.length ≤ target ∨ target+n ≤ address) :
    load (store mem address cells) target n = load mem target n := by
  apply List.map_congr_left
  intro i hi
  have hlt := List.mem_range.mp hi
  exact dif_neg (by omega)

end Clio.Memory
