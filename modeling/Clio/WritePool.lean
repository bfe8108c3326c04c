import Clio.Memory

/-!
# Writes that are still to land

A pool of writes is due to a memory.
-/

namespace Clio.WritePool

open Memory

variable {α ι : Type} (range : ι → ℕ × List α)

def Apart (p q : ℕ × List α) : Prop := p.1+p.2.length ≤ q.1 ∨ q.1+q.2.length ≤ p.1

def storeAll (mem : ℕ → α) (ws : List ι) : ℕ → α :=
  ws.foldl (fun mem w => store mem (range w).1 (range w).2) mem

variable (mem : ℕ → α)

lemma store_comm (p q : ℕ × List α) (h : Apart p q) :
    store (store mem p.1 p.2) q.1 q.2 = store (store mem q.1 q.2) p.1 p.2 := by
  funext x
  unfold Apart at h
  by_cases hp : p.1 ≤ x ∧ x-p.1 < p.2.length
  · have hq : ¬(q.1 ≤ x ∧ x-q.1 < q.2.length) := by omega
    simp [store,hp,hq]
  · simp [store,hp]

variable (ws : List ι)

lemma store_all_erase [DecidableEq ι] (w : ι) (hw : w ∈ ws)
    (hpair : ws.Pairwise (fun x y => Apart (range x) (range y))) :
    storeAll range (store mem (range w).1 (range w).2) (ws.erase w) = storeAll range mem ws := by
  induction ws generalizing mem with
  | nil => cases hw
  | cons x ws ih =>
    by_cases hx : x = w
    · subst hx
      rw [List.erase_cons_head]
      rfl
    · have hmem : w ∈ ws := (List.mem_cons.mp hw).resolve_left (Ne.symm hx)
      obtain ⟨hfirst,hrest⟩ := List.pairwise_cons.mp hpair
      rw [List.erase_cons_tail (by simpa using hx)]
      have hstep := ih (store mem (range x).1 (range x).2) hmem hrest
      rw [store_comm mem (range x) (range w) (hfirst w hmem)] at hstep
      exact hstep

lemma load_store_all (address n : ℕ)
    (h : ∀ w ∈ ws, (range w).1+(range w).2.length ≤ address ∨ address+n ≤ (range w).1) :
    load (storeAll range mem ws) address n = load mem address n := by
  induction ws generalizing mem with
  | nil => rfl
  | cons w ws ih =>
    have hfirst := load_store_apart mem (range w).1 address n (range w).2 (h w (by simp))
    exact (ih _ (fun x hx => h x (by simp [hx]))).trans hfirst

lemma store_all_append (vs : List ι) :
    storeAll range mem (ws++vs) = storeAll range (storeAll range mem ws) vs :=
  List.foldl_append ..

end Clio.WritePool
