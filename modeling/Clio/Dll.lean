import Mathlib

/-!
# Doubly linked lists

The cells of a doubly linked list are named by `α`; `next` and `prev` read their two pointers.
-/

namespace Clio.Dll

variable {α : Type}

def Linked (next prev : α → Option α) (ps : List α) : Prop :=
  ∀ a p b, ps = a++p::b → prev p = a.getLast? ∧ next p = b.head?

lemma split_append (x y a b : List α) (p : α) (h : x++y = a++p::b) :
    (∃ c, x = a++p::c ∧ b = c++y) ∨ ∃ c, a = x++c ∧ y = c++p::b := by
  rcases List.append_eq_append_iff.mp h with ⟨c,ha,hy⟩ | ⟨c,hx,hb⟩
  · exact .inr ⟨c,ha,hy⟩
  · cases c with
    | nil => exact .inr ⟨[],by simpa using hx.symm,by simpa using hb.symm⟩
    | cons q c =>
      obtain ⟨rfl,rfl⟩ := List.cons.inj hb
      exact .inl ⟨c,hx,rfl⟩

lemma last_of_nodup (a c : List α) (p : α) (h : (a++p::c).Nodup) (hc : c ≠ []) :
    (a++p::c).getLast? ≠ some p := by
  intro hlast
  have hmem : p ∈ c := by
    apply List.mem_of_getLast?
    rwa [List.getLast?_append_of_ne_nil a (by simp),List.getLast?_cons_of_ne_nil hc] at hlast
  have hcons := (List.nodup_append.mp h).2.1
  exact (List.nodup_cons.mp hcons).1 hmem

lemma head_of_nodup (c b : List α) (p : α) (h : (c++p::b).Nodup) (hc : c ≠ []) :
    (c++p::b).head? ≠ some p := by
  intro hhead
  have hmem : p ∈ c := by
    rw [List.head?_append_of_ne_nil c hc] at hhead
    exact List.mem_of_head? hhead
  exact (List.nodup_append.mp h).2.2 p hmem p (by simp) rfl

lemma linked_splice [DecidableEq α] (next prev next' prev' : α → Option α)
    (l1 d e l2 : List α) (h : Linked next prev (l1++d++l2)) (hn1 : l1.Nodup) (hn2 : l2.Nodup)
    (h1 : ∀ p ∈ l1, prev' p = prev p ∧
      next' p = if l1.getLast? = some p then (e++l2).head? else next p)
    (h2 : ∀ p ∈ l2, next' p = next p ∧
      prev' p = if l2.head? = some p then (l1++e).getLast? else prev p)
    (he : ∀ a p b, e = a++p::b → prev' p = (l1++a).getLast? ∧ next' p = (b++l2).head?) :
    Linked next' prev' (l1++e++l2) := by
  intro a p b hsplit
  rcases split_append _ _ _ _ _ hsplit with ⟨c,hc,rfl⟩ | ⟨c,rfl,rfl⟩
  · rcases split_append _ _ _ _ _ hc with ⟨c',rfl,rfl⟩ | ⟨c',rfl,rfl⟩
    · obtain ⟨hprev,hnext⟩ := h1 p (by simp)
      obtain ⟨hp,hq⟩ := h a p (c'++d++l2) (by simp)
      refine ⟨hprev.trans hp,?_⟩
      cases c' with
      | nil => simpa using hnext
      | cons q c' =>
        rw [if_neg (last_of_nodup a (q::c') p hn1 (by simp)),hq] at hnext
        simpa using hnext
    · exact he c' p c rfl
  · obtain ⟨hnext,hprev⟩ := h2 p (by simp)
    obtain ⟨hp,hq⟩ := h (l1++d++c) p b (by simp)
    refine ⟨?_,hnext.trans hq⟩
    cases c with
    | nil => simpa using hprev
    | cons q c =>
      rw [if_neg (head_of_nodup (q::c) b p hn2 (by simp)),hp] at hprev
      rw [hprev,List.getLast?_append_of_ne_nil _ (by simp),
        List.getLast?_append_of_ne_nil _ (by simp)]

lemma linked_congr (next prev next' prev' : α → Option α) (ps : List α)
    (h : Linked next prev ps) (hn : ∀ p ∈ ps, next' p = next p) (hp : ∀ p ∈ ps, prev' p = prev p) :
    Linked next' prev' ps := by
  intro a p b hps
  rw [hn p (by simp [hps]),hp p (by simp [hps])]
  exact h a p b hps

end Clio.Dll
