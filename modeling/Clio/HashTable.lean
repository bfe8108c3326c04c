import Mathlib.Data.List.Find
import Mathlib.Data.List.Perm.Subperm
import Clio.Hlist

/-!
# Hash tables of intrusive lists

Nodes are numbered below a bound and a table is a heap of lists whose linked nodes are each where
they may be.
-/

namespace Clio.HashTable

open Function Hlist

variable {β : Type}

def lookup (n : ℕ) (h : Heap ℕ β) (p : ℕ → Bool) (b : β) : Option (Option ℕ) :=
  findFrom h p n (h.first b)

def initNode (h : Heap ℕ β) (a : ℕ) : Heap ℕ β :=
  { h with next := update h.next a none, pprev := update h.pprev a none }

def Table (n : ℕ) (h : Heap ℕ β) (home : ℕ → β → Prop) : Prop :=
  ∃ lists, Rep h lists ∧ ∀ b, ∀ a ∈ lists b, a < n ∧ home a b

variable {n : ℕ} {h : Heap ℕ β} {home : ℕ → β → Prop}

lemma table_empty : Table n (empty : Heap ℕ β) home :=
  ⟨fun _ => [],rep_empty,fun _ _ ha => absurd ha List.not_mem_nil⟩

lemma lookup_rep {lists : β → List ℕ} (hr : Rep h lists) (hlt : ∀ b, ∀ a ∈ lists b, a < n)
    (p : ℕ → Bool) (b : β) : lookup n h p b = some ((lists b).find? p) := by
  have hsub : lists b ⊆ List.range n := fun a ha => List.mem_range.mpr (hlt b a ha)
  have hlength := (List.subperm_of_subset (hr.nodup b) hsub).length_le
  rw [List.length_range] at hlength
  exact find_from_seg h p n _ _ _ (hr.seg b) hlength

lemma lookup_found (ht : Table n h home) (p : ℕ → Bool) (b : β) :
    ∃ r, lookup n h p b = some r ∧ ∀ a, r = some a → p a = true ∧ h.pprev a ≠ none ∧ home a b := by
  obtain ⟨lists,hr,hhome⟩ := ht
  refine ⟨_,lookup_rep hr (fun c a ha => (hhome c a ha).1) p b,?_⟩
  intro a ha
  have hmem := List.mem_of_find?_eq_some ha
  exact ⟨List.find?_some ha,fun hnone => (hr.linked a).mp hnone b hmem,(hhome b a hmem).2⟩

lemma lookup_none (ht : Table n h home) (p : ℕ → Bool) (a : ℕ) (ha : h.pprev a ≠ none)
    (hp : p a = true) (b : β) (hb : ∀ c, home a c → c = b) : lookup n h p b ≠ some none := by
  obtain ⟨lists,hr,hhome⟩ := ht
  rw [lookup_rep hr (fun c a ha => (hhome c a ha).1) p b]
  intro hnone
  apply ha
  rw [hr.linked]
  intro c hc
  have hcb := hb c (hhome c a hc).2
  subst hcb
  have hfind := List.find?_eq_none.mp (Option.some.inj hnone) a hc
  exact hfind hp

lemma table_linked (ht : Table n h home) (a : ℕ) (ha : h.pprev a ≠ none) :
    a < n ∧ ∃ b, home a b := by
  obtain ⟨lists,hr,hhome⟩ := ht
  by_contra hout
  apply ha
  rw [hr.linked]
  intro b hb
  exact hout ⟨(hhome b a hb).1,b,(hhome b a hb).2⟩

lemma table_mono {home' : ℕ → β → Prop} (ht : Table n h home)
    (hmono : ∀ a b, h.pprev a ≠ none → home a b → home' a b) : Table n h home' := by
  obtain ⟨lists,hr,hhome⟩ := ht
  refine ⟨lists,hr,?_⟩
  intro b a ha
  have hlinked : h.pprev a ≠ none := fun hnone => (hr.linked a).mp hnone b ha
  exact ⟨(hhome b a ha).1,hmono a b hlinked (hhome b a ha).2⟩

lemma lookup_congr (ht : Table n h home) (p q : ℕ → Bool)
    (hpq : ∀ a, h.pprev a ≠ none → p a = q a) (b : β) : lookup n h p b = lookup n h q b := by
  obtain ⟨lists,hr,hhome⟩ := ht
  have hlt : ∀ c, ∀ a ∈ lists c, a < n := fun c a ha => (hhome c a ha).1
  rw [lookup_rep hr hlt,lookup_rep hr hlt]
  congr 1
  apply List.find?_congr
  intro a ha
  exact hpq a fun hnone => (hr.linked a).mp hnone b ha

lemma init_rep {lists : β → List ℕ} (hr : Rep h lists) (a : ℕ) (ha : h.pprev a = none) :
    Rep (initNode h a) lists := by
  have hfree := (hr.linked a).mp ha
  refine ⟨?_,hr.nodup,hr.apart,?_⟩
  · intro b
    apply (hr.seg b).congr
    intro x hx
    have hne : x ≠ a := fun heq => hfree b (heq ▸ hx)
    simp [initNode,hne]
  · intro x
    by_cases hx : x = a
    · subst hx
      simp [initNode,hfree]
    · rw [← hr.linked x]
      simp [initNode,hx]

lemma table_init (ht : Table n h home) (a : ℕ) (ha : h.pprev a = none) :
    Table n (initNode h a) home := by
  obtain ⟨lists,hr,hhome⟩ := ht
  exact ⟨lists,init_rep hr a ha,hhome⟩

lemma lookup_init (ht : Table n h home) (a : ℕ) (ha : h.pprev a = none) (p : ℕ → Bool) (b : β) :
    lookup n (initNode h a) p b = lookup n h p b := by
  obtain ⟨lists,hr,hhome⟩ := ht
  have hlt : ∀ c, ∀ x ∈ lists c, x < n := fun c x hx => (hhome c x hx).1
  rw [lookup_rep hr hlt,lookup_rep (init_rep hr a ha) hlt]

variable [DecidableEq β]

lemma table_add (ht : Table n h home) (a : ℕ) (b : β) (ha : h.pprev a = none) (hlt : a < n)
    (hab : home a b) : Table n (addHead h a b) home := by
  obtain ⟨lists,hr,hhome⟩ := ht
  refine ⟨_,add_head_rep h lists a b hr ha,?_⟩
  intro c x hx
  rcases (mem_add lists a x b c).mp hx with hx | ⟨rfl,rfl⟩
  · exact hhome c x hx
  · exact ⟨hlt,hab⟩

lemma lookup_add (ht : Table n h home) (a : ℕ) (b : β) (ha : h.pprev a = none) (hlt : a < n)
    (p : ℕ → Bool) (c : β) :
    lookup n (addHead h a b) p c =
      if c = b ∧ p a = true then some (some a) else lookup n h p c := by
  obtain ⟨lists,hr,hhome⟩ := ht
  have hbound : ∀ c, ∀ x ∈ update lists b (a::lists b) c, x < n := by
    intro c x hx
    rcases (mem_add lists a x b c).mp hx with hx | ⟨rfl,-⟩
    · exact (hhome c x hx).1
    · exact hlt
  rw [lookup_rep (add_head_rep h lists a b hr ha) hbound,
    lookup_rep hr (fun c x hx => (hhome c x hx).1),update_apply]
  by_cases hc : c = b
  · subst hc
    cases hp : p a <;> simp [hp]
  · simp [hc]

lemma table_del (ht : Table n h home) (a : ℕ) :
    Table n (delInit h a) home ∧ (delInit h a).pprev a = none ∧
      ∀ x, h.pprev x = none → (delInit h a).pprev x = none := by
  by_cases ha : h.pprev a = none
  · rw [del_init_unlinked h a ha]
    exact ⟨ht,ha,fun _ hx => hx⟩
  · obtain ⟨lists,hr,hhome⟩ := ht
    have hin : ∃ b, a ∈ lists b := by
      by_contra hout
      exact ha ((hr.linked a).mpr fun b hb => hout ⟨b,hb⟩)
    obtain ⟨b,hb⟩ := hin
    have hrep := del_init_rep h lists a b hr hb
    have hmem : ∀ c, ∀ x ∈ update lists b ((lists b).erase a) c, x ∈ lists c ∧ x ≠ a := by
      intro c x hx
      rw [update_apply] at hx
      split_ifs at hx with hc
      · subst hc
        have hx' := (hr.nodup c).mem_erase_iff.mp hx
        exact ⟨hx'.2,hx'.1⟩
      · exact ⟨hx,fun heq => hc (hr.apart c b a (heq ▸ hx) hb)⟩
    refine ⟨⟨_,hrep,fun c x hx => hhome c x (hmem c x hx).1⟩,?_,?_⟩
    · rw [hrep.linked]
      intro c hc
      exact (hmem c a hc).2 rfl
    · intro x hx
      rw [hrep.linked]
      intro c hc
      exact (hr.linked x).mp hx c (hmem c x hc).1

end Clio.HashTable
