import Mathlib.Data.List.Nodup
import Mathlib.Logic.Function.Basic
import Mathlib.Tactic.Common
import Mathlib.Tactic.SplitIfs

/-!
# Lists with one head pointer and a back pointer to the pointer field

A node holds the next node and the address of the field that points to it.
-/

namespace Clio.Hlist

open Function

variable {α β : Type}

/-- The address of a pointer field. -/
inductive Slot (α β : Type) where
  | head (b : β)
  | next (a : α)
  deriving DecidableEq, Repr

structure Heap (α β : Type) where
  first : β → Option α
  next : α → Option α
  pprev : α → Option (Slot α β)

def empty : Heap α β := ⟨fun _ => none, fun _ => none, fun _ => none⟩

section

variable [DecidableEq α] [DecidableEq β]

def Heap.put (h : Heap α β) (slot : Slot α β) (p : Option α) : Heap α β :=
  match slot with
  | .head b => { h with first := update h.first b p }
  | .next a => { h with next := update h.next a p }

def Heap.setPprev (h : Heap α β) (p : Option α) (slot : Slot α β) : Heap α β :=
  match p with
  | none => h
  | some a => { h with pprev := update h.pprev a (some slot) }

def addHead (h : Heap α β) (a : α) (b : β) : Heap α β :=
  let first := h.first b
  let h := { h with next := update h.next a first }
  let h := h.setPprev first (.next a)
  let h := { h with first := update h.first b (some a) }
  { h with pprev := update h.pprev a (some (.head b)) }

def delInit (h : Heap α β) (a : α) : Heap α β :=
  match h.pprev a with
  | none => h
  | some slot =>
      let next := h.next a
      let h := (h.put slot next).setPprev next slot
      { h with next := update h.next a none
               pprev := update h.pprev a none }

def findFrom (h : Heap α β) (p : α → Bool) : ℕ → Option α → Option (Option α)
  | _, none => some none
  | 0, some _ => none
  | n+1, some a => if p a then some (some a) else findFrom h p n (h.next a)

section

variable (h : Heap α β) (a : α)
include h a

lemma add_head_first (b c : β) :
    (addHead h a b).first c = if c = b then some a else h.first c := by
  unfold addHead Heap.setPprev
  cases h.first b <;> simp [update_apply]

variable (x : α)

lemma add_head_next (b : β) : (addHead h a b).next x = if x = a then h.first b else h.next x := by
  unfold addHead Heap.setPprev
  cases h.first b <;> simp [update_apply]

lemma add_head_pprev (b : β) :
    (addHead h a b).pprev x = if x = a then some (.head b)
      else if h.first b = some x then some (.next a) else h.pprev x := by
  unfold addHead Heap.setPprev
  cases h.first b with
  | none => simp [update_apply]
  | some c => simp [update_apply,eq_comm]

lemma del_init_unlinked (ha : h.pprev a = none) : delInit h a = h := by
  rw [delInit,ha]

lemma del_init_first (slot : Slot α β) (ha : h.pprev a = some slot) (c : β) :
    (delInit h a).first c = if slot = .head c then h.next a else h.first c := by
  rw [delInit,ha]
  cases slot <;> cases h.next a <;>
    simp [Heap.put,Heap.setPprev,update_apply,eq_comm]

lemma del_init_next (slot : Slot α β) (ha : h.pprev a = some slot) :
    (delInit h a).next x = if x = a then none
      else if slot = .next x then h.next a else h.next x := by
  rw [delInit,ha]
  cases slot <;> cases h.next a <;>
    simp [Heap.put,Heap.setPprev,update_apply,eq_comm]

lemma del_init_pprev (slot : Slot α β) (ha : h.pprev a = some slot) :
    (delInit h a).pprev x = if x = a then none
      else if h.next a = some x then some slot else h.pprev x := by
  rw [delInit,ha]
  cases slot <;> cases h.next a <;>
    simp [Heap.put,Heap.setPprev,update_apply,eq_comm]

end

end

def Seg (h : Heap α β) : Slot α β → Option α → List α → Prop
  | _, ptr, [] => ptr = none
  | slot, ptr, a::l => ptr = some a ∧ h.pprev a = some slot ∧ Seg h (.next a) (h.next a) l

structure Rep (h : Heap α β) (lists : β → List α) : Prop where
  seg : ∀ b, Seg h (.head b) (h.first b) (lists b)
  nodup : ∀ b, (lists b).Nodup
  apart : ∀ b c a, a ∈ lists b → a ∈ lists c → b = c
  linked : ∀ a, h.pprev a = none ↔ ∀ b, a ∉ lists b

lemma rep_empty : Rep (empty : Heap α β) (fun _ => []) where
  seg _ := rfl
  nodup _ := List.nodup_nil
  apart _ _ _ h := absurd h List.not_mem_nil
  linked _ := by simp [empty]

variable {h : Heap α β} {ptr : Option α}

lemma Seg.congr {g : Heap α β} {slot : Slot α β} {l : List α} (hs : Seg h slot ptr l)
    (heq : ∀ a ∈ l, g.next a = h.next a ∧ g.pprev a = h.pprev a) : Seg g slot ptr l := by
  induction l generalizing slot ptr with
  | nil => exact hs
  | cons a l ih =>
    obtain ⟨hptr,hback,hrest⟩ := hs
    obtain ⟨hnext,hpprev⟩ := heq a (by simp)
    refine ⟨hptr,by rw [hpprev,hback],?_⟩
    rw [hnext]
    exact ih hrest (fun x hx => heq x (by simp [hx]))

lemma find_from_seg (h : Heap α β) (p : α → Bool) (n : ℕ) (slot : Slot α β) (ptr : Option α)
    (l : List α) (hs : Seg h slot ptr l) (hn : l.length ≤ n) :
    findFrom h p n ptr = some (l.find? p) := by
  induction l generalizing slot ptr n with
  | nil =>
    have hnone : ptr = none := hs
    rw [hnone]
    cases n <;> rfl
  | cons a l ih =>
    obtain ⟨hptr,-,hrest⟩ := hs
    cases n with
    | zero => exact absurd hn (by simp)
    | succ n =>
      rw [hptr,findFrom,List.find?_cons]
      cases hp : p a with
      | true => rfl
      | false => exact ih n _ _ hrest (by simpa using hn)

lemma first_eq_head {slot : Slot α β} {l : List α} (hs : Seg h slot ptr l) : ptr = l.head? := by
  cases l with
  | nil => exact hs
  | cons a l => exact hs.1

lemma next_eq_head (h : Heap α β) (a : α) (l1 l2 : List α) (slot : Slot α β) (ptr : Option α)
    (hs : Seg h slot ptr (l1++a::l2)) : h.next a = l2.head? := by
  induction l1 generalizing slot ptr with
  | nil => exact first_eq_head hs.2.2
  | cons d l ih => exact ih _ _ hs.2.2

variable [DecidableEq α] [DecidableEq β]

omit [DecidableEq α] in
lemma mem_add (lists : β → List α) (a x : α) (b c : β) :
    x ∈ update lists b (a::lists b) c ↔ x ∈ lists c ∨ x = a ∧ c = b := by
  rw [update_apply]
  split_ifs with hc
  · subst hc
    rw [List.mem_cons,or_comm]
    simp
  · simp [hc]

lemma add_head_frame (h : Heap α β) (a x : α) (b : β) (hxa : x ≠ a) (hxf : h.first b ≠ some x) :
    (addHead h a b).next x = h.next x ∧ (addHead h a b).pprev x = h.pprev x := by
  rw [add_head_next,add_head_pprev,if_neg hxa,if_neg hxa,if_neg hxf]
  exact ⟨rfl,rfl⟩

lemma add_head_seg (h : Heap α β) (a : α) (b : β) (l : List α)
    (hs : Seg h (.head b) (h.first b) l) (hn : l.Nodup) (ha : a ∉ l) :
    Seg (addHead h a b) (.next a) (h.first b) l := by
  cases l with
  | nil => exact hs
  | cons d l =>
    obtain ⟨hptr,-,hrest⟩ := hs
    have hda : d ≠ a := fun hda => ha (by rw [hda]; simp)
    refine ⟨hptr,by rw [add_head_pprev,if_neg hda,if_pos hptr],?_⟩
    rw [add_head_next,if_neg hda]
    apply hrest.congr
    intro x hx
    have hxa : x ≠ a := fun hxa => ha (by rw [← hxa]; simp [hx])
    apply add_head_frame h a x b hxa
    rw [hptr]
    intro heq
    exact (List.nodup_cons.mp hn).1 (Option.some.inj heq ▸ hx)

lemma add_head_rep (h : Heap α β) (lists : β → List α) (a : α) (b : β) (hr : Rep h lists)
    (ha : h.pprev a = none) :
    Rep (addHead h a b) (update lists b (a::lists b)) := by
  have hfree := (hr.linked a).mp ha
  have hfirst := first_eq_head (hr.seg b)
  constructor
  · intro c
    rw [add_head_first,update_apply]
    by_cases hc : c = b
    · subst hc
      rw [if_pos rfl,if_pos rfl]
      refine ⟨rfl,by rw [add_head_pprev,if_pos rfl],?_⟩
      rw [add_head_next,if_pos rfl]
      exact add_head_seg h a c (lists c) (hr.seg c) (hr.nodup c) (hfree c)
    · rw [if_neg hc,if_neg hc]
      apply (hr.seg c).congr
      intro x hx
      apply add_head_frame h a x b (fun hxa => hfree c (hxa ▸ hx))
      rw [hfirst]
      intro heq
      exact hc (hr.apart c b x hx (List.mem_of_head? heq))
  · intro c
    rw [update_apply]
    split_ifs
    · exact List.nodup_cons.mpr ⟨hfree b,hr.nodup b⟩
    · exact hr.nodup c
  · intro c d x hx hy
    rcases (mem_add lists a x b c).mp hx with hx | ⟨rfl,hcb⟩ <;>
      rcases (mem_add lists _ x b d).mp hy with hy | ⟨hxa,hdb⟩
    · exact hr.apart c d x hx hy
    · exact absurd (hxa ▸ hx) (hfree c)
    · exact absurd hy (hfree d)
    · exact hcb.trans hdb.symm
  · intro x
    simp only [mem_add,add_head_pprev]
    by_cases hxa : x = a
    · rw [if_pos hxa]
      constructor
      · intro hnone
        cases hnone
      · intro hnot
        exact absurd (.inr ⟨hxa,rfl⟩) (hnot b)
    · rw [if_neg hxa]
      by_cases hxf : h.first b = some x
      · have hmem : x ∈ lists b := List.mem_of_head? (hfirst ▸ hxf)
        rw [if_pos hxf]
        constructor
        · intro hnone
          cases hnone
        · intro hnot
          exact absurd (.inl hmem) (hnot b)
      · rw [if_neg hxf,hr.linked x]
        simp [hxa]

lemma del_init_seg (h : Heap α β) (a : α) (l1 l2 : List α) (slot : Slot α β) (ptr : Option α)
    (hs : Seg h slot ptr (l1++a::l2)) (hn : (l1++a::l2).Nodup)
    (hslot : ∀ x ∈ l1++a::l2, slot ≠ .next x) :
    (∃ s, h.pprev a = some s ∧ (l1 = [] → s = slot) ∧ (l1 ≠ [] → ∃ c ∈ l1, s = .next c)) ∧
      Seg (delInit h a) slot (if l1 = [] then h.next a else ptr) (l1++l2) := by
  induction l1 generalizing slot ptr with
  | nil =>
    obtain ⟨-,hback,hrest⟩ := hs
    refine ⟨⟨slot,hback,fun _ => rfl,fun hne => absurd rfl hne⟩,?_⟩
    rw [if_pos rfl]
    have hout := (List.nodup_cons.mp hn).1
    cases l2 with
    | nil => exact hrest
    | cons d l2 =>
      obtain ⟨hptr,-,htail⟩ := hrest
      have hd := (List.nodup_cons.mp (List.nodup_cons.mp hn).2).1
      have hda : d ≠ a := fun hda => hout (by simp [hda])
      refine ⟨hptr,by rw [del_init_pprev h a d slot hback,if_neg hda,if_pos hptr],?_⟩
      rw [del_init_next h a d slot hback,if_neg hda,if_neg (hslot d (by simp))]
      apply htail.congr
      intro x hx
      have hxa : x ≠ a := fun hxa => hout (by simp [← hxa,hx])
      have hxd : h.next a ≠ some x := by
        rw [hptr]
        intro heq
        exact hd (Option.some.inj heq ▸ hx)
      rw [del_init_next h a x slot hback,del_init_pprev h a x slot hback,if_neg hxa,if_neg hxa,
        if_neg hxd,if_neg (hslot x (by simp [hx]))]
      exact ⟨rfl,rfl⟩
  | cons c l1 ih =>
    obtain ⟨hptr,hback,hrest⟩ := hs
    have hcons := List.nodup_cons.mp hn
    have hc : c ∉ l1 := fun hmem => hcons.1 (by simp [hmem])
    have hca : c ≠ a := fun hca => hcons.1 (by simp [hca])
    obtain ⟨⟨s,hpprev,hfirst,hlater⟩,hseg⟩ := ih (.next c) (h.next c) hrest hcons.2
      (fun x hx heq => hcons.1 (Slot.next.inj heq ▸ hx))
    have hnot : h.next a ≠ some c := by
      intro heq
      rw [next_eq_head h a l1 l2 _ _ hrest] at heq
      exact hcons.1 (by simp [List.mem_of_head? heq])
    refine ⟨⟨s,hpprev,fun heq => absurd heq (by simp),fun _ => ?_⟩,?_⟩
    · by_cases hnil : l1 = []
      · exact ⟨c,by simp,hfirst hnil⟩
      · obtain ⟨d,hd,hs'⟩ := hlater hnil
        exact ⟨d,by simp [hd],hs'⟩
    · rw [if_neg (by simp)]
      refine ⟨hptr,by rw [del_init_pprev h a c s hpprev,if_neg hca,if_neg hnot,hback],?_⟩
      rw [del_init_next h a c s hpprev,if_neg hca]
      by_cases hnil : l1 = []
      · rw [if_pos hnil] at hseg
        rw [if_pos (hfirst hnil)]
        exact hseg
      · rw [if_neg hnil] at hseg
        obtain ⟨d,hd,hs'⟩ := hlater hnil
        have hdc : s ≠ .next c := by
          rw [hs']
          intro heq
          exact hc (Slot.next.inj heq ▸ hd)
        rw [if_neg hdc]
        exact hseg

lemma mem_erase {lists : β → List α} {a : α} {b : β} (hr : Rep h lists) (ha : a ∈ lists b) (c : β)
    (x : α) : x ∈ update lists b ((lists b).erase a) c ↔ x ∈ lists c ∧ x ≠ a := by
  rw [update_apply]
  split_ifs with hcb
  · subst hcb
    rw [(hr.nodup c).mem_erase_iff,and_comm]
  · constructor
    · intro hx
      exact ⟨hx,fun hxa => hcb (hr.apart c b a (hxa ▸ hx) ha)⟩
    · exact fun hx => hx.1

lemma del_init_list (h : Heap α β) (lists : β → List α) (a : α) (b : β) (hr : Rep h lists)
    (ha : a ∈ lists b) :
    ∃ s, h.pprev a = some s ∧ (∀ c, s = .head c → c = b) ∧ (∀ x, s = .next x → x ∈ lists b) ∧
      (∀ x, h.next a = some x → x ∈ lists b) ∧
      Seg (delInit h a) (.head b) (if s = .head b then h.next a else h.first b)
        ((lists b).erase a) := by
  obtain ⟨l1,l2,hsplit⟩ := List.append_of_mem ha
  have hn := hr.nodup b
  have hseg := hr.seg b
  rw [hsplit] at hn hseg ⊢
  have hout : a ∉ l1 := by
    intro hmem
    exact (List.nodup_append.mp hn).2.2 a hmem a (by simp) rfl
  obtain ⟨⟨s,hpprev,hfirst,hlater⟩,hjoined⟩ := del_init_seg h a l1 l2 (.head b) (h.first b) hseg hn
    (fun x _ heq => by cases heq)
  rw [List.erase_append_right _ hout,List.erase_cons_head]
  refine ⟨s,hpprev,?_⟩
  have hafter : ∀ x, h.next a = some x → x ∈ l1++a::l2 := by
    intro x hx
    rw [next_eq_head h a l1 l2 _ _ hseg] at hx
    simp [List.mem_of_head? hx]
  by_cases hnil : l1 = []
  · rw [if_pos hnil] at hjoined
    rw [hfirst hnil,if_pos rfl]
    exact ⟨fun c hc => (Slot.head.inj hc).symm,fun x hx => (by cases hx),hafter,hjoined⟩
  · rw [if_neg hnil] at hjoined
    obtain ⟨d,hd,hs⟩ := hlater hnil
    rw [hs,if_neg (fun heq => by cases heq)]
    refine ⟨fun c hc => (by cases hc),fun x hx => ?_,hafter,hjoined⟩
    rw [← Slot.next.inj hx]
    simp [hd]

lemma del_init_rep (h : Heap α β) (lists : β → List α) (a : α) (b : β) (hr : Rep h lists)
    (ha : a ∈ lists b) :
    Rep (delInit h a) (update lists b ((lists b).erase a)) := by
  obtain ⟨s,hpprev,hhead,hback,hafter,hseg⟩ := del_init_list h lists a b hr ha
  have hmem := mem_erase hr ha
  constructor
  · intro c
    rw [del_init_first h a s hpprev,update_apply]
    by_cases hcb : c = b
    · subst hcb
      rw [if_pos rfl]
      exact hseg
    · rw [if_neg hcb,if_neg (fun heq => hcb (hhead c heq))]
      apply (hr.seg c).congr
      intro x hx
      have hxb : x ∉ lists b := fun hxb => hcb (hr.apart c b x hx hxb)
      have hxa : x ≠ a := fun hxa => hxb (hxa ▸ ha)
      rw [del_init_next h a x s hpprev,del_init_pprev h a x s hpprev,if_neg hxa,if_neg hxa,
        if_neg (fun hx' => hxb (hback x hx')),if_neg (fun hx' => hxb (hafter x hx'))]
      exact ⟨rfl,rfl⟩
  · intro c
    rw [update_apply]
    split_ifs
    · exact (hr.nodup b).erase a
    · exact hr.nodup c
  · intro c d x hx hy
    exact hr.apart c d x ((hmem c x).mp hx).1 ((hmem d x).mp hy).1
  · intro x
    simp only [hmem,del_init_pprev h a x s hpprev]
    by_cases hxa : x = a
    · rw [if_pos hxa]
      simp [hxa]
    · rw [if_neg hxa]
      by_cases hx : h.next a = some x
      · rw [if_pos hx]
        constructor
        · intro hnone
          cases hnone
        · intro hnot
          exact absurd ⟨hafter x hx,hxa⟩ (hnot b)
      · rw [if_neg hx,hr.linked x]
        simp [hxa]

section

variable {κ : Type}

def slotHas (node : α → κ → Prop) (head : β → κ → Prop) : Slot α β → κ → Prop
  | .head b, k => head b k
  | .next a, k => node a k

structure Coloured (h : Heap α β) (node : α → κ → Prop) (head : β → κ → Prop) : Prop where
  first : ∀ b a, h.first b = some a → ∃ k, head b k ∧ node a k
  next : ∀ a c, h.next a = some c → ∃ k, node a k ∧ node c k
  pprev : ∀ a slot, h.pprev a = some slot → ∃ k, slotHas node head slot k ∧ node a k

variable {node : α → κ → Prop} {head : β → κ → Prop}

omit [DecidableEq α] [DecidableEq β] in
lemma Coloured.mono {node' : α → κ → Prop} {head' : β → κ → Prop} (hc : Coloured h node head)
    (hnode : ∀ a k, node a k → node' a k) (hhead : ∀ b k, head b k → head' b k) :
    Coloured h node' head' where
  first b a ha := by
    obtain ⟨k,hb,hk⟩ := hc.first b a ha
    exact ⟨k,hhead b k hb,hnode a k hk⟩
  next a c ha := by
    obtain ⟨k,h1,h2⟩ := hc.next a c ha
    exact ⟨k,hnode a k h1,hnode c k h2⟩
  pprev a slot ha := by
    obtain ⟨k,hs,hk⟩ := hc.pprev a slot ha
    refine ⟨k,?_,hnode a k hk⟩
    cases slot with
    | head b => exact hhead b k hs
    | next c => exact hnode c k hs

lemma add_head_coloured (h : Heap α β) (a : α) (b : β) (k : κ) (hc : Coloured h node head)
    (hhead : ∀ x k1 k2, head x k1 → head x k2 → k1 = k2) (hb : head b k) (ha : node a k) :
    Coloured (addHead h a b) node head where
  first c x hx := by
    rw [add_head_first] at hx
    split_ifs at hx with heq
    · cases hx
      exact ⟨k,heq ▸ hb,ha⟩
    · exact hc.first c x hx
  next x c hx := by
    rw [add_head_next] at hx
    split_ifs at hx with heq
    · obtain ⟨k',hb',hc'⟩ := hc.first b c hx
      rw [hhead b k' k hb' hb] at hc'
      exact ⟨k,heq ▸ ha,hc'⟩
    · exact hc.next x c hx
  pprev x slot hx := by
    rw [add_head_pprev] at hx
    split_ifs at hx with heq hf
    · cases hx
      exact ⟨k,hb,heq ▸ ha⟩
    · cases hx
      obtain ⟨k',hb',hx'⟩ := hc.first b x hf
      rw [hhead b k' k hb' hb] at hx'
      exact ⟨k,ha,hx'⟩
    · exact hc.pprev x slot hx

lemma del_init_coloured (h : Heap α β) (a : α) (hc : Coloured h node head)
    (hnode : ∀ x k1 k2, node x k1 → node x k2 → k1 = k2) : Coloured (delInit h a) node head := by
  cases hs : h.pprev a with
  | none => rwa [del_init_unlinked h a hs]
  | some s =>
    obtain ⟨k,hslot,hak⟩ := hc.pprev a s hs
    have hafter : ∀ d, h.next a = some d → node d k := by
      intro d hd
      obtain ⟨k',ha',hd'⟩ := hc.next a d hd
      rwa [hnode a k' k ha' hak] at hd'
    constructor
    · intro c x hx
      rw [del_init_first h a s hs] at hx
      split_ifs at hx with heq
      · subst heq
        exact ⟨k,hslot,hafter x hx⟩
      · exact hc.first c x hx
    · intro x c hx
      rw [del_init_next h a x s hs] at hx
      split_ifs at hx with _ heq
      · subst heq
        exact ⟨k,hslot,hafter c hx⟩
      · exact hc.next x c hx
    · intro x slot hx
      rw [del_init_pprev h a x s hs] at hx
      split_ifs at hx with _ heq
      · cases hx
        exact ⟨k,hslot,hafter x heq⟩
      · exact hc.pprev x slot hx

omit [DecidableEq α] [DecidableEq β] in
lemma find_from_coloured (h : Heap α β) (p : α → Bool) (n : ℕ) (a c : α) (k : κ)
    (hc : Coloured h node head) (hnode : ∀ x k1 k2, node x k1 → node x k2 → k1 = k2)
    (ha : node a k) (hfind : findFrom h p n (some a) = some (some c)) : node c k := by
  induction n generalizing a with
  | zero => cases hfind
  | succ n ih =>
    rw [findFrom] at hfind
    split_ifs at hfind
    · cases hfind
      exact ha
    · cases hnext : h.next a with
      | none =>
        rw [hnext,findFrom] at hfind
        cases hfind
      | some d =>
        obtain ⟨k',ha',hd⟩ := hc.next a d hnext
        rw [hnode a k' k ha' ha] at hd
        exact ih d hd (hnext ▸ hfind)

end

end Clio.Hlist
