import Mathlib.Data.Set.Insert
import Mathlib.Data.Nat.Init
import Mathlib.Order.SetNotation
import Mathlib.Tactic.Ring
import Mathlib.Tactic.Tauto

/-!
# Blocks of a power of two

A block has an order and an index and holds the `2^order` numbers that begin at `index*2^order`.
-/

namespace Clio.Blocks

structure Block where
  order : ℕ
  index : ℕ
  deriving DecidableEq, Repr

namespace Block

variable (b c : Block)

def start : ℕ := b.index*2^b.order

def pages : Set ℕ := {x | x/2^b.order = b.index}

def buddy : Block := ⟨b.order,if b.index%2 = 0 then b.index+1 else b.index-1⟩

def parent : Block := ⟨b.order+1,b.index/2⟩

def lower : Block := ⟨b.order-1,2*b.index⟩

def upper : Block := ⟨b.order-1,2*b.index+1⟩

end Block

section

variable {b c : Block} {x : ℕ}

lemma mem_pages : x ∈ b.pages ↔ b.start ≤ x ∧ x < b.start+2^b.order := by
  have hpos : 0 < 2^b.order := Nat.two_pow_pos _
  show x/2^b.order = b.index ↔ _
  rw [Nat.div_eq_iff hpos,Block.start]
  omega

lemma start_mem (b : Block) : b.start ∈ b.pages :=
  mem_pages.mpr ⟨le_rfl,Nat.lt_add_of_pos_right (Nat.two_pow_pos _)⟩

lemma dvd_start (b : Block) : 2^b.order ∣ b.start := dvd_mul_left _ _

lemma block_at {k p : ℕ} (h : 2^k ∣ p) : (⟨k,p/2^k⟩ : Block).start = p := Nat.div_mul_cancel h

lemma eq_of_mem (ho : b.order = c.order) (hb : x ∈ b.pages) (hc : x ∈ c.pages) : b = c := by
  obtain ⟨k,i⟩ := b
  obtain ⟨j,l⟩ := c
  obtain rfl : k = j := ho
  obtain rfl : i = l := hb.symm.trans hc
  rfl

lemma eq_of_start (ho : b.order = c.order) (hs : b.start = c.start) : b = c :=
  eq_of_mem ho (start_mem b) (hs ▸ start_mem c)

lemma pages_subset (ho : b.order ≤ c.order) (hb : x ∈ b.pages) (hc : x ∈ c.pages) :
    b.pages ⊆ c.pages := by
  obtain ⟨d,hd⟩ := Nat.exists_eq_add_of_le ho
  have hdiv : ∀ y, y/2^c.order = y/2^b.order/2^d := by
    intro y
    rw [hd,Nat.pow_add,Nat.div_div_eq_div_mul]
  intro y hy
  have hxb : x/2^b.order = b.index := hb
  have hyb : y/2^b.order = b.index := hy
  have hxc : x/2^c.order = c.index := hc
  show y/2^c.order = c.index
  rw [hdiv,hyb,← hxb,← hdiv,hxc]

lemma order_le (h : b.pages ⊆ c.pages) : b.order ≤ c.order := by
  by_contra hlt
  have hsize : 2^c.order < 2^b.order := Nat.pow_lt_pow_right (by norm_num) (by omega)
  have hfirst := mem_pages.mp (h (start_mem b))
  have hlater : b.start+2^c.order ∈ b.pages := mem_pages.mpr ⟨by omega,by omega⟩
  have hlast := mem_pages.mp (h hlater)
  omega

lemma eq_of_pages (h : b.pages = c.pages) : b = c :=
  eq_of_mem (le_antisymm (order_le h.subset) (order_le h.symm.subset)) (start_mem b)
    (h ▸ start_mem b)

lemma parent_pages : b.parent.pages = b.pages ∪ b.buddy.pages := by
  ext x
  show x/2^(b.order+1) = b.index/2 ↔ x/2^b.order = b.index ∨ x/2^b.order = b.buddy.index
  rw [Nat.pow_succ,← Nat.div_div_eq_div_mul]
  unfold Block.buddy
  dsimp only
  split_ifs <;> omega

lemma buddy_ne : b.buddy ≠ b := by
  intro h
  have hi : b.buddy.index = b.index := congrArg Block.index h
  unfold Block.buddy at hi
  dsimp only at hi
  split_ifs at hi <;> omega

lemma buddy_buddy : b.buddy.buddy = b := by
  obtain ⟨k,i⟩ := b
  unfold Block.buddy
  dsimp only
  congr 1
  split_ifs <;> omega

lemma buddy_apart (hb : x ∈ b.pages) : x ∉ b.buddy.pages :=
  fun hc => buddy_ne (eq_of_mem rfl hc hb)

lemma halves_pages (h : 0 < b.order) : b.pages = b.lower.pages ∪ b.upper.pages := by
  obtain ⟨k,hk⟩ := Nat.exists_eq_add_of_lt h
  ext x
  show x/2^b.order = b.index ↔ x/2^(b.order-1) = 2*b.index ∨ x/2^(b.order-1) = 2*b.index+1
  have ho : b.order = b.order-1+1 := by omega
  rw [ho,Nat.pow_succ,← Nat.div_div_eq_div_mul,Nat.add_sub_cancel]
  omega

lemma upper_buddy : b.upper.buddy = b.lower := by
  unfold Block.upper Block.lower Block.buddy
  dsimp only
  rw [if_neg (by omega)]
  rfl

lemma lower_start (h : 0 < b.order) : b.lower.start = b.start := by
  have ho : 2^b.order = 2*2^(b.order-1) := by
    rw [← Nat.pow_succ',Nat.succ_eq_add_one,Nat.sub_add_cancel h]
  show 2*b.index*2^(b.order-1) = b.index*2^b.order
  rw [ho]
  ring

lemma upper_start (h : 0 < b.order) : b.upper.start = b.start+2^(b.order-1) := by
  have hl := lower_start h
  have hu : b.upper.start = b.lower.start+2^(b.order-1) := by
    show (2*b.index+1)*2^(b.order-1) = 2*b.index*2^(b.order-1)+2^(b.order-1)
    ring
  rw [hu,hl]

end

def covered (S : Set Block) : Set ℕ := {x | ∃ b ∈ S, x ∈ b.pages}

structure Packed (n : ℕ) (S : Set Block) : Prop where
  order : ∀ b ∈ S, b.order < n
  apart : ∀ b ∈ S, ∀ c ∈ S, ∀ x, x ∈ b.pages → x ∈ c.pages → b = c
  merged : ∀ b ∈ S, b.order+1 < n → b.buddy ∉ S

section

variable {n : ℕ} {S T : Set Block} {b : Block}

lemma packed_empty : Packed n ∅ := ⟨by simp,by simp,by simp⟩

lemma covered_empty : covered ∅ = ∅ := by
  ext x
  simp [covered]

lemma covered_insert : covered (insert b S) = covered S ∪ b.pages := by
  ext x
  simp only [covered,Set.mem_insert_iff,Set.mem_ofPred_eq,Set.mem_union]
  constructor
  · rintro ⟨c,rfl | hc,hx⟩
    · exact .inr hx
    · exact .inl ⟨c,hc,hx⟩
  · rintro (⟨c,hc,hx⟩ | hx)
    · exact ⟨c,.inr hc,hx⟩
    · exact ⟨b,.inl rfl,hx⟩

lemma inside_of_full (h : Packed n S) (b : Block) (ho : b.order < n)
    (hfull : b.pages ⊆ covered S) : ∃ c ∈ S, b.pages ⊆ c.pages := by
  obtain ⟨k,hk⟩ : ∃ k, b.order = k := ⟨_,rfl⟩
  induction k generalizing b with
  | zero =>
    obtain ⟨c,hc,hx⟩ := hfull (start_mem b)
    exact ⟨c,hc,pages_subset (by omega) (start_mem b) hx⟩
  | succ k ih =>
    have hpos : 0 < b.order := by omega
    have hhalves := halves_pages hpos
    have hlo : b.lower.order = k := by
      show b.order-1 = k
      omega
    have hup : b.upper.order = k := hlo
    have hlower : b.lower.pages ⊆ b.pages := hhalves ▸ Set.subset_union_left
    have hupper : b.upper.pages ⊆ b.pages := hhalves ▸ Set.subset_union_right
    obtain ⟨c,hc,hlc⟩ := ih b.lower (by omega) (hlower.trans hfull) hlo
    obtain ⟨d,hd,hud⟩ := ih b.upper (by omega) (hupper.trans hfull) hup
    have hcmem := hlc (start_mem b.lower)
    have hdmem := hud (start_mem b.upper)
    by_cases hcb : b.order ≤ c.order
    · exact ⟨c,hc,pages_subset hcb (hlower (start_mem _)) hcmem⟩
    by_cases hdb : b.order ≤ d.order
    · exact ⟨d,hd,pages_subset hdb (hupper (start_mem _)) hdmem⟩
    -- a block that holds a half and is not larger is the half
    have hhalf : ∀ a e : Block, a.order = k → a.pages ⊆ e.pages → ¬b.order ≤ e.order → e = a := by
      intro a e ha hae he
      have hle := order_le hae
      exact eq_of_mem (by omega) (hae (start_mem a)) (start_mem a)
    obtain rfl := hhalf b.lower c hlo hlc hcb
    obtain rfl := hhalf b.upper d hup hud hdb
    exact absurd (upper_buddy ▸ hc) (h.merged b.upper hd (by omega))

lemma mem_iff_full (h : Packed n S) (b : Block) :
    b ∈ S ↔ b.order < n ∧ b.pages ⊆ covered S ∧
      ∀ c : Block, c.order < n → b.pages ⊆ c.pages → c.pages ⊆ covered S → c = b := by
  constructor
  · intro hb
    refine ⟨h.order b hb,fun x hx => ⟨b,hb,hx⟩,?_⟩
    intro c hc hbc hfull
    obtain ⟨d,hd,hcd⟩ := inside_of_full h c hc hfull
    obtain rfl := h.apart b hb d hd b.start (start_mem b) (hcd (hbc (start_mem b)))
    exact eq_of_pages (Set.Subset.antisymm hcd hbc)
  · rintro ⟨hb,hfull,hmax⟩
    obtain ⟨c,hc,hbc⟩ := inside_of_full h b hb hfull
    rw [← hmax c (h.order c hc) hbc (fun x hx => ⟨c,hc,hx⟩)]
    exact hc

lemma packed_unique (hS : Packed n S) (hT : Packed n T) (h : covered S = covered T) : S = T := by
  ext b
  rw [mem_iff_full hS,mem_iff_full hT,h]

end

/-- A block is held next to a packed set. -/
structure Held (n : ℕ) (S : Set Block) (b : Block) : Prop where
  packed : Packed n S
  order : b.order < n
  out : ∀ x ∈ b.pages, x ∉ covered S

section

variable {n : ℕ} {S : Set Block} {b c : Block}

lemma packed_remove (h : Packed n S) (c : Block) : Packed n (S \ {c}) where
  order b hb := h.order b hb.1
  apart b hb d hd := h.apart b hb.1 d hd.1
  merged b hb ho hbuddy := h.merged b hb.1 ho hbuddy.1

lemma covered_remove (h : Packed n S) (hc : c ∈ S) :
    covered (S \ {c}) = covered S \ c.pages := by
  ext x
  constructor
  · rintro ⟨d,⟨hd,hne⟩,hx⟩
    exact ⟨⟨d,hd,hx⟩,fun hxc => hne (h.apart d hd c hc x hx hxc)⟩
  · rintro ⟨⟨d,hd,hx⟩,hxc⟩
    refine ⟨d,⟨hd,?_⟩,hx⟩
    rintro rfl
    exact hxc hx

lemma held_take (h : Packed n S) (hb : b ∈ S) : Held n (S \ {b}) b := by
  refine ⟨packed_remove h b,h.order b hb,?_⟩
  intro x hx hcov
  rw [covered_remove h hb] at hcov
  exact hcov.2 hx

lemma held_merge (h : Held n S b) (hbuddy : b.buddy ∈ S) (ho : b.order+1 < n) :
    Held n (S \ {b.buddy}) b.parent ∧
      covered (S \ {b.buddy}) ∪ b.parent.pages = covered S ∪ b.pages := by
  have hrest := covered_remove h.packed hbuddy
  refine ⟨⟨packed_remove h.packed _,ho,?_⟩,?_⟩
  · intro x hx hcov
    rw [parent_pages] at hx
    rw [hrest] at hcov
    rcases hx with hx | hx
    · exact h.out x hx hcov.1
    · exact hcov.2 hx
  · have hsub : b.buddy.pages ⊆ covered S := fun x hx => ⟨_,hbuddy,hx⟩
    rw [hrest,parent_pages]
    ext x
    simp only [Set.mem_union,Set.mem_sdiff]
    constructor
    · rintro (hx | hx | hx)
      · exact .inl hx.1
      · exact .inr hx
      · exact .inl (hsub hx)
    · rintro (hx | hx)
      · by_cases hb : x ∈ b.buddy.pages
        · exact .inr (.inr hb)
        · exact .inl ⟨hx,hb⟩
      · exact .inr (.inl hx)

lemma held_release (h : Held n S b) (hbuddy : b.order+1 < n → b.buddy ∉ S) :
    Packed n (insert b S) := by
  refine ⟨?_,?_,?_⟩
  · rintro c (rfl | hc)
    · exact h.order
    · exact h.packed.order c hc
  · rintro c (rfl | hc) d (rfl | hd) x hxc hxd
    · rfl
    · exact absurd ⟨d,hd,hxd⟩ (h.out x hxc)
    · exact absurd ⟨c,hc,hxc⟩ (h.out x hxd)
    · exact h.packed.apart c hc d hd x hxc hxd
  · rintro c (rfl | hc) ho (heq | hmem)
    · exact buddy_ne heq
    · exact hbuddy ho hmem
    · have hcb : c = b.buddy := by rw [← heq,buddy_buddy]
      have hob : b.order = c.order := by rw [hcb]; rfl
      exact hbuddy (by omega) (hcb ▸ hc)
    · exact h.packed.merged c hc ho hmem

lemma held_split (h : Held n S b) (ho : 0 < b.order) : Held n (insert b.upper S) b.lower := by
  have hhalves := halves_pages ho
  have horder : b.lower.order < n := by
    have := h.order
    show b.order-1 < n
    omega
  have hlow : ∀ x ∈ b.lower.pages, x ∉ covered S := fun x hx => h.out x (hhalves ▸ .inl hx)
  have hup : Held n S b.upper := ⟨h.packed,horder,fun x hx => h.out x (hhalves ▸ .inr hx)⟩
  have hnot : b.upper.buddy ∉ S := by
    rw [upper_buddy]
    exact fun hmem => hlow _ (start_mem _) ⟨_,hmem,start_mem _⟩
  refine ⟨held_release hup fun _ => hnot,horder,?_⟩
  intro x hx hcov
  rw [covered_insert] at hcov
  rcases hcov with hcov | hcov
  · exact hlow x hx hcov
  · exact buddy_apart hcov (upper_buddy ▸ hx)

end

end Clio.Blocks
