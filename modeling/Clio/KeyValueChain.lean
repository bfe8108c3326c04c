import Clio.KeyValueLine

/-!
# The chains of the key-value store

Each line of the table heads a chain of lines in blocks of the allocator.
-/

namespace Clio.KeyValueChain

open Function UnackedBuffer Memory KeyValueEngine KeyValueLine

section

variable (mem : ℕ → Byte) (b i p : ℕ) (e : KeyValueHashEntry) (cells : List Byte)

lemma entry_at_put : entryAt (putEntry mem (b+8*i) e) b i = e := by
  have hload := load_store mem (b+8*i) (leBytes 8 e.asFull)
  rw [length_le_bytes] at hload
  rw [entryAt,putEntry,hload,le_nat_bytes,Nat.mod_eq_of_lt (as_full_lt e),from_as_full]

lemma entry_at_store_apart (h : p+cells.length ≤ b+8*i ∨ b+8*i+8 ≤ p) :
    entryAt (store mem p cells) b i = entryAt mem b i := by
  rw [entryAt,load_store_apart _ _ _ _ _ h,entryAt]

lemma entry_at_put_apart (h : p+8 ≤ b+8*i ∨ b+8*i+8 ≤ p) :
    entryAt (putEntry mem p e) b i = entryAt mem b i :=
  entry_at_store_apart mem b i p _ (by rwa [length_le_bytes])

lemma key_at_store_apart (q : ℕ) (h : p+cells.length ≤ q ∨ q+8 ≤ p) :
    keyAt (store mem p cells) q = keyAt mem q := by
  rw [keyAt,load_store_apart _ _ _ _ _ h,keyAt]

lemma key_at_put_apart (q : ℕ) (h : p+8 ≤ q ∨ q+8 ≤ p) :
    keyAt (putEntry mem p e) q = keyAt mem q :=
  key_at_store_apart mem p _ q (by rwa [length_le_bytes])

lemma key_bytes (k : Key) : BitVec.ofNat 64 (leNat (leBytes 8 k.toNat)) = k := by
  rw [le_nat_bytes]
  apply BitVec.eq_of_toNat_eq
  rw [BitVec.toNat_ofNat]
  have := k.isLt
  omega

lemma key_of_load (k : Key) (rest : List Byte)
    (h : load mem p (8+rest.length) = leBytes 8 k.toNat++rest) : keyAt mem p = k := by
  rw [load_add] at h
  have hfirst : (load mem p 8).length = (leBytes 8 k.toNat).length := by
    rw [length_load,length_le_bytes]
  rw [keyAt,List.append_inj_left h hfirst,key_bytes]

lemma key_at_store (k : Key) (rest : List Byte) :
    keyAt (store mem p (leBytes 8 k.toNat++rest)) p = k := by
  have hload := load_store mem p (leBytes 8 k.toNat++rest)
  rw [List.length_append,length_le_bytes] at hload
  exact key_of_load _ p k rest hload

lemma slot_ne_link (c : ℕ) (hi : i < 7) : (c,i) ≠ (b,7) := by
  intro heq
  have hi7 : i = 7 := congrArg Prod.snd heq
  omega

end

def Linked (mem : ℕ → Byte) : List ℕ → Prop
  | [] => False
  | [b] => (entryAt mem b 7).valid = false
  | b::c::l => (entryAt mem b 7).valid = true ∧ (entryAt mem b 7).ptr.toNat = c ∧
      Linked mem (c::l)

lemma Linked.congr {mem mem' : ℕ → Byte} {l : List ℕ} (h : Linked mem l)
    (heq : ∀ b ∈ l, entryAt mem' b 7 = entryAt mem b 7) : Linked mem' l := by
  induction l using Linked.induct with
  | case1 => exact h
  | case2 b =>
    rw [Linked,heq b (by simp)]
    exact h
  | case3 b c l ih =>
    obtain ⟨hv,hp,hrest⟩ := h
    rw [Linked,heq b (by simp)]
    exact ⟨hv,hp,ih hrest (fun x hx => heq x (List.mem_cons_of_mem _ hx))⟩

lemma Linked.append {mem mem' : ℕ → Byte} (pre : List ℕ) (b d : ℕ)
    (h : Linked mem (pre++[b])) (hpre : ∀ x ∈ pre, entryAt mem' x 7 = entryAt mem x 7)
    (hb : (entryAt mem' b 7).valid = true ∧ (entryAt mem' b 7).ptr.toNat = d)
    (hd : (entryAt mem' d 7).valid = false) : Linked mem' (pre++[b]++[d]) := by
  induction pre with
  | nil => exact ⟨hb.1,hb.2,hd⟩
  | cons a pre ih =>
    cases pre with
    | nil =>
      obtain ⟨hv,hp,-⟩ := h
      refine ⟨?_,?_,hb.1,hb.2,hd⟩
      · rw [hpre a (by simp)]
        exact hv
      · rw [hpre a (by simp)]
        exact hp
    | cons c pre =>
      obtain ⟨hv,hp,hrest⟩ := h
      refine ⟨?_,?_,ih hrest (fun x hx => hpre x (List.mem_cons_of_mem _ hx))⟩
      · rw [hpre a (by simp)]
        exact hv
      · rw [hpre a (by simp)]
        exact hp

variable (A : Allocator)

abbrev Chains := Hash → List ℕ

structure Shape (mem : ℕ → Byte) (n : ℕ) (chain : Chains) : Prop where
  head : ∀ h, (chain h).head? = some (h.toNat*64)
  linked : ∀ h, Linked mem (chain h)
  nodup : ∀ h, (chain h).Nodup
  apart : ∀ h g b, b ∈ chain h → b ∈ chain g → h = g
  place : ∀ h, ∀ b ∈ chain h, b = h.toNat*64 ∨ ∃ m < n, b = (A.block m).toNat
  pointer : ∀ h, ∀ b ∈ chain h, ∀ i < 7, (entryAt mem b i).valid = true →
    (∃ m < n, (entryAt mem b i).ptr = A.block m) ∧ ∀ g, (entryAt mem b i).ptr.toNat ∉ chain g
  digest : ∀ h, ∀ b ∈ chain h, Digested mem b
  length : ∀ h, (chain h).length ≤ n+1
  count : n ≤ A.count

section

variable {A} {mem : ℕ → Byte} {n : ℕ} {chain : Chains} (hs : Shape A mem n chain)
include hs

lemma Shape.bucket_end (h : Hash) (b : ℕ) (hb : b ∈ chain h) : b+64 ≤ 2^32 := by
  have hcount := hs.count
  rcases hs.place h b hb with rfl | ⟨m,hm,rfl⟩
  · have := h.isLt
    omega
  · have := A.end_le m (by omega)
    have := A.line_le m (by omega)
    omega

lemma Shape.bucket_apart (h g : Hash) (b c : ℕ) (hb : b ∈ chain h) (hc : c ∈ chain g)
    (hne : b ≠ c) : b+64 ≤ c ∨ c+64 ≤ b := by
  have hcount := hs.count
  have hh := h.isLt
  have hg := g.isLt
  rcases hs.place h b hb with rfl | ⟨m,hm,rfl⟩ <;> rcases hs.place g c hc with rfl | ⟨k,hk,rfl⟩
  · omega
  · have := A.table_le k (by omega)
    omega
  · have := A.table_le m (by omega)
    omega
  · have hmk : m ≠ k := fun heq => hne (by rw [heq])
    have := A.apart m (by omega) k (by omega) hmk
    have := A.line_le m (by omega)
    have := A.line_le k (by omega)
    omega

lemma Shape.value_apart (m : ℕ) (hm : m < A.count) (hout : ∀ g, (A.block m).toNat ∉ chain g)
    (h : Hash) (b : ℕ) (hb : b ∈ chain h) :
    (A.block m).toNat+A.room m ≤ b ∨ b+64 ≤ (A.block m).toNat := by
  have hcount := hs.count
  have hh := h.isLt
  have htable := A.table_le m hm
  rcases hs.place h b hb with rfl | ⟨k,hk,rfl⟩
  · omega
  · have hmk : m ≠ k := fun heq => hout h (heq ▸ hb)
    have := A.apart m hm k (by omega) hmk
    have := A.line_le k (by omega)
    omega

lemma Shape.fresh_out (m : ℕ) (hm : m < A.count) (hn : n ≤ m) (g : Hash) :
    (A.block m).toNat ∉ chain g := by
  intro hmem
  have hcount := hs.count
  have hg := g.isLt
  have htable := A.table_le m hm
  rcases hs.place g _ hmem with heq | ⟨k,hk,heq⟩
  · omega
  · have := A.apart m hm k (by omega) (by omega)
    have := A.line_le m hm
    have := A.line_le k (by omega)
    omega

end

lemma block_inj {m k : ℕ} (hm : m < A.count) (hk : k < A.count)
    (h : A.block m = A.block k) : m = k := by
  by_contra hne
  have := A.apart m hm k hk hne
  have := A.line_le m hm
  have := A.line_le k hk
  rw [h] at *
  omega

section

variable {A} {mem : ℕ → Byte} {n : ℕ} {chain : Chains}

lemma shape_bump (hs : Shape A mem n chain) (hn : n < A.count) : Shape A mem (n+1) chain where
  head := hs.head
  linked := hs.linked
  nodup := hs.nodup
  apart := hs.apart
  place h b hb := by
    rcases hs.place h b hb with heq | ⟨m,hm,heq⟩
    · exact .inl heq
    · exact .inr ⟨m,by omega,heq⟩
  pointer h b hb i hi hv := by
    obtain ⟨⟨m,hm,heq⟩,hout⟩ := hs.pointer h b hb i hi hv
    exact ⟨⟨m,by omega,heq⟩,hout⟩
  digest := hs.digest
  length h := by
    have := hs.length h
    omega
  count := hn

lemma store_entry (hs : Shape A mem n chain) (m : ℕ) (hm : m < A.count)
    (hout : ∀ g, (A.block m).toNat ∉ chain g) (cells : List Byte)
    (hlen : cells.length ≤ A.room m) (h : Hash) (b i : ℕ) (hb : b ∈ chain h) (hi : i < 8) :
    entryAt (store mem (A.block m).toNat cells) b i = entryAt mem b i := by
  apply entry_at_store_apart
  have := hs.value_apart m hm hout h b hb
  omega

lemma store_key (m k : ℕ) (hm : m < A.count) (hk : k < A.count) (hne : k ≠ m)
    (cells : List Byte) (hlen : cells.length ≤ A.room m) :
    keyAt (store mem (A.block m).toNat cells) (A.block k).toNat = keyAt mem (A.block k).toNat := by
  apply key_at_store_apart
  have := A.apart m hm k hk hne.symm
  have := A.line_le k hk
  omega

lemma shape_store (hs : Shape A mem n chain) (m : ℕ) (hm : m < n)
    (hout : ∀ g, (A.block m).toNat ∉ chain g) (cells : List Byte)
    (hlen : cells.length ≤ A.room m)
    (hkey : ∀ h, ∀ b ∈ chain h, ∀ i < 7, (entryAt mem b i).valid = true →
      keyAt (store mem (A.block m).toNat cells) (entryAt mem b i).ptr.toNat =
        keyAt mem (entryAt mem b i).ptr.toNat) :
    Shape A (store mem (A.block m).toNat cells) n chain := by
  have hcount := hs.count
  have hentry := store_entry hs m (by omega) hout cells hlen
  constructor
  · exact hs.head
  · intro h
    exact (hs.linked h).congr (fun b hb => hentry h b 7 hb (by omega))
  · exact hs.nodup
  · exact hs.apart
  · exact hs.place
  · intro h b hb i hi hv
    rw [hentry h b i hb (by omega)] at hv ⊢
    exact hs.pointer h b hb i hi hv
  · intro h b hb i hi hv
    rw [hentry h b i hb (by omega)] at hv ⊢
    rw [hkey h b hb i hi hv]
    exact hs.digest h b hb i hi hv
  · exact hs.length
  · exact hs.count

section

variable (hs : Shape A mem n chain) (h : Hash) (b i : ℕ) (hb : b ∈ chain h)
include hs h b i hb

lemma put_entry_other (hi : i < 8) (e : KeyValueHashEntry) (g : Hash) (c j : ℕ)
    (hc : c ∈ chain g) (hj : j < 8) (hne : (c,j) ≠ (b,i)) :
    entryAt (putEntry mem (b+8*i) e) c j = entryAt mem c j := by
  apply entry_at_put_apart
  by_cases hcb : c = b
  · subst hcb
    have hji : j ≠ i := fun heq => hne (by rw [heq])
    omega
  · have := hs.bucket_apart h g b c hb hc (Ne.symm hcb)
    omega

lemma put_entry_key (hi : i < 8) (e : KeyValueHashEntry) (m : ℕ) (hm : m < A.count)
    (hout : ∀ g, (A.block m).toNat ∉ chain g) :
    keyAt (putEntry mem (b+8*i) e) (A.block m).toNat = keyAt mem (A.block m).toNat := by
  apply key_at_put_apart
  have := hs.value_apart m hm hout h b hb
  have := A.line_le m hm
  omega

lemma shape_put (hi : i < 7) (e : KeyValueHashEntry) (m : ℕ) (hm : m < n)
    (hptr : e.ptr = A.block m) (hout : ∀ g, (A.block m).toNat ∉ chain g)
    (hcheck : e.check = (keyAt mem (A.block m).toNat).setWidth 8) :
    Shape A (putEntry mem (b+8*i) e) n chain := by
  have hcount := hs.count
  have hother := put_entry_other hs h b i hb (by omega) e
  have hkey := put_entry_key hs h b i hb (by omega) e
  constructor
  · exact hs.head
  · intro g
    apply (hs.linked g).congr
    intro c hc
    exact hother g c 7 hc (by omega) (slot_ne_link c i b hi).symm
  · exact hs.nodup
  · exact hs.apart
  · exact hs.place
  · intro g c hc j hj hv
    by_cases heq : (c,j) = (b,i)
    · cases heq
      rw [entry_at_put,hptr]
      exact ⟨⟨m,hm,rfl⟩,hout⟩
    · rw [hother g c j hc (by omega) heq] at hv ⊢
      exact hs.pointer g c hc j hj hv
  · intro g c hc j hj hv
    by_cases heq : (c,j) = (b,i)
    · cases heq
      rw [entry_at_put,hptr,hkey m (by omega) hout]
      exact hcheck
    · rw [hother g c j hc (by omega) heq] at hv ⊢
      obtain ⟨⟨k,hk,hptr'⟩,hout'⟩ := hs.pointer g c hc j hj hv
      have hd := hs.digest g c hc j hj hv
      rw [hptr'] at hout' hd ⊢
      rw [hkey k (by omega) hout']
      exact hd
  · exact hs.length
  · exact hs.count

lemma put_entry_fresh (hi : i < 8) (e : KeyValueHashEntry) (m : ℕ) (hm : m < A.count) (hn : n ≤ m)
    (j : ℕ) (hj : j < 8) :
    entryAt (putEntry mem (b+8*i) e) (A.block m).toNat j = entryAt mem (A.block m).toNat j := by
  apply entry_at_put_apart
  have := hs.value_apart m hm (hs.fresh_out m hm hn) h b hb
  have := A.line_le m hm
  omega

end

lemma mem_update (h g : Hash) (c d : ℕ)
    (hc : c ∈ update chain h (chain h++[d]) g) : c ∈ chain g ∨ g = h ∧ c = d := by
  rw [update_apply] at hc
  split_ifs at hc with hg
  · subst hg
    rcases List.mem_append.mp hc with hc | hc
    · exact .inl hc
    · exact .inr ⟨rfl,by simpa using hc⟩
  · exact .inl hc

lemma block_not_linked (m k : ℕ) (hm : m < A.count) (hk : k < A.count) (hne : m ≠ k)
    (hout : ∀ g, (A.block m).toNat ∉ chain g) (h g : Hash) :
    (A.block m).toNat ∉ update chain h (chain h++[(A.block k).toNat]) g := by
  intro hg
  rcases mem_update h g _ _ hg with hg | ⟨-,heq⟩
  · exact hout g hg
  · exact hne (block_inj A hm hk (BitVec.eq_of_toNat_eq heq))

section

variable (hs : Shape A mem n chain) (hn : n+1 < A.count)
  (hzero : ∀ i < 8, (entryAt mem (A.block (n+1)).toNat i).valid = false) (h : Hash)
  (pre : List ℕ) (b : ℕ) (hchain : chain h = pre++[b])
include hs hn hzero h pre b hchain

lemma linked_link (g : Hash) :
    Linked (putEntry mem (b+8*7) (linkEntry (A.block (n+1))))
      (update chain h (chain h++[(A.block (n+1)).toNat]) g) := by
  have hb : b ∈ chain h := by rw [hchain]; simp
  have hother := put_entry_other hs h b 7 hb (by omega) (linkEntry (A.block (n+1)))
  rw [update_apply]
  split_ifs with hg
  · subst hg
    have hlinked := hs.linked g
    have hnodup := hs.nodup g
    rw [hchain] at hlinked hnodup ⊢
    apply Linked.append pre b _ hlinked
    · intro x hx
      apply hother g x 7 (by rw [hchain]; simp [hx]) (by omega)
      intro heq
      have hxb : x = b := congrArg Prod.fst heq
      exact (List.nodup_append.mp hnodup).2.2 x hx b (by simp) hxb
    · rw [entry_at_put]
      exact ⟨rfl,rfl⟩
    · rw [put_entry_fresh hs g b 7 hb (by omega) _ (n+1) hn (by omega) 7 (by omega)]
      exact hzero 7 (by omega)
  · apply (hs.linked g).congr
    intro c hc
    apply hother g c 7 hc (by omega)
    intro heq
    have hcb : c = b := congrArg Prod.fst heq
    exact hg (hs.apart g h b (hcb ▸ hc) hb)

lemma shape_link :
    Shape A (putEntry mem (b+8*7) (linkEntry (A.block (n+1)))) (n+2)
      (update chain h (chain h++[(A.block (n+1)).toNat])) := by
  have hb : b ∈ chain h := by rw [hchain]; simp
  have hcount := hs.count
  have hother := put_entry_other hs h b 7 hb (by omega) (linkEntry (A.block (n+1)))
  have hkey := put_entry_key hs h b 7 hb (by omega) (linkEntry (A.block (n+1)))
  have hout := hs.fresh_out (n+1) hn (by omega)
  have hnew : ∀ i < 8, (entryAt (putEntry mem (b+8*7) (linkEntry (A.block (n+1))))
      (A.block (n+1)).toNat i).valid = false := by
    intro i hi
    rw [put_entry_fresh hs h b 7 hb (by omega) _ (n+1) hn (by omega) i hi]
    exact hzero i hi
  constructor
  · intro g
    rw [update_apply]
    split_ifs with hg
    · subst hg
      rw [List.head?_append_of_ne_nil _ (by rw [hchain]; simp)]
      exact hs.head g
    · exact hs.head g
  · exact linked_link hs hn hzero h pre b hchain
  · intro g
    rw [update_apply]
    split_ifs with hg
    · rw [List.nodup_append]
      refine ⟨hs.nodup h,by simp,?_⟩
      intro x hx y hy hxy
      rw [List.mem_singleton.mp hy] at hxy
      exact hout h (hxy ▸ hx)
    · exact hs.nodup g
  · intro g g' c hc hc'
    rcases mem_update h g c _ hc with hc | ⟨hg,hc⟩ <;>
      rcases mem_update h g' c _ hc' with hc' | ⟨hg',hc'⟩
    · exact hs.apart g g' c hc hc'
    · exact absurd (hc' ▸ hc) (hout g)
    · exact absurd (hc ▸ hc') (hout g')
    · exact hg.trans hg'.symm
  · intro g c hc
    rcases mem_update h g c _ hc with hc | ⟨-,hc⟩
    · rcases hs.place g c hc with heq | ⟨m,hm,heq⟩
      · exact .inl heq
      · exact .inr ⟨m,by omega,heq⟩
    · exact .inr ⟨n+1,by omega,hc⟩
  · intro g c hc i hi hv
    rcases mem_update h g c _ hc with hc | ⟨-,hc⟩
    · rw [hother g c i hc (by omega) (slot_ne_link b i c hi)] at hv ⊢
      obtain ⟨⟨m,hm,hptr⟩,hout'⟩ := hs.pointer g c hc i hi hv
      rw [hptr] at hout' ⊢
      exact ⟨⟨m,by omega,rfl⟩,block_not_linked m (n+1) (by omega) hn (by omega) hout' h⟩
    · rw [hc,hnew i (by omega)] at hv
      cases hv
  · intro g c hc i hi hv
    rcases mem_update h g c _ hc with hc | ⟨-,hc⟩
    · rw [hother g c i hc (by omega) (slot_ne_link b i c hi)] at hv ⊢
      obtain ⟨⟨m,hm,hptr⟩,hout'⟩ := hs.pointer g c hc i hi hv
      have hd := hs.digest g c hc i hi hv
      rw [hptr] at hd hout' ⊢
      rw [hkey m (by omega) hout']
      exact hd
    · rw [hc,hnew i (by omega)] at hv
      cases hv
  · intro g
    have := hs.length g
    have := hs.length h
    rw [update_apply]
    split_ifs
    · rw [List.length_append]
      simp only [List.length_singleton]
      omega
    · omega
  · omega

end

end

end Clio.KeyValueChain
