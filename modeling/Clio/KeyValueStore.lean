import Clio.KeyValueServe

/-!
# The key-value store as a map from keys to blocks

The valid entries of the chains enter blocks under hashes.
-/

namespace Clio.KeyValueStore

open UnackedBuffer Memory KeyValueEngine KeyValueLine KeyValueChain KeyValueServe

def chainOf (mem : ℕ → Byte) : ℕ → ℕ → List ℕ
  | 0, _ => []
  | fuel+1, b => b::if (entryAt mem b 7).valid then
      chainOf mem fuel (entryAt mem b 7).ptr.toNat else []

lemma chain_of_linked (mem : ℕ → Byte) (l : List ℕ) (fuel b : ℕ) (hl : Linked mem l)
    (hhead : l.head? = some b) (hfuel : l.length ≤ fuel) : chainOf mem fuel b = l := by
  induction l using Linked.induct generalizing fuel b with
  | case1 => cases hhead
  | case2 c =>
    cases hhead
    obtain ⟨fuel,rfl⟩ : ∃ k, fuel = k+1 := ⟨fuel-1,by simp at hfuel; omega⟩
    have hlast : (entryAt mem c 7).valid = false := hl
    simp [chainOf,hlast]
  | case3 c d l ih =>
    cases hhead
    obtain ⟨fuel,rfl⟩ : ∃ k, fuel = k+1 := ⟨fuel-1,by simp at hfuel; omega⟩
    obtain ⟨hv,hp,hrest⟩ := hl
    rw [chainOf,if_pos hv,hp,ih fuel d hrest rfl (by simpa using hfuel)]

lemma hash_address (h : Hash) : (hashToAddress h).toNat = h.toNat*64 := by
  have := h.isLt
  rw [hashToAddress,BitVec.toNat_shiftLeft,BitVec.toNat_setWidth,Nat.shiftLeft_eq]
  omega

def chainFor (hash : Key → Hash) (e : Engine) (k : Key) : List ℕ :=
  chainOf e.mem (e.allocs+1) (hashToAddress (hash k)).toNat

lemma key_of_data (r : Request) : keyOf r.data = r.key := by
  have hlen : (leBytes 8 r.key.toNat).length = 8 := length_le_bytes 8 _
  rw [keyOf,Request.data,List.take_append_of_le_length (by omega),
    List.take_of_length_le (by omega),key_bytes]

lemma data_take (r : Request) (s : ℕ) :
    r.data.take (s+8) = leBytes 8 r.key.toNat++r.value.take s := by
  have hlen : (leBytes 8 r.key.toNat).length = 8 := length_le_bytes 8 _
  rw [Request.data,List.take_append,List.take_of_length_le (by omega),hlen]
  rfl

lemma slot_address (addr : BitVec 32) (i : ℕ) (h : addr.toNat+64 ≤ 2^32) (hi : i < 8) :
    (addr+BitVec.ofNat 32 (i*8)).toNat = addr.toNat+8*i := by
  rw [BitVec.toNat_add,BitVec.toNat_ofNat]
  omega

lemma kv_size (s : BitVec 16) (h : s.toNat+8 < 2^16) : (s+8).toNat = s.toNat+8 := by
  rw [BitVec.toNat_add,show (8 : BitVec 16).toNat = 8 from rfl]
  exact Nat.mod_eq_of_lt h

variable (A : Allocator)

def Entered (mem : ℕ → Byte) (chain : Chains) (h : Hash) (m : ℕ) : Prop :=
  ∃ b ∈ chain h, ∃ i < 7, (entryAt mem b i).valid = true ∧ (entryAt mem b i).ptr = A.block m

/-- No two entries point to one block. -/
def Single (mem : ℕ → Byte) (chain : Chains) : Prop :=
  ∀ h g b c i j, b ∈ chain h → c ∈ chain g → i < 7 → j < 7 → (entryAt mem b i).valid = true →
    (entryAt mem c j).valid = true → (entryAt mem b i).ptr = (entryAt mem c j).ptr → b = c ∧ i = j

def SameEntries (mem : ℕ → Byte) (chain : Chains) (mem' : ℕ → Byte) (chain' : Chains) : Prop :=
  (∀ g, ∀ c ∈ chain g, c ∈ chain' g ∧ ∀ i < 7, (entryAt mem' c i).valid = (entryAt mem c i).valid ∧
    (entryAt mem' c i).ptr = (entryAt mem c i).ptr) ∧
  ∀ g, ∀ c ∈ chain' g, ∀ i < 7, (entryAt mem' c i).valid = true → c ∈ chain g

section

variable {A} {mem mem' : ℕ → Byte} {chain chain' : Chains}
  (hsame : SameEntries mem chain mem' chain')
include hsame

lemma SameEntries.entered (h : Hash) (m : ℕ) :
    Entered A mem' chain' h m ↔ Entered A mem chain h m := by
  constructor
  · rintro ⟨b,hb,i,hi,hv,hptr⟩
    have hold := hsame.2 h b hb i hi hv
    obtain ⟨hvalid,hpointer⟩ := (hsame.1 h b hold).2 i hi
    exact ⟨b,hold,i,hi,hvalid.symm.trans hv,hpointer.symm.trans hptr⟩
  · rintro ⟨b,hb,i,hi,hv,hptr⟩
    obtain ⟨hnew,hslot⟩ := hsame.1 h b hb
    exact ⟨b,hnew,i,hi,(hslot i hi).1.trans hv,(hslot i hi).2.trans hptr⟩

lemma SameEntries.single (hsingle : Single mem chain) : Single mem' chain' := by
  intro h g b c i j hb hc hi hj hvb hvc hptr
  have hb' := hsame.2 h b hb i hi hvb
  have hc' := hsame.2 g c hc j hj hvc
  obtain ⟨hvb',hpb⟩ := (hsame.1 h b hb').2 i hi
  obtain ⟨hvc',hpc⟩ := (hsame.1 g c hc').2 j hj
  exact hsingle h g b c i j hb' hc' hi hj (hvb'.symm.trans hvb) (hvc'.symm.trans hvc)
    (hpb.symm.trans (hptr.trans hpc))

end

section

variable {A} {mem : ℕ → Byte} {n : ℕ} {chain : Chains}

lemma store_same (hs : Shape A mem n chain) (m : ℕ) (hm : m < A.count)
    (hout : ∀ g, (A.block m).toNat ∉ chain g) (cells : List Byte) (hlen : cells.length ≤ A.room m) :
    SameEntries mem chain (store mem (A.block m).toNat cells) chain :=
  ⟨fun g c hc => ⟨hc,fun i hi => by
      rw [store_entry hs m hm hout cells hlen g c i hc (by omega)]
      exact ⟨rfl,rfl⟩⟩,
    fun _ _ hc _ _ _ => hc⟩

lemma subset_update (h g : Hash) (c d : ℕ) (hc : c ∈ chain g) :
    c ∈ Function.update chain h (chain h++[d]) g := by
  rw [Function.update_apply]
  split_ifs with hg
  · subst hg
    exact List.mem_append_left _ hc
  · exact hc

lemma link_same (hs : Shape A mem n chain) (m : ℕ) (hm : m < A.count) (hn : n ≤ m)
    (hzero : ∀ i < 8, (entryAt mem (A.block m).toNat i).valid = false) (h : Hash) (b : ℕ)
    (hb : b ∈ chain h) (e : KeyValueHashEntry) :
    SameEntries mem chain (putEntry mem (b+8*7) e)
      (Function.update chain h (chain h++[(A.block m).toNat])) := by
  constructor
  · intro g c hc
    refine ⟨subset_update h g c _ hc,?_⟩
    intro i hi
    rw [put_entry_other hs h b 7 hb (by omega) e g c i hc (by omega) (slot_ne_link b i c hi)]
    exact ⟨rfl,rfl⟩
  · intro g c hc i hi hv
    rcases mem_update h g c _ hc with hc | ⟨-,rfl⟩
    · exact hc
    · rw [put_entry_fresh hs h b 7 hb (by omega) e m hm hn i (by omega),hzero i (by omega)] at hv
      cases hv

lemma put_entered (hs : Shape A mem n chain) (h : Hash) (b i : ℕ) (hb : b ∈ chain h)
    (hi : i < 7) (hfree : (entryAt mem b i).valid = false) (e : KeyValueHashEntry)
    (hv : e.valid = true) (m : ℕ) (hm : m < A.count) (hptr : e.ptr = A.block m) (g : Hash)
    (k : ℕ) (hk : k < A.count) :
    Entered A (putEntry mem (b+8*i) e) chain g k ↔ Entered A mem chain g k ∨ g = h ∧ k = m := by
  constructor
  · rintro ⟨c,hc,j,hj,hvc,hpc⟩
    by_cases heq : (c,j) = (b,i)
    · cases heq
      rw [entry_at_put,hptr] at hpc
      exact .inr ⟨hs.apart g h b hc hb,(block_inj A hm hk hpc).symm⟩
    · rw [put_entry_other hs h b i hb (by omega) e g c j hc (by omega) heq] at hvc hpc
      exact .inl ⟨c,hc,j,hj,hvc,hpc⟩
  · rintro (⟨c,hc,j,hj,hvc,hpc⟩ | ⟨rfl,rfl⟩)
    · have hne : (c,j) ≠ (b,i) := by
        rintro heq
        cases heq
        rw [hfree] at hvc
        cases hvc
      refine ⟨c,hc,j,hj,?_⟩
      rw [put_entry_other hs h b i hb (by omega) e g c j hc (by omega) hne]
      exact ⟨hvc,hpc⟩
    · refine ⟨b,hb,i,hi,?_⟩
      rw [entry_at_put]
      exact ⟨hv,hptr⟩

lemma put_single (hs : Shape A mem n chain) (hsingle : Single mem chain) (h : Hash)
    (b i : ℕ) (hb : b ∈ chain h) (hi : i < 7) (e : KeyValueHashEntry) (m : ℕ)
    (hptr : e.ptr = A.block m)
    (hnew : ∀ g, ∀ c ∈ chain g, ∀ j < 7, (entryAt mem c j).valid = true →
      (entryAt mem c j).ptr = A.block m → c = b ∧ j = i) :
    Single (putEntry mem (b+8*i) e) chain := by
  have hother := put_entry_other hs h b i hb (by omega) e
  intro g g' c d j l hc hd hj hl hvc hvd hpp
  by_cases hcb : (c,j) = (b,i)
  · by_cases hdb : (d,l) = (b,i)
    · cases hcb
      cases hdb
      exact ⟨rfl,rfl⟩
    · cases hcb
      rw [entry_at_put,hother g' d l hd (by omega) hdb,hptr] at hpp
      rw [hother g' d l hd (by omega) hdb] at hvd
      have := hnew g' d hd l hl hvd hpp.symm
      exact ⟨this.1.symm,this.2.symm⟩
  · rw [hother g c j hc (by omega) hcb] at hvc hpp
    by_cases hdb : (d,l) = (b,i)
    · cases hdb
      rw [entry_at_put,hptr] at hpp
      exact hnew g c hc j hj hvc hpp
    · rw [hother g' d l hd (by omega) hdb] at hvd hpp
      exact hsingle g g' c d j l hc hd hj hl hvc hvd hpp

lemma store_value (m k o len : ℕ) (hm : m < A.count) (hk : k < A.count) (hne : k ≠ m)
    (cells : List Byte) (hlen : cells.length ≤ A.room m) (ho : o+len ≤ A.room k) :
    load (store mem (A.block m).toNat cells) ((A.block k).toNat+o) len =
      load mem ((A.block k).toNat+o) len := by
  apply load_store_apart
  have := A.apart m hm k hk hne.symm
  omega

lemma put_value (hs : Shape A mem n chain) (h : Hash) (b i : ℕ) (hb : b ∈ chain h)
    (hi : i < 8) (e : KeyValueHashEntry) (m o len : ℕ) (hm : m < A.count)
    (hout : ∀ g, (A.block m).toNat ∉ chain g) (ho : o+len ≤ A.room m) :
    load (putEntry mem (b+8*i) e) ((A.block m).toNat+o) len =
      load mem ((A.block m).toNat+o) len := by
  rw [putEntry]
  apply load_store_apart
  rw [length_le_bytes]
  have := hs.value_apart m hm hout h b hb
  omega

end

structure Inserted (hash : Key → Hash) (mem : ℕ → Byte) (n : ℕ) (chain : Chains) (r : Request)
    (mem' : ℕ → Byte) (n' : ℕ) (chain' : Chains) : Prop where
  shape : Shape A mem' n' chain'
  grown : n < n' ∧ n' ≤ n+2
  entered : ∀ g, ∀ k < A.count, Entered A mem' chain' g k ↔
    Entered A mem chain g k ∨ g = hash r.key ∧ k = n
  single : Single mem chain → Single mem' chain'
  data : load mem' (A.block n).toNat (8+(r.value.take r.valueSize.toNat).length) =
    leBytes 8 r.key.toNat++r.value.take r.valueSize.toNat
  kept : ∀ m < n, (∀ g, (A.block m).toNat ∉ chain g) → ∀ o len, o+len ≤ A.room m →
    load mem' ((A.block m).toNat+o) len = load mem ((A.block m).toNat+o) len
  lines : ∀ g, ∀ c ∈ chain g, c ∈ chain' g
  others : ∀ g, g ≠ hash r.key → ∀ c ∈ chain g, ∀ i < 8, entryAt mem' c i = entryAt mem c i

section

variable {A} {hash : Key → Hash} {mem : ℕ → Byte} {n : ℕ} {chain : Chains}

lemma insert_slot (hs : Shape A mem n chain) (r : Request) (mem1 : ℕ → Byte) (n1 : ℕ)
    (chain1 : Chains) (hs1 : Shape A mem1 n1 chain1) (hn : n < n1) (hn' : n1 ≤ n+2)
    (hsame : SameEntries mem chain mem1 chain1)
    (hout : ∀ g, (A.block n).toNat ∉ chain1 g)
    (hkept : ∀ m < n, (∀ g, (A.block m).toNat ∉ chain g) → ∀ o len, o+len ≤ A.room m →
      load mem1 ((A.block m).toNat+o) len = load mem ((A.block m).toNat+o) len)
    (hblocks : ∀ m < n, (∀ g, (A.block m).toNat ∉ chain g) → ∀ g, (A.block m).toNat ∉ chain1 g)
    (hothers : ∀ g, g ≠ hash r.key → ∀ c ∈ chain g, ∀ i < 8, entryAt mem1 c i = entryAt mem c i)
    (hroom : r.valueSize.toNat+8 ≤ A.room n) (b i : ℕ) (hb : b ∈ chain1 (hash r.key)) (hi : i < 7)
    (hfree : (entryAt mem1 b i).valid = false) (e : KeyValueHashEntry) (hv : e.valid = true)
    (hptr : e.ptr = A.block n) (hcheck : e.check = r.key.setWidth 8) :
    Inserted A hash mem n chain r (putEntry (store mem1 (A.block n).toNat
      (r.data.take (r.valueSize.toNat+8))) (b+8*i) e) n1 chain1 := by
  have hcount := hs1.count
  rw [data_take]
  generalize hcells : leBytes 8 r.key.toNat++r.value.take r.valueSize.toNat = cells
  have hlen : cells.length = 8+(r.value.take r.valueSize.toNat).length := by
    rw [← hcells,List.length_append,length_le_bytes]
  have hfit : cells.length ≤ A.room n := by
    rw [hlen,List.length_take]
    omega
  have hkey : keyAt (store mem1 (A.block n).toNat cells) (A.block n).toNat = r.key := by
    rw [← hcells]
    exact key_at_store mem1 _ r.key _
  -- no entry points to the new block yet
  have hnew : ∀ g, ∀ c ∈ chain1 g, ∀ j < 7, (entryAt mem1 c j).valid = true →
      (entryAt mem1 c j).ptr ≠ A.block n := by
    intro g c hc j hj hvc hpc
    have hold := hsame.2 g c hc j hj hvc
    obtain ⟨hvalid,hpointer⟩ := (hsame.1 g c hold).2 j hj
    obtain ⟨⟨m,hm,hptr'⟩,-⟩ := hs.pointer g c hold j hj (hvalid.symm.trans hvc)
    have := block_inj A (by omega) (by omega) (hptr'.symm.trans (hpointer.symm.trans hpc))
    omega
  have hstored : Shape A (store mem1 (A.block n).toNat cells) n1 chain1 := by
    apply shape_store hs1 n hn hout cells hfit
    intro g c hc j hj hvc
    obtain ⟨⟨m,hm,hptr'⟩,-⟩ := hs1.pointer g c hc j hj hvc
    have hne : m ≠ n := by
      rintro rfl
      exact hnew g c hc j hj hvc hptr'
    rw [hptr']
    exact store_key n m (by omega) (by omega) hne cells hfit
  have hsame2 := store_same hs1 n (by omega) hout cells hfit
  have hslot : (entryAt (store mem1 (A.block n).toNat cells) b i).valid = false := by
    rw [((hsame2.1 _ b hb).2 i hi).1]
    exact hfree
  constructor
  · exact shape_put hstored _ b i hb hi e n hn hptr hout (by rw [hkey,hcheck])
  · exact ⟨hn,hn'⟩
  · intro g k hk
    rw [put_entered hstored _ b i hb hi hslot e hv n (by omega) hptr g k hk,hsame2.entered,
      hsame.entered]
  · intro hsingle
    apply put_single hstored (hsame2.single (hsame.single hsingle)) _ b i hb hi e n hptr
    intro g c hc j hj hvc hpc
    obtain ⟨hvalid,hpointer⟩ := (hsame2.1 g c hc).2 j hj
    exact absurd (hpointer.symm.trans hpc) (hnew g c hc j hj (hvalid.symm.trans hvc))
  · have hload := put_value hstored _ b i hb (by omega) e n 0 cells.length (by omega) hout
      (by omega)
    rw [Nat.add_zero,load_store] at hload
    rw [← hlen,hload,hcells]
  · intro m hm hout' o len ho
    rw [put_value hstored _ b i hb (by omega) e m o len (by omega) (hblocks m hm hout') ho,
      store_value n m o len (by omega) (by omega) (by omega) cells hfit ho,
      hkept m hm hout' o len ho]
  · exact fun g c hc => (hsame.1 g c hc).1
  · intro g hg c hc j hj
    have hin := (hsame.1 g c hc).1
    have hne : (c,j) ≠ (b,i) := by
      intro heq
      cases heq
      exact hg (hs1.apart g _ b hin hb)
    rw [put_entry_other hstored _ b i hb (by omega) e g c j hin hj hne,
      store_entry hs1 n (by omega) hout cells hfit g c j hin hj,hothers g hg c hc j hj]

lemma free_slot_spec (b i : ℕ) (h : freeSlot (lineAt mem b) = some i) :
    i < 7 ∧ (entryAt mem b i).valid = false := by
  have hmem := List.mem_of_find?_eq_some h
  have hp := List.find?_some h
  exact ⟨List.mem_range.mp hmem,by simpa [lineAt] using hp⟩

lemma inserted_free (hs : Shape A mem n chain) (r : Request) (hn : n < A.count)
    (hroom : r.valueSize.toNat+8 ≤ A.room n) (addr : BitVec 32) (i : ℕ)
    (hmem : addr.toNat ∈ chain (hash r.key)) (hfree : freeSlot (lineAt mem addr.toNat) = some i)
    (e : KeyValueHashEntry) (hv : e.valid = true) (hptr : e.ptr = A.block n)
    (hcheck : e.check = r.key.setWidth 8) :
    Inserted A hash mem n chain r (putEntry (store mem (A.block n).toNat
      (r.data.take (r.valueSize.toNat+8))) (addr.toNat+8*i) e) (n+1) chain := by
  obtain ⟨hi,hinv⟩ := free_slot_spec _ i hfree
  exact insert_slot hs r mem (n+1) chain (shape_bump hs hn) (by omega) (by omega)
    ⟨fun _ _ hc => ⟨hc,fun _ _ => ⟨rfl,rfl⟩⟩,fun _ _ hc _ _ _ => hc⟩
    (hs.fresh_out n hn (Nat.le_refl n)) (fun _ _ _ _ _ _ => rfl) (fun _ _ h => h)
    (fun _ _ _ _ _ _ => rfl) hroom _ i hmem hi hinv e hv hptr hcheck

lemma inserted_append (hs : Shape A mem n chain) (r : Request) (hn : n+1 < A.count)
    (hzero : ∀ i < 8, (entryAt mem (A.block (n+1)).toNat i).valid = false)
    (hroom : r.valueSize.toNat+8 ≤ A.room n) (pre : List ℕ) (b : ℕ)
    (hl : chain (hash r.key) = pre++[b]) (e : KeyValueHashEntry) (hv : e.valid = true)
    (hptr : e.ptr = A.block n) (hcheck : e.check = r.key.setWidth 8) :
    Inserted A hash mem n chain r (putEntry (store (putEntry mem (b+8*7)
      (linkEntry (A.block (n+1)))) (A.block n).toNat (r.data.take (r.valueSize.toNat+8)))
      (A.block (n+1)).toNat e) (n+2) (Function.update chain (hash r.key)
        (chain (hash r.key)++[(A.block (n+1)).toNat])) := by
  have hb : b ∈ chain (hash r.key) := by rw [hl]; simp
  have hlink := shape_link hs hn hzero (hash r.key) pre b hl
  have hsame := link_same hs (n+1) hn (by omega) hzero (hash r.key) b hb
    (linkEntry (A.block (n+1)))
  have hblocks : ∀ m ≤ n, (∀ g, (A.block m).toNat ∉ chain g) → ∀ g, (A.block m).toNat ∉
      Function.update chain (hash r.key)
        (chain (hash r.key)++[(A.block (n+1)).toNat]) g :=
    fun m hm hno => block_not_linked m (n+1) (by omega) hn (by omega) hno (hash r.key)
  have hin : (A.block (n+1)).toNat ∈ Function.update chain (hash r.key)
      (chain (hash r.key)++[(A.block (n+1)).toNat]) (hash r.key) := by
    rw [Function.update_self]
    simp
  have hempty : (entryAt (putEntry mem (b+8*7) (linkEntry (A.block (n+1))))
      (A.block (n+1)).toNat 0).valid = false := by
    by_contra hvalid
    have hold := hsame.2 _ _ hin 0 (by omega) (by simpa using hvalid)
    exact hs.fresh_out (n+1) hn (by omega) _ hold
  have hothers : ∀ g, g ≠ hash r.key → ∀ c ∈ chain g, ∀ i < 8,
      entryAt (putEntry mem (b+8*7) (linkEntry (A.block (n+1)))) c i = entryAt mem c i := by
    intro g hg c hc i hi
    apply put_entry_other hs _ b 7 hb (by omega) _ g c i hc hi
    intro heq
    cases heq
    exact hg (hs.apart g _ b hc hb)
  have hins := insert_slot hs r _ (n+2) _ hlink (by omega) (by omega) hsame
    (hblocks n (Nat.le_refl n) (hs.fresh_out n (by omega) (Nat.le_refl n)))
    (fun m hm hno o len ho => put_value hs _ _ 7 hb (by omega) _ m o len (by omega) hno ho)
    (fun m hm => hblocks m (by omega)) hothers hroom _ 0 hin (by omega) hempty e hv hptr hcheck
  rw [Nat.mul_zero,Nat.add_zero] at hins
  exact hins

lemma handle_write (hs : Shape A mem n chain) (r : Request) (hr : r.cmd = .write)
    (hn : n+1 < A.count)
    (hzero : ∀ i < 8, (entryAt mem (A.block (n+1)).toNat i).valid = false)
    (hsize : r.valueSize.toNat+8 < 2^16) (hroom : r.valueSize.toNat+8 ≤ A.room n) :
    ∃ mem' n' chain', handle A hash (idle mem n) r = (idle mem' n',
        { replies := [⟨r.id,true⟩], accesses := [⟨A.block n,r.valueSize+8⟩] }) ∧
      Inserted A hash mem n chain r mem' n' chain' := by
  have hres := serve_write A mem n r.data (n+1) (chain (hash r.key)) (r.bucketCommand hash)
    (hs.linked _) (by rw [hs.head,Request.bucketCommand,hash_address]) (hs.length _) hr
  change WriteResult A mem n r.data (chain (hash r.key)) (r.bucketCommand hash)
    (handle A hash (idle mem n) r) at hres
  have hkv : (kvSize (r.bucketCommand hash)).toNat = r.valueSize.toNat+8 := kv_size _ hsize
  have hcheck : (newEntry (r.bucketCommand hash) r.data (A.block n)).check = r.key.setWidth 8 := by
    rw [newEntry,key_of_data]
  generalize hout : handle A hash (idle mem n) r = out at hres
  cases hres with
  | free addr i hmem hfree =>
    obtain ⟨hi,-⟩ := free_slot_spec _ i hfree
    rw [slot_address addr i (hs.bucket_end _ _ hmem) (by omega),hkv]
    exact ⟨_,_,chain,rfl,inserted_free hs r (by omega) hroom addr i hmem hfree _ rfl rfl hcheck⟩
  | append addr pre hl =>
    have hend := hs.bucket_end _ addr.toNat (by rw [hl]; simp)
    rw [show (addr+56).toNat = addr.toNat+8*7 from slot_address addr 7 hend (by omega),hkv]
    exact ⟨_,_,_,rfl,inserted_append hs r hn hzero hroom pre addr.toNat hl _ rfl rfl hcheck⟩

end

section

variable {A} {hash : Key → Hash} {mem : ℕ → Byte} {n : ℕ} {chain : Chains}

lemma chain_for_eq (hs : Shape A mem n chain) (signals : List Bool) (k : Key) :
    chainFor hash (busy mem n signals) k = chain (hash k) :=
  chain_of_linked mem _ (n+1) _ (hs.linked _) (by rw [hs.head, hash_address]) (hs.length _)

lemma handle_lookup (hs : Shape A mem n chain) (r : Request) (hr : r.cmd ≠ .write)
    (hitSignals : List Bool) (hready : Ready (r.bucketCommand hash) hitSignals)
    (hone : ∀ c ∈ chain (hash r.key), (hits mem c r.key).length ≤ 1) :
    LookupResult mem n r.data (chain (hash r.key)) (r.bucketCommand hash)
      (handle A hash (busy mem n hitSignals) r) := by
  rw [← key_of_data r] at hone
  exact serve_lookup A mem n r.data (n+1) _ (r.bucketCommand hash) hitSignals (hs.linked _)
    (by rw [hs.head,Request.bucketCommand,hash_address]) (hs.length _) hready hr
    (hs.digest _) (by rwa [key_of_data] at hone ⊢)

end

/-- What a request that found its key in block `m` leaves. -/
structure Found (mem : ℕ → Byte) (n : ℕ) (chain : Chains) (r : Request) (m : ℕ)
    (mem' : ℕ → Byte) : Prop where
  shape : Shape A mem' n chain
  same : SameEntries mem chain mem' chain
  key : ∀ k < n, (∀ g, (A.block k).toNat ∉ chain g) →
    keyAt mem' (A.block k).toNat = keyAt mem (A.block k).toNat
  data : r.cmd = .update → load mem' ((A.block m).toNat+8) (r.value.take r.valueSize.toNat).length =
    r.value.take r.valueSize.toNat
  kept : ∀ k < n, (∀ g, (A.block k).toNat ∉ chain g) → (r.cmd = .update → k ≠ m) →
    ∀ o len, o+len ≤ A.room k →
      load mem' ((A.block k).toNat+o) len = load mem ((A.block k).toNat+o) len

section

variable {A} {mem : ℕ → Byte} {n : ℕ} {chain : Chains}

section

variable (hs : Shape A mem n chain) (r : Request)
include hs r

lemma found_rfl (hr : r.cmd ≠ .update) (m : ℕ) :
    Found A mem n chain r m mem where
  shape := hs
  same := ⟨fun _ _ hc => ⟨hc,fun _ _ => ⟨rfl,rfl⟩⟩,fun _ _ hc _ _ _ => hc⟩
  key _ _ _ := rfl
  data h := absurd h hr
  kept _ _ _ _ _ _ _ := rfl

lemma found_store (hr : r.cmd = .update) (m : ℕ) (hm : m < n)
    (hout : ∀ g, (A.block m).toNat ∉ chain g) (hkey : keyAt mem (A.block m).toNat = r.key)
    (hroom : r.valueSize.toNat+8 ≤ A.room m) :
    Found A mem n chain r m
      (store mem (A.block m).toNat (r.data.take (r.valueSize.toNat+8))) := by
  have hcount := hs.count
  rw [data_take]
  generalize hcells : leBytes 8 r.key.toNat++r.value.take r.valueSize.toNat = cells
  have hlen : cells.length = 8+(r.value.take r.valueSize.toNat).length := by
    rw [← hcells,List.length_append,length_le_bytes]
  have hfit : cells.length ≤ A.room m := by
    rw [hlen,List.length_take]
    omega
  have hkeys : ∀ k < n, keyAt (store mem (A.block m).toNat cells) (A.block k).toNat =
      keyAt mem (A.block k).toNat := by
    intro k hk
    by_cases hkm : k = m
    · rw [hkm,hkey,← hcells]
      exact key_at_store mem _ r.key _
    · exact store_key m k (by omega) (by omega) hkm cells hfit
  constructor
  · apply shape_store hs m hm hout cells hfit
    intro h b hb i hi hv
    obtain ⟨⟨k,hk,hptr⟩,-⟩ := hs.pointer h b hb i hi hv
    rw [hptr]
    exact hkeys k hk
  · exact store_same hs m (by omega) hout cells hfit
  · exact fun k hk _ => hkeys k hk
  · intro _
    have hload := load_store mem (A.block m).toNat cells
    rw [hlen,load_add] at hload
    have hsplit := hload.trans hcells.symm
    have hfirst : (load (store mem (A.block m).toNat cells) (A.block m).toNat 8).length =
        (leBytes 8 r.key.toNat).length := by
      rw [length_load,length_le_bytes]
    exact List.append_inj_right hsplit hfirst
  · intro k hk _ hne o len ho
    exact store_value m k o len (by omega) (by omega) (hne hr) cells hfit ho

lemma found_put (hr : r.cmd ≠ .update) (h : Hash) (b i : ℕ) (hb : b ∈ chain h) (hi : i < 7)
    (hv : (entryAt mem b i).valid = true) (m : ℕ) (hptr : (entryAt mem b i).ptr = A.block m)
    (hm : m < n) (e : KeyValueHashEntry) (hev : e.valid = true)
    (hep : e.ptr = (entryAt mem b i).ptr)
    (hcheck : e.check = (keyAt mem (A.block m).toNat).setWidth 8) :
    Found A mem n chain r m (putEntry mem (b+8*i) e) := by
  have hcount := hs.count
  have hout : ∀ g, (A.block m).toNat ∉ chain g := hptr ▸ (hs.pointer h b hb i hi hv).2
  constructor
  · exact shape_put hs h b i hb hi e m hm (hep.trans hptr) hout hcheck
  · refine ⟨fun g c hc => ⟨hc,fun j hj => ?_⟩,fun _ _ hc _ _ _ => hc⟩
    by_cases heq : (c,j) = (b,i)
    · cases heq
      rw [entry_at_put,hev,hv,hep]
      exact ⟨rfl,rfl⟩
    · rw [put_entry_other hs h b i hb (by omega) e g c j hc (by omega) heq]
      exact ⟨rfl,rfl⟩
  · exact fun k hk hno => put_entry_key hs h b i hb (by omega) e k (by omega) hno
  · exact fun h => absurd h hr
  · intro k hk hno _ o len ho
    exact put_value hs h b i hb (by omega) e k o len (by omega) hno ho

lemma found_hit (b : BucketCommand) (hcmd : b.cmd = r.cmd) (hsz : b.valueSize = r.valueSize)
    (h : Hash) (hb : b.entryAddr.toNat ∈ chain h) (i m : ℕ)
    (hi : i ∈ hits mem b.entryAddr.toNat r.key) (hm : m < n)
    (hptr : (entryAt mem b.entryAddr.toNat i).ptr = A.block m)
    (hfit : r.cmd = .update → r.valueSize.toNat+8 < 2^16 ∧ r.valueSize.toNat+8 ≤ A.room m) :
    Found A mem n chain r m (afterHit mem b r.data i) := by
  obtain ⟨hi7,hv,hkey⟩ := (mem_hits mem _ i _).mp hi
  rw [hptr] at hkey
  rw [afterHit,hcmd]
  cases hc : r.cmd with
  | read | write => exact found_rfl hs r (by simp [hc]) m
  | update =>
    obtain ⟨hsize,hroom⟩ := hfit hc
    rw [hptr,hsz,kv_size _ hsize]
    exact found_store hs r hc m hm (hptr ▸ (hs.pointer h _ hb i hi7 hv).2) hkey hroom
  | delete =>
    dsimp only
    rw [slot_address _ i (hs.bucket_end h _ hb) (by omega)]
    have hcheck : (rewritten mem b r.data i).check = (keyAt mem (A.block m).toNat).setWidth 8 := by
      rw [hkey,rewritten,key_of_data]
    exact found_put hs r (by simp [hc]) h _ i hb hi7 hv m hptr hm (rewritten mem b r.data i) rfl
      rfl hcheck

end

end

structure Stored (hash : Key → Hash) (mem : ℕ → Byte) (n : ℕ) (chain : Chains)
    (blocks : Key → Option ℕ) : Prop where
  shape : Shape A mem n chain
  single : Single mem chain
  entered : ∀ k m, blocks k = some m →
    m < n ∧ Entered A mem chain (hash k) m ∧ keyAt mem (A.block m).toNat = k
  only : ∀ h, ∀ m < n, Entered A mem chain h m → blocks (keyAt mem (A.block m).toNat) = some m

section

variable {A} {hash : Key → Hash} {mem : ℕ → Byte} {n : ℕ} {chain : Chains}
  {blocks : Key → Option ℕ}

lemma Entered.out (hs : Shape A mem n chain) {h : Hash} {m : ℕ}
    (hm : Entered A mem chain h m) (g : Hash) : (A.block m).toNat ∉ chain g := by
  obtain ⟨b,hb,i,hi,hv,hptr⟩ := hm
  exact hptr ▸ (hs.pointer h b hb i hi hv).2 g

lemma Entered.lt (hs : Shape A mem n chain) {h : Hash} {m : ℕ} (hc : m < A.count)
    (hm : Entered A mem chain h m) : m < n := by
  obtain ⟨b,hb,i,hi,hv,hptr⟩ := hm
  obtain ⟨⟨k,hk,hptr'⟩,-⟩ := hs.pointer h b hb i hi hv
  have hcount := hs.count
  rw [block_inj A hc (by omega) (hptr.symm.trans hptr')]
  exact hk

lemma key_congr {mem' : ℕ → Byte} (p : ℕ) (h : load mem' (p+0) 8 = load mem (p+0) 8) :
    keyAt mem' p = keyAt mem p := by
  rw [Nat.add_zero] at h
  rw [keyAt,h,keyAt]

section

variable (hst : Stored A hash mem n chain blocks)
include hst

lemma stored_insert (r : Request) (hnew : blocks r.key = none) (hn : n < A.count)
    (mem' : ℕ → Byte) (n' : ℕ) (chain' : Chains)
    (hins : Inserted A hash mem n chain r mem' n' chain') :
    Stored A hash mem' n' chain' (Function.update blocks r.key (some n)) := by
  have hcount := hins.shape.count
  have hgrown := hins.grown.1
  -- a block with an entry keeps its key
  have hkey : ∀ h, ∀ m < n, Entered A mem chain h m →
      keyAt mem' (A.block m).toNat = keyAt mem (A.block m).toNat := by
    intro h m hm hent
    have := A.line_le m (by omega)
    exact key_congr _ (hins.kept m hm (hent.out hst.shape) 0 8 (by omega))
  refine ⟨hins.shape,hins.single hst.single,?_,?_⟩
  · intro k m hk
    by_cases hkr : k = r.key
    · subst hkr
      rw [Function.update_self] at hk
      cases hk
      exact ⟨hgrown,(hins.entered _ n hn).mpr (.inr ⟨rfl,rfl⟩),key_of_load _ _ _ _ hins.data⟩
    · rw [Function.update_of_ne hkr] at hk
      obtain ⟨hm,hent,hkm⟩ := hst.entered k m hk
      exact ⟨by omega,(hins.entered _ m (by omega)).mpr (.inl hent),(hkey _ m hm hent).trans hkm⟩
  · intro h m hm hent
    rcases (hins.entered h m (by omega)).mp hent with hold | ⟨-,rfl⟩
    · have hlt := hold.lt hst.shape (by omega)
      have hblock := hst.only h m hlt hold
      rw [hkey h m hlt hold,Function.update_of_ne,hblock]
      intro heq
      rw [heq,hnew] at hblock
      cases hblock
    · rw [key_of_load _ _ _ _ hins.data,Function.update_self]

lemma stored_found (r : Request) (m : ℕ) (mem' : ℕ → Byte) (hfound : Found A mem n chain r m mem')
    :
    Stored A hash mem' n chain blocks := by
  refine ⟨hfound.shape,hfound.same.single hst.single,?_,?_⟩
  · intro k l hk
    obtain ⟨hl,hent,hkey⟩ := hst.entered k l hk
    exact ⟨hl,(hfound.same.entered _ l).mpr hent,(hfound.key l hl (hent.out hst.shape)).trans hkey⟩
  · intro h l hl hent
    have hold := (hfound.same.entered h l).mp hent
    rw [hfound.key l hl (hold.out hst.shape)]
    exact hst.only h l hl hold

lemma Stored.hit (h : Hash) (b i : ℕ) (k : Key) (hb : b ∈ chain h) (hi : i ∈ hits mem b k) :
    ∃ m, blocks k = some m ∧ (entryAt mem b i).ptr = A.block m := by
  obtain ⟨hi7,hv,hkey⟩ := (mem_hits mem b i k).mp hi
  obtain ⟨⟨m,hm,hptr⟩,-⟩ := hst.shape.pointer h b hb i hi7 hv
  have honly := hst.only h m hm ⟨b,hb,i,hi7,hv,hptr⟩
  rw [hptr] at hkey
  rw [hkey] at honly
  exact ⟨m,honly,hptr⟩

lemma Stored.hits_le_one (h : Hash) (b : ℕ) (k : Key) (hb : b ∈ chain h) :
    (hits mem b k).length ≤ 1 := by
  have hnodup : (hits mem b k).Nodup := List.nodup_range.filter _
  have hall : ∀ i ∈ hits mem b k, ∀ j ∈ hits mem b k, i = j := by
    intro i hi j hj
    obtain ⟨hi7,hvi,-⟩ := (mem_hits mem b i k).mp hi
    obtain ⟨hj7,hvj,-⟩ := (mem_hits mem b j k).mp hj
    obtain ⟨m,hm,hpi⟩ := hst.hit h b i k hb hi
    obtain ⟨l,hl,hpj⟩ := hst.hit h b j k hb hj
    have hml : m = l := Option.some.inj (hm.symm.trans hl)
    rw [← hml] at hpj
    exact (hst.single h h b b i j hb hb hi7 hj7 hvi hvj (hpi.trans hpj.symm)).2
  match hl : hits mem b k with
  | [] | [_] => simp
  | i::j::_ =>
    rw [hl] at hnodup hall
    have hij := hall i (by simp) j (by simp)
    simp [hij] at hnodup

lemma Stored.hits_nil (h : Hash) (b : ℕ) (k : Key) (hk : blocks k = none) (hb : b ∈ chain h) :
    hits mem b k = [] := by
  apply List.eq_nil_iff_forall_not_mem.mpr
  intro i hi
  obtain ⟨m,hm,-⟩ := hst.hit h b i k hb hi
  rw [hk] at hm
  cases hm

lemma Stored.hits_some (k : Key) (m : ℕ) (hk : blocks k = some m) :
    ∃ b ∈ chain (hash k), hits mem b k ≠ [] := by
  obtain ⟨-,⟨b,hb,i,hi,hv,hptr⟩,hkey⟩ := hst.entered k m hk
  refine ⟨b,hb,List.ne_nil_of_mem (a := i) ?_⟩
  rw [mem_hits,hptr]
  exact ⟨hi,hv,hkey⟩

lemma handle_absent (r : Request) (hr : r.cmd ≠ .write) (hk : blocks r.key = none)
    (hitSignals : List Bool) (hready : Ready (r.bucketCommand hash) hitSignals) :
    ∃ signals accesses, Ready (r.bucketCommand hash) signals ∧
      Fetched mem (chain (hash r.key)) (r.bucketCommand hash) accesses ∧
      handle A hash (busy mem n hitSignals) r =
        (busy mem n signals,{ replies := [⟨r.id,false⟩], accesses := accesses }) := by
  have hres := handle_lookup hst.shape r hr hitSignals hready
    (fun c hc => hst.hits_le_one _ c _ hc)
  generalize handle A hash (busy mem n hitSignals) r = out at hres
  cases hres with
  | hit addr i signals accesses hmem hhit hready' hacc =>
    rw [key_of_data,hst.hits_nil _ _ _ hk hmem] at hhit
    cases hhit
  | miss signals accesses hmiss hready' hacc => exact ⟨signals,accesses,hready',hacc,rfl⟩

lemma handle_found (r : Request) (hr : r.cmd ≠ .write) (m : ℕ) (hk : blocks r.key = some m)
    (hitSignals : List Bool) (hready : Ready (r.bucketCommand hash) hitSignals)
    (hfit : r.cmd = .update → r.valueSize.toNat+8 < 2^16 ∧ r.valueSize.toNat+8 ≤ A.room m) :
    ∃ signals accesses mem', Ready (r.bucketCommand hash) signals ∧
      Fetched mem (chain (hash r.key)) (r.bucketCommand hash) accesses ∧
      Found A mem n chain r m mem' ∧
      handle A hash (busy mem n hitSignals) r = (busy mem' n signals,
        { replies := [⟨r.id,true⟩]
          packets := if r.cmd = .read ∧ (8 : BitVec 16) < r.valueSize+8 then
            [load mem ((A.block m).toNat+8) ((r.valueSize+8).toNat-8)] else []
          accesses := accesses }) := by
  have hres := handle_lookup hst.shape r hr hitSignals hready
    (fun c hc => hst.hits_le_one _ c _ hc)
  generalize handle A hash (busy mem n hitSignals) r = out at hres
  cases hres with
  | hit addr i signals accesses hmem hhit hready' hacc =>
    rw [key_of_data] at hhit
    have hi : i ∈ hits mem addr.toNat r.key := by rw [hhit]; simp
    obtain ⟨l,hl,hptr⟩ := hst.hit _ _ i _ hmem hi
    have hml : l = m := Option.some.inj (hl.symm.trans hk)
    rw [hml] at hptr
    obtain ⟨hm,-⟩ := hst.entered _ m hk
    refine ⟨signals,accesses,_,hready',hacc,?_,by rw [hptr]; rfl⟩
    exact found_hit hst.shape r { r.bucketCommand hash with entryAddr := addr } rfl rfl _ hmem i m
      hi hm hptr hfit
  | miss signals accesses hmiss hready' hacc =>
    obtain ⟨b,hb,hne⟩ := hst.hits_some _ m hk
    exact absurd (key_of_data r ▸ hmiss b hb) hne

end

end

end Clio.KeyValueStore
