import Clio.Pte

/-!
# Allocating and what it touches

The pages of a vRegion fall into different buckets.
-/

namespace Clio.VmAlloc

open Function

open Ranges VmArea FindVaRange Pgtable Vm VmRegion VmFree Pte

lemma pages_length (a len : ℕ) (h : pageSize ∣ len) :
    (pages a (a+len)).length = len/pageSize := by
  obtain ⟨k,rfl⟩ := h
  have hp := page_size_pos
  rw [pages,List.length_map,List.length_range,Nat.add_sub_cancel_left,
    Nat.mul_div_cancel_left k hp,Nat.add_sub_assoc hp,Nat.mul_add_div hp,
    Nat.div_eq_of_lt (by omega)]
  rfl

lemma page_align_dvd (len : ℕ) : pageSize ∣ pageAlign len := dvd_mul_left _ _

lemma pages_sorted (start stop : ℕ) :
    (pages start stop).Pairwise fun p q => p+pageSize ≤ q := by
  unfold pages
  rw [List.pairwise_map]
  refine List.pairwise_lt_range.imp ?_
  intro a b hab
  have := Nat.mul_le_mul_right pageSize (Nat.succ_le_of_lt hab)
  rw [Nat.succ_mul] at this
  omega

lemma dvd_pages {start stop x : ℕ} (h : x ∈ pages start stop) (hs : pageSize ∣ start) :
    pageSize ∣ x := by
  obtain ⟨k,rfl,-⟩ := (mem_pages start stop x).mp h
  exact dvd_add hs (dvd_mul_left _ _)

lemma page_fits {x stop : ℕ} (hx : pageSize ∣ x) (hstop : pageSize ∣ stop) (h : x < stop) :
    x+pageSize ≤ stop := by
  obtain ⟨a,rfl⟩ := hx
  obtain ⟨b,rfl⟩ := hstop
  have hab : a < b := Nat.lt_of_mul_lt_mul_left h
  calc pageSize*a+pageSize = pageSize*(a+1) := by ring
    _ ≤ pageSize*b := Nat.mul_le_mul_left _ hab

lemma bucket_inj {idx p q : ℕ} (hp : pageSize ∣ p) (hq : pageSize ∣ q)
    (hpi : p/vregionSize = idx) (hqi : q/vregionSize = idx)
    (h : addrToBucketIndex p = addrToBucketIndex q) : p = q := by
  obtain ⟨a,rfl⟩ := hp
  obtain ⟨b,rfl⟩ := hq
  have hps : pageSize = 4194304 := rfl
  have hvs : vregionSize = 1073741824 := rfl
  have hbs : fpgaNumPgtableBuckets = 32768 := rfl
  unfold addrToBucketIndex at h
  rw [Nat.mul_div_cancel_left _ page_size_pos,Nat.mul_div_cancel_left _ page_size_pos,hbs] at h
  rw [hps,hvs] at hpi hqi
  have hab : a = b := by omega
  rw [hab]

/-- What holds of the board in every state. -/
structure Base (s : Soc) : Prop where
  vm : VmInv s
  conflict : ConflictInv s
  pt : PtInv s

lemma region_sorted {s : Soc} (h : VmInv s) (pid idx : ℕ) : Sorted (region s pid idx) :=
  (h.good pid idx).sorted

lemma free_iff {l : List (Range ℕ)} {s e : ℕ} (hs : Sorted l) (hse : s < e) :
    Free l s e ↔ ∀ x, s ≤ x → x < e → x ∉ covered l := by
  constructor
  · intro h x hlo hhi hx
    obtain ⟨r,hr,h1,h2⟩ := (mem_covered l x).mp hx
    rcases h r hr with h | h <;> omega
  · intro h r hr
    by_contra hno
    have hne := hs.1 r hr
    apply h (max s r.lo) (le_max_left _ _) (by omega)
    exact (mem_covered l _).mpr ⟨r,hr,le_max_right _ _,by omega⟩

section

structure Grown (pid idx : ℕ) (A : Set ℕ) (s s' : Soc) : Prop where
  base : Base s'
  cover : covered (region s' pid idx) = covered (region s pid idx) ∪ A
  other : ∀ p i, ¬(p = pid ∧ i = idx) → region s' p i = region s p i
  aligned : Aligned s → Aligned s'
  frame : s' = { s with vregion := s'.vregion, info := s'.info }
  free : ∀ b, (s'.info b).nrFree = (s.info b).nrFree
  old : ∀ b, ∀ ci ∈ (s.info b).conflicts, ci ∈ (s'.info b).conflicts
  new : ∀ b, ∀ ci ∈ (s'.info b).conflicts, ci ∈ (s.info b).conflicts ∨
    (s.info b).nrFree = 0 ∧ ci.pid = pid ∧ ci.idx = idx ∧ ci.start ∈ A

variable {s s' s'' : Soc} {pid idx : ℕ} {A B : Set ℕ}

lemma grown_refl (h : Base s) : Grown pid idx ∅ s s := by
  refine ⟨h,by simp,fun _ _ _ => rfl,fun ha => ha,rfl,fun _ => rfl,fun _ _ hci => hci,
    fun _ _ hci => .inl hci⟩

lemma grown_trans (h : Grown pid idx A s s') (h' : Grown pid idx B s' s'') :
    Grown pid idx (A ∪ B) s s'' := by
  refine ⟨h'.base,?_,?_,fun ha => h'.aligned (h.aligned ha),?_,?_,?_,?_⟩
  · rw [h'.cover,h.cover,Set.union_assoc]
  · intro p i hne
    rw [h'.other p i hne,h.other p i hne]
  · rw [h'.frame,h.frame]
  · intro b
    rw [h'.free,h.free]
  · intro b ci hci
    exact h'.old b ci (h.old b ci hci)
  · intro b ci hci
    rcases h'.new b ci hci with hci | ⟨hfull,hp,hi,hmem⟩
    · rcases h.new b ci hci with hci | ⟨hfull,hp,hi,hmem⟩
      · exact .inl hci
      · exact .inr ⟨hfull,hp,hi,.inl hmem⟩
    · rw [h.free] at hfull
      exact .inr ⟨hfull,hp,hi,.inr hmem⟩

lemma pt_inv_info {info : ℕ → ShadowBucketInfo} {vregion : ℕ → ℕ → VregionInfo} (h : PtInv s)
    (hfree : ∀ b, (info b).nrFree = (s.info b).nrFree) :
    PtInv { s with vregion := vregion, info := info } :=
  ⟨fun b => (hfree b).trans (h.free b),h.sync,h.frames,h.zone,h.spare⟩

lemma bucket_of_page {p x : ℕ} (hp : pageSize ∣ p) (hlo : p ≤ x) (hhi : x < p+pageSize) :
    addrToBucketIndex x = addrToBucketIndex p := by
  obtain ⟨k,rfl⟩ := hp
  have hx : x/pageSize = k := by
    apply Nat.div_eq_of_lt_le
    · rwa [mul_comm]
    · rwa [Nat.succ_mul,mul_comm k]
  rw [addrToBucketIndex,addrToBucketIndex,hx,Nat.mul_div_cancel_left k page_size_pos]

lemma mem_set_conflicts {info : ℕ → ShadowBucketInfo} {b c : ℕ} {n m : ℤ} {ci cj : ConflictInfo} :
    cj ∈ ((update info b ⟨n,m,ci::(info b).conflicts⟩) c).conflicts ↔
      cj ∈ (info c).conflicts ∨ (c = b ∧ cj = ci) := by
  by_cases hc : c = b
  · subst hc
    simp [or_comm]
  · simp [hc]

lemma insert_conflict_spec (h : Base s) (hidx : idx < nrVregions) (addr : ℕ)
    (haddr : pageSize ∣ addr) (hlo : vregionToStartVa idx ≤ addr)
    (hhi : addr+pageSize ≤ vregionToEndVa idx)
    (hfree : Free (region s pid idx) addr (addr+pageSize))
    (hfull : (s.info (addrToBucketIndex addr)).nrFree = 0) :
    ∃ s', insertConflict s pid idx addr = .ok s' ∧
      Grown pid idx (Set.Ico addr (addr+pageSize)) s s' ∧
      ∀ x ∈ Set.Ico addr (addr+pageSize),
        InConflict (s'.info (addrToBucketIndex x)).conflicts pid idx x := by
  let b := addrToBucketIndex addr
  let info : ShadowBucketInfo := ⟨(s.info b).nrFree,(s.info b).nrConflicts+1,
    ⟨pid,idx,addr,pageSize⟩::(s.info b).conflicts⟩
  have hvm : VmInv (setInfo s b info) := vm_inv_congr h.vm rfl
  obtain ⟨w,hrun,hinv,hvmas⟩ := tree_new_spec hvm pid addr pageSize vmFlagsConflict
    page_size_pos hfree hlo hhi
  have hnr : ∀ c, ((update s.info b info) c).nrFree = (s.info c).nrFree := by
    intro c
    by_cases hc : c = b
    · subst hc
      rw [update_self]
    · rw [update_of_ne hc]
  have hps := page_size_pos
  refine ⟨setVregion (setInfo s b info) pid idx w,?_,?_,?_⟩
  · exact (bind_ok_iff _ _ _).mpr ⟨_,hrun,rfl⟩
  · refine ⟨⟨hinv,?_,pt_inv_info (s := s) h.pt hnr⟩,?_,?_,?_,rfl,hnr,?_,?_⟩
    · intro c ci hci
      rcases mem_set_conflicts.mp hci with hci | ⟨rfl,rfl⟩
      · exact h.conflict c ci hci
      · exact ⟨rfl,haddr,rfl,hidx,hlo,hhi⟩
    · rw [region_set,if_pos ⟨rfl,rfl⟩,hvmas]
      exact covered_enter (region_sorted h.vm pid idx) hfree (by omega)
    · intro p i hne
      rw [region_set,if_neg hne]
      rfl
    · intro ha p i
      rw [region_set]
      split
      · rw [hvmas]
        exact enter_ends (P := (pageSize ∣ ·)) (Q := (pageSize ∣ ·)) (region_sorted h.vm pid idx)
          hfree (by omega) haddr (dvd_add haddr dvd_rfl) (ha pid idx)
      · exact ha p i
    · exact fun c ci hci => mem_set_conflicts.mpr (.inl hci)
    · intro c ci hci
      rcases mem_set_conflicts.mp hci with hci | ⟨rfl,rfl⟩
      · exact .inl hci
      · exact .inr ⟨hfull,rfl,rfl,le_rfl,show addr < addr+pageSize by omega⟩
  · rintro x ⟨hx1,hx2⟩
    rw [bucket_of_page haddr hx1 hx2]
    exact ⟨⟨pid,idx,addr,pageSize⟩,mem_set_conflicts.mpr (.inr ⟨rfl,rfl⟩),rfl,rfl,hx1,hx2⟩

def fullPages (s : Soc) (l : List ℕ) : Set ℕ :=
  {x | ∃ p ∈ l, (s.info (addrToBucketIndex p)).nrFree = 0 ∧ p ≤ x ∧ x < p+pageSize}

def markPage (pid idx : ℕ) (x : Soc × Bool) (start : ℕ) : Except Fault (Soc × Bool) :=
  if (x.1.info (addrToBucketIndex start)).nrFree = 0 then do
    let s ← insertConflict x.1 pid idx start
    return (s,true)
  else .ok x

lemma mark_pages_spec (l : List ℕ) (flag : Bool) (h : Base s) (hidx : idx < nrVregions)
    (hl : l.Pairwise fun p q => p+pageSize ≤ q)
    (hpage : ∀ p ∈ l, pageSize ∣ p ∧ vregionToStartVa idx ≤ p ∧ p+pageSize ≤ vregionToEndVa idx ∧
      Free (region s pid idx) p (p+pageSize)) :
    ∃ s' flag', l.foldlM (markPage pid idx) (s,flag) = .ok (s',flag') ∧
      Grown pid idx (fullPages s l) s s' ∧
      (∀ x ∈ fullPages s l, InConflict (s'.info (addrToBucketIndex x)).conflicts pid idx x) ∧
      (flag' = true ↔ flag = true ∨ ∃ p ∈ l, (s.info (addrToBucketIndex p)).nrFree = 0) ∧
      ((∀ p ∈ l, (s.info (addrToBucketIndex p)).nrFree ≠ 0) → s' = s) := by
  induction l generalizing s flag with
  | nil =>
    have hempty : fullPages s [] = ∅ := by
      ext x
      simp [fullPages]
    rw [hempty]
    exact ⟨s,flag,rfl,grown_refl h,by simp,by simp,fun _ => rfl⟩
  | cons p l ih =>
    obtain ⟨hp,hlo,hhi,hfree⟩ := hpage p (by simp)
    rw [List.pairwise_cons] at hl
    by_cases hfull : (s.info (addrToBucketIndex p)).nrFree = 0
    · obtain ⟨t,ht,hgrown,hlist⟩ := insert_conflict_spec h hidx p hp hlo hhi hfree hfull
      have hstep : markPage pid idx (s,flag) p = .ok (t,true) := by
        unfold markPage
        rw [if_pos hfull]
        simp only [ht,ok_bind]
        rfl
      obtain ⟨s',flag',hrun,hgrown',hlist',hflag,-⟩ := ih (s := t) true hgrown.base hl.2 (by
        intro q hq
        obtain ⟨hq1,hq2,hq3,hq4⟩ := hpage q (by simp [hq])
        have hps := page_size_pos
        refine ⟨hq1,hq2,hq3,?_⟩
        rw [free_iff (region_sorted hgrown.base.vm pid idx) (by omega)]
        intro x hx1 hx2
        rw [hgrown.cover]
        rintro (hx | ⟨hx3,hx4⟩)
        · exact (free_iff (region_sorted h.vm pid idx) (by omega)).mp hq4 x hx1 hx2 hx
        · have := hl.1 q hq
          omega)
      have hset : fullPages s (p::l) = Set.Ico p (p+pageSize) ∪ fullPages t l := by
        ext x
        simp only [fullPages,List.mem_cons,exists_eq_or_imp,Set.mem_ofPred_eq,Set.mem_union,
          Set.mem_Ico,hfull,true_and,hgrown.free]
      rw [hset]
      refine ⟨s',flag',by rw [List.foldlM_cons,hstep]; exact hrun,grown_trans hgrown hgrown',
        ?_,?_,?_⟩
      · rintro x (hx | hx)
        · obtain ⟨ci,hci,hpage⟩ := hlist x hx
          exact ⟨ci,hgrown'.old _ ci hci,hpage⟩
        · exact hlist' x hx
      · rw [hflag]
        simp [hfull]
      · intro hno
        exact absurd hfull (hno p (by simp))
    · have hstep : markPage pid idx (s,flag) p = .ok (s,flag) := by
        unfold markPage
        rw [if_neg hfull]
      obtain ⟨s',flag',hrun,hgrown,hlist,hflag,hsame⟩ := ih flag h hl.2
        (fun q hq => hpage q (by simp [hq]))
      have hset : fullPages s (p::l) = fullPages s l := by
        ext x
        simp [fullPages,hfull]
      rw [hset]
      refine ⟨s',flag',by rw [List.foldlM_cons,hstep]; exact hrun,hgrown,hlist,?_,?_⟩
      · rw [hflag]
        simp [hfull]
      · intro hno
        exact hsame fun q hq => hno q (by simp [hq])

end

structure Filled (pid : ℕ) (l : List ℕ) (s s' : Soc) : Prop where
  pt : PtInv s'
  frame : s' = { s with shadow := s'.shadow, fpga := s'.fpga, info := s'.info,
                        nrAllocatedPtes := s'.nrAllocatedPtes, zone := s'.zone }
  conflicts : ∀ b, (s'.info b).conflicts = (s.info b).conflicts
  slots : ∃ slot : ℕ → Fin 16,
    (∀ p ∈ l, (s.shadow (addrToBucketIndex p) (slot p)).allocated = false ∧
      (s'.shadow (addrToBucketIndex p) (slot p)).allocated = true ∧
      (s'.shadow (addrToBucketIndex p) (slot p)).tag = generateTag pid p) ∧
    ∀ b i, (∀ p ∈ l, ¬(addrToBucketIndex p = b ∧ slot p = i)) → s'.shadow b i = s.shadow b i

lemma alloc_range_spec {s : Soc} (pid vmFlags : ℕ) (l : List ℕ) (h : PtInv s)
    (hl : l.Pairwise fun p q => addrToBucketIndex p ≠ addrToBucketIndex q)
    (hfree : ∀ p ∈ l, (s.info (addrToBucketIndex p)).nrFree ≠ 0) :
    ∃ s', l.foldlM (fun s addr => allocPte s pid addr vmFlags) s = .ok s' ∧ Filled pid l s s' := by
  induction l generalizing s with
  | nil => exact ⟨s,rfl,h,rfl,fun _ => rfl,fun _ => 0,by simp,fun _ _ _ => rfl⟩
  | cons p l ih =>
    rw [List.pairwise_cons] at hl
    obtain ⟨i,pte,zone,hrun,hno,hall,htag,hpt⟩ := alloc_pte_spec h pid p vmFlags (hfree p (by simp))
    have hinfo : ∀ b, b ≠ addrToBucketIndex p → (taken s pid p i pte zone).info b = s.info b := by
      intro b hb
      exact update_of_ne hb ..
    obtain ⟨s',hrest,hfill⟩ := ih hpt hl.2 (by
      intro q hq
      rw [hinfo _ (hl.1 q hq).symm]
      exact hfree q (by simp [hq]))
    obtain ⟨slot,hnew,hold⟩ := hfill.slots
    have hother : ∀ q ∈ l, q ≠ p := by
      rintro q hq rfl
      exact hl.1 q hq rfl
    refine ⟨s',by rw [List.foldlM_cons,hrun]; exact hrest,hfill.pt,?_,?_,update slot p i,?_,?_⟩
    · rw [hfill.frame]
      rfl
    · intro b
      rw [hfill.conflicts b]
      by_cases hb : b = addrToBucketIndex p
      · subst hb
        simp [taken]
      · rw [hinfo b hb]
    · intro q hq
      rcases List.mem_cons.mp hq with rfl | hq
      · rw [update_self,hold _ _ (fun r hr hc => hl.1 r hr hc.1.symm)]
        simp [taken,pte_set,hno]
      · rw [update_of_ne (hother q hq)]
        refine ⟨?_,(hnew q hq).2⟩
        have := (hnew q hq).1
        simpa only [taken,pte_set,(hl.1 q hq).symm,false_and,if_false] using this
    · intro b j hb
      rw [hold b j]
      · have hp := hb p (by simp)
        rw [update_self] at hp
        simp only [taken,pte_set]
        rw [if_neg (fun hc => hp ⟨hc.1.symm,hc.2.symm⟩)]
      · intro q hq
        have := hb q (by simp [hq])
        rwa [update_of_ne (hother q hq)] at this

section

variable {s : Soc} {pid idx len : ℕ}

lemma vregion_index {x : ℕ} (hlo : vregionToStartVa idx ≤ x) (hhi : x < vregionToEndVa idx) :
    x/vregionSize = idx := by
  have hv : vregionSize = 1073741824 := rfl
  unfold vregionToEndVa at hhi
  unfold vregionToStartVa at hlo
  rw [hv] at hlo hhi ⊢
  split_ifs at hlo <;> omega

lemma dvd_end_va (idx : ℕ) : pageSize ∣ vregionToEndVa idx := dvd_mul_of_dvd_right (by decide) _

structure FreeRange (s : Soc) (pid idx len a : ℕ) : Prop where
  at_ : FreeAt (region s pid idx) (vregionToStartVa idx) (vregionToEndVa idx) len a
  aligned : pageSize ∣ a

structure Fits (s : Soc) (pid idx len a : ℕ) : Prop extends FreeRange s pid idx len a where
  room : ∀ p ∈ pages a (a+len), (s.info (addrToBucketIndex p)).nrFree ≠ 0

lemma highest_aligned (ha : Aligned s) (hlen : pageSize ∣ len) {a : ℕ}
    (h : FreeAt (region s pid idx) (vregionToStartVa idx) (vregionToEndVa idx) len a)
    (hmax : ∀ x, FreeAt (region s pid idx) (vregionToStartVa idx) (vregionToEndVa idx) len x →
      x ≤ a) : pageSize ∣ a := by
  have hnot : ¬FreeAt (region s pid idx) (vregionToStartVa idx) (vregionToEndVa idx) len (a+1) := by
    intro hx
    have := hmax _ hx
    omega
  obtain ⟨hlo,hhi,hfree⟩ := h
  have hstop : pageSize ∣ a+len := by
    by_cases htop : a+len = vregionToEndVa idx
    · rw [htop]
      exact dvd_end_va idx
    · obtain ⟨r,hr,hno⟩ : ∃ r ∈ region s pid idx, ¬(r.hi ≤ a+1 ∨ a+1+len ≤ r.lo) := by
        by_contra hall
        push Not at hall
        refine hnot ⟨by omega,by generalize vregionToEndVa idx = e at *; omega,?_⟩
        intro r hr
        by_contra hc
        push Not at hc
        have := hall r hr
        omega
      have := hfree r hr
      have hr' : r.lo = a+len := by omega
      rw [← hr']
      exact (ha pid idx r hr).1
  exact (Nat.dvd_add_iff_left hlen).mpr hstop

lemma free_range_pages {a : ℕ} (h : FreeRange s pid idx len a) (hlen : pageSize ∣ len) :
    ∀ p ∈ pages a (a+len), pageSize ∣ p ∧ vregionToStartVa idx ≤ p ∧
      p+pageSize ≤ vregionToEndVa idx ∧ Free (region s pid idx) p (p+pageSize) := by
  intro p hp
  have hd := dvd_pages hp h.aligned
  obtain ⟨k,rfl,hlt⟩ := (mem_pages _ _ _).mp hp
  have hfit := page_fits hd (dvd_add h.aligned hlen) hlt
  obtain ⟨hlo,hhi,hfree⟩ := h.at_
  refine ⟨hd,by omega,hfit.trans hhi,?_⟩
  intro r hr
  rcases hfree r hr with hr | hr
  · exact .inl (by omega)
  · exact .inr (by omega)

lemma pages_buckets {a : ℕ} (h : FreeRange s pid idx len a) (hlen : pageSize ∣ len) :
    (pages a (a+len)).Pairwise fun p q => addrToBucketIndex p ≠ addrToBucketIndex q := by
  have hps := page_size_pos
  refine (pages_sorted a (a+len)).imp_of_mem ?_
  intro p q hp hq hpq heq
  obtain ⟨hp1,hp2,hp3,-⟩ := free_range_pages h hlen p hp
  obtain ⟨hq1,hq2,hq3,-⟩ := free_range_pages h hlen q hq
  have := bucket_inj hp1 hq1 (vregion_index hp2 (by omega)) (vregion_index hq2 (by omega)) heq
  omega

end

section

variable {s s' s'' : Soc} {pid idx len : ℕ}

/-- The bucket of an address is full. -/
def Full (s : Soc) (x : ℕ) : Prop := (s.info (addrToBucketIndex x)).nrFree = 0

def Marked (pid idx : ℕ) (s s' : Soc) : Prop :=
  ∃ A, Grown pid idx A s s' ∧ ∀ x ∈ A, Full s x ∧ x ∉ covered (region s pid idx)

lemma marked_refl (h : Base s) : Marked pid idx s s := ⟨∅,grown_refl h,by simp⟩

lemma marked_trans (h : Marked pid idx s s') (h' : Marked pid idx s' s'') :
    Marked pid idx s s'' := by
  obtain ⟨A,hA,hfullA⟩ := h
  obtain ⟨B,hB,hfullB⟩ := h'
  refine ⟨A ∪ B,grown_trans hA hB,?_⟩
  rintro x (hx | hx)
  · exact hfullA x hx
  · obtain ⟨hfull,hnot⟩ := hfullB x hx
    rw [Full,hA.free] at hfull
    rw [hA.cover] at hnot
    exact ⟨hfull,fun hc => hnot (.inl hc)⟩

lemma page_of_addr {a x : ℕ} (ha : pageSize ∣ a) (hlo : a ≤ x) (hhi : x < a+len) :
    ∃ p ∈ pages a (a+len), addrToBucketIndex x = addrToBucketIndex p := by
  have hps := page_size_pos
  have hdiv := Nat.div_add_mod (x-a) pageSize
  have hmod := Nat.mod_lt (x-a) hps
  rw [mul_comm] at hdiv
  have hle : a+(x-a)/pageSize*pageSize ≤ x := by omega
  have hlt : x < a+(x-a)/pageSize*pageSize+pageSize := by omega
  refine ⟨a+(x-a)/pageSize*pageSize,(mem_pages _ _ _).mpr ⟨_,rfl,by omega⟩,?_⟩
  exact bucket_of_page (dvd_add ha (dvd_mul_left _ _)) hle hlt

lemma fits_marked (h : VmInv s) (hm : Marked pid idx s s') (hlen : 0 < len) (a : ℕ) :
    Fits s' pid idx len a ↔ Fits s pid idx len a := by
  obtain ⟨A,hgrown,hfull⟩ := hm
  have hs := region_sorted h pid idx
  have hs' := region_sorted hgrown.base.vm pid idx
  constructor
  · rintro ⟨⟨⟨hlo,hhi,hfree⟩,ha⟩,hroom⟩
    refine ⟨⟨⟨hlo,hhi,?_⟩,ha⟩,fun p hp => hgrown.free _ ▸ hroom p hp⟩
    refine (free_iff hs (by omega)).mpr fun x hx1 hx2 hx => ?_
    refine (free_iff hs' (by omega)).mp hfree x hx1 hx2 ?_
    rw [hgrown.cover]
    exact .inl hx
  · rintro ⟨⟨⟨hlo,hhi,hfree⟩,ha⟩,hroom⟩
    refine ⟨⟨⟨hlo,hhi,?_⟩,ha⟩,fun p hp => (hgrown.free _).symm ▸ hroom p hp⟩
    refine (free_iff hs' (by omega)).mpr fun x hx1 hx2 hx => ?_
    rw [hgrown.cover] at hx
    rcases hx with hx | hx
    · exact (free_iff hs (by omega)).mp hfree x hx1 hx2 hx
    · obtain ⟨p,hp,hbucket⟩ := page_of_addr ha hx1 hx2
      have := (hfull x hx).1
      rw [Full,hbucket] at this
      exact hroom p hp this

lemma check_spec (h : Base s) (hidx : idx < nrVregions) {a : ℕ}
    (hr : FreeRange s pid idx len a) (hlen : pageSize ∣ len) :
    ∃ s' found, checkAndInsertShadowConflicts s pid idx a len = .ok (s',found) ∧
      Grown pid idx (fullPages s (pages a (a+len))) s s' ∧ Marked pid idx s s' ∧
      (∀ x ∈ fullPages s (pages a (a+len)),
        InConflict (s'.info (addrToBucketIndex x)).conflicts pid idx x) ∧
      (found = true ↔ ∃ p ∈ pages a (a+len), (s.info (addrToBucketIndex p)).nrFree = 0) ∧
      ((∀ p ∈ pages a (a+len), (s.info (addrToBucketIndex p)).nrFree ≠ 0) → s' = s) := by
  have hpage := free_range_pages hr hlen
  obtain ⟨s',found,hrun,hgrown,hlist,hflag,hsame⟩ := mark_pages_spec (pages a (a+len)) false h
    hidx (pages_sorted a (a+len)) hpage
  refine ⟨s',found,hrun,hgrown,⟨_,hgrown,?_⟩,hlist,by simpa using hflag,hsame⟩
  rintro x ⟨p,hp,hfull,hlo,hhi⟩
  obtain ⟨hp1,-,-,hp4⟩ := hpage p hp
  refine ⟨?_,?_⟩
  · rw [Full,bucket_of_page hp1 hlo hhi]
    exact hfull
  · exact (free_iff (region_sorted h.vm pid idx) (by omega)).mp hp4 x hlo hhi

end

section

variable {s : Soc} {pid idx len : ℕ}

open Classical in
noncomputable def uncovered (s : Soc) (pid idx : ℕ) : Finset ℕ :=
  (Finset.range 256).filter fun k => idx*vregionSize+k*pageSize ∉ covered (region s pid idx)

lemma uncovered_le (s : Soc) (pid idx : ℕ) : (uncovered s pid idx).card < retries := by
  classical
  have hle := Finset.card_filter_le (Finset.range 256)
    fun k => idx*vregionSize+k*pageSize ∉ covered (region s pid idx)
  rw [Finset.card_range] at hle
  unfold uncovered retries
  convert Nat.lt_succ_of_le hle

lemma uncovered_lt {s' : Soc} {A : Set ℕ} (h : Grown pid idx A s s') {p : ℕ} (hp : pageSize ∣ p)
    (hlo : vregionToStartVa idx ≤ p) (hhi : p < vregionToEndVa idx) (hA : p ∈ A)
    (hnot : p ∉ covered (region s pid idx)) :
    (uncovered s' pid idx).card < (uncovered s pid idx).card := by
  have hidx := vregion_index hlo hhi
  obtain ⟨c,hc⟩ : ∃ c, idx*vregionSize = pageSize*c := ⟨idx*256,by
    have h1 : vregionSize = pageSize*256 := by decide
    rw [h1]
    ring⟩
  obtain ⟨d,rfl⟩ := hp
  have hv : vregionSize = 256*pageSize := by decide
  have hge : idx*vregionSize ≤ pageSize*d := by
    rw [← hidx]
    exact Nat.div_mul_le_self _ _
  have hlt : pageSize*d < idx*vregionSize+256*pageSize := by
    unfold vregionToEndVa at hhi
    rw [Nat.succ_mul] at hhi
    omega
  have hcd : c ≤ d := by
    rw [hc] at hge
    exact Nat.le_of_mul_le_mul_left hge page_size_pos
  have hd : d < c+256 := by
    rw [hc,mul_comm 256,← Nat.mul_add] at hlt
    exact Nat.lt_of_mul_lt_mul_left hlt
  have heq : idx*vregionSize+(d-c)*pageSize = pageSize*d := by
    rw [hc,mul_comm _ pageSize,← Nat.mul_add]
    congr 1
    omega
  apply Finset.card_lt_card
  refine ⟨?_,?_⟩
  · intro k hk
    simp only [uncovered,Finset.mem_filter] at hk ⊢
    rw [h.cover] at hk
    exact ⟨hk.1,fun hx => hk.2 (.inl hx)⟩
  · intro hsub
    have hmem : d-c ∈ uncovered s pid idx := by
      simp only [uncovered,Finset.mem_filter,Finset.mem_range,heq]
      exact ⟨by omega,hnot⟩
    have := hsub hmem
    simp only [uncovered,Finset.mem_filter,heq,h.cover] at this
    exact this.2 (.inr hA)

lemma end_va_small {a : ℕ} (hidx : idx < nrVregions) (ha : a ≤ vregionToEndVa idx) :
    ¬isErrValue a := by
  have h1 : vregionToEndVa idx ≤ nrVregions*vregionSize := Nat.mul_le_mul_right vregionSize hidx
  have h2 : nrVregions*vregionSize < 2^64-4095 := by decide
  unfold isErrValue
  omega

structure Entered (pid idx a len vmFlags : ℕ) (s s' : Soc) : Prop where
  inv : VmInv s'
  region : region s' pid idx = enter a (a+len) vmFlags (region s pid idx)
  other : ∀ p i, ¬(p = pid ∧ i = idx) → VmRegion.region s' p i = VmRegion.region s p i
  filled : ∃ w, Filled pid (pages a (a+len)) (setVregion s pid idx w) s'

lemma alloc_found_spec (h : Base s) (hpos : 0 < len) (hlen : pageSize ∣ len) (vmFlags : ℕ)
    {a : ℕ} (hfit : Fits s pid idx len a) :
    ∃ s', allocFound s pid idx a len vmFlags = .ok (s',a) ∧ Entered pid idx a len vmFlags s s' := by
  obtain ⟨hlo,hhi,hfree⟩ := hfit.at_
  obtain ⟨w,hnew,hinv,hvmas⟩ := tree_new_spec h.vm pid a len vmFlags hpos hfree hlo hhi
  have hpt : PtInv (setVregion s pid idx w) := pt_inv_info (s := s) h.pt fun _ => rfl
  obtain ⟨s',hrun,hfill⟩ := alloc_range_spec pid vmFlags (pages a (a+len)) hpt
    (pages_buckets hfit.toFreeRange hlen) hfit.room
  have hv : s'.vregion = (setVregion s pid idx w).vregion := by rw [hfill.frame]
  refine ⟨s',?_,vm_inv_congr hinv hv,?_,?_,w,hfill⟩
  · have hrange : allocFpgaPteRange (setVregion s pid idx w) pid a (a+len) vmFlags = .ok s' := by
      rw [allocFpgaPteRange,hrun]
    unfold allocFound
    rw [hnew,ok_bind]
    dsimp only
    rw [hrange,ok_bind]
    rfl
  · rw [region,hv]
    exact (region_set s pid idx w pid idx).trans (by rw [if_pos ⟨rfl,rfl⟩,hvmas])
  · intro p i hne
    rw [VmRegion.region,hv]
    exact (region_set s pid idx w p i).trans (if_neg hne)

lemma alloc_retry_spec (pid vmFlags n : ℕ) (h : Base s) (ha : Aligned s) (hidx : idx < nrVregions)
    (hpos : 0 < len) (hlen : pageSize ∣ len) (hle : len ≤ vregionSize)
    (hn : (uncovered s pid idx).card < n) :
    (∃ t, Marked pid idx s t ∧ (∀ a, ¬Fits s pid idx len a) ∧ allocRetry pid idx len vmFlags n s =
        .ok ({ t with cachedVregionStart := t.cachedVregionStart+1 },0)) ∨
    ∃ t s' a, Marked pid idx s t ∧ Fits s pid idx len a ∧ (∀ x, Fits s pid idx len x → x ≤ a) ∧
      Entered pid idx a len vmFlags t s' ∧ allocRetry pid idx len vmFlags n s = .ok (s',a) := by
  induction n generalizing s with
  | zero => omega
  | succ n ih =>
    obtain ⟨addr,hfind,hspec⟩ := find_va_range_exact (h.vm.good pid idx) (h.vm.topdown pid idx) hidx
      hpos hle (fun r hr => (h.vm.inside pid idx r hr).2)
    unfold allocRetry
    simp only [hfind,ok_bind]
    rcases hspec with ⟨rfl,hnone⟩ | ⟨hat,hmax⟩
    · rw [if_pos (by decide)]
      exact .inl ⟨s,marked_refl h,fun a hf => hnone a hf.at_,rfl⟩
    · have halign : pageSize ∣ addr := highest_aligned ha hlen hat hmax
      have hr : FreeRange s pid idx len addr := ⟨hat,halign⟩
      obtain ⟨t,found,hcheck,hgrown,hmark,-,hfound,hsame⟩ := check_spec h hidx hr hlen
      rw [if_neg (end_va_small hidx (by have := hat.2.1; omega)),if_neg (by
        rw [Nat.mod_eq_zero_of_dvd halign]
        simp)]
      simp only [hcheck,ok_bind]
      by_cases hf : found = true
      · -- a page became a conflict: search again
        rw [if_pos hf]
        obtain ⟨p,hp,hfull⟩ := hfound.mp hf
        obtain ⟨hp1,hp2,hp3,hp4⟩ := free_range_pages hr hlen p hp
        have hps := page_size_pos
        have hless := uncovered_lt hgrown hp1 hp2 (by omega) ⟨p,hp,hfull,le_rfl,by omega⟩
          ((free_iff (region_sorted h.vm pid idx) (by omega)).mp hp4 p le_rfl (by omega))
        have hfit := fits_marked h.vm hmark hpos
        rcases ih hgrown.base (hgrown.aligned ha) (by omega) with
          ⟨u,hu,hno,hrun⟩ | ⟨u,s',a,hu,hfa,hbest,henter,hrun⟩
        · exact .inl ⟨u,marked_trans hmark hu,fun a hfa => hno a ((hfit a).mpr hfa),hrun⟩
        · exact .inr ⟨u,s',a,marked_trans hmark hu,(hfit a).mp hfa,
            fun x hx => hbest x ((hfit x).mpr hx),henter,hrun⟩
      · rw [if_neg hf]
        have hroom : ∀ p ∈ pages addr (addr+len), (s.info (addrToBucketIndex p)).nrFree ≠ 0 :=
          fun p hp hfull => hf (hfound.mpr ⟨p,hp,hfull⟩)
        obtain rfl := hsame hroom
        have hfit : Fits t pid idx len addr := ⟨hr,hroom⟩
        obtain ⟨s',hrun,henter⟩ := alloc_found_spec h hpos hlen vmFlags hfit
        exact .inr ⟨t,s',addr,hmark,hfit,fun x hx => hmax x hx.at_,henter,hrun⟩

end

end Clio.VmAlloc
