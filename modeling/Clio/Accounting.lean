import Clio.TableSteps

/-!
# The books of the buckets

Counters of free entries and lists of conflicts for the buckets.
-/

namespace Clio.Accounting

open Function

open VmArea Pgtable Vm VmFree Pte Machine TableSteps

def allocatedIn (t : Table) (b : ℕ) : ℕ :=
  (Finset.univ.filter fun i : Fin 16 => (t b i).allocated = true).card

structure Books (s : Soc) : Prop where
  free : ∀ b, (s.info b).nrFree = 16-(allocatedIn s.shadow b : ℤ)
  conflicts : ∀ b, (s.info b).nrConflicts = (s.info b).conflicts.length
  full : ∀ b, (s.info b).conflicts ≠ [] → (s.info b).nrFree = 0
  bound : ∀ b i, (s.shadow b i).allocated = true → b < fpgaNumPgtableBuckets
  total : s.nrAllocatedPtes = ∑ b ∈ Finset.range fpgaNumPgtableBuckets, (allocatedIn s.shadow b : ℤ)

/-- Entries at equal places agree. -/
def Sync (s : Soc) : Prop :=
  ∀ b i, (s.fpga b i).allocated = (s.shadow b i).allocated ∧ (s.fpga b i).tag = (s.shadow b i).tag

section

variable {t : Table} {b : ℕ} {i : Fin 16} (pte : LegoMemPte)

lemma allocated_add_free (t : Table) (b : ℕ) : allocatedIn t b+(freeSlots t b).card = 16 := by
  have hfree : freeSlots t b = Finset.univ.filter fun i => ¬(t b i).allocated = true := by
    unfold freeSlots
    congr 1
    funext i
    simp
  rw [allocatedIn,hfree,Finset.card_filter_add_card_filter_not,Finset.card_univ, Fintype.card_fin]

lemma allocated_take (hno : (t b i).allocated = false) (hyes : pte.allocated = true) :
    allocatedIn (setPte t b i pte) b = allocatedIn t b+1 := by
  have hnew := allocated_add_free (setPte t b i pte) b
  have hold := allocated_add_free t b
  have hslots := slots_alloc pte hno hyes
  omega

lemma allocated_clear (hyes : (t b i).allocated = true) (hno : pte.allocated = false) :
    allocatedIn (setPte t b i pte) b+1 = allocatedIn t b := by
  have hnew := allocated_add_free (setPte t b i pte) b
  have hold := allocated_add_free t b
  have hslots := slots_zap pte hyes hno
  omega

lemma allocated_other {c : ℕ} (h : c ≠ b) :
    allocatedIn (setPte t b i pte) c = allocatedIn t c := by
  have hnew := allocated_add_free (setPte t b i pte) c
  have hold := allocated_add_free t c
  rw [slots_other h] at hnew
  omega

lemma total_set {d : ℤ} (hb : b < fpgaNumPgtableBuckets)
    (hd : (allocatedIn (setPte t b i pte) b : ℤ) = allocatedIn t b+d) :
    ∑ c ∈ Finset.range fpgaNumPgtableBuckets, (allocatedIn (setPte t b i pte) c : ℤ) =
      (∑ c ∈ Finset.range fpgaNumPgtableBuckets, (allocatedIn t c : ℤ))+d := by
  have hmem := Finset.mem_range.mpr hb
  have hrest : ∑ c ∈ (Finset.range fpgaNumPgtableBuckets).erase b,
      (allocatedIn (setPte t b i pte) c : ℤ) =
        ∑ c ∈ (Finset.range fpgaNumPgtableBuckets).erase b, (allocatedIn t c : ℤ) :=
    Finset.sum_congr rfl fun c hc => by rw [allocated_other pte (Finset.ne_of_mem_erase hc)]
  rw [← Finset.add_sum_erase _ _ hmem,← Finset.add_sum_erase _ _ hmem,hrest,hd]
  ring

lemma bucket_lt (addr : ℕ) : addrToBucketIndex addr < fpgaNumPgtableBuckets :=
  Nat.mod_lt _ (by decide)

end

section

variable {s s' : Soc} {b : ℕ} {i : Fin 16}

lemma books_congr (h : Books s) (hshadow : s'.shadow = s.shadow) (hinfo : s'.info = s.info)
    (hcount : s'.nrAllocatedPtes = s.nrAllocatedPtes) : Books s' := by
  refine ⟨?_,?_,?_,?_,?_⟩
  · rw [hinfo,hshadow]
    exact h.free
  · rw [hinfo]
    exact h.conflicts
  · rw [hinfo]
    exact h.full
  · rw [hshadow]
    exact h.bound
  · rw [hcount,hshadow]
    exact h.total

lemma books_zap_shadow (h : Books s) (hall : (s.shadow b i).allocated = true)
    (hrun : zapShadowPte s b i = .ok s') : Books s' := by
  have hclear := allocated_clear (t := s.shadow) (b := b) (i := i)
    ⟨(s.shadow b i).ppa,false,false,0⟩ hall rfl
  rw [zap_shadow_frame hall hrun]
  refine ⟨fun c => ?_,fun c => ?_,fun c => ?_,fun c j => ?_,?_⟩
  · by_cases hc : c = b
    · subst hc
      have hold := h.free c
      simp only [update_self]
      omega
    · simp only [update_of_ne hc,allocated_other _ hc]
      exact h.free c
  · by_cases hc : c = b
    · subst hc
      simp [h.conflicts c]
    · simp only [update_of_ne hc]
      exact h.conflicts c
  · by_cases hc : c = b
    · subst hc
      simp
    · simp only [update_of_ne hc]
      exact h.full c
  · simp only [pte_set]
    split
    · intro hno
      cases hno
    · exact h.bound c j
  · have htotal := h.total
    have hsum := total_set (i := i) ⟨(s.shadow b i).ppa,false,false,0⟩ (d := -1)
      (h.bound b i hall) (t := s.shadow) (by omega)
    show s.nrAllocatedPtes-1 = _
    rw [hsum,htotal]
    ring

lemma zap_pte_frame (hrun : zapPte s b i = .ok s') :
    s' = { s with fpga := s'.fpga, zone := s'.zone } := by
  unfold zapPte at hrun
  dsimp only at hrun
  split_ifs at hrun
  · obtain ⟨zone,-,hpure⟩ := (bind_ok_iff _ _ _).mp hrun
    cases hpure
    rfl
  · cases hrun
    rfl
  · cases hrun
    rfl

lemma books_zap (h : Books s) (hall : (s.shadow b i).allocated = true)
    (hrun : zapBoth zapShadowPte s b i = .ok s') : Books s' := by
  obtain ⟨t,ht,hs'⟩ := (bind_ok_iff _ _ _).mp hrun
  rw [zap_pte_frame hs']
  exact books_congr (books_zap_shadow h hall ht) rfl rfl rfl

lemma books_conflict (h : Books s) (hfull : (s.info b).nrFree = 0) (ci : ConflictInfo) :
    Books (setInfo s b { s.info b with conflicts := ci::(s.info b).conflicts
                                       nrConflicts := (s.info b).nrConflicts+1 }) := by
  refine ⟨fun c => ?_,fun c => ?_,fun c => ?_,h.bound,h.total⟩ <;> by_cases hc : c = b
  · subst hc
    simp only [setInfo,update_self]
    exact h.free c
  · simp only [setInfo,update_of_ne hc]
    exact h.free c
  · subst hc
    simp [setInfo,h.conflicts c]
  · simp only [setInfo,update_of_ne hc]
    exact h.conflicts c
  · subst hc
    simp only [setInfo,update_self]
    exact fun _ => hfull
  · simp only [setInfo,update_of_ne hc]
    exact h.full c

lemma books_take {t : Soc} {pid addr : ℕ} (h : Books s)
    (hrun : allocOneShadowPte s pid addr = some (t,i)) : Books t := by
  obtain ⟨j,hslot,heq⟩ := Option.map_eq_some_iff.mp hrun
  obtain ⟨rfl,rfl⟩ := Prod.mk.inj heq
  have hno := slot_free hslot
  have hb := bucket_lt addr
  generalize addrToBucketIndex addr = b at hno hb ⊢
  have htake := allocated_take ⟨(s.shadow b j).ppa,true,false,generateTag pid addr⟩ hno rfl
  have hle := allocated_add_free (setPte s.shadow b j
    ⟨(s.shadow b j).ppa,true,false,generateTag pid addr⟩) b
  have hold := h.free b
  refine ⟨fun c => ?_,fun c => ?_,fun c => ?_,fun c k => ?_,?_⟩
  · by_cases hc : c = b
    · subst hc
      simp only [setInfo,update_self]
      omega
    · simp only [setInfo,update_of_ne hc,allocated_other _ hc]
      exact h.free c
  · by_cases hc : c = b
    · subst hc
      simp only [setInfo,update_self]
      exact h.conflicts c
    · simp only [setInfo,update_of_ne hc]
      exact h.conflicts c
  · by_cases hc : c = b
    · subst hc
      simp only [setInfo,update_self]
      intro hne
      have := h.full c hne
      omega
    · simp only [setInfo,update_of_ne hc]
      exact h.full c
  · simp only [pte_set]
    split
    · next hck =>
      intro _
      rw [hck.1]
      exact hb
    · exact h.bound c k
  · have hsum := total_set (i := j) (d := 1) (t := s.shadow)
      ⟨(s.shadow b j).ppa,true,false,generateTag pid addr⟩ hb (by omega)
    show s.nrAllocatedPtes+1 = _
    rw [hsum,h.total]

lemma alloc_fpga_frame {vmFlags : ℕ} (hrun : allocOneFpgaPte s b i vmFlags = .ok s') :
    s' = { s with fpga := s'.fpga, zone := s'.zone } := by
  unfold allocOneFpgaPte at hrun
  dsimp only at hrun
  split_ifs at hrun
  · cases hrun
    rfl
  · obtain ⟨⟨zone,free⟩,-,hrest⟩ := (bind_ok_iff _ _ _).mp hrun
    dsimp only at hrest
    split_ifs at hrest
    · cases hrest
      rfl
    · cases hrest
      rfl
  · cases hrun
    rfl

lemma books_alloc {pid addr vmFlags : ℕ} (h : Books s)
    (hrun : allocPte s pid addr vmFlags = .ok s') : Books s' := by
  unfold allocPte at hrun
  cases hslot : allocOneShadowPte s pid addr with
  | none =>
    rw [hslot] at hrun
    cases hrun
    exact h
  | some x =>
    rw [hslot] at hrun
    rw [alloc_fpga_frame hrun]
    exact books_congr (books_take h hslot) rfl rfl rfl

/-! The two tables -/

lemma sync_set {shadow fpga : Table} {pte pte' : LegoMemPte}
    (h : ∀ c j, (fpga c j).allocated = (shadow c j).allocated ∧ (fpga c j).tag = (shadow c j).tag)
    (hall : pte'.allocated = pte.allocated) (htag : pte'.tag = pte.tag) (c : ℕ) (j : Fin 16) :
    (setPte fpga b i pte' c j).allocated = (setPte shadow b i pte c j).allocated ∧
      (setPte fpga b i pte' c j).tag = (setPte shadow b i pte c j).tag := by
  rw [pte_set,pte_set]
  split
  · exact ⟨hall,htag⟩
  · exact h c j

lemma sync_zap (h : Sync s) (hall : (s.shadow b i).allocated = true)
    (hrun : zapBoth zapShadowPte s b i = .ok s') : Sync s' := by
  obtain ⟨t,ht,hs'⟩ := (bind_ok_iff _ _ _).mp hrun
  have hframe := zap_shadow_frame hall ht
  have hfpga : t.fpga = s.fpga := by rw [hframe]
  have hshadow : t.shadow = setPte s.shadow b i ⟨(s.shadow b i).ppa,false,false,0⟩ := by rw [hframe]
  have hyes : (t.fpga b i).allocated = true := by rw [hfpga,(h b i).1,hall]
  unfold zapPte at hs'
  dsimp only at hs'
  rw [if_pos hyes] at hs'
  split_ifs at hs'
  · obtain ⟨zone,-,hpure⟩ := (bind_ok_iff _ _ _).mp hs'
    cases hpure
    intro c j
    simp only [setFpga,hfpga,hshadow]
    refine sync_set h ?_ ?_ c j <;> rfl
  · cases hs'
    intro c j
    simp only [setFpga,hfpga,hshadow]
    refine sync_set h ?_ ?_ c j <;> rfl

lemma sync_alloc {pid addr vmFlags : ℕ} (h : Sync s)
    (hrun : allocPte s pid addr vmFlags = .ok s') : Sync s' := by
  unfold allocPte at hrun
  cases hslot : freeSlot s (addrToBucketIndex addr) with
  | none =>
    rw [allocOneShadowPte,hslot] at hrun
    cases hrun
    exact h
  | some i =>
    rw [allocOneShadowPte,hslot] at hrun
    have hno : ¬(s.fpga (addrToBucketIndex addr) i).allocated = true := by
      rw [(h _ i).1,slot_free hslot]
      simp
    simp only [Option.map_some,allocOneFpgaPte,setInfo] at hrun
    rw [if_neg hno] at hrun
    have htag : (setPte s.shadow (addrToBucketIndex addr) i
        ⟨(s.shadow (addrToBucketIndex addr) i).ppa,true,false,generateTag pid addr⟩
          (addrToBucketIndex addr) i).tag = generateTag pid addr := by
      simp [setPte]
    rw [htag] at hrun
    split_ifs at hrun
    · obtain ⟨⟨zone,free⟩,-,hrest⟩ := (bind_ok_iff _ _ _).mp hrun
      dsimp only at hrest
      split_ifs at hrest
      · cases hrest
        exact fun c j => sync_set h (by rfl) (by rfl) c j
      · cases hrest
        exact fun c j => sync_set h (by rfl) (by rfl) c j
    · cases hrun
      exact fun c j => sync_set h (by rfl) (by rfl) c j

lemma books_stable (paired : Prop) : Stable fun s => Books s ∧ (paired → Sync s) where
  vregion _ _ _ h := ⟨books_congr h.1 rfl rfl rfl,h.2⟩
  zap _ _ _ _ h hall hrun := ⟨books_zap h.1 hall hrun,fun hp => sync_zap (h.2 hp) hall hrun⟩
  conflict _ _ ci h hfull := ⟨books_conflict h.1 hfull ci,h.2⟩

end

inductive Act where
  | allocShadow (pid addr : ℕ)
  | zapShadow (b : ℕ) (i : Fin 16)
  | check (pid idx addr len : ℕ)
  /-- The entry is taken in both tables. -/
  | alloc (pid addr vmFlags : ℕ)
  /-- The entry is cleared in both tables. -/
  | zap (b : ℕ) (i : Fin 16)
  deriving DecidableEq, Repr

def exec (s : Soc) : Act → Option Soc
  | .allocShadow pid addr => some ((allocOneShadowPte s pid addr).elim s Prod.fst)
  | .zapShadow b i =>
      if (s.shadow b i).allocated then (zapShadowPte s b i).toOption else none
  | .check pid idx addr len =>
      (checkAndInsertShadowConflicts s pid idx addr len).toOption.map Prod.fst
  | .alloc pid addr vmFlags => (allocPte s pid addr vmFlags).toOption
  | .zap b i => if (s.shadow b i).allocated then (zapBoth zapShadowPte s b i).toOption else none

def Paired : Act → Prop
  | .allocShadow _ _ => False
  | .zapShadow _ _ => False
  | _ => True

/-- Both page tables are reset, the rest of the board may be anything. -/
def initTables (s : Soc) : Soc :=
  { s with
    shadow := fun _ _ => ⟨0,false,false,0⟩
    fpga := fun _ _ => ⟨0,false,false,0⟩
    info := fun _ => ⟨fpgaNumPtePerBucket,0,[]⟩
    nrAllocatedPtes := 0 }

lemma books_init (s : Soc) : Books (initTables s) ∧ Sync (initTables s) := by
  have hnone : ∀ b, allocatedIn (initTables s).shadow b = 0 := by
    intro b
    simp [allocatedIn,initTables]
  refine ⟨⟨fun b => ?_,fun b => rfl,fun b hne => absurd rfl hne,fun b i hall => ?_,?_⟩,
    fun b i => ⟨rfl,rfl⟩⟩
  · rw [hnone]
    rfl
  · cases hall
  · simp only [hnone]
    simp [initTables]

lemma step_books {s u : Soc} {act : Act} (h : Books s) (hrun : exec s act = some u) :
    Books u := by
  cases act with
  | allocShadow pid addr =>
    cases hrun
    cases hslot : allocOneShadowPte s pid addr with
    | none => exact h
    | some x => exact books_take h hslot
  | zapShadow b i =>
    dsimp only [exec] at hrun
    split_ifs at hrun with hall
    exact books_zap_shadow h hall (to_option_eq hrun)
  | check pid idx addr len =>
    obtain ⟨⟨t,found⟩,ht,rfl⟩ := Option.map_eq_some_iff.mp hrun
    exact (check_stable (books_stable False) ⟨h,False.elim⟩ (to_option_eq ht)).1
  | alloc pid addr vmFlags => exact books_alloc h (to_option_eq hrun)
  | zap b i =>
    dsimp only [exec] at hrun
    split_ifs at hrun with hall
    exact books_zap h hall (to_option_eq hrun)

lemma step_sync {s u : Soc} {act : Act} (h : Books s ∧ Sync s) (hp : Paired act)
    (hrun : exec s act = some u) : Sync u := by
  cases act with
  | allocShadow pid addr | zapShadow b i => exact hp.elim
  | check pid idx addr len =>
    obtain ⟨⟨t,found⟩,ht,rfl⟩ := Option.map_eq_some_iff.mp hrun
    exact (check_stable (books_stable True) ⟨h.1,fun _ => h.2⟩ (to_option_eq ht)).2 trivial
  | alloc pid addr vmFlags => exact sync_alloc h.2 (to_option_eq hrun)
  | zap b i =>
    dsimp only [exec] at hrun
    split_ifs at hrun with hall
    exact sync_zap h.2 hall (to_option_eq hrun)

/-- The counters agree with the entries in every run, and the tables if steps come in pairs. -/
theorem run_books (s0 s : Soc) (acts : List Act) (hrun : run exec acts (initTables s0) = some s) :
    Books s ∧ ((∀ act ∈ acts, Paired act) → Sync s) := by
  have hinit := books_init s0
  refine ⟨run_preserves exec Books (fun _ _ _ => step_books) acts _ s hinit.1 hrun,fun hall => ?_⟩
  refine (run_invariant exec (fun _ act => Paired act) (fun s => Books s ∧ Sync s) ?_ acts _ s hinit
    (guarded_of_forall exec _ acts _ fun act hact _ => hall act hact) hrun).2
  exact fun t act u ht hp hu => ⟨step_books ht.1 hu,step_sync ht hp hu⟩

theorem run_books_page : ∃ s, run exec [.alloc 1 0x400000 0,.check 1 0 0x400000 0x400000,
    .zap 1 0] (initTables Board.bootSoc) = some s ∧ Books s ∧ Sync s := by
  have hrun : (run exec [.alloc 1 0x400000 0,.check 1 0 0x400000 0x400000,
      .zap 1 0] (initTables Board.bootSoc)).isSome = true := by decide +kernel
  obtain ⟨s,hs⟩ := Option.isSome_iff_exists.mp hrun
  obtain ⟨hbooks,hsync⟩ := run_books Board.bootSoc s _ hs
  refine ⟨s,hs,hbooks,hsync fun act hact => ?_⟩
  simp only [List.mem_cons,List.not_mem_nil,or_false] at hact
  rcases hact with rfl | rfl | rfl <;> trivial

/-- A shadow entry taken without its sister: the tables differ there. -/
theorem shadow_alone_differs : ∃ s, run exec [.allocShadow 1 0x400000]
    (initTables Board.bootSoc) = some s ∧ ¬Sync s :=
  ⟨_,rfl,fun hsync => absurd (hsync 1 0).1 (by decide +kernel)⟩

end Clio.Accounting
