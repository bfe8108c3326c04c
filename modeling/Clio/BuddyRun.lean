import Clio.BuddyZone
import Clio.Machine

/-!
# Runs of the buddy allocator

A caller asks for blocks and frees blocks it was given, each once. The blocks it has are kept beside
the zone.
-/

namespace Clio.BuddyRun

open VmArea Buddy Blocks BuddyZone Machine

structure Ledger where
  zone : FpgaZone
  /-- The frame and the order of each block the caller has. -/
  live : List (ℕ × ℕ)

inductive Call where
  | alloc (order : ℕ)
  | free (pfn order : ℕ)
  deriving DecidableEq, Repr

section

variable (cfg : Config)

/-- The caller only frees a block it has, with the order it asked for. -/
def exec (m : Ledger) : Call → Except Fault Ledger
  | .alloc order => do
      let (z,_) ← allocPfn cfg m.zone order
      return ⟨z,match (allocPage cfg m.zone order).2 with
        | none => m.live
        | some pfn => (pfn,order)::m.live⟩
  | .free pfn order =>
      if (pfn,order) ∈ m.live then do
        let z ← freePfn cfg m.zone pfn order
        return ⟨z,m.live.erase (pfn,order)⟩
      else return m

def runCalls (order : ℕ → ℕ) (calls : List Call) : Except Fault Ledger := do
  let z ← initBuddy cfg order
  calls.foldlM (exec cfg) ⟨z,[]⟩

end

/-- The managed frames are whole blocks of the largest order. -/
structure Managed (cfg : Config) : Prop where
  pos : 1 ≤ cfg.maxOrder
  le : cfg.startPfn ≤ cfg.maxPfn
  first : 2^(cfg.maxOrder-1) ∣ cfg.startPfn
  last : 2^(cfg.maxOrder-1) ∣ cfg.maxPfn

/-- What a reader of the lists, counters and flags can rely on. -/
structure Consistent (cfg : Config) (m : Ledger) : Prop where
  inside : ∀ k, ∀ p ∈ m.zone.freeList k, k < cfg.maxOrder ∧ 2^k ∣ p ∧ cfg.startPfn ≤ p ∧
    p+2^k ≤ cfg.maxPfn
  apart : ∀ k, ∀ p ∈ m.zone.freeList k, ∀ j, ∀ q ∈ m.zone.freeList j, (k,p) ≠ (j,q) →
    p+2^k ≤ q ∨ q+2^j ≤ p
  nodup : ∀ k, (m.zone.freeList k).Nodup
  head : ∀ k, ∀ p ∈ m.zone.freeList k, m.zone.pageMap p = ⟨true,k⟩
  count : ∀ k, m.zone.nrFree k = (m.zone.freeList k).length
  flagged : ∀ p, (m.zone.pageMap p).buddy = true → ∃ k, p ∈ m.zone.freeList k
  merged : ∀ k, k+1 < cfg.maxOrder → ∀ p ∈ m.zone.freeList k,
    findBuddyIndex p k ∉ m.zone.freeList k
  covers : ∀ x, pfnInRange cfg x ↔
    (∃ k, ∃ p ∈ m.zone.freeList k, p ≤ x ∧ x < p+2^k) ∨
      ∃ l ∈ m.live, l.1 ≤ x ∧ x < l.1+2^l.2
  taken : m.live.Pairwise fun a b => a.1+2^a.2 ≤ b.1 ∨ b.1+2^b.2 ≤ a.1
  separate : ∀ l ∈ m.live, ∀ k, ∀ p ∈ m.zone.freeList k, l.1+2^l.2 ≤ p ∨ p+2^k ≤ l.1

def block (l : ℕ × ℕ) : Block := ⟨l.2,l.1/2^l.2⟩

def Apart (a b : Block) : Prop := ∀ x ∈ a.pages, x ∉ b.pages

lemma apart_symm {a b : Block} (h : Apart a b) : Apart b a := fun x hb ha => h x ha hb

lemma apart_iff (a b : Block) :
    Apart a b ↔ a.start+2^a.order ≤ b.start ∨ b.start+2^b.order ≤ a.start := by
  have ha := Nat.two_pow_pos a.order
  have hb := Nat.two_pow_pos b.order
  constructor
  · intro h
    by_contra hover
    -- the later of the two starts is in both
    have hmax := h (max a.start b.start) (mem_pages.mpr ⟨by omega,by omega⟩)
    rw [mem_pages] at hmax
    omega
  · intro h x hxa hxb
    rw [mem_pages] at hxa hxb
    omega

lemma block_start (c : Block) : block (c.start,c.order) = c :=
  eq_of_start rfl (block_at (dvd_start c))

structure Account (cfg : Config) (m : Ledger) (S : Set Block) : Prop where
  rep : Rep m.zone S
  packed : Packed cfg.maxOrder S
  given : ∀ l ∈ m.live, ∃ b : Block, l = (b.start,b.order) ∧ b.order < cfg.maxOrder
  taken : m.live.Pairwise fun a b => Apart (block a) (block b)
  out : ∀ l ∈ m.live, ∀ x ∈ (block l).pages, x ∉ covered S
  range : ∀ x, pfnInRange cfg x ↔ x ∈ covered S ∨ ∃ l ∈ m.live, x ∈ (block l).pages

section

variable {cfg : Config} {m : Ledger} {S : Set Block}

lemma alloc_pfn_page {z u : FpgaZone} {order pfn : ℕ} (hr : pfnInRange cfg pfn)
    (h : allocPage cfg z order = (u,some pfn)) : allocPfn cfg z order = .ok (u,pfn) := by
  rw [allocPfn,h]
  exact if_pos hr

lemma account_give (h : Account cfg m S) {u : FpgaZone} {T : Set Block} {c : Block}
    (hu : Rep u T) (hc : Held cfg.maxOrder T c) (hcov : covered T ∪ c.pages = covered S) :
    Account cfg ⟨u,(c.start,c.order)::m.live⟩ T := by
  have hsub : ∀ x ∈ c.pages, x ∈ covered S := fun x hx => hcov ▸ .inr hx
  refine ⟨hu,hc.packed,?_,?_,?_,?_⟩
  · intro l hl
    rcases List.mem_cons.mp hl with rfl | hl
    · exact ⟨c,rfl,hc.order⟩
    · exact h.given l hl
  · refine List.pairwise_cons.mpr ⟨fun l hl => ?_,h.taken⟩
    rw [block_start]
    exact fun x hx hxl => h.out l hl x hxl (hsub x hx)
  · intro l hl x hx
    rcases List.mem_cons.mp hl with rfl | hl
    · rw [block_start] at hx
      exact hc.out x hx
    · exact fun hT => h.out l hl x hx (hcov ▸ .inl hT)
  · intro x
    rw [h.range,← hcov]
    simp only [List.mem_cons,exists_eq_or_imp,block_start,Set.mem_union,or_assoc]

lemma account_return (h : Account cfg m S) {u : FpgaZone} {T : Set Block} {b : Block}
    (hb : (b.start,b.order) ∈ m.live) (hu : Rep u T) (hT : Packed cfg.maxOrder T)
    (hcov : covered T = covered S ∪ b.pages) :
    Account cfg ⟨u,m.live.erase (b.start,b.order)⟩ T := by
  have hperm := List.perm_cons_erase hb
  have htaken := (hperm.pairwise_iff fun {_ _} hab => apart_symm hab).mp h.taken
  obtain ⟨hfirst,hrest⟩ := List.pairwise_cons.mp htaken
  refine ⟨hu,hT,?_,hrest,?_,?_⟩
  · exact fun l hl => h.given l (List.mem_of_mem_erase hl)
  · intro l hl x hx hxT
    rw [hcov] at hxT
    rcases hxT with hxS | hxb
    · exact h.out l (List.mem_of_mem_erase hl) x hx hxS
    · have hapart := hfirst l hl
      rw [block_start] at hapart
      exact hapart x hxb hx
  · intro x
    rw [h.range,hcov]
    have hlive : (∃ l ∈ m.live, x ∈ (block l).pages) ↔
        x ∈ b.pages ∨ ∃ l ∈ m.live.erase (b.start,b.order), x ∈ (block l).pages := by
      simp only [hperm.mem_iff,List.mem_cons,exists_eq_or_imp,block_start]
    rw [hlive,Set.mem_union,or_assoc]

lemma account_held (h : Account cfg m S) {b : Block} (hb : (b.start,b.order) ∈ m.live) :
    Held cfg.maxOrder S b ∧ pfnInRange cfg b.start := by
  have hout := h.out _ hb
  rw [block_start] at hout
  obtain ⟨c,hc,ho⟩ := h.given _ hb
  obtain ⟨-,horder⟩ := Prod.mk.inj hc
  refine ⟨⟨h.packed,horder ▸ ho,hout⟩,?_⟩
  rw [h.range]
  exact .inr ⟨_,hb,by rw [block_start]; exact start_mem b⟩

lemma step_account (m : Ledger) (c : Call) (h : ∃ S, Account cfg m S) :
    ∃ u, exec cfg m c = .ok u ∧ ∃ S, Account cfg u S := by
  obtain ⟨S,h⟩ := h
  cases c with
  | alloc order =>
    by_cases ho : order < cfg.maxOrder
    · rcases alloc_page_spec ho h.rep h.packed with ⟨heq,-⟩ | ⟨u,T,c,heq,hu,hc,hco,hcov⟩
      · refine ⟨m,?_,S,h⟩
        simp [exec,allocPfn,heq,pure,Except.pure,ok_bind]
      · have hr : pfnInRange cfg c.start := (h.range _).mpr (.inl (hcov ▸ .inr (start_mem c)))
        refine ⟨⟨u,(c.start,order)::m.live⟩,?_,T,?_⟩
        · simp [exec,alloc_pfn_page hr heq,heq,pure,Except.pure,ok_bind]
        · rw [← hco]
          exact account_give h hu hc hcov
    · refine ⟨m,?_,S,h⟩
      have hnone : allocPage cfg m.zone order = (m.zone,none) := if_pos (by omega)
      simp [exec,allocPfn,hnone,pure,Except.pure,ok_bind]
  | free pfn order =>
    by_cases hl : (pfn,order) ∈ m.live
    · obtain ⟨b,hb,-⟩ := h.given _ hl
      obtain ⟨rfl,rfl⟩ := Prod.mk.inj hb
      obtain ⟨hheld,hr⟩ := account_held h hl
      obtain ⟨u,T,hu,hrep,hT,hcov⟩ := free_pfn_held h.rep hheld hr
      refine ⟨⟨u,m.live.erase (b.start,b.order)⟩,?_,T,account_return h hl hrep hT hcov⟩
      rw [exec,if_pos hl,hu]
      rfl
    · exact ⟨m,if_neg hl,S,h⟩

end

section

variable {cfg : Config}

lemma ffs_dvd (word : ℕ) : 2^ffs word ∣ word := by
  have hbits : ∀ j < ffs word, word.testBit j = false := by
    intro j hj
    unfold ffs at hj
    cases hf : (List.range 64).find? fun i => word.testBit i with
    | none =>
      rw [hf,Option.getD_none] at hj
      have := List.find?_eq_none.mp hf j (List.mem_range.mpr hj)
      simpa using this
    | some i =>
      rw [hf,Option.getD_some] at hj
      have hi : i < 64 := List.mem_range.mp (List.mem_of_find?_eq_some hf)
      obtain ⟨-,as,bs,hsplit,hbefore⟩ := List.find?_eq_some_iff_append.mp hf
      have hjmem : j ∈ as := by
        have hlen : as.length = i := by
          have hget : (List.range 64)[as.length]? = some i := by
            rw [hsplit]
            simp
          have hlt : as.length < 64 := by
            have := congrArg List.length hsplit
            simp at this
            omega
          rw [List.getElem?_range hlt] at hget
          exact Option.some.inj hget
        have hget : (as++i::bs)[j]? = some j := by
          rw [← hsplit,List.getElem?_range (by omega)]
        rw [List.getElem?_append_left (by omega)] at hget
        exact List.mem_of_getElem? hget
      simpa using hbefore j hjmem
  apply Nat.dvd_of_mod_eq_zero
  apply Nat.eq_of_testBit_eq
  intro j
  rw [Nat.testBit_mod_two_pow,Nat.zero_testBit]
  by_cases hj : j < ffs word
  · rw [hbits j hj,Bool.and_false]
  · rw [decide_eq_false hj,Bool.false_and]

lemma adjust_order_spec (start last order : ℕ) (h : start < last) :
    adjustOrder start last order ≤ order ∧ start+2^adjustOrder start last order ≤ last := by
  induction order with
  | zero => exact ⟨le_rfl,by simpa [adjustOrder] using h⟩
  | succ order ih =>
    rw [adjustOrder]
    split_ifs with hpast
    · exact ⟨by omega,ih.2⟩
    · exact ⟨le_rfl,by omega⟩

lemma boot_block (hpos : 1 ≤ cfg.maxOrder) {pfn : ℕ} (hlt : pfn < cfg.maxPfn) :
    ∃ b : Block, b.start = pfn ∧
      b.order = adjustOrder pfn cfg.maxPfn (min (cfg.maxOrder-1) (ffs pfn)) ∧
      b.start+2^b.order ≤ cfg.maxPfn ∧ b.order < cfg.maxOrder := by
  obtain ⟨hle,hfit⟩ := adjust_order_spec pfn cfg.maxPfn (min (cfg.maxOrder-1) (ffs pfn)) hlt
  have hdvd := (Nat.pow_dvd_pow 2 (hle.trans (min_le_right _ _))).trans (ffs_dvd pfn)
  have hstart := block_at hdvd
  exact ⟨⟨_,_⟩,hstart,rfl,by rw [hstart]; exact hfit,by dsimp only; omega⟩

lemma initial_free_spec (hpos : 1 ≤ cfg.maxOrder) (n : ℕ) (z : FpgaZone) (S : Set Block)
    (pfn : ℕ) (hz : Rep z S) (hS : Packed cfg.maxOrder S) (hlo : cfg.startPfn ≤ pfn)
    (hhi : pfn ≤ cfg.maxPfn) (hn : cfg.maxPfn ≤ pfn+n)
    (hcov : ∀ x, x ∈ covered S ↔ cfg.startPfn ≤ x ∧ x < pfn) :
    ∃ u T, initialFreeLoop cfg n z pfn = .ok u ∧ Rep u T ∧ Packed cfg.maxOrder T ∧
      ∀ x, x ∈ covered T ↔ pfnInRange cfg x := by
  induction n generalizing z S pfn with
  | zero =>
    obtain rfl : pfn = cfg.maxPfn := by omega
    exact ⟨z,S,if_neg (lt_irrefl _),hz,hS,hcov⟩
  | succ n ih =>
    rw [initialFreeLoop]
    by_cases hlt : pfn < cfg.maxPfn
    · rw [if_pos hlt]
      obtain ⟨b,rfl,horder,hfit,ho⟩ := boot_block hpos hlt
      dsimp only
      rw [← horder]
      have hb : Held cfg.maxOrder S b := by
        refine ⟨hS,ho,fun x hx hxS => ?_⟩
        have := (mem_pages.mp hx).1
        have := ((hcov x).mp hxS).2
        omega
      obtain ⟨u,T,hu,hrep,hT,hcovT⟩ := free_pfn_held hz hb ⟨hlo,hlt⟩
      rw [hu,ok_bind]
      have hsize := Nat.two_pow_pos b.order
      refine ih u T _ hrep hT (by omega) hfit (by omega) fun x => ?_
      rw [hcovT,Set.mem_union,hcov,mem_pages]
      omega
    · rw [if_neg hlt]
      obtain rfl : pfn = cfg.maxPfn := by omega
      exact ⟨z,S,rfl,hz,hS,hcov⟩

lemma empty_rep (order : ℕ → ℕ) : Rep (emptyZone order) ∅ := by
  refine ⟨?_,?_,?_,?_,?_⟩ <;> simp [emptyZone]

lemma boot_account (h : Managed cfg) (order : ℕ → ℕ) :
    ∃ z, initBuddy cfg order = .ok z ∧ ∃ S, Account cfg ⟨z,[]⟩ S := by
  have hle := h.le
  have hempty : ∀ x, x ∈ covered ∅ ↔ cfg.startPfn ≤ x ∧ x < cfg.startPfn := by
    intro x
    rw [covered_empty,Set.mem_empty_iff_false,false_iff]
    omega
  obtain ⟨z,S,hz,hrep,hS,hcov⟩ := initial_free_spec h.pos (cfg.maxPfn-cfg.startPfn)
    (emptyZone order) ∅ cfg.startPfn (empty_rep order) packed_empty le_rfl hle (by omega) hempty
  refine ⟨z,?_,S,hrep,hS,by simp,.nil,by simp,fun x => by simp [hcov]⟩
  rw [initBuddy,initialFreePages,if_neg (by omega),hz]

lemma run_account (h : Managed cfg) (order : ℕ → ℕ) (calls : List Call) :
    ∃ m, runCalls cfg order calls = .ok m ∧ ∃ S, Account cfg m S := by
  obtain ⟨z,hz,hacc⟩ := boot_account h order
  obtain ⟨m,hm,hinv⟩ := foldlM_total (exec cfg) (fun m => ∃ S, Account cfg m S) calls
    (fun s c _ hs => step_account s c hs) ⟨z,[]⟩ hacc
  exact ⟨m,by rw [runCalls,hz,ok_bind,hm],hinv⟩

end

section

variable {cfg : Config} {m : Ledger} {S : Set Block}

lemma free_blocks (h : Rep m.zone S) {k p : ℕ} (hp : p ∈ m.zone.freeList k) :
    ∃ b ∈ S, b.order = k ∧ b.start = p := (h.mem k p).mp hp

lemma covered_iff (h : Rep m.zone S) (x : ℕ) :
    x ∈ covered S ↔ ∃ k, ∃ p ∈ m.zone.freeList k, p ≤ x ∧ x < p+2^k := by
  constructor
  · rintro ⟨b,hb,hx⟩
    exact ⟨b.order,b.start,(h.mem _ _).mpr ⟨b,hb,rfl,rfl⟩,mem_pages.mp hx⟩
  · rintro ⟨k,p,hp,hx⟩
    obtain ⟨b,hb,rfl,rfl⟩ := free_blocks h hp
    exact ⟨b,hb,mem_pages.mpr hx⟩

lemma live_pages (h : Account cfg m S) {l : ℕ × ℕ} (hl : l ∈ m.live) (x : ℕ) :
    x ∈ (block l).pages ↔ l.1 ≤ x ∧ x < l.1+2^l.2 := by
  obtain ⟨b,rfl,-⟩ := h.given l hl
  rw [block_start,mem_pages]

lemma live_start (h : Account cfg m S) {l : ℕ × ℕ} (hl : l ∈ m.live) :
    (block l).start = l.1 ∧ (block l).order = l.2 := by
  obtain ⟨b,rfl,-⟩ := h.given l hl
  rw [block_start]
  exact ⟨rfl,rfl⟩

lemma consistent_of_account (h : Account cfg m S) : Consistent cfg m := by
  have hmem : ∀ b ∈ S, b.start ∈ m.zone.freeList b.order :=
    fun b hb => (h.rep.mem _ _).mpr ⟨b,hb,rfl,rfl⟩
  refine ⟨?_,?_,h.rep.nodup,?_,h.rep.count,?_,?_,?_,?_,?_⟩
  · intro k p hp
    obtain ⟨b,hb,rfl,rfl⟩ := free_blocks h.rep hp
    have hsize := Nat.two_pow_pos b.order
    have hin : ∀ x ∈ b.pages, pfnInRange cfg x := fun x hx => (h.range x).mpr (.inl ⟨b,hb,hx⟩)
    have hfirst := (hin b.start (start_mem b)).1
    have hlast := (hin (b.start+2^b.order-1) (mem_pages.mpr ⟨by omega,by omega⟩)).2
    exact ⟨h.packed.order b hb,dvd_start b,hfirst,by omega⟩
  · intro k p hp j q hq hne
    obtain ⟨b,hb,rfl,rfl⟩ := free_blocks h.rep hp
    obtain ⟨c,hc,rfl,rfl⟩ := free_blocks h.rep hq
    refine (apart_iff b c).mp fun x hxb hxc => hne ?_
    rw [h.packed.apart b hb c hc x hxb hxc]
  · intro k p hp
    obtain ⟨b,hb,rfl,rfl⟩ := free_blocks h.rep hp
    have hflag := (h.rep.flag b.start).mpr ⟨b,hb,rfl⟩
    have horder := h.rep.order b hb
    cases hpage : m.zone.pageMap b.start with
    | mk buddy order =>
      rw [hpage] at hflag horder
      rw [← horder,← hflag]
  · intro p hp
    obtain ⟨b,hb,rfl⟩ := (h.rep.flag p).mp hp
    exact ⟨b.order,hmem b hb⟩
  · intro k hk p hp hbuddy
    obtain ⟨b,hb,rfl,rfl⟩ := free_blocks h.rep hp
    rw [find_buddy_start] at hbuddy
    obtain ⟨c,hc,hco,hcs⟩ := free_blocks h.rep hbuddy
    have hcb : c = b.buddy := eq_of_start hco hcs
    exact h.packed.merged b hb hk (hcb ▸ hc)
  · intro x
    rw [h.range,covered_iff h.rep]
    refine or_congr_right (exists_congr fun l => and_congr_right fun hl => live_pages h hl x)
  · refine h.taken.imp_of_mem fun {a b} ha hb hab => ?_
    have hapart := (apart_iff _ _).mp hab
    rwa [(live_start h ha).1,(live_start h ha).2,(live_start h hb).1,(live_start h hb).2]
      at hapart
  · intro l hl k p hp
    obtain ⟨b,hb,rfl,rfl⟩ := free_blocks h.rep hp
    have hapart : Apart (block l) b := fun x hxl hxb => h.out l hl x hxl ⟨b,hb,hxb⟩
    have hends := (apart_iff _ _).mp hapart
    rwa [(live_start h hl).1,(live_start h hl).2] at hends

def used (m : Ledger) : Set ℕ := {x | ∃ l ∈ m.live, x ∈ (block l).pages}

lemma mem_used_iff (h : Account cfg m S) (x : ℕ) :
    x ∈ used m ↔ pfnInRange cfg x ∧ x ∉ covered S := by
  rw [h.range]
  refine ⟨fun ⟨l,hl,hx⟩ => ⟨.inr ⟨l,hl,hx⟩,h.out l hl x hx⟩,?_⟩
  rintro ⟨hfree | hused,hno⟩
  · exact absurd hfree hno
  · exact hused

end

/-- In every run the free blocks are well formed and partition the frames with those in use. -/
theorem run_consistent {cfg : Config} (h : Managed cfg) (order : ℕ → ℕ) (calls : List Call) :
    ∃ m, runCalls cfg order calls = .ok m ∧ Consistent cfg m := by
  obtain ⟨m,hm,S,hacc⟩ := run_account h order calls
  exact ⟨m,hm,consistent_of_account hacc⟩

lemma managed_four : Managed ⟨3,4,12⟩ := ⟨by decide,by decide,by decide,by decide⟩

theorem run_consistent_four :
    ∃ m, runCalls ⟨3,4,12⟩ (fun _ => 7) [.alloc 0,.alloc 1,.free 4 0] = .ok m ∧
      Consistent ⟨3,4,12⟩ m :=
  run_consistent managed_four _ _

/-- An allocation succeeds exactly if a block is large enough, and a free restores the lists. -/
theorem alloc_free_restores {cfg : Config} (h : Managed cfg) (hzero : 0 < cfg.startPfn)
    (order : ℕ → ℕ) (calls : List Call) (m : Ledger) (hrun : runCalls cfg order calls = .ok m)
    (k : ℕ) (hk : k < cfg.maxOrder) :
    ∃ z pfn, allocPfn cfg m.zone k = .ok (z,pfn) ∧
      (pfn = 0 ↔ ∀ j, k ≤ j → m.zone.freeList j = []) ∧
      (pfn ≠ 0 → 2^k ∣ pfn ∧ cfg.startPfn ≤ pfn ∧ pfn+2^k ≤ cfg.maxPfn ∧
        (∀ l ∈ m.live, l.1+2^l.2 ≤ pfn ∨ pfn+2^k ≤ l.1) ∧
        ∃ u, freePfn cfg z pfn k = .ok u ∧
          ∀ j p, p ∈ u.freeList j ↔ p ∈ m.zone.freeList j) := by
  obtain ⟨n,hn,S,hacc⟩ := run_account h order calls
  obtain rfl : m = n := Except.ok.inj (hrun.symm.trans hn)
  have hcons := consistent_of_account hacc
  rcases alloc_page_spec hk hacc.rep hacc.packed with ⟨heq,hnone⟩ | ⟨z,T,c,heq,hz,hc,rfl,hcov⟩
  · refine ⟨m.zone,0,by rw [allocPfn,heq],⟨fun _ j hj => ?_,fun _ => rfl⟩,
      fun hne => absurd rfl hne⟩
    -- a page in the list would be a block that the search had found
    refine List.eq_nil_iff_forall_not_mem.mpr fun p hp => ?_
    obtain ⟨b,hb,rfl,-⟩ := free_blocks hacc.rep hp
    have := hnone b hb
    omega
  · have hin : ∀ x ∈ c.pages, pfnInRange cfg x :=
      fun x hx => (hacc.range x).mpr (.inl (hcov ▸ .inr hx))
    have hr := hin c.start (start_mem c)
    have hsize := Nat.two_pow_pos c.order
    have hfirst : cfg.startPfn ≤ c.start := hr.1
    have hlast := (hin (c.start+2^c.order-1) (mem_pages.mpr ⟨by omega,by omega⟩)).2
    refine ⟨z,c.start,alloc_pfn_page hr heq,⟨fun hz0 => absurd hz0 (by omega),fun hnil => ?_⟩,
      fun _ => ⟨dvd_start c,hfirst,by omega,?_,?_⟩⟩
    · -- the block came out of a free block that is at least as large
      obtain ⟨d,hd,hcd⟩ := inside_of_full hacc.packed c hk fun x hx => hcov ▸ .inr hx
      have hmem := (hacc.rep.mem d.order d.start).mpr ⟨d,hd,rfl,rfl⟩
      rw [hnil d.order (order_le hcd)] at hmem
      exact absurd hmem List.not_mem_nil
    · intro l hl
      have hapart : Apart (block l) c := fun x hxl hxc =>
        hacc.out l hl x hxl (hcov ▸ .inr hxc)
      have hends := (apart_iff _ _).mp hapart
      rwa [(live_start hacc hl).1,(live_start hacc hl).2] at hends
    · obtain ⟨u,U,hu,hrep,hU,hcovU⟩ := free_pfn_held hz hc hr
      -- the freed zone covers what the zone covered, and that determines the blocks
      obtain rfl : U = S := packed_unique hU hacc.packed (hcovU.trans hcov)
      exact ⟨u,hu,fun j p => by rw [hrep.mem,hacc.rep.mem]⟩

theorem alloc_free_restores_four :
    ∃ m, runCalls ⟨3,4,12⟩ (fun _ => 7) [.alloc 0,.alloc 1,.free 4 0] = .ok m ∧
      ∃ z pfn, allocPfn ⟨3,4,12⟩ m.zone 0 = .ok (z,pfn) ∧
        (pfn = 0 ↔ ∀ j, 0 ≤ j → m.zone.freeList j = []) := by
  obtain ⟨m,hm,-⟩ := run_account managed_four (fun _ => 7) [.alloc 0,.alloc 1,.free 4 0]
  obtain ⟨z,pfn,hz,hiff,-⟩ := alloc_free_restores managed_four (by decide) _ _ m hm 0 (by decide)
  exact ⟨m,hm,z,pfn,hz,hiff⟩

/-- A double free is refused exactly if no free block that begins before it reaches it. -/
theorem double_free_refused_iff {cfg : Config} (h : Managed cfg) (order : ℕ → ℕ)
    (calls : List Call) (m : Ledger) (hrun : runCalls cfg order calls = .ok m) (pfn k x : ℕ)
    (ha : 2^k ∣ pfn) (hx : pfn ≤ x ∧ x < pfn+2^k)
    (hfree : ∃ j, ∃ q ∈ m.zone.freeList j, q ≤ x ∧ x < q+2^j) :
    (freePagesPrepare m.zone pfn k = true ∧ freePfn cfg m.zone pfn k = .ok m.zone) ↔
      pfnInRange cfg pfn ∧ ∀ j, ∀ q ∈ m.zone.freeList j, q < pfn → q+2^j ≤ pfn := by
  obtain ⟨n,hn,S,hacc⟩ := run_account h order calls
  obtain rfl : m = n := Except.ok.inj (hrun.symm.trans hn)
  obtain ⟨b,rfl,rfl⟩ : ∃ b : Block, b.start = pfn ∧ b.order = k :=
    ⟨⟨k,pfn/2^k⟩,block_at ha,rfl⟩
  rw [prepare_iff hacc.rep]
  constructor
  · rintro ⟨⟨c,hc,hlo,hhi⟩,hfreed⟩
    have hr : pfnInRange cfg b.start := by
      by_contra hr
      rw [freePfn,if_neg hr] at hfreed
      cases hfreed
    refine ⟨hr,fun j q hq hlt => ?_⟩
    obtain ⟨d,hd,rfl,rfl⟩ := free_blocks hacc.rep hq
    by_contra hreach
    have hbd : b.start ∈ d.pages := mem_pages.mpr ⟨by omega,by omega⟩
    rcases Nat.le_total d.order b.order with hle | hle
    · -- a smaller block that meets the freed one does not begin before it
      have := mem_pages.mp (pages_subset hle hbd (start_mem b) (start_mem d))
      omega
    · -- a larger block holds the whole freed block, so the head found is its own
      have hcd := pages_subset hle (start_mem b) hbd (mem_pages.mpr ⟨hlo,hhi⟩)
      obtain rfl := hacc.packed.apart c hc d hd c.start (start_mem c) hcd
      omega
  · rintro ⟨hr,hreach⟩
    obtain ⟨j,q,hq,hqx⟩ := hfree
    have hhead : b.start ≤ q := by
      by_contra hlt
      have := hreach j q hq (by omega)
      omega
    obtain ⟨c,hc,rfl,rfl⟩ := free_blocks hacc.rep hq
    have hprep : ∃ c ∈ S, b.start ≤ c.start ∧ c.start < b.start+2^b.order :=
      ⟨c,hc,hhead,by omega⟩
    refine ⟨hprep,?_⟩
    rw [freePfn,if_pos hr,freeOnePage,if_pos ((prepare_iff hacc.rep _ _).mpr hprep)]

theorem double_free_refused_four :
    ∃ m, runCalls ⟨3,4,12⟩ (fun _ => 7) [] = .ok m ∧
      ((freePagesPrepare m.zone 4 0 = true ∧ freePfn ⟨3,4,12⟩ m.zone 4 0 = .ok m.zone) ↔
        pfnInRange ⟨3,4,12⟩ 4 ∧ ∀ j, ∀ q ∈ m.zone.freeList j, q < 4 → q+2^j ≤ 4) := by
  obtain ⟨m,hm,S,hacc⟩ := run_account managed_four (fun _ => 7) []
  have hfree : ∃ j, ∃ q ∈ m.zone.freeList j, q ≤ 4 ∧ 4 < q+2^j := by
    rcases ((consistent_of_account hacc).covers 4).mp (by decide) with hfree | ⟨l,hl,-⟩
    · exact hfree
    · have hlive : m.live = [] := by
        obtain ⟨z,hz,-⟩ := boot_account managed_four fun _ => 7
        rw [runCalls,hz,ok_bind] at hm
        exact congrArg Ledger.live (Except.ok.inj hm.symm)
      rw [hlive] at hl
      exact absurd hl List.not_mem_nil
  exact ⟨m,hm,double_free_refused_iff managed_four _ _ m hm 4 0 4 (by decide) (by decide) hfree⟩

/-- The second half of a free block of order 1 is freed again and not refused. -/
theorem double_free_accepted :
    Managed ⟨2,2,4⟩ ∧
      ∃ m, runCalls ⟨2,2,4⟩ (fun _ => 0) [] = .ok m ∧ m.zone.freeList 1 = [2] ∧
        freePagesPrepare m.zone 3 0 = false ∧
        ∃ z, freePfn ⟨2,2,4⟩ m.zone 3 0 = .ok z ∧ z.freeList 0 = [3] ∧ z.freeList 1 = [2] :=
  ⟨⟨by decide,by decide,by decide,by decide⟩,
    _,rfl,by decide +kernel,by decide +kernel,_,rfl,by decide +kernel,by decide +kernel⟩

/-- The frames in use determine the free blocks, whatever the calls that led there. -/
theorem free_blocks_iff_used {cfg : Config} (h : Managed cfg) (order order' : ℕ → ℕ)
    (calls calls' : List Call) :
    ∃ m n, runCalls cfg order calls = .ok m ∧ runCalls cfg order' calls' = .ok n ∧
      ((∀ k p, p ∈ m.zone.freeList k ↔ p ∈ n.zone.freeList k) ↔ used m = used n) := by
  obtain ⟨m,hm,S,hS⟩ := run_account h order calls
  obtain ⟨n,hn,T,hT⟩ := run_account h order' calls'
  refine ⟨m,n,hm,hn,fun hfree => ?_,fun hused k p => ?_⟩
  · ext x
    simp only [mem_used_iff hS,mem_used_iff hT,covered_iff hS.rep,covered_iff hT.rep,hfree]
  · have hcov : covered S = covered T := by
      ext x
      have hx := mem_used_iff hS x
      rw [hused,mem_used_iff hT] at hx
      have hs := hS.range x
      have ht := hT.range x
      tauto
    -- blocks that cannot be merged are determined by what they cover
    obtain rfl := packed_unique hS.packed hT.packed hcov
    rw [hS.rep.mem,hT.rep.mem]

theorem free_blocks_iff_used_pair : ∃ m n,
    runCalls ⟨3,4,12⟩ (fun _ => 7) [.alloc 0,.alloc 0] = .ok m ∧
    runCalls ⟨3,4,12⟩ (fun _ => 0) [.alloc 1] = .ok n ∧
      ((∀ k p, p ∈ m.zone.freeList k ↔ p ∈ n.zone.freeList k) ↔ used m = used n) :=
  free_blocks_iff_used managed_four _ _ _ _

end Clio.BuddyRun
