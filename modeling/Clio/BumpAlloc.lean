import Clio.CtrlAlloc

/-!
# The area of modules on the board

Allocations by modules are cut from one area in the order they come.
-/

namespace Clio.BumpAlloc

open Ranges VmArea Pgtable FindVaRange VmRegion Machine Requests AllocReply Ctrl CtrlAlloc
open Board hiding Request handle exec

structure Call where
  pid : ℕ
  len : ℕ
  vmFlags : ℕ
  deriving DecidableEq, Repr

/-- A request with the reply to it. -/
structure Given where
  pid : ℕ
  addr : ℕ
  len : ℕ
  deriving DecidableEq, Repr

structure Ledger where
  sys : System
  given : List Given

def exec (m : Ledger) (c : Call) : Option Ledger :=
  (handleAllocFree m.sys c.pid mvIndex c.len c.vmFlags).toOption.map fun x =>
    ⟨x.1,m.given++[⟨c.pid,x.2.addr,c.len⟩]⟩

/-- The first request finds room for the area and lies in it, a later one fits what is left. -/
def HasRoom (m : Ledger) (c : Call) : Prop :=
  if m.sys.mvBaseVaddr = 0 then c.len ≤ mvBaseSize ∧ Room (openSystem m.sys c.pid) c.pid mvBaseSize
  else m.sys.mvBaseVaddr+c.len ≤ m.sys.mvBaseLimit

/-- The ranges are apart and in the area that their process obtained first. -/
structure Sound (m₀ : System) (m : Ledger) : Prop where
  apart : m.given.Pairwise fun a b => a.addr ≠ 0 → b.addr ≠ 0 →
    a.addr+a.len ≤ b.addr ∨ b.addr+b.len ≤ a.addr
  area : ∀ a ∈ m.given, a.addr ≠ 0 → ∃ u base idx,
    ctrlAlloc (openSystem m₀ a.pid) a.pid mvBaseSize 0 = .ok (u,base) ∧
    base ≤ a.addr ∧ a.addr+a.len ≤ base+mvBaseSize ∧
    ∀ x, a.addr ≤ x → x < a.addr+a.len → x ∈ covered (region m.sys.board.soc a.pid idx)

/-- The board is well formed and the area is not yet there. -/
structure Ready (m₀ : System) : Prop where
  state : StateInv m₀.board
  cache : CacheInRange m₀.cachedVregionIndex
  refs : ∀ pid r, m₀.board.refcount pid = some r → r ≠ 0
  fresh : m₀.mvBaseVaddr = 0

structure Filled (m₀ : System) (pid : ℕ) (m : Ledger) (base idx : ℕ) : Prop where
  first : ∃ u, ctrlAlloc (openSystem m₀ pid) pid mvBaseSize 0 = .ok (u,base)
  index : idx < nrVregions
  granted : Granted m.sys.board.soc pid idx mvBaseSize base
  alive : ∃ r, m.sys.board.refcount pid = some r ∧ r ≠ 0
  next : base ≤ m.sys.mvBaseVaddr ∧ m.sys.mvBaseVaddr ≤ base+mvBaseSize
  limit : m.sys.mvBaseLimit = base+mvBaseSize
  below : ∀ a ∈ m.given, a.pid = pid ∧ base ≤ a.addr ∧ a.addr+a.len ≤ m.sys.mvBaseVaddr
  apart : m.given.Pairwise fun a b => a.addr+a.len ≤ b.addr

section

variable {m₀ : System} {pid : ℕ} {m : Ledger} {base idx : ℕ}

lemma granted_word {s : Soc} (hidx : idx < nrVregions)
    (h : Granted s pid idx mvBaseSize base) : base ≠ 0 ∧ base+mvBaseSize < 2^64 := by
  have hlow := h.low
  have hhigh := h.high
  have hstart := start_va_pos idx
  have hend : vregionToEndVa idx ≤ 2^20*2^30 := Nat.mul_le_mul_right _ hidx
  exact ⟨by omega,by omega⟩

lemma filled_sound (h : Filled m₀ pid m base idx) : Sound m₀ m := by
  refine ⟨h.apart.imp fun hab _ _ => .inl hab,?_⟩
  intro a ha _
  obtain ⟨hpid,hlo,hhi⟩ := h.below a ha
  obtain ⟨u,hu⟩ := h.first
  have hnext := h.next
  have hcover := h.granted.covered
  refine ⟨u,base,idx,by rw [hpid,hu],hlo,by omega,?_⟩
  intro x hx1 hx2
  rw [hpid]
  exact hcover x (by omega) (by omega)

lemma filled_serve {v u : System} {c : Call} (hidx : idx < nrVregions)
    (hfirst : ∃ u, ctrlAlloc (openSystem m₀ pid) pid mvBaseSize 0 = .ok (u,base))
    (hgrant : Granted v.board.soc pid idx mvBaseSize base)
    (hlimit : v.mvBaseLimit = base+mvBaseSize) (hlo : base ≤ v.mvBaseVaddr)
    (hroom : v.mvBaseVaddr+c.len ≤ v.mvBaseLimit) (hpid : c.pid = pid)
    (hbelow : ∀ a ∈ m.given, a.pid = pid ∧ base ≤ a.addr ∧ a.addr+a.len ≤ v.mvBaseVaddr)
    (hapart : m.given.Pairwise fun a b => a.addr+a.len ≤ b.addr)
    (halive : ∃ r, (putProcInfo v.board pid).refcount pid = some r ∧ r ≠ 0)
    (hu : u = putSystem { v with mvBaseVaddr := (v.mvBaseVaddr+c.len)%2^64 } pid) :
    Filled m₀ pid ⟨u,m.given++[⟨c.pid,v.mvBaseVaddr,c.len⟩]⟩ base idx := by
  obtain ⟨-,hword⟩ := granted_word hidx hgrant
  have hnext : (v.mvBaseVaddr+c.len)%2^64 = v.mvBaseVaddr+c.len := Nat.mod_eq_of_lt (by omega)
  subst hu
  refine ⟨hfirst,hidx,?_,halive,?_,hlimit,?_,?_⟩
  · show Granted (putProcInfo v.board pid).soc pid idx mvBaseSize base
    rw [put_proc_soc]
    exact hgrant
  · show base ≤ (v.mvBaseVaddr+c.len)%2^64 ∧ (v.mvBaseVaddr+c.len)%2^64 ≤ base+mvBaseSize
    rw [hnext]
    omega
  · intro a ha
    show a.pid = pid ∧ base ≤ a.addr ∧ a.addr+a.len ≤ (v.mvBaseVaddr+c.len)%2^64
    rw [hnext]
    rcases List.mem_append.mp ha with ha | ha
    · obtain ⟨hp,hab,hae⟩ := hbelow a ha
      exact ⟨hp,hab,by omega⟩
    · obtain rfl := List.mem_singleton.mp ha
      exact ⟨hpid,hlo,le_rfl⟩
  · refine List.pairwise_append.mpr ⟨hapart,List.pairwise_singleton _ _,?_⟩
    intro a ha b hb
    obtain rfl := List.mem_singleton.mp hb
    exact (hbelow a ha).2.2

end

def Inv (m₀ : System) (pid : ℕ) (m : Ledger) : Prop :=
  m = ⟨m₀,[]⟩ ∨ ∃ base idx, Filled m₀ pid m base idx

section

variable {m₀ : System} {pid : ℕ} {m u : Ledger} {c : Call}

lemma exec_cases (hrun : exec m c = some u) :
    ∃ v, mvPrepare (openSystem m.sys c.pid) c.pid = .ok v ∧
      u = ⟨putSystem { v with mvBaseVaddr := (v.mvBaseVaddr+c.len)%2^64 } c.pid,
        m.given++[⟨c.pid,v.mvBaseVaddr,c.len⟩]⟩ := by
  obtain ⟨⟨s,reply⟩,hs,rfl⟩ := Option.map_eq_some_iff.mp hrun
  have hs := to_option_eq hs
  rw [handleAllocFree,if_pos rfl,handleAllocMv] at hs
  obtain ⟨v,hv,hpure⟩ := (bind_ok_iff _ _ _).mp hs
  cases hpure
  exact ⟨v,hv,rfl⟩

lemma put_alive {b b' : State} (h : b'.refcount = (openProc b pid).refcount)
    (hcount : ∀ r, b.refcount pid = some r → r ≠ 0) :
    ∃ r, (putProcInfo b' pid).refcount pid = some r ∧ r ≠ 0 := by
  rw [open_proc_refcount] at h
  have hself : b'.refcount pid = some ((b.refcount pid).getD 1+1) := by
    rw [h,Function.update_self]
  have hpos : (b.refcount pid).getD 1 ≠ 0 := by
    cases hr : b.refcount pid with
    | none => simp
    | some r => exact hcount r hr
  refine ⟨(b.refcount pid).getD 1,?_,hpos⟩
  rw [put_proc_refcount hself,Function.update_self,if_neg (by omega)]
  rfl

lemma reset_cache_mv (m : System) (pid : ℕ) : (resetCache m pid).mvBaseVaddr = m.mvBaseVaddr ∧
    (resetCache m pid).mvBaseLimit = m.mvBaseLimit := by
  unfold resetCache
  split <;> exact ⟨rfl,rfl⟩

lemma first_filled (h0 : Ready m₀) {v : System} (hpid : c.pid = pid)
    (hv : mvPrepare (openSystem m₀ pid) pid = .ok v) (hlen : c.len ≤ mvBaseSize)
    (hroom : Room (openSystem m₀ pid) pid mvBaseSize) :
    ∃ base idx, Filled m₀ pid
      ⟨putSystem { v with mvBaseVaddr := (v.mvBaseVaddr+c.len)%2^64 } pid,
        [⟨c.pid,v.mvBaseVaddr,c.len⟩]⟩ base idx := by
  have hzero : (openSystem m₀ pid).mvBaseVaddr = 0 := (reset_cache_mv m₀ pid).1.trans h0.fresh
  rw [mvPrepare,if_pos hzero] at hv
  obtain ⟨⟨w,addr⟩,hw,hpure⟩ := (bind_ok_iff _ _ _).mp hv
  cases hpure
  have hopen : StateInv (openSystem m₀ pid).board := open_proc_inv h0.state pid
  obtain ⟨-,-,-,hbase,hgrant⟩ := ctrl_alloc_spec hopen (reset_cache_range h0.cache pid) (by decide)
    (by decide) hw
  obtain ⟨idx,hgrant,hfirst⟩ := hgrant (hbase hroom)
  have hidx := hfirst.lt
  have hlimit : (addr+mvBaseSize)%2^64 = addr+mvBaseSize :=
    Nat.mod_eq_of_lt (granted_word hidx hgrant).2
  exact ⟨addr,idx,filled_serve (m := ⟨m₀,[]⟩) hidx ⟨w,hw⟩ hgrant hlimit le_rfl
    (by dsimp only; omega) hpid (by simp)
    .nil (put_alive (ctrl_alloc_refcount hw) (h0.refs pid)) rfl⟩

lemma next_filled {base idx : ℕ} (h : Filled m₀ pid m base idx) {v : System}
    (hpid : c.pid = pid) (hv : mvPrepare (openSystem m.sys pid) pid = .ok v)
    (hroom : m.sys.mvBaseVaddr+c.len ≤ m.sys.mvBaseLimit) :
    Filled m₀ pid ⟨putSystem { v with mvBaseVaddr := (v.mvBaseVaddr+c.len)%2^64 } pid,
      m.given++[⟨c.pid,v.mvBaseVaddr,c.len⟩]⟩ base idx := by
  obtain ⟨hvaddr,hlim⟩ := reset_cache_mv m.sys pid
  obtain ⟨hne,-⟩ := granted_word h.index h.granted
  obtain ⟨r,hr,hpos⟩ := h.alive
  obtain ⟨hlo,-⟩ := h.next
  have hold : (openSystem m.sys pid).mvBaseVaddr ≠ 0 := by
    rw [show (openSystem m.sys pid).mvBaseVaddr = _ from hvaddr]
    omega
  rw [mvPrepare,if_neg hold] at hv
  cases hv
  have hsoc : (openProc m.sys.board pid).soc = m.sys.board.soc := by
    rcases (open_proc_cases m.sys.board pid).2 with ⟨-,hsoc⟩ | ⟨hnone,-⟩
    · exact hsoc
    · rw [hr] at hnone
      cases hnone
  refine filled_serve h.index h.first (hsoc.symm ▸ h.granted) (hlim.trans h.limit)
    (hvaddr.symm ▸ hlo) (hvaddr.symm ▸ hlim.symm ▸ hroom) hpid
    (hvaddr.symm ▸ h.below) h.apart (put_alive rfl ?_) rfl
  intro k hk
  rw [hr] at hk
  cases hk
  exact hpos

lemma step_inv (h0 : Ready m₀) (h : Inv m₀ pid m) (hok : HasRoom m c ∧ c.pid = pid)
    (hrun : exec m c = some u) : Inv m₀ pid u := by
  obtain ⟨hroom,hpid⟩ := hok
  obtain ⟨v,hv,rfl⟩ := exec_cases hrun
  rw [hpid] at hv
  unfold HasRoom at hroom
  right
  rcases h with rfl | ⟨base,idx,hfilled⟩
  · rw [if_pos h0.fresh,hpid] at hroom
    have hfirst := first_filled h0 hpid hv hroom.1 hroom.2
    rwa [← hpid] at hfirst ⊢
  · have hne : m.sys.mvBaseVaddr ≠ 0 := by
      have := (granted_word hfilled.index hfilled.granted).1
      have := hfilled.next.1
      omega
    rw [if_neg hne] at hroom
    refine ⟨base,idx,?_⟩
    have hnext := next_filled hfilled hpid hv hroom
    rwa [← hpid] at hnext ⊢

end

/-- If all requests are of one process and fit, their ranges are apart and in its area. -/
theorem bump_alloc_sound (m₀ : System) (h0 : Ready m₀) (pid : ℕ) (cs : List Call) (m : Ledger)
    (hpid : ∀ c ∈ cs, c.pid = pid) (hok : Guarded exec HasRoom cs ⟨m₀,[]⟩)
    (hrun : run exec cs ⟨m₀,[]⟩ = some m) : Sound m₀ m := by
  have hinv : Inv m₀ pid m := run_invariant exec _ (Inv m₀ pid) (fun _ _ _ => step_inv h0) cs _ m
    (.inl rfl) (guarded_and exec HasRoom (fun c => c.pid = pid) cs _ hok hpid) hrun
  rcases hinv with rfl | ⟨base,idx,hfilled⟩
  · exact ⟨.nil,by simp⟩
  · exact filled_sound hfilled

lemma start_ready : Ready start :=
  ⟨state_boot,start_ctrl.cache,fun _ _ h => (Option.some_ne_none _ h.symm).elim,rfl⟩

lemma room_boot : Room (openSystem start 1) 1 mvBaseSize := by
  refine ⟨0,le_rfl,by decide,0x20000000,⟨⟨⟨by decide,by decide,fun r hr => ?_⟩,by decide⟩,
    fun p _ => ?_⟩⟩
  · change r ∈ vmas initVregion.toVmaTree at hr
    rw [good_init.2] at hr
    cases hr
  · show (16 : ℤ) ≠ 0
    decide

theorem bump_alloc_sound_two : ∃ m, run exec [⟨1,4096,0⟩,⟨1,8192,0⟩] ⟨start,[]⟩ = some m ∧
    m.given.map Given.addr = [0x20000000,0x20001000] ∧ Sound start m := by
  obtain ⟨u,hu,hne,hfit,hlast⟩ := exists_checked (run exec [⟨1,4096,0⟩] ⟨start,[]⟩) (fun u =>
    u.sys.mvBaseVaddr ≠ 0 ∧ u.sys.mvBaseVaddr+8192 ≤ u.sys.mvBaseLimit ∧
      (run exec [⟨1,8192,0⟩] u).any fun m => m.given.map Given.addr = [0x20000000,0x20001000])
    (by decide +kernel)
  obtain ⟨m,hm,haddr⟩ := exists_checked _ _ hlast
  have hall := (run_append exec [⟨1,4096,0⟩] [⟨1,8192,0⟩] _ _).mpr ⟨u,hu,hm⟩
  refine ⟨m,hall,haddr,bump_alloc_sound start start_ready 1 _ m (by simp)
    (guarded_concat exec HasRoom [⟨1,4096,0⟩] [⟨1,8192,0⟩] _ u ⟨?_,?_⟩ hu ⟨?_,?_⟩) hall⟩
  · exact (if_pos rfl).mpr ⟨by decide,room_boot⟩
  · cases exec ⟨start,[]⟩ ⟨1,4096,0⟩ <;> trivial
  · exact (if_neg hne).mpr hfit
  · cases exec u ⟨1,8192,0⟩ <;> trivial

/-- Process 2 gets memory of process 1, and a request that does not fit gets an address. -/
theorem bump_alloc_past_end :
    ∃ m, run exec [⟨1,0x10000000,0⟩,⟨2,0x400000,0⟩,⟨1,0x20000000,0⟩] ⟨start,[]⟩ = some m ∧
      m.given = [⟨1,0x20000000,0x10000000⟩,⟨2,0x30000000,0x400000⟩,⟨1,0x30400000,0x20000000⟩] ∧
      m.sys.mvBaseLimit = 0x40000000 ∧ m.sys.mvBaseVaddr = 0x50400000 :=
  exists_checked _ _ (by decide +kernel)

end Clio.BumpAlloc
