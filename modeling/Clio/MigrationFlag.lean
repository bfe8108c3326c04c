import Clio.Migration
import Clio.VmArea

/-!
# The migration flag of a vRegion

A migration marks the vRegion first and clears the mark at its end.
-/

namespace Clio.MigrationFlag

open Function Migration SessionTable VmArea Errno

/-- The monitor moves the vRegion and the thread gets a session with the new board. -/
def Completes (s : State) (dst : Board) (v : ℕ) (tid : BitVec 32) (exchange : Exchange)
    (answered : Bool) : Prop :=
  (s.vregion v).allocated = true ∧ (s.vregion v).migration = false ∧
  (∃ recv send, exchange = .replied recv send ∧
    (handleMigrationH2m s (migrationReq s dst v) recv send).2 = 0) ∧
  ((contextFindSession s tid dst).isSome ∨ answered = true)

section

variable {s u : State} {dst : Board} {v : ℕ} {tid : BitVec 32} {answered : Bool} {ret : ℤ}

lemma session_with_kept {p : ℕ} (h : sessionWith s dst tid answered = some (u,p)) :
    u.vregion = s.vregion ∧ u.owners = s.owners := by
  unfold sessionWith at h
  cases hfind : contextFindSession s tid dst with
  | some q =>
    rw [hfind] at h
    cases h
    exact ⟨rfl,rfl⟩
  | none =>
    simp only [hfind,legomemOpenSession] at h
    split_ifs at h
    cases h
    exact ⟨rfl,rfl⟩

lemma session_with_iff : (sessionWith s dst tid answered).isSome ↔
    (contextFindSession s tid dst).isSome ∨ answered = true := by
  unfold sessionWith
  cases contextFindSession s tid dst with
  | some q => simp
  | none => cases answered <;> simp [legomemOpenSession]

lemma move_session_flag (hv : (s.vregion v).migration = true)
    (h : moveSession s dst v tid answered = some (u,ret)) :
    ret = 0 ∧ u.owners = s.owners ∧ ((u.vregion v).migration = false ↔
      (contextFindSession s tid dst).isSome ∨ answered = true) := by
  obtain ⟨removed,hremoved,hrest⟩ := Option.bind_eq_some_iff.mp h
  have hiff : (sessionWith { s with sessions := removed.1 } dst tid answered).isSome ↔
      (contextFindSession s tid dst).isSome ∨ answered = true := by
    -- the removal changes links only
    obtain ⟨found,-,rfl⟩ := Option.map_eq_some_iff.mp hremoved
    rw [session_with_iff]
    cases found <;> rfl
  dsimp only at hrest
  cases hses : sessionWith { s with sessions := removed.1 } dst tid answered with
  | none =>
    rw [hses] at hrest hiff
    cases hrest
    refine ⟨rfl,rfl,?_⟩
    rw [← hiff]
    simp [hv]
  | some next =>
    obtain ⟨t,p⟩ := next
    obtain ⟨hvregion,howners⟩ := session_with_kept hses
    rw [hses] at hrest hiff
    obtain ⟨w,hw,he⟩ := Option.map_eq_some_iff.mp hrest
    cases he
    obtain ⟨sessions,-,rfl⟩ := Option.map_eq_some_iff.mp hw
    refine ⟨rfl,howners,?_⟩
    rw [← hiff]
    simp [setVregion]

lemma h2m_spec (req : MigrationReq) (recv send : ℤ) :
    (handleMigrationH2m s req recv send).1.vregion = s.vregion ∧
    ((handleMigrationH2m s req recv send).2 = 0 → (handleMigrationH2m s req recv send).1 =
        { s with owners := update s.owners req.vregionIndex req.dst }) ∧
    (handleMigrationH2m s req recv send).2 ≠ -EBUSY := by
  have hne : -EFAULT ≠ 0 ∧ -EFAULT ≠ -EBUSY ∧ (0 : ℤ) ≠ -EBUSY := by decide
  unfold handleMigrationH2m
  split_ifs <;> simp [hne]

def marked (s : State) (v : ℕ) : State := setVregion s v { s.vregion v with migration := true }

lemma marked_h2m (recv send : ℤ) :
    (handleMigrationH2m (marked s v) (migrationReq (marked s v) dst v) recv send).2 =
      (handleMigrationH2m s (migrationReq s dst v) recv send).2 := by
  have hreq : migrationReq (marked s v) dst v = migrationReq s dst v := by
    simp [migrationReq,marked,setVregion]
  rw [hreq]
  unfold handleMigrationH2m marked setVregion
  split_ifs <;> rfl

lemma marked_set : ((marked s v).vregion v).migration = true := by simp [marked,setVregion]

lemma migrate_marked (halloc : (s.vregion v).allocated = true)
    (hflag : (s.vregion v).migration = false) (exchange : Exchange) :
    legomemMigrationVregion s dst v tid exchange answered = match exchange with
      | .requestLost => some (marked s v,- Errno.EIO)
      | .replyLost recv send => some ((handleMigrationH2m (marked s v)
          (migrationReq (marked s v) dst v) recv send).1,- Errno.EIO)
      | .replied recv send =>
          let (t,ret) := handleMigrationH2m (marked s v) (migrationReq (marked s v) dst v) recv send
          if ret ≠ 0 then if (t.vregion v).board ∈ t.boards then some (t,ret) else none
          else moveSession t dst v tid answered := by
  unfold legomemMigrationVregion
  rw [if_neg (by simp [halloc]),if_neg (by simp [hflag])]
  rfl

lemma replied_flag {recv send : ℤ} (halloc : (s.vregion v).allocated = true)
    (hflag : (s.vregion v).migration = false)
    (h : legomemMigrationVregion s dst v tid (.replied recv send) answered = some (u,ret)) :
    ((u.vregion v).migration = false ↔ Completes s dst v tid (.replied recv send) answered) ∧
    (ret = 0 → u.owners = update s.owners v dst) ∧ ret ≠ -EBUSY := by
  rw [migrate_marked halloc hflag] at h
  obtain ⟨hvregion,hmoved,hbusy⟩ :=
    h2m_spec (s := marked s v) (migrationReq (marked s v) dst v) recv send
  dsimp only at h
  rw [marked_h2m] at h hmoved hbusy
  by_cases hcode : (handleMigrationH2m s (migrationReq s dst v) recv send).2 = 0
  · rw [if_neg (not_not_intro hcode)] at h
    obtain ⟨rfl,howners,hiff⟩ := move_session_flag (hvregion ▸ marked_set) h
    have hcontext : contextFindSession (handleMigrationH2m (marked s v)
        (migrationReq (marked s v) dst v) recv send).1 tid dst = contextFindSession s tid dst := by
      rw [hmoved hcode]
      rfl
    rw [hcontext] at hiff
    refine ⟨?_,fun _ => ?_,by decide⟩
    · simp [hiff,Completes,halloc,hflag,hcode]
    · rw [howners,hmoved hcode]
      rfl
  · rw [if_pos hcode] at h
    split_ifs at h
    cases h
    refine ⟨?_,fun he => absurd he hcode,hbusy⟩
    rw [hvregion]
    simp [marked_set,Completes,hcode]

lemma migrate_flag {exchange : Exchange}
    (h : legomemMigrationVregion s dst v tid exchange answered = some (u,ret)) :
    (ret ≠ -EBUSY → ((u.vregion v).migration = false ↔ Completes s dst v tid exchange answered ∨
        (s.vregion v).allocated = false ∧ (s.vregion v).migration = false)) ∧
    (ret = 0 → u.owners = update s.owners v dst) ∧
    (ret = -EBUSY → (s.vregion v).migration = true) := by
  cases halloc : (s.vregion v).allocated with
  | false =>
    rw [legomemMigrationVregion,if_pos (by simp [halloc])] at h
    cases h
    exact ⟨fun _ => by simp [Completes,halloc],fun he => absurd he (by decide),
      fun he => absurd he (by decide)⟩
  | true =>
    cases hflag : (s.vregion v).migration with
    | true =>
      rw [legomemMigrationVregion,if_neg (by simp [halloc]),if_pos hflag] at h
      cases h
      exact ⟨fun hne => absurd rfl hne,fun he => absurd he (by decide),fun _ => rfl⟩
    | false =>
      cases exchange with
      | requestLost =>
        rw [migrate_marked halloc hflag] at h
        cases h
        exact ⟨fun _ => by simp [marked_set,Completes],fun he => absurd he (by decide),
          fun he => absurd he (by decide)⟩
      | replyLost recv send =>
        rw [migrate_marked halloc hflag] at h
        cases h
        rw [(h2m_spec _ recv send).1]
        exact ⟨fun _ => by simp [marked_set,Completes],fun he => absurd he (by decide),
          fun he => absurd he (by decide)⟩
      | replied recv send =>
        obtain ⟨hiff,howners,hbusy⟩ := replied_flag halloc hflag h
        exact ⟨fun _ => by simp [hiff],howners,fun he => absurd he hbusy⟩

end

section

variable (dst : Board) (tid : BitVec 32) (outcome : ℕ → Exchange × Bool)

def migrateFrom : ℕ → State → ℕ → ℤ → Option (State × ℤ)
  | 0, s, _, ret => some (s,ret)
  | n+1, s, index, _ =>
      if index ≥ nrVregions then none
      else
        (legomemMigrationVregion s dst index tid (outcome index).1 (outcome index).2).bind
          fun (s,ret) => if ret ≠ 0 then some (s,ret) else migrateFrom n s (index+1) ret

def vaToVregionIndex (va : BitVec 64) : ℕ := va.toNat/vregionSize%2^32

/-- `ret` is what the variable holds before the loop, which the code does not set. -/
def legomemMigration (s : State) (addr size : BitVec 64) (ret : ℤ) : Option (State × ℤ) :=
  let start := vaToVregionIndex addr
  let stop := vaToVregionIndex (addr+size-1)
  migrateFrom dst tid outcome (stop+1-start) s start ret

lemma migrate_from_owners {n : ℕ} {s u : State} {index : ℕ} {ret : ℤ}
    (h : migrateFrom dst tid outcome n s index ret = some (u,0)) :
    ∀ v, u.owners v = if index ≤ v ∧ v < index+n then dst else s.owners v := by
  induction n generalizing s index ret with
  | zero =>
    cases h
    intro v
    rw [if_neg (by omega)]
  | succ n ih =>
    rw [migrateFrom] at h
    split_ifs at h
    obtain ⟨⟨t,code⟩,hcall,hrest⟩ := Option.bind_eq_some_iff.mp h
    dsimp only at hrest
    split_ifs at hrest with hcode
    · cases hrest
      exact absurd rfl hcode
    · have howners := (migrate_flag hcall).2.1 (not_not.mp hcode)
      intro v
      rw [ih hrest v,howners]
      by_cases hv : v = index
      · rw [hv,if_neg (by omega),if_pos (by omega),update_self]
      · rw [update_of_ne hv]
        exact if_congr (by omega) rfl rfl

lemma migrate_from_bound {n : ℕ} {s u : State} {index : ℕ} {ret : ℤ}
    (h : migrateFrom dst tid outcome (n+1) s index ret = some (u,0)) : index+n < nrVregions := by
  induction n generalizing s index ret with
  | zero =>
    rw [migrateFrom] at h
    split_ifs at h
    omega
  | succ n ih =>
    rw [migrateFrom] at h
    split_ifs at h
    obtain ⟨⟨t,code⟩,-,hrest⟩ := Option.bind_eq_some_iff.mp h
    dsimp only at hrest
    split_ifs at hrest with hcode
    · cases hrest
      exact absurd rfl hcode
    · have := ih hrest
      omega

/-- No thread has a session, and the vRegions from `index` on can be moved. -/
structure Movable (index : ℕ) (s : State) : Prop where
  sessions : s.sessions = start
  context : s.context = []
  dst : dst ∈ s.monitorBoards
  src : ∀ v ≥ index, (s.vregion v).allocated = true ∧ (s.vregion v).migration = false ∧
    (s.vregion v).board ∈ s.monitorBoards

lemma move_without_session {s : State} (v : ℕ) (hs : s.sessions = start) (hc : s.context = []) :
    moveSession s dst v tid false = some (s,0) := by
  cases s
  cases hs
  cases hc
  rfl

lemma movable_step {s : State} {index : ℕ} (h : Movable dst index s) :
    ∃ u, legomemMigrationVregion s dst index tid (.replied 0 0) false = some (u,0) ∧
      Movable dst (index+1) u := by
  obtain ⟨halloc,hflag,hsrc⟩ := h.src index le_rfl
  have hreq : (migrationReq (marked s index) dst index).src ∈ (marked s index).monitorBoards := by
    simpa [migrationReq,marked,setVregion] using hsrc
  have hdst : (migrationReq (marked s index) dst index).dst ∈
      (marked s index).monitorBoards := h.dst
  have hmoved : handleMigrationH2m (marked s index) (migrationReq (marked s index) dst index) 0 0 =
      ({ marked s index with owners := update s.owners index dst },0) := by
    rw [handleMigrationH2m,if_neg (not_not_intro hreq),if_neg (not_not_intro hdst)]
    rfl
  refine ⟨{ marked s index with owners := update s.owners index dst },?_,h.sessions,h.context,h.dst,
    fun v hv => ?_⟩
  · rw [migrate_marked halloc hflag]
    dsimp only
    rw [hmoved]
    exact move_without_session dst tid index h.sessions h.context
  · simpa [marked,setVregion,update_of_ne (show v ≠ index by omega)] using h.src v (by omega)

lemma movable_run {s : State} {index n : ℕ} (h : Movable dst index s)
    (hn : ∀ k < n, index+k < nrVregions) :
    ∃ u, migrateFrom dst tid (fun _ => (.replied 0 0,false)) n s index 0 = some (u,0) := by
  induction n generalizing s index with
  | zero => exact ⟨s,rfl⟩
  | succ n ih =>
    obtain ⟨m,hm,hnext⟩ := movable_step dst tid h
    obtain ⟨u,hu⟩ := ih hnext fun k hk => by
      have := hn (k+1) (by omega)
      omega
    refine ⟨u,?_⟩
    have hfirst : ¬index ≥ nrVregions := Nat.not_le_of_lt (hn 0 (by omega))
    rw [migrateFrom,if_neg hfirst,hm]
    exact hu

end

/-- The indices are truncated to 32 bits: they are those of a range below `2^62`, or the check of
the index stops the loop. -/
def RangeChecked (addr size : BitVec 64) : Prop :=
  size = 0 ∨ addr.toNat+size.toNat ≤ 2^62 ∨
    vaToVregionIndex addr ≤ vaToVregionIndex (addr+size-1) ∧
      nrVregions ≤ vaToVregionIndex (addr+size-1)

lemma range_moved {dst : Board} {tid : BitVec 32} {outcome : ℕ → Exchange × Bool} {s u : State}
    {addr size : BitVec 64} {garbage : ℤ} (hok : RangeChecked addr size)
    (h : legomemMigration dst tid outcome s addr size garbage = some (u,0)) {a : ℕ}
    (hlo : addr.toNat ≤ a) (hhi : a < addr.toNat+size.toNat) : u.owners (a/vregionSize) = dst := by
  have hsize : vregionSize = 2^30 := rfl
  rcases hok with rfl | hle | ⟨horder,hlast⟩
  · simp at hhi
    omega
  · have hstop : (addr+size-1).toNat = addr.toNat+size.toNat-1 := by
      bv_omega
    have hindex : ∀ va : BitVec 64, va.toNat < 2^62 →
        vaToVregionIndex va = va.toNat/vregionSize := by
      intro va hva
      rw [vaToVregionIndex,hsize,Nat.mod_eq_of_lt (by omega)]
    rw [migrate_from_owners dst tid outcome h,hindex addr (by omega),
      hindex (addr+size-1) (by omega),hstop]
    refine if_pos ⟨Nat.div_le_div_right hlo,?_⟩
    have hmono : a/vregionSize ≤ (addr.toNat+size.toNat-1)/vregionSize :=
      Nat.div_le_div_right (by omega)
    omega
  · unfold legomemMigration at h
    dsimp only at h
    rw [Nat.succ_sub horder] at h
    have := migrate_from_bound dst tid outcome h
    omega

/-- Boards other than `dst` have all vRegions and no thread has a session. -/
def elsewhere (dst : Board) : State :=
  { boot [] [⟨dst.ip+1,dst.port⟩,dst] (fun _ => ⟨dst.ip+1,dst.port⟩) with
    vregion := fun _ => ⟨⟨dst.ip+1,dst.port⟩,true,false⟩ }

lemma elsewhere_ne (dst : Board) : (⟨dst.ip+1,dst.port⟩ : Board) ≠ dst := by
  intro h
  have := congrArg Board.ip h
  bv_omega

lemma checked_of_moved {dst : Board} {addr size : BitVec 64}
    (h : ∀ s tid outcome garbage u,
      legomemMigration dst tid outcome s addr size garbage = some (u,0) →
      ∀ a, addr.toNat ≤ a → a < addr.toNat+size.toNat → u.owners (a/vregionSize) = dst) :
    RangeChecked addr size := by
  by_contra hnot
  unfold RangeChecked at hnot
  push Not at hnot
  obtain ⟨hsize,hlong,horder⟩ := hnot
  have hpos : 0 < size.toNat := by bv_omega
  obtain ⟨u,hu⟩ : ∃ u, legomemMigration dst 0 (fun _ => (.replied 0 0,false)) (elsewhere dst) addr
      size 0 = some (u,0) := by
    refine movable_run dst 0 ⟨rfl,rfl,by simp [elsewhere,boot],fun v _ => ⟨rfl,rfl,?_⟩⟩ ?_
    · simp [elsewhere,boot]
    · intro k hk
      have := horder (by omega)
      omega
  -- the last address lies behind all that the loop can reach
  have hlast := h _ _ _ _ u hu (addr.toNat+size.toNat-1) (by omega) (by omega)
  rw [migrate_from_owners dst 0 _ hu,if_neg ?_] at hlast
  · exact elsewhere_ne dst hlast
  · have hv : vregionSize = 2^30 := rfl
    have hindex : ∀ va, vaToVregionIndex va < 2^32 := fun va => Nat.mod_lt _ (by decide)
    have hstart := hindex addr
    have hstop := hindex (addr+size-1)
    rw [hv]
    omega

/-- The mark is clear after a call exactly if it completes or nothing was marked, and for these
ranges alone 0 means that the monitor has the new board for all of the range. -/
theorem flag_released_iff (s : State) (dst : Board) (tid : BitVec 32) :
    (∀ v exchange answered u ret,
      legomemMigrationVregion s dst v tid exchange answered = some (u,ret) → ret ≠ -EBUSY →
      ((u.vregion v).migration = false ↔ Completes s dst v tid exchange answered ∨
        (s.vregion v).allocated = false ∧ (s.vregion v).migration = false) ∧
      ∀ dst' tid' exchange' answered', (u.vregion v).allocated = true →
        ((u.vregion v).migration = true ↔
          legomemMigrationVregion u dst' v tid' exchange' answered' =
          some (u,-EBUSY))) ∧
    ∀ addr size, (∀ s tid outcome garbage u,
        legomemMigration dst tid outcome s addr size garbage = some (u,0) →
        ∀ a, addr.toNat ≤ a → a < addr.toNat+size.toNat → u.owners (a/vregionSize) = dst) ↔
      RangeChecked addr size := by
  constructor
  · intro v exchange answered u ret h hret
    refine ⟨(migrate_flag h).1 hret,fun dst' tid' exchange' answered' halloc => ?_⟩
    refine ⟨fun hflag => ?_,fun hbusy => (migrate_flag hbusy).2.2 rfl⟩
    rw [legomemMigrationVregion,if_neg (by simp [halloc]),if_pos hflag]
  · intro addr size
    exact ⟨checked_of_moved,fun hok s tid outcome garbage u h a => range_moved hok h⟩

def ownerHas : State :=
  { boot [⟨7,1⟩,⟨8,1⟩] [⟨7,1⟩,⟨8,1⟩] (fun _ => ⟨7,1⟩) with
    vregion := fun _ => ⟨⟨7,1⟩,true,false⟩ }

/-- After a refusal the mark stays; a range that wraps returns what the variable held. -/
theorem flag_stays : ∃ u w,
    legomemMigrationVregion ownerHas ⟨8,1⟩ 3 5 (.replied 1 0) true = some (u,-EFAULT) ∧
    (u.vregion 3).migration = true ∧
    legomemMigrationVregion u ⟨8,1⟩ 3 5 (.replied 0 0) true = some (u,-EBUSY) ∧
    legomemMigrationVregion ownerHas ⟨8,1⟩ 3 5 (.replied 0 0) false = some (w,0) ∧
    (w.vregion 3).migration = true ∧
    legomemMigration ⟨8,1⟩ 5 (fun _ => (.replied 0 0,true)) ownerHas (5*2^30) (2^64-2^31) 0 =
      some (ownerHas,0) :=
  ⟨_,_,rfl,rfl,rfl,rfl,rfl,rfl⟩

end Clio.MigrationFlag
