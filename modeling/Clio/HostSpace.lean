import Clio.HostAlloc
import Clio.Machine

/-!
# The space that a host keeps of its vRegions

Beside the context stand the sizes of the live allocations in each vRegion.
-/

namespace Clio.HostSpace

open Function List Machine MigrationFlag VmArea HostAlloc Errno
open Migration (Board)

/-- The list from here on; `avail_space` is compared as an unsigned long. -/
def searchFrom (ctx : Context) (size : ℕ) : List ℕ → Option ℕ
  | [] => none
  | v::vs =>
      if (ctx.vregion v).availSpace%2^64 ≥ size then some v
      else if (ctx.vregion v).availSpace = 0 then none
      else searchFrom ctx size vs

def findVregionCandidate (ctx : Context) (size : ℕ) : Option ℕ :=
  if ctx.nrNonzeroVregions = 0 then none else searchFrom ctx size ctx.allocList

/-- Neither the count nor the place on the list changes. -/
def legomemFree (ctx : Context) (addr : BitVec 64) (size : ℕ) (boardFound : Bool) (exchange : ℤ) :
    Context × ℤ :=
  let v := vaToVregionIndex addr
  if !boardFound then (ctx,-ENODEV)
  else if exchange ≤ 0 then (ctx,- Errno.EIO)
  else (setAvail ctx v (toInt ((ctx.vregion v).availSpace+size)),0)

structure Tracked where
  ctx : Context
  live : ℕ → ℕ

def avail (r : Tracked) (v : ℕ) : ℤ := (r.ctx.vregion v).availSpace

inductive Call where
  | alloc (tid size : ℕ) (answers : Answers)
  | free (addr : BitVec 64) (size : ℕ) (boardFound : Bool) (exchange : ℤ)

def exec (r : Tracked) : Call → Option Tracked
  | .alloc tid size answers =>
      let out := allocOutcome r.ctx tid size answers
      some ⟨out.1,match answers.monitor, out.2 with
        | some (_,v), .ok _ => update r.live v (r.live v+size)
        | _, _ => r.live⟩
  | .free addr size boardFound exchange =>
      let out := legomemFree r.ctx addr size boardFound exchange
      let v := vaToVregionIndex addr
      some ⟨out.1,if out.2 = 0 then update r.live v (r.live v-size) else r.live⟩

def start : Tracked := ⟨initLegomemContext,fun _ => 0⟩

/-- No allocation fails after it has taken a vRegion, and no full vRegion is freed. -/
def Clean (r : Tracked) : Call → Prop
  | .alloc tid size answers => 1 ≤ size ∧ size ≤ vregionSize ∧
      ∀ f, (allocOutcome r.ctx tid size answers).2 = .error f → f = .monitor ∨ f = .allocatedBefore
  | .free addr size boardFound exchange => size ≤ r.live (vaToVregionIndex addr) ∧
      (boardFound = true → 0 < exchange → 0 < avail r (vaToVregionIndex addr))

def Exact (r : Tracked) : Prop :=
  (∀ v, (r.ctx.vregion v).allocated = true → avail r v = vregionSize-r.live v) ∧
    r.ctx.nrNonzeroVregions = r.ctx.allocList.countP (0 < avail r ·) ∧
    ∀ size : ℕ, 1 ≤ size → size ≤ vregionSize → (∃ v ∈ r.ctx.allocList, size ≤ avail r v) →
      ∃ v ∈ r.ctx.allocList, findVregionCandidate r.ctx size = some v ∧ size ≤ avail r v

/-- Nothing positive is behind a zero. -/
def Front (f : ℕ → ℤ) (l : List ℕ) : Prop := l.Pairwise fun v w => 0 < f w → 0 < f v

structure Kept (r : Tracked) : Prop where
  listed : ∀ v, v ∈ r.ctx.allocList ↔ (r.ctx.vregion v).allocated = true
  space : ∀ v, avail r v = vregionSize-r.live v ∧ 0 ≤ avail r v
  unused : ∀ v, (r.ctx.vregion v).allocated = false → r.live v = 0
  front : Front (avail r) r.ctx.allocList
  count : r.ctx.nrNonzeroVregions = r.ctx.allocList.countP (0 < avail r ·)

lemma front_congr {f g : ℕ → ℤ} {l : List ℕ} (h : ∀ v ∈ l, 0 < f v ↔ 0 < g v)
    (hf : Front f l) : Front g l ∧ l.countP (0 < g ·) = l.countP (0 < f ·) := by
  refine ⟨hf.imp_of_mem fun hv hw himp => ?_,countP_congr fun v hv => ?_⟩
  · rwa [← h _ hv,← h _ hw]
  · simpa using (h v hv).symm

section

variable {r : Tracked} (h : Kept r)
include h

lemma search_complete {size : ℕ} (hsize : 1 ≤ size) (l : List ℕ) (hl : Front (avail r) l)
    (hfit : ∃ v ∈ l, size ≤ avail r v) :
    ∃ v ∈ l, searchFrom r.ctx size l = some v ∧ size ≤ avail r v := by
  induction l with
  | nil => simp at hfit
  | cons v l ih =>
    obtain ⟨hhead,htail⟩ := pairwise_cons.mp hl
    obtain ⟨hspace,hnonneg⟩ := h.space v
    have hregion : vregionSize = 2^30 := rfl
    have hmod : (r.ctx.vregion v).availSpace%2^64 = avail r v :=
      Int.emod_eq_of_lt hnonneg (show avail r v < 2^64 by omega)
    rw [searchFrom,hmod]
    by_cases hle : (size : ℤ) ≤ avail r v
    · exact ⟨v,by simp,if_pos hle,hle⟩
    · obtain ⟨w,hw,hwle⟩ : ∃ w ∈ l, size ≤ avail r w := by simpa [hle] using hfit
      have hpos : (r.ctx.vregion v).availSpace ≠ 0 := (hhead w hw (by omega)).ne'
      rw [if_neg hle,if_neg hpos]
      obtain ⟨x,hx,hfound⟩ := ih htail ⟨w,hw,hwle⟩
      exact ⟨x,by simp [hx],hfound⟩

lemma kept_exact : Exact r := by
  refine ⟨fun v _ => (h.space v).1,h.count,fun size hsize _ hfit => ?_⟩
  have hne : r.ctx.nrNonzeroVregions ≠ 0 := by
    obtain ⟨v,hv,hle⟩ := hfit
    have := countP_pos_iff (p := fun v => 0 < avail r v).mpr ⟨v,hv,decide_eq_true (by omega)⟩
    rw [h.count]
    omega
  rw [findVregionCandidate,if_neg hne]
  exact search_complete h hsize _ h.front hfit

end

lemma taken_eq (ctx : Context) (v : ℕ) (board : Board) {size : ℕ} (hsize : 1 ≤ size)
    (hle : size ≤ vregionSize) :
    adjustVregionAvailSize (takeVregion ctx v board) v size =
      { ctx with
        vregion := update ctx.vregion v ⟨board,true,vregionSize-size,(ctx.vregion v).sessions⟩
        allocList := if size < vregionSize then v::ctx.allocList else ctx.allocList++[v]
        nrNonzeroVregions := ctx.nrNonzeroVregions+if size < vregionSize then 1 else 0 } := by
  have hregion : vregionSize = 2^30 := rfl
  have hleft : toInt (vregionSize-(size%2^32 : ℕ)) = vregionSize-size := by
    rw [toInt,hregion]
    omega
  simp only [adjustVregionAvailSize,takeVregion,update_self,hleft,setAvail,update_idem]
  by_cases hlt : size < vregionSize
  · rw [if_pos (by omega),if_pos hlt,if_pos hlt]
  · rw [if_neg (by omega),if_neg (by omega),if_neg hlt,if_neg hlt]
    simp

section

variable {r : Tracked} (h : Kept r)
include h

lemma alloc_kept {v : ℕ} (board : Board) {size : ℕ} (hsize : 1 ≤ size) (hle : size ≤ vregionSize)
    (hfree : (r.ctx.vregion v).allocated = false) (tid : ℕ) (answers : Answers) :
    Kept ⟨(allocOn (adjustVregionAvailSize (takeVregion r.ctx v board) v size) tid v board
      answers).1,update r.live v (r.live v+size)⟩ := by
  obtain ⟨f,l,hu⟩ := alloc_on_frame (adjustVregionAvailSize (takeVregion r.ctx v board) v size) tid
    v board answers
  rw [hu,taken_eq r.ctx v board hsize hle]
  have hlive := h.unused v hfree
  have hnew : ∀ w ∈ r.ctx.allocList, w ≠ v := by
    rintro w hw rfl
    simp [(h.listed w).mp hw] at hfree
  have havail : ∀ w, (update r.ctx.vregion v
      ⟨board,true,vregionSize-size,(r.ctx.vregion v).sessions⟩ w).availSpace =
        update (avail r) v (vregionSize-size) w := by
    intro w
    by_cases hw : w = v
    · simp [hw]
    · simp [hw,avail]
  obtain ⟨hfront,hcount⟩ := front_congr (g := update (avail r) v (vregionSize-size))
    (fun w hw => by simp [hnew w hw]) h.front
  refine ⟨fun w => ?_,fun w => ?_,fun w hw => ?_,?_,?_⟩
  · by_cases hw : w = v <;> by_cases hlt : size < vregionSize <;> simp [hw,hlt,h.listed]
  · rw [avail,havail]
    by_cases hw : w = v
    · simp [hw,hlive,hle]
    · simpa [hw] using h.space w
  · by_cases hwv : w = v
    · simp [hwv] at hw
    · simpa [hwv] using h.unused w (by simpa [hwv] using hw)
  · simp only [Front,avail,havail]
    split_ifs with hlt
    · exact pairwise_cons.mpr ⟨fun w _ _ => by simp [hlt],hfront⟩
    · -- a full one goes to the tail
      exact pairwise_append.mpr ⟨hfront,pairwise_singleton _ _,by simp; omega⟩
  · dsimp only
    rw [h.count,← hcount]
    simp only [avail,havail]
    by_cases hlt : size < vregionSize
    · simp [hlt]
    · simp [hlt]

lemma freed_kept {v size : ℕ} (hsize : size ≤ r.live v) (hpos : 0 < avail r v) :
    Kept ⟨setAvail r.ctx v (toInt ((r.ctx.vregion v).availSpace+size)),
      update r.live v (r.live v-size)⟩ := by
  obtain ⟨hspace,-⟩ := h.space v
  have hwrap : toInt ((r.ctx.vregion v).availSpace+size) = avail r v+size := by
    have hregion : vregionSize = 2^30 := rfl
    change toInt (avail r v+size) = _
    rw [hspace,toInt,hregion]
    omega
  rw [hwrap]
  have havail : ∀ w, avail ⟨setAvail r.ctx v (avail r v+size),update r.live v (r.live v-size)⟩ w =
      if w = v then avail r v+size else avail r w := by
    intro w
    by_cases hw : w = v <;> simp [avail,setAvail,hw]
  have hflag : ∀ w, ((setAvail r.ctx v (avail r v+size)).vregion w).allocated =
      (r.ctx.vregion w).allocated := by
    intro w
    by_cases hw : w = v <;> simp [setAvail,hw]
  have hsame : ∀ w, 0 < avail r w ↔ 0 < if w = v then avail r v+size else avail r w := by
    intro w
    split_ifs with hw
    · rw [hw]
      omega
    · rfl
  simp only [← havail] at hsame
  obtain ⟨hfront,hcount⟩ := front_congr (fun w _ => hsame w) h.front
  refine ⟨fun w => ?_,fun w => ?_,fun w hw => ?_,hfront,h.count.trans (by rw [← hcount]; rfl)⟩
  · rw [hflag]
    exact h.listed w
  · rw [havail]
    by_cases hw : w = v
    · simp only [hw,if_true,update_self]
      omega
    · simpa [hw] using h.space w
  · rw [hflag] at hw
    have hzero := h.unused w hw
    by_cases hwv : w = v
    · subst hwv
      simp [hzero]
    · simpa [hwv] using hzero

lemma exec_kept (c : Call) (u : Tracked) (hc : Clean r c) (hu : exec r c = some u) : Kept u := by
  cases c with
  | alloc tid size answers =>
    cases hu
    obtain ⟨hsize,hle,hearly⟩ := hc
    cases hmonitor : answers.monitor with
    | none => simpa [allocOutcome,hmonitor] using h
    | some taken =>
      obtain ⟨board,v⟩ := taken
      cases hfree : (r.ctx.vregion v).allocated with
      | true => simpa [allocOutcome,hmonitor,hfree] using h
      | false =>
        have hkept := alloc_kept h board hsize hle hfree tid answers
        have hfail :=
          alloc_on_failure (adjustVregionAvailSize (takeVregion r.ctx v board) v size) tid
          v board answers
        simp only [allocOutcome,hmonitor,hfree,Bool.false_eq_true,if_false] at hearly ⊢
        generalize allocOn _ tid v board answers = out at hkept hfail hearly ⊢
        obtain ⟨u,f | addr⟩ := out
        · exact absurd (hearly f rfl) (by simp [hfail f rfl])
        · exact hkept
  | free addr size boardFound exchange =>
    cases hu
    obtain ⟨hsize,hpos⟩ := hc
    cases boardFound with
    | false => simpa [legomemFree,ENODEV] using h
    | true =>
      by_cases hsent : 0 < exchange
      · simpa [legomemFree,not_le.mpr hsent] using freed_kept h hsize (hpos rfl hsent)
      · simpa [legomemFree,not_lt.mp hsent, Errno.EIO] using h

end

def granted : Answers := ⟨some (⟨7,1⟩,3),true,some 1,1,(0,3*2^30)⟩

end Clio.HostSpace
