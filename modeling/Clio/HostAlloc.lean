import Clio.MigrationFlag

/-!
# Allocation by a host

A context keeps a list of its vRegions with the space left in each.
-/

namespace Clio.HostAlloc

open Function Migration VmArea

structure Session where
  tid : ℕ
  board : Board
  id : ℕ
  deriving DecidableEq

structure Vregion where
  board : Board
  allocated : Bool
  availSpace : ℤ
  sessions : List Session

structure Context where
  vregion : ℕ → Vregion
  allocList : List ℕ
  nrNonzeroVregions : ℤ
  sessions : List Session

def initLegomemContext : Context :=
  ⟨fun _ => ⟨⟨0, 0⟩, false, vregionSize, []⟩, [], 0, []⟩

/-- The value an `int` keeps. -/
def toInt (x : ℤ) : ℤ := (x+2^31)%2^32-2^31

def setAvail (ctx : Context) (v : ℕ) (space : ℤ) : Context :=
  { ctx with
    vregion := update ctx.vregion v { ctx.vregion v with availSpace := space } }

def adjustVregionAvailSize (ctx : Context) (v size : ℕ) : Context :=
  let left := toInt ((ctx.vregion v).availSpace-(size%2^32 : ℕ))
  if left > 0 then setAvail ctx v left
  else
    { setAvail ctx v (if left < 0 then 0 else left) with
      nrNonzeroVregions := ctx.nrNonzeroVregions-1
      allocList := ctx.allocList.erase v++[v] }

def takeVregion (ctx : Context) (v : ℕ) (board : Board) : Context :=
  { ctx with
    vregion := update ctx.vregion v ⟨board, true, vregionSize, (ctx.vregion v).sessions⟩
    allocList := v::ctx.allocList
    nrNonzeroVregions := ctx.nrNonzeroVregions+1 }

/-- What the monitor, the boards, the session layer and the transport answer. -/
structure Answers where
  monitor : Option (Board × ℕ)
  boardFound : Bool
  opened : Option ℕ
  exchange : ℤ
  reply : BitVec 32 × BitVec 64

inductive Failure where
  | monitor
  | allocatedBefore
  | boardNotFound
  | sessionNotOpened
  | sessionMismatch
  | transport (ret : ℤ)
  | remote (ret : BitVec 32)
  deriving DecidableEq, Repr

def contextSession (ctx : Context) (tid : ℕ) (board : Board) (opened : Option ℕ) :
    Option (Session × Context) :=
  match ctx.sessions.find? (fun ses => ses.tid = tid ∧ ses.board = board) with
  | some ses => some (ses, ctx)
  | none => opened.map fun id =>
      (⟨tid, board, id⟩, { ctx with sessions := ⟨tid, board, id⟩::ctx.sessions })

def addVregionSession (ctx : Context) (v : ℕ) (ses : Session) : Context :=
  let vregion := { ctx.vregion v with sessions := ses::(ctx.vregion v).sessions }
  { ctx with vregion := update ctx.vregion v vregion }

def vregionSession (ctx : Context) (v : ℕ) (ses : Session) : Option Context :=
  match (ctx.vregion v).sessions.find? (·.tid = ses.tid) with
  | some found => if found ≠ ses then none else some ctx
  | none => some (addVregionSession ctx v ses)

def askBoard (answers : Answers) : Except Failure (BitVec 64) :=
  if answers.exchange ≤ 0 then .error (.transport answers.exchange)
  else if answers.reply.1 ≠ 0 then .error (.remote answers.reply.1)
  else .ok answers.reply.2

/-- The steps after the vRegion is taken. -/
def allocOn (ctx : Context) (tid v : ℕ) (board : Board) (answers : Answers) :
    Context × Except Failure (BitVec 64) :=
  if !answers.boardFound then (ctx, .error .boardNotFound)
  else
    match contextSession ctx tid board answers.opened with
    | none => (ctx, .error .sessionNotOpened)
    | some (ses, ctx) =>
        match vregionSession ctx v ses with
        | none => (ctx, .error .sessionMismatch)
        | some ctx => (ctx, askBoard answers)

/-- The candidate found on the list is not used. -/
def allocOutcome (ctx : Context) (tid size : ℕ) (answers : Answers) :
    Context × Except Failure (BitVec 64) :=
  match answers.monitor with
  | none => (ctx, .error .monitor)
  | some (board, v) =>
      if (ctx.vregion v).allocated then (ctx, .error .allocatedBefore)
      else allocOn (adjustVregionAvailSize (takeVregion ctx v board) v size) tid v board answers

def returned : Except Failure (BitVec 64) → BitVec 64
  | .ok addr => addr
  | .error (.transport ret) => BitVec.ofInt 64 ret
  | .error _ => 0

def legomemAlloc (ctx : Context) (tid size : ℕ) (answers : Answers) : Context × BitVec 64 :=
  ((allocOutcome ctx tid size answers).1, returned (allocOutcome ctx tid size answers).2)

section

variable (ctx : Context) (tid v : ℕ) (board : Board) (answers : Answers)
include ctx tid v board answers

/-- Only sessions change. -/
lemma alloc_on_frame : ∃ (f : ℕ → List Session) (l : List Session),
    (allocOn ctx tid v board answers).1 =
      { ctx with sessions := l, vregion := fun w => { ctx.vregion w with sessions := f w } } := by
  have hses : ∀ ses u, contextSession ctx tid board answers.opened = some (ses,u) →
      ∃ l, u = { ctx with sessions := l } := by
    intro ses u h
    unfold contextSession at h
    split at h
    · cases h
      exact ⟨_,rfl⟩
    · obtain ⟨id,-,heq⟩ := Option.map_eq_some_iff.mp h
      cases heq
      exact ⟨_,rfl⟩
  unfold allocOn
  split_ifs
  · exact ⟨_,_,rfl⟩
  · split
    · exact ⟨_,_,rfl⟩
    · rename_i ses u hctx
      obtain ⟨l,rfl⟩ := hses ses u hctx
      split
      · exact ⟨_,l,rfl⟩
      · rename_i x hv
        unfold vregionSession at hv
        split at hv
        · split_ifs at hv
          cases hv
          exact ⟨_,l,rfl⟩
        · cases hv
          refine ⟨update (fun w => (ctx.vregion w).sessions) v (ses::(ctx.vregion v).sessions),l,?_⟩
          simp only [addVregionSession,Context.mk.injEq,and_self,and_true]
          funext w
          by_cases hw : w = v
          · subst hw
            simp
          · simp [update_of_ne hw]

lemma alloc_on_outcome :
    (allocOn ctx tid v board answers).2 = askBoard answers ∨ (allocOn ctx tid v board answers).2 ∈
        [.error .boardNotFound, .error .sessionNotOpened, .error .sessionMismatch] := by
  unfold allocOn
  split_ifs
  · simp
  · split
    · simp
    · split
      · simp
      · exact .inl rfl

lemma alloc_on_failure (f : Failure) (h : (allocOn ctx tid v board answers).2 = .error f) :
    f ≠ .monitor ∧ f ≠ .allocatedBefore := by
  obtain hask | hearly := alloc_on_outcome ctx tid v board answers
  · rw [hask,askBoard] at h
    split_ifs at h <;> cases h <;> simp
  · rw [h] at hearly
    simp only [List.mem_cons,Except.error.injEq,List.not_mem_nil,or_false] at hearly
    obtain rfl | rfl | rfl := hearly <;> decide

end

lemma adjust_allocated (ctx : Context) (v size w : ℕ) :
    ((adjustVregionAvailSize ctx v size).vregion w).allocated = (ctx.vregion w).allocated := by
  unfold adjustVregionAvailSize setAvail
  by_cases hw : w = v
  · subst hw
    dsimp only
    split_ifs <;> simp
  · dsimp only
    split_ifs <;> simp [update_of_ne hw]

/-- A failed allocation changes nothing exactly if the monitor gave no new vRegion. -/
theorem alloc_clean_iff (ctx : Context) (tid size : ℕ) (answers : Answers) :
    (∀ f, (allocOutcome ctx tid size answers).2 = .error f →
      (legomemAlloc ctx tid size answers = (ctx,0) ↔ f = .monitor ∨ f = .allocatedBefore)) ∧
    ((legomemAlloc ctx tid size answers).2 ≠ 0 →
      (0 < answers.exchange ∧ answers.reply.1 = 0 ∧
        (legomemAlloc ctx tid size answers).2 = answers.reply.2) ∨
      answers.exchange < 0 ∧
        (legomemAlloc ctx tid size answers).2 = BitVec.ofInt 64 answers.exchange) := by
  unfold legomemAlloc allocOutcome
  split
  · exact ⟨fun f hf => by cases hf; simp [returned],fun hne => absurd rfl hne⟩
  · rename_i board v _
    split_ifs with hbefore
    · exact ⟨fun f hf => by cases hf; simp [returned],fun hne => absurd rfl hne⟩
    · constructor
      · intro f hf
        obtain ⟨hmonitor,hallocated⟩ := alloc_on_failure _ tid v board answers f hf
        refine iff_of_false (fun heq => hbefore ?_) (by simp [hmonitor,hallocated])
        obtain ⟨g,l,hframe⟩ :=
          alloc_on_frame (adjustVregionAvailSize (takeVregion ctx v board) v size)
          tid v board answers
        rw [← show _ = ctx from hframe ▸ congrArg Prod.fst heq]
        show ((adjustVregionAvailSize _ v size).vregion v).allocated = true
        rw [adjust_allocated]
        simp [takeVregion]
      · intro hne
        dsimp only at hne ⊢
        obtain hask | hearly := alloc_on_outcome (adjustVregionAvailSize (takeVregion ctx v board)
          v size) tid v board answers
        · rw [hask,askBoard] at hne ⊢
          split_ifs at hne ⊢ with hle hcode
          · refine .inr ⟨lt_of_le_of_ne hle fun hzero => hne ?_,rfl⟩
            rw [returned,hzero]
            rfl
          · exact absurd rfl hne
          · exact .inl ⟨not_le.mp hle,not_not.mp hcode,rfl⟩
        · simp only [List.mem_cons,List.not_mem_nil,or_false] at hearly
          obtain hearly | hearly | hearly := hearly <;> rw [hearly] at hne <;> exact absurd rfl hne

def lostReply (exchange : ℤ) : Answers := ⟨some (⟨7,1⟩,3),true,some 1,exchange,(0,0)⟩

theorem alloc_clean_refused :
    legomemAlloc initLegomemContext 5 64 { lostReply 0 with monitor := none } =
      (initLegomemContext,0) :=
  ((alloc_clean_iff initLegomemContext 5 64 { lostReply 0 with monitor := none }).1 .monitor
    rfl).mpr (.inl rfl)

/-- The board does not answer: the vRegion stays, and the code is returned as an address. -/
theorem failed_alloc_returned :
    let out := legomemAlloc initLegomemContext 5 64 (lostReply (-5))
    out.2 = 0xfffffffffffffffb ∧ out.1.allocList = [3] ∧ out.1.nrNonzeroVregions = 1 ∧
      (out.1.vregion 3).availSpace = 2^30-64 ∧ out.1.sessions = [⟨5,⟨7,1⟩,1⟩] := by
  decide

end Clio.HostAlloc
