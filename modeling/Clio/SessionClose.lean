import Clio.SessionAddress
import Clio.SessionTable

/-!
# Closing a session of the host

A session is in a static array and has links for the tables of its board, context and vRegion.
-/

namespace Clio.SessionClose

open Function Hlist HashTable Machine SessionTable SessionAddress

/-- Address and port of a board. -/
abbrev Board := BitVec 32 × BitVec 32

structure Host where
  sessions : ℕ → SessionNet
  idMap : ℕ → Bool
  opener : ℕ → Option ℕ
  board : Heap ℕ (Board × ℕ)
  context : Heap ℕ (ℕ × ℕ)
  vregion : Heap ℕ ((ℕ × ℕ) × ℕ)
  placed : ℕ × ℕ → Board

def boardHead (bi : Board) (id : ℕ) : Board × ℕ := (bi,hash32 (BitVec.ofNat 32 id) 3)

def contextHead (c : ℕ) (ses : SessionNet) : ℕ × ℕ := (c,hash32 (ses.tid+ses.boardIp+ses.udpPort) 4)

def vregionHead (v : ℕ × ℕ) (tid : BitVec 32) : (ℕ × ℕ) × ℕ := (v,hashMin tid)

def sessionOf (bi : Board) (tid : BitVec 32) : SessionNet := ⟨tid,bi.1,bi.2⟩

def boardOf (ses : SessionNet) : Board := (ses.boardIp,ses.udpPort)

/-! ## Lookups -/

def boardFindSession (s : Host) (bi : Board) (id : ℕ) : Option (Option ℕ) :=
  lookup nrMaxSessionsPerNode s.board (· == id) (boardHead bi id)

def contextFindSession (s : Host) (c : ℕ) (tid : BitVec 32) (bi : Board) : Option (Option ℕ) :=
  lookup nrMaxSessionsPerNode s.context (fun q => s.sessions q == sessionOf bi tid)
    (contextHead c (sessionOf bi tid))

def findVregionSession (s : Host) (v : ℕ × ℕ) (tid : BitVec 32) : Option (Option ℕ) :=
  lookup nrMaxSessionsPerNode s.vregion (fun q => (s.sessions q).tid == tid) (vregionHead v tid)

/-! ## Opening and closing -/

def freeSession (s : Host) (p : ℕ) : Host := { s with idMap := hostFreeSession s.idMap p }

def clearLinks (s : Host) (p : ℕ) : Host :=
  { s with
    board := initNode s.board p
    context := initNode s.context p
    vregion := initNode s.vregion p }

/-- `alloc_session` with the fields set by the caller. -/
def initSession (s : Host) (p : ℕ) (ctx : Option ℕ) (ses : SessionNet) : Host :=
  { clearLinks s p with
    sessions := update s.sessions p ses
    idMap := update s.idMap p true
    opener := update s.opener p ctx }

def boardAddSession (s : Host) (p : ℕ) : Host :=
  { s with board := addHead s.board p (boardHead (boardOf (s.sessions p)) p) }

def contextAddSession (s : Host) (c p : ℕ) : Host :=
  { s with context := addHead s.context p (contextHead c (s.sessions p)) }

def addVregionSession (s : Host) (v : ℕ × ℕ) (p : ℕ) : Host :=
  { s with vregion := addHead s.vregion p (vregionHead v (s.sessions p).tid) }

/-- A session is opened; `accepted` is whether the remote party agrees. -/
def openSession (s : Host) (ctx : Option ℕ) (bi : Board) (tid : BitVec 32) (accepted : Bool) :
    Host × Option ℕ :=
  match hostAllocSession s.idMap with
  | none => (s,none)
  | some p =>
      let s := initSession s p ctx (sessionOf bi tid)
      if accepted then
        match ctx with
        | none => (boardAddSession s p,some p)
        | some c => (contextAddSession (boardAddSession s p) c p,some p)
      else (freeSession s p,none)

def boardRemoveSession (s : Host) (p : ℕ) : Option Host :=
  (boardFindSession s (boardOf (s.sessions p)) p).map fun found =>
    match found with
    | none => s
    | some _ => { s with board := delInit s.board p }

def contextRemoveSession (s : Host) (c p : ℕ) : Option Host :=
  (contextFindSession s c (s.sessions p).tid (boardOf (s.sessions p))).map fun found =>
    match found with
    | none => s
    | some _ => { s with context := delInit s.context p }

def removeVregionSession (s : Host) (v : ℕ × ℕ) (tid : BitVec 32) : Option Host :=
  (findVregionSession s v tid).map fun found =>
    match found with
    | none => s
    | some q => { s with vregion := delInit s.vregion q }

def closeSession (s : Host) (ctx : Option ℕ) (p : ℕ) : Option Host :=
  (boardRemoveSession s p).bind fun s =>
    match ctx with
    | none => some (freeSession s p)
    | some c => (contextRemoveSession s c p).map fun s => freeSession s p

/-! ## Users of the tables -/

def contextFindOrOpen (s : Host) (c : ℕ) (tid : BitVec 32) (bi : Board) (accepted : Bool) :
    Option (Host × Option ℕ) :=
  (contextFindSession s c tid bi).map fun found =>
    match found with
    | some p => (s,some p)
    | none => openSession s (some c) bi tid accepted

def addFound (v : ℕ × ℕ) (found : Host × Option ℕ) : Host :=
  match found.2 with
  | none => found.1
  | some p => addVregionSession found.1 v p

/-- The session a read or a write uses. -/
def findOrAllocVregionSession (s : Host) (v : ℕ × ℕ) (tid : BitVec 32) (accepted : Bool) :
    Option (Host × Option ℕ) :=
  (findVregionSession s v tid).bind fun found =>
    match found with
    | some p => some (s,some p)
    | none => (contextFindOrOpen s v.1 tid (s.placed v) accepted).map fun r => (addFound v r,r.2)

/-- Steps II and III of an allocation on the board the monitor chose. -/
def legomemAlloc (s : Host) (v : ℕ × ℕ) (bi : Board) (tid : BitVec 32) (accepted : Bool) :
    Option Host :=
  let s := { s with placed := update s.placed v bi }
  (contextFindOrOpen s v.1 tid bi accepted).bind fun r =>
    match r.2 with
    | none => some r.1
    | some p => (findVregionSession r.1 v tid).map fun found =>
        match found with
        | some _ => r.1
        | none => addVregionSession r.1 v p

def migrateVregion (s : Host) (v : ℕ × ℕ) (dst : Board) (tid : BitVec 32) (accepted : Bool) :
    Option Host :=
  (removeVregionSession s v tid).bind fun s =>
    (contextFindOrOpen s v.1 tid dst accepted).map (addFound v)

inductive Call where
  | opened (ctx : Option ℕ) (bi : Board) (tid : BitVec 32) (accepted : Bool)
  | alloc (v : ℕ × ℕ) (bi : Board) (tid : BitVec 32) (accepted : Bool)
  | access (v : ℕ × ℕ) (tid : BitVec 32) (accepted : Bool)
  | migrate (v : ℕ × ℕ) (dst : Board) (tid : BitVec 32) (accepted : Bool)
  | close (ctx : Option ℕ) (p : ℕ)
  deriving DecidableEq, Repr

def exec (s : Host) : Call → Option Host
  | .opened ctx bi tid accepted => some (openSession s ctx bi tid accepted).1
  | .alloc v bi tid accepted => legomemAlloc s v bi tid accepted
  | .access v tid accepted => (findOrAllocVregionSession s v tid accepted).map Prod.fst
  | .migrate v dst tid accepted => migrateVregion s v dst tid accepted
  | .close ctx p => closeSession s ctx p

def start : Host :=
  ⟨fun _ => ⟨0,0,0⟩,fun _ => false,fun _ => none,empty,empty,empty,fun _ => (0,0)⟩

structure Unreachable (s : Host) (p : ℕ) : Prop where
  board : ∀ bi id, ∃ r, boardFindSession s bi id = some r ∧ r ≠ some p
  context : ∀ c tid bi, ∃ r, contextFindSession s c tid bi = some r ∧ r ≠ some p
  vregion : ∀ v tid, ∃ r, findVregionSession s v tid = some r ∧ r ≠ some p

def Fresh (s : Host) (c : ℕ) (tid : BitVec 32) (bi : Board) : Prop :=
  match contextFindSession s c tid bi with
  | some (some p) => s.vregion.pprev p = none
  | _ => True

/-- A session is added when in no vRegion table, and closed when in none and in its context. -/
def Ok (s : Host) : Call → Prop
  | .opened .. => True
  | .alloc v bi tid _ => findVregionSession s v tid = some none → Fresh s v.1 tid bi
  | .access v tid _ => findVregionSession s v tid = some none → Fresh s v.1 tid (s.placed v)
  | .migrate v dst tid _ => Fresh s v.1 tid dst ∨
      ∃ p, contextFindSession s v.1 tid dst = some (some p) ∧
        findVregionSession s v tid = some (some p)
  | .close ctx p => s.idMap p = true ∧ ctx = s.opener p ∧ s.vregion.pprev p = none

/-! ## The invariant -/

def boardHome (s : Host) (p : ℕ) (b : Board × ℕ) : Prop :=
  s.idMap p = true ∧ b = boardHead (boardOf (s.sessions p)) p

def contextHome (s : Host) (p : ℕ) (b : ℕ × ℕ) : Prop :=
  s.idMap p = true ∧ ∃ c, s.opener p = some c ∧ b = contextHead c (s.sessions p)

def vregionHome (s : Host) (p : ℕ) (_ : (ℕ × ℕ) × ℕ) : Prop := s.idMap p = true

structure Inv (s : Host) : Prop where
  board : Table nrMaxSessionsPerNode s.board (boardHome s)
  context : Table nrMaxSessionsPerNode s.context (contextHome s)
  vregion : Table nrMaxSessionsPerNode s.vregion (vregionHome s)

lemma start_inv : Inv start := ⟨table_empty,table_empty,table_empty⟩

/-- All three links of the session are free. -/
structure Free (s : Host) (p : ℕ) : Prop where
  board : s.board.pprev p = none
  context : s.context.pprev p = none
  vregion : s.vregion.pprev p = none

variable (s : Host)

lemma free_of_clear (hs : Inv s) (p : ℕ) (hp : s.idMap p = false) : Free s p := by
  have hclear : ¬s.idMap p = true := by simp [hp]
  refine ⟨?_,?_,?_⟩ <;> by_contra hlinked
  · obtain ⟨-,b,hhome⟩ := table_linked hs.board p hlinked
    exact hclear hhome.1
  · obtain ⟨-,b,hhome⟩ := table_linked hs.context p hlinked
    exact hclear hhome.1
  · obtain ⟨-,b,hhome⟩ := table_linked hs.vregion p hlinked
    exact hclear hhome

lemma unreachable_of_free (hs : Inv s) (p : ℕ) (hp : Free s p) : Unreachable s p := by
  refine ⟨?_,?_,?_⟩
  · intro bi id
    obtain ⟨r,hr,hfound⟩ := lookup_found hs.board (· == id) (boardHead bi id)
    exact ⟨r,hr,fun heq => (hfound p heq).2.1 hp.board⟩
  · intro c tid bi
    obtain ⟨r,hr,hfound⟩ := lookup_found hs.context (fun q => s.sessions q == sessionOf bi tid)
      (contextHead c (sessionOf bi tid))
    exact ⟨r,hr,fun heq => (hfound p heq).2.1 hp.context⟩
  · intro v tid
    obtain ⟨r,hr,hfound⟩ := lookup_found hs.vregion (fun q => (s.sessions q).tid == tid)
      (vregionHead v tid)
    exact ⟨r,hr,fun heq => (hfound p heq).2.1 hp.vregion⟩

lemma inv_elsewhere (u : Host) (p : ℕ) (hs : Inv s) (hp : Free s p) (hboard : u.board = s.board)
    (hcontext : u.context = s.context) (hvregion : u.vregion = s.vregion)
    (hother : ∀ q, q ≠ p → u.sessions q = s.sessions q ∧ u.idMap q = s.idMap q ∧
      u.opener q = s.opener q) :
    Inv u := by
  refine ⟨?_,?_,?_⟩
  · rw [hboard]
    apply table_mono hs.board
    intro q b hq hhome
    obtain ⟨hses,hmap,-⟩ := hother q fun heq => hq (heq ▸ hp.board)
    rw [boardHome,hses,hmap]
    exact hhome
  · rw [hcontext]
    apply table_mono hs.context
    intro q b hq hhome
    obtain ⟨hses,hmap,hopener⟩ := hother q fun heq => hq (heq ▸ hp.context)
    rw [contextHome,hses,hmap,hopener]
    exact hhome
  · rw [hvregion]
    apply table_mono hs.vregion
    intro q b hq hhome
    obtain ⟨-,hmap,-⟩ := hother q fun heq => hq (heq ▸ hp.vregion)
    rw [vregionHome,hmap]
    exact hhome

variable (p : ℕ)

lemma free_session_inv (hs : Inv s) (hp : Free s p) : Inv (freeSession s p) :=
  inv_elsewhere s _ p hs hp rfl rfl rfl fun q hq => by
    simp only [freeSession,hostFreeSession]
    split <;> simp [hq]

variable (ctx : Option ℕ) (ses : SessionNet)

lemma init_session_inv (hs : Inv s) (hp : Free s p) :
    Inv (initSession s p ctx ses) ∧ Free (initSession s p ctx ses) p := by
  have hinv : Inv (clearLinks s p) :=
    ⟨table_init hs.board p hp.board,table_init hs.context p hp.context,
      table_init hs.vregion p hp.vregion⟩
  have hfree : Free (clearLinks s p) p :=
    ⟨by simp [clearLinks,initNode],by simp [clearLinks,initNode],by simp [clearLinks,initNode]⟩
  refine ⟨inv_elsewhere _ _ p hinv hfree rfl rfl rfl ?_,⟨hfree.board,hfree.context,hfree.vregion⟩⟩
  intro q hq
  simp [initSession,clearLinks,hq]

/-! ## Opening -/

lemma board_add_inv (hs : Inv s) (hlt : p < nrMaxSessionsPerNode) (hmap : s.idMap p = true)
    (hp : s.board.pprev p = none) : Inv (boardAddSession s p) :=
  ⟨table_add hs.board p _ hp hlt ⟨hmap,rfl⟩,hs.context,hs.vregion⟩

lemma context_add_inv (c p : ℕ) (hs : Inv s) (hlt : p < nrMaxSessionsPerNode)
    (hmap : s.idMap p = true) (hopener : s.opener p = some c) (hp : s.context.pprev p = none) :
    Inv (contextAddSession s c p) :=
  ⟨hs.board,table_add hs.context p _ hp hlt ⟨hmap,c,hopener,rfl⟩,hs.vregion⟩

variable (v : ℕ × ℕ)

lemma vregion_add_inv (p : ℕ) (hs : Inv s) (hlt : p < nrMaxSessionsPerNode)
    (hmap : s.idMap p = true) (hp : s.vregion.pprev p = none) : Inv (addVregionSession s v p) :=
  ⟨hs.board,hs.context,table_add hs.vregion p _ hp hlt hmap⟩

variable (bi : Board) (tid : BitVec 32) (accepted : Bool)

lemma open_inv (hs : Inv s) :
    Inv (openSession s ctx bi tid accepted).1 ∧
      ∀ p, (openSession s ctx bi tid accepted).2 = some p →
        p < nrMaxSessionsPerNode ∧ (openSession s ctx bi tid accepted).1.idMap p = true ∧
          (openSession s ctx bi tid accepted).1.vregion.pprev p = none := by
  cases halloc : hostAllocSession s.idMap with
  | none => simp [openSession,halloc,hs]
  | some p =>
    obtain ⟨hlt,hclear,-⟩ := host_alloc_free halloc
    obtain ⟨hinv,hfree⟩ :=
      init_session_inv s p ctx (sessionOf bi tid) hs (free_of_clear s hs p hclear)
    have hmap : (initSession s p ctx (sessionOf bi tid)).idMap p = true := update_self ..
    have hadded := board_add_inv _ p hinv hlt hmap hfree.board
    cases accepted with
    | false =>
      simp only [openSession,halloc,Bool.false_eq_true,if_false]
      exact ⟨free_session_inv _ p hinv hfree,fun q hq => by cases hq⟩
    | true =>
      cases ctx with
      | none =>
        simp only [openSession,halloc,if_true]
        refine ⟨hadded,?_⟩
        rintro q ⟨⟩
        exact ⟨hlt,hmap,hfree.vregion⟩
      | some c =>
        simp only [openSession,halloc,if_true]
        refine ⟨context_add_inv _ c p hadded hlt hmap (update_self ..) hfree.context,?_⟩
        rintro q ⟨⟩
        exact ⟨hlt,hmap,hfree.vregion⟩

structure OthersKept (s u : Host) (ctx : Option ℕ) (bi : Board) (tid : BitVec 32) (p : ℕ) :
    Prop where
  board : ∀ bj id, ¬(bj = bi ∧ id = p) → boardFindSession u bj id = boardFindSession s bj id
  context : ∀ c t bj, ¬(ctx = some c ∧ t = tid ∧ bj = bi) →
    contextFindSession u c t bj = contextFindSession s c t bj
  vregion : ∀ v t, findVregionSession u v t = findVregionSession s v t

lemma init_keeps (hs : Inv s) (hp : Free s p) :
    (∀ bj id, boardFindSession (initSession s p ctx ses) bj id = boardFindSession s bj id) ∧
    (∀ c t bj, contextFindSession (initSession s p ctx ses) c t bj = contextFindSession s c t bj) ∧
    ∀ v t, findVregionSession (initSession s p ctx ses) v t = findVregionSession s v t := by
  have hsame : ∀ q, q ≠ p → (initSession s p ctx ses).sessions q = s.sessions q := by
    intro q hq
    simp [initSession,clearLinks,hq]
  refine ⟨?_,?_,?_⟩
  · intro bj id
    exact lookup_init hs.board p hp.board _ _
  · intro c t bj
    refine (lookup_init hs.context p hp.context _ _).trans (lookup_congr hs.context _ _ ?_ _)
    intro q hq
    rw [hsame q fun heq => hq (heq ▸ hp.context)]
  · intro v t
    refine (lookup_init hs.vregion p hp.vregion _ _).trans (lookup_congr hs.vregion _ _ ?_ _)
    intro q hq
    rw [hsame q fun heq => hq (heq ▸ hp.vregion)]

lemma board_add_keeps (hs : Inv s) (hlt : p < nrMaxSessionsPerNode) (hp : s.board.pprev p = none)
    (bj : Board) (id : ℕ) (hother : ¬(bj = boardOf (s.sessions p) ∧ id = p)) :
    boardFindSession (boardAddSession s p) bj id = boardFindSession s bj id := by
  refine (lookup_add hs.board p _ hp hlt _ _).trans (if_neg ?_)
  rintro ⟨hhead,hid⟩
  exact hother ⟨congrArg Prod.fst hhead,(eq_of_beq hid).symm⟩

lemma context_add_keeps (c p : ℕ) (hs : Inv s) (hlt : p < nrMaxSessionsPerNode)
    (hp : s.context.pprev p = none) (d : ℕ) (t : BitVec 32) (bj : Board)
    (hother : ¬(c = d ∧ s.sessions p = sessionOf bj t)) :
    contextFindSession (contextAddSession s c p) d t bj = contextFindSession s d t bj := by
  refine (lookup_add hs.context p _ hp hlt _ _).trans (if_neg ?_)
  rintro ⟨hhead,hses⟩
  exact hother ⟨(congrArg Prod.fst hhead).symm,eq_of_beq hses⟩

lemma free_session_keeps :
    (∀ bj id, boardFindSession (freeSession s p) bj id = boardFindSession s bj id) ∧
    (∀ c t bj, contextFindSession (freeSession s p) c t bj = contextFindSession s c t bj) ∧
    ∀ v t, findVregionSession (freeSession s p) v t = findVregionSession s v t :=
  ⟨fun _ _ => rfl,fun _ _ _ => rfl,fun _ _ => rfl⟩

lemma session_of_inj {bi bj : Board} {tid t : BitVec 32} (h : sessionOf bi tid = sessionOf bj t) :
    t = tid ∧ bj = bi := by
  obtain ⟨ip,port⟩ := bi
  obtain ⟨jp,qort⟩ := bj
  simp only [sessionOf,SessionNet.mk.injEq] at h
  simp [h]

lemma open_keeps (hs : Inv s) (p : ℕ) (halloc : hostAllocSession s.idMap = some p) :
    OthersKept s (openSession s ctx bi tid accepted).1 ctx bi tid p := by
  obtain ⟨hlt,hclear,-⟩ := host_alloc_free halloc
  have hfree0 := free_of_clear s hs p hclear
  obtain ⟨hinv,hfree⟩ := init_session_inv s p ctx (sessionOf bi tid) hs hfree0
  obtain ⟨hboard,hcontext,hvregion⟩ := init_keeps s p ctx (sessionOf bi tid) hs hfree0
  have hses : (initSession s p ctx (sessionOf bi tid)).sessions p = sessionOf bi tid :=
    update_self ..
  have hadd : ∀ bj id, ¬(bj = bi ∧ id = p) →
      boardFindSession (boardAddSession (initSession s p ctx (sessionOf bi tid)) p) bj id =
        boardFindSession s bj id := by
    intro bj id hother
    rw [board_add_keeps _ p hinv hlt hfree.board bj id (by rw [hses]; exact hother),hboard]
  cases accepted with
  | false =>
    obtain ⟨kboard,kcontext,kvregion⟩ :=
      free_session_keeps (initSession s p ctx (sessionOf bi tid)) p
    simp only [openSession,halloc,Bool.false_eq_true,if_false]
    exact ⟨fun bj id _ => (kboard bj id).trans (hboard bj id),
      fun c t bj _ => (kcontext c t bj).trans (hcontext c t bj),
      fun v t => (kvregion v t).trans (hvregion v t)⟩
  | true =>
    cases ctx with
    | none =>
      simp only [openSession,halloc,if_true]
      exact ⟨hadd,fun c t bj _ => hcontext c t bj,hvregion⟩
    | some c =>
      simp only [openSession,halloc,if_true]
      have hmap : (initSession s p (some c) (sessionOf bi tid)).idMap p = true := update_self ..
      have hadded := board_add_inv _ p hinv hlt hmap hfree.board
      refine ⟨hadd,?_,hvregion⟩
      intro d t bj hother
      refine (context_add_keeps _ c p hadded hlt hfree.context d t bj ?_).trans (hcontext d t bj)
      rintro ⟨rfl,hsame⟩
      exact hother ⟨rfl,session_of_inj (hses.symm.trans hsame)⟩

/-! ## Closing -/

lemma board_remove_free (hs : Inv s) : ∃ h, boardRemoveSession s p = some { s with board := h } ∧
      Table nrMaxSessionsPerNode h (boardHome s) ∧ h.pprev p = none := by
  obtain ⟨r,hr,-⟩ := lookup_found hs.board (· == p) (boardHead (boardOf (s.sessions p)) p)
  have hfind : boardFindSession s (boardOf (s.sessions p)) p = some r := hr
  cases r with
  | none =>
    refine ⟨s.board,by rw [boardRemoveSession,hfind]; rfl,hs.board,?_⟩
    by_contra hlinked
    exact lookup_none hs.board (· == p) p hlinked (beq_self_eq_true p) _ (fun c hc => hc.2) hr
  | some q =>
    obtain ⟨htable,hfree,-⟩ := table_del hs.board p
    exact ⟨delInit s.board p,by rw [boardRemoveSession,hfind]; rfl,htable,hfree⟩

lemma context_remove_free (c p : ℕ) (hs : Inv s) (hopener : s.opener p = some c) :
    ∃ h, contextRemoveSession s c p = some { s with context := h } ∧
      Table nrMaxSessionsPerNode h (contextHome s) ∧ h.pprev p = none := by
  obtain ⟨r,hr,-⟩ := lookup_found hs.context (fun q => s.sessions q == s.sessions p)
    (contextHead c (s.sessions p))
  have hfind : contextFindSession s c (s.sessions p).tid (boardOf (s.sessions p)) = some r := hr
  cases r with
  | none =>
    refine ⟨s.context,by rw [contextRemoveSession,hfind]; rfl,hs.context,?_⟩
    by_contra hlinked
    refine lookup_none hs.context (fun q => s.sessions q == s.sessions p) p hlinked
      (beq_self_eq_true _) _ ?_ hr
    rintro b ⟨-,d,hd,hb⟩
    rw [hopener] at hd
    rw [hb,Option.some.inj hd]
  | some q =>
    obtain ⟨htable,hfree,-⟩ := table_del hs.context p
    exact ⟨delInit s.context p,by rw [contextRemoveSession,hfind]; rfl,htable,hfree⟩

lemma close_free (p : ℕ) (hs : Inv s) (hok : Ok s (.close ctx p)) :
    ∃ u, closeSession s ctx p = some u ∧ Inv u ∧ Free u p ∧
      (p ≠ legomemMgmtSessionId → u.idMap p = false) := by
  obtain ⟨-,rfl,hvregion⟩ := hok
  obtain ⟨hb,hremove,htable,hfree⟩ := board_remove_free s p hs
  have hinv : Inv { s with board := hb } := ⟨htable,hs.context,hs.vregion⟩
  have hdone : ∀ t : Host, Inv t → Free t p → Inv (freeSession t p) ∧ Free (freeSession t p) p ∧
      (p ≠ legomemMgmtSessionId → (freeSession t p).idMap p = false) := by
    intro t ht hp
    refine ⟨free_session_inv t p ht hp,⟨hp.board,hp.context,hp.vregion⟩,?_⟩
    intro hne
    simp [freeSession,hostFreeSession,hne]
  cases hopener : s.opener p with
  | none =>
    have hcontext : s.context.pprev p = none := by
      by_contra hlinked
      obtain ⟨-,b,-,c,hc,-⟩ := table_linked hs.context p hlinked
      rw [hopener] at hc
      cases hc
    exact ⟨_,by rw [closeSession,hremove]; rfl,hdone _ hinv ⟨hfree,hcontext,hvregion⟩⟩
  | some c =>
    obtain ⟨hc,hcremove,hctable,hcfree⟩ :=
      context_remove_free { s with board := hb } c p hinv hopener
    have hboth : Inv { s with board := hb, context := hc } := ⟨htable,hctable,hs.vregion⟩
    refine ⟨_,?_,hdone _ hboth ⟨hfree,hcfree,hvregion⟩⟩
    simp only [closeSession,hremove,Option.bind_some,hcremove,Option.map_some]

/-! ## Accesses, allocations and migrations -/

lemma find_or_open_inv (c : ℕ) (tid : BitVec 32) (bi : Board) (accepted : Bool) (hs : Inv s) :
    ∃ r, contextFindOrOpen s c tid bi accepted = some r ∧ Inv r.1 ∧
      ∀ p, r.2 = some p → p < nrMaxSessionsPerNode ∧ r.1.idMap p = true ∧
        (r.1.vregion.pprev p = none ∨ r.1 = s ∧ contextFindSession s c tid bi = some (some p)) := by
  obtain ⟨found,hfind,hhome⟩ := lookup_found hs.context (fun q => s.sessions q == sessionOf bi tid)
    (contextHead c (sessionOf bi tid))
  have hcontext : contextFindSession s c tid bi = some found := hfind
  cases found with
  | none =>
    obtain ⟨hinv,hnew⟩ := open_inv s (some c) bi tid accepted hs
    refine ⟨_,by rw [contextFindOrOpen,hcontext]; rfl,hinv,?_⟩
    intro p hp
    obtain ⟨hlt,hmap,hfree⟩ := hnew p hp
    exact ⟨hlt,hmap,.inl hfree⟩
  | some p =>
    refine ⟨(s,some p),by rw [contextFindOrOpen,hcontext]; rfl,hs,?_⟩
    rintro q ⟨⟩
    obtain ⟨-,hlinked,hmap,-⟩ := hhome p rfl
    exact ⟨(table_linked hs.context p hlinked).1,hmap,.inr ⟨rfl,hcontext⟩⟩

lemma add_found_inv (r : Host × Option ℕ) (hr : Inv r.1)
    (hp : ∀ p, r.2 = some p → p < nrMaxSessionsPerNode ∧ r.1.idMap p = true ∧
      r.1.vregion.pprev p = none) :
    Inv (addFound v r) := by
  obtain ⟨s,found⟩ := r
  cases found with
  | none => exact hr
  | some p =>
    obtain ⟨hlt,hmap,hfree⟩ := hp p rfl
    exact vregion_add_inv s v p hr hlt hmap hfree

lemma access_inv (hs : Inv s) (hok : Ok s (.access v tid accepted)) :
    ∃ r, findOrAllocVregionSession s v tid accepted = some r ∧ Inv r.1 ∧
      ∀ p, r.2 = some p → r.1.idMap p = true := by
  obtain ⟨found,hfind,hhome⟩ := lookup_found hs.vregion (fun q => (s.sessions q).tid == tid)
    (vregionHead v tid)
  have hvregion : findVregionSession s v tid = some found := hfind
  cases found with
  | some p =>
    refine ⟨(s,some p),by rw [findOrAllocVregionSession,hvregion]; rfl,hs,?_⟩
    rintro q ⟨⟩
    exact (hhome p rfl).2.2
  | none =>
    obtain ⟨r,hr,hinv,hp⟩ := find_or_open_inv s v.1 tid (s.placed v) accepted hs
    have hfresh := hok hvregion
    refine ⟨(addFound v r,r.2),by simp [findOrAllocVregionSession,hvregion,hr],?_,?_⟩
    · refine add_found_inv v r hinv fun p hsome => ?_
      obtain ⟨hlt,hmap,hfree | ⟨hsame,hcontext⟩⟩ := hp p hsome
      · exact ⟨hlt,hmap,hfree⟩
      · rw [Fresh,hcontext] at hfresh
        exact ⟨hlt,hmap,by rw [hsame]; exact hfresh⟩
    · intro p hsome
      have hmap := (hp p hsome).2.1
      simp only at hsome
      rw [addFound,hsome]
      exact hmap

lemma alloc_inv (hs : Inv s) (hok : Ok s (.alloc v bi tid accepted)) :
    ∃ u, legomemAlloc s v bi tid accepted = some u ∧ Inv u := by
  have hplaced : Inv { s with placed := update s.placed v bi } := ⟨hs.board,hs.context,hs.vregion⟩
  obtain ⟨⟨t,ses⟩,hr,hinv,hp⟩ := find_or_open_inv _ v.1 tid bi accepted hplaced
  cases ses with
  | none => exact ⟨t,by simp [legomemAlloc,hr],hinv⟩
  | some p =>
    obtain ⟨found,hfind,-⟩ := lookup_found hinv.vregion (fun q => (t.sessions q).tid == tid)
      (vregionHead v tid)
    have hvregion : findVregionSession t v tid = some found := hfind
    cases found with
    | some q => exact ⟨t,by simp [legomemAlloc,hr,hvregion],hinv⟩
    | none =>
      refine ⟨addVregionSession t v p,by simp [legomemAlloc,hr,hvregion],?_⟩
      obtain ⟨hlt,hmap,hfree | ⟨hsame,hcontext⟩⟩ := hp p rfl
      · exact vregion_add_inv t v p hinv hlt hmap hfree
      · have hsame : t = { s with placed := update s.placed v bi } := hsame
        subst hsame
        have hfresh := hok hvregion
        have hcontext : contextFindSession s v.1 tid bi = some (some p) := hcontext
        rw [Fresh,hcontext] at hfresh
        exact vregion_add_inv _ v p hinv hlt hmap hfresh

lemma migrate_inv (dst : Board) (tid : BitVec 32) (accepted : Bool) (hs : Inv s)
    (hok : Ok s (.migrate v dst tid accepted)) :
    ∃ u, migrateVregion s v dst tid accepted = some u ∧ Inv u := by
  obtain ⟨found,hfind,-⟩ := lookup_found hs.vregion (fun q => (s.sessions q).tid == tid)
    (vregionHead v tid)
  have hvregion : findVregionSession s v tid = some found := hfind
  have hremoved : ∃ h, removeVregionSession s v tid = some { s with vregion := h } ∧
      Table nrMaxSessionsPerNode h (vregionHome s) ∧
      (∀ q, found = some q → h.pprev q = none) ∧
      ∀ q, s.vregion.pprev q = none → h.pprev q = none := by
    cases found with
    | none =>
      exact ⟨s.vregion,by rw [removeVregionSession,hvregion]; rfl,hs.vregion,
        fun _ hq => absurd hq (by simp),fun _ hq => hq⟩
    | some q =>
      obtain ⟨htable,hfree,hkeep⟩ := table_del hs.vregion q
      refine ⟨delInit s.vregion q,by rw [removeVregionSession,hvregion]; rfl,htable,?_,hkeep⟩
      rintro x ⟨⟩
      exact hfree
  obtain ⟨h,hremove,htable,hgone,hkeep⟩ := hremoved
  have hinv : Inv { s with vregion := h } := ⟨hs.board,hs.context,htable⟩
  obtain ⟨r,hr,hrinv,hp⟩ := find_or_open_inv { s with vregion := h } v.1 tid dst accepted hinv
  refine ⟨addFound v r,by simp [migrateVregion,hremove,hr],?_⟩
  refine add_found_inv v r hrinv fun p hsome => ?_
  obtain ⟨hlt,hmap,hfree | ⟨hsame,hcontext⟩⟩ := hp p hsome
  · exact ⟨hlt,hmap,hfree⟩
  · have hcontext : contextFindSession s v.1 tid dst = some (some p) := hcontext
    refine ⟨hlt,hmap,?_⟩
    rw [hsame]
    rcases hok with hfresh | ⟨q,hq,hqv⟩
    · rw [Fresh,hcontext] at hfresh
      exact hkeep p hfresh
    · rw [hcontext] at hq
      rw [hvregion] at hqv
      obtain rfl := Option.some.inj (Option.some.inj hq)
      exact hgone p (Option.some.inj hqv)

lemma step_inv (call : Call) (hs : Inv s) (hok : Ok s call) :
    ∃ u, exec s call = some u ∧ Inv u := by
  cases call with
  | opened ctx bi tid accepted => exact ⟨_,rfl,(open_inv s ctx bi tid accepted hs).1⟩
  | alloc v bi tid accepted => exact alloc_inv s v bi tid accepted hs hok
  | access v tid accepted =>
    obtain ⟨r,hr,hinv,-⟩ := access_inv s v tid accepted hs hok
    exact ⟨r.1,by simp [exec,hr],hinv⟩
  | migrate v dst tid accepted => exact migrate_inv s v dst tid accepted hs hok
  | close ctx p =>
    obtain ⟨u,hu,hinv,-⟩ := close_free s ctx p hs hok
    exact ⟨u,hu,hinv⟩

/-- If sessions are closed out of all tables, a closed one is found and selected nowhere. -/
theorem closed_sessions_unreachable (calls : List Call) (hok : Guarded exec Ok calls start) :
    ∃ s, run exec calls start = some s ∧
      (∀ p, s.idMap p = false → Unreachable s p) ∧
      (∀ v tid accepted, Ok s (.access v tid accepted) →
        ∃ r, findOrAllocVregionSession s v tid accepted = some r ∧
          ∀ p, r.2 = some p → r.1.idMap p = true) ∧
      (∀ ctx p, Ok s (.close ctx p) → ∃ u, exec s (.close ctx p) = some u ∧ Unreachable u p ∧
        (p ≠ legomemMgmtSessionId → u.idMap p = false)) ∧
      ∀ ctx bi tid accepted p, hostAllocSession s.idMap = some p →
        OthersKept s (openSession s ctx bi tid accepted).1 ctx bi tid p := by
  obtain ⟨s,hrun,hs⟩ := run_succeeds exec Ok Inv step_inv calls start start_inv hok
  refine ⟨s,hrun,?_,?_,?_,?_⟩
  · intro p hp
    exact unreachable_of_free s hs p (free_of_clear s hs p hp)
  · intro v tid accepted hacc
    obtain ⟨r,hr,-,hp⟩ := access_inv s v tid accepted hs hacc
    exact ⟨r,hr,hp⟩
  · intro ctx p hclose
    obtain ⟨u,hu,hinv,hfree,hclear⟩ := close_free s ctx p hs hclose
    exact ⟨u,hu,unreachable_of_free u hinv p hfree,hclear⟩
  · intro ctx bi tid accepted p halloc
    exact open_keeps s ctx bi tid accepted hs p halloc

def oneBoard : Board := (1,1234)

def openTwo : List Call := [.opened none oneBoard 0 true,.opened (some 0) oneBoard 7 true]

theorem unused_session_closed : ∃ s u, run exec openTwo start = some s ∧
    contextFindSession s 0 7 oneBoard = some (some 1) ∧
    exec s (.close (some 0) 1) = some u ∧ Unreachable u 1 := by
  obtain ⟨s,hs,-,-,hclose,-⟩ := closed_sessions_unreachable openTwo ⟨trivial,trivial,trivial⟩
  cases hs
  obtain ⟨u,hu,hgone,-⟩ := hclose (some 0) 1 ⟨by decide +kernel,by decide +kernel,by decide +kernel⟩
  exact ⟨_,u,rfl,by decide +kernel,hu,hgone⟩

def usedThenClosed : List Call :=
  [.opened none oneBoard 0 true,.alloc (0,3) oneBoard 4 true,.access (0,3) 7 true,.close (some 0) 2]

/-- The closed session is selected, and when reopened hides that of thread 4. -/
theorem closed_session_selected : ∃ s u, run exec usedThenClosed start = some s ∧
    s.idMap 2 = false ∧
    (findOrAllocVregionSession s (0,3) 7 true).map Prod.snd = some (some 2) ∧
    findVregionSession s (0,3) 4 = some (some 1) ∧
    exec s (.opened (some 0) oneBoard 9 true) = some u ∧ hostAllocSession s.idMap = some 2 ∧
    findVregionSession u (0,3) 4 = some none := by
  obtain ⟨s,hs,hclear,hselected,hfound,halloc,hlost⟩ := exists_checked
    (run exec usedThenClosed start) (fun s => s.idMap 2 = false ∧
      (findOrAllocVregionSession s (0,3) 7 true).map Prod.snd = some (some 2) ∧
      findVregionSession s (0,3) 4 = some (some 1) ∧ hostAllocSession s.idMap = some 2 ∧
      findVregionSession (openSession s (some 0) oneBoard 9 true).1 (0,3) 4 = some none)
    (by decide +kernel)
  exact ⟨s,_,hs,hclear,hselected,hfound,rfl,halloc,hlost⟩

end Clio.SessionClose
