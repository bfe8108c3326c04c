import Clio.Errno
import Clio.SessionTable

/-!
# Migration of vRegions

The host asks the monitor to move a vRegion to another board.
-/

namespace Clio.Migration

open Function Hlist Machine SessionTable Errno

structure Board where
  ip : BitVec 32
  port : BitVec 32
  deriving DecidableEq, Repr

structure Vregion where
  board : Board
  allocated : Bool
  migration : Bool
  deriving DecidableEq, Repr

/-- The boards known to the host and the monitor, the sessions, and the `owners` at the monitor. -/
structure State where
  boards : List Board
  monitorBoards : List Board
  vregion : ℕ → Vregion
  context : List ℕ
  sessions : Sessions
  owners : ℕ → Board

def boardOf (ses : SessionNet) : Board := ⟨ses.boardIp,ses.udpPort⟩

def setVregion (s : State) (v : ℕ) (info : Vregion) : State :=
  { s with vregion := update s.vregion v info }

def contextFindSession (s : State) (tid : BitVec 32) (board : Board) : Option ℕ :=
  s.context.find? (fun p => s.sessions.objects[p]? == some ⟨tid,board.ip,board.port⟩)

def legomemOpenSession (s : State) (board : Board) (tid : BitVec 32) (answered : Bool) :
    Option (State × ℕ) :=
  if answered then
    some ({ s with sessions := openSession s.sessions ⟨tid,board.ip,board.port⟩
                   context := s.sessions.objects.length::s.context }, s.sessions.objects.length)
  else none

def sessionWith (s : State) (board : Board) (tid : BitVec 32) (answered : Bool) :
    Option (State × ℕ) :=
  match contextFindSession s tid board with
  | some p => some (s,p)
  | none => legomemOpenSession s board tid answered

def withSession (s : State) (v p : ℕ) : Option State :=
  (addVregionSession s.sessions v p).map (fun sessions => { s with sessions := sessions })

def findOrAllocVregionSession (s : State) (v : ℕ) (tid : BitVec 32) (answered : Bool) :
    Option (State × Option ℕ) :=
  if (s.vregion v).allocated then
    (findVregionSession s.sessions v tid).bind (fun found =>
      match found with
      | some p => some (s,some p)
      | none =>
          let board := (s.vregion v).board
          if (contextFindSession s tid board).isNone ∧ board ∉ s.boards then some (s,none)
          else
            match sessionWith s board tid answered with
            | none => some (s,none)
            | some (s,p) => (withSession s v p).map (fun s => (s,some p)))
  else some (s,none)

/-- `reply` is the monitor's choice of board and vRegion. -/
def legomemAlloc (s : State) (tid : BitVec 32) (reply : Option (Board × ℕ)) (answered : Bool) :
    Option State :=
  match reply with
  | none => some s
  | some (board,v) =>
      if (s.vregion v).allocated then some s
      else
        let s := setVregion s v { s.vregion v with board := board, allocated := true }
        if board ∉ s.boards then some s
        else
          match sessionWith s board tid answered with
          | none => some s
          | some (s,p) =>
              (findVregionSession s.sessions v tid).bind (fun found =>
                match found with
                | some _ => some s
                | none => withSession s v p)

structure MigrationReq where
  src : Board
  dst : Board
  vregionIndex : ℕ
  deriving DecidableEq, Repr

inductive Exchange where
  | requestLost
  | replyLost (notifyRecv notifySend : ℤ)
  | replied (notifyRecv notifySend : ℤ)
  deriving DecidableEq, Repr

def handleMigrationH2m (s : State) (req : MigrationReq) (notifyRecv notifySend : ℤ) :
    State × ℤ :=
  if req.src ∉ s.monitorBoards then (s,-EFAULT)
  else if req.dst ∉ s.monitorBoards then (s,-EFAULT)
  else if notifyRecv ≠ 0 then (s,-EFAULT)
  else if notifySend ≠ 0 then (s,-EFAULT)
  else ({ s with owners := update s.owners req.vregionIndex req.dst },0)

def migrationReq (s : State) (dst : Board) (v : ℕ) : MigrationReq := ⟨(s.vregion v).board,dst,v⟩

def moveSession (s : State) (dst : Board) (v : ℕ) (tid : BitVec 32) (answered : Bool) :
    Option (State × ℤ) :=
  (removeVregionSession s.sessions v tid).bind (fun removed =>
    let s := { s with sessions := removed.1 }
    match sessionWith s dst tid answered with
    | none => some (s,0)
    | some (s,p) =>
        (withSession s v p).map (fun s =>
          (setVregion s v { s.vregion v with migration := false },0)))

def legomemMigrationVregion (s : State) (dst : Board) (v : ℕ) (tid : BitVec 32)
    (exchange : Exchange) (answered : Bool) : Option (State × ℤ) :=
  if !(s.vregion v).allocated then some (s,-EINVAL)
  else if (s.vregion v).migration then some (s,-EBUSY)
  else
    let s := setVregion s v { s.vregion v with migration := true }
    match exchange with
    | .requestLost => some (s,- Errno.EIO)
    | .replyLost recv send =>
        some ((handleMigrationH2m s (migrationReq s dst v) recv send).1,- Errno.EIO)
    | .replied recv send =>
        let (s,ret) := handleMigrationH2m s (migrationReq s dst v) recv send
        if ret ≠ 0 then
          -- the message names the source board
          if (s.vregion v).board ∈ s.boards then some (s,ret) else none
        else moveSession s dst v tid answered

inductive Call where
  | alloc (tid : BitVec 32) (reply : Option (Board × ℕ)) (answered : Bool)
  | access (v : ℕ) (tid : BitVec 32) (answered : Bool)
  | migrate (dst : Board) (v : ℕ) (tid : BitVec 32) (exchange : Exchange) (answered : Bool)
  deriving DecidableEq, Repr

def exec (s : State) : Call → Option State
  | .alloc tid reply answered => legomemAlloc s tid reply answered
  | .access v tid answered => (findOrAllocVregionSession s v tid answered).map Prod.fst
  | .migrate dst v tid exchange answered =>
      (legomemMigrationVregion s dst v tid exchange answered).map Prod.fst

def boot (boards monitorBoards : List Board) (owners : ℕ → Board) : State :=
  ⟨boards, monitorBoards, fun _ => ⟨⟨0,0⟩,false,false⟩, [], start, owners⟩

/-- The host sends the request and the monitor does what it asks. -/
def Moves (s : State) (dst : Board) (v : ℕ) (exchange : Exchange) : Prop :=
  (s.vregion v).allocated = true ∧ (s.vregion v).migration = false ∧
    match exchange with
    | .requestLost => False
    | .replyLost recv send | .replied recv send =>
        (handleMigrationH2m s (migrationReq s dst v) recv send).2 = 0

def Exchange.lost : Exchange → Bool
  | .replyLost _ _ => true
  | _ => false

def Harmless (s : State) : Call → Prop
  | .migrate dst v _ exchange _ =>
      Moves s dst v exchange → dst = (s.vregion v).board ∧ exchange.lost = false
  | _ => True

/-- The board of a session, as a relation. -/
def node (objects : List SessionNet) (p : ℕ) (board : Board) : Prop :=
  objects[p]?.map boardOf = some board

def owner (vregion : ℕ → Vregion) (head : ℕ × ℕ) (board : Board) : Prop :=
  (vregion head.1).allocated = true ∧ (vregion head.1).board = board

lemma node_unique (objects : List SessionNet) (p : ℕ) (k1 k2 : Board)
    (h1 : node objects p k1) (h2 : node objects p k2) : k1 = k2 :=
  Option.some.inj (h1.symm.trans h2)

lemma owner_unique (vregion : ℕ → Vregion) (head : ℕ × ℕ) (k1 k2 : Board)
    (h1 : owner vregion head k1) (h2 : owner vregion head k2) : k1 = k2 := h1.2.symm.trans h2.2

def Sorted (s : State) : Prop :=
  Coloured s.sessions.links (node s.sessions.objects) (owner s.vregion)

def Keeps (s u : State) : Prop :=
  ∀ v, (s.vregion v).allocated = true →
    (u.vregion v).allocated = true ∧ (u.vregion v).board = (s.vregion v).board

section

variable (s : State)
include s

lemma keeps_refl : Keeps s s := fun _ h => ⟨h,rfl⟩

lemma keeps_trans (m u : State) (h1 : Keeps s m) (h2 : Keeps m u) : Keeps s u := by
  intro v hv
  obtain ⟨ha,hb⟩ := h1 v hv
  obtain ⟨ha',hb'⟩ := h2 v ha
  exact ⟨ha',hb'.trans hb⟩

variable (v : ℕ)

lemma find_sorted (p : ℕ) (tid : BitVec 32) (h : Sorted s)
    (hfind : findVregionSession s.sessions v tid = some (some p)) :
    node s.sessions.objects p (s.vregion v).board := by
  unfold findVregionSession at hfind
  cases hfirst : s.sessions.links.first (v,hashMin tid) with
  | none =>
    rw [hfirst,findFrom] at hfind
    cases hfind
  | some a =>
    obtain ⟨k,hk,hnode⟩ := h.first _ _ hfirst
    have hboard : (s.vregion v).board = k := hk.2
    rw [hfirst] at hfind
    rw [hboard]
    exact find_from_coloured _ _ _ a p k h (node_unique _) hnode hfind

lemma opened_sorted (ses : SessionNet) (context : List ℕ) (h : Sorted s) :
    Sorted { s with sessions := openSession s.sessions ses, context := context } := by
  have hgrown : ∀ p k, node s.sessions.objects p k →
      node (openSession s.sessions ses).objects p k := by
    intro p k hp
    unfold node at hp ⊢
    cases ho : s.sessions.objects[p]? with
    | none =>
      rw [ho] at hp
      cases hp
    | some o =>
      have hlt := (List.getElem?_eq_some_iff.mp ho).1
      rw [openSession,List.getElem?_append_left hlt]
      exact hp
  have hold := Coloured.mono h hgrown (fun _ _ hb => hb)
  constructor
  · exact hold.first
  · intro a c hac
    simp only [openSession,update_apply] at hac
    split_ifs at hac
    exact hold.next a c hac
  · intro a slot hslot
    simp only [openSession,update_apply] at hslot
    split_ifs at hslot
    exact hold.pprev a slot hslot

variable (u : State)

lemma session_with_spec (board : Board) (tid : BitVec 32) (answered : Bool) (p : ℕ)
    (h : sessionWith s board tid answered = some (u,p)) (hs : Sorted s) :
    Sorted u ∧ node u.sessions.objects p board ∧ u.vregion = s.vregion ∧ u.owners = s.owners := by
  unfold sessionWith at h
  cases hfind : contextFindSession s tid board with
  | some q =>
    rw [hfind] at h
    cases h
    have hq := List.find?_some hfind
    refine ⟨hs,?_,rfl,rfl⟩
    unfold node
    rw [eq_of_beq hq]
    rfl
  | none =>
    rw [hfind] at h
    simp only [legomemOpenSession] at h
    split_ifs at h
    cases h
    refine ⟨opened_sorted s _ _ hs,?_,rfl,rfl⟩
    simp [node,openSession,boardOf]

lemma with_session_spec (v p : ℕ) (h : withSession s v p = some u) (hs : Sorted s)
    (hv : (s.vregion v).allocated = true) (hp : node s.sessions.objects p (s.vregion v).board) :
    Sorted u ∧ u.sessions.objects = s.sessions.objects ∧ u.vregion = s.vregion ∧
      u.owners = s.owners := by
  unfold withSession addVregionSession at h
  cases ho : s.sessions.objects[p]? with
  | none =>
    rw [ho] at h
    cases h
  | some ses =>
    rw [ho] at h
    cases h
    exact ⟨add_head_coloured _ _ _ (s.vregion v).board hs (owner_unique _) ⟨hv,rfl⟩ hp,rfl,rfl,rfl⟩

variable (info : Vregion)

lemma set_vregion_sorted (h : Sorted s)
    (hkeep : (s.vregion v).allocated = true →
      info.allocated = true ∧ info.board = (s.vregion v).board) :
    Sorted (setVregion s v info) := by
  apply Coloured.mono h (fun _ _ hp => hp)
  rintro ⟨w,b⟩ k ⟨ha,hb⟩
  unfold owner setVregion
  dsimp only
  rw [update_apply]
  split_ifs with hw
  · subst hw
    exact ⟨(hkeep ha).1,(hkeep ha).2.trans hb⟩
  · exact ⟨ha,hb⟩

lemma set_vregion_keeps
    (hkeep : (s.vregion v).allocated = true →
      info.allocated = true ∧ info.board = (s.vregion v).board) :
    Keeps s (setVregion s v info) := by
  intro w hw
  unfold setVregion
  dsimp only
  rw [update_apply]
  split_ifs with heq
  · subst heq
    exact hkeep hw
  · exact ⟨hw,rfl⟩

lemma access_spec (v : ℕ) (tid : BitVec 32) (answered : Bool) (r : Option ℕ)
    (h : findOrAllocVregionSession s v tid answered = some (u,r)) (hs : Sorted s) :
    Sorted u ∧ u.vregion = s.vregion ∧
      ∀ p, r = some p → node u.sessions.objects p (s.vregion v).board := by
  unfold findOrAllocVregionSession at h
  split_ifs at h with hv
  · obtain ⟨found,hfound,hrest⟩ := Option.bind_eq_some_iff.mp h
    cases found with
    | some q =>
      cases hrest
      refine ⟨hs,rfl,?_⟩
      intro p hp
      cases hp
      exact find_sorted s v q tid hs hfound
    | none =>
      dsimp only at hrest
      split_ifs at hrest
      · cases hrest
        exact ⟨hs,rfl,fun _ hp => by cases hp⟩
      · cases hses : sessionWith s (s.vregion v).board tid answered with
        | none =>
          rw [hses] at hrest
          cases hrest
          exact ⟨hs,rfl,fun _ hp => by cases hp⟩
        | some pair =>
          obtain ⟨m,q⟩ := pair
          rw [hses] at hrest
          obtain ⟨n,hn,heq⟩ := Option.map_eq_some_iff.mp hrest
          cases heq
          obtain ⟨hm,hq,hvm,-⟩ := session_with_spec s m _ tid answered q hses hs
          obtain ⟨hu,hobj,hvu,-⟩ := with_session_spec m u v q hn hm (hvm ▸ hv) (hvm ▸ hq)
          refine ⟨hu,hvu.trans hvm,?_⟩
          intro p hp
          cases hp
          rw [hobj]
          exact hq
  · cases h
    exact ⟨hs,rfl,fun _ hp => by cases hp⟩

lemma keeps_of_vregion (h : u.vregion = s.vregion) : Keeps s u := by
  intro v hv
  rw [h]
  exact ⟨hv,rfl⟩

variable (tid : BitVec 32)

lemma alloc_spec (reply : Option (Board × ℕ)) (answered : Bool)
    (h : legomemAlloc s tid reply answered = some u) (hs : Sorted s) : Sorted u ∧ Keeps s u := by
  unfold legomemAlloc at h
  cases reply with
  | none =>
    cases h
    exact ⟨hs,keeps_refl s⟩
  | some choice =>
    obtain ⟨board,v⟩ := choice
    dsimp only at h
    split_ifs at h with hv hboard
    · cases h
      exact ⟨hs,keeps_refl s⟩
    · have hsorted := set_vregion_sorted s v { s.vregion v with board := board, allocated := true }
        hs (fun ha => absurd ha hv)
      have hkeeps := set_vregion_keeps s v { s.vregion v with board := board, allocated := true }
        (fun ha => absurd ha hv)
      generalize hset :
        setVregion s v { s.vregion v with board := board, allocated := true } = t at *
      have hown : (t.vregion v).allocated = true ∧ (t.vregion v).board = board := by
        rw [← hset,setVregion]
        simp
      cases hses : sessionWith t board tid answered with
      | none =>
        rw [hses] at h
        cases h
        exact ⟨hsorted,hkeeps⟩
      | some pair =>
        obtain ⟨m,q⟩ := pair
        rw [hses] at h
        obtain ⟨found,-,hrest⟩ := Option.bind_eq_some_iff.mp h
        obtain ⟨hm,hq,hvm,-⟩ := session_with_spec t m _ tid answered q hses hsorted
        have hkm := keeps_trans s t m hkeeps (keeps_of_vregion t m hvm)
        cases found with
        | some _ =>
          cases hrest
          exact ⟨hm,hkm⟩
        | none =>
          obtain ⟨hu,-,hvu,-⟩ := with_session_spec m u v q hrest hm (hvm ▸ hown.1)
            (by rw [hvm,hown.2]; exact hq)
          exact ⟨hu,keeps_trans s m u hkm (keeps_of_vregion m u hvu)⟩
    · cases h
      exact ⟨set_vregion_sorted s v _ hs (fun ha => absurd ha hv),
        set_vregion_keeps s v _ (fun ha => absurd ha hv)⟩

lemma remove_sorted (removed : Sessions × ℤ)
    (h : removeVregionSession s.sessions v tid = some removed) (hs : Sorted s) :
    Sorted { s with sessions := removed.1 } := by
  unfold removeVregionSession at h
  obtain ⟨found,-,heq⟩ := Option.map_eq_some_iff.mp h
  cases found with
  | none =>
    cases heq
    exact hs
  | some p =>
    cases heq
    exact del_init_coloured _ p hs (node_unique _)

lemma move_session_spec (dst : Board) (v : ℕ) (tid : BitVec 32) (answered : Bool) (ret : ℤ)
    (h : moveSession s dst v tid answered = some (u,ret)) (hs : Sorted s)
    (hv : (s.vregion v).allocated = true) (hdst : dst = (s.vregion v).board) :
    Sorted u ∧ Keeps s u ∧ u.owners = s.owners ∧ ret = 0 := by
  unfold moveSession at h
  obtain ⟨removed,hremoved,hrest⟩ := Option.bind_eq_some_iff.mp h
  have hsorted := remove_sorted s v tid removed hremoved hs
  dsimp only at hrest
  cases hses : sessionWith { s with sessions := removed.1 } dst tid answered with
  | none =>
    rw [hses] at hrest
    cases hrest
    exact ⟨hsorted,keeps_refl s,rfl,rfl⟩
  | some pair =>
    obtain ⟨m,q⟩ := pair
    rw [hses] at hrest
    obtain ⟨n,hn,heq⟩ := Option.map_eq_some_iff.mp hrest
    obtain ⟨hm,hq,hvm,how⟩ := session_with_spec _ m _ tid answered q hses hsorted
    have hvm' : m.vregion = s.vregion := hvm
    obtain ⟨hn',-,hvn,hown⟩ := with_session_spec m n v q hn hm (hvm' ▸ hv)
      (by rw [hvm',← hdst]; exact hq)
    cases heq
    refine ⟨set_vregion_sorted n v _ hn' (fun ha => ⟨ha,rfl⟩),?_,hown.trans how,rfl⟩
    exact keeps_trans s n _ (keeps_of_vregion s n (hvn.trans hvm'))
      (set_vregion_keeps n v _ (fun ha => ⟨ha,rfl⟩))

lemma handle_ret (req : MigrationReq) (recv send : ℤ) (info : Vregion) :
    (handleMigrationH2m s req recv send).2 = 0 ∧
        handleMigrationH2m (setVregion s v info) req recv send =
          ({ setVregion s v info with owners := update s.owners req.vregionIndex req.dst },0) ∨
      handleMigrationH2m (setVregion s v info) req recv send = (setVregion s v info,-EFAULT) := by
  unfold handleMigrationH2m setVregion
  dsimp only
  split_ifs
  · exact .inr rfl
  · exact .inr rfl
  · exact .inl ⟨rfl,rfl⟩
  · exact .inr rfl
  · exact .inr rfl

lemma migrate_spec (dst : Board) (v : ℕ) (tid : BitVec 32) (exchange : Exchange) (answered : Bool)
    (ret : ℤ) (h : legomemMigrationVregion s dst v tid exchange answered = some (u,ret))
    (hs : Sorted s) (hok : Harmless s (.migrate dst v tid exchange answered)) :
    Sorted u ∧ Keeps s u ∧ ((ret = 0 ∧ (s.vregion v).allocated = true ∧
          dst = (s.vregion v).board ∧ u.owners v = dst) ∨
        (ret ≠ 0 ∧ u.owners = s.owners ∧ ∀ w, (u.vregion w).board = (s.vregion w).board)) := by
  unfold legomemMigrationVregion at h
  split_ifs at h with hv hm
  · cases h
    exact ⟨hs,keeps_refl s,.inr ⟨by decide,rfl,fun _ => rfl⟩⟩
  · cases h
    exact ⟨hs,keeps_refl s,.inr ⟨by decide,rfl,fun _ => rfl⟩⟩
  · have halloc : (s.vregion v).allocated = true := by simpa using hv
    have hsorted := set_vregion_sorted s v { s.vregion v with migration := true } hs
      (fun ha => ⟨ha,rfl⟩)
    have hkeeps := set_vregion_keeps s v { s.vregion v with migration := true }
      (fun ha => ⟨ha,rfl⟩)
    have hboards : ∀ w, ((setVregion s v { s.vregion v with migration := true }).vregion w).board =
        (s.vregion w).board := by
      intro w
      simp only [setVregion,update_apply]
      split_ifs with hw
      · rw [hw]
      · rfl
    have hreq : migrationReq (setVregion s v { s.vregion v with migration := true }) dst v =
        migrationReq s dst v := by
      rw [migrationReq,hboards]
      rfl
    have hkept := hkeeps v halloc
    cases exchange with
    | requestLost =>
      cases h
      exact ⟨hsorted,hkeeps,.inr ⟨by decide,rfl,hboards⟩⟩
    | replyLost recv send =>
      dsimp only at h
      rw [hreq] at h
      rcases handle_ret s v (migrationReq s dst v) recv send { s.vregion v with migration := true }
        with ⟨hzero,-⟩ | hfailed
      · cases (hok ⟨halloc,by simpa using hm,hzero⟩).2
      · rw [hfailed] at h
        cases h
        exact ⟨hsorted,hkeeps,.inr ⟨by decide,rfl,hboards⟩⟩
    | replied recv send =>
      dsimp only at h
      rw [hreq] at h
      rcases handle_ret s v (migrationReq s dst v) recv send { s.vregion v with migration := true }
        with ⟨hzero,hdone⟩ | hfailed
      · have hdst := (hok ⟨halloc,by simpa using hm,hzero⟩).1
        rw [hdone] at h
        dsimp only at h
        rw [if_neg (by simp)] at h
        obtain ⟨hu,hku,how,hret⟩ := move_session_spec _ u dst v tid answered ret h hsorted hkept.1
          (hdst.trans hkept.2.symm)
        refine ⟨hu,keeps_trans s _ u hkeeps hku,.inl ⟨hret,halloc,hdst,?_⟩⟩
        rw [how]
        exact update_self _ _ _
      · rw [hfailed] at h
        dsimp only at h
        rw [if_pos (by decide)] at h
        split_ifs at h
        cases h
        exact ⟨hsorted,hkeeps,.inr ⟨by decide,rfl,hboards⟩⟩

lemma step_spec (call : Call) (hs : Sorted s) (hok : Harmless s call) (h : exec s call = some u) :
    Sorted u ∧ Keeps s u := by
  cases call with
  | alloc tid reply answered => exact alloc_spec s u tid reply answered h hs
  | access v tid answered =>
    obtain ⟨pair,hpair,rfl⟩ := Option.map_eq_some_iff.mp h
    obtain ⟨hu,hvu,-⟩ := access_spec s pair.1 v tid answered pair.2 hpair hs
    exact ⟨hu,keeps_of_vregion s pair.1 hvu⟩
  | migrate dst v tid exchange answered =>
    obtain ⟨pair,hpair,rfl⟩ := Option.map_eq_some_iff.mp h
    obtain ⟨hu,hku,-⟩ := migrate_spec s pair.1 dst v tid exchange answered pair.2 hpair hs hok
    exact ⟨hu,hku⟩

end

lemma run_spec (calls : List Call) (s u : State) (hs : Sorted s)
    (hok : Guarded exec Harmless calls s) (h : run exec calls s = some u) :
    Sorted u ∧ Keeps s u := by
  apply run_invariant exec Harmless (fun m => Sorted m ∧ Keeps s m) _ calls s u
    ⟨hs,keeps_refl s⟩ hok h
  rintro m call n ⟨hm,hkeeps⟩ hcall hn
  obtain ⟨hsorted,hnext⟩ := step_spec m n call hm hcall hn
  exact ⟨hsorted,keeps_trans s m n hkeeps hnext⟩

lemma boot_sorted (boards monitorBoards : List Board) (owners : ℕ → Board) :
    Sorted (boot boards monitorBoards owners) where
  first _ _ h := by cases h
  next _ _ h := by cases h
  pprev _ _ h := by cases h

/-- The records agree if every migration that the monitor carries out goes to the owner and is
answered. -/
theorem migration_consistent (boards monitorBoards : List Board) (owners : ℕ → Board)
    (calls : List Call) (s u : State) (dst : Board) (v : ℕ) (tid : BitVec 32)
    (exchange : Exchange) (answered : Bool) (ret : ℤ)
    (hok : Guarded exec Harmless (calls++[.migrate dst v tid exchange answered])
      (boot boards monitorBoards owners))
    (hrun : run exec calls (boot boards monitorBoards owners) = some s)
    (h : legomemMigrationVregion s dst v tid exchange answered = some (u,ret)) :
    (ret = 0 → (u.vregion v).board = dst ∧ u.owners v = dst ∧
      ∀ later t, Guarded exec Harmless later u → run exec later u = some t →
        (∀ dst', (migrationReq t dst' v).src = dst) ∧
        ∀ tid' answered' w p, findOrAllocVregionSession t v tid' answered' = some (w,some p) →
          node w.sessions.objects p dst) ∧
      (ret ≠ 0 → u.owners = s.owners ∧ ∀ w, (u.vregion w).board = (s.vregion w).board) := by
  obtain ⟨hbefore,hlast⟩ := guarded_append exec Harmless calls _ _ s hok hrun
  have hs := (run_spec calls _ s (boot_sorted boards monitorBoards owners) hbefore hrun).1
  obtain ⟨hu,hkeeps,hcases⟩ := migrate_spec s u dst v tid exchange answered ret h hs hlast.1
  rcases hcases with ⟨hret,halloc,hdst,howner⟩ | ⟨hret,howners,hboards⟩
  · have hboard : (u.vregion v).board = dst := (hkeeps v halloc).2.trans hdst.symm
    refine ⟨fun _ => ⟨hboard,howner,?_⟩,fun hne => absurd hret hne⟩
    intro later t hlater ht
    obtain ⟨hsorted,hkt⟩ := run_spec later u t hu hlater ht
    have ht' : (t.vregion v).board = dst := (hkt v (hkeeps v halloc).1).2.trans hboard
    refine ⟨fun _ => ht',?_⟩
    intro tid' answered' w p hp
    have hnode := (access_spec t w v tid' answered' (some p) hp hsorted).2.2 p rfl
    rwa [ht'] at hnode
  · exact ⟨fun heq => absurd heq hret,fun _ => ⟨howners,hboards⟩⟩

instance (s : State) (dst : Board) (v : ℕ) :
    (exchange : Exchange) → Decidable (Moves s dst v exchange)
  | .requestLost => .isFalse fun h => h.2.2
  | .replyLost _ _ => inferInstanceAs (Decidable (_ ∧ _ ∧ _ = (0 : ℤ)))
  | .replied _ _ => inferInstanceAs (Decidable (_ ∧ _ ∧ _ = (0 : ℤ)))

instance (s : State) : (call : Call) → Decidable (Harmless s call)
  | .alloc _ _ _ => .isTrue trivial
  | .access _ _ _ => .isTrue trivial
  | .migrate dst v _ exchange _ => inferInstanceAs (Decidable (Moves s dst v exchange → _ ∧ _))

def boardA : Board := ⟨1,10⟩

def boardB : Board := ⟨2,20⟩

def twoBoards : State := boot [boardA,boardB] [boardA,boardB] (fun _ => ⟨0,0⟩)

/-- vRegion 3 is on board A. Board B declines it, and then it is migrated to board A again. -/
def declined : List Call :=
  [.alloc 7 (some (boardA,3)) true,.alloc 7 (some (boardA,4)) true,
    .migrate boardB 4 7 (.replied 12 0) true]

theorem migration_to_owner : ∃ s u w,
    run exec declined twoBoards = some s ∧
      legomemMigrationVregion s boardA 3 7 (.replied 0 0) true = some (u,0) ∧
      (u.vregion 3).board = boardA ∧ u.owners 3 = boardA ∧
      legomemMigrationVregion s boardB 3 7 (.replied 0 5) true = some (w,-EFAULT) ∧
      w.owners = s.owners := by
  obtain ⟨s,hs,hmoved,hfailed⟩ := exists_checked (run exec declined twoBoards) (fun s =>
    (legomemMigrationVregion s boardA 3 7 (.replied 0 0) true).any (fun r => r.2 = 0) ∧
      (legomemMigrationVregion s boardB 3 7 (.replied 0 5) true).any (fun r => r.2 = -EFAULT))
    (by decide +kernel)
  obtain ⟨⟨u,ret⟩,hu,rfl⟩ := exists_checked _ _ hmoved
  obtain ⟨⟨w,code⟩,hw,rfl⟩ := exists_checked _ _ hfailed
  have hyes := migration_consistent [boardA,boardB] [boardA,boardB] (fun _ => ⟨0,0⟩) declined
    s u boardA 3 7 (.replied 0 0) true 0 (by decide +kernel) hs hu
  have hno := migration_consistent [boardA,boardB] [boardA,boardB] (fun _ => ⟨0,0⟩) declined
    s w boardB 3 7 (.replied 0 5) true (-EFAULT) (by decide +kernel) hs hw
  exact ⟨s,u,w,hs,hu,(hyes.1 rfl).1,(hyes.1 rfl).2.1,hw,(hno.2 (by decide)).1⟩

/-- After a migration from A to B the monitor has B and the host still A. -/
theorem host_keeps_old_board : ∃ s u,
    run exec [.alloc 7 (some (boardA,3)) true] twoBoards = some s ∧
      legomemMigrationVregion s boardB 3 7 (.replied 0 0) true = some (u,0) ∧
      u.owners 3 = boardB ∧ (u.vregion 3).board = boardA ∧ boardA ≠ boardB := by
  obtain ⟨s,hs,hmoved⟩ := exists_checked (run exec [.alloc 7 (some (boardA,3)) true] twoBoards)
    (fun s => (legomemMigrationVregion s boardB 3 7 (.replied 0 0) true).any (fun r =>
      r.2 = 0 ∧ r.1.owners 3 = boardB ∧ (r.1.vregion 3).board = boardA)) (by decide +kernel)
  obtain ⟨⟨u,ret⟩,hu,rfl,howner,hboard⟩ := exists_checked _ _ hmoved
  exact ⟨s,u,hs,hu,howner,hboard,by decide⟩

end Clio.Migration
