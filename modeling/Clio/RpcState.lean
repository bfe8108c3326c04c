import Clio.Machine

/-!
# Send states of the RPC transport

The sessions to a board share a send state, which counts them.
-/

namespace Clio.RpcState

open List Machine

structure SendState where
  addr : ℕ
  boardIp : BitVec 32
  sessionCnt : ℕ
  deriving DecidableEq, Repr

structure RpcSession where
  boardIp : BitVec 32
  sendState : ℕ
  deriving DecidableEq, Repr

structure Transport where
  perBoardStates : List SendState
  sessions : List RpcSession
  fresh : ℕ
  /-- The number of opens that failed after they were counted. -/
  lost : ℕ
  deriving DecidableEq, Repr

/-- Where an open fails; `session` stands for all that comes before the send state. -/
inductive Failure where
  | session
  | sendState
  | buf
  | msgBuf
  deriving DecidableEq, Repr

inductive Action where
  | openSession (boardIp : BitVec 32) (fails : Option Failure)
  | closeSession (i : ℕ)
  deriving DecidableEq, Repr

def setCnt (addr : ℕ) (f : ℕ → ℕ) (states : List SendState) : List SendState :=
  states.map fun st => if st.addr = addr then { st with sessionCnt := f st.sessionCnt } else st

def addBoardSendState (m : Transport) (boardIp : BitVec 32) : Transport × ℕ :=
  ({ m with perBoardStates := ⟨m.fresh,boardIp,0⟩::m.perBoardStates, fresh := m.fresh+1 },m.fresh)

/-- The session is counted before its buffer is allocated and registered. -/
def initSessionRpc (m : Transport) (boardIp : BitVec 32) (fails : Option Failure) :
    Option (Transport × ℕ) := do
  let (m,addr) ← match m.perBoardStates.find? (·.boardIp = boardIp) with
    | some st => some (m,st.addr)
    | none => if fails = some .sendState then none else some (addBoardSendState m boardIp)
  return ({ m with perBoardStates := setCnt addr (·+1) m.perBoardStates },addr)

/-- A new session is zeroed: its `board_ip` is set after the open. -/
def netOpenSession (m : Transport) (boardIp : BitVec 32) (fails : Option Failure) : Transport :=
  if fails = some .session then m
  else match initSessionRpc m 0 fails with
    | none => m
    | some (m,addr) =>
        if fails = some .buf ∨ fails = some .msgBuf then { m with lost := m.lost+1 }
        else { m with sessions := ⟨boardIp,addr⟩::m.sessions }

/-- The state goes with the last session that it counts. -/
def rpcCloseSession (m : Transport) (ses : RpcSession) : Option Transport :=
  (m.perBoardStates.find? (·.addr = ses.sendState)).map fun st =>
    { m with perBoardStates := if st.sessionCnt = 1 then
        m.perBoardStates.filter (·.addr ≠ st.addr) else setCnt st.addr (·-1) m.perBoardStates }

def exec (m : Transport) : Action → Option Transport
  | .openSession boardIp fails => some (netOpenSession m boardIp fails)
  | .closeSession i => do
      let m ← rpcCloseSession m (← m.sessions[i]?)
      return { m with sessions := m.sessions.eraseIdx i }

def start : Transport := ⟨[],[],0,0⟩

/-- One send state for every board that has sessions, with their number. -/
def Counted (m : Transport) : Prop :=
  ∀ ip, (m.perBoardStates.filter (·.boardIp = ip)).map (·.sessionCnt) =
    if ∃ ses ∈ m.sessions, ses.boardIp = ip then [m.sessions.countP (·.boardIp = ip)] else []

/-- The opens that the shared state counts. -/
def users (m : Transport) : ℕ := m.sessions.length+m.lost

/-- All opens see the address zero and share one state. -/
def Shared (m : Transport) : Prop :=
  (m.perBoardStates = [] ∧ users m = 0) ∨
    ∃ addr, m.perBoardStates = [⟨addr,0,users m⟩] ∧ users m ≠ 0 ∧
      ∀ ses ∈ m.sessions, ses.sendState = addr

lemma open_shared {m : Transport} (h : Shared m) (boardIp : BitVec 32)
    (fails : Option Failure) : Shared (netOpenSession m boardIp fails) := by
  have hinit : initSessionRpc m 0 fails = none ∨ ∃ addr fresh,
      initSessionRpc m 0 fails =
        some ({ m with perBoardStates := [⟨addr,0,users m+1⟩], fresh := fresh },addr) ∧
      ∀ ses ∈ m.sessions, ses.sendState = addr := by
    rcases h with ⟨hnone,husers⟩ | ⟨addr,hone,-,hses⟩
    · have hempty : m.sessions = [] :=
        length_eq_zero_iff.mp (Nat.eq_zero_of_add_eq_zero_right husers)
      by_cases hst : fails = some .sendState
      · exact .inl (by simp [initSessionRpc,hnone,hst])
      · exact .inr ⟨m.fresh,m.fresh+1,by
          simp [initSessionRpc,hnone,hst,addBoardSendState,setCnt,husers],by simp [hempty]⟩
    · exact .inr ⟨addr,m.fresh,by simp [initSessionRpc,hone,setCnt],hses⟩
  rw [netOpenSession]
  split
  · exact h
  rcases hinit with hnone | ⟨addr,fresh,hsome,hall⟩
  · rwa [hnone]
  · rw [hsome]
    dsimp only
    split
    · exact .inr ⟨addr,by simp [users,Nat.add_assoc],by simp [users],hall⟩
    · exact .inr ⟨addr,by simp [users,Nat.add_right_comm],by simp [users],by simpa using hall⟩

lemma close_shared {m u : Transport} (h : Shared m) (i : ℕ)
    (hu : exec m (.closeSession i) = some u) : Shared u := by
  obtain ⟨ses,hses,hu⟩ := Option.bind_eq_some_iff.mp hu
  obtain ⟨w,hw,hu⟩ := Option.bind_eq_some_iff.mp hu
  cases hu
  have hmem := mem_of_getElem? hses
  have hlen := length_eraseIdx_of_lt (List.getElem?_eq_some_iff.mp hses).1
  rcases h with ⟨-,husers⟩ | ⟨addr,hone,-,hall⟩
  · simp [users] at husers
    simp [husers.1] at hmem
  · simp [rpcCloseSession,hone,hall ses hmem] at hw
    subst hw
    have hpos := length_pos_of_mem hmem
    by_cases hlast : users m = 1
    · refine .inl ⟨by simp [hlast],?_⟩
      simp only [users,hlen] at hlast ⊢
      omega
    · refine .inr ⟨addr,(if_neg hlast).trans ?_,?_,fun t ht => hall t (mem_of_mem_eraseIdx ht)⟩
      · simp [setCnt,users,hlen]
        omega
      · simp only [users,hlen] at hlast ⊢
        omega

/-- The counts are right exactly when no counted open failed and all sessions go to the address
that an open sees. -/
theorem send_states_counted_iff (actions : List Action) (m : Transport)
    (hrun : run exec actions start = some m) :
    Counted m ↔ m.lost = 0 ∧ ∀ ses ∈ m.sessions, ses.boardIp = 0 := by
  have hshared : Shared m := by
    refine run_invariant exec (fun _ _ => True) Shared (fun s a u h _ hu => ?_) actions _ m
      (.inl ⟨rfl,rfl⟩) (guarded_of_forall _ _ _ _ fun _ _ _ => trivial) hrun
    cases a with
    | openSession boardIp fails =>
      cases hu
      exact open_shared h boardIp fails
    | closeSession i => exact close_shared h i hu
  have hle := countP_le_length (p := fun ses : RpcSession => ses.boardIp = 0) (l := m.sessions)
  constructor
  · intro h
    have hzero := h 0
    rcases hshared with ⟨hnone,husers⟩ | ⟨addr,hone,hpos,-⟩
    · simp [users] at husers
      simp [husers]
    · rw [hone] at hzero
      split_ifs at hzero
      · have hcnt : m.sessions.length+m.lost = _ := (List.cons.inj hzero).1
        have hall := countP_eq_length.mp (hle.antisymm (by omega))
        exact ⟨by omega,by simpa using hall⟩
      · cases hzero
  · rintro ⟨hlost,hall⟩ ip
    rcases hshared with ⟨hnone,husers⟩ | ⟨addr,hone,hpos,-⟩
    · simp [users] at husers
      simp [hnone,husers]
    · simp only [users,hlost,Nat.add_zero] at hpos
      obtain ⟨ses,hses⟩ := exists_mem_of_length_pos (Nat.pos_of_ne_zero hpos)
      by_cases hip : 0#32 = ip
      · subst hip
        have hcount : m.sessions.countP (·.boardIp = 0#32) = m.sessions.length :=
          countP_eq_length.mpr fun t ht => decide_eq_true (hall t ht)
        rw [if_pos ⟨ses,hses,hall ses hses⟩,hone,hcount]
        simp [users,hlost]
      · rw [if_neg fun h => hip (by obtain ⟨t,ht,rfl⟩ := h; exact (hall t ht).symm)]
        simp [hone,hip]

theorem send_states_counted_two :
    ∃ m, run exec [.openSession 0 none, .openSession 0 none, .closeSession 1] start = some m ∧
      Counted m :=
  ⟨_,rfl,(send_states_counted_iff [.openSession 0 none,.openSession 0 none,.closeSession 1] _
    rfl).mpr (by decide)⟩

theorem failed_open_counted :
    ∃ m, run exec [.openSession 5 (some .msgBuf)] start = some m ∧ m.sessions = [] ∧
      m.perBoardStates = [⟨0,0,1⟩] ∧ ¬Counted m := by
  refine ⟨_,rfl,rfl,rfl,fun h => ?_⟩
  exact absurd (h 0) (by decide)

end Clio.RpcState
