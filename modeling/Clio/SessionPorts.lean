import Clio.Machine
import Clio.SessionAddress

/-!
# Session numbers and receive ports

A host numbers its sessions by the first clear bit of a map and gives each one the next port of a
counter.
-/

namespace Clio.SessionPorts

open Function Machine SessionAddress

structure Host where
  globalBaseUdpPort : BitVec 32
  sessionIdMap : ℕ → Bool
  baseUdpPort : BitVec 32
  rxUdpPort : ℕ → BitVec 32
  opened : ℕ → Bool

inductive Outcome where
  | queueFails
  | filterFails
  | transportFails
  | remoteFails
  | opens
  deriving DecidableEq, Repr

inductive Event where
  | openSession (outcome : Outcome)
  | closeSession (id : ℕ)
  deriving DecidableEq, Repr

def freeSession (s : Host) (id : ℕ) : Host :=
  { s with sessionIdMap := hostFreeSession s.sessionIdMap id }

def allocSession (s : Host) : Option (ℕ × Host) :=
  (hostAllocSession s.sessionIdMap).map fun id =>
    (id, { s with sessionIdMap := update s.sessionIdMap id true })

def takePort (s : Host) (id : ℕ) : Host :=
  { s with
    rxUdpPort := update s.rxUdpPort id s.baseUdpPort
    baseUdpPort := s.baseUdpPort+1 }

def markOpened (s : Host) (id : ℕ) (opened : Bool) : Host :=
  { s with opened := update s.opened id opened }

def legomemOpenSession (s : Host) (outcome : Outcome) : Host :=
  match allocSession s with
  | none => s
  | some (id, u) =>
      match outcome with
      | .queueFails => freeSession u id
      | .filterFails | .transportFails | .remoteFails => freeSession (takePort u id) id
      | .opens => markOpened (takePort u id) id true

def legomemCloseSession (s : Host) (id : ℕ) : Host :=
  if s.opened id then markOpened (freeSession s id) id false else s

def step (s : Host) : Event → Host
  | .openSession outcome => legomemOpenSession s outcome
  | .closeSession id => legomemCloseSession s id

def boot (port : BitVec 32) (rx : ℕ → BitVec 32) : Host :=
  legomemOpenSession ⟨port, fun _ => false, port, rx, fun _ => false⟩ .opens

/-- The port that outgoing packets name. -/
def routeSrcPort (s : Host) (id : ℕ) : BitVec 32 := s.globalBaseUdpPort+BitVec.ofNat 32 id

def Matches (s : Host) : Prop := ∀ id, s.opened id = true → s.rxUdpPort id = routeSrcPort s id

structure Counted (s : Host) (n : ℕ) : Prop where
  port : s.baseUdpPort = s.globalBaseUdpPort+BitVec.ofNat 32 n
  bits : ∀ id, s.sessionIdMap id = decide (id < n)
  small : n ≤ nrMaxSessionsPerNode
  rx : ∀ id, s.opened id = true → id < n ∧ s.rxUdpPort id = routeSrcPort s id

lemma alloc_counted {s : Host} {n id : ℕ} (h : Counted s n)
    (halloc : hostAllocSession s.sessionIdMap = some id) : id = n ∧ n < nrMaxSessionsPerNode := by
  obtain ⟨hlt,hfree,hbelow⟩ := host_alloc_free halloc
  rw [h.bits,decide_eq_false_iff_not] at hfree
  have hid : id = n := by
    by_contra hne
    have := hbelow n (by omega)
    rw [h.bits,decide_eq_true_iff] at this
    omega
  exact ⟨hid,hid ▸ hlt⟩

def Steady (e : Event) : Prop := e = .openSession .opens ∨ e = .openSession .queueFails

lemma step_counted {s : Host} {n : ℕ} (h : Counted s n) (hn : 0 < n) {e : Event} (he : Steady e) :
    ∃ m, 0 < m ∧ Counted (step s e) m := by
  cases halloc : hostAllocSession s.sessionIdMap with
  | none =>
    refine ⟨n,hn,?_⟩
    obtain rfl | rfl := he <;> simpa [step,legomemOpenSession,allocSession,halloc] using h
  | some id =>
    obtain ⟨rfl,hlt⟩ := alloc_counted h halloc
    obtain rfl | rfl := he
    · refine ⟨id+1,by omega,?_⟩
      simp only [step,legomemOpenSession,allocSession,halloc,Option.map_some]
      refine ⟨?_,fun i => ?_,hlt,fun i hi => ?_⟩
      · change s.baseUdpPort+1 = s.globalBaseUdpPort+BitVec.ofNat 32 (id+1)
        rw [h.port,BitVec.ofNat_add,BitVec.add_assoc]
        rfl
      · change update s.sessionIdMap id true i = _
        rw [update_apply,h.bits]
        split_ifs with heq
        · exact (decide_eq_true (by omega)).symm
        · exact decide_eq_decide.mpr (by omega)
      · by_cases heq : i = id
        · subst heq
          exact ⟨by omega,(update_self ..).trans h.port⟩
        · obtain ⟨hi,hrx⟩ := h.rx i ((update_of_ne heq ..).symm.trans hi)
          exact ⟨by omega,(update_of_ne heq ..).trans hrx⟩
    · have hclear := (host_alloc_free halloc).2.1
      have hback : update (update s.sessionIdMap id true) id false = s.sessionIdMap := by
        rw [update_idem,← hclear,update_eq_self]
      refine ⟨id,hn,?_⟩
      simpa [step,legomemOpenSession,allocSession,halloc,freeSession,hostFreeSession,
        legomemMgmtSessionId,hn.ne',hback] using h

lemma boot_counted (port : BitVec 32) (rx : ℕ → BitVec 32) : Counted (boot port rx) 1 := by
  refine ⟨rfl,fun id => ?_,by decide,fun id hid => ?_⟩
  · change update (fun _ => false) 0 true id = _
    by_cases hid : id = 0 <;> simp [hid]
  · have hzero : id = 0 := by
      by_contra hne
      have hopened : update (fun _ => false) 0 true id = true := hid
      simp [update_of_ne hne] at hopened
    subst hzero
    exact ⟨by decide,(BitVec.add_zero port).symm⟩

lemma run_counted (port : BitVec 32) (rx : ℕ → BitVec 32) (es : List Event)
    (hes : ∀ e ∈ es, Steady e) : ∃ n, 0 < n ∧ Counted (runTotal step es (boot port rx)) n :=
  List.foldlRecOn es step (motive := fun s => ∃ n, 0 < n ∧ Counted s n)
    ⟨1,Nat.zero_lt_one,boot_counted port rx⟩
    fun _ ⟨_,hn,h⟩ e he => step_counted h hn (hes e he)

/-- The open sessions have their bit and the port that fits. -/
def Fitting (s : Host) : Prop :=
  ∀ id, s.opened id = true →
    id < nrMaxSessionsPerNode ∧ s.sessionIdMap id = true ∧ s.rxUdpPort id = routeSrcPort s id

lemma counted_fitting {s : Host} {n : ℕ} (h : Counted s n) : Fitting s := by
  intro id hid
  obtain ⟨hlt,hrx⟩ := h.rx id hid
  exact ⟨lt_of_lt_of_le hlt h.small,by rw [h.bits,decide_eq_true hlt],hrx⟩

lemma free_other (map : ℕ → Bool) {id j : ℕ} (h : j ≠ id) : hostFreeSession map id j = map j := by
  rw [hostFreeSession]
  split_ifs
  · rfl
  · exact update_of_ne h _ _

lemma step_fitting {s : Host} (h : Fitting s) {e : Event} (he : e ≠ .openSession .opens) :
    Fitting (step s e) := by
  cases e with
  | closeSession id =>
    rw [step,legomemCloseSession]
    split_ifs
    · intro j hj
      have hne : j ≠ id := by
        rintro rfl
        simp [markOpened] at hj
      obtain ⟨hlt,hbit,hrx⟩ := h j ((update_of_ne hne ..).symm.trans hj)
      exact ⟨hlt,(free_other _ hne).trans hbit,hrx⟩
    · exact h
  | openSession outcome =>
    cases halloc : hostAllocSession s.sessionIdMap with
    | none => simpa [step,legomemOpenSession,allocSession,halloc] using h
    | some id =>
      -- the number taken for a while is that of no open session
      have hne : ∀ j, s.opened j = true → j ≠ id := by
        rintro j hj rfl
        have hbit := (h j hj).2.1
        rw [(host_alloc_free halloc).2.1] at hbit
        cases hbit
      have hbits : ∀ j, j ≠ id →
          hostFreeSession (update s.sessionIdMap id true) id j = s.sessionIdMap j :=
        fun j hj => (free_other _ hj).trans (update_of_ne hj _ _)
      cases outcome with
      | opens => exact absurd rfl he
      | queueFails | filterFails | transportFails | remoteFails =>
        simp only [step,legomemOpenSession,allocSession,halloc,Option.map_some]
        intro j hj
        obtain ⟨hlt,hbit,hrx⟩ := h j hj
        first
          | exact ⟨hlt,(hbits j (hne j hj)).trans hbit,hrx⟩
          | exact ⟨hlt,(hbits j (hne j hj)).trans hbit,(update_of_ne (hne j hj) ..).trans hrx⟩

/-- The ports match and are apart if no open succeeds after a close or a late failure. -/
theorem ports_match (port : BitVec 32) (rx : ℕ → BitVec 32) (before after : List Event)
    (hbefore : ∀ e ∈ before, Steady e) (hafter : ∀ e ∈ after, e ≠ .openSession .opens) :
    let s := runTotal step (before++after) (boot port rx)
    Matches s ∧ ∀ a b, s.opened a = true → s.opened b = true →
      s.rxUdpPort a = s.rxUdpPort b → a = b := by
  intro s
  obtain ⟨n,-,hcounted⟩ := run_counted port rx before hbefore
  have h : Fitting s := by
    have hrun : s = runTotal step after (runTotal step before (boot port rx)) :=
      List.foldl_append
    rw [hrun]
    exact List.foldlRecOn after step (counted_fitting hcounted)
      fun _ hs e he => step_fitting hs (hafter e he)
  refine ⟨fun id hid => (h id hid).2.2,fun a b ha hb hab => ?_⟩
  obtain ⟨hlta,-,hrxa⟩ := h a ha
  obtain ⟨hltb,-,hrxb⟩ := h b hb
  unfold nrMaxSessionsPerNode at hlta hltb
  rw [hrxa,hrxb,routeSrcPort,routeSrcPort] at hab
  bv_omega

/-- Two opens, then a close and an open that is refused late. -/
theorem ports_match_closed :
    let s := runTotal step ([.openSession .opens,.openSession .queueFails,.openSession .opens]++
      [.closeSession 1,.openSession .remoteFails]) (boot 5000 fun _ => 0)
    s.opened 2 = true ∧ s.rxUdpPort 1 = 5003 ∧ Matches s :=
  ⟨by decide,by decide,(ports_match 5000 (fun _ => 0)
    [.openSession .opens,.openSession .queueFails,.openSession .opens]
    [.closeSession 1,.openSession .remoteFails] (by simp [Steady]) (by simp)).1⟩

/-- After a close, or an open that was refused late, number and port differ. -/
theorem reopened_port :
    let s := runTotal step [.openSession .opens,.closeSession 1,.openSession .opens]
      (boot 5000 fun _ => 0)
    let u := runTotal step [.openSession .transportFails,.openSession .opens] (boot 5000 fun _ => 0)
    s.opened 1 = true ∧ s.rxUdpPort 1 = 5002 ∧ routeSrcPort s 1 = 5001 ∧
      u.opened 1 = true ∧ u.rxUdpPort 1 = 5002 ∧ routeSrcPort u 1 = 5001 := by
  decide

end Clio.SessionPorts
