import Clio.HashTable
import Clio.Machine

/-!
# The session tables of the host's vRegions

Each vRegion has a small hash table of the sessions that threads use for it, keyed by the thread.
-/

namespace Clio.SessionTable

open Function Hlist HashTable Machine

structure SessionNet where
  tid : BitVec 32
  boardIp : BitVec 32
  udpPort : BitVec 32
  deriving DecidableEq, Repr

abbrev Links := Hlist.Heap ℕ (ℕ × ℕ)

structure Sessions where
  objects : List SessionNet
  links : Links

/-- `hash_32`. -/
def hash32 (key : BitVec 32) (bits : ℕ) : ℕ := ((key*0x61C88647#32)>>>(32-bits)).toNat

def hashMin (key : BitVec 32) : ℕ := hash32 key 2

def hasTid (objects : List SessionNet) (tid : BitVec 32) (p : ℕ) : Bool :=
  match objects[p]? with
  | none => false
  | some ses => ses.tid == tid

def openSession (s : Sessions) (ses : SessionNet) : Sessions :=
  ⟨s.objects++[ses],
    { s.links with next := update s.links.next s.objects.length none
                   pprev := update s.links.pprev s.objects.length none }⟩

def addVregionSession (s : Sessions) (v p : ℕ) : Option Sessions :=
  s.objects[p]?.map
    (fun ses => { s with links := addHead s.links p (v,hashMin ses.tid) })

/-- The walk passes each session once at most, or it never ends. -/
def findVregionSession (s : Sessions) (v : ℕ) (tid : BitVec 32) : Option (Option ℕ) :=
  findFrom s.links (hasTid s.objects tid) s.objects.length (s.links.first (v,hashMin tid))

def removeVregionSession (s : Sessions) (v : ℕ) (tid : BitVec 32) : Option (Sessions × ℤ) :=
  (findVregionSession s v tid).map (fun found =>
    match found with
    | none => (s,-1)
    | some p => ({ s with links := delInit s.links p },0))

inductive Call where
  | opened (ses : SessionNet)
  | add (v p : ℕ)
  | remove (v : ℕ) (tid : BitVec 32)
  deriving DecidableEq, Repr

def exec (s : Sessions) : Call → Option Sessions
  | .opened ses => some (openSession s ses)
  | .add v p => addVregionSession s v p
  | .remove v tid => (removeVregionSession s v tid).map Prod.fst

def start : Sessions := ⟨[],empty⟩

structure Maps where
  objects : List SessionNet
  added : ℕ → List ℕ

def Maps.find (m : Maps) (v : ℕ) (tid : BitVec 32) : Option ℕ :=
  (m.added v).find? (hasTid m.objects tid)

def Maps.step (m : Maps) : Call → Maps
  | .opened ses => { m with objects := m.objects++[ses] }
  | .add v p => { m with added := update m.added v (p::m.added v) }
  | .remove v tid =>
      { m with added := update m.added v ((m.added v).eraseP (hasTid m.objects tid)) }

def Maps.run (calls : List Call) : Maps := calls.foldl Maps.step ⟨[],fun _ => []⟩

def Unlinked (s : Sessions) : Call → Prop
  | .add _ p => p < s.objects.length ∧ s.links.pprev p = none
  | _ => True

def bucketOf (objects : List SessionNet) (p : ℕ) : ℕ :=
  match objects[p]? with
  | none => 0
  | some ses => hashMin ses.tid

def buckets (m : Maps) (head : ℕ × ℕ) : List ℕ :=
  (m.added head.1).filter (fun p => bucketOf m.objects p == head.2)

structure Refines (s : Sessions) (m : Maps) : Prop where
  objects : m.objects = s.objects
  rep : Rep s.links (buckets m)
  nodup : ∀ v, (m.added v).Nodup
  bound : ∀ v, ∀ p ∈ m.added v, p < s.objects.length

variable (objects : List SessionNet) (tid : BitVec 32)

lemma bucket_of_tid (p : ℕ) (h : hasTid objects tid p = true) :
    bucketOf objects p = hashMin tid := by
  unfold hasTid at h
  unfold bucketOf
  split at h
  · cases h
  · rw [eq_of_beq h]

lemma find_bucket (m : Maps) (v : ℕ) (tid : BitVec 32) :
    (buckets m (v,hashMin tid)).find? (hasTid m.objects tid) = m.find v tid := by
  unfold buckets Maps.find
  dsimp only
  induction m.added v with
  | nil => rfl
  | cons p l ih =>
    rw [List.filter_cons,List.find?_cons]
    cases hp : hasTid m.objects tid p with
    | true =>
      rw [bucket_of_tid _ _ _ hp,if_pos (beq_self_eq_true _),List.find?_cons,hp]
    | false =>
      split_ifs
      · rw [List.find?_cons,hp]
        exact ih
      · exact ih

variable (s : Sessions)

lemma bucket_bound (m : Maps) (h : Refines s m) (head : ℕ × ℕ) :
    ∀ p ∈ buckets m head, p < s.objects.length :=
  fun p hp => h.bound head.1 p (List.mem_filter.mp hp).1

lemma find_refines (m : Maps) (h : Refines s m) (v : ℕ) (tid : BitVec 32) :
    findVregionSession s v tid = some (m.find v tid) := by
  refine (lookup_rep h.rep (bucket_bound s m h) _ _).trans ?_
  rw [← h.objects,find_bucket]

lemma mem_bucket (m : Maps) (v p : ℕ) :
    p ∈ m.added v ↔ p ∈ buckets m (v,bucketOf m.objects p) := by
  simp [buckets]

lemma opened_refines (m : Maps) (h : Refines s m) (ses : SessionNet) :
    Refines (openSession s ses) (m.step (.opened ses)) := by
  have hbuckets : ∀ head, buckets (m.step (.opened ses)) head = buckets m head := by
    intro head
    apply List.filter_congr
    intro p hp
    have hlt := h.bound head.1 p hp
    rw [← h.objects] at hlt
    unfold bucketOf
    rw [Maps.step,List.getElem?_append_left hlt]
  have hnew : ∀ head, s.objects.length ∉ buckets m head :=
    fun head hmem => Nat.lt_irrefl _ (bucket_bound s m h head _ hmem)
  refine ⟨by rw [Maps.step,openSession,h.objects],?_,h.nodup,?_⟩
  · rw [funext hbuckets]
    exact init_rep h.rep s.objects.length ((h.rep.linked _).mpr hnew)
  · intro v p hp
    have := h.bound v p hp
    simp only [openSession,List.length_append]
    omega

lemma add_refines (m : Maps) (h : Refines s m) (v p : ℕ) (hp : p < s.objects.length)
    (hfree : s.links.pprev p = none) :
    ∃ u, addVregionSession s v p = some u ∧ Refines u (m.step (.add v p)) := by
  have hout : ∀ w, p ∉ m.added w :=
    fun w hmem => (h.rep.linked p).mp hfree _ ((mem_bucket m w p).mp hmem)
  have hbucket : bucketOf m.objects p = hashMin (s.objects.get ⟨p,hp⟩).tid := by
    unfold bucketOf
    rw [h.objects,List.getElem?_eq_getElem hp]
    rfl
  refine ⟨{ s with links := addHead s.links p (v,hashMin (s.objects.get ⟨p,hp⟩).tid) },
    by simp [addVregionSession,List.getElem?_eq_getElem hp],h.objects,?_,?_,?_⟩
  · have hnew := add_head_rep s.links (buckets m) p (v,bucketOf m.objects p) h.rep hfree
    rw [hbucket] at hnew
    have hlists : buckets (m.step (.add v p)) = update (buckets m)
        (v,hashMin (s.objects.get ⟨p,hp⟩).tid)
        (p::buckets m (v,hashMin (s.objects.get ⟨p,hp⟩).tid)) := by
      funext ⟨w,b⟩
      rw [← hbucket,update_apply]
      unfold buckets Maps.step
      dsimp only
      by_cases hw : w = v
      · subst hw
        rw [update_self,List.filter_cons]
        by_cases hb : bucketOf m.objects p = b
        · simp [hb]
        · simp [hb,Ne.symm hb]
      · simp [hw]
    rw [hlists]
    exact hnew
  · intro w
    simp only [Maps.step,update_apply]
    split_ifs
    · exact List.nodup_cons.mpr ⟨hout v,h.nodup v⟩
    · exact h.nodup w
  · intro w q hq
    simp only [Maps.step,update_apply] at hq
    split_ifs at hq
    · rcases List.mem_cons.mp hq with rfl | hq
      · exact hp
      · exact h.bound v q hq
    · exact h.bound w q hq

lemma erase_found (l : List ℕ) (p : ℕ) (h : l.find? (hasTid objects tid) = some p) :
    l.eraseP (hasTid objects tid) = l.erase p := by
  induction l with
  | nil => cases h
  | cons q l ih =>
    rw [List.find?_cons] at h
    cases hq : hasTid objects tid q with
    | true =>
      rw [hq] at h
      cases h
      rw [List.eraseP_cons_of_pos hq,List.erase_cons_head]
    | false =>
      rw [hq] at h
      have hne : (q == p) = false := by
        rw [beq_eq_false_iff_ne]
        intro heq
        have := List.find?_some h
        rw [← heq,hq] at this
        cases this
      rw [List.eraseP_cons_of_neg (by simp [hq]),List.erase_cons,if_neg (by simp [hne]),ih h]

lemma remove_refines (m : Maps) (h : Refines s m) (v : ℕ) (tid : BitVec 32) :
    ∃ u, removeVregionSession s v tid = some u ∧ Refines u.1 (m.step (.remove v tid)) := by
  rw [removeVregionSession,find_refines s m h]
  cases hfind : m.find v tid with
  | none =>
    have hsame : m.step (.remove v tid) = m := by
      rw [Maps.step,List.eraseP_of_forall_not,update_eq_self]
      intro p hp
      exact List.find?_eq_none.mp hfind p hp
    refine ⟨(s,-1),rfl,?_⟩
    rw [hsame]
    exact h
  | some p =>
    have hmem : p ∈ m.added v := List.mem_of_find?_eq_some hfind
    have htid := List.find?_some hfind
    have hbucket := bucket_of_tid _ _ _ htid
    have hin := (mem_bucket m v p).mp hmem
    refine ⟨({ s with links := delInit s.links p },0),rfl,h.objects,?_,?_,?_⟩
    · have hnew := del_init_rep s.links (buckets m) p (v,bucketOf m.objects p) h.rep hin
      have hlists : buckets (m.step (.remove v tid)) = update (buckets m)
          (v,bucketOf m.objects p) ((buckets m (v,bucketOf m.objects p)).erase p) := by
        funext ⟨w,b⟩
        rw [update_apply]
        unfold buckets Maps.step
        dsimp only
        by_cases hw : w = v
        · subst hw
          rw [update_self,erase_found _ _ _ _ hfind,(h.nodup w).erase_eq_filter,
            ((h.nodup w).filter _).erase_eq_filter,List.filter_filter,List.filter_filter]
          by_cases hb : bucketOf m.objects p = b
          · subst hb
            simp [Bool.and_comm]
          · rw [if_neg (by simp [Ne.symm hb])]
            apply List.filter_congr
            intro q _
            by_cases hq : q = p
            · subst hq
              simp [hb]
            · simp [hq]
        · simp [hw]
      rw [hlists]
      exact hnew
    · intro w
      simp only [Maps.step,update_apply]
      split_ifs
      · exact (h.nodup v).sublist List.eraseP_sublist
      · exact h.nodup w
    · intro w q hq
      simp only [Maps.step,update_apply] at hq
      split_ifs at hq
      · exact h.bound v q (List.mem_of_mem_eraseP hq)
      · exact h.bound w q hq

lemma step_refines (m : Maps) (call : Call) (h : Refines s m) (hok : Unlinked s call) :
    ∃ u, exec s call = some u ∧ Refines u (m.step call) := by
  cases call with
  | opened ses => exact ⟨_,rfl,opened_refines s m h ses⟩
  | add v p => exact add_refines s m h v p hok.1 hok.2
  | remove v tid =>
    obtain ⟨u,hu,href⟩ := remove_refines s m h v tid
    exact ⟨u.1,by rw [exec,hu]; rfl,href⟩

lemma run_refines (calls : List Call) (s : Sessions) (m : Maps) (h : Refines s m)
    (hok : Guarded exec Unlinked calls s) :
    ∃ u, run exec calls s = some u ∧ Refines u (calls.foldl Maps.step m) := by
  induction calls generalizing s m with
  | nil => exact ⟨s,rfl,h⟩
  | cons call calls ih =>
    obtain ⟨n,hn,href⟩ := step_refines s m call h hok.1
    obtain ⟨u,hu,hrun⟩ := ih n (m.step call) href (by simpa [hn] using hok.2)
    exact ⟨u,by rw [run,hn]; exact hu,hrun⟩

lemma start_refines : Refines start ⟨[],fun _ => []⟩ where
  objects := rfl
  rep := rep_empty
  nodup _ := List.nodup_nil
  bound _ _ h := absurd h List.not_mem_nil

def Call.Touches : Call → ℕ → Prop
  | .opened _, _ => False
  | .add v _, w => v = w
  | .remove v _, w => v = w

lemma find_elsewhere (m : Maps) (h : Refines s m) (call : Call) (w : ℕ) (tid : BitVec 32)
    (hw : ¬ call.Touches w) : (m.step call).find w tid = m.find w tid := by
  cases call with
  | opened ses =>
    unfold Maps.find Maps.step
    dsimp only
    apply List.find?_congr
    intro p hp
    have hlt := h.bound w p hp
    rw [← h.objects] at hlt
    unfold hasTid
    rw [List.getElem?_append_left hlt]
  | add v p | remove v tid' =>
    have hne : w ≠ v := fun heq => hw heq.symm
    simp [Maps.find,Maps.step,hne]

/-- With free links a search returns the newest session that was added and not removed. -/
theorem tables_are_maps (calls : List Call) (hok : Guarded exec Unlinked calls start) :
    ∃ s, run exec calls start = some s ∧
      (∀ v tid, findVregionSession s v tid = some ((Maps.run calls).find v tid)) ∧
      ∀ call, Unlinked s call → ∃ u, exec s call = some u ∧
        ∀ w, ¬ call.Touches w → ∀ tid, findVregionSession u w tid = findVregionSession s w tid := by
  obtain ⟨s,hs,href⟩ := run_refines calls start _ start_refines hok
  refine ⟨s,hs,find_refines s _ href,?_⟩
  intro call hcall
  obtain ⟨u,hu,hnext⟩ := step_refines s _ call href hcall
  refine ⟨u,hu,?_⟩
  intro w hw tid
  rw [find_refines u _ hnext,find_refines s _ href,find_elsewhere s _ href call w tid hw]

instance (s : Sessions) : (call : Call) → Decidable (Unlinked s call)
  | .opened _ => .isTrue trivial
  | .add _ p => inferInstanceAs (Decidable (p < s.objects.length ∧ s.links.pprev p = none))
  | .remove _ _ => .isTrue trivial

def oneThread : SessionNet := ⟨7,1,1234⟩

def otherThread : SessionNet := ⟨8,1,1235⟩

def movedCalls : List Call :=
  [.opened oneThread,.opened otherThread,.add 3 0,.add 3 1,.remove 3 7,.add 4 0]

/-- The session of thread 7 leaves vRegion 3, where thread 8 stays, and goes to vRegion 4. -/
theorem tables_are_maps_moved : ∃ s u, run exec movedCalls start = some s ∧
    findVregionSession s 3 7 = some none ∧ findVregionSession s 4 7 = some (some 0) ∧
    exec s (.remove 4 7) = some u ∧ findVregionSession u 3 8 = some (some 1) := by
  obtain ⟨s,hs,hfind,hother⟩ := tables_are_maps movedCalls (by decide +kernel)
  obtain ⟨u,hu,hkept⟩ := hother (.remove 4 7) trivial
  refine ⟨s,u,hs,(hfind 3 7).trans (by decide +kernel),(hfind 4 7).trans (by decide +kernel),hu,?_⟩
  rw [hkept 3 (by simp [Call.Touches]) 8,hfind 3 8]
  decide +kernel

def sharedCalls : List Call := [.opened oneThread,.add 3 0,.add 4 0,.remove 3 7]

/-- The removal from vRegion 3 takes the session out of vRegion 4. -/
theorem removal_hits_other_vregion : ∃ s, run exec sharedCalls start = some s ∧
    findVregionSession s 4 7 = some none ∧ (Maps.run sharedCalls).find 4 7 = some 0 ∧
    findVregionSession s 3 7 = some (some 0) ∧ (Maps.run sharedCalls).find 3 7 = none :=
  exists_checked _ _ (by decide +kernel)

end Clio.SessionTable
