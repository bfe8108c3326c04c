import Clio.BramCache
import Clio.Machine

/-!
# The order of translations

Hits and misses come back on two paths, which answer their lookups one after the other. What a path
answers is given by its environment here: the cache, the fetch unit and the page fault unit.
-/

namespace Clio.LookupOrder

open List CoreMemTypes FetchUnit MemoryAccess Machine

/-- A lookup in flight with its number. -/
structure Item where
  idx : ℕ
  req : AddressLookupRequest
  deriving DecidableEq

structure Answer extends Item where
  pte : PageTableEntry

/-- The lookups in the cache are `looking`, those on the fault path `missed`; `joined` are answers
with the header they met. -/
structure State where
  seqFifo : List (BitVec 16)
  headerIn : List (ℕ × LegoMemAccessHeader)
  looking : List Item
  missed : List Item
  cacheRes : List Answer
  faultRes : List Answer
  sent : List AddressLookupRequest
  joined : List (Answer × ℕ × LegoMemAccessHeader)

inductive Step where
  | header (h : LegoMemAccessHeader)
  | hit (pte : PageTableEntry)
  | miss
  | answer (pte : PageTableEntry)
  | lose
  | res

def numInflightRequests : ℕ := 128

def accept (s : State) (h : LegoMemAccessHeader) : State :=
  let req := generateLookupRequest h
  { s with
    seqFifo := s.seqFifo++[req.seqId]
    headerIn := if isValidAccessRequest h then s.headerIn++[(s.sent.length, h)] else s.headerIn
    looking := s.looking++[⟨s.sent.length,req⟩]
    sent := s.sent++[req] }

def headIs (q : BitVec 16) : List Answer → Bool
  | [] => false
  | a::_ => a.pte.seqId == q

/-- The fault path wins if both heads have the number. -/
def select (q : BitVec 16) (cacheRes faultRes : List Answer) :
    Option (Answer × List Answer × List Answer) :=
  if headIs q faultRes then faultRes.head?.map fun a => (a,cacheRes,faultRes.tail)
  else if headIs q cacheRes then cacheRes.head?.map fun a => (a,cacheRes.tail,faultRes)
  else none

/-- A hit has the number of its command; the fetch unit may lose an entry, since it does not wait
for the page fault unit. -/
def exec (s : State) : Step → Option State
  | .header h =>
      if (generateLookupRequest h).reqType = .LOOKUP ∧ s.seqFifo.length < numInflightRequests then
        some (accept s h)
      else none
  | .hit pte =>
      match s.looking with
      | [] => none
      | x::rest => some { s with
          looking := rest
          cacheRes := s.cacheRes++[⟨x,{ pte with seqId := x.req.seqId }⟩] }
  | .miss =>
      match s.looking with
      | [] => none
      | x::rest => some { s with looking := rest, missed := s.missed++[x] }
  | .answer pte =>
      match s.missed with
      | [] => none
      | x::rest => some { s with missed := rest, faultRes := s.faultRes++[⟨x,pte⟩] }
  | .lose =>
      match s.missed with
      | [] => none
      | _::rest => some { s with missed := rest }
  | .res =>
      match s.seqFifo, s.headerIn with
      | q::seqs, h::headers => (select q s.cacheRes s.faultRes).map fun p =>
          { s with
            seqFifo := seqs
            headerIn := headers
            cacheRes := p.2.1
            faultRes := p.2.2
            joined := s.joined++[(p.1,h)] }
      | _, _ => none

def init : State := ⟨[],[],[],[],[],[],[],[]⟩

section

-- what it means for an entry to be the translation of a lookup
variable (T : AddressLookupRequest → PageTableEntry → Prop)

/-- Numbers in flight differ, and a path answers each lookup with its translation and number. -/
def Ok (s : State) : Step → Prop
  | .header h => (generateLookupRequest h).seqId ∉ s.seqFifo
  | .hit pte => ∀ x ∈ s.looking.head?, T x.req { pte with seqId := x.req.seqId }
  | .answer pte => ∀ x ∈ s.missed.head?, T x.req pte ∧ pte.seqId = x.req.seqId
  | _ => True

def Right (a : Answer) : Prop := T a.req a.pte ∧ a.pte.seqId = a.req.seqId

def pending (s : State) : List Item :=
  s.looking++(s.missed++(s.cacheRes.map Answer.toItem++s.faultRes.map Answer.toItem))

structure Inv (s : State) : Prop where
  fifo : s.seqFifo = (s.sent.drop s.joined.length).map AddressLookupRequest.seqId
  distinct : s.seqFifo.Nodup
  once : ((pending s).map Item.idx).Nodup
  behind : ∀ x ∈ pending s, s.joined.length ≤ x.idx ∧ s.sent[x.idx]? = some x.req
  right : ∀ a ∈ s.cacheRes++s.faultRes, Right T a
  count : s.joined.length ≤ s.sent.length
  joined : ∀ (k : ℕ) (p : Answer × ℕ × LegoMemAccessHeader), s.joined[k]? = some p →
    s.sent[k]? = some p.1.req ∧ Right T p.1

variable {T} {s : State}

lemma inv_accept (h : LegoMemAccessHeader) (hs : Inv T s)
    (hok : (generateLookupRequest h).seqId ∉ s.seqFifo) : Inv T (accept s h) := by
  have hperm :
      (pending (accept s h)).Perm (⟨s.sent.length,generateLookupRequest h⟩::pending s) := by
    simp only [pending,accept,append_assoc,cons_append,nil_append]
    exact perm_middle
  have hlt : ∀ x ∈ pending s, x.idx < s.sent.length := fun x hx =>
    (List.getElem?_eq_some_iff.mp (hs.behind x hx).2).1
  refine ⟨?_,?_,?_,?_,hs.right,?_,?_⟩
  · show s.seqFifo++[_] = ((s.sent++[_]).drop s.joined.length).map _
    rw [drop_append_of_le_length hs.count,map_append,hs.fifo]
    rfl
  · show (s.seqFifo++[_]).Nodup
    rw [nodup_append]
    refine ⟨hs.distinct,by simp,?_⟩
    intro a ha b hb hab
    obtain rfl := mem_singleton.mp hb
    exact hok (hab ▸ ha)
  · rw [(hperm.map Item.idx).nodup_iff,map_cons,nodup_cons]
    refine ⟨fun hmem => ?_,hs.once⟩
    obtain ⟨x,hx,heq⟩ := mem_map.mp hmem
    exact absurd (hlt x hx) (by rw [heq]; exact lt_irrefl _)
  · intro x hx
    show s.joined.length ≤ x.idx ∧ (s.sent++[generateLookupRequest h])[x.idx]? = some x.req
    rcases mem_cons.mp (hperm.subset hx) with rfl | hx
    · exact ⟨hs.count,by simp⟩
    · rw [List.getElem?_append_left (hlt x hx)]
      exact hs.behind x hx
  · show s.joined.length ≤ (s.sent++[_]).length
    rw [length_append]
    exact hs.count.trans (Nat.le_add_right _ _)
  · intro k p hp
    obtain ⟨hsent,hright⟩ := hs.joined k p hp
    refine ⟨?_,hright⟩
    show (s.sent++[_])[k]? = some p.1.req
    rw [List.getElem?_append_left (List.getElem?_eq_some_iff.mp hsent).1]
    exact hsent

/-- A lookup moves on or is lost. -/
lemma inv_moved {u : State} (hs : Inv T s) (hmoved : pending u <+~ pending s)
    (hright : ∀ a ∈ u.cacheRes++u.faultRes, Right T a) (hfifo : u.seqFifo = s.seqFifo)
    (hsent : u.sent = s.sent) (hjoined : u.joined = s.joined) : Inv T u := by
  obtain ⟨l,hperm,hsub⟩ := hmoved
  refine ⟨?_,hfifo ▸ hs.distinct,?_,?_,hright,?_,?_⟩
  · rw [hfifo,hsent,hjoined]
    exact hs.fifo
  · rw [← (hperm.map Item.idx).nodup_iff]
    exact hs.once.sublist (hsub.map Item.idx)
  · intro x hx
    rw [hsent,hjoined]
    exact hs.behind x (hsub.subset (hperm.symm.subset hx))
  · rw [hsent,hjoined]
    exact hs.count
  · rw [hsent,hjoined]
    exact hs.joined

lemma select_mem {q : BitVec 16} {c f c' f' : List Answer} {a : Answer}
    (h : select q c f = some (a,c',f')) : a.pte.seqId = q ∧
      ((c = a::c' ∧ f' = f) ∨ (c' = c ∧ f = a::f')) := by
  unfold select at h
  split_ifs at h with hf hc
  · cases f with
    | nil => cases h
    | cons b f =>
      cases h
      exact ⟨beq_iff_eq.mp hf,.inr ⟨rfl,rfl⟩⟩
  · cases c with
    | nil => cases h
    | cons b c =>
      cases h
      exact ⟨beq_iff_eq.mp hc,.inl ⟨rfl,rfl⟩⟩

/-- An answer with the number at the head of the FIFO is that of the oldest lookup. -/
lemma head_answer (hs : Inv T s) {q : BitVec 16} {seqs : List (BitVec 16)}
    (hq : s.seqFifo = q::seqs) {a : Answer} (hmem : a.toItem ∈ pending s) (ha : Right T a)
    (hseq : a.pte.seqId = q) : a.idx = s.joined.length := by
  obtain ⟨hle,hreq⟩ := hs.behind a.toItem hmem
  have hhead : s.seqFifo[0]? = some q := by
    rw [hq]
    rfl
  have hat : s.seqFifo[a.idx-s.joined.length]? = some q := by
    rw [hs.fifo,List.getElem?_map,List.getElem?_drop,show s.joined.length+(a.idx-s.joined.length) =
      a.idx by omega,hreq,Option.map_some,← ha.2,hseq]
  have hlt := (List.getElem?_eq_some_iff.mp hat).1
  have := (List.getElem?_inj hlt hs.distinct).mp (hat.trans hhead.symm)
  omega

lemma inv_res (hs : Inv T s) {q : BitVec 16} {seqs : List (BitVec 16)}
    (hq : s.seqFifo = q::seqs) (h : ℕ × LegoMemAccessHeader)
    (headers : List (ℕ × LegoMemAccessHeader)) {a : Answer} {c f : List Answer}
    (hsel : select q s.cacheRes s.faultRes = some (a,c,f)) :
    Inv T { s with
      seqFifo := seqs
      headerIn := headers
      cacheRes := c
      faultRes := f
      joined := s.joined++[(a,h)] } := by
  obtain ⟨hseq,hwhere⟩ := select_mem hsel
  have hperm : (pending s).Perm (a.toItem::(s.looking++(s.missed++
      (c.map Answer.toItem++f.map Answer.toItem)))) := by
    rcases hwhere with ⟨hc,rfl⟩ | ⟨rfl,hf⟩ <;> rw [perm_iff_count] <;> intro x
    · simp only [pending,hc,map_cons,count_append,count_cons]
      omega
    · simp only [pending,hf,map_cons,count_append,count_cons]
      omega
  have hsub : ∀ b ∈ c++f, b ∈ s.cacheRes++s.faultRes := by
    intro b hb
    rcases hwhere with ⟨hc,rfl⟩ | ⟨rfl,hf⟩ <;> simp only [*,mem_append,mem_cons] at * <;> tauto
  have hright : Right T a := by
    rcases hwhere with ⟨hc,-⟩ | ⟨-,hf⟩
    · exact hs.right a (by simp [hc])
    · exact hs.right a (by simp [hf])
  have hmem : a.toItem ∈ pending s := hperm.symm.subset (by simp)
  have hidx := head_answer hs hq hmem hright hseq
  have honce := hs.once
  rw [(hperm.map Item.idx).nodup_iff,map_cons,nodup_cons] at honce
  have hreq := (hs.behind a.toItem hmem).2
  have hlt := (List.getElem?_eq_some_iff.mp hreq).1
  have hfifo := hs.fifo
  rw [hq,drop_eq_getElem_cons (hidx ▸ hlt),map_cons] at hfifo
  have hdistinct := hs.distinct
  rw [hq,nodup_cons] at hdistinct
  refine ⟨?_,hdistinct.2,honce.2,?_,fun b hb => hs.right b (hsub b hb),?_,?_⟩
  · show seqs = (s.sent.drop (s.joined++[_]).length).map _
    rw [length_append]
    exact (List.cons.inj hfifo).2
  · intro x hx
    obtain ⟨hle,hsent⟩ := hs.behind x (hperm.symm.subset (mem_cons_of_mem _ hx))
    have hne : x.idx ≠ a.idx := fun heq => honce.1 (heq ▸ mem_map_of_mem hx)
    refine ⟨?_,hsent⟩
    show (s.joined++[_]).length ≤ x.idx
    rw [length_append,length_singleton]
    omega
  · show (s.joined++[_]).length ≤ s.sent.length
    rw [length_append,length_singleton]
    omega
  · intro k p hp
    change (s.joined++[(a,h)])[k]? = some p at hp
    have hcase : s.joined[k]? = some p ∨ k = s.joined.length ∧ p = (a,h) := by grind
    rcases hcase with hp | ⟨rfl,rfl⟩
    · exact hs.joined k p hp
    · exact ⟨hidx ▸ hreq,hright⟩

lemma step_inv (st : Step) (u : State) (hs : Inv T s) (hok : Ok T s st) (h : exec s st = some u) :
    Inv T u := by
  cases st with
  | header hd =>
    simp only [exec] at h
    split_ifs at h
    cases h
    exact inv_accept hd hs hok
  | hit pte =>
    simp only [exec] at h
    split at h
    · cases h
    · next x rest hq =>
      cases h
      refine inv_moved hs (Perm.subperm ?_) ?_ rfl rfl rfl
      · rw [perm_iff_count]
        intro y
        simp only [pending,hq,map_append,map_cons,map_nil,count_append,count_cons,count_nil]
        omega
      · intro a ha
        have hx : T x.req { pte with seqId := x.req.seqId } := hok x (by simp [hq])
        simp only [mem_append,mem_singleton] at ha
        rcases ha with (ha | rfl) | ha
        · exact hs.right a (mem_append_left _ ha)
        · exact ⟨hx,rfl⟩
        · exact hs.right a (mem_append_right _ ha)
  | miss =>
    simp only [exec] at h
    split at h
    · cases h
    · next x rest hq =>
      cases h
      refine inv_moved hs (Perm.subperm ?_) hs.right rfl rfl rfl
      rw [perm_iff_count]
      intro y
      simp only [pending,hq,count_append,count_cons,count_nil]
      omega
  | answer pte =>
    simp only [exec] at h
    split at h
    · cases h
    · next x rest hq =>
      cases h
      refine inv_moved hs (Perm.subperm ?_) ?_ rfl rfl rfl
      · rw [perm_iff_count]
        intro y
        simp only [pending,hq,map_append,map_cons,map_nil,count_append,count_cons,count_nil]
        omega
      · intro a ha
        have hx : T x.req pte ∧ pte.seqId = x.req.seqId := hok x (by simp [hq])
        simp only [← append_assoc,mem_append,mem_singleton] at ha
        rcases ha with ha | rfl
        · exact hs.right a (mem_append.mpr ha)
        · exact hx
  | lose =>
    simp only [exec] at h
    split at h
    · cases h
    · next x rest hq =>
      cases h
      refine inv_moved hs (Sublist.subperm ?_) hs.right rfl rfl rfl
      simp only [pending,hq]
      exact ((sublist_cons_self x rest).append_right _).append_left _
  | res =>
    simp only [exec] at h
    split at h
    · next q seqs hd headers hq hh =>
      obtain ⟨⟨a,c,f⟩,hsel,rfl⟩ := Option.map_eq_some_iff.mp h
      exact inv_res hs hq hd headers hsel
    · cases h

lemma init_inv : Inv T init := by
  refine ⟨rfl,List.nodup_nil,List.nodup_nil,?_,?_,le_rfl,?_⟩ <;> simp [init,pending]

end

/-! ## Headers -/

/-- The header is one of an access. -/
def Access : Step → Prop
  | .header h => isValidAccessRequest h = true
  | _ => True

structure Headers (s : State) : Prop where
  fifo : s.seqFifo.length = s.headerIn.length
  queue : ∀ (j : ℕ) (p : ℕ × LegoMemAccessHeader), s.headerIn[j]? = some p →
    p.1 = s.joined.length+j ∧ s.sent[p.1]? = some (generateLookupRequest p.2)
  count : s.sent.length = s.joined.length+s.headerIn.length
  joined : ∀ (k : ℕ) (p : Answer × ℕ × LegoMemAccessHeader), s.joined[k]? = some p →
    p.2.1 = k ∧ s.sent[k]? = some (generateLookupRequest p.2.2)

section

variable {s : State}

lemma headers_accept {h : LegoMemAccessHeader} (hs : Headers s)
    (ha : isValidAccessRequest h = true) : Headers (accept s h) := by
  have hcount := hs.count
  refine ⟨?_,?_,?_,?_⟩
  · simp [accept,ha,hs.fifo]
  · intro j p hp
    simp only [accept,ha,if_true] at hp ⊢
    have hcase : s.headerIn[j]? = some p ∨ j = s.headerIn.length ∧ p = (s.sent.length,h) := by grind
    rcases hcase with hp | ⟨rfl,rfl⟩
    · have := hs.queue j p hp
      grind
    · exact ⟨hcount,by simp⟩
  · simp only [accept,ha,if_true,length_append,length_singleton]
    omega
  · intro k p hp
    have := hs.joined k p hp
    show p.2.1 = k ∧ (s.sent++[_])[k]? = some _
    grind

lemma headers_res (hs : Headers s) {q : BitVec 16} {seqs : List (BitVec 16)}
    {hd : ℕ × LegoMemAccessHeader} {headers : List (ℕ × LegoMemAccessHeader)}
    (hq : s.seqFifo = q::seqs) (hh : s.headerIn = hd::headers) (a : Answer) (c f : List Answer) :
    Headers { s with
      seqFifo := seqs
      headerIn := headers
      cacheRes := c
      faultRes := f
      joined := s.joined++[(a,hd)] } := by
  have hfirst := hs.queue 0 hd (by simp [hh])
  have hlen := hs.fifo
  have hcount := hs.count
  rw [hq,hh,length_cons,length_cons] at hlen
  rw [hh,length_cons] at hcount
  refine ⟨by simpa using hlen,?_,?_,?_⟩
  · intro j p hp
    have hnext := hs.queue (j+1) p (by rw [hh]; exact hp)
    refine ⟨?_,hnext.2⟩
    rw [hnext.1]
    show s.joined.length+(j+1) = (s.joined++[_]).length+j
    rw [length_append,length_singleton]
    omega
  · show s.sent.length = (s.joined++[_]).length+headers.length
    rw [length_append,length_singleton]
    omega
  · intro k p hp
    change (s.joined++[(a,hd)])[k]? = some p at hp
    have hcase : s.joined[k]? = some p ∨ k = s.joined.length ∧ p = (a,hd) := by grind
    rcases hcase with hp | ⟨rfl,rfl⟩
    · exact hs.joined k p hp
    · have hnum : hd.1 = s.joined.length := hfirst.1
      exact ⟨hnum,by rw [← hnum]; exact hfirst.2⟩

lemma step_headers (st : Step) (u : State) (hs : Headers s) (ha : Access st)
    (h : exec s st = some u) : Headers u := by
  cases st with
  | header hd =>
    simp only [exec] at h
    split_ifs at h
    cases h
    exact headers_accept hs ha
  | res =>
    simp only [exec] at h
    split at h
    · next q seqs hd headers hq hh =>
      obtain ⟨⟨a,c,f⟩,-,rfl⟩ := Option.map_eq_some_iff.mp h
      exact headers_res hs hq hh a c f
    · cases h
  | hit _ | miss | answer _ | lose =>
    simp only [exec] at h
    split at h
    · cases h
    · cases h
      exact ⟨hs.fifo,hs.queue,hs.count,hs.joined⟩

end

section

variable (T : AddressLookupRequest → PageTableEntry → Prop)

def InOrder (s : State) : Prop :=
  ∀ (k : ℕ) (p : Answer × ℕ × LegoMemAccessHeader), s.joined[k]? = some p →
    ∃ req, s.sent[k]? = some req ∧ T req p.1.pte ∧ p.1.pte.seqId = req.seqId

def JoinedRight (s : State) : Prop := ∀ p ∈ s.joined, T (generateLookupRequest p.2.2) p.1.pte

/-- If no two lookups in flight have one number and the paths answer right, the answer that leaves
as the `k`-th is the translation of the `k`-th lookup and meets its header. -/
theorem answers_in_order (steps : List Step) (u : State) (hok : Guarded exec (Ok T) steps init)
    (hrun : run exec steps init = some u) :
    InOrder T u ∧ ((∀ st ∈ steps, Access st) → JoinedRight T u) := by
  have hinv : Inv T u := run_invariant exec (Ok T) (Inv T) (fun _ => step_inv) steps _ u init_inv
    hok hrun
  refine ⟨fun k p hp => ⟨_,(hinv.joined k p hp).1,(hinv.joined k p hp).2⟩,?_⟩
  intro haccess p hp
  have hheaders : Headers u := by
    refine run_invariant exec (fun s st => Ok T s st ∧ Access st) Headers
      (fun s st v hs hst hv => step_headers st v hs hst.2 hv) steps _ u ?_
      (guarded_and exec (Ok T) Access steps _ hok haccess) hrun
    exact ⟨rfl,by simp [init],rfl,by simp [init]⟩
  obtain ⟨k,hk⟩ := List.getElem?_of_mem hp
  obtain ⟨hreq,hright,-⟩ := hinv.joined k p hk
  have hsame := Option.some.inj (hreq.symm.trans (hheaders.joined k p hk).2)
  rw [← hsame]
  exact hright

end

/-! ## Two sources -/

/-- The headers of two sources, each numbered by the 8-bit counter of its source. -/
def Numbered : (Bool → BitVec 8) → List (Bool × LegoMemAccessHeader) → Prop
  | _, [] => True
  | counter, (source, h)::rest => h.header.seqId = counter source ∧
      Numbered (Function.update counter source (counter source+1)) rest

/-- A READ of process 0. -/
def readHeader (seqId : BitVec 8) (va : BitVec 64) : LegoMemAccessHeader :=
  ⟨⟨0, 0, RequestType.READ, 0, false, false, 0, seqId, 28, 0, 0, 0, 0⟩, va, 64⟩

/-- The entry of a page whose number is the frame. -/
def entryOf (seqId : BitVec 16) (tag : BitVec 60) : PageTableEntry :=
  ⟨seqId,true,true,0,tag.setWidth 40,tag,0⟩

def Maps (req : AddressLookupRequest) (pte : PageTableEntry) : Prop :=
  pte.ppa = req.tag.setWidth 40

instance (req : AddressLookupRequest) (pte : PageTableEntry) : Decidable (Maps req pte) :=
  inferInstanceAs (Decidable (_ = _))

/-- The first lookup misses and the second hits. -/
def apart : List Step :=
  [.header (readHeader 0 0x800000),.header (readHeader 1 0x400000),.miss,.hit (entryOf 1 4),
    .answer (entryOf 0 8),.res,.res]

theorem answers_in_order_apart : ∃ u, run exec apart init = some u ∧ u.joined.length = 2 ∧
    InOrder Maps u ∧ JoinedRight Maps u := by
  have hok : Guarded exec (Ok Maps) apart init := by
    refine ⟨by simp [Ok,init],?_,trivial,?_,?_,trivial,trivial,trivial⟩
    · show _ ∉ (accept init (readHeader 0 0x800000)).seqFifo
      decide
    · intro x hx
      cases hx
      rfl
    · intro x hx
      cases hx
      exact ⟨rfl,rfl⟩
  obtain ⟨horder,hjoin⟩ := answers_in_order Maps apart _ hok rfl
  refine ⟨_,rfl,rfl,horder,hjoin ?_⟩
  intro st hst
  simp only [apart,mem_cons,not_mem_nil,or_false] at hst
  rcases hst with rfl | rfl | rfl | rfl | rfl | rfl | rfl <;> trivial

/-- The second request of the first source misses, that of the second hits. -/
def mixed : List Step :=
  [.header (readHeader 0 0x400000),.hit (entryOf 0 4),.res,.header (readHeader 0 0x400000),
    .hit (entryOf 0 4),.res,.header (readHeader 1 0x800000),.miss,.header (readHeader 1 0x400000),
    .hit (entryOf 1 4),.res]

/-- The answer of the fourth lookup leaves third and meets the header of the third. -/
theorem sources_mixed : Numbered (fun _ => 0) [(false, readHeader 0 0x400000),
      (true, readHeader 0 0x400000), (false, readHeader 1 0x800000),
      (true, readHeader 1 0x400000)] ∧
    ∃ u, run exec mixed init = some u ∧ ¬InOrder Maps u ∧
      ∃ p, u.joined[2]? = some p ∧ p.1.pte = entryOf 1 4 ∧ p.2.2.addr = 0x800000 := by
  refine ⟨⟨rfl,rfl,rfl,rfl,trivial⟩,_,rfl,?_,_,rfl,rfl,rfl⟩
  intro h
  obtain ⟨req,hreq,hmaps,-⟩ := h 2 _ rfl
  cases hreq
  exact absurd hmaps (by decide)

end Clio.LookupOrder
