import Clio.FetchUnit
import Clio.Machine

/-!
# Bucket fetch cycle by cycle

A request is hashed for a cycle, waits in a queue and its bucket is read as four beats.
-/

namespace Clio.FetchPipeline

open CoreMemTypes FetchUnit Machine

structure Pending where
  tag : BitVec 60
  seqId : BitVec 16
  addr : BitVec 9
  deriving DecidableEq, Repr

structure State where
  hashReg : Option AddressLookupRequest
  reqFifo : List Pending
  /-- The beats that the bus still has to deliver, in order. -/
  bus : List Line
  valid : Bool
  hit : Bool
  selected : PageTableEntry
  counter : ℕ
  pteReg : PageTableEntry

/-- What is offered and what is ready in a cycle. -/
structure Cycle where
  req : Option AddressLookupRequest
  cmdReady : Bool
  beat : Bool
  resReady : Bool
  deriving DecidableEq, Repr

def reset : State := ⟨none,[],[],false,false,emptyPte,0,emptyPte⟩

def reqFifoDepth : ℕ := 64

def linePerBucket : ℕ := 4

def pending (req : AddressLookupRequest) : Pending := ⟨req.tag,req.seqId,hashFunc req.tag⟩

/-- The beats of a bucket. -/
def beats (t : HashTable) (addr : BitVec 9) : List Line := (List.finRange 4).map (t addr)

def head (s : State) : Pending := s.reqFifo.head?.getD ⟨0,0,0⟩

/-- The entry of a slot as it is selected. -/
def slot (p : Pending) (line : Line) (i : Fin 4) : PageTableEntry :=
  { fromFullBits (line i) with seqId := p.seqId, pteAddr := pteAddr p.addr i }

def priorityMux (p : Pending) (line : Line) : PageTableEntry :=
  slot p line ((matchLine p.tag line).getD 3)

def willOverflow (s : State) : Bool := s.valid && s.counter == linePerBucket-1

def outPte (s : State) : PageTableEntry := if s.hit && s.valid then s.selected else s.pteReg

def result (s : State) : PageTableEntry := { outPte s with seqId := (head s).seqId }

def pushed (s : State) (c : Cycle) : Option AddressLookupRequest :=
  if c.cmdReady then s.hashReg else none

def arrived (s : State) (c : Cycle) : Option Line := if c.beat then s.bus.head? else none

/-- The cycle without the push. -/
def advance (s : State) (c : Cycle) : State where
  hashReg := if c.cmdReady then c.req else s.hashReg
  reqFifo := if willOverflow s then s.reqFifo.tail else s.reqFifo
  bus := if c.beat then s.bus.tail else s.bus
  valid := (arrived s c).isSome
  hit := match arrived s c with
    | some line => (matchLine (head s).tag line).isSome
    | none => s.hit
  selected := match arrived s c with
    | some line => priorityMux (head s) line
    | none => s.selected
  counter := if s.valid then (if willOverflow s then 0 else s.counter+1) else s.counter
  pteReg := if willOverflow s then emptyPte else outPte s

def push (t : HashTable) (full : Bool) (s : State) (req : AddressLookupRequest) : State :=
  { s with
    reqFifo := if full then s.reqFifo else s.reqFifo++[pending req]
    bus := s.bus++beats t (hashFunc req.tag) }

def step (t : HashTable) (s : State) (c : Cycle) : State :=
  match pushed s c with
  | some req => push t (s.reqFifo.length == reqFifoDepth) (advance s c) req
  | none => advance s c

structure Log where
  state : State
  asked : List AddressLookupRequest
  answered : List PageTableEntry

def next (t : HashTable) (m : Log) (c : Cycle) : Log where
  state := step t m.state c
  asked := if c.cmdReady then m.asked++c.req.toList else m.asked
  answered := if willOverflow m.state && c.resReady then m.answered++[result m.state]
    else m.answered

def exec (t : HashTable) (m : Log) (c : Cycle) : Option Log := some (next t m c)

structure Spaced (m : Log) (c : Cycle) : Prop where
  taken : willOverflow m.state = true → c.resReady = true
  gap : willOverflow m.state = true → arrived m.state c = none
  room : pushed m.state c ≠ none → m.state.reqFifo.length ≠ reqFifoDepth

instance decidableSpaced (m : Log) (c : Cycle) : Decidable (Spaced m c) :=
  decidable_of_iff ((willOverflow m.state = true → c.resReady = true) ∧
      (willOverflow m.state = true → (arrived m.state c).isNone = true) ∧
      ((pushed m.state c).isSome = true → m.state.reqFifo.length ≠ reqFifoDepth))
    ⟨fun h => ⟨h.1,fun ho => Option.isNone_iff_eq_none.mp (h.2.1 ho),
      fun hp => h.2.2 (Option.isSome_iff_ne_none.mpr hp)⟩,
    fun h => ⟨h.taken,fun ho => Option.isNone_iff_eq_none.mpr (h.gap ho),
      fun hp => h.room (Option.isSome_iff_ne_none.mp hp)⟩⟩

def Answers (t : HashTable) (pte : PageTableEntry) (req : AddressLookupRequest) : Prop :=
  ∃ e, Fetched t req.tag e ∧ pte = { e with seqId := req.seqId }

/-- The choice after the first `n` lines. -/
def folded (t : HashTable) (tag : BitVec 60) (n : ℕ) : PageTableEntry :=
  ((List.finRange 4).take n).foldl
    (fun pteReg l => nextPte (hashFunc tag) tag (t (hashFunc tag) l) pteReg) emptyPte

def clearSeq (pte : PageTableEntry) : PageTableEntry := { pte with seqId := 0 }

section

variable {t : HashTable} {req : AddressLookupRequest}

lemma folded_succ (t : HashTable) (tag : BitVec 60) (n : Fin 4) :
    folded t tag (n+1) = nextPte (hashFunc tag) tag (t (hashFunc tag) n) (folded t tag n) := by
  have hget : (List.finRange 4)[n.val]? = some n := by simp
  rw [folded,List.take_add_one,hget,List.foldl_append]
  rfl

lemma beats_drop (t : HashTable) (addr : BitVec 9) (n : Fin 4) :
    (beats t addr).drop n = t addr n::(beats t addr).drop (n+1) := by
  have hlen : n.val < (beats t addr).length := by simp [beats]
  rw [List.drop_eq_getElem_cons hlen]
  simp [beats]

end

structure Serving (t : HashTable) (s : State) (r : AddressLookupRequest)
    (rest : List AddressLookupRequest) (b : ℕ) : Prop where
  fifo : s.reqFifo = (r::rest).map pending
  bus : s.bus = (beats t (hashFunc r.tag)).drop b++
    rest.flatMap fun q => beats t (hashFunc q.tag)
  count : s.counter+(if s.valid then 1 else 0) = b
  last : s.counter < 4
  reg : clearSeq s.pteReg = folded t r.tag s.counter
  selected : s.valid = true → clearSeq (outPte s) = folded t r.tag (s.counter+1)

structure Empty (s : State) : Prop where
  fifo : s.reqFifo = []
  bus : s.bus = []
  valid : s.valid = false
  counter : s.counter = 0
  reg : clearSeq s.pteReg = emptyPte

/-- The requests in the queue. -/
def Queue (t : HashTable) (s : State) : List AddressLookupRequest → Prop
  | [] => Empty s
  | r::rest => ∃ b, Serving t s r rest b

section

variable {t : HashTable} {s : State} {c : Cycle} {r : AddressLookupRequest}
  {q rest : List AddressLookupRequest} {b : ℕ}

lemma out_pte_idle (h : s.valid = false) : outPte s = s.pteReg := by simp [outPte,h]

lemma bus_idle (h : arrived s c = none) : (advance s c).bus = s.bus := by
  cases hb : c.beat with
  | false => simp [advance,hb]
  | true =>
    have hnil : s.bus = [] := by simpa [arrived,hb] using h
    simp [advance,hb,hnil]

lemma match_step {line : Line} (hline : arrived s c = some line)
    (hhead : head s = pending r) (hover : willOverflow s = false) :
    clearSeq (outPte (advance s c)) =
      nextPte (hashFunc r.tag) r.tag line (clearSeq (outPte s)) := by
  unfold nextPte
  cases hm : matchLine r.tag line with
  | none => simp [outPte,advance,hline,hhead,pending,hm,hover]
  | some i =>
    simp [outPte,advance,hline,hhead,pending,hm,priorityMux,slot,clearSeq,fromFullBits]

lemma queue_push (h : Queue t s q) (req : AddressLookupRequest) :
    Queue t (push t false s req) (q++[req]) := by
  cases q with
  | nil =>
    refine ⟨0,?_,?_,?_,?_,?_,?_⟩
    · simp [push,h.fifo]
    · simp [push,h.bus]
    · simp [push,h.valid,h.counter]
    · simp [push,h.counter]
    · simpa [push,h.counter,folded] using h.reg
    · intro hv
      exact absurd (h.valid.symm.trans hv) (by simp)
  | cons r rest =>
    obtain ⟨b,hs⟩ := h
    refine ⟨b,?_,?_,hs.count,hs.last,hs.reg,hs.selected⟩
    · simp [push,hs.fifo]
    · simp [push,hs.bus]

lemma serving_cases (h : Serving t s r rest b) :
    (s.valid = false ∧ s.counter = b) ∨ (s.valid = true ∧ s.counter+1 = b) := by
  have hcount := h.count
  cases hv : s.valid with
  | false =>
    rw [hv] at hcount
    exact .inl ⟨rfl,by simpa using hcount⟩
  | true =>
    rw [hv] at hcount
    exact .inr ⟨rfl,by simpa using hcount⟩

lemma serve_last (h : Serving t s r rest b) (hover : willOverflow s = true)
    (hgap : arrived s c = none) : result s = fetch t r ∧ Queue t (advance s c) rest := by
  obtain ⟨hvalid,hcount⟩ : s.valid = true ∧ s.counter = 3 := by
    simpa [willOverflow,linePerBucket] using hover
  have hb : b = 4 := by
    have := h.count
    rw [hvalid,hcount] at this
    exact this.symm
  have hout : clearSeq (outPte s) = fetchTag t r.tag := by
    rw [h.selected hvalid,hcount]
    rfl
  have hhead : head s = pending r := by simp [head,h.fifo]
  have hbus := (bus_idle hgap).trans h.bus
  have hfifo : (advance s c).reqFifo = rest.map pending := by simp [advance,hover,h.fifo]
  have hstate : (advance s c).valid = false ∧ (advance s c).counter = 0 ∧
      (advance s c).pteReg = emptyPte := by
    simp [advance,hover,hvalid,hgap]
  refine ⟨?_,?_⟩
  · rw [result,fetch,← hout,hhead]
    rfl
  · rw [hb,List.drop_of_length_le (by simp [beats]),List.nil_append] at hbus
    cases rest with
    | nil => exact ⟨hfifo,hbus,hstate.1,hstate.2.1,by rw [hstate.2.2]; rfl⟩
    | cons q rest =>
      refine ⟨0,hfifo,hbus,?_,?_,?_,?_⟩
      · rw [hstate.1,hstate.2.1]
        rfl
      · rw [hstate.2.1]
        decide
      · rw [hstate.2.1,hstate.2.2]
        rfl
      · rw [hstate.1]
        exact fun hv => absurd hv (by simp)

lemma serve_next (h : Serving t s r rest b) (hover : willOverflow s = false) :
    ∃ b', Serving t (advance s c) r rest b' := by
  have hhead : head s = pending r := by simp [head,h.fifo]
  have hlast := h.last
  have hlt : b < 4 := by
    rcases serving_cases h with ⟨-,hcount⟩ | ⟨hv,hcount⟩
    · omega
    · have hne : s.counter ≠ 3 := by simpa [willOverflow,linePerBucket,hv] using hover
      omega
  have hcounter : (advance s c).counter = b := by
    rcases serving_cases h with ⟨hv,hcount⟩ | ⟨hv,hcount⟩
    · simp [advance,hv,hcount]
    · simp [advance,hover,hv,hcount]
  have hreg : clearSeq (outPte s) = folded t r.tag b := by
    rcases serving_cases h with ⟨hv,hcount⟩ | ⟨hv,hcount⟩
    · rw [out_pte_idle hv,h.reg,hcount]
    · rw [h.selected hv,hcount]
  have hfifo : (advance s c).reqFifo = (r::rest).map pending := by simp [advance,hover,h.fifo]
  have hpte : clearSeq (advance s c).pteReg = folded t r.tag (advance s c).counter := by
    rw [hcounter,← hreg]
    simp [advance,hover]
  cases hline : arrived s c with
  | none =>
    have hvalid : (advance s c).valid = false := by simp [advance,hline]
    refine ⟨b,hfifo,(bus_idle hline).trans h.bus,?_,by omega,hpte,?_⟩
    · rw [hvalid,hcounter]
      rfl
    · rw [hvalid]
      exact fun hv => absurd hv (by simp)
  | some line =>
    have hvalid : (advance s c).valid = true := by simp [advance,hline]
    have hbeat : c.beat = true ∧ s.bus.head? = some line := by
      cases hb : c.beat with
      | false => simp [arrived,hb] at hline
      | true => exact ⟨rfl,by simpa [arrived,hb] using hline⟩
    have hdrop := beats_drop t (hashFunc r.tag) ⟨b,hlt⟩
    dsimp only at hdrop
    have hbus := h.bus
    rw [hdrop,List.cons_append] at hbus
    obtain rfl : t (hashFunc r.tag) ⟨b,hlt⟩ = line := by simpa [hbus] using hbeat.2
    refine ⟨b+1,hfifo,?_,?_,by omega,hpte,fun _ => ?_⟩
    · simp [advance,hbeat.1,hbus]
    · rw [hvalid,hcounter]
      rfl
    · rw [hcounter,match_step hline hhead hover,hreg]
      exact (folded_succ t r.tag ⟨b,hlt⟩).symm

lemma queue_advance (h : Queue t s q) (hgap : willOverflow s = true → arrived s c = none) :
    (willOverflow s = false ∧ Queue t (advance s c) q) ∨
      (willOverflow s = true ∧ ∃ r rest, q = r::rest ∧ result s = fetch t r ∧
        Queue t (advance s c) rest) := by
  cases q with
  | nil =>
    left
    have hover : willOverflow s = false := by simp [willOverflow,h.valid]
    have hline : arrived s c = none := by simp [arrived,h.bus]
    refine ⟨hover,?_,?_,?_,?_,?_⟩
    · simp [advance,hover,h.fifo]
    · rw [bus_idle hline,h.bus]
    · simp [advance,hline]
    · simp [advance,h.valid,h.counter]
    · have hreg := h.reg
      rw [← out_pte_idle h.valid] at hreg
      simpa [advance,hover] using hreg
  | cons r rest =>
    obtain ⟨b,hs⟩ := h
    cases hover : willOverflow s with
    | true => exact .inr ⟨rfl,r,rest,rfl,serve_last hs hover (hgap hover)⟩
    | false => exact .inl ⟨rfl,serve_next hs hover⟩

end

structure Inv (t : HashTable) (m : Log) (done q : List AddressLookupRequest) : Prop where
  asked : m.asked = done++q++m.state.hashReg.toList
  queue : Queue t m.state q
  answered : m.answered = done.map (fetch t)

section

variable {t : HashTable} {m : Log} {c : Cycle} {done q : List AddressLookupRequest}

lemma step_queue {s : State} {q' : List AddressLookupRequest}
    (h : Queue t (advance s c) q') (hroom : pushed s c ≠ none → s.reqFifo.length ≠ reqFifoDepth) :
    Queue t (step t s c) (q'++(pushed s c).toList) := by
  unfold step
  cases hp : pushed s c with
  | none => simpa using h
  | some req =>
    have hfull : (s.reqFifo.length == reqFifoDepth) = false := by
      simpa using hroom (by simp [hp])
    dsimp only
    rw [hfull]
    exact queue_push h req

lemma step_hash (t : HashTable) (s : State) (c : Cycle) :
    (step t s c).hashReg = if c.cmdReady then c.req else s.hashReg := by
  unfold step
  cases pushed s c <;> rfl

lemma hash_flow (t : HashTable) (s : State) (c : Cycle) :
    (pushed s c).toList++(step t s c).hashReg.toList =
      s.hashReg.toList++(if c.cmdReady then c.req.toList else []) := by
  rw [step_hash]
  cases hc : c.cmdReady <;> simp [pushed,hc]

lemma next_inv (h : Inv t m done q) (hc : Spaced m c) :
    ∃ done' q', Inv t (next t m c) done' q' := by
  have hasked : (next t m c).asked = done++q++((pushed m.state c).toList++
      (step t m.state c).hashReg.toList) := by
    rw [hash_flow,← List.append_assoc,← h.asked]
    cases hcmd : c.cmdReady <;> simp [next,hcmd]
  rcases queue_advance h.queue hc.gap with ⟨hover,hq⟩ | ⟨hover,r,rest,rfl,hres,hq⟩
  · refine ⟨done,q++(pushed m.state c).toList,?_,step_queue hq hc.room,?_⟩
    · rw [hasked]
      simp [next]
    · simp [next,hover,h.answered]
  · refine ⟨done++[r],rest++(pushed m.state c).toList,?_,step_queue hq hc.room,?_⟩
    · rw [hasked]
      simp [next]
    · simp [next,hover,hc.taken hover,h.answered,hres]

lemma reset_inv (t : HashTable) : Inv t ⟨reset,[],[]⟩ [] [] := ⟨rfl,⟨rfl,rfl,rfl,rfl,rfl⟩,rfl⟩

lemma fetch_answers (t : HashTable) (req : AddressLookupRequest) : Answers t (fetch t req) req :=
  ⟨fetchTag t req.tag,fetch_tag_fetched t req.tag,rfl⟩

lemma answered_of_map (qs : List AddressLookupRequest) :
    List.Forall₂ (Answers t) (qs.map (fetch t)) qs := by
  induction qs with
  | nil => exact .nil
  | cons req qs ih => exact .cons (fetch_answers t req) ih

lemma serving_drained {s : State} {r : AddressLookupRequest} {rest : List AddressLookupRequest}
    {b : ℕ} (h : Serving t s r rest b) (hbus : s.bus = []) :
    rest = [] ∧ willOverflow s = true := by
  have hnil := h.bus
  rw [hbus,eq_comm,List.append_eq_nil_iff,List.drop_eq_nil_iff] at hnil
  have hlast := h.last
  have hlen : 4 ≤ b := by simpa [beats] using hnil.1
  constructor
  · cases rest with
    | nil => rfl
    | cons p rest => simp [beats] at hnil
  · rcases serving_cases h with ⟨-,hcount⟩ | ⟨hv,hcount⟩
    · omega
    · have hthree : s.counter = 3 := by omega
      simp [willOverflow,hv,hthree,linePerBucket]

lemma drained_answers {m : Log} {done q : List AddressLookupRequest} (hm : Inv t m done q)
    (hbus : m.state.bus = []) (hhash : m.state.hashReg = none) {c : Cycle}
    (hready : c.resReady = true) : List.Forall₂ (Answers t) (next t m c).answered m.asked := by
  have hasked := hm.asked
  rw [hhash,Option.toList_none,List.append_nil] at hasked
  cases q with
  | nil =>
    have hover : willOverflow m.state = false := by
      simp [willOverflow,show m.state.valid = false from hm.queue.valid]
    rw [hasked,List.append_nil]
    simp only [next,hover,Bool.false_and,Bool.false_eq_true,if_false,hm.answered]
    exact answered_of_map done
  | cons r rest =>
    obtain ⟨b,hs⟩ := hm.queue
    obtain ⟨rfl,hover⟩ := serving_drained hs hbus
    obtain ⟨hres,-⟩ := serve_last (c := c) hs hover (by simp [arrived,hbus])
    simp only [next,hover,hready,Bool.and_self,if_true,hm.answered,hres]
    rw [hasked,show done.map (fetch t)++[fetch t r] = (done++[r]).map (fetch t) by simp]
    exact answered_of_map _

end

/-- If results are taken at once and beats are spaced, the answers come in order. -/
theorem fetch_in_order (t : HashTable) (cs : List Cycle) (m : Log)
    (hok : Guarded (exec t) Spaced cs ⟨reset,[],[]⟩)
    (hrun : run (exec t) cs ⟨reset,[],[]⟩ = some m) :
    (∃ done rest, m.asked = done++rest ∧ List.Forall₂ (Answers t) m.answered done) ∧
      (m.state.bus = [] → m.state.hashReg = none → ∀ c : Cycle, c.resReady = true →
        List.Forall₂ (Answers t) (next t m c).answered m.asked) := by
  have hinv : ∃ done q, Inv t m done q := by
    refine run_invariant (exec t) Spaced (fun m => ∃ done q, Inv t m done q) ?_ cs _ m
      ⟨[],[],reset_inv t⟩ hok hrun
    rintro m c u ⟨done,q,hm⟩ hc hu
    cases hu
    exact next_inv hm hc
  obtain ⟨done,q,hm⟩ := hinv
  refine ⟨⟨done,q++m.state.hashReg.toList,by rw [hm.asked,List.append_assoc],?_⟩,?_⟩
  · rw [hm.answered]
    exact answered_of_map done
  · intro hbus hhash c hready
    exact drained_answers hm hbus hhash hready

def oneEntry : HashTable := fun b l i =>
  if b = 2 ∧ l.val = 0 ∧ i.val = 0 then ⟨7,0,true,false,8⟩ else emptyBits

def requestA : AddressLookupRequest := ⟨1,4,.LOOKUP⟩

def requestB : AddressLookupRequest := ⟨2,8,.LOOKUP⟩

def offer (req : AddressLookupRequest) : Cycle := ⟨some req,true,false,true⟩

def quiet : Cycle := ⟨none,true,false,true⟩

def beat : Cycle := ⟨none,true,true,true⟩

def stalled : Cycle := ⟨none,true,false,false⟩

def spaced : List Cycle :=
  [offer requestA,offer requestB,quiet]++List.replicate 4 beat++[quiet]++List.replicate 4 beat++
    [quiet]

theorem fetch_in_order_two : ∃ m, run (exec oneEntry) spaced ⟨reset,[],[]⟩ = some m ∧
    m.asked = [requestA,requestB] ∧ m.answered = [⟨1,false,false,0,0,0,0⟩,⟨2,false,true,0,7,8,2⟩] ∧
    ∃ done rest, m.asked = done++rest ∧
      List.Forall₂ (Answers oneEntry) m.answered done :=
  ⟨_,rfl,by decide +kernel,by decide +kernel,
    (fetch_in_order oneEntry spaced _ (by decide +kernel) rfl).1⟩

/-- Beats back to back meet the tag of the first request, and a stall loses the first result. -/
theorem fetch_wrong :
    (∃ m, run (exec oneEntry) ([offer requestA,offer requestB,quiet]++List.replicate 8 beat++
        [quiet]) ⟨reset,[],[]⟩ = some m ∧ m.asked = [requestA,requestB] ∧
      m.answered = [⟨1,false,false,0,0,0,0⟩,⟨2,false,false,0,0,0,0⟩]) ∧
    ∃ m, run (exec oneEntry) ([offer requestB,quiet]++List.replicate 4 beat++[stalled,quiet,quiet])
        ⟨reset,[],[]⟩ = some m ∧ m.asked = [requestB] ∧ m.answered = [] ∧
      m.state.reqFifo = [] ∧ m.state.valid = false :=
  ⟨⟨_,rfl,by decide +kernel,by decide +kernel⟩,
    ⟨_,rfl,by decide +kernel,by decide +kernel,by decide +kernel,by decide +kernel⟩⟩

end Clio.FetchPipeline
