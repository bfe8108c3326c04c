import Clio.ArbiterFork
import Clio.Retransmission

/-!
# The arbiter in front of the network

Responses, retransmissions and new packets share one way to the network.
-/

namespace Clio.TxArbiter

open List Function StateTable UnackedBuffer Retransmission Machine
open ArbiterFork (partOf part_of_append)

inductive Source where
  | rsp
  | rt
  | tx
  deriving DecidableEq, Repr

structure Packet where
  header : UdpInfo
  beats : List NetAxis64
  deriving DecidableEq, Repr

def Formed : Source → Packet → Prop
  | .rsp, p => p.beats.length = 1
  | .rt, p => ended p.beats = true
  | .tx, p => ended p.beats = true

structure Inputs where
  packets : Source → List Packet
  formed : ∀ s, ∀ p ∈ packets s, Formed s p

inductive UdpArbiterStatus where
  | arb
  | sendPayloadRsp
  | sendPayloadRspTail
  | sendPayloadRt
  | sendPayloadTx
  deriving DecidableEq, Repr

structure Out where
  outHeader : Option UdpInfo := none
  outPayload : Option NetAxis64 := none
  deriving DecidableEq, Repr

def ackTail : NetAxis64 := ⟨leBytes 8 0, true⟩

def sendPayload (state : UdpArbiterStatus) (payload : Option NetAxis64) : UdpArbiterStatus × Out :=
  match payload with
  | none => (state, {})
  | some pkt => (if pkt.last then .arb else state, { outPayload := some pkt })

def arbiter64 (state : UdpArbiterStatus) (header : Source → Option UdpInfo)
    (payload : Source → Option NetAxis64) : UdpArbiterStatus × Out :=
  match state with
  | .arb =>
      match header .rsp, header .rt, header .tx with
      | some info, _, _ => (.sendPayloadRsp, { outHeader := some info })
      | none, some info, _ => (.sendPayloadRt, { outHeader := some info })
      | none, none, some info => (.sendPayloadTx, { outHeader := some info })
      | none, none, none => (.arb, {})
  | .sendPayloadRsp =>
      match payload .rsp with
      | none => (.sendPayloadRsp, {})
      | some pkt => (.sendPayloadRspTail, { outPayload := some pkt })
  | .sendPayloadRspTail => (.arb, { outPayload := some ackTail })
  | .sendPayloadRt => sendPayload .sendPayloadRt (payload .rt)
  | .sendPayloadTx => sendPayload .sendPayloadTx (payload .tx)

def readsHeader (state : UdpArbiterStatus) (header : Source → Option UdpInfo) : Option Source :=
  match state with
  | .arb =>
      if (header .rsp).isSome then some .rsp
      else if (header .rt).isSome then some .rt
      else if (header .tx).isSome then some .tx
      else none
  | _ => none

def readsPayload (state : UdpArbiterStatus) : Option Source :=
  match state with
  | .arb => none
  | .sendPayloadRsp => some .rsp
  | .sendPayloadRspTail => none
  | .sendPayloadRt => some .rt
  | .sendPayloadTx => some .tx

inductive Event where
  | header (info : UdpInfo)
  | beat (pkt : NetAxis64)
  deriving DecidableEq, Repr

structure Arbiter where
  state : UdpArbiterStatus
  header : Source → List UdpInfo
  payload : Source → List NetAxis64
  out : List Event

structure Arrived where
  header : Source → Bool
  payload : Source → Bool

def call (m : Arbiter) (a : Arrived) : Arbiter :=
  let header := fun s => see (a.header s) (m.header s)
  let payload := fun s => see (a.payload s) (m.payload s)
  let step := arbiter64 m.state header payload
  { state := step.1
    header := fun s =>
      if readsHeader m.state header = some s then (m.header s).tail else m.header s
    payload := fun s =>
      if readsPayload m.state = some s ∧ a.payload s = true then (m.payload s).tail
      else m.payload s
    out := m.out++step.2.outHeader.toList.map .header++step.2.outPayload.toList.map .beat }

def start (ins : Inputs) : Arbiter :=
  ⟨.arb,fun s => (ins.packets s).map Packet.header,fun s => (ins.packets s).flatMap Packet.beats,[]⟩

def wireBeats : Source → Packet → List NetAxis64
  | .rsp, p => p.beats++[ackTail]
  | .rt, p => p.beats
  | .tx, p => p.beats

def block (x : Source × Packet) : List Event :=
  .header x.2.header::(wireBeats x.1 x.2).map .beat

def blocks (served : List (Source × Packet)) : List Event := served.flatMap block

variable {src : Source} {p : Packet}

lemma part_of_served {s : Source} {served : List (Source × Packet)}
    {todo todo' : Source → List Packet} (hp : todo src = p::todo' src)
    (hother : ∀ s, s ≠ src → todo' s = todo s) :
    partOf s served++todo s = partOf s (served++[(src,p)])++todo' s := by
  rw [part_of_append]
  by_cases hs : s = src
  · subst hs
    simp [partOf,hp]
  · simp [partOf,Ne.symm hs,hother s hs]

lemma blocks_append (xs ys : List (Source × Packet)) :
    blocks (xs++ys) = blocks xs++blocks ys := by
  rw [blocks,flatMap_append,blocks,blocks]

def tailCost : Source → ℕ
  | .rsp => 1
  | .rt => 0
  | .tx => 0

/-- The calls a packet needs. -/
def cost (s : Source) (p : Packet) : ℕ := 1+p.beats.length+tailCost s

def total (todo : Source → List Packet) : ℕ :=
  ((todo .rsp).map (cost .rsp)).sum+((todo .rt).map (cost .rt)).sum+((todo .tx).map (cost .tx)).sum

lemma total_served {todo todo' : Source → List Packet} (hp : todo src = p::todo' src)
    (hother : ∀ s, s ≠ src → todo' s = todo s) : total todo = cost src p+total todo' := by
  cases src with
  | rsp =>
    rw [total,total,hp,hother .rt (by decide),hother .tx (by decide),map_cons, sum_cons]
    omega
  | rt =>
    rw [total,total,hp,hother .rsp (by decide),hother .tx (by decide),map_cons, sum_cons]
    omega
  | tx =>
    rw [total,total,hp,hother .rsp (by decide),hother .rt (by decide),map_cons, sum_cons]
    omega

lemma total_none {todo : Source → List Packet} (h : ∀ s, todo s = []) : total todo = 0 := by
  simp [total,h]

lemma total_zero {todo : Source → List Packet} (h : total todo = 0) (s : Source) :
    todo s = [] := by
  have hsum : ∀ s', ((todo s').map (cost s')).sum = 0 := by
    intro s'
    unfold total at h
    cases s' <;> omega
  cases htodo : todo s with
  | nil => rfl
  | cons p more =>
    have := hsum s
    rw [htodo,map_cons,sum_cons,cost] at this
    omega

def sendState : Source → UdpArbiterStatus
  | .rsp => .sendPayloadRsp
  | .rt => .sendPayloadRt
  | .tx => .sendPayloadTx

structure At (ins : Inputs) (m : Arbiter) (served : List (Source × Packet))
    (todo : Source → List Packet) (cur : Source → List NetAxis64) (out : List Event) : Prop where
  split : ∀ s, ins.packets s = partOf s served++todo s
  header : ∀ s, m.header s = (todo s).map Packet.header
  payload : ∀ s, m.payload s = cur s++(todo s).flatMap Packet.beats
  out : m.out = out

def only (src : Source) (beats : List NetAxis64) (s : Source) : List NetAxis64 :=
  if s = src then beats else []

lemma only_nil (src : Source) : only src [] = fun _ => [] := by
  funext s
  exact ite_self []

inductive Stage (ins : Inputs) : ℕ → Arbiter → Prop where
  | arb (m : Arbiter) (served : List (Source × Packet)) (todo : Source → List Packet)
      (hstate : m.state = .arb) (h : At ins m served todo (fun _ => []) (blocks served)) :
      Stage ins (total todo) m
  | send (m : Arbiter) (served : List (Source × Packet)) (todo : Source → List Packet)
      (src : Source) (p : Packet) (pre rem : List NetAxis64) (hstate : m.state = sendState src)
      (hbeats : p.beats = pre++rem) (hne : rem ≠ [])
      (h : At ins m (served++[(src,p)]) todo (only src rem)
        (blocks served++.header p.header::pre.map .beat)) :
      Stage ins (rem.length+tailCost src+total todo) m
  | tail (m : Arbiter) (served : List (Source × Packet)) (todo : Source → List Packet) (p : Packet)
      (hstate : m.state = .sendPayloadRspTail)
      (h : At ins m (served++[(.rsp,p)]) todo (fun _ => [])
        (blocks served++.header p.header::p.beats.map .beat)) :
      Stage ins (1+total todo) m

lemma stage_start (ins : Inputs) : Stage ins (total ins.packets) (start ins) :=
  .arb _ [] ins.packets rfl ⟨fun _ => rfl,fun _ => rfl,fun _ => rfl,rfl⟩

/-- Everything has arrived. -/
def Arrived.full (a : Arrived) : Bool :=
  a.header .rsp && a.header .rt && a.header .tx &&
    a.payload .rsp && a.payload .rt && a.payload .tx

lemma full_arrived {a : Arrived} (h : a.full = true) (s : Source) :
    a.header s = true ∧ a.payload s = true := by
  simp only [Arrived.full,Bool.and_eq_true] at h
  cases s with
  | rsp => exact ⟨h.1.1.1.1.1,h.1.1.2⟩
  | rt => exact ⟨h.1.1.1.1.2,h.1.2⟩
  | tx => exact ⟨h.1.1.1.2,h.2⟩

section

variable {ins : Inputs} {m : Arbiter} {a : Arrived} {served : List (Source × Packet)}
  {todo : Source → List Packet}

lemma arb_choice (header : Source → Option UdpInfo) (payload : Source → Option NetAxis64) :
    ((∀ s, header s = none) ∧ readsHeader .arb header = none ∧
      arbiter64 .arb header payload = (.arb,{})) ∨
    ∃ src info, header src = some info ∧ readsHeader .arb header = some src ∧
      arbiter64 .arb header payload = (sendState src,{ outHeader := some info }) := by
  unfold readsHeader arbiter64
  cases hrsp : header .rsp with
  | some info => exact .inr ⟨.rsp,info,hrsp,by simp,rfl⟩
  | none =>
    cases hrt : header .rt with
    | some info => exact .inr ⟨.rt,info,hrt,by simp,rfl⟩
    | none =>
      cases htx : header .tx with
      | some info => exact .inr ⟨.tx,info,htx,by simp,rfl⟩
      | none =>
        refine .inl ⟨fun s => ?_,by simp,rfl⟩
        cases s with
        | rsp => exact hrsp
        | rt => exact hrt
        | tx => exact htx

lemma formed_ne_nil {s : Source} (h : Formed s p) : p.beats ≠ [] := by
  intro hnil
  cases s with
  | rsp =>
    have hlen : p.beats.length = 1 := h
    rw [hnil] at hlen
    cases hlen
  | rt | tx =>
    have hended : ended p.beats = true := h
    rw [hnil] at hended
    cases hended

lemma take_header (hstate : m.state = .arb)
    (h : At ins m served todo (fun _ => []) (blocks served)) (src : Source) (info : UdpInfo)
    (hsee : see (a.header src) (m.header src) = some info)
    (hreads : readsHeader .arb (fun s => see (a.header s) (m.header s)) = some src)
    (hcall : arbiter64 .arb (fun s => see (a.header s) (m.header s))
      (fun s => see (a.payload s) (m.payload s)) = (sendState src,{ outHeader := some info })) :
    ∃ n, Stage ins n (call m a) ∧ n+1 = total todo := by
  obtain ⟨rest,hrest⟩ := see_cons hsee
  rw [h.header src] at hrest
  obtain ⟨p,more,htodo,hinfo,-⟩ := map_eq_cons_iff.mp hrest
  have hother : ∀ s, s ≠ src → update todo src more s = todo s := fun s hs => update_of_ne hs _ _
  have hp : todo src = p::update todo src more src := by rw [update_self,htodo]
  have hformed : Formed src p := ins.formed src p (by rw [h.split src,htodo]; simp)
  have hat : At ins (call m a) (served++[(src,p)]) (update todo src more)
      (only src p.beats) (blocks served++.header p.header::[].map .beat) := by
    refine ⟨fun s => ?_,fun s => ?_,fun s => ?_,?_⟩
    · rw [h.split s,part_of_served hp hother]
    · simp only [call,hstate,hreads]
      by_cases hs : src = s
      · subst hs
        simp [h.header,htodo]
      · simp [hs,h.header,hother s (Ne.symm hs)]
    · simp only [call,hstate,readsPayload]
      by_cases hs : s = src
      · subst hs
        simp [h.payload,htodo,only]
      · simp [hs,h.payload,only]
    · simp only [call,hstate,hcall,h.out]
      simp [hinfo]
  have hcount := total_served hp hother
  refine ⟨_,.send _ served _ src p [] p.beats ?_ rfl (formed_ne_nil hformed) hat,?_⟩
  · simp only [call,hstate,hcall]
  · rw [hcount,cost]
    omega

def afterBeat : Source → NetAxis64 → UdpArbiterStatus
  | .rsp, _ => .sendPayloadRspTail
  | .rt, pkt => if pkt.last then .arb else .sendPayloadRt
  | .tx, pkt => if pkt.last then .arb else .sendPayloadTx

lemma beat_step (src : Source) (header : Source → Option UdpInfo)
    (payload : Source → Option NetAxis64) (pkt : NetAxis64) (h : payload src = some pkt) :
    arbiter64 (sendState src) header payload = (afterBeat src pkt,{ outPayload := some pkt }) := by
  cases src <;> simp [arbiter64,sendState,sendPayload,afterBeat,h]

lemma send_reads (src : Source) : readsPayload (sendState src) = some src := by
  cases src <;> rfl

lemma send_no_header (src : Source) (header : Source → Option UdpInfo) :
    readsHeader (sendState src) header = none := by
  cases src <;> rfl

lemma take_beat {pre rem : List NetAxis64} {pkt : NetAxis64} (hstate : m.state = sendState src)
    (hbeats : p.beats = pre++pkt::rem)
    (h : At ins m (served++[(src,p)]) todo (only src (pkt::rem))
      (blocks served++.header p.header::pre.map .beat))
    (ha : a.payload src = true) :
    ∃ n, Stage ins n (call m a) ∧ n+1 = (pkt::rem).length+tailCost src+total todo := by
  have hsee : see (a.payload src) (m.payload src) = some pkt := by
    simp [see,ha,h.payload,only]
  have hstep := beat_step src (fun s => see (a.header s) (m.header s))
    (fun s => see (a.payload s) (m.payload s)) pkt hsee
  have hmem : p ∈ ins.packets src := by
    rw [h.split src,part_of_append]
    simp [partOf]
  have hformed := ins.formed src p hmem
  have hat : At ins (call m a) (served++[(src,p)]) todo (only src rem)
      (blocks served++.header p.header::(pre++[pkt]).map .beat) := by
    refine ⟨h.split,fun s => ?_,fun s => ?_,?_⟩
    · simp only [call,hstate,send_no_header,h.header]
      simp
    · simp only [call,hstate,send_reads]
      by_cases hs : s = src
      · subst hs
        simp [h.payload,only,ha]
      · simp [Ne.symm hs,hs,h.payload,only]
    · simp only [call,hstate,hstep,h.out]
      simp
  have hnext : (call m a).state = afterBeat src pkt := by simp only [call,hstate,hstep]
  -- the packets of the last two inputs end with the marked beat
  have hframed : src ≠ .rsp → block (src,p) = .header p.header::p.beats.map .beat ∧
      tailCost src = 0 ∧ (pkt.last = true ↔ rem = []) ∧
      (call m a).state = if pkt.last then .arb else sendState src := by
    intro hsrc
    cases src with
    | rsp => exact absurd rfl hsrc
    | rt | tx =>
      have hended : ended p.beats = true := hformed
      rw [hbeats] at hended
      exact ⟨rfl,rfl,ended_split pre rem pkt hended,hnext⟩
  by_cases hsrc : src = .rsp
  · subst hsrc
    have hlen : p.beats.length = 1 := hformed
    have hrem : rem = [] := by
      rw [hbeats,length_append,length_cons] at hlen
      exact length_eq_zero_iff.mp (by omega)
    subst hrem
    rw [only_nil,← hbeats] at hat
    exact ⟨_,.tail _ served todo p hnext hat,by simp [tailCost]; omega⟩
  · obtain ⟨hblock,htail,hlast,hst⟩ := hframed hsrc
    by_cases hrem : rem = []
    · rw [hlast.mpr hrem,if_pos rfl] at hst
      subst hrem
      rw [only_nil,← hbeats,← hblock,show block (src,p) = blocks [(src,p)] by simp [blocks],
        ← blocks_append] at hat
      exact ⟨_,.arb _ _ todo hst hat,by simp [htail]; omega⟩
    · have hmore : pkt.last = false := by
        cases hl : pkt.last with
        | false => rfl
        | true => exact absurd (hlast.mp hl) hrem
      rw [hmore,if_neg Bool.false_ne_true] at hst
      refine ⟨_,.send _ served todo src p (pre++[pkt]) rem hst (by simp [hbeats]) hrem hat,?_⟩
      simp only [length_cons]
      omega

lemma call_stage {n : ℕ} (hm : Stage ins n m) (a : Arrived) :
    ∃ k, Stage ins k (call m a) ∧ k ≤ n ∧ (a.full = true → k = n-1) := by
  cases hm with
  | arb _ served todo hstate h =>
    rcases arb_choice (fun s => see (a.header s) (m.header s))
        (fun s => see (a.payload s) (m.payload s)) with
      ⟨hnone,hreads,hcall⟩ | ⟨src,info,hsee,hreads,hcall⟩
    · have hat : At ins (call m a) served todo (fun _ => []) (blocks served) := by
        refine ⟨h.split,fun s => ?_,fun s => ?_,?_⟩
        · simp only [call,hstate,hreads]
          simp [h.header]
        · simp only [call,hstate,readsPayload,h.payload]
          simp
        · simp only [call,hstate,hcall,h.out]
          simp
      refine ⟨_,.arb _ served todo (by simp only [call,hstate,hcall]) hat,le_refl _,?_⟩
      intro hfull
      have hempty : ∀ s, todo s = [] := by
        intro s
        have hs := hnone s
        simp only [see,(full_arrived hfull s).1,if_true,h.header] at hs
        exact map_eq_nil_iff.mp (List.head?_eq_none_iff.mp hs)
      rw [total_none hempty]
    · obtain ⟨k,hk,hcount⟩ := take_header hstate h src info hsee hreads hcall
      exact ⟨k,hk,by omega,fun _ => by omega⟩
  | send _ served todo src p pre rem hstate hbeats hne h =>
    obtain ⟨pkt,rem,rfl⟩ := exists_cons_of_ne_nil hne
    cases ha : a.payload src with
    | true =>
      obtain ⟨k,hk,hcount⟩ := take_beat hstate hbeats h ha
      exact ⟨k,hk,by omega,fun _ => by omega⟩
    | false =>
      have hstep : arbiter64 (sendState src) (fun s => see (a.header s) (m.header s))
          (fun s => see (a.payload s) (m.payload s)) = (sendState src,{}) := by
        cases src <;> simp [arbiter64,sendState,sendPayload,see,ha]
      have hat : At ins (call m a) (served++[(src,p)]) todo (only src (pkt::rem))
          (blocks served++.header p.header::pre.map .beat) := by
        refine ⟨h.split,fun s => ?_,fun s => ?_,?_⟩
        · simp only [call,hstate,send_no_header,h.header]
          simp
        · simp only [call,hstate,send_reads,h.payload]
          by_cases hs : src = s
          · simp [← hs,ha]
          · simp [hs]
        · simp only [call,hstate,hstep,h.out]
          simp
      refine ⟨_,.send _ served todo src p pre (pkt::rem) ?_ hbeats hne hat,le_refl _,?_⟩
      · simp only [call,hstate,hstep]
      · intro hfull
        rw [(full_arrived hfull src).2] at ha
        cases ha
  | tail _ served todo p hstate h =>
    have hat : At ins (call m a) (served++[(.rsp,p)]) todo (fun _ => [])
        (blocks (served++[(.rsp,p)])) := by
      refine ⟨h.split,fun s => ?_,fun s => ?_,?_⟩
      · simp only [call,hstate,readsHeader,h.header]
        simp
      · simp only [call,hstate,readsPayload,h.payload]
        simp
      · simp only [call,hstate,arbiter64,h.out]
        simp [blocks,block,wireBeats]
    exact ⟨_,.arb _ _ todo (by simp only [call,hstate,arbiter64]) hat,by omega,fun _ => by omega⟩

lemma run_stage (schedule : List Arrived) {n : ℕ} (hm : Stage ins n m) :
    ∃ k, Stage ins k (runTotal call schedule m) ∧ k ≤ n-schedule.countP Arrived.full := by
  refine run_work call Arrived.full (Stage ins) ?_ schedule hm
  intro n m a hm
  obtain ⟨k,hk,hle,hfull⟩ := call_stage hm a
  exact ⟨k,hk,hle,fun ha => (hfull ha).le⟩

end

lemma stage_output {ins : Inputs} {m : Arbiter} {n : ℕ} (hm : Stage ins n m) :
    ∃ served : List (Source × Packet), (∀ s, partOf s served <+: ins.packets s) ∧
      blocks served.dropLast <+: m.out ∧ m.out <+: blocks served ∧
      (n = 0 → m.out = blocks served ∧ ∀ s, partOf s served = ins.packets s) := by
  cases hm with
  | arb _ served todo hstate h =>
    refine ⟨served,fun s => ⟨todo s,(h.split s).symm⟩,?_,by rw [h.out],?_⟩
    · rw [h.out]
      obtain ⟨rest,hrest⟩ := dropLast_prefix served
      nth_rewrite 2 [← hrest]
      rw [blocks_append]
      exact prefix_append _ _
    · intro hzero
      refine ⟨h.out,fun s => ?_⟩
      rw [h.split s,total_zero hzero s,append_nil]
  | send _ served todo src p pre rem hstate hbeats hne h =>
    have hpos := length_pos_iff.mpr hne
    refine ⟨_,fun s => ⟨todo s,(h.split s).symm⟩,?_,?_,fun hzero => by omega⟩
    · rw [h.out,dropLast_concat]
      exact prefix_append _ _
    · rw [h.out,blocks_append]
      refine (prefix_append_right_inj _).mpr ?_
      cases src <;> simp [blocks,block,wireBeats,hbeats]
  | tail _ served todo p hstate h =>
    refine ⟨_,fun s => ⟨todo s,(h.split s).symm⟩,?_,?_,fun hzero => by omega⟩
    · rw [h.out,dropLast_concat]
      exact prefix_append _ _
    · rw [h.out,blocks_append]
      refine (prefix_append_right_inj _).mpr ?_
      simp [blocks,block,wireBeats]

end Clio.TxArbiter
