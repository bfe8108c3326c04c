import Mathlib

/-!
# An arbiter of packets with a fork

The lowest port with a beat is chosen and kept until the last beat of its packet is taken.
-/

namespace Clio.ArbiterFork

open List

variable {n : ℕ} {D : Type}

structure Frag (D : Type) where
  fragment : D
  last : Bool
  deriving DecidableEq, Repr

/-- A packet has a last beat. -/
structure Packet (D : Type) where
  body : List D
  tail : D
  deriving DecidableEq, Repr

def Packet.beats (q : Packet D) : List (Frag D) := q.body.map (⟨·,false⟩)++[⟨q.tail,true⟩]

/-- Port `p` has shown its beat (`shown p`); a branch of the fork has yet to take it (`linkData`,
`linkRoute`); `first`: a packet begins. -/
structure Front (n : ℕ) (D : Type) where
  locked : Option (Fin n)
  shown : Fin n → Bool
  linkData : Bool
  linkRoute : Bool
  first : Bool
  route : List (Fin n)
  inputs : Fin n → List (Frag D)
  out : List (Frag D)

structure Ready (n : ℕ) where
  arrive : Fin n → Bool
  dataReady : Bool

def offered (s : Front n D) (i : Ready n) (p : Fin n) : Option (Frag D) :=
  if s.shown p || i.arrive p then (s.inputs p).head? else none

def chosen (s : Front n D) (i : Ready n) : Option (Fin n) :=
  s.locked.or ((List.finRange n).find? fun p => (offered s i p).isSome)

def output (s : Front n D) (i : Ready n) : Option (Frag D) := (chosen s i).bind (offered s i)

def routeReady (depth : ℕ) (s : Front n D) : Bool := !s.first || decide (s.route.length < depth)

def inputReady (depth : ℕ) (s : Front n D) (i : Ready n) : Bool :=
  (i.dataReady || !s.linkData) && (routeReady depth s || !s.linkRoute)

def step (depth : ℕ) (s : Front n D) (i : Ready n) : Front n D :=
  let beat := output s i
  let dataFire := beat.isSome && s.linkData && i.dataReady
  let routeFire := beat.isSome && s.linkRoute && routeReady depth s
  let fire := beat.isSome && inputReady depth s i
  let isLast := beat.any Frag.last
  { locked := if beat.isSome then (if fire && isLast then none else chosen s i) else s.locked
    shown := fun p => (offered s i p).isSome && !(fire && decide (chosen s i = some p))
    linkData := inputReady depth s i || (s.linkData && !dataFire)
    linkRoute := inputReady depth s i || (s.linkRoute && !routeFire)
    first := if routeFire then isLast else s.first
    route := if routeFire && s.first then s.route++(chosen s i).toList else s.route
    inputs := fun p =>
      if fire && decide (chosen s i = some p) then (s.inputs p).tail else s.inputs p
    out := if dataFire then s.out++beat.toList else s.out }

def start (ins : Fin n → List (Packet D)) : Front n D :=
  ⟨none,fun _ => false,true,true,true,[],fun p => (ins p).flatMap Packet.beats,[]⟩

section

variable {P Q : Type} [DecidableEq P]

def partOf (p : P) (served : List (P × Q)) : List Q :=
  (served.filter fun x => x.1 = p).map Prod.snd

lemma part_of_append (p : P) (xs ys : List (P × Q)) :
    partOf p (xs++ys) = partOf p xs++partOf p ys := by
  rw [partOf,filter_append,map_append,partOf,partOf]

lemma part_of_single (p p' : P) (q : Q) :
    partOf p' [(p,q)] = if p' = p then [q] else [] := by
  by_cases h : p' = p
  · simp [partOf,h]
  · simp [partOf,h,Ne.symm h]

lemma part_of_length (p : P) (xs : List (P × Q)) :
    (partOf p xs).length = (xs.map Prod.fst).count p := by
  rw [partOf,length_map,← countP_eq_length_filter,List.count,countP_map]
  congr 1

end

lemma beats_ne_nil (q : Packet D) : q.beats ≠ [] := by
  simp [Packet.beats]

lemma last_iff {q : Packet D} {pre rem : List (Frag D)} {b : Frag D}
    (h : q.beats = pre++b::rem) : b.last = rem.isEmpty := by
  rw [Packet.beats] at h
  cases rem using List.reverseRecOn with
  | nil =>
    have hb := (append_inj' h rfl).2
    cases hb
    rfl
  | append_singleton rem c =>
    rw [← cons_append,← append_assoc] at h
    have hfront := (append_inj' h rfl).1
    have hmem : b ∈ q.body.map (fun d => (⟨d,false⟩ : Frag D)) := by
      rw [hfront]
      simp
    obtain ⟨d,-,rfl⟩ := mem_map.mp hmem
    simp

lemma head_beats (q : Packet D) : ∃ b rem, q.beats = b::rem := by
  cases h : q.beats with
  | nil => exact absurd h (beats_ne_nil q)
  | cons b rem => exact ⟨b,rem,rfl⟩

def only (p : Fin n) (beats : List (Frag D)) (p' : Fin n) : List (Frag D) :=
  if p' = p then beats else []

structure View (ins : Fin n → List (Packet D)) (passed : List (Fin n × Packet D))
    (todo : Fin n → List (Packet D)) (p : Fin n) (q : Packet D) (pre : List (Frag D)) (b : Frag D)
    (rem : List (Frag D)) (routed : List (Fin n × Packet D)) (s : Front n D) : Prop where
  split : ∀ p', ins p' = partOf p' (passed++[(p,q)])++todo p'
  beats : q.beats = pre++b::rem
  inputs : ∀ p', s.inputs p' = only p (b::rem) p'++(todo p').flatMap Packet.beats
  out : s.out = passed.flatMap (fun x => x.2.beats)++pre++if s.linkData then [] else [b]
  routed : routed = if s.linkRoute && pre.isEmpty then passed else passed++[(p,q)]
  first : s.first = if s.linkRoute then pre.isEmpty else b.last

/-- Between packets. -/
structure Between (ins : Fin n → List (Packet D)) (passed : List (Fin n × Packet D))
    (todo : Fin n → List (Packet D)) (s : Front n D) : Prop where
  locked : s.locked = none
  linkData : s.linkData = true
  linkRoute : s.linkRoute = true
  first : s.first = true
  split : ∀ p, ins p = partOf p passed++todo p
  inputs : ∀ p, s.inputs p = (todo p).flatMap Packet.beats
  out : s.out = passed.flatMap (fun x => x.2.beats)

inductive Stage (ins : Fin n → List (Packet D)) : List (Fin n × Packet D) → Front n D → Prop where
  | between (s : Front n D) (passed : List (Fin n × Packet D)) (todo : Fin n → List (Packet D))
      (h : Between ins passed todo s) : Stage ins passed s
  | within (s : Front n D) (passed : List (Fin n × Packet D)) (todo : Fin n → List (Packet D))
      (p : Fin n) (q : Packet D) (pre : List (Frag D)) (b : Frag D) (rem : List (Frag D))
      (routed : List (Fin n × Packet D)) (hlock : s.locked = some p)
      (hview : View ins passed todo p q pre b rem routed s)
      (hheld : s.linkData = false ∨ s.linkRoute = false → s.shown p = true) : Stage ins routed s

lemma stage_start (ins : Fin n → List (Packet D)) : Stage ins [] (start ins) :=
  .between _ [] ins ⟨rfl,rfl,rfl,rfl,fun _ => rfl,fun _ => rfl,rfl⟩

lemma between_view {ins : Fin n → List (Packet D)} {passed : List (Fin n × Packet D)}
    {todo : Fin n → List (Packet D)} {s : Front n D} (h : Between ins passed todo s) {i : Ready n}
    {p : Fin n} {b : Frag D} (hb : offered s i p = some b) :
    ∃ todo' q rem, View ins passed todo' p q [] b rem passed s := by
  have hhead : (s.inputs p).head? = some b := by
    rw [offered] at hb
    split_ifs at hb
    exact hb
  rw [h.inputs p] at hhead
  cases htodo : todo p with
  | nil => simp [htodo] at hhead
  | cons q more =>
    obtain ⟨b',rem,hbeats⟩ := head_beats q
    rw [htodo,flatMap_cons,hbeats] at hhead
    cases hhead
    refine ⟨Function.update todo p more,q,rem,?_,hbeats,?_,?_,?_,?_⟩
    · intro p'
      rw [h.split p',part_of_append,part_of_single]
      by_cases hp : p' = p
      · subst hp
        simp [htodo]
      · simp [hp]
    · intro p'
      rw [h.inputs p',only]
      by_cases hp : p' = p
      · subst hp
        simp [htodo,hbeats]
      · simp [hp]
    · simp [h.out,h.linkData]
    · simp [h.linkRoute]
    · simp [h.first,h.linkRoute]

section

variable {ins : Fin n → List (Packet D)} {passed routed : List (Fin n × Packet D)}
  {todo : Fin n → List (Packet D)} {p : Fin n} {q : Packet D} {pre rem : List (Frag D)}
  {b : Frag D} {s : Front n D} {i : Ready n}

section

variable (depth : ℕ) (hv : View ins passed todo p q pre b rem routed s) (hc : chosen s i = some p)
  (hb : offered s i p = some b)
include depth hv hc hb

lemma taken_stage (hready : inputReady depth s i = true) :
    Stage ins (passed++[(p,q)]) (step depth s i) := by
  have hout : output s i = some b := by rw [output,hc,Option.bind_some,hb]
  rw [inputReady,Bool.and_eq_true] at hready
  have hlast := last_iff hv.beats
  have hdata : (step depth s i).out = passed.flatMap (fun x => x.2.beats)++pre++[b] := by
    have := hready.1
    cases hd : s.linkData <;> simp_all [step,hv.out]
  have hfirst : (step depth s i).first = b.last := by
    have hf := hv.first
    have := hready.2
    cases hr : s.linkRoute <;> simp_all [step]
  have hin : (step depth s i).inputs = fun p' => only p rem p'++(todo p').flatMap Packet.beats := by
    funext p'
    by_cases hp : p' = p
    · subst hp
      simp [step,hout,hc,inputReady,hready,hv.inputs,only]
    · simp [step,hout,hc,inputReady,hready,hv.inputs,only,hp,Ne.symm hp]
  have hlinks : (step depth s i).linkData = true ∧ (step depth s i).linkRoute = true := by
    simp [step,inputReady,hready]
  have hlock : (step depth s i).locked = if b.last then none else some p := by
    simp [step,hout,hc,inputReady,hready]
  cases rem with
  | nil =>
    refine .between _ _ todo ⟨?_,hlinks.1,hlinks.2,?_,hv.split,?_,?_⟩
    · simp [hlock,hlast]
    · simp [hfirst,hlast]
    · intro p'
      simp [hin,only]
    · rw [hdata,flatMap_append,append_assoc,← hv.beats]
      simp
  | cons c rem =>
    refine .within _ passed todo p q (pre++[b]) c rem _ ?_ ⟨hv.split,?_,?_,?_,?_,?_⟩ ?_
    · simp [hlock,hlast]
    · simp [hv.beats]
    · intro p'
      rw [hin]
    · simp [hdata,hlinks.1]
    · simp
    · simp [hfirst,hlast,hlinks.2]
    · simp [hlinks]

lemma waiting_stage (hready : inputReady depth s i = false) :
    ∃ routed', Stage ins routed' (step depth s i) ∧
      routed' = if s.linkRoute && routeReady depth s then passed++[(p,q)] else routed := by
  have hout : output s i = some b := by rw [output,hc,Option.bind_some,hb]
  refine ⟨_,.within _ passed todo p q pre b rem _ ?_ ⟨hv.split,hv.beats,?_,?_,?_,?_⟩ ?_,rfl⟩
  · simp [step,hout,hready,hc]
  · intro p'
    simp [step,hready,hv.inputs]
  · rw [inputReady] at hready
    cases hd : s.linkData <;> cases hr : i.dataReady <;>
      simp_all [step,hv.out,inputReady]
  · have hr := hv.routed
    cases hl : s.linkRoute <;> cases hq : routeReady depth s <;>
      simp_all [step]
  · have hf := hv.first
    cases hl : s.linkRoute <;> cases hq : routeReady depth s <;>
      simp_all [step]
  · intro _
    simp [step,hb,hready]

lemma route_step :
    ∃ new, (if s.linkRoute && routeReady depth s then passed++[(p,q)] else routed) = routed++new ∧
      (step depth s i).route = s.route++new.map Prod.fst := by
  have hout : output s i = some b := by rw [output,hc,Option.bind_some,hb]
  have hf := hv.first
  have hr := hv.routed
  cases hl : s.linkRoute with
  | false => exact ⟨[],by simp,by simp [step,hl]⟩
  | true =>
    cases hq : routeReady depth s with
    | false => exact ⟨[],by simp,by simp [step,hq]⟩
    | true =>
      cases hpre : pre.isEmpty with
      | false => exact ⟨[],by simp [hr,hl,hpre],by simp [step,hf,hl,hpre]⟩
      | true =>
        refine ⟨[(p,q)],by simp [hr,hl,hpre],?_⟩
        simp [step,hout,hl,hq,hf,hpre,hc]

lemma beat_stage :
    ∃ new, Stage ins (routed++new) (step depth s i) ∧
      (step depth s i).route = s.route++new.map Prod.fst := by
  obtain ⟨new,hnew,hroute⟩ := route_step depth hv hc hb
  refine ⟨new,?_,hroute⟩
  rw [← hnew]
  cases hready : inputReady depth s i with
  | false =>
    obtain ⟨routed',hstage,rfl⟩ := waiting_stage depth hv hc hb hready
    exact hstage
  | true =>
    have htaken := taken_stage depth hv hc hb hready
    have hr := hv.routed
    rw [inputReady,Bool.and_eq_true] at hready
    cases hl : s.linkRoute with
    | false => simpa [hr,hl] using htaken
    | true =>
      have hq : routeReady depth s = true := by simpa [hl] using hready.2
      simpa [hq] using htaken

end

lemma step_no_beat (depth : ℕ) (hout : output s i = none) (hd : s.linkData = true)
    (hr : s.linkRoute = true) :
    step depth s i = { s with shown := fun p => (offered s i p).isSome } := by
  simp [step,hout,hd,hr]

end

variable {s : Front n D}

lemma chosen_between {i : Ready n} (hlock : s.locked = none) {p : Fin n}
    (hc : chosen s i = some p) : ∃ b, offered s i p = some b := by
  rw [chosen,hlock,Option.none_or] at hc
  have hsome := List.find?_some hc
  exact Option.isSome_iff_exists.mp hsome

variable (depth : ℕ) {ins : Fin n → List (Packet D)} {routed : List (Fin n × Packet D)}

lemma step_stage (hs : Stage ins routed s) (i : Ready n) :
    ∃ new, Stage ins (routed++new) (step depth s i) ∧
      (step depth s i).route = s.route++new.map Prod.fst := by
  cases hs with
  | between _ passed todo h =>
    cases hc : chosen s i with
    | none =>
      refine ⟨[],?_,?_⟩
      · rw [step_no_beat depth (by rw [output,hc]; rfl) h.linkData h.linkRoute,append_nil]
        exact .between _ routed todo
          ⟨h.locked,h.linkData,h.linkRoute,h.first,h.split,h.inputs,h.out⟩
      · rw [step_no_beat depth (by rw [output,hc]; rfl) h.linkData h.linkRoute]
        simp
    | some p =>
      obtain ⟨b,hb⟩ := chosen_between h.locked hc
      obtain ⟨todo',q,rem,hv⟩ := between_view h hb
      exact beat_stage depth hv hc hb
  | within _ passed todo p q pre b rem _ hlock hv hheld =>
    have hc : chosen s i = some p := by rw [chosen,hlock,Option.some_or]
    have hhead : (s.inputs p).head? = some b := by simp [hv.inputs,only]
    cases hseen : s.shown p || i.arrive p with
    | true => exact beat_stage depth hv hc (by rw [offered,hseen,if_pos rfl,hhead])
    | false =>
      have hnone : output s i = none := by simp [output,hc,offered,hseen]
      have hnot : s.shown p = false := (Bool.or_eq_false_iff.mp hseen).1
      have hd : s.linkData = true := by
        by_contra h
        simp [hheld (.inl (Bool.not_eq_true _ ▸ h))] at hnot
      have hr : s.linkRoute = true := by
        by_contra h
        simp [hheld (.inr (Bool.not_eq_true _ ▸ h))] at hnot
      rw [step_no_beat depth hnone hd hr]
      refine ⟨[],?_,by simp⟩
      rw [append_nil]
      exact .within _ passed todo p q pre b rem _ hlock
        ⟨hv.split,hv.beats,hv.inputs,hv.out,hv.routed,hv.first⟩ (by simp [hd,hr])

lemma stage_output (hs : Stage ins routed s) :
    ∃ more, (∀ p, partOf p (routed++more) <+: ins p) ∧
      s.out <+: (routed++more).flatMap (fun x => x.2.beats) := by
  cases hs with
  | between _ passed todo h =>
    refine ⟨[],fun p => ⟨todo p,?_⟩,?_⟩
    · rw [append_nil,h.split p]
    · rw [append_nil,h.out]
  | within _ passed todo p q pre b rem _ hlock hv hheld =>
    have hall : s.out <+: (passed++[(p,q)]).flatMap (fun x => x.2.beats) := by
      rw [hv.out,flatMap_append,append_assoc]
      refine (prefix_append_right_inj _).mpr ?_
      rw [flatMap_singleton,hv.beats]
      refine (prefix_append_right_inj _).mpr ?_
      split_ifs
      · exact nil_prefix
      · exact ⟨rem,rfl⟩
    have hr := hv.routed
    split_ifs at hr with hnew
    · refine ⟨[(p,q)],fun p' => ⟨todo p',?_⟩,?_⟩
      · rw [hr,hv.split p']
      · rw [hr]
        exact hall
    · refine ⟨[],fun p' => ⟨todo p',?_⟩,?_⟩
      · rw [append_nil,hr,hv.split p']
      · rw [append_nil,hr]
        exact hall

/-- Beats that are still to come. -/
def left (s : Front n D) : ℕ := ∑ p, (s.inputs p).length

lemma left_zero (h : left s = 0) (p : Fin n) : s.inputs p = [] := by
  rw [left,Finset.sum_eq_zero_iff] at h
  exact eq_nil_of_length_eq_zero (h p (Finset.mem_univ p))

lemma stage_end (hs : Stage ins routed s) (hleft : left s = 0) :
    (∀ p, partOf p routed = ins p) ∧ s.out = routed.flatMap fun x => x.2.beats := by
  cases hs with
  | between _ passed todo h =>
    refine ⟨fun p => ?_,h.out⟩
    have hnil := left_zero hleft p
    rw [h.inputs p,flatMap_eq_nil_iff] at hnil
    have htodo : todo p = [] := eq_nil_iff_forall_not_mem.mpr fun q hq =>
      beats_ne_nil q (hnil q hq)
    rw [h.split p,htodo,append_nil]
  | within _ passed todo p q pre b rem _ hlock hv hheld =>
    have hnil := left_zero hleft p
    rw [hv.inputs p] at hnil
    simp [only] at hnil

lemma sum_update {f g : Fin n → ℕ} {p : Fin n} {k : ℕ} (hp : f p = g p+k)
    (hother : ∀ p', p' ≠ p → f p' = g p') : ∑ p, f p = ∑ p, g p+k := by
  rw [← Finset.add_sum_erase _ f (Finset.mem_univ p),
    ← Finset.add_sum_erase _ g (Finset.mem_univ p),
    Finset.sum_congr rfl fun p' h => hother p' (Finset.ne_of_mem_erase h),hp]
  exact Nat.add_right_comm _ _ _

lemma left_step_le (s : Front n D) (i : Ready n) : left (step depth s i) ≤ left s := by
  refine Finset.sum_le_sum fun p _ => ?_
  simp only [step]
  split_ifs
  · rw [length_tail]
    omega
  · exact le_refl _

lemma left_step_full (hs : Stage ins routed s) {i : Ready n} (harrive : ∀ p, i.arrive p = true)
    (hdata : i.dataReady = true) (hroom : s.route.length < depth) (hleft : left s ≠ 0) :
    left s = left (step depth s i)+1 := by
  have hseen : ∀ p, offered s i p = (s.inputs p).head? := by
    intro p
    rw [offered,harrive p,Bool.or_true,if_pos rfl]
  have hchosen : ∃ p b, chosen s i = some p ∧ (s.inputs p).head? = some b := by
    cases hs with
    | between _ passed todo h =>
      obtain ⟨p,-,hp⟩ := Finset.exists_ne_zero_of_sum_ne_zero hleft
      have hsome : (offered s i p).isSome = true := by
        rw [hseen,isSome_head?]
        simpa using hp
      cases hc : chosen s i with
      | none =>
        rw [chosen,h.locked,Option.none_or,List.find?_eq_none] at hc
        exact absurd hsome (hc p (mem_finRange p))
      | some p' =>
        obtain ⟨b,hb⟩ := chosen_between h.locked hc
        exact ⟨p',b,rfl,hseen p' ▸ hb⟩
    | within _ passed todo p q pre b rem _ hlock hv hheld =>
      exact ⟨p,b,by rw [chosen,hlock,Option.some_or],by simp [hv.inputs,only]⟩
  obtain ⟨p,b,hc,hhead⟩ := hchosen
  have hout : output s i = some b := by rw [output,hc,Option.bind_some,hseen,hhead]
  have hready : inputReady depth s i = true := by simp [inputReady,hdata,routeReady,hroom]
  refine sum_update (p := p) ?_ fun p' hp => ?_
  · cases hin : s.inputs p with
    | nil => simp [hin] at hhead
    | cons c rest => simp [step,hout,hready,hc,hin]
  · simp [step,hout,hready,hc,Ne.symm hp]

end Clio.ArbiterFork
